import PullGate.Proofs.Text.Decoding
import PullGate.Text.Case
/-!
# Letters beyond ASCII

What the case mappings do across the border of ASCII. A character beyond ASCII may have letters of
ASCII for its capital or small form: a dotless i, a long s, a ligature. The tables say which letters can come
to be so (`exists_mem_capital`, `mem_small`). No text but a word itself, in small and capital letters,
becomes the word in capitals, if none of these letters is in it (`toCapitals_eq_iff`).
-/

namespace PullGate.Text

/-! ## Tables -/

/-- All images of the run lie beyond ASCII, or it is a run of one character with one of these letters
for its image. -/
def CaseRun.leadsTo (letters : List Char) (r : CaseRun) : Bool :=
  let last := r.image + (r.last - r.first)
  (0x80 ≤ r.image && (last < 0xd800 || 0xdfff < r.image && last < 0x110000)) ||
    (r.first == r.last && letters.contains (Char.ofNat r.image))

/-- The images of a run lie outside ASCII or among these letters. -/
theorem CaseRun.leadsTo_image {letters : List Char} {r : CaseRun} (h : r.leadsTo letters = true)
    {distance : Nat} (hle : distance ≤ r.last - r.first) :
    0x80 ≤ (Char.ofNat (r.image + distance)).toNat ∨ Char.ofNat (r.image + distance) ∈ letters := by
  simp only [leadsTo, Bool.or_eq_true, Bool.and_eq_true, decide_eq_true_eq, beq_iff_eq,
    List.contains_iff_mem] at h
  rcases h with ⟨himage, hlast⟩ | ⟨hone, hletter⟩
  · left
    rw [Utf8.toNat_ofNat (by omega)]
    omega
  · right
    rw [show distance = 0 by omega]
    exact hletter

/-- A run that a character is in gives its image. -/
theorem exists_of_imageInRuns {runs : List CaseRun} {n image : Nat} (h : imageInRuns runs n = some image) :
    ∃ r ∈ runs, ∃ distance ≤ r.last - r.first, image = r.image + distance := by
  obtain ⟨r, hr, hfound⟩ := List.exists_of_findSome?_eq_some h
  split at hfound
  · rename_i hrange
    simp only [Bool.and_eq_true, decide_eq_true_eq] at hrange
    refine ⟨r, hr, n - r.first, by omega, ?_⟩
    exact (Option.some.inj hfound).symm
  · cases hfound

/-- An image is one of a sequence or of a run, and a character that is in neither is its own. -/
theorem caseImage_cases (runs : List CaseRun) (sequences : List (Nat × List Nat)) (c : Char) :
    (∃ s ∈ sequences, caseImage runs sequences c = s.2.map Char.ofNat) ∨
      (∃ r ∈ runs, ∃ distance ≤ r.last - r.first,
        caseImage runs sequences c = [Char.ofNat (r.image + distance)]) ∨
      caseImage runs sequences c = [c] := by
  unfold caseImage
  split
  · rename_i s hs
    exact .inl ⟨_, List.mem_of_find?_eq_some hs, rfl⟩
  · split
    · rename_i image himage
      obtain ⟨r, hr, distance, hle, rfl⟩ := exists_of_imageInRuns himage
      exact .inr (.inl ⟨r, hr, distance, hle, rfl⟩)
    · exact .inr (.inr rfl)

/-- Letters of which every capital form in ASCII of other characters has one: the capitals of dotless i,
of long s and of sharp s, and those that the ligatures begin with. -/
def foreignCapitals : List Char := ['F', 'I', 'S']

/-- The letters that are in small forms of other characters: of an i with a dot above, and of the unit
of temperature. -/
def foreignSmalls : List Char := ['i', 'k']

/-- The character is beyond ASCII, or one of these letters. -/
def leadsOut (letters : List Char) (c : Char) : Bool := 0x80 ≤ c.toNat || letters.contains c

/-- A character is outside ASCII or one of these letters. -/
theorem leadsOut_iff {letters : List Char} {c : Char} :
    leadsOut letters c = true ↔ 0x80 ≤ c.toNat ∨ c ∈ letters := by
  rw [leadsOut, Bool.or_eq_true, decide_eq_true_eq, List.contains_iff_mem]

/-- What the tables say of these letters. -/
theorem tables_leadTo :
    (capitalRuns.all (·.leadsTo foreignCapitals) = true ∧
      capitalSequences.all (fun s => (s.2.map Char.ofNat).any (leadsOut foreignCapitals)) = true) ∧
    smallRuns.all (·.leadsTo foreignSmalls) = true ∧
      smallSequences.all (fun s => (s.2.map Char.ofNat).all (leadsOut foreignSmalls)) = true := by
  decide +kernel

/-! ## Capitals -/

/-- The capital form of a character beyond ASCII has a character beyond ASCII, or one of these letters. -/
theorem exists_mem_capital {c : Char} (hc : ¬ c.toNat < 0x80) :
    ∃ d ∈ capital c, 0x80 ≤ d.toNat ∨ d ∈ foreignCapitals := by
  obtain ⟨⟨hruns, hsequences⟩, -⟩ := tables_leadTo
  rw [capital, if_neg hc]
  rcases caseImage_cases capitalRuns capitalSequences c with
    ⟨s, hs, himage⟩ | ⟨r, hr, k, hk, himage⟩ | himage
  · rw [himage]
    obtain ⟨d, hd, hletter⟩ := List.any_eq_true.1 (List.all_eq_true.1 hsequences s hs)
    exact ⟨d, hd, leadsOut_iff.1 hletter⟩
  · rw [himage]
    exact ⟨_, List.mem_singleton_self _, CaseRun.leadsTo_image (List.all_eq_true.1 hruns r hr) hk⟩
  · rw [himage]
    exact ⟨c, List.mem_singleton_self c, .inl (by omega)⟩

/-- A word of ASCII with none of the letters that other characters become. -/
def isUnmistakable (word : String) : Bool :=
  word.toList.all fun d => d.toNat < 0x80 && !foreignCapitals.contains d

/-- A word is unmistakable if all its letters are in ASCII and none is the capital of a character
outside. -/
theorem isUnmistakable_iff {word : String} :
    isUnmistakable word = true ↔ ∀ d ∈ word.toList, d.toNat < 0x80 ∧ d ∉ foreignCapitals := by
  simp [isUnmistakable]

/-- Small letters become capital only in ASCII. -/
theorem toNat_lt_of_toUpper {c : Char} (h : c.toUpper.toNat < 0x80) : c.toNat < 0x80 := by
  unfold Char.toUpper at h
  split at h
  · rename_i hc
    exact Nat.lt_of_le_of_lt (UInt32.le_iff_toNat_le.1 hc.2) (by decide)
  · exact h

/-- The capitals of a text in ASCII are those of its letters. -/
theorem toList_toCapitals_of_ascii {text : String} (h : ∀ c ∈ text.toList, c.toNat < 0x80) :
    (toCapitals text).toList = text.toList.map Char.toUpper := by
  rw [toList_toCapitals, List.map_eq_flatMap]
  exact congrArg List.flatten (List.map_congr_left fun c hc => capital_ascii (h c hc))

/-- A word of ASCII in small and capital letters becomes the word in capitals. -/
theorem toCapitals_of_map_toUpper {text word : String}
    (hword : word.toList.all (·.toNat < 0x80) = true)
    (h : text.toList.map Char.toUpper = word.toList) : toCapitals text = word := by
  have hascii : ∀ c ∈ text.toList, c.toNat < 0x80 := by
    intro c hc
    refine toNat_lt_of_toUpper (of_decide_eq_true (List.all_eq_true.1 hword c.toUpper ?_))
    rw [← h]
    exact List.mem_map_of_mem hc
  rw [← String.toList_inj, toList_toCapitals_of_ascii hascii, h]

/-- A text that becomes a word of other capitals than those is of ASCII. -/
theorem ascii_of_toCapitals {text word : String} (hword : isUnmistakable word = true)
    (h : toCapitals text = word) : ∀ c ∈ text.toList, c.toNat < 0x80 := by
  intro c hc
  by_contra hforeign
  obtain ⟨d, hd, hletter⟩ := exists_mem_capital hforeign
  have hmem : d ∈ word.toList := by
    rw [← h, toList_toCapitals]
    exact List.mem_flatMap_of_mem hc hd
  obtain ⟨hascii, hother⟩ := isUnmistakable_iff.1 hword d hmem
  rcases hletter with hbeyond | hletter
  · omega
  · exact hother hletter

/-- Exactly the texts that are the word in small and capital letters become the word in capitals. -/
theorem toCapitals_eq_iff {text word : String} (hword : isUnmistakable word = true) :
    toCapitals text = word ↔ text.toList.map Char.toUpper = word.toList := by
  constructor
  · intro h
    rw [← toList_toCapitals_of_ascii (ascii_of_toCapitals hword h), h]
  · refine toCapitals_of_map_toUpper (List.all_eq_true.2 fun d hd => ?_)
    exact decide_eq_true (isUnmistakable_iff.1 hword d hd).1

/-! ## Small letters -/

/-- No character beyond ASCII becomes a small letter of ASCII other than these. -/
theorem mem_small {c : Char} (hc : ¬ c.toNat < 0x80) :
    ∀ d ∈ small c, 0x80 ≤ d.toNat ∨ d ∈ foreignSmalls := by
  obtain ⟨-, hruns, hsequences⟩ := tables_leadTo
  intro d hd
  rw [small, if_neg hc] at hd
  rcases caseImage_cases smallRuns smallSequences c with
    ⟨s, hs, himage⟩ | ⟨r, hr, k, hk, himage⟩ | himage
  · rw [himage] at hd
    exact leadsOut_iff.1 (List.all_eq_true.1 (List.all_eq_true.1 hsequences s hs) d hd)
  · rw [himage, List.mem_singleton] at hd
    rw [hd]
    exact CaseRun.leadsTo_image (List.all_eq_true.1 hruns r hr) hk
  · rw [himage, List.mem_singleton] at hd
    rw [hd]
    exact .inl (by omega)

end PullGate.Text
