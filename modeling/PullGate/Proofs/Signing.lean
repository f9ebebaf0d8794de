import Mathlib.Data.List.Forall2
import PullGate.Signature
import PullGate.Text.Utf8
/-!
# Signed headers

Which headers sign a body, and what is said about the others. `decode?_eq_none_iff` and
`decode?_eq_some_iff` say of every text whether it is hexadecimal, and of which bytes; letters count
in either case. From this `verify_cases` says of every header what it comes to.
-/

namespace PullGate

/-! ## Hexadecimal texts in either case -/

namespace Text.Hex

/-- The digits of hexadecimal texts, with letters in either case. -/
def digits : List Char :=
  ['0', '1', '2', '3', '4', '5', '6', '7', '8', '9', 'a', 'b', 'c', 'd', 'e', 'f',
    'A', 'B', 'C', 'D', 'E', 'F']

/-- A text is another one, some of whose letters were made capitals. -/
def CaseVariant (text other : List Char) : Prop :=
  List.Forall₂ (fun c d => c = d ∨ c = d.toUpper) text other

/-- What holds of all ASCII characters is checked one by one. -/
theorem of_ascii {P : Char → Prop} (h : ∀ n < 0x80, P (Char.ofNat n)) {c : Char}
    (hc : c.toNat < 0x80) : P c := by
  have hP := h c.toNat hc
  rwa [Char.ofNat_toNat] at hP

/-- A character outside ASCII has no small letter in ASCII. -/
theorem toLower_eq_self {c : Char} (h : ¬ c.toNat < 0x80) : c.toLower = c := by
  unfold Char.toLower
  rw [dif_neg]
  rintro ⟨-, hle⟩
  have hnat : c.toNat ≤ 0x5a := UInt32.le_iff_toNat_le.1 hle
  omega

theorem value?_of_not_ascii {c : Char} (h : ¬ c.toNat < 0x80) : value? c = none := by
  unfold value?
  grind

theorem value?_isSome_iff {c : Char} : (value? c).isSome = true ↔ c ∈ digits := by
  by_cases hc : c.toNat < 0x80
  · exact of_ascii (P := fun c => (value? c).isSome = true ↔ c ∈ digits) (by decide +kernel) hc
  · have hall : digits.all (fun d => d.toNat < 0x80) = true := by decide
    rw [value?_of_not_ascii hc]
    exact ⟨nofun, fun hmem => absurd (of_decide_eq_true (List.all_eq_true.1 hall c hmem)) hc⟩

theorem value?_eq_none_iff {c : Char} : value? c = none ↔ c ∉ digits := by
  rw [← value?_isSome_iff, Option.not_isSome_iff_eq_none]

/-- Capitals are worth as much as small letters. -/
theorem value?_toLower (c : Char) : value? c.toLower = value? c := by
  by_cases hc : c.toNat < 0x80
  · exact of_ascii (P := fun c => value? c.toLower = value? c) (by decide +kernel) hc
  · rw [toLower_eq_self hc]

/-- A character has a value exactly if it is the digit that is written for it, or its capital. -/
theorem value?_eq_some_iff {c : Char} {v : Nat} (hv : v < 16) :
    value? c = some v ↔ c.toLower = digit v := by
  have hascii : ∀ n < 0x80, ∀ v ∈ value? (Char.ofNat n), (Char.ofNat n).toLower = digit v := by
    decide +kernel
  constructor
  · intro h
    have hc : c.toNat < 0x80 := by
      by_contra hc
      cases (value?_of_not_ascii hc).symm.trans h
    exact of_ascii (P := fun c => ∀ v ∈ value? c, c.toLower = digit v) hascii hc v h
  · intro h
    rw [← value?_toLower, h, value?_digit hv]

/-- In small letters a character is a digit if it is the digit or its capital. -/
theorem toLower_eq_digit_iff {c : Char} {v : Nat} (hv : v < 16) :
    c.toLower = digit v ↔ c = digit v ∨ c = (digit v).toUpper := by
  have hdigits : ∀ v < 16, (digit v).toLower = digit v ∧ (digit v).toUpper.toLower = digit v := by
    decide
  constructor
  · intro h
    rw [← h]
    by_cases hc : c.toNat < 0x80
    · exact of_ascii (P := fun c => c = c.toLower ∨ c = c.toLower.toUpper) (by decide +kernel) hc
    · exact .inl (toLower_eq_self hc).symm
  · rintro (rfl | rfl)
    · exact (hdigits v hv).1
    · exact (hdigits v hv).2

theorem value?_lt {c : Char} {v : Nat} (h : value? c = some v) : v < 16 := by
  unfold value? at h
  grind

/-- A text is hexadecimal unless a character is left over or is no digit. -/
theorem decode?_eq_none_iff {text : List Char} :
    decode? text = none ↔ text.length % 2 = 1 ∨ ∃ c ∈ text, c ∉ digits := by
  induction text using decode?.induct with
  | case1 => simp [decode?]
  | case2 c => simp [decode?]
  | case3 a b rest ih =>
    rcases ha : value? a with _ | high
    · simp [decode?, ha, value?_eq_none_iff.1 ha]
    rcases hb : value? b with _ | low
    · simp [decode?, ha, hb, value?_eq_none_iff.1 hb]
    have ha' : a ∈ digits := value?_isSome_iff.1 (Option.isSome_of_eq_some ha)
    have hb' : b ∈ digits := value?_isSome_iff.1 (Option.isSome_of_eq_some hb)
    have hrest : decode? (a :: b :: rest) = none ↔ decode? rest = none := by
      cases h : decode? rest <;> simp [decode?, ha, hb, h]
    have hparity : (rest.length + 1 + 1) % 2 = rest.length % 2 := by omega
    rw [hrest, ih]
    simp [ha', hb', hparity]

theorem encode_cons (b : UInt8) (bytes : List UInt8) :
    encode (b :: bytes) = digit (b.toNat / 16) :: digit (b.toNat % 16) :: encode bytes := rfl

/-- Reading takes exactly the texts that are written for bytes, with letters in either case. -/
theorem decode?_eq_some_iff {text : List Char} {bytes : List UInt8} :
    decode? text = some bytes ↔ text.map Char.toLower = encode bytes := by
  constructor
  · intro h
    -- two letters make a byte, so the induction follows the reader and not the list
    induction text using decode?.induct generalizing bytes with
    | case1 =>
      cases h
      rfl
    | case2 c => cases h
    | case3 a b rest ih =>
      simp only [decode?, Option.bind_eq_bind, Option.bind_eq_some_iff, Option.pure_def,
        Option.some.injEq] at h
      obtain ⟨high, ha, low, hb, bytes, hrest, rfl⟩ := h
      have hhigh := value?_lt ha
      have hlow := value?_lt hb
      have hbyte : (UInt8.ofNat (high * 16 + low)).toNat = high * 16 + low := by
        simp
        omega
      rw [encode_cons, hbyte, show (high * 16 + low) / 16 = high by omega,
        show (high * 16 + low) % 16 = low by omega, List.map_cons, List.map_cons,
        (value?_eq_some_iff hhigh).1 ha, (value?_eq_some_iff hlow).1 hb, ih hrest]
  · intro h
    induction bytes generalizing text with
    | nil =>
      obtain rfl := List.map_eq_nil_iff.1 h
      rfl
    | cons byte bytes ih =>
      rw [encode_cons] at h
      obtain ⟨a, text, rfl, ha, h⟩ := List.map_eq_cons_iff.1 h
      obtain ⟨b, text, rfl, hb, h⟩ := List.map_eq_cons_iff.1 h
      -- a byte's two digits are below sixteen, so they are the ones that its letters stand for
      have hbyte := byte.toNat_lt
      rw [decode?, (value?_eq_some_iff (by omega)).2 ha, (value?_eq_some_iff (by omega)).2 hb, ih h]
      simp only [Option.bind_eq_bind, Option.bind_some, Option.pure_def,
        show byte.toNat / 16 * 16 + byte.toNat % 16 = byte.toNat by omega, UInt8.ofNat_toNat]

/-- What is written for bytes, in small letters, is what its variants are in small letters. -/
theorem caseVariant_encode_iff {text : List Char} {bytes : List UInt8} :
    CaseVariant text (encode bytes) ↔ text.map Char.toLower = encode bytes := by
  induction bytes generalizing text with
  | nil => simp [CaseVariant, encode]
  | cons byte bytes ih =>
    have hbyte := byte.toNat_lt
    have hhigh (c : Char) := toLower_eq_digit_iff (c := c) (show byte.toNat / 16 < 16 by omega)
    have hlow (c : Char) := toLower_eq_digit_iff (c := c) (show byte.toNat % 16 < 16 by omega)
    rw [encode_cons]
    rcases text with _ | ⟨a, _ | ⟨b, text⟩⟩
    · simp [CaseVariant]
    · simp [CaseVariant]
    · have htail : List.Forall₂ (fun c d => c = d ∨ c = d.toUpper) text (encode bytes) ↔ _ := ih
      simp only [CaseVariant, List.forall₂_cons, htail, List.map_cons, List.cons.injEq, hhigh, hlow]

end Text.Hex

/-! ## Headers -/

namespace Secret

open Text (Hex.encode Hex.digits Hex.CaseVariant)

/-- What follows the beginning is read as hexadecimal text. -/
theorem digestOf?_append (rest : String) :
    digestOf? ("sha256=" ++ rest) = Text.Hex.decode? rest.toList := by
  simp [digestOf?, signatureStart]

/-- A text that begins otherwise holds no digest. -/
theorem digestOf?_of_ne {text : String} (h : ∀ rest, text ≠ "sha256=" ++ rest) :
    digestOf? text = none := by
  rw [digestOf?, if_neg]
  intro hbegins
  obtain ⟨rest, hrest⟩ := List.isPrefixOf_iff_prefix.1 hbegins
  have hwhole : ("sha256=" ++ String.ofList rest).toList = signatureStart ++ rest := by
    simp [signatureStart]
  exact h (String.ofList rest) (String.toList_inj.1 (hrest.symm.trans hwhole.symm))

/-- A text has no digest if it does not begin as it should, or goes on with an odd number of characters
or one that is no digit. -/
theorem digestOf?_eq_none_iff {text : String} :
    digestOf? text = none ↔ (∀ rest, text ≠ "sha256=" ++ rest) ∨
      ∃ rest, text = "sha256=" ++ rest ∧
        (rest.length % 2 = 1 ∨ ∃ c ∈ rest.toList, c ∉ Hex.digits) := by
  by_cases h : ∃ rest, text = "sha256=" ++ rest
  · obtain ⟨rest, rfl⟩ := h
    rw [digestOf?_append, Text.Hex.decode?_eq_none_iff, String.length_toList]
    constructor
    · exact fun hrest => .inr ⟨rest, rfl, hrest⟩
    · rintro (hne | ⟨rest', heq, hrest⟩)
      · exact absurd rfl (hne rest)
      · obtain rfl := (String.append_right_inj _).1 heq
        exact hrest
  · have hne : ∀ rest, text ≠ "sha256=" ++ rest := fun rest heq => h ⟨rest, heq⟩
    exact iff_of_true (digestOf?_of_ne hne) (.inl hne)

/-- A text has a digest if it spells it, in small or capital letters, behind its beginning. -/
theorem digestOf?_eq_some_iff {text : String} {digest : List UInt8} :
    digestOf? text = some digest ↔
      ∃ rest, text = "sha256=" ++ rest ∧ rest.toList.map Char.toLower = Hex.encode digest := by
  constructor
  · intro h
    have hbegins : ∃ rest, text = "sha256=" ++ rest := by
      by_contra hne
      cases (digestOf?_of_ne fun rest heq => hne ⟨rest, heq⟩).symm.trans h
    obtain ⟨rest, rfl⟩ := hbegins
    rw [digestOf?_append] at h
    exact ⟨rest, rfl, Text.Hex.decode?_eq_some_iff.1 h⟩
  · rintro ⟨rest, rfl, hrest⟩
    rw [digestOf?_append]
    exact Text.Hex.decode?_eq_some_iff.2 hrest

variable (s : Secret) (body : List UInt8)

/-- A digest has 32 bytes. -/
theorem length_sign : (s.sign body).length = 32 := rfl

/-- A header spells the digest in small letters, behind its beginning. -/
theorem header_eq : s.header body = "sha256=" ++ String.ofList (Hex.encode (s.sign body)) := by
  rw [header, String.ofList_append]
  rfl

variable (header : Option String)

/-- A signature is missed if there is no header. -/
theorem verify_eq_missing_iff : s.verify body header = .error .missing ↔ header = none := by
  cases header with
  | none => simp [verify]
  | some text =>
    cases h : digestOf? text with
    | none => simp [verify, h]
    | some digest => by_cases hd : digest = s.sign body <;> simp [verify, h, hd]

/-- It is malformed if the header has no digest. -/
theorem verify_eq_malformed_iff :
    s.verify body header = .error .malformed ↔ ∃ text, header = some text ∧ digestOf? text = none := by
  cases header with
  | none => simp [verify]
  | some text =>
    cases h : digestOf? text with
    | none => simp [verify, h]
    | some digest => by_cases hd : digest = s.sign body <;> simp [verify, h, hd]

/-- It is accepted if the header spells the body's digest. -/
theorem verify_eq_ok_iff :
    s.verify body header = .ok () ↔ ∃ rest, header = some ("sha256=" ++ rest) ∧
      rest.toList.map Char.toLower = Hex.encode (s.sign body) := by
  cases header with
  | none => simp [verify]
  | some text =>
    have hok : s.verify body (some text) = .ok () ↔ digestOf? text = some (s.sign body) := by
      cases h : digestOf? text <;> simp [verify, h]
    rw [hok, digestOf?_eq_some_iff]
    simp only [Option.some.injEq]

/-- It does not match if the header spells another digest. -/
theorem verify_eq_mismatch_iff :
    s.verify body header = .error .mismatch ↔ ∃ rest digest, header = some ("sha256=" ++ rest) ∧
      rest.toList.map Char.toLower = Hex.encode digest ∧ digest ≠ s.sign body := by
  cases header with
  | none => simp [verify]
  | some text =>
    have hmismatch : s.verify body (some text) = .error .mismatch ↔
        ∃ digest, digestOf? text = some digest ∧ digest ≠ s.sign body := by
      cases h : digestOf? text <;> simp [verify, h]
    rw [hmismatch]
    constructor
    · rintro ⟨digest, htext, hne⟩
      obtain ⟨rest, rfl, hrest⟩ := digestOf?_eq_some_iff.1 htext
      exact ⟨rest, digest, rfl, hrest, hne⟩
    · rintro ⟨rest, digest, heq, hrest, hne⟩
      exact ⟨digest, digestOf?_eq_some_iff.2 ⟨rest, Option.some.inj heq, hrest⟩, hne⟩

/-- **What a header comes to.** There is none; or it does not begin as signatures do, or goes on with a
character left over or with one that is no digit; or it goes on with the text of the body's digest, in
letters of either case; or with that of other bytes, as when some of the digest's bytes, or all, are
missing at its end, or some follow it. The header that the secret makes is accepted, and with it those
that differ from it in the case of letters after the beginning, and no others. -/
theorem verify_cases :
    (s.verify body header = .error .missing ↔ header = none) ∧
    (s.verify body header = .error .malformed ↔ ∃ text, header = some text ∧
      ((∀ rest, text ≠ "sha256=" ++ rest) ∨ ∃ rest, text = "sha256=" ++ rest ∧
        (rest.length % 2 = 1 ∨ ∃ c ∈ rest.toList, c ∉ Hex.digits))) ∧
    (s.verify body header = .ok () ↔ ∃ rest, header = some ("sha256=" ++ rest) ∧
      rest.toList.map Char.toLower = Hex.encode (s.sign body)) ∧
    (s.verify body header = .error .mismatch ↔ ∃ rest digest, header = some ("sha256=" ++ rest) ∧
      rest.toList.map Char.toLower = Hex.encode digest ∧ digest ≠ s.sign body) ∧
    (∀ count < 32, s.verify body
      (some ("sha256=" ++ String.ofList (Hex.encode ((s.sign body).take count)))) = .error .mismatch) ∧
    (∀ more ≠ [], s.verify body
      (some ("sha256=" ++ String.ofList (Hex.encode (s.sign body ++ more)))) = .error .mismatch) ∧
    s.header body = "sha256=" ++ String.ofList (Hex.encode (s.sign body)) ∧
    s.verify body (some (s.header body)) = .ok () ∧
    (s.verify body header = .ok () ↔ ∃ rest, header = some ("sha256=" ++ rest) ∧
      Hex.CaseVariant rest.toList (Hex.encode (s.sign body))) := by
  have hother (digest : List UInt8) (hne : digest ≠ s.sign body) :
      s.verify body (some ("sha256=" ++ String.ofList (Hex.encode digest))) = .error .mismatch := by
    refine (s.verify_eq_mismatch_iff body _).2 ⟨_, digest, rfl, ?_, hne⟩
    rw [String.toList_ofList]
    exact Text.Hex.decode?_eq_some_iff.1 (Text.Hex.decode?_encode digest)
  refine ⟨s.verify_eq_missing_iff body header, ?_, s.verify_eq_ok_iff body header,
    s.verify_eq_mismatch_iff body header, fun count hcount => hother _ ?_,
    fun more hmore => hother _ ?_, s.header_eq body, s.verify_header body, ?_⟩
  · simp only [verify_eq_malformed_iff, digestOf?_eq_none_iff]
  · intro heq
    have hlength := congrArg List.length heq
    rw [List.length_take, length_sign] at hlength
    omega
  · intro heq
    exact hmore (List.append_right_eq_self.1 heq)
  · simp only [verify_eq_ok_iff, Text.Hex.caseVariant_encode_iff]

/-- The header of a known body in capitals is accepted, but not its beginning alone. -/
theorem verify_cases_capitals :
    let s : Secret := ⟨Text.Utf8.ofString "It's a Secret to Everybody"⟩
    let body := Text.Utf8.ofString "Hello, World!"
    s.verify body (some ("sha256=" ++
      "757107EA0EB2509FC211221CCE984B8A37570B6D7586C22C46F4379C8B043E17")) = .ok () ∧
    0 < 32 ∧ s.verify body (some ("sha256=" ++ "")) = .error .mismatch := by
  intro s body
  obtain ⟨-, -, hok, -, hshort, -⟩ := s.verify_cases body (some ("sha256=" ++
    "757107EA0EB2509FC211221CCE984B8A37570B6D7586C22C46F4379C8B043E17"))
  exact ⟨hok.2 ⟨_, rfl, by decide +kernel⟩, by decide, hshort 0 (by decide)⟩

end Secret

end PullGate
