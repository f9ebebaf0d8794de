import Mathlib.Data.List.Infix
import PullGate.Text.Case
import PullGate.Text.Search
/-!
# Where texts occur

A text may be spelled from parts with walls between them. If its walls bar a word, the word occurs in
the text only where it occurs in a part (`infix_append_spell`), and this can be seen from the walls and
the word alone.
-/

namespace PullGate.Text

/-! ## Walls -/

/-- A word that stands across a wall is impossible: the wall ends with no beginning of the word, begins
with no end of it, and none of them holds the other. -/
def Bars (wall word : List Char) : Prop :=
  ¬ word <:+: wall ∧ ¬ wall <:+: word ∧ (∀ l, l <+: word → l <:+ wall → l = []) ∧
    ∀ l, l <:+ word → l <+: wall → l = []

/-- Whether a wall bars a word. -/
def bars (wall word : List Char) : Bool :=
  !occursIn word wall && !occursIn wall word &&
    (word.inits.all fun l => !l.reverse.isPrefixOf wall.reverse || l.isEmpty) &&
    (word.tails.all fun l => !l.isPrefixOf wall || l.isEmpty)

/-- That a wall bars a word can be computed. -/
theorem bars_iff {wall word : List Char} : bars wall word = true ↔ Bars wall word := by
  simp only [bars, Bars, Bool.and_eq_true, Bool.not_eq_true', ← Bool.not_eq_true, occursIn_iff,
    List.all_eq_true, Bool.or_eq_true, List.mem_inits, List.mem_tails, List.isEmpty_iff,
    List.isPrefixOf_iff_prefix, List.reverse_prefix, ← imp_iff_not_or, and_assoc]

instance (wall word : List Char) : Decidable (Bars wall word) := decidable_of_iff _ bars_iff

/-- A word that a wall bars stands in front of it or behind it. -/
theorem Bars.infix_iff {wall word : List Char} (h : Bars wall word) (a b : List Char) :
    word <:+: a ++ (wall ++ b) ↔ word <:+: a ∨ word <:+: b := by
  obtain ⟨hin, haround, hending, hbeginning⟩ := h
  constructor
  · intro hword
    obtain hword | hword | ⟨l, r, rfl, hl, hr⟩ := List.infix_append_iff.1 hword
    · exact .inl hword
    · obtain hword | hword | ⟨l, r, rfl, hl, hr⟩ := List.infix_append_iff.1 hword
      · exact absurd hword hin
      · exact .inr hword
      · obtain rfl := hending l (List.prefix_append l r) hl
        exact .inr hr.isInfix
    · obtain hwall | hwall := List.prefix_or_prefix_of_prefix hr (List.prefix_append wall b)
      · obtain rfl := hbeginning r (List.suffix_append l r) hwall
        rw [List.append_nil]
        exact .inl hl.isInfix
      · exact absurd (hwall.isInfix.trans (List.suffix_append l r).isInfix) haround
  · rintro (hword | hword)
    · exact hword.trans (List.prefix_append a _).isInfix
    · exact hword.trans ((List.suffix_append wall b).trans (List.suffix_append a _)).isInfix

/-! ## Texts with walls -/

/-- A text from parts, each behind its wall. -/
def spell (parts : List (List Char × List Char)) : List Char := parts.flatMap fun p => p.1 ++ p.2

theorem spell_append (ps qs : List (List Char × List Char)) : spell (ps ++ qs) = spell ps ++ spell qs :=
  List.flatMap_append

/-- Parts whose characters are changed spell what the change makes of them. -/
theorem flatMap_spell (image : Char → List Char) (ps : List (List Char × List Char)) :
    (spell ps).flatMap image = spell (ps.map fun p => (p.1.flatMap image, p.2.flatMap image)) := by
  simp only [spell, List.flatMap_assoc, List.flatMap_append, List.flatMap_map]

/-- **A word stands in a part.** A text whose walls bar a word has it only where a part has it, or what
stands in front of the first wall. -/
theorem infix_append_spell {word : List Char} {parts : List (List Char × List Char)}
    (h : ∀ p ∈ parts, Bars p.1 word) (front : List Char) :
    word <:+: front ++ spell parts ↔ word <:+: front ∨ ∃ p ∈ parts, word <:+: p.2 := by
  induction parts generalizing front with
  | nil => simp [spell]
  | cons p rest ih =>
    obtain ⟨hp, hrest⟩ := List.forall_mem_cons.1 h
    have hspell : spell (p :: rest) = p.1 ++ (p.2 ++ spell rest) := by simp [spell]
    rw [hspell, hp.infix_iff, ih hrest, List.exists_mem_cons_iff]

/-! ## Small letters -/

/-- A small sigma, wherever in a word it stands. -/
def unfinal (c : Char) : Char := if c = 'ς' then 'σ' else c

/-- The small form of a character, with the same sigma everywhere. -/
def smallAlone (c : Char) : List Char := if c = 'Σ' then ['σ'] else (small c).map unfinal

/-- But for final sigmas each character has its small letters by itself. -/
theorem map_smallFrom (before cs : List Char) :
    (smallFrom before cs).map unfinal = cs.flatMap smallAlone := by
  induction cs generalizing before with
  | nil => rfl
  | cons c rest ih =>
    rw [smallFrom, List.map_append, ih, List.flatMap_cons, smallAlone]
    split
    · split <;> rfl
    · rfl

/-- Words without a sigma occur wherever they occur when all sigmas are the same. -/
theorem infix_map_unfinal {word cs : List Char} (hword : 'σ' ∉ word ∧ 'ς' ∉ word) :
    word <:+: cs.map unfinal ↔ word <:+: cs := by
  have hfixed {c : Char} (hc : unfinal c ∈ word) : unfinal c = c := by
    unfold unfinal at hc ⊢
    split
    · rename_i h
      rw [if_pos h] at hc
      exact absurd hc hword.1
    · rfl
  have hmap : ∀ l : List Char, l.map unfinal = word → l = word := by
    rintro l rfl
    exact (List.map_id l).symm.trans
      (List.map_congr_left fun c hc => (hfixed (List.mem_map_of_mem hc)).symm)
  constructor
  · rintro ⟨a, b, h⟩
    obtain ⟨l, b', rfl, hl, -⟩ := List.map_eq_append_iff.1 h.symm
    obtain ⟨a', w, rfl, -, hw⟩ := List.map_eq_append_iff.1 hl
    exact ⟨a', b', by rw [hmap w hw]⟩
  · intro h
    -- the other way round: the word is its own image, since it has no final sigma to lose
    have himage := h.map unfinal
    have hword' : word.map unfinal = word := (List.map_congr_left fun c hc =>
      if_neg (ne_of_mem_of_not_mem hc hword.2)).trans (List.map_id word)
    rwa [hword'] at himage

/-- Words without a sigma occur in a text in small letters wherever they occur character by
character. -/
theorem infix_smallFrom {word before cs : List Char} (hword : 'σ' ∉ word ∧ 'ς' ∉ word) :
    word <:+: smallFrom before cs ↔ word <:+: cs.flatMap smallAlone := by
  rw [← map_smallFrom before, infix_map_unfinal hword]

/-! ## What follows a text -/

/-- What follows the first occurrence of a text stands behind it. -/
theorem suffix_of_afterFirst? {needle hay rest : List Char} (h : afterFirst? needle hay = some rest) :
    needle ++ rest <:+ hay := by
  induction hay with
  | nil =>
    rw [afterFirst?] at h
    split at h
    · rename_i hempty
      cases h
      rw [List.isEmpty_iff.1 hempty]
      exact List.suffix_rfl
    · cases h
  | cons c hay ih =>
    rw [afterFirst?] at h
    split at h
    · rename_i hfront
      obtain ⟨after, hafter⟩ := List.isPrefixOf_iff_prefix.1 hfront
      cases h
      rw [← hafter, List.drop_left]
    · exact (ih h).trans (List.suffix_cons c hay)

end PullGate.Text
