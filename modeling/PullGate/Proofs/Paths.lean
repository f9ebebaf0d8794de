import Mathlib.Data.List.Basic
import Mathlib.Data.List.TakeWhile
import PullGate.Path
/-!
# Paths of names

Paths that are names with slashes between, without empty parts and parts of dots alone. Their parts are
these names again (`components_text`), so that what is asked of a path can be told from its names: its
first part from the first, and whether it has an extension from the last.
-/

namespace PullGate.Path

/-- What stands between two slashes is a name. -/
structure IsName (part : String) : Prop where
  ne_empty : part ≠ ""
  ne_dot : part ≠ "."
  ne_dots : part ≠ ".."
  no_slash : '/' ∉ part.toList

instance (part : String) : Decidable (IsName part) :=
  decidable_of_iff (part ≠ "" ∧ part ≠ "." ∧ part ≠ ".." ∧ '/' ∉ part.toList)
    ⟨fun ⟨he, hd, hdd, hs⟩ => ⟨he, hd, hdd, hs⟩, fun ⟨he, hd, hdd, hs⟩ => ⟨he, hd, hdd, hs⟩⟩

/-- A path of names, from the top down. -/
structure Plain where
  parts : List String
  ne_nil : parts ≠ []
  isName : ∀ part ∈ parts, IsName part

namespace Plain

variable (p : Plain)

/-- The path as it is written. -/
def text : String := "/".intercalate p.parts

/-- The name at the top. -/
def first : String := p.parts.head p.ne_nil

/-- The name of what the path leads to. -/
def last : String := p.parts.getLast p.ne_nil

/-- The last name has a dot that is not its first character. -/
def HasExtension : Prop := '.' ∈ p.last.toList.tail

instance : Decidable p.HasExtension := inferInstanceAs (Decidable (_ ∈ _))

/-- The path leads into one of these directories: it goes on behind the directory's name. -/
def IsUnder (dirs : List String) : Prop := 2 ≤ p.parts.length ∧ p.first ∈ dirs

instance (dirs : List String) : Decidable (p.IsUnder dirs) := inferInstanceAs (Decidable (_ ∧ _))

end Plain

/-! ## Parts -/

/-- A text is split at every separator. -/
theorem split_eq_splitOn (sep : Char) (text : List Char) : split sep text = text.splitOn sep := by
  induction text with
  | nil => rfl
  | cons c rest ih =>
    have hcons : (c :: rest).splitOn sep =
        if c = sep then [] :: rest.splitOn sep else (rest.splitOn sep).modifyHead (c :: ·) := by
      rw [List.splitOn, List.splitOnP_cons_eq_if_modifyHead]
      simp only [beq_iff_eq]
      rfl
    rw [split, ih, hcons]
    rcases hsplit : rest.splitOn sep with _ | ⟨first, more⟩
    · exact absurd hsplit (List.splitOn_ne_nil sep rest)
    · rfl

variable (p : Plain)

/-- The names are what stands between the slashes. -/
theorem split_text : split '/' p.text.toList = p.parts.map String.toList := by
  have hslash : ∀ part ∈ p.parts.map String.toList, '/' ∉ part := by
    intro part hpart
    obtain ⟨name, hname, rfl⟩ := List.mem_map.1 hpart
    exact (p.isName name hname).no_slash
  rw [Plain.text, String.toList_intercalate, split_eq_splitOn]
  exact List.splitOn_intercalate '/' hslash (by simpa using p.ne_nil)

/-- A name is a component. -/
theorem IsName.ofSegment {part : String} (h : IsName part) :
    Component.ofSegment part.toList = some (.name part.toList) := by
  have hnil : part.toList ≠ [] := fun he => h.ne_empty (String.toList_inj.1 he)
  have hdot : part.toList ≠ ['.'] := fun he => h.ne_dot (String.toList_inj.1 he)
  have hdots : part.toList ≠ ['.', '.'] := fun he => h.ne_dots (String.toList_inj.1 he)
  rw [Component.ofSegment, if_neg (by simp [hnil, hdot]), if_neg hdots]

/-- The parts of the path are its names. -/
theorem components_text : components p.text = p.parts.map fun part => .name part.toList := by
  have hnames : (p.parts.map String.toList).filterMap Component.ofSegment =
      p.parts.map fun part => .name part.toList := by
    rw [List.filterMap_map, List.filterMap_eq_map_iff_forall_eq_some]
    exact fun part hpart => (p.isName part hpart).ofSegment
  rw [components, split_text, hnames]
  -- neither a slash nor a dot alone is in front
  rcases hparts : p.parts with _ | ⟨top, more⟩
  · exact absurd hparts p.ne_nil
  · have htop := p.isName top (hparts ▸ List.mem_cons_self)
    have hnil : top.toList ≠ [] := fun he => htop.ne_empty (String.toList_inj.1 he)
    have hdot : top.toList ≠ ['.'] := fun he => htop.ne_dot (String.toList_inj.1 he)
    simp only [List.map_cons]
    split
    · next heq => exact absurd (List.cons.inj heq).1 hnil
    · next heq => exact absurd (List.cons.inj heq).1 hdot
    · rfl

/-- The name of a path's file is its last one. -/
theorem fileName?_text : fileName? p.text = some p.last.toList := by
  rw [fileName?, components_text, List.getLast?_map, List.getLast?_eq_some_getLast p.ne_nil]
  rfl

/-- A path starts with one of these texts just if its first name is one of them; whether it goes on
does not count. -/
theorem isUnderAny_text (dirs : List String) :
    isUnderAny dirs p.text = dirs.contains p.first := by
  rw [isUnderAny, components_text]
  rcases hparts : p.parts with _ | ⟨top, more⟩
  · exact absurd hparts p.ne_nil
  · simp [Plain.first, hparts, Component.text]

/-! ## Extensions -/

/-- A name splits just if it has a dot that is not its first character. -/
theorem splitAtDot?_eq_none_iff (name : List Char) : splitAtDot? name = none ↔ '.' ∉ name.tail := by
  rcases name with _ | ⟨c, rest⟩
  · simp [splitAtDot?]
  rw [splitAtDot?, List.reverse_cons, List.tail_cons]
  by_cases hdot : '.' ∈ rest
  · -- the last dot has characters of the name before it
    have hdrop : rest.reverse.dropWhile (· ≠ '.') ≠ [] := by
      simpa [List.dropWhile_eq_nil_iff] using hdot
    obtain ⟨d, before, hbefore⟩ := List.exists_cons_of_ne_nil hdrop
    rw [List.dropWhile_append, hbefore]
    simp [hdot]
  · have hall : ∀ d ∈ rest.reverse, decide (d ≠ '.') = true := by
      intro d hd
      rw [decide_eq_true_eq]
      rintro rfl
      exact hdot (List.mem_reverse.1 hd)
    rw [List.dropWhile_append_of_pos hall]
    by_cases hc : c = '.' <;> simp [hc, hdot]

/-- A path has no extension exactly if its last name has none. -/
theorem extension?_text_eq_none_iff : extension? p.text = none ↔ ¬ p.HasExtension := by
  rw [extension?, fileName?_text, Option.bind_some, Option.map_eq_none_iff, splitAtDot?_eq_none_iff,
    Plain.HasExtension]

end PullGate.Path
