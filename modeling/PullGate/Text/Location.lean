/-!
# Places in a text

A place is a line and a column, both counted from 1; a column counts the bytes of the line's UTF-8
form, and only a line feed ends a line.
-/

namespace PullGate.Text

/-- A place in a text. -/
structure Location where
  line : Nat
  column : Nat
  deriving DecidableEq, Repr, Inhabited

namespace Location

/-- The place of the first character. -/
def start : Location := ⟨1, 1⟩

/-- The place after a character. -/
def after (l : Location) (c : Char) : Location :=
  if c = '\n' then ⟨l.line + 1, 1⟩ else ⟨l.line, l.column + c.utf8Size⟩

/-- Earlier places first: by line, then by column. -/
def le (a b : Location) : Bool := a.line < b.line || (a.line == b.line && a.column ≤ b.column)

/-- The line and the column with a colon between. -/
def render (l : Location) : String := s!"{l.line}:{l.column}"

end Location

/-- The places of all characters of a text, and last the place of its end. -/
def locations (text : List Char) : List Location :=
  go .start text
where
  /-- The places from a given one on. -/
  go (l : Location) : List Char → List Location
    | [] => [l]
    | c :: rest => l :: go (l.after c) rest

/-- There is a place for each character and one for the end. -/
theorem length_locations (text : List Char) : (locations text).length = text.length + 1 := by
  suffices h : ∀ l, (locations.go l text).length = text.length + 1 from h _
  induction text with
  | nil => intro l; rfl
  | cons c rest ih => intro l; simp [locations.go, ih]

/-! ## The order of places -/

/-- One place comes before another. -/
def Location.Before (a b : Location) : Prop := a.line < b.line ∨ a.line = b.line ∧ a.column < b.column

/-- The place after a character comes later. -/
theorem Location.before_after (l : Location) (c : Char) : l.Before (l.after c) := by
  unfold after
  split
  · exact .inl (Nat.lt_succ_self l.line)
  · exact .inr ⟨rfl, Nat.lt_add_of_pos_right c.utf8Size_pos⟩

theorem Location.Before.trans {a b c : Location} (h : a.Before b) (h' : b.Before c) : a.Before c := by
  unfold Location.Before at *
  omega

/-- Of two places of which one comes before the other neither is the other. -/
theorem Location.Before.ne {a b : Location} (h : a.Before b) : a ≠ b := by
  rintro rfl
  unfold Location.Before at h
  omega

/-- Later characters stand at later places. -/
theorem pairwise_locations (text : List Char) : (locations text).Pairwise Location.Before := by
  suffices h : ∀ l, (locations.go l text).Pairwise Location.Before ∧
      ∀ m ∈ locations.go l text, m = l ∨ l.Before m from (h _).1
  induction text with
  | nil =>
    intro l
    exact ⟨List.pairwise_singleton _ l, fun m hm => .inl (List.mem_singleton.1 hm)⟩
  | cons c rest ih =>
    intro l
    obtain ⟨hpairwise, hlater⟩ := ih (l.after c)
    have hall : ∀ m ∈ locations.go (l.after c) rest, l.Before m := by
      intro m hm
      rcases hlater m hm with rfl | h
      · exact l.before_after c
      · exact (l.before_after c).trans h
    exact ⟨hpairwise.cons hall, fun m hm => (List.mem_cons.1 hm).imp_right (hall m)⟩

end PullGate.Text
