import PullGate.Effect
/-!
# Plans

The changes of labels that bring a pull request to the requirements it should have: what is missing
is added, what is left over is removed, and labels that are no requirements are left alone.
`requirements_applyTo` says that a plan reaches the requirements it was made for.
-/

namespace PullGate

/-- Changes of labels. -/
structure Plan where
  /-- The labels to add, in their order. -/
  toAdd : List Label
  /-- The labels to remove, in their order. -/
  toRemove : List Label
  deriving DecidableEq, Repr

namespace Plan

/-- The changes that bring the current labels to the requirements among the desired ones. -/
def between (desired current : LabelSet) : Plan where
  toAdd := desired.requirements.difference current.requirements
  toRemove := current.requirements.difference desired.requirements

/-- Whether nothing changes. -/
def isEmpty (p : Plan) : Bool := p.toAdd.isEmpty && p.toRemove.isEmpty

/-- The labels that are new. -/
def added (p : Plan) : LabelSet := .ofList p.toAdd

/-- The labels after the changes. -/
def applyTo (p : Plan) (current : LabelSet) : LabelSet :=
  p.toAdd.foldl .insert (p.toRemove.foldl .erase current)

/-- The changes as effects: all additions at once, then the removals one by one. -/
def effects (p : Plan) (pr : PrNumber) : List Effect :=
  (if p.toAdd.isEmpty then [] else [.addLabels pr p.toAdd]) ++ p.toRemove.map (.removeLabel pr)

/-! ## What a plan does -/

/-- Labels put into a set one by one are in it, with those before. -/
theorem has_foldl_insert (ls : List Label) (s : LabelSet) (l : Label) :
    (ls.foldl .insert s).has l = (ls.contains l || s.has l) := by
  induction ls generalizing s with
  | nil => simp
  | cons k ls ih =>
    simp only [List.foldl_cons, ih, LabelSet.has_insert, List.contains_cons]
    by_cases h : l = k
    · simp [h]
    · simp [h, beq_eq_false_iff_ne.2 h]

/-- Labels taken out one by one are gone, and no others. -/
theorem has_foldl_erase (ls : List Label) (s : LabelSet) (l : Label) :
    (ls.foldl .erase s).has l = (!ls.contains l && s.has l) := by
  induction ls generalizing s with
  | nil => simp
  | cons k ls ih =>
    simp only [List.foldl_cons, ih, LabelSet.has_erase, List.contains_cons]
    by_cases h : l = k
    · simp [h]
    · simp [h, beq_eq_false_iff_ne.2 h]

/-- What is added are the requirements that are desired and not there. -/
theorem mem_toAdd {desired current : LabelSet} {l : Label} :
    l ∈ (between desired current).toAdd ↔
      l.isRequirement = true ∧ desired.has l = true ∧ current.has l = false := by
  simp only [between, LabelSet.mem_difference, LabelSet.has_requirements, Bool.and_eq_true]
  constructor
  · rintro ⟨⟨h, hd⟩, hc⟩
    exact ⟨h, hd, by simpa [h] using hc⟩
  · rintro ⟨h, hd, hc⟩
    exact ⟨⟨h, hd⟩, by simp [hc]⟩

/-- What is removed are the requirements that are there and not desired. -/
theorem mem_toRemove {desired current : LabelSet} {l : Label} :
    l ∈ (between desired current).toRemove ↔
      l.isRequirement = true ∧ current.has l = true ∧ desired.has l = false :=
  @mem_toAdd current desired _

/-- After the changes a requirement is there exactly if it was desired, and other labels are as they
were. -/
theorem has_applyTo (desired current : LabelSet) (l : Label) :
    ((between desired current).applyTo current).has l =
      if l.isRequirement then desired.has l else current.has l := by
  rw [applyTo, has_foldl_insert, has_foldl_erase]
  by_cases hr : l.isRequirement = true
  · by_cases hd : desired.has l = true <;> by_cases hc : current.has l = true <;>
      simp [hr, hd, hc, mem_toAdd, mem_toRemove]
  · simp [hr, mem_toAdd, mem_toRemove]

/-- A plan reaches the requirements it was made for. -/
theorem requirements_applyTo (desired current : LabelSet) :
    ((between desired current).applyTo current).requirements = desired.requirements := by
  ext l
  rw [LabelSet.has_requirements, has_applyTo, LabelSet.has_requirements]
  by_cases hr : l.isRequirement = true <;> simp [hr]

end Plan

end PullGate
