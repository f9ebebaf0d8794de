import PullGate.Plan
/-!
# Changes of labels

What effects do to the labels of a pull request, one label at a time: a label that no effect removes
stays, and one that is new was added by some effect. For a plan, `has_applyAll_effects` says which
labels there are after its effects, as `has_applyTo` does for the plan itself.
-/

namespace PullGate

namespace Effect

/-! ## Adding and removing -/

/-- The effect adds a label. -/
def Adds (l : Label) : Effect → Prop
  | addLabels _ ls => l ∈ ls
  | _ => False

/-- The effect removes a label. -/
def Removes (l : Label) : Effect → Prop
  | removeLabel _ k => k = l
  | _ => False

@[simp] theorem adds_addLabels {l : Label} {pr : PrNumber} {ls : List Label} :
    (addLabels pr ls).Adds l ↔ l ∈ ls := Iff.rfl

/-- Only writes add labels. -/
theorem Adds.isWrite {l : Label} {e : Effect} (h : e.Adds l) : e.isWrite = true := by
  cases e <;> first | rfl | exact h.elim

/-- Only writes remove labels. -/
theorem Removes.isWrite {l : Label} {e : Effect} (h : e.Removes l) : e.isWrite = true := by
  cases e <;> first | rfl | exact h.elim

/-! ## One effect -/

theorem has_foldl_insert_eq (ls : List Label) (labels : LabelSet) (l : Label) :
    (applyTo labels (.addLabels pr ls)).has l = (ls.contains l || labels.has l) :=
  Plan.has_foldl_insert ls labels l

/-- A label stays that an effect does not take off. -/
theorem has_applyTo_of_has {labels : LabelSet} {e : Effect} {l : Label} (hkeep : ¬ e.Removes l)
    (h : labels.has l = true) : (applyTo labels e).has l = true := by
  cases e with
  | addLabels pr ls => rw [has_foldl_insert_eq, h, Bool.or_true]
  | removeLabel pr k =>
    have hne : l ≠ k := fun hlk => hkeep hlk.symm
    simp [applyTo, hne, h]
  | _ => exact h

/-- A label that is new was put on. -/
theorem adds_of_has_applyTo {labels : LabelSet} {e : Effect} {l : Label}
    (hold : labels.has l = false) (hnew : (applyTo labels e).has l = true) : e.Adds l := by
  cases e with
  | addLabels pr ls =>
    rw [has_foldl_insert_eq, hold, Bool.or_false] at hnew
    exact List.contains_iff_mem.1 hnew
  | removeLabel pr k => simp [applyTo, hold] at hnew
  | _ => exact absurd (hold.symm.trans hnew) Bool.false_ne_true

/-! ## Several effects -/

@[simp] theorem applyAll_nil (labels : LabelSet) : applyAll [] labels = labels := rfl

@[simp] theorem applyAll_cons (e : Effect) (es : List Effect) (labels : LabelSet) :
    applyAll (e :: es) labels = applyAll es (applyTo labels e) := rfl

/-- Effects one after another change what both parts do. -/
theorem applyAll_append (es ds : List Effect) (labels : LabelSet) :
    applyAll (es ++ ds) labels = applyAll ds (applyAll es labels) :=
  List.foldl_append

/-- A label that no effect removes stays. -/
theorem has_applyAll_of_has {es : List Effect} {labels : LabelSet} {l : Label}
    (hkeep : ∀ e ∈ es, ¬ e.Removes l) (h : labels.has l = true) :
    (applyAll es labels).has l = true := by
  induction es generalizing labels with
  | nil => exact h
  | cons e es ih =>
    have he := has_applyTo_of_has (hkeep e List.mem_cons_self) h
    exact ih (fun d hd => hkeep d (List.mem_cons_of_mem e hd)) he

/-- A label that is new was added by some effect. -/
theorem exists_adds_of_has_applyAll {es : List Effect} {labels : LabelSet} {l : Label}
    (hold : labels.has l = false) (hnew : (applyAll es labels).has l = true) :
    ∃ e ∈ es, e.Adds l := by
  induction es generalizing labels with
  | nil => exact absurd (hold.symm.trans hnew) Bool.false_ne_true
  | cons e es ih =>
    rcases hnext : (applyTo labels e).has l with _ | _
    · obtain ⟨d, hd, hadds⟩ := ih hnext hnew
      exact ⟨d, List.mem_cons_of_mem e hd, hadds⟩
    · exact ⟨e, List.mem_cons_self, adds_of_has_applyTo hold hnext⟩

/-- A label that no effect adds or removes is there exactly if it was there before. -/
theorem has_applyAll_of_untouched {es : List Effect} {labels : LabelSet} {l : Label}
    (hadd : ∀ e ∈ es, ¬ e.Adds l) (hremove : ∀ e ∈ es, ¬ e.Removes l) :
    (applyAll es labels).has l = labels.has l := by
  rcases hold : labels.has l with _ | _
  · refine Bool.eq_false_iff.2 fun hnew => ?_
    obtain ⟨e, he, hadds⟩ := exists_adds_of_has_applyAll hold hnew
    exact hadd e he hadds
  · exact has_applyAll_of_has hremove hold

/-- Reads change no labels. -/
theorem applyAll_of_reads {es : List Effect} {labels : LabelSet}
    (h : ∀ e ∈ es, e.isWrite = false) : applyAll es labels = labels := by
  ext l
  apply has_applyAll_of_untouched
  · intro e he hadds
    exact absurd (hadds.isWrite.symm.trans (h e he)) (by decide)
  · intro e he hremoves
    exact absurd (hremoves.isWrite.symm.trans (h e he)) (by decide)

end Effect

/-! ## Plans -/

namespace Plan

/-- The effects of a plan are an addition and removals. -/
theorem mem_effects {p : Plan} {pr : PrNumber} {e : Effect} (h : e ∈ p.effects pr) :
    e = .addLabels pr p.toAdd ∨ ∃ l ∈ p.toRemove, e = .removeLabel pr l := by
  rcases List.mem_append.1 h with h | h
  · split at h
    · cases h
    · exact .inl (List.mem_singleton.1 h)
  · obtain ⟨l, hl, rfl⟩ := List.mem_map.1 h
    exact .inr ⟨l, hl, rfl⟩

/-- Taking labels off one by one takes them all off. -/
theorem applyAll_map_removeLabel (ls : List Label) (pr : PrNumber) (labels : LabelSet) :
    Effect.applyAll (ls.map (.removeLabel pr)) labels = ls.foldl .erase labels := by
  induction ls generalizing labels with
  | nil => rfl
  | cons l ls ih => exact ih (labels.erase l)

/-- After the effects of a plan a requirement is there exactly if it was desired, and other labels
are as they were. -/
theorem has_applyAll_effects (desired current : LabelSet) (pr : PrNumber) (l : Label) :
    (Effect.applyAll ((between desired current).effects pr) current).has l =
      if l.isRequirement then desired.has l else current.has l := by
  have hadd : Effect.applyAll (if (between desired current).toAdd.isEmpty then []
      else [.addLabels pr (between desired current).toAdd]) current =
      (between desired current).toAdd.foldl .insert current := by
    split
    · rename_i hempty
      rw [List.isEmpty_iff.1 hempty]
      rfl
    · rfl
  rw [effects, Effect.applyAll_append, hadd, applyAll_map_removeLabel, has_foldl_erase,
    has_foldl_insert]
  by_cases hr : l.isRequirement = true
  · by_cases hd : desired.has l = true <;> by_cases hc : current.has l = true <;>
      simp [hr, hd, hc, mem_toAdd, mem_toRemove]
  · simp [hr, mem_toAdd, mem_toRemove]

end Plan

end PullGate
