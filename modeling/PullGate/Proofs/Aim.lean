import PullGate.Proofs.LabelChange
/-!
# Aims

What a handler wants the labels to be, whatever they are now. An `Aim` says of each label that it
should be there, or that it should not, or nothing. Effects that follow an aim take the labels part
of the way to it, however many of them happen (`Follows.partWay`), and all of the way if they leave
nothing undone (`Pursues.applyAll_eq`). From part of the way the aim comes to the same labels as from
the start (`reached_of_partWay`): that is why something broken off can be taken up again.
-/

namespace PullGate

/-- What should become of labels. -/
structure Aim where
  /-- Whether a label should be there, if the aim is about it. -/
  wants : Label → Option Bool

namespace Aim

/-- The aim that is about no label. -/
def nothing : Aim := ⟨fun _ => none⟩

/-- The aim that is about one label. -/
def only (l : Label) (b : Bool) : Aim := ⟨fun k => if k = l then some b else none⟩

/-- Two aims at once. Of a label that both are about, the first decides. -/
def and (a b : Aim) : Aim := ⟨fun l => (a.wants l).or (b.wants l)⟩

/-- The labels once the aim is reached. -/
def reached (a : Aim) (labels : LabelSet) : LabelSet := ⟨fun l => (a.wants l).getD (labels.has l)⟩

/-- Every label that the aim is about is as it should be. -/
def Met (a : Aim) (labels : LabelSet) : Prop := ∀ l b, a.wants l = some b → labels.has l = b

/-- The labels have come part of the way to the aim: each is as it was, or as it should be. -/
def PartWay (a : Aim) (start now : LabelSet) : Prop :=
  ∀ l, now.has l = start.has l ∨ a.wants l = some (now.has l)

variable {a b : Aim} {start mid now labels : LabelSet}

@[simp] theorem wants_nothing (l : Label) : nothing.wants l = none := rfl

@[simp] theorem wants_only (l : Label) (b : Bool) (k : Label) :
    (only l b).wants k = if k = l then some b else none := rfl

@[simp] theorem wants_and (a b : Aim) (l : Label) :
    (a.and b).wants l = (a.wants l).or (b.wants l) := rfl

@[simp] theorem and_nothing (a : Aim) : a.and nothing = a := by
  simp only [and, wants_nothing, Option.or_none]

@[simp] theorem has_reached (a : Aim) (labels : LabelSet) (l : Label) :
    (a.reached labels).has l = (a.wants l).getD (labels.has l) := rfl

/-! ## Part of the way -/

theorem met_reached (a : Aim) (labels : LabelSet) : a.Met (a.reached labels) := by
  intro l b hl
  rw [has_reached, hl]
  rfl

theorem met_nothing (labels : LabelSet) : nothing.Met labels := nofun

/-- An aim about one label is met if the label is as it should be. -/
theorem met_only {l : Label} {b : Bool} : (only l b).Met labels ↔ labels.has l = b := by
  constructor
  · intro h
    exact h l b (by simp)
  · intro h k c hk
    rw [wants_only] at hk
    split at hk
    · rename_i hkl
      rw [hkl, h]
      exact Option.some.inj hk
    · cases hk

/-- Two aims are not about the same labels. -/
def Apart (a b : Aim) : Prop := ∀ l, a.wants l = none ∨ b.wants l = none

/-- Aims about different labels do not meet. -/
theorem apart_only {l k : Label} (h : l ≠ k) (b c : Bool) : (only l b).Apart (only k c) := by
  intro m
  by_cases hm : m = l
  · right
    rw [wants_only, if_neg (hm ▸ h)]
  · left
    rw [wants_only, if_neg hm]

/-- Two aims about different labels are met together if each is. -/
theorem met_and (hapart : a.Apart b) : (a.and b).Met labels ↔ a.Met labels ∧ b.Met labels := by
  constructor
  · intro h
    refine ⟨fun l c hl => h l c ?_, fun l c hl => h l c ?_⟩
    · rw [wants_and, hl, Option.some_or]
    · rcases hapart l with hnone | hnone
      · rw [wants_and, hnone, Option.none_or, hl]
      · cases hl.symm.trans hnone
  · rintro ⟨ha, hb⟩ l c hl
    rcases hwants : a.wants l with _ | d
    · rw [wants_and, hwants, Option.none_or] at hl
      exact hb l c hl
    · rw [wants_and, hwants, Option.some_or] at hl
      exact ha l c (hwants.trans hl)

/-- Labels that meet an aim are where it leads. -/
theorem reached_of_met (h : a.Met labels) : a.reached labels = labels := by
  ext l
  rw [has_reached]
  rcases hl : a.wants l with _ | b
  · rfl
  · exact (h l b hl).symm

theorem PartWay.refl (a : Aim) (labels : LabelSet) : a.PartWay labels labels := fun _ => .inl rfl

/-- Part of the way and then another part is part of the way. -/
theorem PartWay.trans (h : a.PartWay start mid) (h' : a.PartWay mid now) : a.PartWay start now := by
  intro l
  rcases h' l with hsame | hwanted
  · rw [hsame]
    exact h l
  · exact .inr hwanted

/-- A label that the aim is not about stays as it was. -/
theorem PartWay.has_eq (h : a.PartWay start now) {l : Label} (hl : a.wants l = none) :
    now.has l = start.has l := by
  rcases h l with hsame | hwanted
  · exact hsame
  · exact absurd (hl.symm.trans hwanted) nofun

/-- Where an aim is met there is no way left to go. -/
theorem PartWay.eq_of_met (h : a.PartWay start now) (hmet : a.Met start) : now = start := by
  ext l
  rcases h l with hsame | hwanted
  · exact hsame
  · exact (hmet l _ hwanted).symm

/-- From part of the way the aim comes to the same labels. -/
theorem reached_of_partWay (h : a.PartWay start now) : a.reached now = a.reached start := by
  ext l
  simp only [has_reached]
  rcases hl : a.wants l with _ | b
  · exact h.has_eq hl
  · rfl

/-! ## Effects that follow an aim -/

/-- The effects add only labels that should be there, and remove only labels that should not. -/
def Follows (a : Aim) (es : List Effect) : Prop :=
  ∀ e ∈ es, ∀ l, (e.Adds l → a.wants l = some true) ∧ (e.Removes l → a.wants l = some false)

theorem Follows.of_subset {es ds : List Effect} (h : a.Follows es) (hsub : ds ⊆ es) :
    a.Follows ds := fun e he => h e (hsub he)

/-- Effects that follow an aim do so together. -/
theorem Follows.append {es ds : List Effect} (hes : a.Follows es) (hds : a.Follows ds) :
    a.Follows (es ++ ds) := by
  intro e he
  rcases List.mem_append.1 he with he | he
  · exact hes e he
  · exact hds e he

/-- What one effect makes of a label is what was there, unless the effect is about it. -/
theorem Follows.partWay_applyTo {e : Effect} {es : List Effect} (h : a.Follows (e :: es))
    (labels : LabelSet) : a.PartWay labels (Effect.applyTo labels e) := by
  intro l
  have he := h e List.mem_cons_self l
  cases e with
  | addLabels pr ls =>
    rw [Effect.has_foldl_insert_eq]
    by_cases hl : l ∈ ls
    · right
      rw [he.1 hl, List.contains_iff_mem.2 hl, Bool.true_or]
    · left
      simp [hl]
  | removeLabel pr k =>
    by_cases hl : l = k
    · right
      rw [he.2 hl.symm]
      simp [Effect.applyTo, hl]
    · left
      simp [Effect.applyTo, hl]
  | _ => exact .inl rfl

/-- However many effects follow an aim, they take the labels part of the way. -/
theorem Follows.partWay {es : List Effect} (h : a.Follows es) (labels : LabelSet) :
    a.PartWay labels (Effect.applyAll es labels) := by
  induction es generalizing labels with
  | nil => exact .refl a labels
  | cons e es ih =>
    have hrest : a.Follows es := h.of_subset (List.subset_cons_self e es)
    exact (h.partWay_applyTo labels).trans (ih hrest (Effect.applyTo labels e))

/-! ## Effects that reach an aim -/

/-- The effects follow an aim, and leave no label undone. -/
structure Pursues (a : Aim) (labels : LabelSet) (es : List Effect) : Prop where
  follows : a.Follows es
  exists_effect : ∀ l b, a.wants l = some b → labels.has l ≠ b → ∃ e ∈ es, e.Adds l ∨ e.Removes l

/-- What is added or removed on the way to an aim is there, or not, in the end. -/
theorem Follows.has_applyAll {es : List Effect} (h : a.Follows es) {e : Effect} (he : e ∈ es)
    {l : Label} {b : Bool} (hl : a.wants l = some b) (hchange : e.Adds l ∨ e.Removes l)
    (labels : LabelSet) : (Effect.applyAll es labels).has l = b := by
  induction es generalizing labels with
  | nil => cases he
  | cons d es ih =>
    have hrest : a.Follows es := h.of_subset (List.subset_cons_self d es)
    rcases List.mem_cons.1 he with rfl | he
    · have hnow : (Effect.applyTo labels e).has l = b := by
        rcases hchange with hadds | hremoves
        · have hb : b = true := Option.some.inj (hl.symm.trans ((h e he l).1 hadds))
          cases e with
          | addLabels pr ls =>
            rw [Effect.has_foldl_insert_eq, List.contains_iff_mem.2 hadds, hb, Bool.true_or]
          | _ => exact hadds.elim
        · have hb : b = false := Option.some.inj (hl.symm.trans ((h e he l).2 hremoves))
          cases e with
          | removeLabel pr k =>
            obtain rfl : k = l := hremoves
            simp [Effect.applyTo, hb]
          | _ => exact hremoves.elim
      -- the effects after it leave the label, or make of it what it is already
      rcases hrest.partWay (Effect.applyTo labels e) l with hsame | hwanted
      · exact hsame.trans hnow
      · exact Option.some.inj (hwanted.symm.trans hl)
    · exact ih hrest he (Effect.applyTo labels d)

/-- Effects that pursue an aim make of a label what the aim wants, also of other labels than those
that they were made for, if these agree on it. -/
theorem Pursues.has_applyAll {es : List Effect} (h : a.Pursues labels es) {l : Label}
    (hsame : now.has l = labels.has l) :
    (Effect.applyAll es now).has l = (a.wants l).getD (now.has l) := by
  rcases hl : a.wants l with _ | b
  · exact (h.follows.partWay now).has_eq hl
  · by_cases hhas : labels.has l = b
    · rcases h.follows.partWay now l with hstill | hwanted
      · exact hstill.trans (hsame.trans hhas)
      · exact Option.some.inj (hwanted.symm.trans hl)
    · obtain ⟨e, he, hchange⟩ := h.exists_effect l b hl hhas
      exact h.follows.has_applyAll he hl hchange now

/-- Effects that pursue an aim reach it. -/
theorem Pursues.applyAll_eq {es : List Effect} (h : a.Pursues labels es) :
    Effect.applyAll es labels = a.reached labels := by
  ext l
  rw [has_reached]
  exact h.has_applyAll rfl

/-- Nothing has to be done for an aim that is met. -/
theorem pursues_of_met (h : a.Met labels) : a.Pursues labels [] :=
  ⟨nofun, fun l b hl hhas => absurd (h l b hl) hhas⟩

theorem pursues_nothing (labels : LabelSet) : nothing.Pursues labels [] :=
  pursues_of_met (met_nothing labels)

/-- One label that is wanted is pursued by putting it on. -/
theorem pursues_only_true (labels : LabelSet) (pr : PrNumber) (l : Label) :
    (only l true).Pursues labels [.addLabels pr [l]] where
  follows := by
    intro e he k
    obtain rfl := List.mem_singleton.1 he
    refine ⟨fun hadds => ?_, False.elim⟩
    rw [wants_only, if_pos (List.mem_singleton.1 hadds)]
  exists_effect := by
    intro k b hk _
    rw [wants_only] at hk
    split at hk
    · rename_i hkl
      exact ⟨_, List.mem_singleton_self _, .inl (List.mem_singleton.2 hkl)⟩
    · cases hk

/-- One that is not wanted is pursued by taking it off. -/
theorem pursues_only_false (labels : LabelSet) (pr : PrNumber) (l : Label) :
    (only l false).Pursues labels [.removeLabel pr l] where
  follows := by
    intro e he k
    obtain rfl := List.mem_singleton.1 he
    refine ⟨False.elim, fun hremoves => ?_⟩
    rw [wants_only, if_pos hremoves.symm]
  exists_effect := by
    intro k b hk _
    rw [wants_only] at hk
    split at hk
    · rename_i hkl
      exact ⟨_, List.mem_singleton_self _, .inr hkl.symm⟩
    · cases hk

/-- Two aims that are not about the same labels are pursued one after the other. -/
theorem Pursues.and {es ds : List Effect} (ha : a.Pursues labels es) (hb : b.Pursues labels ds)
    (hapart : a.Apart b) : (a.and b).Pursues labels (es ++ ds) where
  follows := by
    refine .append ?_ ?_
    · intro e he l
      have hchange := ha.follows e he l
      exact ⟨fun hadds => by simp [hchange.1 hadds], fun hremoves => by simp [hchange.2 hremoves]⟩
    · intro e he l
      have hchange := hb.follows e he l
      -- what `b` changes is not what `a` wants, since only one of them wants anything of the label
      rcases hapart l with hnone | hnone
      · simpa [hnone] using hchange
      · rw [hnone] at hchange
        exact ⟨fun hadds => absurd (hchange.1 hadds) nofun,
          fun hremoves => absurd (hchange.2 hremoves) nofun⟩
  exists_effect := by
    intro l c hl hhas
    rcases hwants : a.wants l with _ | d
    · rw [wants_and, hwants, Option.none_or] at hl
      obtain ⟨e, he, hchange⟩ := hb.exists_effect l c hl hhas
      exact ⟨e, List.mem_append_right es he, hchange⟩
    · rw [wants_and, hwants, Option.some_or] at hl
      obtain ⟨e, he, hchange⟩ := ha.exists_effect l c (hwants.trans hl) hhas
      exact ⟨e, List.mem_append_left ds he, hchange⟩

/-! ## Effects that rest once an aim is met -/

/-- There are no effects if the aim is met. Effects that pursue an aim may lack this: they may add
what is there, or do something besides. -/
def Rests (a : Aim) (labels : LabelSet) (es : List Effect) : Prop := a.Met labels → es = []

theorem rests_nil (a : Aim) (labels : LabelSet) : a.Rests labels [] := fun _ => rfl

/-- Effects of two aims that rest on what they met rest together. -/
theorem Rests.and {es ds : List Effect} (ha : a.Rests labels es) (hb : b.Rests labels ds)
    (hapart : a.Apart b) : (a.and b).Rests labels (es ++ ds) := by
  intro hmet
  obtain ⟨hmeta, hmetb⟩ := (met_and hapart).1 hmet
  rw [ha hmeta, hb hmetb, List.append_nil]

end Aim

end PullGate
