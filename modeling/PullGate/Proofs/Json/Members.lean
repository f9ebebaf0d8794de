import PullGate.Proofs.Json.Changes
/-!
# Members of records

What a record has as a member is what its object has under this name: there is one member with the name,
and the record has what it means (`Fields.HoldsAt.exists_member`). A list stands for a record of one
member just by its one item (`Fields.exists_of_take?_one`).
-/

namespace PullGate.Json

/-- The values of all members with a name. -/
def named (name : String) (members : List (List UInt8 × Raw)) : List Raw :=
  (members.filter fun m => text? m.1 = some name).map (·.2)

/-- The value of an object's member with a name, if there is one such member and no other. -/
def Raw.member? (name : String) : Raw → Option Raw
  | .object members => match named name members with
    | [v] => some v
    | _ => none
  | _ => none

theorem named_cons_of_eq {key : List UInt8} {name : String} (h : text? key = some name) (v : Raw)
    (members : List (List UInt8 × Raw)) : named name ((key, v) :: members) = v :: named name members := by
  simp [named, h]

theorem named_cons_of_ne {key : List UInt8} {name other : String} (h : text? key = some other)
    (hne : other ≠ name) (v : Raw) (members : List (List UInt8 × Raw)) :
    named name ((key, v) :: members) = named name members := by
  simp [named, h, hne]

section

variable {α β σ : Type}

/-- A state has a slot for the member with a name: the member fills it, unless it is filled, with what it
means, and no other member does. -/
structure Fills (put : String → Raw → σ → Option σ) (name : String) (mean : Raw → Option β)
    (slot : σ → Option β) : Prop where
  own : ∀ {t s s'}, put name t s = some s' → slot s = none ∧ ∃ b, mean t = some b ∧ slot s' = some b
  other : ∀ {key t s s'}, key ≠ name → put key t s = some s' → slot s' = slot s

namespace Fills

variable {put : String → Raw → σ → Option σ} {name : String} {mean : Raw → Option β}
  {slot : σ → Option β}

/-- A filled slot stays as it is, and no member with the name follows. -/
theorem of_filled (h : Fills put name mean slot) {members : List (List UInt8 × Raw)} {s s' : σ} {b : β}
    (hs : slot s = some b) (hput : putMembers? put members s = some s') :
    named name members = [] ∧ slot s' = some b := by
  induction members generalizing s with
  | nil =>
    cases hput
    exact ⟨rfl, hs⟩
  | cons m members ih =>
    obtain ⟨key, t⟩ := m
    simp only [putMembers?, Option.bind_eq_some_iff] at hput
    obtain ⟨s₁, ⟨other, hother, hput₁⟩, hput⟩ := hput
    by_cases hname : other = name
    · subst hname
      cases hs.symm.trans (h.own hput₁).1
    · rw [named_cons_of_ne hother hname]
      exact ih ((h.other hname hput₁).trans hs) hput

/-- A slot that was empty and is filled was filled by the one member with the name. -/
theorem exists_named (h : Fills put name mean slot) {members : List (List UInt8 × Raw)} {s s' : σ} {b : β}
    (hs : slot s = none) (hs' : slot s' = some b) (hput : putMembers? put members s = some s') :
    ∃ v, named name members = [v] ∧ mean v = some b := by
  induction members generalizing s with
  | nil =>
    -- a slot that nothing fills stays empty
    cases hput
    cases hs.symm.trans hs'
  | cons m members ih =>
    obtain ⟨key, t⟩ := m
    simp only [putMembers?, Option.bind_eq_some_iff] at hput
    obtain ⟨s₁, ⟨other, hother, hput₁⟩, hput⟩ := hput
    by_cases hname : other = name
    · subst hname
      obtain ⟨-, a, ha, hs₁⟩ := h.own hput₁
      obtain ⟨hnone, hlast⟩ := h.of_filled hs₁ hput
      obtain rfl : a = b := Option.some.inj (hlast.symm.trans hs')
      exact ⟨t, by rw [named_cons_of_eq hother, hnone], ha⟩
    · obtain ⟨v, hv, hmean⟩ := ih ((h.other hname hput₁).trans hs) hput
      exact ⟨v, by rw [named_cons_of_ne hother hname, hv], hmean⟩

end Fills

/-- In a record the member with a name cannot be left out, and what it means is this of the element. -/
structure Fields.HoldsAt (f : Fields α) (name : String) (mean : Raw → Option β) (part : α → β) : Prop where
  exists_slot : ∃ slot : f.Slots → Option β, Fills (fun key t slots => f.put? key t slots) name mean slot ∧
    slot f.empty = none ∧ ∀ slots a, f.finish slots = .ok a → slot slots = some (part a)

/-- A finished record has its first member, or what stands in for it, and the rest. -/
theorem Fields.ok_of_finish_cons {name : String} {s : Shape α} {absent : Option α} {rest : Fields β}
    {slots : (Fields.cons name s absent rest).Slots} {p : α × β}
    (h : (Fields.cons name s absent rest).finish slots = .ok p) :
    (slots.1.or absent).or s.absent = some p.1 ∧ rest.finish slots.2 = .ok p.2 := by
  rw [Fields.finish] at h
  split at h
  · cases h
  · split at h
    · cases h
    · cases h
      exact ⟨‹_›, ‹_›⟩

/-- The first member. -/
theorem Fields.holdsAt_head {name : String} {s : Shape α} {rest : Fields β} (h : s.absent = none) :
    (Fields.cons name s none rest).HoldsAt name (fun t => s.mean? t) (·.1) := by
  refine ⟨(·.1), ⟨?_, ?_⟩, rfl, fun slots a hfinish => ?_⟩
  · intro t slots slots' hput
    simp only [Fields.put?, if_true] at hput
    split at hput
    · cases hput
    · next hempty =>
      obtain ⟨a, ha, rfl⟩ := Option.map_eq_some_iff.1 hput
      exact ⟨Option.not_isSome_iff_eq_none.1 hempty, a, ha, rfl⟩
  · intro key t slots slots' hne hput
    simp only [Fields.put?, if_neg hne] at hput
    obtain ⟨more, -, rfl⟩ := Option.map_eq_some_iff.1 hput
    rfl
  · have hvalue := (Fields.ok_of_finish_cons hfinish).1
    rwa [h, Option.or_none, Option.or_none] at hvalue

/-- A later member of another name. -/
theorem Fields.HoldsAt.tail {γ : Type} {f : Fields α} {name other : String} {mean : Raw → Option β}
    {part : α → β} (h : f.HoldsAt name mean part) (hne : name ≠ other) (s : Shape γ)
    (absent : Option γ) : (Fields.cons other s absent f).HoldsAt name mean fun p => part p.2 := by
  obtain ⟨slot, hfills, hempty, hfinish⟩ := h.exists_slot
  refine ⟨fun slots => slot slots.2, ⟨?_, ?_⟩, hempty, fun slots a hdone => ?_⟩
  · intro t slots slots' hput
    simp only [Fields.put?, if_neg hne] at hput
    obtain ⟨more, hmore, rfl⟩ := Option.map_eq_some_iff.1 hput
    exact hfills.own hmore
  · intro key t slots slots' hkey hput
    simp only [Fields.put?] at hput
    split at hput
    · split at hput
      · cases hput
      · obtain ⟨a, -, rfl⟩ := Option.map_eq_some_iff.1 hput
        rfl
    · obtain ⟨more, hmore, rfl⟩ := Option.map_eq_some_iff.1 hput
      exact hfills.other hkey hmore
  · exact hfinish _ _ (Fields.ok_of_finish_cons hdone).2

/-- **Members of records are members of objects.** -/
theorem Fields.HoldsAt.exists_member {f : Fields α} {name noun : String} {mean : Raw → Option β}
    {part : α → β} (h : f.HoldsAt name mean part) {members : List (List UInt8 × Raw)} {a : α}
    (hmean : (Shape.record noun f).mean? (.object members) = some a) :
    ∃ v, (Raw.object members).member? name = some v ∧ mean v = some (part a) := by
  obtain ⟨slot, hfills, hempty, hfinish⟩ := h.exists_slot
  rw [Shape.mean?] at hmean
  obtain ⟨slots, hput, hdone⟩ := Option.bind_eq_some_iff.1 hmean
  have hdone' : f.finish slots = .ok a := by
    rcases hslots : f.finish slots with e | b <;> rw [hslots] at hdone <;> cases hdone
    rfl
  obtain ⟨v, hnamed, hv⟩ := hfills.exists_named hempty (hfinish _ _ hdone') hput
  exact ⟨v, by rw [Raw.member?, hnamed], hv⟩

/-- A list that is read as a record of one member has one item, which is read as the member. -/
theorem Fields.exists_of_take?_one {name : String} {s : Shape α} {items : List Raw} {a : α}
    (h : (Fields.cons name s none .nil).take? items = some (a, ())) :
    ∃ v, items = [v] ∧ s.mean? v = some a := by
  rcases items with _ | ⟨v, _ | ⟨v', items⟩⟩
  · simp [Fields.take?] at h
  · rw [Fields.take?] at h
    obtain ⟨b, hb, hpair⟩ := Option.bind_eq_some_iff.1 h
    cases hpair
    exact ⟨v, rfl, hb⟩
  · simp [Fields.take?] at h

end

end PullGate.Json
