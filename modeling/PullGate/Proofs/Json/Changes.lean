import PullGate.Proofs.Json.Meaning
/-!
# Changes that leave meanings alone

Objects may list their members in any order (`Raw.Reorders.alike`), and may have members that no record
asks for, wherever a record is read from them (`Shape.mean?_of_grows`). Both rest on one fact about
records: what one of them means hangs on the values of its members, each taken by itself
(`Shape.map_mean?_of_replacesMember`), and not on where they stand.
-/

namespace PullGate.Json

/-! ## Places -/

/-- The second value is the first with another item at an index. -/
inductive ReplacesItem (index : Nat) (v v' : Raw) : Raw → Raw → Prop
  | mk {before after : List Raw} (h : before.length = index) :
      ReplacesItem index v v' (.list (before ++ v :: after)) (.list (before ++ v' :: after))

/-- The second value is the first with another value of one member. -/
inductive ReplacesMember (key : List UInt8) (v v' : Raw) : Raw → Raw → Prop
  | mk {before after : List (List UInt8 × Raw)} :
      ReplacesMember key v v' (.object (before ++ (key, v) :: after))
        (.object (before ++ (key, v') :: after))

/-- The second value is the first with another value of the member with a name: in an object, or in a
list of the values of members with these names. -/
inductive ReplacesNamed (names : List String) (name : String) (v v' t t' : Raw) : Prop
  | member {key : List UInt8} (hname : text? key = some name) (h : ReplacesMember key v v' t t')
  | item {index : Nat} (hname : names[index]? = some name) (h : ReplacesItem index v v' t t')

/-! ## Members put one after another -/

section

variable {α β σ : Type}

/-- Members are put one part after the other. -/
theorem putMembers?_append (put : String → Raw → σ → Option σ) (before after : List (List UInt8 × Raw))
    (state : σ) :
    putMembers? put (before ++ after) state =
      (putMembers? put before state).bind (putMembers? put after) := by
  induction before generalizing state with
  | nil => rfl
  | cons m before ih =>
    simp only [List.cons_append, putMembers?, Option.bind_assoc, ← ih]

/-- If no two members hinder one another, their order does not count. -/
theorem putMembers?_perm {put : String → Raw → σ → Option σ}
    (hcomm : ∀ name t name' t' state, (put name t state).bind (put name' t') =
      (put name' t' state).bind (put name t))
    {members members' : List (List UInt8 × Raw)} (h : members.Perm members') (state : σ) :
    putMembers? put members state = putMembers? put members' state := by
  induction h generalizing state with
  | nil => rfl
  | cons m _ ih =>
    simp only [putMembers?]
    exact congrArg _ (funext ih)
  | swap m m' members =>
    obtain ⟨key, t⟩ := m
    obtain ⟨key', t'⟩ := m'
    simp only [putMembers?]
    -- a key that is no text stops both orders
    rcases text? key with _ | name <;> rcases text? key' with _ | name'
    · rfl
    · simp
    · simp
    · simp only [Option.bind_some, ← Option.bind_assoc, hcomm name t name' t' state]
  | trans _ _ ih ih' => exact (ih state).trans (ih' state)

/-- No member hinders another. -/
theorem Fields.put?_comm : ∀ {α : Type} (f : Fields α) (name : String) (t : Raw) (name' : String)
    (t' : Raw) (slots : f.Slots), (f.put? name t slots).bind (fun slots => f.put? name' t' slots) =
      (f.put? name' t' slots).bind fun slots => f.put? name t slots
  | _, .nil, _, _, _, _, _ => rfl
  | _, .cons own s _ rest, name, t, name', t', slots => by
    obtain ⟨slot, slots⟩ := slots
    simp only [Fields.put?]
    by_cases h : name = own <;> by_cases h' : name' = own
    · -- of two members with one name neither can come second
      rcases slot with _ | a <;> rcases s.mean? t with _ | b <;> rcases s.mean? t' with _ | b' <;>
        simp [h, h']
    · rcases slot with _ | a <;> rcases s.mean? t with _ | b <;>
        rcases hput : rest.put? name' t' slots with _ | more <;> simp [h, h', hput]
    · rcases slot with _ | a <;> rcases s.mean? t' with _ | b <;>
        rcases hput : rest.put? name t slots with _ | more <;> simp [h, h', hput]
    · have hcomm := congrArg (Option.map fun more => (slot, more))
        (Fields.put?_comm rest name t name' t' slots)
      simp only [h, h', if_false, Option.bind_map, Option.map_bind, Function.comp_def] at hcomm ⊢
      exact hcomm

/-- A member that is none of the record's is put nowhere. -/
theorem Fields.put?_of_notMem : ∀ {α : Type} (f : Fields α) {name : String} (_ : name ∉ f.names)
    (t : Raw) (slots : f.Slots), f.put? name t slots = some slots
  | _, .nil, _, _, _, _ => rfl
  | _, .cons own s _ rest, name, h, t, slots => by
    rw [Fields.names, List.mem_cons, not_or] at h
    rw [Fields.put?, if_neg h.1, Fields.put?_of_notMem rest h.2]
    rfl

/-- Members that are none of the record's are put nowhere. -/
theorem Fields.putMembers?_of_notMem (f : Fields α) {members : List (List UInt8 × Raw)}
    (h : ∀ m ∈ members, ∃ name, text? m.1 = some name ∧ name ∉ f.names) (slots : f.Slots) :
    putMembers? (fun name t slots => f.put? name t slots) members slots = some slots := by
  induction members with
  | nil => rfl
  | cons m members ih =>
    obtain ⟨name, hname, hunknown⟩ := h m List.mem_cons_self
    simp only [putMembers?, hname, Option.bind_some, Fields.put?_of_notMem f hunknown,
      ih fun m hm => h m (List.mem_cons_of_mem _ hm)]

/-! ## One member -/

/-- A function of a record's element does not tell what two values mean as the member with a name. -/
def Fields.SameAt : {α : Type} → Fields α → (α → β) → String → Raw → Raw → Prop
  | _, .nil, _, _, _, _ => True
  | _, .cons own s _ rest, φ, name, v, v' =>
    (name = own →
      (s.mean? v).map (fun a b => φ (a, b)) = (s.mean? v').map fun a b => φ (a, b)) ∧
    ∀ a, rest.SameAt (fun b => φ (a, b)) name v v'

/-- A record comes to its first member, or what stands in for it, and the rest. -/
theorem Fields.toOption_finish_cons {name : String} {s : Shape α} {absent : Option α} {rest : Fields β}
    (slots : (Fields.cons name s absent rest).Slots) :
    ((Fields.cons name s absent rest).finish slots).toOption =
      ((slots.1.or absent).or s.absent).bind fun a =>
        (rest.finish slots.2).toOption.map fun b => (a, b) := by
  rw [Fields.finish]
  rcases (slots.1.or absent).or s.absent with _ | a
  · rfl
  · dsimp only [Option.bind_some]
    cases rest.finish slots.2 <;> rfl

/-- The member that is put last counts only as far as the function of the element tells it. -/
theorem Fields.map_finish_put? : ∀ {α : Type} (f : Fields α) {φ : α → β} {name : String} {v v' : Raw}
    (_ : f.SameAt φ name v v') (slots : f.Slots),
    ((f.put? name v slots).bind fun slots => (f.finish slots).toOption).map φ =
      ((f.put? name v' slots).bind fun slots => (f.finish slots).toOption).map φ
  | _, .nil, _, _, _, _, _, _ => rfl
  | _, .cons own s absent rest, φ, name, v, v', h, slots => by
    obtain ⟨hsame, hrest⟩ := h
    obtain ⟨slot, slots⟩ := slots
    simp only [Fields.put?, Fields.toOption_finish_cons]
    by_cases hname : name = own
    · rcases slot with _ | a
      · -- what the others come to is one function of this member's value
        have hvalue := congrArg (fun o => o.bind fun g => (rest.finish slots).toOption.map g)
          (hsame hname)
        simpa only [hname, if_true, Option.isSome_none, Bool.false_eq_true, if_false, Option.some_or,
          Option.bind_map, Option.map_bind, Option.map_map, Function.comp_def, Option.bind_some]
          using hvalue
      · simp [hname]
    -- this value is the same on both sides, so that only what the others make of it matters
    · simp only [hname, if_false, Option.bind_map, Option.map_bind, Option.map_map, Function.comp_def]
      rcases (slot.or absent).or s.absent with _ | a
      · simp
      · have hlater := Fields.map_finish_put? rest (hrest a) slots
        simpa only [Option.map_bind, Function.comp_def, Option.bind_some] using hlater

/-- An item of a list counts only as far as the function of the element tells it as a member. -/
theorem Fields.map_take? : ∀ {α : Type} (f : Fields α) {φ : α → β} {v v' : Raw}
    {before after : List Raw} (_ : ∀ name, f.names[before.length]? = some name → f.SameAt φ name v v'),
    (f.take? (before ++ v :: after)).map φ = (f.take? (before ++ v' :: after)).map φ
  | _, .nil, _, _, _, _, _, _ => by simp [Fields.take?]
  | _, .cons own s absent rest, φ, v, v', [], after, h => by
    have hvalue := congrArg (fun o => o.bind fun g => (rest.take? after).map g) ((h own rfl).1 rfl)
    simpa only [List.nil_append, Fields.take?, Option.bind_map, Option.map_bind, Option.map_map,
      Function.comp_def] using hvalue
  | _, .cons own s absent rest, φ, v, v', t :: before, after, h => by
    simp only [List.cons_append, Fields.take?, Option.map_bind, Function.comp_def, Option.map_map]
    refine congrArg _ (funext fun a => ?_)
    exact Fields.map_take? rest fun name hname => (h name hname).2 a

/-- **A record's meaning hangs on its members one by one.** If a function of the element does not tell
two values of a member apart, it does not tell the records apart either. -/
theorem Shape.map_mean?_of_replacesMember (noun : String) {f : Fields α} {φ : α → β}
    {key : List UInt8} {v v' t t' : Raw} (h : ReplacesMember key v v' t t')
    (hsame : ∀ name, text? key = some name → f.SameAt φ name v v') :
    ((Shape.record noun f).mean? t).map φ = ((Shape.record noun f).mean? t').map φ := by
  cases h with
  | @mk before after =>
    -- the member may as well be the last
    have hlast (v : Raw) : putMembers? (fun name t slots => f.put? name t slots)
        (before ++ (key, v) :: after) f.empty =
          (putMembers? (fun name t slots => f.put? name t slots) (before ++ after) f.empty).bind
            fun slots => (text? key).bind fun name => f.put? name v slots := by
      rw [putMembers?_perm (Fields.put?_comm f) (List.perm_middle.trans
        (List.perm_append_singleton (key, v) (before ++ after)).symm), putMembers?_append]
      refine congrArg _ (funext fun slots => ?_)
      simp only [putMembers?, Option.bind_fun_some]
    simp only [Shape.mean?, hlast]
    rcases putMembers? (fun name t slots => f.put? name t slots) (before ++ after) f.empty with
      _ | slots
    · rfl
    rcases hname : text? key with _ | name
    · rfl
    · exact Fields.map_finish_put? f (hsame name hname) slots

theorem Shape.map_mean?_of_replacesNamed (noun : String) {f : Fields α} {φ : α → β} {name : String}
    {v v' t t' : Raw} (h : ReplacesNamed f.names name v v' t t') (hsame : f.SameAt φ name v v') :
    ((Shape.record noun f).mean? t).map φ = ((Shape.record noun f).mean? t').map φ := by
  cases h with
  | member hname h =>
    refine Shape.map_mean?_of_replacesMember noun h fun other hother => ?_
    rwa [Option.some.inj (hother.symm.trans hname)]
  | item hname h =>
    cases h with
    | mk hindex =>
      refine Fields.map_take? f fun other hother => ?_
      rw [hindex] at hother
      rwa [Option.some.inj (hother.symm.trans hname)]

end

/-! ## Items -/

/-- Items mean something together if each does. -/
theorem meanItems?_eq_ite {α : Type} (mean : Raw → Option α) (items : List Raw) :
    meanItems? mean items =
      if ∀ t ∈ items, (mean t).isSome then some (items.filterMap mean) else none := by
  induction items with
  | nil => rfl
  | cons t items ih =>
    rw [meanItems?, ih]
    rcases hmean : mean t with _ | a
    · simp [hmean]
    · by_cases h : ∀ t ∈ items, (mean t).isSome = true
      · rw [if_pos h, if_pos (List.forall_mem_cons.2 ⟨by rw [hmean]; rfl, h⟩),
          List.filterMap_cons_some hmean]
        rfl
      · rw [if_neg h, if_neg fun hall => h (List.forall_mem_cons.1 hall).2]
        rfl

/-- An item may be replaced by one that means the same. -/
theorem meanItems?_replace {α : Type} {mean : Raw → Option α} {v v' : Raw} (h : mean v = mean v')
    (before after : List Raw) :
    meanItems? mean (before ++ v :: after) = meanItems? mean (before ++ v' :: after) := by
  induction before with
  | nil => simp only [List.nil_append, meanItems?, h]
  | cons t before ih => simp only [List.cons_append, meanItems?, ih]

/-! ## Orders of members -/

/-- The values mean the same to every shape. -/
def Raw.Alike (t t' : Raw) : Prop := ∀ {α : Type} (s : Shape α), s.mean? t = s.mean? t'

/-- The second value is the first with the members of one object, somewhere in it, in another order. -/
inductive Raw.Reorders : Raw → Raw → Prop
  | here {members members' : List (List UInt8 × Raw)} (h : members.Perm members') :
      Reorders (.object members) (.object members')
  | item {index : Nat} {v v' t t' : Raw} (place : ReplacesItem index v v' t t') (h : Reorders v v') :
      Reorders t t'
  | member {key : List UInt8} {v v' t t' : Raw} (place : ReplacesMember key v v' t t')
      (h : Reorders v v') : Reorders t t'

/-- Values that mean the same are the same as any member. -/
theorem Fields.sameAt_of_alike {v v' : Raw} (h : v.Alike v') (name : String) :
    ∀ {α β : Type} (f : Fields α) (φ : α → β), f.SameAt φ name v v'
  | _, _, .nil, _ => trivial
  | _, _, .cons _ s _ rest, φ =>
    ⟨fun _ => by rw [h s], fun a => Fields.sameAt_of_alike h name rest fun b => φ (a, b)⟩

/-- Lists mean the same if they do so to lists and records. -/
theorem Raw.alike_list {items items' : List Raw}
    (hlist : ∀ {α : Type} (s : Shape α),
      meanItems? (fun t => s.mean? t) items = meanItems? (fun t => s.mean? t) items')
    (hrecord : ∀ {α : Type} (f : Fields α), f.take? items = f.take? items') :
    Raw.Alike (.list items) (.list items')
  | _, .optional s => congrArg (Option.map some) (Raw.alike_list hlist hrecord s)
  | _, .via make _ s => congrArg (Option.map make) (Raw.alike_list hlist hrecord s)
  | _, .list s => hlist s
  | _, .record _ f => hrecord f
  | _, .text | _, .flag | _, .natural _ | _, .integer | _, .unit _ | _, .any
  | _, .enumeration _ _ => rfl

/-- Objects mean the same if they do so to records. -/
theorem Raw.alike_object {members members' : List (List UInt8 × Raw)}
    (h : ∀ {α : Type} (noun : String) (f : Fields α),
      (Shape.record noun f).mean? (.object members) = (Shape.record noun f).mean? (.object members')) :
    Raw.Alike (.object members) (.object members')
  | _, .optional s => congrArg (Option.map some) (Raw.alike_object h s)
  | _, .via make _ s => congrArg (Option.map make) (Raw.alike_object h s)
  | _, .record noun f => h noun f
  | _, .list _ | _, .text | _, .flag | _, .natural _ | _, .integer | _, .unit _ | _, .any
  | _, .enumeration _ _ => rfl

/-- **The order of members does not count.** -/
theorem Raw.Reorders.alike {t t' : Raw} (h : t.Reorders t') : t.Alike t' := by
  induction h with
  | here h =>
    refine Raw.alike_object fun noun f => ?_
    rw [Shape.mean?, putMembers?_perm (Fields.put?_comm f) h, Shape.mean?]
  | item place _ ih =>
    cases place with
    | @mk before after _ =>
      refine Raw.alike_list (fun s => meanItems?_replace (ih s) before after) fun f => ?_
      simpa using Fields.map_take? f fun name _ => Fields.sameAt_of_alike ih name f id
  | member place _ ih =>
    have hrecord {α : Type} (noun : String) (f : Fields α) :=
      Shape.map_mean?_of_replacesMember noun place fun name _ => Fields.sameAt_of_alike ih name f id
    simp only [Option.map_id, id_eq] at hrecord
    cases place with
    | mk => exact fun {_} s => Raw.alike_object hrecord s

/-! ## Members that no record asks for -/

/-- The second value is the first with one member more, in the object of a record whose members have
these names: a member of another name, or one inside the value of a known one. -/
inductive Enlarges (names : List String) (inside : String → Raw → Raw → Prop) : Raw → Raw → Prop
  | member {before after : List (List UInt8 × Raw)} {key : List UInt8} {name : String} {value : Raw}
      (hname : text? key = some name) (unknown : name ∉ names) :
      Enlarges names inside (.object (before ++ after)) (.object (before ++ (key, value) :: after))
  | within {name : String} {v v' t t' : Raw} (known : name ∈ names)
      (place : ReplacesNamed names name v v' t t') (h : inside name v v') : Enlarges names inside t t'

mutual

/-- The second value is the first with one member more, in one of the objects that records are read from
when the value is read by the shape, under a name that this record does not know. -/
def Shape.Grows : {α : Type} → Shape α → Raw → Raw → Prop
  | _, .optional s, t, t' => s.Grows t t'
  | _, .list s, t, t' => ∃ index v v', ReplacesItem index v v' t t' ∧ s.Grows v v'
  | _, .record _ fields, t, t' =>
    Enlarges fields.names (fun name v v' => fields.GrowsAt name v v') t t'
  | _, .via _ _ s, t, t' => s.Grows t t'
  | _, _, _, _ => False

/-- The second value is such as the member with a name. -/
def Fields.GrowsAt : {α : Type} → Fields α → String → Raw → Raw → Prop
  | _, .nil, _, _, _ => True
  | _, .cons own s _ rest, name, v, v' => (name = own → s.Grows v v') ∧ rest.GrowsAt name v v'

end

/-- Only objects and lists can be enlarged. -/
theorem Enlarges.ne_null {names : List String} {inside : String → Raw → Raw → Prop} {t t' : Raw}
    (h : Enlarges names inside t t') : t ≠ .null ∧ t' ≠ .null := by
  cases h with
  | member _ _ => exact ⟨nofun, nofun⟩
  | within _ place _ =>
    cases place with
    | member _ h =>
      cases h
      exact ⟨nofun, nofun⟩
    | item _ h =>
      cases h
      exact ⟨nofun, nofun⟩

/-- Null has no members. -/
theorem Shape.Grows.ne_null : ∀ {α : Type} {s : Shape α} {t t' : Raw}, s.Grows t t' →
    t ≠ .null ∧ t' ≠ .null
  | _, .optional s, _, _, h => Shape.Grows.ne_null (s := s) h
  | _, .via _ _ s, _, _, h => Shape.Grows.ne_null (s := s) h
  | _, .list _, _, _, h => by
    obtain ⟨_, _, _, ⟨_⟩, _⟩ := h
    exact ⟨nofun, nofun⟩
  | _, .record _ _, _, _, h => Enlarges.ne_null h

/-- What is made of a value is made of its meaning. -/
theorem Shape.mean?_via {α β : Type} (make : β → α) (view : α → β) (s : Shape β) (t : Raw) :
    (Shape.via make view s).mean? t = (s.mean? t).map make := rfl

/-- A value that is not null is optional in name only. -/
theorem Shape.mean?_optional {α : Type} (s : Shape α) {t : Raw} (h : t ≠ .null) :
    (Shape.optional s).mean? t = (s.mean? t).map some := by
  cases t with
  | null => exact absurd rfl h
  | _ => rfl

mutual

/-- **Members that nobody asks for do not count.** -/
theorem Shape.mean?_of_grows : ∀ {α : Type} (s : Shape α) {t t' : Raw}, s.Grows t t' →
    s.mean? t = s.mean? t'
  | _, .optional s, t, t', h => by
    rw [Shape.mean?_optional s h.ne_null.1, Shape.mean?_optional s h.ne_null.2,
      Shape.mean?_of_grows s h]
  | _, .list s, _, _, h => by
    obtain ⟨_, v, v', ⟨_⟩, hitem⟩ := h
    exact meanItems?_replace (Shape.mean?_of_grows s hitem) _ _
  | _, .via make _ s, _, _, h => congrArg (Option.map make) (Shape.mean?_of_grows s h)
  | _, .record noun fields, _, _, h => by
    rw [Shape.Grows] at h
    cases h with
    | member hname unknown =>
      simp only [Shape.mean?, putMembers?_append, putMembers?, hname, Option.bind_some,
        Fields.put?_of_notMem fields unknown]
    | within _ place h =>
      -- the value that has grown means what it meant, and no record can tell it apart
      simpa only [Option.map_id, id_eq] using Shape.map_mean?_of_replacesNamed noun place
        (Fields.sameAt_of_growsAt fields id h)

/-- A value that has grown is the same as a member of the record. -/
theorem Fields.sameAt_of_growsAt : ∀ {α β : Type} (f : Fields α) (φ : α → β) {name : String}
    {v v' : Raw}, f.GrowsAt name v v' → f.SameAt φ name v v'
  | _, _, .nil, _, _, _, _, _ => trivial
  | _, _, .cons own s _ rest, φ, _, _, _, h =>
    ⟨fun hname => by rw [Shape.mean?_of_grows s (h.1 hname)],
      fun a => Fields.sameAt_of_growsAt rest (fun b => φ (a, b)) h.2⟩

end

end PullGate.Json
