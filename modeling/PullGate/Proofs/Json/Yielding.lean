import PullGate.Json.Read
/-!
# What reading can come to

Which elements a shape can be read as, whatever the text is (`Shape.yields_of_ofBytes`): an element
that stands for another comes from one that can be read.
-/

namespace PullGate.Json

/-! ## Elements that can be read -/

mutual

/-- Reading by the shape can come to the element. -/
def Shape.Yields : {α : Type} → Shape α → α → Prop
  | _, .optional s, a => ∀ b, a = some b → s.Yields b
  | _, .list s, as => ∀ a ∈ as, s.Yields a
  | _, .enumeration values _, a => a ∈ values
  | _, .record _ fields, a => fields.Yields a
  | _, .via make _ s, a => ∃ b, s.Yields b ∧ make b = a
  | _, _, _ => True

/-- Reading the members can come to this: each is read, or stands for one that is left out. -/
def Fields.Yields : {α : Type} → Fields α → α → Prop
  | _, .nil, () => True
  | _, .cons _ s absent rest, (a, b) =>
    (s.Yields a ∨ absent = some a ∨ s.absent = some a) ∧ rest.Yields b

/-- Each value that was read so far can be read. -/
def Fields.SlotsYield : {α : Type} → (f : Fields α) → f.Slots → Prop
  | _, .nil, _ => True
  | _, .cons _ s _ rest, slots => (∀ a, slots.1 = some a → s.Yields a) ∧ rest.SlotsYield slots.2

end

/-! ## Parts -/

section

variable {α σ : Type}

/-- What is read as a list is read of its inside. -/
theorem body_of_insideList {depth : Nat} {opened bytes rest : List UInt8}
    {body : Nat → List UInt8 → Result α} {a : α}
    (h : insideList depth opened bytes body = .ok (a, rest)) :
    ∃ tail, body (depth - 1) bytes = .ok (a, tail) := by
  unfold insideList at h
  split at h
  · cases h
  · rcases hbody : body (depth - 1) bytes with f | ⟨b, tail⟩ <;> simp only [hbody] at h
    · cases h
    · split at h
      · cases h
      · cases h
        exact ⟨tail, rfl⟩

/-- What is read as an object is read of its inside. -/
theorem body_of_insideObject {depth : Nat} {opened bytes rest : List UInt8}
    {body : Nat → List UInt8 → Result α} {a : α}
    (h : insideObject depth opened bytes body = .ok (a, rest)) :
    ∃ tail, body (depth - 1) bytes = .ok (a, tail) := by
  unfold insideObject at h
  split at h
  · cases h
  · rcases hbody : body (depth - 1) bytes with f | ⟨b, tail⟩ <;> simp only [hbody] at h
    · cases h
    · split at h
      · cases h
      · cases h
        exact ⟨tail, rfl⟩

/-- What holds of each item that is read holds of all items. -/
theorem forall_mem_of_readItems {P : α → Prop} {item : List UInt8 → Result α}
    (hitem : ∀ bytes a rest, item bytes = .ok (a, rest) → P a) {fuel index : Nat} {read as : List α}
    {bytes rest : List UInt8} (hread : ∀ a ∈ read, P a)
    (h : readItems item fuel index read bytes = .ok (as, rest)) : ∀ a ∈ as, P a := by
  induction fuel generalizing index read bytes with
  | zero => cases h
  | succ fuel ih =>
    rw [readItems] at h
    split at h
    · cases h
    · cases h
      exact fun a ha => hread a (List.mem_reverse.1 ha)
    · split at h
      · cases h
      · rename_i hfirst
        exact ih (List.forall_mem_cons.2 ⟨hitem _ _ _ hfirst, hread⟩) h

/-- What each member preserves holds after all members. -/
theorem holds_of_readMembers {P : σ → Prop} {member : String → σ → List UInt8 → Result σ}
    (hmember : ∀ key s bytes s' rest, P s → member key s bytes = .ok (s', rest) → P s')
    {fuel : Nat} {first : Bool} {s s' : σ} {bytes rest : List UInt8} (hs : P s)
    (h : readMembers member fuel first s bytes = .ok (s', rest)) : P s' := by
  induction fuel generalizing first s bytes with
  | zero => cases h
  | succ fuel ih =>
    rw [readMembers] at h
    split at h
    · cases h
    · cases h
      exact hs
    · split at h
      · cases h
      · split at h
        · cases h
        · rename_i hmem
          exact ih (hmember _ _ _ _ _ hs hmem) h

/-- What is read as a member is read of its value. -/
theorem value_of_memberValue {key : String} {value : List UInt8 → Result α} {bytes rest : List UInt8}
    {a : α} (h : memberValue key value bytes = .ok (a, rest)) :
    ∃ bytes, value bytes = .ok (a, rest) := by
  unfold memberValue at h
  split at h
  · cases h
  · split at h
    · cases h
    · cases h
      exact ⟨_, ‹_›⟩

/-- What is read as an optional value, and is there, is read as a value. -/
theorem value_of_readOptional {value : List UInt8 → Result α} {bytes rest : List UInt8} {a : α}
    (h : readOptional value bytes = .ok (some a, rest)) : ∃ rest, value bytes = .ok (a, rest) := by
  unfold readOptional at h
  rcases hvalue : value bytes with f | ⟨b, left⟩ <;> simp only [hvalue] at h
  · split at h
    · cases h
    · split at h
      · split at h <;> cases h
      · cases h
  · -- null is nothing, so that what is something was read as a value
    split at h
    · cases h
      exact ⟨_, rfl⟩
    · split at h
      · split at h <;> cases h
      · cases h
        exact ⟨_, rfl⟩

/-- What is read as a tag is known. -/
theorem find_of_readTag {known : List String} {find : String → Option α} {bytes rest : List UInt8}
    {s : String} {a : α} (h : readTag known find bytes = .ok ((s, a), rest)) : find s = some a := by
  unfold readTag at h
  split at h
  · cases h
  · split at h
    · cases h
      assumption
    · cases h

/-- What is read as a name is that of something. -/
theorem find_of_readName {known : List String} {find : String → Option α} {depth : Nat}
    {bytes rest : List UInt8} {a : α} (h : readName known find depth bytes = .ok (a, rest)) :
    ∃ s, find s = some a := by
  unfold readName at h
  split at h
  · cases h
  · split at h
    · split at h
      · cases h
      · rename_i htag
        cases h
        exact ⟨_, find_of_readTag htag⟩
    · split at h
      · split at h
        · cases h
        · split at h
          · cases h
          · rename_i htag
            repeat' split at h
            all_goals cases h
            exact ⟨_, find_of_readTag htag⟩
      · cases h

end

/-! ## Shapes -/

theorem Fields.slotsYield_empty : ∀ {α : Type} (f : Fields α), f.SlotsYield f.empty
  | _, .nil => True.intro
  | _, .cons _ _ _ rest => ⟨nofun, Fields.slotsYield_empty rest⟩

/-- What is finished of places that yield yields. -/
theorem Fields.yields_of_finish : ∀ {α : Type} (f : Fields α) {slots : f.Slots} {a : α},
    f.SlotsYield slots → f.finish slots = .ok a → f.Yields a
  | _, .nil, _, (), _, _ => trivial
  | _, .cons name s absent rest, slots, a, hslots, h => by
    simp only [Fields.finish] at h
    split at h
    · cases h
    · rename_i b hb
      split at h
      · cases h
      · rename_i c hc
        cases h
        refine ⟨?_, Fields.yields_of_finish rest hslots.2 hc⟩
        rcases Option.or_eq_some_iff.1 hb with hb | ⟨-, hb⟩
        · rcases Option.or_eq_some_iff.1 hb with hb | ⟨-, hb⟩
          · exact .inl (hslots.1 b hb)
          · exact .inr (.inl hb)
        · exact .inr (.inr hb)

/-- A record yields what its members do, whether they come from a list or from an object. -/
theorem Shape.yields_of_read_record {α : Type} {fuel : Nat} {noun : String} {fields : Fields α}
    (hlist : ∀ {depth : Nat} {bytes rest : List UInt8} {a : α},
      fields.readList fuel depth (fields.expected noun) 0 bytes = .ok (a, rest) → fields.Yields a)
    (hmember : ∀ {depth : Nat} {key : String} {slots slots' : fields.Slots} {bytes rest : List UInt8},
      fields.SlotsYield slots → fields.readMember fuel depth key slots bytes = .ok (slots', rest) →
        fields.SlotsYield slots')
    {depth : Nat} {bytes rest : List UInt8} {a : α}
    (h : (Shape.record noun fields).read fuel depth bytes = .ok (a, rest)) : fields.Yields a := by
  simp only [Shape.read] at h
  split at h
  · cases h
  · split at h
    · obtain ⟨tail, hbody⟩ := body_of_insideList h
      exact hlist hbody
    · split at h
      · obtain ⟨tail, hbody⟩ := body_of_insideObject h
        split at hbody
        · cases hbody
        · rename_i slots _ hmembers
          split at hbody
          · cases hbody
          · rename_i hfinish
            cases hbody
            have hslots : fields.SlotsYield slots :=
              holds_of_readMembers (fun _ _ _ _ _ => hmember) fields.slotsYield_empty hmembers
            exact fields.yields_of_finish hslots hfinish
      · cases h

mutual

/-- **What is read can be read.** Whatever a shape reads from the front of a text is an element that
reading by it can come to. -/
theorem Shape.yields_of_read (fuel : Nat) : ∀ {α : Type} (s : Shape α) {depth : Nat}
    {bytes rest : List UInt8} {a : α}, s.read fuel depth bytes = .ok (a, rest) → s.Yields a
  | _, .text, _, _, _, _, _ | _, .flag, _, _, _, _, _ | _, .natural _, _, _, _, _, _
  | _, .integer, _, _, _, _, _ | _, .unit _, _, _, _, _, _ | _, .any, _, _, _, _, _ => trivial
  | _, .optional s, _, _, _, a, h => by
    rintro b rfl
    simp only [Shape.read] at h
    obtain ⟨rest, hvalue⟩ := value_of_readOptional h
    exact Shape.yields_of_read fuel s hvalue
  | _, .list s, _, _, _, as, h => by
    simp only [Shape.read] at h
    split at h
    · cases h
    · split at h
      · obtain ⟨tail, hitems⟩ := body_of_insideList h
        exact forall_mem_of_readItems (fun _ _ _ hitem => Shape.yields_of_read fuel s hitem)
          (List.forall_mem_nil _) hitems
      · cases h
  | _, .enumeration values name, _, _, _, a, h => by
    simp only [Shape.read] at h
    obtain ⟨text, hfind⟩ := find_of_readName h
    exact List.mem_of_find?_eq_some hfind
  | _, .record noun fields, _, _, _, a, h => by
    exact Shape.yields_of_read_record (fun hlist => Fields.yields_of_readList fuel fields hlist)
      (fun hslots hmember => Fields.slotsYield_of_readMember fuel fields hslots hmember) h
  | _, .via make _ s, _, _, _, a, h => by
    simp only [Shape.read] at h
    split at h
    · cases h
    · rename_i b _ hread
      cases h
      exact ⟨b, Shape.yields_of_read fuel s hread, rfl⟩

/-- A member that is read into places that yield leaves them so. -/
theorem Fields.slotsYield_of_readMember (fuel : Nat) : ∀ {α : Type} (f : Fields α) {depth : Nat}
    {key : String} {slots slots' : f.Slots} {bytes rest : List UInt8}, f.SlotsYield slots →
    f.readMember fuel depth key slots bytes = .ok (slots', rest) → f.SlotsYield slots'
  | _, .nil, _, _, _, _, _, _, _, _ => trivial
  | _, .cons name s absent more, _, key, slots, slots', bytes, rest, hslots, h => by
    simp only [Fields.readMember] at h
    split at h
    · split at h
      · cases h
      · split at h
        · cases h
        · rename_i hvalue
          cases h
          obtain ⟨bytes, hread⟩ := value_of_memberValue hvalue
          refine ⟨?_, hslots.2⟩
          rintro b ⟨⟩
          exact Shape.yields_of_read fuel s hread
    · split at h
      · cases h
      · rename_i hmore
        cases h
        exact ⟨hslots.1, Fields.slotsYield_of_readMember fuel more hslots.2 hmore⟩

/-- What is read as a list of members yields. -/
theorem Fields.yields_of_readList (fuel : Nat) : ∀ {α : Type} (f : Fields α) {depth index : Nat}
    {expected : String} {bytes rest : List UInt8} {a : α},
    f.readList fuel depth expected index bytes = .ok (a, rest) → f.Yields a
  | _, .nil, _, _, _, _, _, _, _ => trivial
  | _, .cons name s absent more, _, _, _, _, _, a, h => by
    simp only [Fields.readList] at h
    split at h
    · cases h
    · split at h
      · cases h
      · rename_i b
        split at h
        · cases h
        · rename_i hmore
          cases h
          exact ⟨.inr (.inl rfl), Fields.yields_of_readList fuel more hmore⟩
    · split at h
      · cases h
      · rename_i hread
        split at h
        · cases h
        · rename_i hmore
          cases h
          exact ⟨.inl (Shape.yields_of_read fuel s hread), Fields.yields_of_readList fuel more hmore⟩

end

/-- Whatever a shape reads from a whole text is an element that reading by it can come to. -/
theorem Shape.yields_of_ofBytes {α : Type} {s : Shape α} {bytes : List UInt8} {a : α}
    (h : s.ofBytes bytes = .ok a) : s.Yields a := by
  unfold Shape.ofBytes wholly at h
  split at h
  · cases h
  · rename_i hread
    split at h
    · cases h
    · cases h
      exact s.yields_of_read _ hread

end PullGate.Json
