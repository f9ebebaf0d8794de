import PullGate.Proofs.Json.Reading
import PullGate.Proofs.Json.Rendering
/-!
# Elements that are written and read

An element is kept by a shape if what is written for it tells it from all others: the shape can hold it,
and nothing of it is lost. Then the text that is written is read as the element again
(`Shape.ofBytes_write`).
-/

namespace PullGate.Json

/-! ## Elements that are kept -/

mutual

/-- The shape keeps the element, and writes it with no more than so many lists and objects in one
another. -/
def Shape.Keeps : {α : Type} → Shape α → Nat → α → Prop
  | _, .integer, _, n => -Int.pow 2 63 ≤ n ∧ n < Int.pow 2 63
  | _, .any, d, v => v.isExact = true ∧ v.depth ≤ d
  | _, .optional s, d, a => ∀ b, a = some b → s.Keeps d b ∧ s.write b ≠ .null
  | _, .list s, d, as => 0 < d ∧ ∀ a ∈ as, s.Keeps (d - 1) a
  | _, .enumeration values name, _, a => values.find? (fun b => name b = name a) = some a
  | _, .record _ fields, d, a => 0 < d ∧ fields.names.Nodup ∧ fields.Keeps (d - 1) a
  | _, .via make view s, d, a => s.Keeps d (view a) ∧ make (view a) = a
  | _, _, _, _ => True

/-- The members keep what they stand for. -/
def Fields.Keeps : {α : Type} → Fields α → Nat → α → Prop
  | _, .nil, _, () => True
  | _, .cons _ s _ rest, d, (a, b) => s.Keeps d a ∧ rest.Keeps d b

end

/-- Integers of 64 bits are written exactly. -/
theorem Value.isExact_ofInt {n : Int} (h : -Int.pow 2 63 ≤ n) : (Value.ofInt n).isExact = true := by
  have hpow : Int.pow 2 63 = 9223372036854775808 := by decide
  unfold Value.ofInt
  split
  · rfl
  · have hpos : 0 < n.natAbs := by omega
    have hle : n.natAbs ≤ Nat.pow 2 63 := by
      have : Nat.pow 2 63 = 9223372036854775808 := by decide
      omega
    simp only [Value.isExact, Number.isExact, hpos, hle, decide_true, Bool.and_self]

theorem Value.depth_ofInt (n : Int) : (Value.ofInt n).depth = 0 := by
  unfold Value.ofInt
  split <;> rfl

mutual

/-- What is written for an element that is kept is written exactly. -/
theorem Shape.isExact_write : ∀ {α : Type} (s : Shape α) {d : Nat} {a : α}, s.Keeps d a →
    (s.write a).isExact = true
  | _, .text, _, _, _ | _, .flag, _, _, _ | _, .natural _, _, _, _ | _, .unit _, _, _, _
  | _, .enumeration _ _, _, _, _ => rfl
  | _, .integer, _, _, h => Value.isExact_ofInt h.1
  | _, .any, _, _, h => h.1
  | _, .optional _, _, none, _ => rfl
  | _, .optional s, _, some b, h => Shape.isExact_write s (h b rfl).1
  | _, .list s, _, _, h =>
    Value.areExact_map (fun a => s.write a) fun a ha => Shape.isExact_write s (h.2 a ha)
  | _, .record _ fields, _, _, h => Fields.isExact_write fields h.2.2
  | _, .via _ _ s, _, _, h => Shape.isExact_write s h.1

/-- Records whose values are kept are written exactly. -/
theorem Fields.isExact_write : ∀ {α : Type} (f : Fields α) {d : Nat} {a : α}, f.Keeps d a →
    Value.membersAreExact (f.write a) = true
  | _, .nil, _, (), _ => rfl
  | _, .cons _ s _ rest, _, (_, _), h => by
    rw [Fields.write, Value.membersAreExact, Shape.isExact_write s h.1, Fields.isExact_write rest h.2,
      Bool.and_true]

end

mutual

/-- What is written nests no deeper than the shape allows. -/
theorem Shape.depth_write_le : ∀ {α : Type} (s : Shape α) {d : Nat} {a : α}, s.Keeps d a →
    (s.write a).depth ≤ d
  | _, .text, _, _, _ | _, .flag, _, _, _ | _, .natural _, _, _, _ | _, .unit _, _, _, _
  | _, .enumeration _ _, _, _, _ => Nat.zero_le _
  | _, .integer, _, n, _ => Value.depth_ofInt n ▸ Nat.zero_le _
  | _, .any, _, _, h => h.2
  | _, .optional _, _, none, _ => Nat.zero_le _
  | _, .optional s, _, some b, h => Shape.depth_write_le s (h b rfl).1
  | _, .list s, _, _, h => by
    have hitems := Value.itemsDepth_map_le (fun a => s.write a) fun a ha =>
      Shape.depth_write_le s (h.2 a ha)
    have hpos := h.1
    rw [Shape.write, Value.depth]
    omega
  | _, .record _ fields, _, _, h => by
    have hmembers := Fields.depth_write_le fields h.2.2
    have hpos := h.1
    rw [Shape.write, Value.depth]
    omega
  | _, .via _ _ s, _, _, h => Shape.depth_write_le s h.1

theorem Fields.depth_write_le : ∀ {α : Type} (f : Fields α) {d : Nat} {a : α}, f.Keeps d a →
    Value.membersDepth (f.write a) ≤ d
  | _, .nil, _, (), _ => Nat.zero_le _
  | _, .cons _ s _ rest, _, (_, _), h =>
    Nat.max_le.2 ⟨Shape.depth_write_le s h.1, Fields.depth_write_le rest h.2⟩

end

/-! ## Reading what was written -/

namespace Fields

/-- The names of the members that are written. -/
theorem map_fst_write : ∀ {α : Type} (f : Fields α) (a : α), (f.write a).map (·.1) = f.names
  | _, .nil, () => rfl
  | _, .cons _ _ _ rest, (_, b) => by rw [write, List.map_cons, map_fst_write rest b, names]

/-- All values are there. -/
def filled : {α : Type} → (f : Fields α) → α → f.Slots
  | _, .nil, () => ()
  | _, .cons _ _ _ rest, (a, b) => (some a, rest.filled b)

/-- A record whose places are all filled is finished with what fills them. -/
theorem finish_filled : ∀ {α : Type} (f : Fields α) (a : α), f.finish (f.filled a) = .ok a
  | _, .nil, () => rfl
  | _, .cons name s absent rest, (a, b) => by
    simp only [finish, filled, Option.some_or, finish_filled rest b]

/-- Members of other names leave the first value alone. -/
theorem decodeMembers_cons {α β : Type} {name : String} {s : Shape α} {absent : Option α}
    {rest : Fields β} {members : List (String × Value)} (h : name ∉ members.map (·.1))
    (first : Option α) {more more' : rest.Slots}
    (hrest : decodeMembers (fun key v slots => rest.decodeMember key v slots) members more = .ok more') :
    decodeMembers (fun key v slots => (Fields.cons name s absent rest).decodeMember key v slots) members
      (first, more) = .ok (first, more') := by
  induction members generalizing more with
  | nil =>
    cases hrest
    rfl
  | cons m members ih =>
    obtain ⟨key, v⟩ := m
    simp only [List.map_cons, List.mem_cons, not_or] at h
    rw [decodeMembers] at hrest ⊢
    rcases hmember : rest.decodeMember key v more with c | next <;> simp only [hmember] at hrest
    · cases hrest
    · simp only [decodeMember, if_neg (Ne.symm h.1), hmember]
      exact ih h.2 hrest

end Fields

mutual

/-- **What is written is read.** What a shape writes for an element that it keeps stands for the
element. -/
theorem Shape.decode_write : ∀ {α : Type} (s : Shape α) {d : Nat} {a : α}, s.Keeps d a →
    s.decode (s.write a) = .ok a
  | _, .text, _, _, _ | _, .flag, _, _, _ | _, .natural _, _, _, _ | _, .unit _, _, _, _
  | _, .any, _, _, _ => rfl
  | _, .integer, _, n, h => by
    simp only [Shape.write, Value.ofInt]
    have hpow : Nat.pow 2 63 = 9223372036854775808 := by decide
    have hintPow : Int.pow 2 63 = 9223372036854775808 := by decide
    split
    · rename_i hsign
      have hlt : n.toNat < UInt64.size := by
        have : UInt64.size = 18446744073709551616 := rfl
        have := h.2
        omega
      simp only [Shape.decode, UInt64.toNat_ofNat_of_lt' hlt]
      rw [if_pos (by have := h.2; omega), Int.toNat_of_nonneg hsign]
    · simp only [Shape.decode, Except.ok.injEq]
      omega
  | _, .optional _, _, none, _ => rfl
  | _, .optional s, _, some b, h => by
    obtain ⟨hkeeps, hnull⟩ := h b rfl
    have hdec := Shape.decode_write s hkeeps
    simp only [Shape.write, Shape.decode]
    -- something that were written as null would be read as nothing
    cases hv : s.write b with
    | null => exact absurd hv hnull
    | _ => simp only [hv ▸ hdec]
  | _, .list s, _, as, h => by
    simp only [Shape.write, Shape.decode]
    have hitems := decodeItems_map (f := fun a => a) as fun a ha => Shape.decode_write s (h.2 a ha)
    rwa [List.map_id'] at hitems
  | _, .enumeration values name, _, a, h => by
    simp only [Shape.Keeps] at h
    simp only [Shape.write, Shape.decode, decodeName, h]
  | _, .record _ fields, _, a, h => by
    simp only [Shape.write, Shape.decode, Fields.decodeMembers_write fields h.2.1 h.2.2,
      Fields.finish_filled]
  | _, .via _ _ s, _, a, h => by
    simp only [Shape.write, Shape.decode, Shape.decode_write s h.1, h.2]

/-- The members that were written fill the places with the values that there were. -/
theorem Fields.decodeMembers_write : ∀ {α : Type} (f : Fields α) {d : Nat} {a : α}, f.names.Nodup →
    f.Keeps d a →
    decodeMembers (fun key v slots => f.decodeMember key v slots) (f.write a) f.empty =
      .ok (f.filled a)
  | _, .nil, _, (), _, _ => rfl
  | _, .cons name s absent rest, _, (a, b), hnodup, h => by
    obtain ⟨hname, hnames⟩ := List.nodup_cons.1 hnodup
    have hrest := Fields.decodeMembers_write rest hnames h.2
    simp only [Fields.write, decodeMembers, Fields.decodeMember, Fields.empty, if_true,
      Option.isSome_none, Bool.false_eq_true, if_false, Shape.decode_write s h.1]
    exact Fields.decodeMembers_cons (rest.map_fst_write b ▸ hname) (some a) hrest

end

/-- **Texts of elements.** The text that is written for an element which the shape keeps is read as the
element. -/
theorem Shape.ofBytes_write {α : Type} {s : Shape α} {d : Nat} {a : α} (hd : d < depthLimit)
    (h : s.Keeps d a) : s.ofBytes (s.write a).bytes = .ok a :=
  Shape.ofBytes_of_decode (Value.spells_bytes (s.isExact_write h)).whole
    (Nat.lt_of_le_of_lt (s.depth_write_le h) hd) (s.decode_write h)

end PullGate.Json
