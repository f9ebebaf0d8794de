import PullGate.Json.Error
import PullGate.Json.Shape
/-!
# Reading trees

Values that are already trees, read by their shapes. There are no places to report.
-/

namespace PullGate.Json

/-- All items of a list, each read in the same way. -/
def decodeItems {α : Type} (item : Value → Except Cause α) : List Value → Except Cause (List α)
  | [] => .ok []
  | v :: rest => match item v with
    | .error c => .error c
    | .ok a => match decodeItems item rest with
      | .error c => .error c
      | .ok as => .ok (a :: as)

/-- Null. -/
def decodeUnit (noun : String) : Value → Except Cause Unit
  | .null => .ok ()
  | v => .error (.wrongType (.ofValue v) noun)

/-- One of several names, alone or as the key of a null. -/
def decodeName {α : Type} (values : List α) (name : α → String) (v : Value) : Except Cause α :=
  let find (text : String) : Except Cause α := match values.find? fun a => name a = text with
    | some a => .ok a
    | none => .error (.unknownVariant text (values.map name))
  match v with
  | .text s => find s
  | .object [(key, content)] => match find key with
    | .error c => .error c
    | .ok a => match decodeUnit "unit" content with
      | .error c => .error c
      | .ok () => .ok a
  | .object _ => .error (.wrongValue .object "map with a single key")
  | other => .error (.wrongType (.ofValue other) "string or map")

/-- All members of an object, each put into a state in the same way. -/
def decodeMembers {σ : Type} (member : String → Value → σ → Except Cause σ) :
    List (String × Value) → σ → Except Cause σ
  | [], state => .ok state
  | (key, v) :: rest, state => match member key v state with
    | .error c => .error c
    | .ok state => decodeMembers member rest state

/-- What a list that is too long should have been. -/
def expectedItems (n : Nat) : String :=
  toString n ++ (if n = 1 then " element in sequence" else " elements in sequence")

mutual

/-- The element that a tree stands for. -/
def Shape.decode : {α : Type} → Shape α → Value → Except Cause α
  | _, .text, v => match v with
    | .text s => .ok s
    | other => .error (.wrongType (.ofValue other) "a string")
  | _, .flag, v => match v with
    | .flag b => .ok b
    | other => .error (.wrongType (.ofValue other) "a boolean")
  | _, .natural noun, v => match v with
    | .number (.natural n) => .ok n
    | .number (.negative n) => .error (.wrongValue (.number (.negative n)) noun)
    | other => .error (.wrongType (.ofValue other) noun)
  | _, .integer, v => match v with
    | .number (.natural n) =>
      if n.toNat < Nat.pow 2 63 then .ok n.toNat else .error (.wrongValue (.number (.natural n)) "i64")
    | .number (.negative n) => .ok (-n)
    | other => .error (.wrongType (.ofValue other) "i64")
  | _, .unit noun, v => decodeUnit noun v
  | _, .any, v => .ok v
  | _, .optional s, v => match v with
    | .null => .ok none
    | other => match s.decode other with
      | .error c => .error c
      | .ok a => .ok (some a)
  | _, .list s, v => match v with
    | .list items => decodeItems (fun v => s.decode v) items
    | other => .error (.wrongType (.ofValue other) "a sequence")
  | _, .enumeration values name, v => decodeName values name v
  | _, .record noun fields, v => match v with
    | .object members =>
      match decodeMembers (fun key v slots => fields.decodeMember key v slots) members fields.empty with
      | .error c => .error c
      | .ok slots => match fields.finish slots with
        | .error name => .error (.missingField name)
        | .ok a => .ok a
    | .list items => match fields.decodeList (fields.expected noun) 0 items with
      | .error c => .error c
      | .ok a =>
        if items.length ≤ fields.size then .ok a
        else .error (.wrongLength items.length (expectedItems fields.size))
    | other => .error (.wrongType (.ofValue other) ("struct " ++ noun))
  | _, .via make _ s, v => match s.decode v with
    | .error c => .error c
    | .ok b => .ok (make b)

/-- The value of one member put among those that were read, unless no member has this name. -/
def Fields.decodeMember :
    {α : Type} → (f : Fields α) → String → Value → f.Slots → Except Cause f.Slots
  | _, .nil, _, _, slots => .ok slots
  | _, .cons name s _ rest, key, v, slots =>
    if key = name then
      if slots.1.isSome then .error (.duplicateField name)
      else match s.decode v with
        | .error c => .error c
        | .ok a => .ok (some a, slots.2)
    else match rest.decodeMember key v slots.2 with
      | .error c => .error c
      | .ok more => .ok (slots.1, more)

/-- The values of the members from a list, which may lack those at its end that may be left out. -/
def Fields.decodeList : {α : Type} → Fields α → String → Nat → List Value → Except Cause α
  | _, .nil, _, _, _ => .ok ()
  | _, .cons _ _ absent rest, expected, index, [] => match absent with
    | none => .error (.wrongLength index expected)
    | some a => match rest.decodeList expected (index + 1) [] with
      | .error c => .error c
      | .ok b => .ok (a, b)
  | _, .cons _ s _ rest, expected, index, v :: items => match s.decode v with
    | .error c => .error c
    | .ok a => match rest.decodeList expected (index + 1) items with
      | .error c => .error c
      | .ok b => .ok (a, b)

end

/-! ## What a shape takes from a tree -/

/-- Integers are made of naturals below `2 ^ 63` and of negative numbers. -/
theorem Shape.decode_integer_eq_ok {v : Value} {i : Int} (h : Shape.integer.decode v = .ok i) :
    (∃ n : UInt64, n.toNat < Nat.pow 2 63 ∧ v = .number (.natural n) ∧ i = n.toNat) ∨
      ∃ n : Nat, v = .number (.negative n) ∧ i = -n := by
  simp only [Shape.decode] at h
  split at h
  · rename_i n
    split at h
    · rename_i hlt
      cases h
      exact .inl ⟨n, hlt, rfl, rfl⟩
    · cases h
  · cases h
    exact .inr ⟨_, rfl, rfl⟩
  · cases h

/-- An optional value is null, or a value of the shape. -/
theorem Shape.decode_optional_eq_ok {α : Type} {s : Shape α} {v : Value} {a : Option α}
    (h : (Shape.optional s).decode v = .ok a) :
    (v = .null ∧ a = none) ∨ (v ≠ .null ∧ ∃ b, s.decode v = .ok b ∧ a = some b) := by
  simp only [Shape.decode] at h
  split at h
  · cases h
    exact .inl ⟨rfl, rfl⟩
  · rename_i hnull
    rcases hv : s.decode v with c | b <;> rw [hv] at h
    · cases h
    · cases h
      exact .inr ⟨hnull, b, rfl, rfl⟩

/-- A record is an object of its members, or a list of their values that is not too long. -/
theorem Shape.decode_record_eq_ok {α : Type} {noun : String} {fields : Fields α} {v : Value} {a : α}
    (h : (Shape.record noun fields).decode v = .ok a) :
    (∃ members slots, v = .object members ∧
      decodeMembers (fun key v slots => fields.decodeMember key v slots) members fields.empty =
        .ok slots ∧ fields.finish slots = .ok a) ∨
      ∃ items, v = .list items ∧ fields.decodeList (fields.expected noun) 0 items = .ok a ∧
        items.length ≤ fields.size := by
  simp only [Shape.decode] at h
  split at h
  · rename_i members
    rcases hslots : decodeMembers (fun key v slots => fields.decodeMember key v slots) members
      fields.empty with c | slots <;> rw [hslots] at h
    · cases h
    rcases hfinish : fields.finish slots with c | b <;> simp only [hfinish] at h
    · cases h
    cases h
    exact .inl ⟨members, slots, rfl, hslots, hfinish⟩
  · rename_i items
    rcases hlist : fields.decodeList (fields.expected noun) 0 items with c | b <;> rw [hlist] at h
    · cases h
    simp only at h
    split at h
    · rename_i hlength
      cases h
      exact .inr ⟨items, rfl, hlist, hlength⟩
    · cases h
  · cases h

end PullGate.Json
