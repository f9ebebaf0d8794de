/-!
# JSON values

Values as a tree. Members of objects are kept in the order of the text, also those with the same name;
`Value.settled` keeps the last of them, in the order of the names.
-/

namespace PullGate.Json

/-- A number: one that fits 64 bits without a sign, a negative one that fits 64 bits with a sign, or
any other. -/
inductive Number where
  | natural (n : UInt64)
  /-- Minus a positive number of at most `2 ^ 63`. -/
  | negative (n : Nat)
  | float (f : Float)

/-- A value. -/
inductive Value where
  | null
  | flag (b : Bool)
  | number (n : Number)
  | text (s : String)
  | list (items : List Value)
  | object (members : List (String × Value))

namespace Value

/-- The value of the last member with a name. -/
def member? (name : String) (members : List (String × Value)) : Option Value :=
  (members.reverse.find? fun m => m.1 = name).map (·.2)

/-- Puts a member in its place by name; one with the same name gives way. -/
def place (name : String) (v : Value) : List (String × Value) → List (String × Value)
  | [] => [(name, v)]
  | (k, w) :: rest =>
    if name = k then (k, v) :: rest
    else if name < k then (name, v) :: (k, w) :: rest
    else (k, w) :: place name v rest

mutual

/-- The value with each name once in every object, in the order of the names. -/
def settled : Value → Value
  | list items => list (settledItems items)
  | object members => object (settledMembers members [])
  | v => v

/-- Items with their objects settled. -/
def settledItems : List Value → List Value
  | [] => []
  | v :: rest => settled v :: settledItems rest

/-- Members put in their places among those that are there already. -/
def settledMembers : List (String × Value) → List (String × Value) → List (String × Value)
  | [], placed => placed
  | (k, v) :: rest, placed => settledMembers rest (place k (settled v) placed)

end

end Value

end PullGate.Json
