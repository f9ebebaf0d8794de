import PullGate.Json.Access
/-!
# Reading any value

A value of any kind, read into a tree. Lists and objects lie in one another only so deep.
-/

namespace PullGate.Json

/-- The value after a byte that begins no list and no object. -/
def readScalar (b : UInt8) (rest : List UInt8) : Result Value :=
  if b = 0x6e then
    match readWord ['u', 'l', 'l'] rest with
    | .error f => .error f
    | .ok rest => .ok (.null, rest)
  else if b = 0x74 then
    match readWord ['r', 'u', 'e'] rest with
    | .error f => .error f
    | .ok rest => .ok (.flag true, rest)
  else if b = 0x66 then
    match readWord ['a', 'l', 's', 'e'] rest with
    | .error f => .error f
    | .ok rest => .ok (.flag false, rest)
  else if b = 0x2d then
    match readNumber false rest with
    | .error f => .error f
    | .ok (n, rest) => .ok (.number n, rest)
  else if Decimal.isDigit b then
    match readNumber true (b :: rest) with
    | .error f => .error f
    | .ok (n, rest) => .ok (.number n, rest)
  else if b = 0x22 then
    match readText rest with
    | .error f => .error f
    | .ok (s, rest) => .ok (.text s, rest)
  else .error (.at_ .expectedValue (b :: rest))

/-- Reads a value; `fuel` bounds the number of items and of members, `depth` how deep they lie. -/
def readValue (fuel : Nat) : Nat → List UInt8 → Result Value
  | depth, bytes =>
    match skipBlanks bytes with
    | [] => .error (.at_ .endInValue [])
    | b :: rest =>
      if b = 0x5b then
        match depth with
        | 0 | 1 => .error (.at_ .tooDeep (b :: rest))
        | depth + 2 =>
          match readItems (readValue fuel (depth + 1)) fuel 0 [] rest with
          | .error f => .error (f.closedBy afterList)
          | .ok (items, rest) => match endList rest with
            | .error f => .error f
            | .ok rest => .ok (.list items, rest)
      else if b = 0x7b then
        match depth with
        | 0 | 1 => .error (.at_ .tooDeep (b :: rest))
        | depth + 2 =>
          match readMembers (fun key members bytes =>
              match memberValue key (readValue fuel (depth + 1)) bytes with
              | .error f => .error f
              | .ok (v, rest) => .ok ((key, v) :: members, rest)) fuel true [] rest with
          | .error f => .error (f.closedBy afterObject)
          | .ok (members, rest) => match endObject rest with
            | .error f => .error f
            | .ok rest => .ok (.object members.reverse, rest)
      else readScalar b rest

end PullGate.Json
