import PullGate.Json.Error
import PullGate.Json.Shape
import PullGate.Text.Hex
/-!
# Writing JSON

Values by their shapes, and values as text. A text has no blanks between its parts; inside quotation
marks only quotation marks, backslashes and control characters are escaped.
-/

namespace PullGate.Json

/-! ## Values as text -/

/-- A character inside quotation marks. -/
def escapedChar (c : Char) : List Char :=
  if c = '"' then ['\\', '"']
  else if c = '\\' then ['\\', '\\']
  else if c.toNat = 0x08 then ['\\', 'b']
  else if c.toNat = 0x0c then ['\\', 'f']
  else if c = '\n' then ['\\', 'n']
  else if c = '\r' then ['\\', 'r']
  else if c = '\t' then ['\\', 't']
  else if c.toNat < 0x20 then
    ['\\', 'u', '0', '0', Text.Hex.digit (c.toNat / 16), Text.Hex.digit (c.toNat % 16)]
  else [c]

/-- A text between quotation marks. -/
def renderText (s : String) : List Char := '"' :: s.toList.flatMap escapedChar ++ ['"']

mutual

/-- A value as text. -/
def Value.render : Value → List Char
  | .null => ['n', 'u', 'l', 'l']
  | .flag true => ['t', 'r', 'u', 'e']
  | .flag false => ['f', 'a', 'l', 's', 'e']
  | .number n => n.render.toList
  | .text s => renderText s
  | .list [] => ['[', ']']
  | .list (v :: rest) => '[' :: v.render ++ Value.renderItems rest ++ [']']
  | .object [] => ['\x7b', '\x7d']
  | .object ((k, v) :: rest) =>
    '\x7b' :: renderText k ++ ':' :: v.render ++ Value.renderMembers rest ++ ['\x7d']

/-- Items after the first. -/
def Value.renderItems : List Value → List Char
  | [] => []
  | v :: rest => ',' :: v.render ++ Value.renderItems rest

/-- Members after the first. -/
def Value.renderMembers : List (String × Value) → List Char
  | [] => []
  | (k, v) :: rest => ',' :: renderText k ++ ':' :: v.render ++ Value.renderMembers rest

end

/-! ## Values by shapes -/

/-- A number with a sign as a value. -/
def Value.ofInt (n : Int) : Value :=
  if 0 ≤ n then .number (.natural (UInt64.ofNat n.toNat)) else .number (.negative n.natAbs)

mutual

/-- The value that stands for an element. -/
def Shape.write : {α : Type} → Shape α → α → Value
  | _, .text, s => .text s
  | _, .flag, b => .flag b
  | _, .natural _, n => .number (.natural n)
  | _, .integer, n => .ofInt n
  | _, .unit _, () => .null
  | _, .any, v => v
  | _, .optional s, a => match a with
    | none => .null
    | some a => s.write a
  | _, .list s, as => .list (as.map fun a => s.write a)
  | _, .enumeration _ name, a => .text (name a)
  | _, .record _ fields, a => .object (fields.write a)
  | _, .via _ view s, a => s.write (view a)

/-- The members that stand for an element. -/
def Fields.write : {α : Type} → Fields α → α → List (String × Value)
  | _, .nil, () => []
  | _, .cons name s _ rest, (a, b) => (name, s.write a) :: rest.write b

end

/-- The name of the variant that an element belongs to, the value of its content, and whether there
is nothing in it. -/
def Branches.write {α : Type} : Branches α → α → Option (String × Value × Bool)
  | .nil, _ => none
  | .cons tag s _ view rest, a => match view a with
    | some b => some (tag, s.write b, s.absent.isSome)
    | none => rest.write a

/-- The value that stands for an element of a type with variants. -/
def Form.write {α : Type} : Form α → α → Value
  | .plain s, a => s.write a
  | .inside _ key b, a => match b.write a with
    | some (tag, .object members, _) => .object ((key, .text tag) :: members)
    | some (_, v, _) => v
    | none => .null
  | .beside _ key content b, a => match b.write a with
    | some (tag, _, true) => .object [(key, .text tag)]
    | some (tag, v, false) => .object [(key, .text tag), (content, v)]
    | none => .null
  | .around b, a => match b.write a with
    | some (tag, v, _) => .object [(tag, v)]
    | none => .null

end PullGate.Json
