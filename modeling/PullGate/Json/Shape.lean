import PullGate.Json.Value
/-!
# Shapes

What a value must look like to be read as a value of some type, and how a value of the type is
written. The same shape serves for reading a text as it comes, for reading a value that is already a
tree, and for writing.
-/

namespace PullGate.Json

mutual

/-- The shape of values that stand for elements of a type. -/
inductive Shape : Type → Type 1 where
  /-- A text. -/
  | text : Shape String
  /-- True or false. -/
  | flag : Shape Bool
  /-- A number without a sign of 64 bits; `noun` is its name in messages. -/
  | natural (noun : String) : Shape UInt64
  /-- A number with a sign of 64 bits. -/
  | integer : Shape Int
  /-- Null; `noun` is what stands for it in messages. -/
  | unit (noun : String) : Shape Unit
  /-- Any value. -/
  | any : Shape Value
  /-- Null, or a value of a shape. -/
  | optional {α : Type} (s : Shape α) : Shape (Option α)
  /-- A list of values of one shape. -/
  | list {α : Type} (s : Shape α) : Shape (List α)
  /-- One of several names. -/
  | enumeration {α : Type} (values : List α) (name : α → String) : Shape α
  /-- An object with these members, or a list of their values; `noun` is its name in messages. -/
  | record {α : Type} (noun : String) (fields : Fields α) : Shape α
  /-- A value that stands for another. -/
  | via {α β : Type} (make : β → α) (view : α → β) (s : Shape β) : Shape α

/-- The members of an object, in their order. -/
inductive Fields : Type → Type 1 where
  | nil : Fields Unit
  /-- A member and those after it. A member with a value in `absent` may be left out, and then has
  this value. -/
  | cons {α β : Type} (name : String) (s : Shape α) (absent : Option α) (rest : Fields β) :
    Fields (α × β)

end

/-- The variants of a type, each with the name that tells it from the others and the shape of what is
in it. -/
inductive Branches (α : Type) : Type 1 where
  | nil : Branches α
  | cons {β : Type} (tag : String) (s : Shape β) (make : β → α) (view : α → Option β)
    (rest : Branches α) : Branches α

/-- How a value with variants looks. -/
inductive Form : Type → Type 1 where
  /-- A value without variants. -/
  | plain {α : Type} (s : Shape α) : Form α
  /-- An object with the variant's name among its members; `noun` is its name in messages. -/
  | inside {α : Type} (noun key : String) (branches : Branches α) : Form α
  /-- An object with two members: the variant's name and what is in it. -/
  | beside {α : Type} (noun key content : String) (branches : Branches α) : Form α
  /-- An object with one member, whose key is the variant's name. -/
  | around {α : Type} (branches : Branches α) : Form α

/-! ## Members -/

namespace Shape

/-- What a value of the shape is called in messages. -/
def expected : {α : Type} → Shape α → String
  | _, text => "a string"
  | _, flag => "a boolean"
  | _, natural noun => noun
  | _, integer => "i64"
  | _, unit noun => noun
  | _, any => "any valid JSON value"
  | _, optional _ => "option"
  | _, list _ => "a sequence"
  | _, enumeration _ _ => "string or map"
  | _, record noun _ => "struct " ++ noun
  | _, via _ _ s => s.expected

/-- The value that stands for a member that is left out, if the shape has one. -/
def absent : {α : Type} → Shape α → Option α
  | _, unit _ => some ()
  | _, optional _ => some none
  | _, via make _ s => s.absent.map make
  | _, _ => none

end Shape

namespace Fields

/-- The values of members that were read so far. -/
@[reducible] def Slots : {α : Type} → Fields α → Type
  | _, nil => Unit
  | _, cons (α := α) _ _ _ rest => Option α × rest.Slots

/-- No values yet. -/
def empty : {α : Type} → (f : Fields α) → f.Slots
  | _, nil => ()
  | _, cons _ _ _ rest => (none, rest.empty)

/-- How many members there are. -/
def size : {α : Type} → Fields α → Nat
  | _, nil => 0
  | _, cons _ _ _ rest => rest.size + 1

/-- The names of the members. -/
def names : {α : Type} → Fields α → List String
  | _, nil => []
  | _, cons name _ _ rest => name :: rest.names

/-- What a list of the members' values is called in messages. -/
def expected {α : Type} (noun : String) (f : Fields α) : String :=
  "struct " ++ noun ++ " with " ++ toString f.size ++ (if f.size = 1 then " element" else " elements")

/-- The values of all members, or the name of the first that is missing. -/
def finish : {α : Type} → (f : Fields α) → f.Slots → Except String α
  | _, nil, _ => .ok ()
  | _, cons name s absent rest, slots =>
    match (slots.1.or absent).or s.absent with
    | none => .error name
    | some a => match rest.finish slots.2 with
      | .error missing => .error missing
      | .ok b => .ok (a, b)

end Fields

namespace Branches

/-- The names of the variants. -/
def tags {α : Type} : Branches α → List String
  | nil => []
  | cons tag _ _ _ rest => tag :: rest.tags

end Branches

end PullGate.Json
