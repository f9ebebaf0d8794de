import PullGate.Json.Decode
import PullGate.Json.Read
/-!
# Reading variants

Values with variants. Where a variant's content may come before its name, the content is kept as a
tree until the name is known, and then what is wrong with it has no place of its own.
-/

namespace PullGate.Json

namespace Branches

variable {α : Type}

/-- The name, if it is one of a variant. -/
def find? (b : Branches α) (tag : String) : Option String := b.tags.find? fun t => t = tag

/-- Reads what is in the variant with this name. -/
def readContent (fuel depth : Nat) : Branches α → String → List UInt8 → Result α
  | nil, tag, bytes => .error (.here (.unknownVariant tag []) bytes)
  | cons t s make _ rest, tag, bytes =>
    if t = tag then
      match s.read fuel depth bytes with
      | .error f => .error f
      | .ok (b, bytes) => .ok (make b, bytes)
    else rest.readContent fuel depth tag bytes

/-- What is in the variant with this name, from a tree. -/
def decodeContent : Branches α → String → Value → Except Cause α
  | nil, tag, _ => .error (.unknownVariant tag [])
  | cons t s make _ rest, tag, v =>
    if t = tag then
      match s.decode v with
      | .error c => .error c
      | .ok b => .ok (make b)
    else rest.decodeContent tag v

/-- The variant with this name, if its content may be left out. -/
def withoutContent : Branches α → String → Option α
  | nil, _ => none
  | cons t s make _ rest, tag => if t = tag then s.absent.map make else rest.withoutContent tag

end Branches

/-! ## The name among the members -/

/-- The name of a variant and the other members, last first, as far as they were read. -/
structure InsideState where
  tag : Option String
  members : List (String × Value)

/-- Reads one member of an object with the variant's name among its members. -/
def readInsideMember {α : Type} (fuel depth : Nat) (key : String) (b : Branches α) (name : String)
    (state : InsideState) (bytes : List UInt8) : Result InsideState :=
  if name = key then
    if state.tag.isSome then .error (.pending (.duplicateField key) bytes)
    else match memberValue name (readTag b.tags b.find?) bytes with
      | .error f => .error f
      | .ok ((_, tag), rest) => .ok ({ state with tag := some tag }, rest)
  else match memberValue name (readValue fuel depth) bytes with
    | .error f => .error f
    | .ok (v, rest) => .ok ({ state with members := (name, v) :: state.members }, rest)

/-- Reads an object with the variant's name among its members, or a list with the name in front. -/
def readInside {α : Type} (fuel depth : Nat) (noun key : String) (b : Branches α)
    (bytes : List UInt8) : Result (String × Value) :=
  match skipBlanks bytes with
  | [] => .error (.at_ .endInValue [])
  | c :: rest =>
    if c = 0x7b then
      insideObject depth (c :: rest) rest fun depth rest =>
        match readMembers (readInsideMember fuel depth key b) fuel true ⟨none, []⟩ rest with
        | .error f => .error f
        | .ok (state, rest) => match state.tag with
          | none => .error (.pending (.missingField key) rest)
          | some tag => .ok ((tag, .object state.members.reverse), rest)
    else if c = 0x5b then
      insideList depth (c :: rest) rest fun depth rest =>
        match nextItem true rest with
        | .error f => .error f
        | .ok none => .error (.pending (.missingField key) rest)
        | .ok (some rest) => match readTag b.tags b.find? rest with
          | .error f => .error (f.inside (.index 0))
          | .ok ((_, tag), rest) => match readItems (readValue fuel depth) fuel 1 [] rest with
            | .error f => .error f
            | .ok (items, rest) => .ok ((tag, .list items), rest)
    else match readScalar c rest with
      | .error f => .error f
      | .ok (v, rest) => .error (.here (.wrongType (.ofValue v) noun) rest)

/-! ## The name beside the content -/

/-- How much of a variant's name and content was read. -/
inductive BesideState (α : Type) where
  | start
  | tagged (tag : String)
  | content (v : Value)
  | complete (a : α)

/-- Reads one member of an object that holds the variant's name and its content. -/
def readBesideMember {α : Type} (fuel depth : Nat) (key content : String) (b : Branches α)
    (name : String) (state : BesideState α) (bytes : List UInt8) : Result (BesideState α) :=
  if name = key then
    let tag := memberValue name (readName b.tags b.find? depth) bytes
    match state with
    | .start => match tag with
      | .error f => .error f
      | .ok (t, rest) => .ok (.tagged t, rest)
    | .content v => match tag with
      | .error f => .error f
      | .ok (t, rest) => match b.decodeContent t v with
        | .error c => .error (.pending c rest)
        | .ok a => .ok (.complete a, rest)
    | _ => .error (.pending (.duplicateField key) bytes)
  else if name = content then
    match state with
    | .start => match memberValue name (readValue fuel depth) bytes with
      | .error f => .error f
      | .ok (v, rest) => .ok (.content v, rest)
    | .tagged t => match memberValue name (b.readContent fuel depth t) bytes with
      | .error f => .error f
      | .ok (a, rest) => .ok (.complete a, rest)
    | _ => .error (.pending (.duplicateField content) bytes)
  else match skipMember fuel name bytes with
    | .error f => .error f
    | .ok rest => .ok (state, rest)

/-- The variant when all members were read. -/
def BesideState.finish {α : Type} (key content : String) (b : Branches α) :
    BesideState α → Except Cause α
  | .complete a => .ok a
  | .tagged t => match b.withoutContent t with
    | some a => .ok a
    | none => .error (.missingField content)
  | _ => .error (.missingField key)

/-- Reads an object that holds the variant's name and its content, or a list of the two. -/
def readBeside {α : Type} (fuel depth : Nat) (noun key content : String) (b : Branches α)
    (bytes : List UInt8) : Result α :=
  match skipBlanks bytes with
  | [] => .error (.at_ .endInValue [])
  | c :: rest =>
    if c = 0x7b then
      insideObject depth (c :: rest) rest fun depth rest =>
        match readMembers (readBesideMember fuel depth key content b) fuel true .start rest with
        | .error f => .error f
        | .ok (state, rest) => match state.finish key content b with
          | .error c => .error (.pending c rest)
          | .ok a => .ok (a, rest)
    else if c = 0x5b then
      insideList depth (c :: rest) rest fun depth rest =>
        match nextItem true rest with
        | .error f => .error f
        | .ok none => .error (.pending (.wrongLength 0 noun) rest)
        | .ok (some rest) => match readName b.tags b.find? depth rest with
          | .error f => .error (f.inside (.index 0))
          | .ok (tag, rest) => match nextItem false rest with
            | .error f => .error f
            | .ok none => .error (.pending (.wrongLength 1 noun) rest)
            | .ok (some rest) => match b.readContent fuel depth tag rest with
              | .error f => .error (f.inside (.index 1))
              | .ok r => .ok r
    else .error (refuse noun (c :: rest))

/-! ## The name around the content -/

/-- Reads an object whose only key is the variant's name. -/
def readAround {α : Type} (fuel depth : Nat) (b : Branches α) (bytes : List UInt8) : Result α :=
  match skipBlanks bytes with
  | [] => .error (.at_ .endInValue [])
  | c :: rest =>
    if c = 0x7b then
      if depth ≤ 1 then .error (.at_ .tooDeep (c :: rest))
      else match readTag b.tags b.find? rest with
      | .error f => .error f
      | .ok ((_, tag), rest) => match readColon rest with
        | .error f => .error f
        | .ok rest => match b.readContent fuel (depth - 1) tag rest with
          | .error f => .error (f.inside (.key tag))
          | .ok (a, rest) => match endVariant rest with
            | .error f => .error f
            | .ok rest => .ok (a, rest)
    else if c = 0x22 then
      match readTag b.tags b.find? (c :: rest) with
      | .error f => .error f
      | .ok (_, rest) => .error (.pending (.wrongType .bareVariant "newtype variant") rest)
    else .error (.at_ .expectedValue (c :: rest))

/-! ## All forms -/

/-- Reads a value of a form from the front of a text. -/
def Form.read {α : Type} (fuel : Nat) : Form α → Nat → List UInt8 → Result α
  | .plain s, depth, bytes => s.read fuel depth bytes
  | .inside noun key b, depth, bytes => match readInside fuel depth noun key b bytes with
    | .error f => .error f
    | .ok ((tag, v), rest) => match b.decodeContent tag v with
      | .error c => .error (.pending c rest)
      | .ok a => .ok (a, rest)
  | .beside noun key content b, depth, bytes => readBeside fuel depth noun key content b bytes
  | .around b, depth, bytes => readAround fuel depth b bytes

/-- The element that a text stands for. -/
def Form.ofBytes {α : Type} (f : Form α) (bytes : List UInt8) : Except Error α :=
  wholly (fun fuel => f.read fuel depthLimit) bytes

end PullGate.Json
