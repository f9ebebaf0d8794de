import PullGate.Json.Lexical
/-!
# Items and members

Going through a list's items and an object's members, one after another, and coming to their ends.
-/

namespace PullGate.Json

/-- How deep lists and objects may lie in one another, and one more. -/
def depthLimit : Nat := 128

/-- Looks for an item; `first` says that none came before. There is none at the end of the list, which
is not passed over. -/
def nextItem (first : Bool) (bytes : List UInt8) : Except Failure (Option (List UInt8)) :=
  match skipBlanks bytes with
  | [] => .error (.at_ .endInList [])
  | b :: rest =>
    if b = 0x5d then .ok none
    else if first then .ok (some (b :: rest))
    else if b = 0x2c then
      match skipBlanks rest with
      | [] => .error (.at_ .endInValue [])
      | c :: rest => if c = 0x5d then .error (.at_ .trailingComma (c :: rest)) else .ok (some (c :: rest))
    else .error (.at_ .expectedListEnd (b :: rest))

/-- Looks for the key of a member, up to the text after its opening mark; `first` says that none came
before. There is none at the end of the object, which is not passed over. -/
def nextKey (first : Bool) (bytes : List UInt8) : Except Failure (Option (List UInt8)) :=
  match skipBlanks bytes with
  | [] => .error (.at_ .endInObject [])
  | b :: rest =>
    if b = 0x7d then .ok none
    else if first then
      if b = 0x22 then .ok (some rest) else .error (.at_ .keyNotText (b :: rest))
    else if b = 0x2c then
      match skipBlanks rest with
      | [] => .error (.at_ .endInValue [])
      | c :: rest =>
        if c = 0x22 then .ok (some rest)
        else if c = 0x7d then .error (.at_ .trailingComma (c :: rest))
        else .error (.at_ .keyNotText (c :: rest))
    else .error (.at_ .expectedObjectEnd (b :: rest))

/-- Passes over the colon after a key. -/
def readColon (bytes : List UInt8) : Except Failure (List UInt8) :=
  match skipBlanks bytes with
  | [] => .error (.at_ .endInObject [])
  | b :: rest => if b = 0x3a then .ok rest else .error (.at_ .expectedColon (b :: rest))

/-- Passes over the end of a list. -/
def endList (bytes : List UInt8) : Except Failure (List UInt8) :=
  match skipBlanks bytes with
  | [] => .error (.at_ .endInList [])
  | b :: rest =>
    if b = 0x5d then .ok rest
    else if b = 0x2c then
      match skipBlanks rest with
      | [] => .error (.at_ .trailingCharacters [])
      | c :: rest =>
        .error (.at_ (if c = 0x5d then .trailingComma else .trailingCharacters) (c :: rest))
    else .error (.at_ .trailingCharacters (b :: rest))

/-- Passes over the end of an object. -/
def endObject (bytes : List UInt8) : Except Failure (List UInt8) :=
  match skipBlanks bytes with
  | [] => .error (.at_ .endInObject [])
  | b :: rest =>
    if b = 0x7d then .ok rest
    else .error (.at_ (if b = 0x2c then .trailingComma else .trailingCharacters) (b :: rest))

/-- What is left where the end of a list was looked for. -/
def afterList (bytes : List UInt8) : List UInt8 :=
  match skipBlanks bytes with
  | [] => []
  | b :: rest => if b = 0x5d then rest else if b = 0x2c then skipBlanks rest else b :: rest

/-- What is left where the end of an object was looked for. -/
def afterObject (bytes : List UInt8) : List UInt8 :=
  match skipBlanks bytes with
  | [] => []
  | b :: rest => if b = 0x7d then rest else b :: rest

/-- The inside of a list: `body` reads it up to its end, which is passed over. A failure without a
place gets the place after the end. -/
def insideList {α : Type} (depth : Nat) (opened bytes : List UInt8)
    (body : Nat → List UInt8 → Result α) : Result α :=
  if depth ≤ 1 then .error (.at_ .tooDeep opened)
  else match body (depth - 1) bytes with
  | .error f => .error (f.closedBy afterList)
  | .ok (a, rest) => match endList rest with
    | .error f => .error f
    | .ok rest => .ok (a, rest)

/-- The inside of an object: `body` reads it up to its end, which is passed over. A failure without a
place gets the place after the end. -/
def insideObject {α : Type} (depth : Nat) (opened bytes : List UInt8)
    (body : Nat → List UInt8 → Result α) : Result α :=
  if depth ≤ 1 then .error (.at_ .tooDeep opened)
  else match body (depth - 1) bytes with
  | .error f => .error (f.closedBy afterObject)
  | .ok (a, rest) => match endObject rest with
    | .error f => .error f
    | .ok rest => .ok (a, rest)

/-- Reads all items of a list, from one with this number on. -/
def readItems {α : Type} (item : List UInt8 → Result α) :
    Nat → Nat → List α → List UInt8 → Result (List α)
  | 0, _, _, bytes => .error (.here .tooDeep bytes)
  | fuel + 1, index, read, bytes =>
    match nextItem (index == 0) bytes with
    | .error f => .error f
    | .ok none => .ok (read.reverse, bytes)
    | .ok (some bytes) => match item bytes with
      | .error f => .error (f.inside (.index index))
      | .ok (a, rest) => readItems item fuel (index + 1) (a :: read) rest

/-- Reads all members of an object into a state; `member` reads the value of one with this key, from
the colon on. -/
def readMembers {σ : Type} (member : String → σ → List UInt8 → Result σ) :
    Nat → Bool → σ → List UInt8 → Result σ
  | 0, _, _, bytes => .error (.here .tooDeep bytes)
  | fuel + 1, first, state, bytes =>
    match nextKey first bytes with
    | .error f => .error (f.inside .unknown)
    | .ok none => .ok (state, bytes)
    | .ok (some bytes) => match readText bytes with
      | .error f => .error (f.inside .unknown)
      | .ok (key, bytes) => match member key state bytes with
        | .error f => .error f
        | .ok (state, rest) => readMembers member fuel false state rest

/-- The value of a member, from the colon on; a failure lies inside the member. -/
def memberValue {α : Type} (key : String) (value : List UInt8 → Result α) (bytes : List UInt8) :
    Result α :=
  match readColon bytes with
  | .error f => .error (f.inside (.key key))
  | .ok bytes => match value bytes with
    | .error f => .error (f.inside (.key key))
    | .ok r => .ok r

end PullGate.Json
