import PullGate.Json.Content
import PullGate.Json.Shape
import PullGate.Json.Skip
/-!
# Reading texts

Values read by their shapes from the front of a text, as it comes: the first thing that is wrong ends
the reading, and members that nobody asks for are passed over.
-/

namespace PullGate.Json

/-- What is wrong with a value that should have been something else. A list or an object is not looked
into. -/
def refuse (expected : String) (bytes : List UInt8) : Failure :=
  match bytes with
  | [] => .at_ .expectedValue []
  | b :: rest =>
    if b = 0x5b then .here (.wrongType .list expected) bytes
    else if b = 0x7b then .here (.wrongType .object expected) bytes
    else match readScalar b rest with
    | .error f => f
    | .ok (v, rest) => .here (.wrongType (.ofValue v) expected) rest

/-- Reads a text in a value's place. -/
def readTextValue (expected : String) (bytes : List UInt8) : Result String :=
  match skipBlanks bytes with
  | [] => .error (.at_ .endInValue [])
  | b :: rest => if b = 0x22 then readText rest else .error (refuse expected (b :: rest))

/-- Reads true or false. -/
def readFlag (bytes : List UInt8) : Result Bool :=
  match skipBlanks bytes with
  | [] => .error (.at_ .endInValue [])
  | b :: rest =>
    if b = 0x74 || b = 0x66 then
      match readScalar b rest with
      | .ok (.flag v, rest) => .ok (v, rest)
      | .ok (_, rest) => .error (.here .expectedValue rest)
      | .error f => .error f
    else .error (refuse "a boolean" (b :: rest))

/-- Reads a number in a value's place. -/
def readNumberValue (expected : String) (bytes : List UInt8) : Result Number :=
  match skipBlanks bytes with
  | [] => .error (.at_ .endInValue [])
  | b :: rest =>
    if b = 0x2d then readNumber false rest
    else if Decimal.isDigit b then readNumber true (b :: rest)
    else .error (refuse expected (b :: rest))

/-- Reads a number without a sign. -/
def readNatural (noun : String) (bytes : List UInt8) : Result UInt64 :=
  match readNumberValue noun bytes with
  | .error f => .error f
  | .ok (.natural n, rest) => .ok (n, rest)
  | .ok (.negative n, rest) => .error (.here (.wrongValue (.number (.negative n)) noun) rest)
  | .ok (.float f, rest) => .error (.here (.wrongType (.number (.float f)) noun) rest)

/-- Reads a number with a sign. -/
def readInteger (bytes : List UInt8) : Result Int :=
  match readNumberValue "i64" bytes with
  | .error f => .error f
  | .ok (.natural n, rest) =>
    if n.toNat < Nat.pow 2 63 then .ok (n.toNat, rest)
    else .error (.here (.wrongValue (.number (.natural n)) "i64") rest)
  | .ok (.negative n, rest) => .ok (-n, rest)
  | .ok (.float f, rest) => .error (.here (.wrongType (.number (.float f)) "i64") rest)

/-- Reads null where a value of any kind may stand. -/
def readUnit (noun : String) (depth : Nat) (bytes : List UInt8) : Result Unit :=
  match skipBlanks bytes with
  | [] => .error (.at_ .endInValue [])
  | b :: rest =>
    if b = 0x5b then
      insideList depth (b :: rest) rest fun _ rest => .error (.pending (.wrongType .list noun) rest)
    else if b = 0x7b then
      insideObject depth (b :: rest) rest fun _ rest => .error (.pending (.wrongType .object noun) rest)
    else match readScalar b rest with
    | .error f => .error f
    | .ok (.null, rest) => .ok ((), rest)
    | .ok (v, rest) => .error (.here (.wrongType (.ofValue v) noun) rest)

/-- Reads null and nothing else. -/
def readNull (bytes : List UInt8) : Except Failure (List UInt8) :=
  match skipBlanks bytes with
  | [] => .error (.at_ .endInValue [])
  | b :: rest =>
    if b = 0x6e then readWord ['u', 'l', 'l'] rest else .error (refuse "unit" (b :: rest))

/-- Reads the name of a variant. -/
def readTag {α : Type} (known : List String) (find : String → Option α) (bytes : List UInt8) :
    Result (String × α) :=
  match readTextValue "variant identifier" bytes with
  | .error f => .error f
  | .ok (text, rest) => match find text with
    | some a => .ok ((text, a), rest)
    | none => .error (.here (.unknownVariant text known) rest)

/-- Passes over the end of an object that has only one member. -/
def endVariant (bytes : List UInt8) : Except Failure (List UInt8) :=
  match skipBlanks bytes with
  | [] => .error (.here .endInObject [])
  | b :: rest => if b = 0x7d then .ok rest else .error (.here .expectedValue (b :: rest))

/-- Reads the name of a variant that has no content, alone or as the key of a null. -/
def readName {α : Type} (known : List String) (find : String → Option α) (depth : Nat)
    (bytes : List UInt8) : Result α :=
  match skipBlanks bytes with
  | [] => .error (.at_ .endInValue [])
  | b :: rest =>
    if b = 0x22 then
      match readTag known find (b :: rest) with
      | .error f => .error f
      | .ok ((_, a), rest) => .ok (a, rest)
    else if b = 0x7b then
      if depth ≤ 1 then .error (.at_ .tooDeep (b :: rest))
      else match readTag known find rest with
      | .error f => .error f
      | .ok ((tag, a), rest) => match readColon rest with
        | .error f => .error f
        | .ok rest => match readNull rest with
          | .error f => .error (f.inside (.key tag))
          | .ok rest => match endVariant rest with
            | .error f => .error f
            | .ok rest => .ok (a, rest)
    else .error (.at_ .expectedValue (b :: rest))

/-- Reads null as nothing, and anything else as a value. -/
def readOptional {α : Type} (value : List UInt8 → Result α) (bytes : List UInt8) :
    Result (Option α) :=
  let some? : Result (Option α) := match value bytes with
    | .error f => .error f
    | .ok (a, rest) => .ok (some a, rest)
  match skipBlanks bytes with
  | [] => some?
  | b :: rest =>
    if b = 0x6e then
      match readWord ['u', 'l', 'l'] rest with
      | .error f => .error f
      | .ok rest => .ok (none, rest)
    else some?

/-- Passes over the value of a member. -/
def skipMember (fuel : Nat) (key : String) (bytes : List UInt8) : Except Failure (List UInt8) :=
  match readColon bytes with
  | .error f => .error (f.inside (.key key))
  | .ok bytes => match skipValue fuel bytes with
    | .error f => .error (f.inside (.key key))
    | .ok rest => .ok rest

mutual

/-- Reads a value of a shape; `fuel` bounds the number of items and members, `depth` how deep they
lie. -/
def Shape.read (fuel : Nat) : {α : Type} → Shape α → Nat → List UInt8 → Result α
  | _, .text, _, bytes => readTextValue "a string" bytes
  | _, .flag, _, bytes => readFlag bytes
  | _, .natural noun, _, bytes => readNatural noun bytes
  | _, .integer, _, bytes => readInteger bytes
  | _, .unit noun, depth, bytes => readUnit noun depth bytes
  | _, .any, depth, bytes => readValue fuel depth bytes
  | _, .optional s, depth, bytes => readOptional (fun bytes => s.read fuel depth bytes) bytes
  | _, .list s, depth, bytes =>
    match skipBlanks bytes with
    | [] => .error (.at_ .endInValue [])
    | b :: rest =>
      if b = 0x5b then
        insideList depth (b :: rest) rest fun depth rest =>
          readItems (fun bytes => s.read fuel depth bytes) fuel 0 [] rest
      else .error (refuse "a sequence" (b :: rest))
  | _, .enumeration values name, depth, bytes =>
    readName (values.map name) (fun text => values.find? fun a => name a = text) depth bytes
  | _, .record noun fields, depth, bytes =>
    match skipBlanks bytes with
    | [] => .error (.at_ .endInValue [])
    | b :: rest =>
      if b = 0x5b then
        insideList depth (b :: rest) rest fun depth rest =>
          fields.readList fuel depth (fields.expected noun) 0 rest
      else if b = 0x7b then
        insideObject depth (b :: rest) rest fun depth rest =>
          match readMembers (fun key slots bytes => fields.readMember fuel depth key slots bytes)
            fuel true fields.empty rest with
          | .error f => .error f
          | .ok (slots, rest) => match fields.finish slots with
            | .error name => .error (.pending (.missingField name) rest)
            | .ok a => .ok (a, rest)
      else .error (refuse ("struct " ++ noun) (b :: rest))
  | _, .via make _ s, depth, bytes =>
    match s.read fuel depth bytes with
    | .error f => .error f
    | .ok (b, rest) => .ok (make b, rest)

/-- Reads the value of one member, from the colon on, and puts it among those that were read. -/
def Fields.readMember (fuel : Nat) :
    {α : Type} → (f : Fields α) → Nat → String → f.Slots → List UInt8 → Result f.Slots
  | _, .nil, _, key, slots, bytes =>
    match skipMember fuel key bytes with
    | .error f => .error f
    | .ok rest => .ok (slots, rest)
  | _, .cons name s _ rest, depth, key, slots, bytes =>
    if key = name then
      if slots.1.isSome then .error (.pending (.duplicateField name) bytes)
      else match memberValue key (fun bytes => s.read fuel depth bytes) bytes with
        | .error f => .error f
        | .ok (a, bytes) => .ok ((some a, slots.2), bytes)
    else match rest.readMember fuel depth key slots.2 bytes with
      | .error f => .error f
      | .ok (more, bytes) => .ok ((slots.1, more), bytes)

/-- Reads the values of the members from a list, which may lack those at its end that may be left
out. -/
def Fields.readList (fuel : Nat) :
    {α : Type} → Fields α → Nat → String → Nat → List UInt8 → Result α
  | _, .nil, _, _, _, bytes => .ok ((), bytes)
  | _, .cons _ s absent rest, depth, expected, index, bytes =>
    match nextItem (index == 0) bytes with
    | .error f => .error f
    | .ok none => match absent with
      | none => .error (.pending (.wrongLength index expected) bytes)
      | some a => match rest.readList fuel depth expected (index + 1) bytes with
        | .error f => .error f
        | .ok (b, bytes) => .ok ((a, b), bytes)
    | .ok (some bytes) => match s.read fuel depth bytes with
      | .error f => .error (f.inside (.index index))
      | .ok (a, bytes) => match rest.readList fuel depth expected (index + 1) bytes with
        | .error f => .error f
        | .ok (b, bytes) => .ok ((a, b), bytes)

end

/-- Nothing but blanks follows. -/
def readEnd (bytes : List UInt8) : Except Failure Unit :=
  match skipBlanks bytes with
  | [] => .ok ()
  | b :: rest => .error (.at_ .trailingCharacters (b :: rest))

/-- A whole text, read by a function for its front. -/
def wholly {α : Type} (front : Nat → List UInt8 → Result α) (bytes : List UInt8) : Except Error α :=
  match front bytes.length bytes with
  | .error f => .error (.ofFailure bytes f)
  | .ok (a, rest) => match readEnd rest with
    | .error f => .error (.ofFailure bytes f)
    | .ok () => .ok a

/-- The element that a text stands for. -/
def Shape.ofBytes {α : Type} (s : Shape α) (bytes : List UInt8) : Except Error α :=
  wholly (fun fuel => s.read fuel depthLimit) bytes

/-- The element that the front of a text stands for. -/
def Shape.ofFront {α : Type} (s : Shape α) (bytes : List UInt8) : Except Error α :=
  match s.read bytes.length depthLimit bytes with
  | .error f => .error (.ofFailure bytes f)
  | .ok (a, _) => .ok a

end PullGate.Json
