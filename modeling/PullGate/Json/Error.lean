import PullGate.Decimal.Shortest
import PullGate.Json.Value
import PullGate.Text.Quoted
/-!
# What can be wrong with JSON

The causes for which a text is not read, where they are found, and what is said about them.
-/

namespace PullGate.Json

/-! ## Causes -/

/-- What was found in place of something else. -/
inductive Found where
  | null
  | flag (b : Bool)
  | number (n : Number)
  | text (s : String)
  | list
  | object
  /-- A bare name of a variant that has content. -/
  | bareVariant

/-- How the exponents of numbers are written in messages and texts. -/
def floatLayout : Decimal.Layout := ⟨-4, 16, 2⟩

/-- A number as text. -/
def Number.render : Number → String
  | natural n => toString n.toNat
  | negative n => "-" ++ toString n
  | float f => Decimal.renderFloat floatLayout f

/-- What was found, in words. -/
def Found.described : Found → String
  | null => "null"
  | flag b => s!"boolean `{b}`"
  | number (.float f) => s!"floating point `{(Number.float f).render}`"
  | number n => s!"integer `{n.render}`"
  | text s => "string " ++ Text.quoted s
  | list => "sequence"
  | object => "map"
  | bareVariant => "unit variant"

/-- What a value is found to be. -/
def Found.ofValue : Value → Found
  | .null => null
  | .flag b => flag b
  | .number n => number n
  | .text s => text s
  | .list _ => list
  | .object _ => object

/-- Why a text is not read. -/
inductive Cause where
  | endInList
  | endInObject
  | endInText
  | endInValue
  | expectedColon
  | expectedListEnd
  | expectedObjectEnd
  | expectedIdent
  | expectedValue
  | invalidEscape
  | invalidNumber
  | numberOutOfRange
  | invalidCodePoint
  | controlCharacter
  | keyNotText
  | loneSurrogate
  | trailingComma
  | trailingCharacters
  | escapeEnd
  | tooDeep
  | wrongType (found : Found) (expected : String)
  | wrongValue (found : Found) (expected : String)
  | wrongLength (length : Nat) (expected : String)
  | unknownVariant (name : String) (known : List String)
  | missingField (name : String)
  | duplicateField (name : String)

/-- The kinds of causes. -/
inductive Category where
  /-- The text is no JSON. -/
  | syntactic
  /-- The text is JSON of another shape. -/
  | data
  /-- The text breaks off. -/
  | ended
  deriving DecidableEq, Repr

/-- The name of the kind. -/
def Category.name : Category → String
  | syntactic => "Syntax"
  | data => "Data"
  | ended => "Eof"

/-- What may be known in place of a variant. -/
def describedKnown : List String → String
  | [] => "there are no variants"
  | [a] => s!"expected `{a}`"
  | [a, b] => s!"expected `{a}` or `{b}`"
  | many => "expected one of " ++ ", ".intercalate (many.map fun k => s!"`{k}`")

namespace Cause

/-- The kind of the cause. -/
def category : Cause → Category
  | endInList | endInObject | endInText | endInValue => .ended
  | wrongType .. | wrongValue .. | wrongLength .. | unknownVariant .. | missingField _
  | duplicateField _ => .data
  | _ => .syntactic

/-- The cause in words. -/
def message : Cause → String
  | endInList => "EOF while parsing a list"
  | endInObject => "EOF while parsing an object"
  | endInText => "EOF while parsing a string"
  | endInValue => "EOF while parsing a value"
  | expectedColon => "expected `:`"
  | expectedListEnd => "expected `,` or `]`"
  | expectedObjectEnd => "expected `,` or `\x7d`"
  | expectedIdent => "expected ident"
  | expectedValue => "expected value"
  | invalidEscape => "invalid escape"
  | invalidNumber => "invalid number"
  | numberOutOfRange => "number out of range"
  | invalidCodePoint => "invalid unicode code point"
  | controlCharacter => "control character (\\u0000-\\u001F) found while parsing a string"
  | keyNotText => "key must be a string"
  | loneSurrogate => "lone leading surrogate in hex escape"
  | trailingComma => "trailing comma"
  | trailingCharacters => "trailing characters"
  | escapeEnd => "unexpected end of hex escape"
  | tooDeep => "recursion limit exceeded"
  | wrongType found expected => s!"invalid type: {found.described}, expected {expected}"
  | wrongValue found expected => s!"invalid value: {found.described}, expected {expected}"
  | wrongLength n expected => s!"invalid length {n}, expected {expected}"
  | unknownVariant name known => s!"unknown variant `{name}`, " ++ describedKnown known
  | missingField name => s!"missing field `{name}`"
  | duplicateField name => s!"duplicate field `{name}`"

end Cause

/-! ## Failures while reading -/

/-- A step from a value to one inside it. -/
inductive Segment where
  | index (n : Nat)
  | key (name : String)
  /-- A key that was not read to its end. -/
  | unknown
  deriving DecidableEq, Repr

/-- Steps as text. -/
def renderPath : List Segment → String
  | [] => "."
  | segments => go "" segments
where
  /-- Steps, with a mark between them and what is in front. -/
  go (mark : String) : List Segment → String
    | [] => ""
    | .index n :: rest => "[" ++ toString n ++ "]" ++ go "." rest
    | .key name :: rest => mark ++ name ++ go "." rest
    | .unknown :: rest => mark ++ "?" ++ go "." rest

/-- Where a cause is found. -/
inductive Place where
  /-- Where this many bytes are left. -/
  | before (left : Nat)
  /-- Wherever the value around it ends; these bytes are left. -/
  | open (rest : List UInt8)

/-- Why reading stopped. -/
structure Failure where
  cause : Cause
  place : Place
  /-- The steps from the value that is read to where it stopped. -/
  path : List Segment

/-- What is read from the front of bytes, with the bytes that follow. -/
abbrev Result (α : Type) := Except Failure (α × List UInt8)

namespace Failure

/-- A failure in front of bytes. -/
def here (cause : Cause) (rest : List UInt8) : Failure := ⟨cause, .before rest.length, []⟩

/-- A failure at the byte that comes next. -/
def at_ (cause : Cause) (rest : List UInt8) : Failure := ⟨cause, .before (rest.length - 1), []⟩

/-- A failure whose place is settled by the value around it. -/
def pending (cause : Cause) (rest : List UInt8) : Failure := ⟨cause, .open rest, []⟩

/-- The failure seen from outside. -/
def inside (f : Failure) (s : Segment) : Failure := { f with path := s :: f.path }

/-- The failure with its place settled; `close` says what is left after the value around it ends. -/
def closedBy (f : Failure) (close : List UInt8 → List UInt8) : Failure :=
  match f.place with
  | .before _ => f
  | .open rest => { f with place := .before (close rest).length }

end Failure

/-! ## Errors -/

/-- A place in bytes: lines count from 1, and the column is how many bytes of the line were read. -/
structure Position where
  line : Nat
  column : Nat
  deriving DecidableEq, Repr

/-- The place after bytes. -/
def Position.after (read : List UInt8) : Position :=
  read.foldl (fun p b => if b = 0x0a then ⟨p.line + 1, 0⟩ else ⟨p.line, p.column + 1⟩) ⟨1, 0⟩

/-- Why bytes were not read. -/
structure Error where
  cause : Cause
  position : Option Position
  path : List Segment

namespace Error

/-- The error for a failure on these bytes. -/
def ofFailure (bytes : List UInt8) (f : Failure) : Error where
  cause := f.cause
  path := f.path
  position := match f.place with
    | .before left => some (.after (bytes.take (bytes.length - left)))
    | .open _ => none

/-- The error in words. -/
def message (e : Error) : String :=
  match e.position with
  | some p => s!"{e.cause.message} at line {p.line} column {p.column}"
  | none => e.cause.message

end Error

end PullGate.Json
