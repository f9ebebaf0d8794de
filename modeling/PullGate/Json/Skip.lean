import PullGate.Json.Lexical
/-!
# Passing over values

A value that nobody asks for is checked to be JSON and passed over. How deep it is does not matter: the
lists and objects around the place that is reached are kept on a stack.
-/

namespace PullGate.Json

/-- A list or an object that is not at its end. -/
inductive Frame where
  | list
  | object
  deriving DecidableEq

namespace Frame

/-- The byte that ends it. -/
def closing : Frame → UInt8
  | list => 0x5d
  | object => 0x7d

/-- The text ends inside. -/
def ended : Frame → Cause
  | list => .endInList
  | object => .endInObject

/-- Something else follows an item or a member. -/
def expectedEnd : Frame → Cause
  | list => .expectedListEnd
  | object => .expectedObjectEnd

end Frame

/-- Passes over the key of a member and the colon after it. -/
def skipKey (bytes : List UInt8) : Except Failure (List UInt8) :=
  match skipBlanks bytes with
  | [] => .error (.at_ .endInObject [])
  | b :: rest =>
    if b ≠ 0x22 then .error (.at_ .keyNotText (b :: rest))
    else match skipText rest with
    | .error f => .error f
    | .ok rest => match skipBlanks rest with
      | [] => .error (.at_ .endInObject [])
      | b :: rest => if b = 0x3a then .ok rest else .error (.at_ .expectedColon (b :: rest))

/-- Passes over what comes before the next value in a frame. -/
def skipToValue (frame : Frame) (bytes : List UInt8) : Except Failure (List UInt8) :=
  match frame with
  | .list => .ok bytes
  | .object => skipKey bytes

/-- Passes over a value without parts. -/
def skipScalar (b : UInt8) (rest : List UInt8) : Except Failure (List UInt8) :=
  if b = 0x6e then readWord ['u', 'l', 'l'] rest
  else if b = 0x74 then readWord ['r', 'u', 'e'] rest
  else if b = 0x66 then readWord ['a', 'l', 's', 'e'] rest
  else if b = 0x2d then skipNumber rest
  else if Decimal.isDigit b then skipNumber (b :: rest)
  else if b = 0x22 then skipText rest
  else .error (.at_ .expectedValue (b :: rest))

mutual

/-- Passes over a value and then over all that is left of the frames around it. -/
def skipNext : Nat → List Frame → List UInt8 → Except Failure (List UInt8)
  | 0, _, bytes => .error (.here .tooDeep bytes)
  | fuel + 1, frames, bytes =>
    match skipBlanks bytes with
    | [] => .error (.at_ .endInValue [])
    | b :: rest =>
      if b = 0x5b then skipOpened fuel .list frames rest
      else if b = 0x7b then skipOpened fuel .object frames rest
      else match skipScalar b rest with
      | .error f => .error f
      | .ok rest => skipAfter fuel frames rest

/-- Passes over the rest of a list or an object, at its beginning. -/
def skipOpened : Nat → Frame → List Frame → List UInt8 → Except Failure (List UInt8)
  | 0, _, _, bytes => .error (.here .tooDeep bytes)
  | fuel + 1, frame, frames, bytes =>
    match skipBlanks bytes with
    | [] => .error (.at_ frame.ended [])
    | b :: rest =>
      if b = frame.closing then skipAfter fuel frames rest
      else match skipToValue frame (b :: rest) with
      | .error f => .error f
      | .ok rest => skipNext fuel (frame :: frames) rest

/-- Passes over all that is left of frames, after a value. -/
def skipAfter : Nat → List Frame → List UInt8 → Except Failure (List UInt8)
  | _, [], bytes => .ok bytes
  | 0, _ :: _, bytes => .error (.here .tooDeep bytes)
  | fuel + 1, frame :: frames, bytes =>
    match skipBlanks bytes with
    | [] => .error (.at_ frame.ended [])
    | b :: rest =>
      if b = frame.closing then skipAfter fuel frames rest
      else if b = 0x2c then
        match skipToValue frame rest with
        | .error f => .error f
        | .ok rest => skipNext fuel (frame :: frames) rest
      else .error (.at_ frame.expectedEnd (b :: rest))

end

/-- Passes over a value. Each step but one in two passes over a byte, which is why twice as many steps
as there are bytes are enough. -/
def skipValue (size : Nat) (bytes : List UInt8) : Except Failure (List UInt8) :=
  skipNext (2 * size + 2) [] bytes

end PullGate.Json
