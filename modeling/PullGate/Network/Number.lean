import PullGate.Text.Hex
/-!
# Numbers in addresses

Each kind of number in a network address has a base, a greatest value, perhaps a greatest number of
digits, and may or may not begin with zeros.
-/

namespace PullGate.Network

/-- How a kind of number is written. -/
structure NumberRule where
  base : Nat
  limit : Nat
  /-- How many digits there may be. -/
  digits : Option Nat
  /-- Whether there may be zeros in front. -/
  leadingZeros : Bool

namespace NumberRule

/-- A part of an address of four parts. -/
def octet : NumberRule := ⟨10, 255, none, false⟩

/-- A group of an address of eight groups. -/
def group : NumberRule := ⟨16, 65535, some 4, true⟩

/-- A port. -/
def port : NumberRule := ⟨10, 65535, none, true⟩

/-- A scope. -/
def scope : NumberRule := ⟨10, 4294967295, none, true⟩

/-- The value of a digit. -/
def digit? (r : NumberRule) (c : Char) : Option Nat := (Text.Hex.value? c).filter (· < r.base)

/-- The value of digits. -/
def value (r : NumberRule) (digits : List Char) : Nat :=
  digits.foldl (fun n c => n * r.base + (r.digit? c).getD 0) 0

/-- Reads as many digits as there are. -/
def read? (r : NumberRule) (text : List Char) : Option (Nat × List Char) :=
  let digits := text.takeWhile fun c => (r.digit? c).isSome
  let fits := match r.digits with
    | some n => digits.length ≤ n
    | none => true
  let zeros := r.leadingZeros || digits.length ≤ 1 || digits.head? ≠ some '0'
  if !digits.isEmpty && fits && zeros && r.value digits ≤ r.limit then
    some (r.value digits, text.drop digits.length)
  else none

end NumberRule

/-- Passes over one character. -/
def afterChar? (c : Char) : List Char → Option (List Char)
  | [] => none
  | d :: rest => if d = c then some rest else none

end PullGate.Network
