/-!
# Decimal digits

Numbers from decimal digits, with the greatest number that is accepted.
-/

namespace PullGate.Decimal

/-- Whether a byte is a decimal digit. -/
def isDigit (b : UInt8) : Bool := 0x30 ≤ b.toNat && b.toNat ≤ 0x39

/-- The value of a digit. -/
def digitValue (b : UInt8) : Nat := b.toNat - 0x30

/-- Reads digits as long as the number is at most `limit`, going on from a number that was read. -/
def readUpTo (limit : Nat) : Nat → List UInt8 → Nat × List UInt8
  | n, [] => (n, [])
  | n, b :: rest =>
    if isDigit b && n * 10 + digitValue b ≤ limit then readUpTo limit (n * 10 + digitValue b) rest
    else (n, b :: rest)

/-- What follows digits. -/
def skipDigits (bytes : List UInt8) : List UInt8 := bytes.dropWhile isDigit

/-- The number that a text stands for: an optional plus sign and digits, at most `limit`. -/
def ofText? (limit : Nat) (text : List Char) : Option Nat :=
  let digits := match text with
    | '+' :: rest => rest
    | all => all
  if digits.isEmpty || !digits.all Char.isDigit then none
  else
    let n := digits.foldl (fun n c => n * 10 + (c.toNat - 0x30)) 0
    if n ≤ limit then some n else none

end PullGate.Decimal
