import PullGate.Text.Hex
import PullGate.Text.Utf8
/-!
# Texts in addresses

How a text is put into an address: most bytes become a percent sign and two digits. A part of a path
and a value in a query differ in what they keep.
-/

namespace PullGate.Text.Percent

/-- A byte by its number. -/
def encodeByte (b : UInt8) : List Char :=
  ['%', Hex.capitalDigit (b.toNat / 16), Hex.capitalDigit (b.toNat % 16)]

/-- The bytes of a text, those that are kept as characters and the others by `other`. -/
def encodeWith (kept : Char → Bool) (other : UInt8 → List Char) (s : String) : String :=
  String.ofList ((Utf8.ofString s).flatMap fun b =>
    if b.toNat < 0x80 && kept (Char.ofNat b.toNat) then [Char.ofNat b.toNat] else other b)

/-- A text as a part of a path. -/
def pathPart (s : String) : String :=
  encodeWith (fun c => c.isAlphanum || ['-', '_', '.', '~'].contains c) encodeByte s

/-- A text as a value in a query, with a plus sign for a space. -/
def queryValue (s : String) : String :=
  encodeWith (fun c => c.isAlphanum || ['*', '-', '.', '_'].contains c)
    (fun b => if b = 0x20 then ['+'] else encodeByte b) s

end PullGate.Text.Percent
