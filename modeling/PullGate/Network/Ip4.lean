import PullGate.Network.Number
/-!
# Addresses of four parts

Four numbers of eight bits with dots between.
-/

namespace PullGate.Network

/-- An address of four parts. -/
structure Ip4 where
  a : UInt8
  b : UInt8
  c : UInt8
  d : UInt8
  deriving DecidableEq, Repr

namespace Ip4

/-- Reads a part that follows a dot. -/
def part? (text : List Char) : Option (Nat × List Char) :=
  (afterChar? '.' text).bind NumberRule.octet.read?

/-- Reads an address from the front of a text. -/
def read? (text : List Char) : Option (Ip4 × List Char) := do
  let (a, text) ← NumberRule.octet.read? text
  let (b, text) ← part? text
  let (c, text) ← part? text
  let (d, text) ← part? text
  return (⟨.ofNat a, .ofNat b, .ofNat c, .ofNat d⟩, text)

/-- The address as text. -/
def render (ip : Ip4) : String :=
  ".".intercalate ([ip.a, ip.b, ip.c, ip.d].map fun n => toString n.toNat)

end Ip4

end PullGate.Network
