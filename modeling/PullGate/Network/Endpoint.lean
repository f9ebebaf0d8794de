import PullGate.Network.Ip6
/-!
# Endpoints

An address with a port, as where to listen is written.
-/

namespace PullGate.Network

/-- An address with a port. -/
inductive Endpoint where
  | four (ip : Ip4) (port : UInt16)
  | six (ip : Ip6) (scope : UInt32) (port : UInt16)
  deriving DecidableEq, Repr

namespace Endpoint

/-- Reads a port that follows a colon. -/
def port? (text : List Char) : Option (UInt16 × List Char) := do
  let (port, text) ← (afterChar? ':' text).bind NumberRule.port.read?
  return (.ofNat port, text)

/-- Reads a scope that follows a percent sign, if there is one. -/
def scope (text : List Char) : UInt32 × List Char :=
  match (afterChar? '%' text).bind NumberRule.scope.read? with
  | some (scope, rest) => (.ofNat scope, rest)
  | none => (0, text)

/-- Reads an address of four parts and a port. -/
def four? (text : List Char) : Option (Endpoint × List Char) := do
  let (ip, text) ← Ip4.read? text
  let (port, text) ← port? text
  return (four ip port, text)

/-- Reads an address of eight groups in brackets and a port. -/
def six? (text : List Char) : Option (Endpoint × List Char) := do
  let text ← afterChar? '[' text
  let (ip, text) ← Ip6.read? text
  let (scope, text) := scope text
  let text ← afterChar? ']' text
  let (port, text) ← port? text
  return (six ip scope port, text)

/-- The endpoint that a text stands for. -/
def ofText? (text : String) : Option Endpoint :=
  match (four? text.toList).or (six? text.toList) with
  | some (endpoint, []) => some endpoint
  | _ => none

/-- The endpoint as text. -/
def render : Endpoint → String
  | four ip port => s!"{ip.render}:{port.toNat}"
  | six ip scope port =>
    let scope := if scope = 0 then "" else s!"%{scope.toNat}"
    s!"[{ip.render}{scope}]:{port.toNat}"

end Endpoint

end PullGate.Network
