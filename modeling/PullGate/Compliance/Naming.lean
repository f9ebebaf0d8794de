import PullGate.Policy
/-!
# Descriptive names

A name is descriptive if it is on the list of allowed names, or else not on the list of refused
names and longer than one character.
-/

namespace PullGate.Compliance

/-- Which names are accepted whatever they are, and which are refused. -/
structure Naming where
  allowed : List String
  refused : List String
  deriving DecidableEq, Repr

namespace Naming

/-- The names that a policy accepts and refuses. -/
def ofPolicy (p : Policy) : Naming := ⟨p.allowedNames, p.refusedNames⟩

/-- Whether a name says what it stands for. -/
def isDescriptive (n : Naming) (name : String) : Bool :=
  n.allowed.contains name || (!n.refused.contains name && 1 < name.length)

/-- The list of allowed names comes before everything else. -/
theorem isDescriptive_of_mem {n : Naming} {name : String} (h : name ∈ n.allowed) :
    n.isDescriptive name = true := by
  simp [isDescriptive, h]

end Naming

end PullGate.Compliance
