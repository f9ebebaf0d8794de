/-!
# Classes of characters as ranges

Properties of characters that a standard lists are kept as lists of ranges of code points.
-/

namespace PullGate.Text

/-- Ranges of code points, each with its first and its last. -/
abbrev Ranges := List (Nat × Nat)

/-- Whether a character lies in one of the ranges. -/
def Ranges.has (r : Ranges) (c : Char) : Bool :=
  r.any fun (first, last) => first ≤ c.toNat && c.toNat ≤ last

/-- A character lies in ranges exactly if it lies between the ends of one of them. -/
theorem Ranges.has_iff (r : Ranges) (c : Char) :
    r.has c = true ↔ ∃ p ∈ r, p.1 ≤ c.toNat ∧ c.toNat ≤ p.2 := by
  simp [Ranges.has, List.any_eq_true]

end PullGate.Text
