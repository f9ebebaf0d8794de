import PullGate.Label
import PullGate.Text.Location
/-!
# Rules and violations

The rules that submitted sources are held to, the places where they are broken, and the order in
which a source's violations are listed.
-/

namespace PullGate.Compliance

open PullGate.Text (Location)

/-- A rule for submitted sources. -/
inductive Rule where
  /-- Functions without examples, and no test file beside them. -/
  | missingTest
  /-- A parameter or a result without a type. -/
  | missingAnnotations
  /-- A function whose description shows no example. -/
  | missingExample
  /-- A name of one letter, or one that says nothing. -/
  | nonDescriptiveName
  deriving DecidableEq, Repr, Inhabited

namespace Rule

/-- All rules, in their order. -/
def all : List Rule := [missingTest, missingAnnotations, missingExample, nonDescriptiveName]

/-- The name of the rule. -/
def name : Rule → String
  | missingTest => "missing_test"
  | missingAnnotations => "missing_annotations"
  | missingExample => "missing_doctest_example"
  | nonDescriptiveName => "non_descriptive_name"

/-- The label that asks for what the rule finds missing. -/
def label : Rule → Label
  | missingTest | missingExample => .requireTests
  | missingAnnotations => .requireAnnotations
  | nonDescriptiveName => .requireNames

/-- The place of the rule in the order. -/
def rank (r : Rule) : Nat := r.ctorIdx

end Rule

/-- A place where a rule is broken. -/
structure Violation where
  rule : Rule
  location : Location
  message : String
  deriving DecidableEq, Repr, Inhabited

namespace Violation

/-- Whether a violation is listed no later than another: by line, by column, then by rule. -/
def le (a b : Violation) : Bool :=
  if a.location = b.location then a.rule.rank ≤ b.rule.rank else a.location.le b.location

/-- The violations in the order they are listed in; equals keep the order they were found in. -/
def sorted (vs : List Violation) : List Violation := vs.mergeSort le

end Violation

end PullGate.Compliance
