import PullGate.Compliance.Naming
import PullGate.Compliance.Violation
import PullGate.Python.Parse
import PullGate.Text.Search
/-!
# Analysis of a source

What each node of a tree breaks, by its kind:

* a function: its name, its parameters' names and types, the type of its result, and the example in
  its description;
* an assignment, a loop, a clause of a comprehension, a named expression, an alias: the names that
  it binds;
* a lambda: its parameters' names.

A source's violations are those of all its nodes, listed by place and rule.

Only trees of sources are looked at, so nothing is said here for nodes to which the grammar never leads: an
alias without parts (`boundNames`) and a clause with `as` but no alias (`nodeViolations`).
-/

namespace PullGate.Compliance

open PullGate.Python (Kind Node Role)
open PullGate.Text (Location)

/-! ## Names that a target binds -/

mutual

/-- The nodes of the names that a target binds. What stands before a dot or a bracket binds
nothing.

What stands behind the `as` of a pattern binds what its parts do, like any target of several parts. By
itself it is never a name: the grammar has an expression there, shown as a node of its own, and every
expression is or holds a node, so that none is without parts. -/
def boundNames : Node → List Node
  | .mk k l t cs =>
    match k with
    | .identifier => [.mk k l t cs]
    | .patternList | .tuplePattern | .listPattern | .listSplatPattern | .tuple | .list
    | .parenthesizedExpression | .asPatternTarget => boundNamesOfParts cs
    | _ => []

/-- The nodes of the names that the parts of a target bind. -/
def boundNamesOfParts : List (Option Role × Node) → List Node
  | [] => []
  | (_, n) :: rest => boundNames n ++ boundNamesOfParts rest

end

/-! ## Parameters -/

/-- The name behind the stars of a parameter, or the parameter itself if it is a name. -/
def starredName (n : Node) : Option Node :=
  if n.kind = .identifier then some n else n.children.find? fun c => c.kind = .identifier

/-- What names a parameter, and whether the parameter has a type. Separators and comments name
nothing. -/
def parameterName (p : Node) : Option (Node × Bool) :=
  match p.kind with
  | .identifier => some (p, false)
  | .defaultParameter => (p.part? .name).map fun n => (n, false)
  | .typedDefaultParameter => (p.part? .name).map fun n => (n, true)
  | .typedParameter => (p.children.head?.bind starredName).map fun n => (n, true)
  | .listSplatPattern | .dictionarySplatPattern => (starredName p).map fun n => (n, false)
  | _ => none

/-- Names of parameters that are never asked about. -/
def implicitParameters : List String := ["self", "cls"]

variable (naming : Naming)

/-- What a parameter breaks; `typed` says that its owner's parameters should have types. -/
def parameterViolations (owner : String) (typed : Bool) (p : Node) : List Violation :=
  match parameterName p with
  | none => []
  | some (n, hasType) =>
    let name := n.text
    if implicitParameters.contains name then []
    else
      (if typed && !hasType then
        [⟨.missingAnnotations, n.start, s!"argument `{name}` of {owner} has no type annotation"⟩]
      else []) ++
      (if naming.isDescriptive name then []
      else [⟨.nonDescriptiveName, n.start, s!"argument `{name}` of {owner} is not descriptive"⟩])

/-- What the parameters of an owner break. -/
def parametersViolations (owner : String) (typed : Bool) (parameters : Option Node) :
    List Violation :=
  match parameters with
  | none => []
  | some ps => ps.children.flatMap (parameterViolations naming owner typed)

/-! ## Functions -/

/-- What a description with an example shows. -/
def examplePrompt : List Char := ['>', '>', '>']

/-- Whether a text shows an example. -/
def showsExample (text : String) : Bool := Text.occursIn examplePrompt text.toList

/-- Whether a function's first statement is a string that shows an example. -/
def hasExample (function : Node) : Bool :=
  match (function.part? .body).bind fun b => b.children.find? fun c => c.kind ≠ .comment with
  | none => false
  | some first =>
    first.kind = .expressionStatement &&
      match first.children.head? with
      | some e => e.kind = .string && showsExample e.text
      | none => false

/-- Whether a name has two underscores on both sides of something. -/
def isSpecial (name : String) : Bool :=
  4 < name.utf8ByteSize && ['_', '_'].isPrefixOf name.toList && ['_', '_'].isSuffixOf name.toList

/-- What a function breaks. -/
def functionViolations (function : Node) : List Violation :=
  match function.part? .name with
  | none => []
  | some n =>
    let name := n.text
    (if naming.isDescriptive name then []
    else [⟨.nonDescriptiveName, n.start, s!"function name `{name}` is not descriptive"⟩]) ++
    parametersViolations naming s!"function `{name}`" true (function.part? .parameters) ++
    (if name ≠ "__init__" && (function.part? .returnType).isNone then
      [⟨.missingAnnotations, n.start, s!"return annotation missing for function `{name}`"⟩]
    else []) ++
    (if !isSpecial name && !hasExample function then
      [⟨.missingExample, n.start, s!"docstring example missing for function `{name}`"⟩]
    else [])

/-! ## All nodes -/

/-- What a target breaks. -/
def targetViolations (target : Option Node) : List Violation :=
  match target with
  | none => []
  | some t => (boundNames t).filterMap fun n =>
    if naming.isDescriptive n.text then none
    else some ⟨.nonDescriptiveName, n.start, s!"variable name `{n.text}` is not descriptive"⟩

/-- What a node breaks by itself.

The name behind an `except` clause's own `as` or comma is the part with the role of an alias. It is not
looked for otherwise, as the child after `as`: in the grammar's rule for the clause (`exceptClause`) only an
expression with this role comes after it. Mostly `except E as name` is read as a pattern, which has such a
part too. -/
def nodeViolations (n : Node) : List Violation :=
  match n.kind with
  | .functionDefinition => functionViolations naming n
  | .assignment | .augmentedAssignment | .forStatement | .forInClause =>
    targetViolations naming (n.part? .left)
  | .namedExpression => targetViolations naming (n.part? .name)
  | .asPattern | .exceptClause => targetViolations naming (n.part? .alias)
  | .lambda => parametersViolations naming "lambda" false (n.part? .parameters)
  | _ => []

/-- The violations of a tree, as they are listed. -/
def treeViolations (tree : Node) : List Violation :=
  Violation.sorted ((Node.walk [tree]).flatMap (nodeViolations naming))

/-- Why a source has no analysis. All reasons are one here, since whoever asks for an analysis goes on in the
same way after each: that there is no parser for the language or that it gives up cannot happen with a parser
that is a function, and where the first error stands is only logged. -/
inductive AnalysisError where
  /-- The source is no program. -/
  | notParsed
  deriving DecidableEq, Repr

/-- Finds the violations of a source. -/
abbrev Analyzer := String → Except AnalysisError (List Violation)

/-- The analysis of a Python source. -/
def analyze (source : String) : Except AnalysisError (List Violation) :=
  match Python.parse source with
  | none => .error .notParsed
  | some tree => .ok (treeViolations naming tree)

end PullGate.Compliance
