import PullGate.Compliance.Analysis
/-!
# Reports

What the analysis of a pull request's files found in all: the violations that count, and the labels
they ask for. A missing example counts only if no test file is among the changes.
-/

namespace PullGate.Compliance

/-- A file and what was found in it. -/
structure FileReport where
  path : String
  violations : List Violation
  deriving DecidableEq, Repr

/-- What was found in the files of a pull request. -/
structure Report where
  /-- Whether a test file is among the changes. -/
  hasTestFile : Bool
  /-- The files that were analysed. -/
  files : List FileReport
  /-- The files that could not be analysed. -/
  skipped : List String
  deriving DecidableEq, Repr

namespace Report

/-- The report before any file. -/
def empty (hasTestFile : Bool) : Report := ⟨hasTestFile, [], []⟩

/-- The report with one file more. -/
def record (r : Report) (path : String) : Except AnalysisError (List Violation) → Report
  | .ok violations => { r with files := r.files ++ [⟨path, violations⟩] }
  | .error _ => { r with skipped := r.skipped ++ [path] }

/-- All violations with the paths of their files. -/
def all (r : Report) : List (String × Violation) :=
  r.files.flatMap fun f => f.violations.map fun v => (f.path, v)

/-- Whether a violation counts. -/
def counts (r : Report) (v : Violation) : Bool := v.rule ≠ .missingExample || !r.hasTestFile

/-- The violations that count. -/
def findings (r : Report) : List (String × Violation) := r.all.filter fun (_, v) => r.counts v

/-- The labels that the violations ask for. -/
def requirements (r : Report) : LabelSet := .ofList (r.findings.map fun (_, v) => v.rule.label)

/-- The violations behind some labels. -/
def findingsFor (r : Report) (labels : LabelSet) : List (String × Violation) :=
  r.findings.filter fun (_, v) => labels.has v.rule.label

/-- That there are no tests: no test file, and a function without an example. It is reported at the
first such function. -/
def missingTest (r : Report) : Option Violation :=
  if r.hasTestFile then none
  else (r.all.find? fun (_, v) => v.rule = .missingExample).map fun (path, v) =>
    { rule := .missingTest
      location := v.location
      message := s!"no companion test file, and `{path}` has functions without doctest examples" }

end Report

end PullGate.Compliance
