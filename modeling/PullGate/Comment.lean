import PullGate.Compliance.Report
import PullGate.Identity
/-!
# Comments

The texts that are posted on pull requests.
-/

namespace PullGate.Comment

open PullGate.Compliance (Report Rule Violation)

/-- What every comment begins with. -/
def greeting (login : String) : String :=
  s!"Hello @{login}, thank you for your contribution!\n\n"

/-- The description is empty. -/
def emptyBody (login : String) : String :=
  greeting login ++
    "This pull request has an empty description, so it is being closed. " ++
    "Please fill in the pull request template, tick the checklist, and open a new pull request."

/-- The description does not show the text of a ticked checklist. -/
def checklistNotTicked (login marker : String) : String :=
  greeting login ++
    s!"The checklist in the description is not ticked (`{marker}` was not found), so this " ++
    "pull request is being closed. Please read the contributing guidelines, tick the " ++
    "checklist, and open a new pull request."

/-- The author has too many other open pull requests. -/
def tooManyOpenPrs (login : String) (numbers : List PrNumber) (limit : UInt64) : String :=
  let listed := ", ".intercalate (numbers.map (·.render))
  greeting login ++
    s!"You already have {numbers.length} open pull request(s): {listed}. Contributors may have at " ++
    s!"most {limit.toNat} open pull request(s) at a time, so this one is being closed. Please get " ++
    "your open pull requests merged or closed before opening a new one."

/-- Some files have no extension. -/
def extensionlessFiles (login : String) (files : List String) : String :=
  greeting login ++
    "Every file must have an extension. These files have none:\n" ++
    String.join (files.map fun f => s!"- `{f}`\n") ++
    "\nThis pull request is being closed. Please fix the file names and open a new pull request."

/-! ## Summary of violations -/

/-- The part about missing tests, if their label is among those that are new. -/
def missingTestSection (report : Report) (added : LabelSet) : String :=
  match report.missingTest with
  | some v =>
    if added.has v.rule.label then
      s!"\n**Missing tests**\n- {v.message}. Add a `test_*.py` or `*_test.py` file.\n"
    else ""
  | none => ""

/-- The line for a violation. -/
def entry (path : String) (v : Violation) : String :=
  s!"- `{path}:{v.location.line}`: {v.message}"

/-- The parts about rules, in their order, and their titles. -/
def ruleSections : List (String × Rule) :=
  [("Missing doctest examples", .missingExample), ("Missing type annotations", .missingAnnotations),
    ("Non-descriptive names", .nonDescriptiveName)]

/-- The lines of the part about a rule. -/
def ruleEntries (report : Report) (added : LabelSet) (rule : Rule) : List String :=
  ((report.findingsFor added).filter fun (_, v) => v.rule = rule).map fun (path, v) => entry path v

/-- The part about a rule, if it has lines. -/
def ruleSection (report : Report) (added : LabelSet) (title : String) (rule : Rule) : String :=
  match ruleEntries report added rule with
  | [] => ""
  | entries => s!"\n**{title}**\n" ++ "\n".intercalate entries ++ "\n"

/-- The violations behind the labels that are new. -/
def summary (login : String) (report : Report) (added : LabelSet) : String :=
  greeting login ++ "Automated review found the following issues:\n" ++
    missingTestSection report added ++
    String.join (ruleSections.map fun (title, rule) => ruleSection report added title rule) ++
    "\nPlease address these and push again; the labels update automatically."

end PullGate.Comment
