import PullGate.Comment
import PullGate.Compliance.Files
import PullGate.Event
import PullGate.Plan
import PullGate.Program
import PullGate.Text.Blank
/-!
# The gate

What happens when a pull request is opened, pushed to, or made ready. The checks follow one another,
and the first that fails turns the pull request away:

* a pull request that was turned away before is left alone;
* the description must not be empty, and must show a ticked checklist;
* the author must not have too many other open pull requests;
* a draft is left alone until it is ready;
* every file must have an extension;
* the sources are analysed, and the labels brought to what they require;
* a new pull request that nothing is required of awaits review.

Privileged authors are not asked for a description or for few pull requests. The first two checks and
the last step concern new pull requests only.
-/

namespace PullGate.Gate

open PullGate.Compliance (Analyzer Report)

/-! ## Turning away -/

/-- Why a pull request is turned away. -/
inductive Rejection where
  | emptyBody
  | checklistNotTicked
  /-- The author's other open pull requests, in order. -/
  | tooManyOpenPrs (others : List PrNumber)
  | extensionlessFiles (paths : List String)
  deriving DecidableEq, Repr

namespace Rejection

/-- The reason in a few words. -/
def described : Rejection → String
  | emptyBody => "empty body"
  | checklistNotTicked => "checklist not ticked"
  | tooManyOpenPrs others => s!"{others.length} other open PR(s)"
  | extensionlessFiles paths => s!"{paths.length} extensionless file(s)"

/-- Whether the pull request is marked for good. That there are too many is not its own fault. -/
def marksInvalid : Rejection → Bool
  | tooManyOpenPrs _ => false
  | _ => true

/-- The comment that gives the reason. -/
def comment (policy : Policy) (pr : Snapshot) : Rejection → String
  | emptyBody => Comment.emptyBody pr.author
  | checklistNotTicked => Comment.checklistNotTicked pr.author policy.checklistMarker
  | tooManyOpenPrs others => Comment.tooManyOpenPrs pr.author others policy.maxOpenPullRequests
  | extensionlessFiles paths => Comment.extensionlessFiles pr.author paths

/-- How a pull request is turned away: the comment, the mark, the closing, and the release of its
reviewers. -/
def effects (policy : Policy) (pr : Snapshot) (r : Rejection) : List Effect :=
  [.postComment pr.number (r.comment policy pr)] ++
  (if r.marksInvalid then [.addLabels pr.number [.invalid]] else []) ++
  [.closePr pr.number] ++
  (if pr.reviewers.isEmpty then [] else [.unassignReviewers pr.number pr.reviewers])

end Rejection

/-- How a run of the gate ends. -/
inductive Outcome where
  /-- The pull request was turned away before. -/
  | alreadyInvalid
  | rejected (rejection : Rejection)
  | skippedDraft
  /-- Nothing failed; these are the labels that the sources require. -/
  | completed (requirements : LabelSet)
  deriving DecidableEq

/-! ## Checks -/

/-- Whether a description shows the text of a ticked checklist, in small or capital letters. -/
def isTicked (policy : Policy) (body : String) : Bool :=
  Text.holds (Text.toSmall body) (Text.toSmall policy.checklistMarker)

/-- What is wrong with a description. -/
def checkShape (policy : Policy) (pr : Snapshot) : Option Rejection :=
  if Text.isBlank pr.body then some .emptyBody
  else if isTicked policy pr.body then none
  else some .checklistNotTicked

/-- The numbers that a search found, without the pull request's own, in order and each once. -/
def otherNumbers (pr : Snapshot) (search : OpenSearch) : List PrNumber :=
  ((search.numbers.filter (· ≠ pr.number)).mergeSort fun a b => a.value ≤ b.value).eraseReps

/-- Whether the author has too many other open pull requests. -/
def checkOpenPrs (policy : Policy) (pr : Snapshot) (search : OpenSearch) : Option Rejection :=
  let others := otherNumbers pr search
  if policy.maxOpenPullRequests.toNat ≤ others.length then some (.tooManyOpenPrs others) else none

/-- Whether files lack extensions. -/
def checkExtensions (policy : Policy) (files : List FileChange) : Option Rejection :=
  match Compliance.extensionless policy files with
  | [] => none
  | paths => some (.extensionlessFiles paths)

/-! ## The steps -/

section

variable (analyzer : Analyzer) (policy : Policy) (event : PullRequestEvent)

/-- Turns the pull request away. -/
def reject (r : Rejection) : Program Outcome := do
  Program.performAll (r.effects policy event.pr)
  return .rejected r

/-- Fetches and analyses files. -/
def analyzeFiles : List FileChange → Report → Program Report
  | [], report => return report
  | f :: rest, report => do
    let text ← Program.fileContent f.path event.pr.head
    analyzeFiles rest (report.record f.path (analyzer text))

/-- The effects that follow from a report: a summary for a new pull request that gets labels, and the
changes of labels. -/
def reportEffects (report : Report) : List Effect :=
  let plan := Plan.between report.requirements event.pr.labels
  (if event.action = .opened ∧ plan.toAdd ≠ [] then
    [.postComment event.pr.number (Comment.summary event.pr.author report plan.added)]
  else []) ++ plan.effects event.pr.number

/-- Analyses the sources among the changed files and brings the labels to what they require. -/
def comply (files : List FileChange) : Program LabelSet := do
  let report ← analyzeFiles analyzer event (Compliance.sources policy files)
    (.empty (Compliance.hasTestFile policy files))
  Program.performAll (reportEffects event report)
  return report.requirements

/-- A new pull request that nothing is required of awaits review. -/
def defaultLabel (requirements : LabelSet) : Program Unit :=
  if event.action = .opened ∧ requirements.isEmpty ∧ ¬ event.pr.labels.has .awaitingReview then
    Program.perform (.addLabels event.pr.number [.awaitingReview])
  else return ()

/-- The steps that look at the changed files. -/
def filesGate : Program Outcome := do
  let files ← Program.changedFiles event.pr.number
  match if event.action = .readyForReview then none else checkExtensions policy files with
  | some r => reject policy event r
  | none =>
    let requirements ← comply analyzer policy event files
    defaultLabel event requirements
    return .completed requirements

/-- The steps after those about the author: drafts are left alone, and only some actions go on. -/
def draftGate : Program Outcome :=
  match event.action with
  | .opened | .synchronize => if event.pr.draft then return .skippedDraft else filesGate analyzer policy event
  | .readyForReview => filesGate analyzer policy event
  | _ => return .completed ∅

/-- Whether the checks on authors apply: the pull request is new and its author not privileged. -/
def asksAuthor : Bool := event.action = .opened && !event.pr.isPrivileged

/-- The check of the author's other pull requests, and the steps after it. -/
def capGate : Program Outcome :=
  if asksAuthor event ∧ policy.maxOpenPullRequests ≠ 0 then do
    let search ← Program.openPrs event.pr.author
    match checkOpenPrs policy event.pr search with
    | some r => reject policy event r
    | none => draftGate analyzer policy event
  else draftGate analyzer policy event

/-- The check of the description, and the steps after it. -/
def shapeGate : Program Outcome :=
  match if asksAuthor event then checkShape policy event.pr else none with
  | some r => reject policy event r
  | none => capGate analyzer policy event

/-- All steps. -/
def run : Program Outcome :=
  if event.pr.isSettled then return .alreadyInvalid else shapeGate analyzer policy event

end

end PullGate.Gate
