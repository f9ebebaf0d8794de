import PullGate.Event
import PullGate.Program
/-!
# Upkeep of labels

What follows from reviews, from labels that people add and remove, and from failing checks. Nothing
follows for a pull request that was turned away.
-/

namespace PullGate.Upkeep

/-- Adds one label. -/
def add (pr : Snapshot) (l : Label) : Effect := .addLabels pr.number [l]

/-- Removes one label. -/
def remove (pr : Snapshot) (l : Label) : Effect := .removeLabel pr.number l

/-- Removes a label that is there. -/
def removeIfThere (pr : Snapshot) (l : Label) : List Effect :=
  if pr.labels.has l then [remove pr l] else []

/-! ## Labels changed by people -/

/-- What follows when someone adds or removes a label. One that keeps the pull request from review ends
its waiting for it; when the last requirement goes, it waits again. -/
def manualLabel (event : PullRequestEvent) : List Effect :=
  let pr := event.pr
  if pr.isSettled then []
  else match event.label.bind Label.ofName? with
  | none => []
  | some l =>
    match event.action with
    | .labeled => if l.blocksReview then removeIfThere pr .awaitingReview else []
    | .unlabeled =>
      if l.isRequirement && !pr.draft && !pr.labels.blocksReview && !pr.labels.has .awaitingReview then
        [add pr .awaitingReview]
      else []
    | _ => []

/-! ## Reviews -/

/-- What follows from a review by someone privileged. -/
def review (event : ReviewEvent) : List Effect :=
  let pr := event.pr
  if event.action = .submitted ∧ ¬ pr.isSettled ∧ event.review.association.isPrivileged then
    match event.review.state with
    | .changesRequested =>
      if pr.labels.has .changesRequested then []
      else add pr .changesRequested :: removeIfThere pr .awaitingReview
    | .approved => removeIfThere pr .changesRequested ++ removeIfThere pr .awaitingReview
    | _ => []
  else []

/-! ## Failing checks -/

/-- What follows from the runs of checks. -/
def failingChecks (pr : Snapshot) (runs : List CheckRun) : List Effect :=
  if runs.any (·.isFailure) && !pr.labels.has .testsFailing then [add pr .testsFailing] else []

/-- Looks at the runs of checks on the last commit. -/
def checks (event : PullRequestEvent) : Program Unit :=
  if event.pr.isSettled then return ()
  else do
    let runs ← Program.checkRuns event.pr.head
    Program.performAll (failingChecks event.pr runs)

end PullGate.Upkeep
