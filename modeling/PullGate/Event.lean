import PullGate.Snapshot
/-!
# Events

What a delivery reports: something happened to a pull request, or to a review of one.
-/

namespace PullGate

/-- What happened to a pull request. -/
inductive Action where
  | opened
  | reopened
  | closed
  | edited
  /-- Commits were pushed. -/
  | synchronize
  /-- A draft became ready. -/
  | readyForReview
  | convertedToDraft
  /-- A label was added by someone. -/
  | labeled
  /-- A label was removed by someone. -/
  | unlabeled
  deriving DecidableEq, Repr, Inhabited

namespace Action

/-- All actions. -/
def all : List Action :=
  [opened, reopened, closed, edited, synchronize, readyForReview, convertedToDraft, labeled,
    unlabeled]

/-- The text of the action. -/
def name : Action → String
  | opened => "opened"
  | reopened => "reopened"
  | closed => "closed"
  | edited => "edited"
  | synchronize => "synchronize"
  | readyForReview => "ready_for_review"
  | convertedToDraft => "converted_to_draft"
  | labeled => "labeled"
  | unlabeled => "unlabeled"

/-- The action with this text. -/
def ofName? (text : String) : Option Action := all.find? fun a => a.name = text

/-- Whether the action is about one label. -/
def changesLabel (a : Action) : Bool := a = labeled || a = unlabeled

theorem ofName?_name (a : Action) : ofName? a.name = some a := by cases a <;> decide

end Action

/-- What happened to a review. -/
inductive ReviewAction where
  | submitted
  | dismissed
  | edited
  deriving DecidableEq, Repr, Inhabited

namespace ReviewAction

/-- All actions on reviews. -/
def all : List ReviewAction := [submitted, dismissed, edited]

/-- The text of the action. -/
def name : ReviewAction → String
  | submitted => "submitted"
  | dismissed => "dismissed"
  | edited => "edited"

/-- The action with this text. -/
def ofName? (text : String) : Option ReviewAction := all.find? fun a => a.name = text

theorem ofName?_name (a : ReviewAction) : ofName? a.name = some a := by cases a <;> decide

end ReviewAction

/-- What a review says. -/
inductive ReviewState where
  | approved
  | changesRequested
  | commented
  | dismissed
  | pending
  deriving DecidableEq, Repr, Inhabited

namespace ReviewState

/-- All states of reviews. -/
def all : List ReviewState := [approved, changesRequested, commented, dismissed, pending]

/-- The text of the state. -/
def name : ReviewState → String
  | approved => "approved"
  | changesRequested => "changes_requested"
  | commented => "commented"
  | dismissed => "dismissed"
  | pending => "pending"

/-- The text of the state in capital letters. -/
def capitalName : ReviewState → String
  | approved => "APPROVED"
  | changesRequested => "CHANGES_REQUESTED"
  | commented => "COMMENTED"
  | dismissed => "DISMISSED"
  | pending => "PENDING"

/-- The state with this text, in capital letters. -/
def ofCapitalName? (text : String) : Option ReviewState := all.find? fun s => s.capitalName = text

theorem ofCapitalName?_capitalName (s : ReviewState) : ofCapitalName? s.capitalName = some s := by
  cases s <;> decide

end ReviewState

/-- A review. -/
structure Review where
  state : ReviewState
  association : Association
  reviewer : String
  deriving DecidableEq, Repr, Inhabited

/-- Something that happened to a pull request. -/
structure PullRequestEvent where
  repository : Repository
  action : Action
  pr : Snapshot
  installation : Option Installation
  /-- The name of the label that was added or removed, which need not be one of the gate's. -/
  label : Option String
  deriving DecidableEq

/-- Something that happened to a review of a pull request. -/
structure ReviewEvent where
  repository : Repository
  action : ReviewAction
  review : Review
  pr : Snapshot
  installation : Option Installation
  deriving DecidableEq

/-- An event. -/
inductive Event where
  | pullRequest (event : PullRequestEvent)
  | review (event : ReviewEvent)
  deriving DecidableEq

namespace Event

/-- The repository that the event belongs to. -/
def repository : Event → Repository
  | pullRequest e => e.repository
  | review e => e.repository

/-- The pull request that the event is about. -/
def pr : Event → Snapshot
  | pullRequest e => e.pr
  | review e => e.pr

/-- The installation that received the event. -/
def installation : Event → Option Installation
  | pullRequest e => e.installation
  | review e => e.installation

/-- The event with other labels on its pull request. -/
def withLabels (labels : LabelSet) : Event → Event
  | pullRequest e => pullRequest { e with pr := { e.pr with labels } }
  | review e => review { e with pr := { e.pr with labels } }

end Event

end PullGate
