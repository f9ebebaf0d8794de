import PullGate.Identity
import PullGate.Label
/-!
# Effects

What the gate asks of the host of the pull requests, as data, and what the host answers. Reads change
nothing; writes do.
-/

namespace PullGate

/-! ## What reads answer with -/

/-- What happened to a file. -/
inductive FileStatus where
  | added
  | modified
  | removed
  | renamed
  | copied
  | changed
  | unchanged
  deriving DecidableEq, Repr, Inhabited

namespace FileStatus

/-- All states of files. -/
def all : List FileStatus := [added, modified, removed, renamed, copied, changed, unchanged]

/-- The text of the state. -/
def name : FileStatus → String
  | added => "added"
  | modified => "modified"
  | removed => "removed"
  | renamed => "renamed"
  | copied => "copied"
  | changed => "changed"
  | unchanged => "unchanged"

end FileStatus

/-- A file that a pull request changes. -/
structure FileChange where
  path : String
  /-- The address of the file's text. -/
  contentsUrl : String
  status : FileStatus
  deriving DecidableEq, Repr, Inhabited

/-- A run of a check. -/
structure CheckRun where
  status : String
  /-- How the run ended, if it did. -/
  conclusion : Option String
  deriving DecidableEq, Repr, Inhabited

/-- Whether the run failed. -/
def CheckRun.isFailure (r : CheckRun) : Bool := r.conclusion = some "failure"

/-- What a search for open pull requests found. -/
structure OpenSearch where
  /-- How many there are in all. -/
  total : UInt64
  numbers : List PrNumber
  deriving DecidableEq, Repr, Inhabited

/-! ## Effects -/

/-- What can be asked. -/
inductive Effect where
  | listChangedFiles (pr : PrNumber)
  | getFileContent (path : String) (reference : Commit)
  | searchOpenPrs (author : String)
  | listCheckRuns (commit : Commit)
  | postComment (pr : PrNumber) (body : String)
  | addLabels (pr : PrNumber) (labels : List Label)
  | removeLabel (pr : PrNumber) (label : Label)
  | closePr (pr : PrNumber)
  | unassignReviewers (pr : PrNumber) (reviewers : List String)
  deriving DecidableEq, Repr

namespace Effect

/-- The name of what is asked. -/
def operation : Effect → String
  | listChangedFiles _ => "list_changed_files"
  | getFileContent _ _ => "get_file_content"
  | searchOpenPrs _ => "search_open_prs"
  | listCheckRuns _ => "list_check_runs"
  | postComment _ _ => "post_comment"
  | addLabels _ _ => "add_labels"
  | removeLabel _ _ => "remove_label"
  | closePr _ => "close_pr"
  | unassignReviewers _ _ => "unassign_reviewers"

/-- Whether something changes. -/
def isWrite : Effect → Bool
  | listChangedFiles _ | getFileContent _ _ | searchOpenPrs _ | listCheckRuns _ => false
  | _ => true

/-- The labels of a pull request after the effect has happened. -/
def applyTo (labels : LabelSet) : Effect → LabelSet
  | addLabels _ ls => ls.foldl .insert labels
  | removeLabel _ l => labels.erase l
  | _ => labels

/-- The labels after several effects, one after another. -/
def applyAll (effects : List Effect) (labels : LabelSet) : LabelSet := effects.foldl applyTo labels

end Effect

/-! ## Answers -/

/-- What can be answered. -/
inductive Response where
  | changedFiles (files : List FileChange)
  | fileContent (text : String)
  | openPrs (search : OpenSearch)
  | checkRuns (runs : List CheckRun)
  | commentPosted
  | labelsAdded
  | labelRemoved
  | prClosed
  | reviewersUnassigned
  deriving DecidableEq, Repr

end PullGate
