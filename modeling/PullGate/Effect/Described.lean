import PullGate.Effect
import PullGate.Text.Quoted
/-!
# Answers in words

An answer that was not the one asked for is shown in full, texts between quotation marks.
-/

namespace PullGate

open PullGate.Text (quoted)

/-- A list in brackets. -/
def describedList (items : List String) : String := "[" ++ ", ".intercalate items ++ "]"

/-- The state of a file as it is shown. -/
def FileStatus.described : FileStatus → String
  | added => "Added"
  | modified => "Modified"
  | removed => "Removed"
  | renamed => "Renamed"
  | copied => "Copied"
  | changed => "Changed"
  | unchanged => "Unchanged"

/-- A changed file as it is shown. -/
def FileChange.described (f : FileChange) : String :=
  "FileChange \x7b filename: " ++ quoted f.path ++ ", contents_url: " ++ quoted f.contentsUrl ++
    ", status: " ++ f.status.described ++ " \x7d"

/-- A run of a check as it is shown. -/
def CheckRun.described (r : CheckRun) : String :=
  let conclusion := match r.conclusion with
    | some c => "Some(" ++ quoted c ++ ")"
    | none => "None"
  "CheckRun \x7b status: " ++ quoted r.status ++ ", conclusion: " ++ conclusion ++ " \x7d"

/-- The result of a search as it is shown. -/
def OpenSearch.described (s : OpenSearch) : String :=
  "OpenPrSearch \x7b total_count: " ++ toString s.total.toNat ++ ", numbers: " ++
    describedList (s.numbers.map fun n => "PrNumber(" ++ toString n.value.toNat ++ ")") ++ " \x7d"

/-- An answer as it is shown. -/
def Response.described : Response → String
  | changedFiles files => "ChangedFiles(" ++ describedList (files.map (·.described)) ++ ")"
  | fileContent text => "FileContent(" ++ quoted text ++ ")"
  | openPrs search => "OpenPrs(" ++ search.described ++ ")"
  | checkRuns runs => "CheckRuns(" ++ describedList (runs.map (·.described)) ++ ")"
  | commentPosted => "CommentPosted"
  | labelsAdded => "LabelsAdded"
  | labelRemoved => "LabelRemoved"
  | prClosed => "PrClosed"
  | reviewersUnassigned => "ReviewersUnassigned"

end PullGate
