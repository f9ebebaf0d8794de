import PullGate.Json.Decode
import PullGate.Wire.Parts
/-!
# What replies look like

The bodies of replies, as far as they are asked for. Addresses and times in them are texts that are
not looked into.
-/

namespace PullGate.Client

open PullGate.Json (Fields Shape Value)

/-- What a refusal says. -/
def refusal : Shape String :=
  .via (fun (_, _, message, ()) => message) (fun message => (none, none, message, ()))
    (.record "GitHubErrorBody"
      (.cons "documentation_url" (.optional .text) none <|
        .cons "errors" (.optional (.list .any)) none <|
        .cons "message" .text none .nil))

/-! ## Pages of listings -/

/-- A changed file. -/
def listedFile : Shape FileChange :=
  .via (fun (path, status, url, ()) => ⟨path, url, status⟩)
    (fun f => (f.path, f.status, f.contentsUrl, ()))
    (.record "RawFile"
      (.cons "filename" .text none <|
        .cons "status" Wire.fileStatus none <|
        .cons "contents_url" .text (some "") .nil))

/-- A page of changed files. -/
def filesPage : Shape (List FileChange) := .list listedFile

/-- A pull request that a search found. -/
def foundPr : Shape PrNumber :=
  .via (fun (number, ()) => number) (fun number => (number, ()))
    (.record "RawIssue" (.cons "number" Wire.prNumber none .nil))

/-- A page of a search. -/
def searchPage : Shape OpenSearch :=
  .via (fun (total, numbers, ()) => ⟨total, numbers⟩) (fun s => (s.total, s.numbers, ()))
    (.record "RawSearch"
      (.cons "total_count" (.natural "u64") none <|
        .cons "items" (.list foundPr) (some []) .nil))

/-- A run of a check. -/
def listedRun : Shape CheckRun :=
  .via (fun (status, conclusion, ()) => ⟨status, conclusion⟩)
    (fun r => (r.status, r.conclusion, ()))
    (.record "RawCheckRun" Wire.checkRunFields)

/-- A page of runs of checks. -/
def runsPage : Shape (List CheckRun) :=
  .via (fun (runs, ()) => runs) (fun runs => (runs, ()))
    (.record "RawCheckRuns" (.cons "check_runs" (.list listedRun) (some []) .nil))

/-! ## Single things -/

/-- A text that may be null or missing. -/
def text? : Shape (Option String) := .optional .text

/-- A comment. -/
def comment : Shape Unit :=
  .via (fun _ => ())
    (fun () => (0, "", "", "", none, none, none, none, .null, "", none, none, ()))
    (.record "Comment"
      (.cons "id" (.natural "u64") none <|
        .cons "node_id" .text none <|
        .cons "url" .text none <|
        .cons "html_url" .text none <|
        .cons "issue_url" text? none <|
        .cons "body" text? none <|
        .cons "body_text" text? none <|
        .cons "body_html" text? none <|
        .cons "user" .any none <|
        .cons "created_at" .text none <|
        .cons "updated_at" text? none <|
        .cons "author_association" text? none .nil))

/-- A label. -/
def label : Shape Unit :=
  .via (fun _ => ()) (fun () => (0, "", "", "", none, "", false, ()))
    (.record "Label"
      (.cons "id" (.natural "u64") none <|
        .cons "node_id" .text none <|
        .cons "url" .text none <|
        .cons "name" .text none <|
        .cons "description" text? none <|
        .cons "color" .text none <|
        .cons "default" .flag none .nil))

/-- Where a file's contents are found. -/
def contentLinks : Shape Unit :=
  .via (fun _ => ()) (fun () => (none, none, "", ()))
    (.record "ContentLinks"
      (.cons "git" text? none <| .cons "html" text? none <| .cons "self" .text none .nil))

/-- A file's contents, encoded, if there are any. -/
def content : Shape (Option String) :=
  .via (fun (_, _, _, _, encoded, _) => encoded)
    (fun encoded => ("", "", "", none, encoded, 0, "", none, none, none, "", (), none, ()))
    (.record "Content"
      (.cons "name" .text none <|
        .cons "path" .text none <|
        .cons "sha" .text none <|
        .cons "encoding" text? none <|
        .cons "content" text? none <|
        .cons "size" .integer none <|
        .cons "url" .text none <|
        .cons "html_url" text? none <|
        .cons "git_url" text? none <|
        .cons "download_url" text? none <|
        .cons "type" .text none <|
        .cons "_links" contentLinks none <|
        .cons "license" (.optional .any) none .nil))

/-- The contents of the files in a tree: of all in a list, or of one. -/
def contentsOf (tree : Value) : Except Json.Cause (List (Option String)) :=
  match tree.settled with
  | .list items => (Shape.list content).decode (.list items)
  | one => (content.decode one).map fun c => [c]

end PullGate.Client
