import PullGate.Compliance.Violation
import PullGate.Effect
import PullGate.Event
import PullGate.Json.Shape
import PullGate.Policy
/-!
# Shapes of the gate's data

How labels, settings, violations, snapshots and what belongs to them look as JSON. Each shape says how
the data is read and how it is written.
-/

namespace PullGate.Wire

open PullGate.Json (Fields Shape)

/-! ## Names and numbers -/

/-- A label, by its text. -/
def label : Shape Label := .enumeration Label.all Label.name

/-- A set of labels, as a list. -/
def labels : Shape LabelSet := .via .ofList LabelSet.toList (.list label)

/-- The number of a pull request. -/
def prNumber : Shape PrNumber := .via .mk PrNumber.value (.natural "u64")

/-- The number of an installation. -/
def installation : Shape Installation := .via .mk Installation.value (.natural "u64")

/-- The name of a commit. -/
def commit : Shape Commit := .via .mk Commit.name .text

/-- What an author is to a repository, by its text. -/
def association : Shape Association := .enumeration Association.all Association.name

/-- A repository. -/
def repository : Shape Repository :=
  .via (fun (owner, name, ()) => ⟨owner, name⟩) (fun r => (r.owner, r.name, ()))
    (.record "RepoId" (.cons "owner" .text none (.cons "repo" .text none .nil)))

/-! ## Settings -/

/-- A number of 64 bits that counts things. -/
def count : Shape UInt64 := .natural "usize"

/-- A list of texts. -/
def texts : Shape (List String) := .list .text

/-- The members of settings. -/
def policyFields :
    Fields (UInt64 × String × String × List String × List String × List String × List String × Unit) :=
  .cons "max_open_prs_per_author" count none <|
  .cons "checklist_marker" .text none <|
  .cons "source_extension" .text none <|
  .cons "ignored_dirs" texts none <|
  .cons "extensionless_allowed_dirs" texts none <|
  .cons "short_name_allow_list" texts none <|
  .cons "short_name_deny_list" texts none .nil

/-- Settings. -/
def policy : Shape Policy :=
  .via (fun (a, b, c, d, e, f, g, ()) => ⟨a, b, c, d, e, f, g⟩)
    (fun p => (p.maxOpenPullRequests, p.checklistMarker, p.sourceExtension, p.ignoredDirs,
      p.extensionlessDirs, p.allowedNames, p.refusedNames, ()))
    (.record "GatekeeperConfig" policyFields)

/-! ## Violations -/

/-- A rule, by its name. -/
def rule : Shape Compliance.Rule := .enumeration Compliance.Rule.all Compliance.Rule.name

/-- A place in a source. -/
def location : Shape Text.Location :=
  .via (fun (line, column, ()) => ⟨line.toNat, column.toNat⟩)
    (fun l => (UInt64.ofNat l.line, UInt64.ofNat l.column, ()))
    (.record "Location" (.cons "line" count none (.cons "column" count none .nil)))

/-- A violation. -/
def violation : Shape Compliance.Violation :=
  .via (fun (r, l, m, ()) => ⟨r, l, m⟩) (fun v => (v.rule, v.location, v.message, ()))
    (.record "Violation"
      (.cons "rule" rule none (.cons "location" location none (.cons "message" .text none .nil))))

/-! ## Snapshots -/

/-- The members of a snapshot. -/
def snapshotFields :
    Fields (PrNumber × String × String × String × String × Association × LabelSet × Bool ×
      List String × Commit × Unit) :=
  .cons "number" prNumber none <|
  .cons "url" .text none <|
  .cons "html_url" .text none <|
  .cons "body" .text none <|
  .cons "author_login" .text none <|
  .cons "author_association" association none <|
  .cons "labels" labels none <|
  .cons "draft" .flag none <|
  .cons "requested_reviewers" texts none <|
  .cons "head_sha" commit none .nil

/-- A snapshot. -/
def snapshot : Shape Snapshot :=
  .via (fun (a, b, c, d, e, f, g, h, i, j, ()) => ⟨a, b, c, d, e, f, g, h, i, j⟩)
    (fun s => (s.number, s.url, s.htmlUrl, s.body, s.author, s.association, s.labels, s.draft,
      s.reviewers, s.head, ()))
    (.record "PrSnapshot" snapshotFields)

/-! ## Answers -/

/-- The state of a file, by its name. -/
def fileStatus : Shape FileStatus := .enumeration FileStatus.all FileStatus.name

/-- A changed file. -/
def fileChange : Shape FileChange :=
  .via (fun (p, u, s, ()) => ⟨p, u, s⟩) (fun f => (f.path, f.contentsUrl, f.status, ()))
    (.record "FileChange"
      (.cons "filename" .text none (.cons "contents_url" .text none
        (.cons "status" fileStatus none .nil))))

/-- The members of a run of a check. -/
def checkRunFields : Fields (String × Option String × Unit) :=
  .cons "status" .text none (.cons "conclusion" (.optional .text) none .nil)

/-- A run of a check. -/
def checkRun : Shape CheckRun :=
  .via (fun (s, c, ()) => ⟨s, c⟩) (fun r => (r.status, r.conclusion, ()))
    (.record "CheckRun" checkRunFields)

/-- The result of a search. -/
def openSearch : Shape OpenSearch :=
  .via (fun (t, ns, ()) => ⟨t, ns⟩) (fun s => (s.total, s.numbers, ()))
    (.record "OpenPrSearch"
      (.cons "total_count" (.natural "u64") none (.cons "numbers" (.list prNumber) none .nil)))

end PullGate.Wire
