import PullGate.Json.Shape
import PullGate.Wire.Parts
/-!
# Forms of events, effects and answers

How events, effects and answers look as JSON, each with its variants.
-/

namespace PullGate.Wire

open PullGate.Json (Branches Fields Form Shape)

/-! ## Events -/

/-- What happened to a pull request, by its name. -/
def action : Shape Action := .enumeration Action.all Action.name

/-- What happened to a review, by its name. -/
def reviewAction : Shape ReviewAction := .enumeration ReviewAction.all ReviewAction.name

/-- What a review says, by its name. -/
def reviewState : Shape ReviewState := .enumeration ReviewState.all ReviewState.name

/-- A review. -/
def review : Shape Review :=
  .via (fun (s, a, r, ()) => ⟨s, a, r⟩) (fun r => (r.state, r.association, r.reviewer, ()))
    (.record "Review"
      (.cons "state" reviewState none (.cons "author_association" association none
        (.cons "reviewer_login" .text none .nil))))

/-- The members of an event about a pull request. -/
def pullRequestFields :
    Fields (Repository × Action × Snapshot × Option Installation × Option String × Unit) :=
  .cons "repo" repository none <|
  .cons "action" action none <|
  .cons "pr" snapshot none <|
  .cons "installation_id" (.optional installation) none <|
  .cons "label" (.optional .text) none .nil

/-- An event about a pull request. -/
def pullRequestEvent : Shape PullRequestEvent :=
  .via (fun (r, a, p, i, l, ()) => ⟨r, a, p, i, l⟩)
    (fun e => (e.repository, e.action, e.pr, e.installation, e.label, ()))
    (.record "PullRequestEvent" pullRequestFields)

/-- The members of an event about a review. -/
def reviewFields :
    Fields (Repository × ReviewAction × Review × Snapshot × Option Installation × Unit) :=
  .cons "repo" repository none <|
  .cons "action" reviewAction none <|
  .cons "review" review none <|
  .cons "pr" snapshot none <|
  .cons "installation_id" (.optional installation) none .nil

/-- An event about a review. -/
def reviewEvent : Shape ReviewEvent :=
  .via (fun (r, a, v, p, i, ()) => ⟨r, a, v, p, i⟩)
    (fun e => (e.repository, e.action, e.review, e.pr, e.installation, ()))
    (.record "PullRequestReviewEvent" reviewFields)

/-- An event. -/
def event : Form Event :=
  .around <|
  .cons "PullRequest" pullRequestEvent .pullRequest (fun | .pullRequest e => some e | _ => none) <|
  .cons "PullRequestReview" reviewEvent .review (fun | .review e => some e | _ => none) .nil

/-! ## Effects -/

/-- The variants of effects. -/
def effectBranches : Branches Effect :=
  .cons "list_changed_files"
    (.record "variant GitHubEffect::ListChangedFiles" (.cons "pr" prNumber none .nil))
    (fun (pr, ()) => .listChangedFiles pr)
    (fun | .listChangedFiles pr => some (pr, ()) | _ => none) <|
  .cons "get_file_content"
    (.record "variant GitHubEffect::GetFileContent"
      (.cons "path" .text none (.cons "reference" commit none .nil)))
    (fun (path, reference, ()) => .getFileContent path reference)
    (fun | .getFileContent path reference => some (path, reference, ()) | _ => none) <|
  .cons "search_open_prs"
    (.record "variant GitHubEffect::SearchOpenPrs" (.cons "author" .text none .nil))
    (fun (author, ()) => .searchOpenPrs author)
    (fun | .searchOpenPrs author => some (author, ()) | _ => none) <|
  .cons "list_check_runs"
    (.record "variant GitHubEffect::ListCheckRuns" (.cons "sha" commit none .nil))
    (fun (sha, ()) => .listCheckRuns sha)
    (fun | .listCheckRuns sha => some (sha, ()) | _ => none) <|
  .cons "post_comment"
    (.record "variant GitHubEffect::PostComment"
      (.cons "pr" prNumber none (.cons "body" .text none .nil)))
    (fun (pr, body, ()) => .postComment pr body)
    (fun | .postComment pr body => some (pr, body, ()) | _ => none) <|
  .cons "add_labels"
    (.record "variant GitHubEffect::AddLabels"
      (.cons "pr" prNumber none (.cons "labels" (.list label) none .nil)))
    (fun (pr, ls, ()) => .addLabels pr ls)
    (fun | .addLabels pr ls => some (pr, ls, ()) | _ => none) <|
  .cons "remove_label"
    (.record "variant GitHubEffect::RemoveLabel"
      (.cons "pr" prNumber none (.cons "label" label none .nil)))
    (fun (pr, l, ()) => .removeLabel pr l)
    (fun | .removeLabel pr l => some (pr, l, ()) | _ => none) <|
  .cons "close_pr"
    (.record "variant GitHubEffect::ClosePr" (.cons "pr" prNumber none .nil))
    (fun (pr, ()) => .closePr pr)
    (fun | .closePr pr => some (pr, ()) | _ => none) <|
  .cons "unassign_reviewers"
    (.record "variant GitHubEffect::UnassignReviewers"
      (.cons "pr" prNumber none (.cons "reviewers" texts none .nil)))
    (fun (pr, rs, ()) => .unassignReviewers pr rs)
    (fun | .unassignReviewers pr rs => some (pr, rs, ()) | _ => none) .nil

/-- An effect. -/
def effect : Form Effect := .inside "internally tagged enum GitHubEffect" "type" effectBranches

/-! ## Answers -/

/-- The variants of answers. -/
def responseBranches : Branches Response :=
  .cons "changed_files" (.list fileChange) .changedFiles
    (fun | .changedFiles fs => some fs | _ => none) <|
  .cons "file_content" .text .fileContent (fun | .fileContent t => some t | _ => none) <|
  .cons "open_prs" openSearch .openPrs (fun | .openPrs s => some s | _ => none) <|
  .cons "check_runs" (.list checkRun) .checkRuns (fun | .checkRuns rs => some rs | _ => none) <|
  .cons "comment_posted" (.unit "unit variant GitHubResponse::CommentPosted")
    (fun () => .commentPosted) (fun | .commentPosted => some () | _ => none) <|
  .cons "labels_added" (.unit "unit variant GitHubResponse::LabelsAdded")
    (fun () => .labelsAdded) (fun | .labelsAdded => some () | _ => none) <|
  .cons "label_removed" (.unit "unit variant GitHubResponse::LabelRemoved")
    (fun () => .labelRemoved) (fun | .labelRemoved => some () | _ => none) <|
  .cons "pr_closed" (.unit "unit variant GitHubResponse::PrClosed")
    (fun () => .prClosed) (fun | .prClosed => some () | _ => none) <|
  .cons "reviewers_unassigned" (.unit "unit variant GitHubResponse::ReviewersUnassigned")
    (fun () => .reviewersUnassigned) (fun | .reviewersUnassigned => some () | _ => none) .nil

/-- An answer. -/
def response : Form Response :=
  .beside "adjacently tagged enum GitHubResponse" "type" "data" responseBranches

end PullGate.Wire
