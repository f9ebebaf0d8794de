import PullGate.Json.Shape
/-!
# Payloads

What deliveries look like, as far as the gate asks: the members that its decisions need must be there,
and those that are only passed on may be missing.
-/

namespace PullGate.Webhook

open PullGate.Json (Fields Shape)

/-- A person. -/
structure User where
  login : String
  deriving DecidableEq, Repr

/-- A label of any name. -/
structure NamedLabel where
  name : String
  deriving DecidableEq, Repr

/-- A pull request. -/
structure PullRequest where
  number : UInt64
  url : Option String
  htmlUrl : Option String
  body : Option String
  user : User
  association : String
  labels : List NamedLabel
  draft : Bool
  reviewers : List User
  /-- The name of the last commit. -/
  head : String
  deriving DecidableEq, Repr

/-- A review. -/
structure RawReview where
  user : User
  state : String
  association : String
  deriving DecidableEq, Repr

/-- What a delivery about a pull request holds. -/
structure PullRequestPayload where
  pr : PullRequest
  /-- The full name of the repository. -/
  repository : String
  installation : Option UInt64
  label : Option NamedLabel
  deriving DecidableEq, Repr

/-- What a delivery about a review holds. -/
structure ReviewPayload where
  review : RawReview
  pr : PullRequest
  repository : String
  installation : Option UInt64
  deriving DecidableEq, Repr

/-! ## Shapes -/

/-- An object of which one member counts. -/
def holding {α β : Type} (noun name : String) (make : α → β) (view : β → α) (s : Shape α) : Shape β :=
  .via (fun (a, ()) => make a) (fun b => (view b, ())) (.record noun (.cons name s none .nil))

/-- What happened, as far as a first look shows. -/
def action : Shape String := holding "RawAction" "action" id id .text

/-- A person. -/
def user : Shape User := holding "RawUser" "login" .mk User.login .text

/-- A label. -/
def namedLabel : Shape NamedLabel := holding "RawLabel" "name" .mk NamedLabel.name .text

/-- The full name of a repository. -/
def repository : Shape String := holding "RawRepository" "full_name" id id .text

/-- The number of an installation. -/
def installation : Shape UInt64 := holding "RawInstallation" "id" id id (.natural "u64")

/-- The name of the last commit. -/
def head : Shape String := holding "RawHead" "sha" id id .text

/-- The members of a pull request. -/
def pullRequestFields :
    Fields (UInt64 × Option String × Option String × Option String × User × String ×
      List NamedLabel × Bool × List User × String × Unit) :=
  .cons "number" (.natural "u64") none <|
  .cons "url" (.optional .text) (some none) <|
  .cons "html_url" (.optional .text) (some none) <|
  .cons "body" (.optional .text) none <|
  .cons "user" user none <|
  .cons "author_association" .text none <|
  .cons "labels" (.list namedLabel) (some []) <|
  .cons "draft" .flag (some false) <|
  .cons "requested_reviewers" (.list user) (some []) <|
  .cons "head" head none .nil

/-- A pull request. -/
def pullRequest : Shape PullRequest :=
  .via (fun (a, b, c, d, e, f, g, h, i, j, ()) => ⟨a, b, c, d, e, f, g, h, i, j⟩)
    (fun p => (p.number, p.url, p.htmlUrl, p.body, p.user, p.association, p.labels, p.draft,
      p.reviewers, p.head, ()))
    (.record "RawPullRequest" pullRequestFields)

/-- A review. -/
def rawReview : Shape RawReview :=
  .via (fun (u, s, a, ()) => ⟨u, s, a⟩) (fun r => (r.user, r.state, r.association, ()))
    (.record "RawReview"
      (.cons "user" user none (.cons "state" .text none
        (.cons "author_association" .text none .nil))))

/-- The members of a delivery about a pull request. -/
def pullRequestPayloadFields :
    Fields (PullRequest × String × Option UInt64 × Option NamedLabel × Unit) :=
  .cons "pull_request" pullRequest none <|
  .cons "repository" repository none <|
  .cons "installation" (.optional installation) none <|
  .cons "label" (.optional namedLabel) none .nil

/-- A delivery about a pull request. -/
def pullRequestPayload : Shape PullRequestPayload :=
  .via (fun (p, r, i, l, ()) => ⟨p, r, i, l⟩) (fun d => (d.pr, d.repository, d.installation, d.label, ()))
    (.record "RawPullRequestPayload" pullRequestPayloadFields)

/-- The members of a delivery about a review. -/
def reviewPayloadFields : Fields (RawReview × PullRequest × String × Option UInt64 × Unit) :=
  .cons "review" rawReview none <|
  .cons "pull_request" pullRequest none <|
  .cons "repository" repository none <|
  .cons "installation" (.optional installation) none .nil

/-- A delivery about a review. -/
def reviewPayload : Shape ReviewPayload :=
  .via (fun (v, p, r, i, ()) => ⟨v, p, r, i⟩)
    (fun d => (d.review, d.pr, d.repository, d.installation, ()))
    (.record "RawPullRequestReviewPayload" reviewPayloadFields)

end PullGate.Webhook
