import PullGate.Event
import PullGate.Json.Read
import PullGate.Webhook.Payload
/-!
# Events from deliveries

`parse` reads a delivery's payload by the type that its header names. A delivery of another type, or
about something else that happened, is no error: there is no event. What happened is looked at first,
so that nothing else of such a payload counts.
-/

namespace PullGate.Webhook

open PullGate.Json (Error)

/-- Why a delivery is not accepted. -/
inductive ParseError where
  /-- The payload is not of the right shape. -/
  | json (error : Error)
  /-- A member has a value that it cannot have. -/
  | invalidField (field value : String)
  /-- A member is missing that is needed for what happened. -/
  | missingField (field : String)

/-- What is said about a delivery that is not accepted. -/
def ParseError.message : ParseError → String
  | json e => "JSON parse error: " ++ e.message
  | invalidField field value => s!"invalid field value for {field}: {value}"
  | missingField field => s!"missing field {field}"

/-- The pull request as the gate sees it. -/
def PullRequest.snapshot (p : PullRequest) : Snapshot where
  number := ⟨p.number⟩
  url := p.url.getD ""
  htmlUrl := p.htmlUrl.getD ""
  body := p.body.getD ""
  author := p.user.login
  association := .ofText p.association
  labels := .ofNames (p.labels.map (·.name))
  draft := p.draft
  reviewers := p.reviewers.map (·.login)
  head := ⟨p.head⟩

/-- The repository with this full name. -/
def parseRepository (fullName : String) : Except ParseError Repository :=
  match Repository.ofFullName? fullName with
  | some r => .ok r
  | none => .error (.invalidField "repository.full_name" fullName)

/-- The event that a payload about a pull request tells of. -/
def PullRequestPayload.event (action : Action) (d : PullRequestPayload) :
    Except ParseError PullRequestEvent :=
  if action.changesLabel && d.label.isNone then .error (.missingField "label")
  else match parseRepository d.repository with
  | .error e => .error e
  | .ok repository => .ok {
      repository, action
      pr := d.pr.snapshot
      installation := d.installation.map .mk
      label := d.label.map (·.name) }

/-- An event comes of the full name of its repository, and of a label where one is needed. -/
theorem PullRequestPayload.exists_of_event {action : Action} {d : PullRequestPayload}
    {e : PullRequestEvent} (h : d.event action = .ok e) :
    (action.changesLabel && d.label.isNone) = false ∧
      ∃ repository, parseRepository d.repository = .ok repository ∧ e = {
        repository, action
        pr := d.pr.snapshot
        installation := d.installation.map .mk
        label := d.label.map (·.name) } := by
  unfold PullRequestPayload.event at h
  split at h
  · cases h
  · next hlabel =>
    refine ⟨Bool.eq_false_iff.2 hlabel, ?_⟩
    split at h
    · cases h
    · next repository hrepository =>
      cases h
      exact ⟨repository, hrepository, rfl⟩

/-- The event that a payload about a review tells of. -/
def ReviewPayload.event (action : ReviewAction) (d : ReviewPayload) : Except ParseError ReviewEvent :=
  let state := Text.toCapitals d.review.state
  match ReviewState.ofCapitalName? state with
  | none => .error (.invalidField "review.state" state)
  | some state => match parseRepository d.repository with
    | .error e => .error e
    | .ok repository => .ok {
        repository, action
        review := ⟨state, .ofText d.review.association, d.review.user.login⟩
        pr := d.pr.snapshot
        installation := d.installation.map .mk }

/-- An event comes of the state of its review, and of the full name of its repository. -/
theorem ReviewPayload.exists_of_event {action : ReviewAction} {d : ReviewPayload} {e : ReviewEvent}
    (h : d.event action = .ok e) :
    ∃ state, ReviewState.ofCapitalName? (Text.toCapitals d.review.state) = some state ∧
      ∃ repository, parseRepository d.repository = .ok repository ∧ e = {
        repository, action
        review := ⟨state, .ofText d.review.association, d.review.user.login⟩
        pr := d.pr.snapshot
        installation := d.installation.map .mk } := by
  unfold ReviewPayload.event at h
  dsimp only at h
  split at h
  · cases h
  · next state hstate =>
    refine ⟨state, hstate, ?_⟩
    split at h
    · cases h
    · next repository hrepository =>
      cases h
      exact ⟨repository, hrepository, rfl⟩

/-- Reads a payload about a pull request. -/
def parsePullRequest (payload : List UInt8) : Except ParseError (Option PullRequestEvent) :=
  match Webhook.action.ofBytes payload with
  | .error e => .error (.json e)
  | .ok name => match Action.ofName? name with
    | none => .ok none
    | some action => match pullRequestPayload.ofBytes payload with
      | .error e => .error (.json e)
      | .ok d => match d.event action with
        | .error e => .error e
        | .ok event => .ok (some event)

/-- An event comes of a known action and of the payload's other members. -/
theorem exists_payload_of_parsePullRequest {payload : List UInt8} {e : PullRequestEvent}
    (h : parsePullRequest payload = .ok (some e)) :
    ∃ name action d, Webhook.action.ofBytes payload = .ok name ∧ Action.ofName? name = some action ∧
      pullRequestPayload.ofBytes payload = .ok d ∧ d.event action = .ok e := by
  unfold parsePullRequest at h
  split at h
  · cases h
  split at h
  · cases h
  split at h
  · cases h
  split at h
  · cases h
  · cases h
    exact ⟨_, _, _, ‹_›, ‹_›, ‹_›, ‹_›⟩

/-- Reads a payload about a review. -/
def parseReview (payload : List UInt8) : Except ParseError (Option ReviewEvent) :=
  match Webhook.action.ofBytes payload with
  | .error e => .error (.json e)
  | .ok name => match ReviewAction.ofName? name with
    | none => .ok none
    | some action => match reviewPayload.ofBytes payload with
      | .error e => .error (.json e)
      | .ok d => match d.event action with
        | .error e => .error e
        | .ok event => .ok (some event)

/-- A review event comes of a payload whose action is known and that is read in full. -/
theorem exists_payload_of_parseReview {payload : List UInt8} {e : ReviewEvent}
    (h : parseReview payload = .ok (some e)) :
    ∃ name action d, Webhook.action.ofBytes payload = .ok name ∧
      ReviewAction.ofName? name = some action ∧ reviewPayload.ofBytes payload = .ok d ∧
        d.event action = .ok e := by
  unfold parseReview at h
  split at h
  · cases h
  split at h
  · cases h
  split at h
  · cases h
  split at h
  · cases h
  · cases h
    exact ⟨_, _, _, ‹_›, ‹_›, ‹_›, ‹_›⟩

/-- The event that a delivery of this type tells of, if it tells of one. -/
def parse (type : String) (payload : List UInt8) : Except ParseError (Option Event) :=
  if type = "pull_request" then
    match parsePullRequest payload with
    | .error e => .error e
    | .ok event => .ok (event.map .pullRequest)
  else if type = "pull_request_review" then
    match parseReview payload with
    | .error e => .error e
    | .ok event => .ok (event.map .review)
  else .ok none

/-- Each kind of event comes from deliveries of its own type. -/
theorem parsed_of_parse {type : String} {payload : List UInt8} {event : Event}
    (h : parse type payload = .ok (some event)) :
    (∃ e, event = .pullRequest e ∧ parsePullRequest payload = .ok (some e)) ∨
      ∃ e, event = .review e ∧ parseReview payload = .ok (some e) := by
  unfold parse at h
  split at h
  · split at h
    · cases h
    · rename_i read hread
      cases read with
      | none => cases h
      | some e =>
        cases h
        exact .inl ⟨e, rfl, hread⟩
  · split at h
    · split at h
      · cases h
      · rename_i read hread
        cases read with
        | none => cases h
        | some e =>
          cases h
          exact .inr ⟨e, rfl, hread⟩
    · cases h

end PullGate.Webhook
