import PullGate.Proofs.Json.Reading
import PullGate.Proofs.Json.Rendering
import PullGate.Proofs.Text.Letters
import PullGate.Webhook.Parse
/-!
# Events and their payloads

The payload that tells of an event, as a tree, and how its parts are read. `parse_payload` says that
every text of the payload is read as the event again: what is told is what is handled.
-/

namespace PullGate

open PullGate.Json (Value)

/-! ## Payloads -/

namespace Webhook

/-- A person in a payload. -/
def personTree (login : String) : Value := .object [("login", .text login)]

/-- Something with a name in a payload. -/
def namedTree (name : String) : Value := .object [("name", .text name)]

/-- A pull request in a payload. -/
def snapshotTree (p : Snapshot) : Value := .object [
  ("number", .number (.natural p.number.value)),
  ("url", .text p.url),
  ("html_url", .text p.htmlUrl),
  ("body", .text p.body),
  ("user", personTree p.author),
  ("author_association", .text p.association.name),
  ("labels", .list (p.labels.toList.map fun l => namedTree l.name)),
  ("draft", .flag p.draft),
  ("requested_reviewers", .list (p.reviewers.map personTree)),
  ("head", .object [("sha", .text p.head.name)])]

/-- A review in a payload; its state is told by this text. -/
def reviewTree (r : Review) (state : String) : Value := .object [
  ("user", personTree r.reviewer),
  ("state", .text state),
  ("author_association", .text r.association.name)]

/-- The repository of a payload, and the installation that received it if there is one. -/
def originMembers (repository : Repository) (installation : Option Installation) :
    List (String × Value) :=
  ("repository", .object [("full_name", .text repository.fullName)]) ::
    installation.toList.map fun i => ("installation", .object [("id", .number (.natural i.value))])

end Webhook

open Webhook

/-- The payload that tells of a pull request. -/
def PullRequestEvent.payload (e : PullRequestEvent) : Value := .object <|
  ("action", .text e.action.name) :: ("pull_request", snapshotTree e.pr) ::
    (originMembers e.repository e.installation ++
      e.label.toList.map fun name => ("label", namedTree name))

/-- The payload that tells of a review; its state is told by this text. -/
def ReviewEvent.payload (e : ReviewEvent) (state : String) : Value := .object <|
  ("action", .text e.action.name) :: ("review", reviewTree e.review state) ::
    ("pull_request", snapshotTree e.pr) :: originMembers e.repository e.installation

namespace Event

/-- The type of a delivery that tells of the event. -/
def type : Event → String
  | pullRequest _ => "pull_request"
  | review _ => "pull_request_review"

/-- The payload that tells of the event; `spell` gives the text of a review's state. -/
def payload (spell : ReviewState → String) : Event → Value
  | pullRequest e => e.payload
  | review e => e.payload (spell e.review.state)

end Event

/-! ## Reading parts -/

namespace Webhook

open PullGate.Json

/-- An object with one member is what its member's value makes it. -/
theorem decode_holding {α β : Type} {noun name : String} {make : α → β} {view : β → α} {s : Shape α}
    {v : Value} {a : α} (h : s.decode v = .ok a) :
    (holding noun name make view s).decode (.object [(name, v)]) = .ok (make a) := by
  simp [holding, Shape.decode, decodeMembers, Fields.decodeMember, Fields.empty, Fields.finish, h]

theorem decode_personTree (login : String) : user.decode (personTree login) = .ok ⟨login⟩ :=
  decode_holding rfl

theorem decode_namedTree (name : String) : namedLabel.decode (namedTree name) = .ok ⟨name⟩ :=
  decode_holding rfl

/-- The pull request that a payload tells of. -/
def rawSnapshot (p : Snapshot) : PullRequest where
  number := p.number.value
  url := some p.url
  htmlUrl := some p.htmlUrl
  body := some p.body
  user := ⟨p.author⟩
  association := p.association.name
  labels := p.labels.toList.map fun l => ⟨l.name⟩
  draft := p.draft
  reviewers := p.reviewers.map .mk
  head := p.head.name

/-- The tree of a pull request is read as all that is asked for of it. -/
theorem decode_snapshotTree (p : Snapshot) :
    pullRequest.decode (snapshotTree p) = .ok (rawSnapshot p) := by
  have hlabels := decodeItems_map p.labels.toList fun l _ => decode_namedTree l.name
  have hreviewers := decodeItems_map p.reviewers fun login _ => decode_personTree login
  have hhead : head.decode (.object [("sha", .text p.head.name)]) = .ok p.head.name :=
    decode_holding rfl
  simp [pullRequest, pullRequestFields, snapshotTree, Shape.decode, decodeMembers, Fields.decodeMember,
    Fields.empty, Fields.finish, decode_personTree, hlabels, hreviewers, hhead, rawSnapshot]

/-- The tree of a review is read as the review. -/
theorem decode_reviewTree (r : Review) (state : String) :
    rawReview.decode (reviewTree r state) = .ok ⟨⟨r.reviewer⟩, state, r.association.name⟩ := by
  simp [rawReview, reviewTree, Shape.decode, decodeMembers, Fields.decodeMember, Fields.empty,
    Fields.finish, decode_personTree]

/-- The tree of a repository is read as its full name. -/
theorem decode_repository (fullName : String) :
    repository.decode (.object [("full_name", .text fullName)]) = .ok fullName :=
  decode_holding rfl

/-- The tree of an installation is read as its number. -/
theorem decode_installation (id : UInt64) :
    installation.decode (.object [("id", .number (.natural id))]) = .ok id :=
  decode_holding rfl

/-- A payload is looked at first for what happened, and nothing else of it counts. -/
theorem decode_action_pullRequest (e : PullRequestEvent) :
    Webhook.action.decode e.payload = .ok e.action.name := by
  rcases e with ⟨r, action, pr, _ | i, _ | l⟩ <;>
    simp [PullRequestEvent.payload, originMembers, Webhook.action, holding, Shape.decode, decodeMembers,
      Fields.decodeMember, Fields.empty, Fields.finish]

/-- The payload of a review's event tells what happened. -/
theorem decode_action_review (e : ReviewEvent) (state : String) :
    Webhook.action.decode (e.payload state) = .ok e.action.name := by
  rcases e with ⟨r, action, review, pr, _ | i⟩ <;>
    simp [ReviewEvent.payload, originMembers, Webhook.action, holding, Shape.decode, decodeMembers,
      Fields.decodeMember, Fields.empty, Fields.finish]

/-- What a payload that tells of a pull request holds. -/
def rawEvent (e : PullRequestEvent) : PullRequestPayload where
  pr := rawSnapshot e.pr
  repository := e.repository.fullName
  installation := e.installation.map Installation.value
  label := e.label.map .mk

/-- What a payload that tells of a review holds. -/
def rawReviewEvent (e : ReviewEvent) (state : String) : ReviewPayload where
  review := ⟨⟨e.review.reviewer⟩, state, e.review.association.name⟩
  pr := rawSnapshot e.pr
  repository := e.repository.fullName
  installation := e.installation.map Installation.value

/-- The payload of an event is read as all that is asked for of it. -/
theorem decode_pullRequestPayload (e : PullRequestEvent) :
    pullRequestPayload.decode e.payload = .ok (rawEvent e) := by
  have hlabel (name : String) : namedLabel.decode (.object [("name", .text name)]) = .ok ⟨name⟩ :=
    decode_namedTree name
  rcases e with ⟨r, action, pr, _ | i, _ | l⟩ <;>
    simp [PullRequestEvent.payload, originMembers, pullRequestPayload, pullRequestPayloadFields,
      Shape.decode, Shape.absent, decodeMembers, Fields.decodeMember, Fields.empty, Fields.finish,
      decode_snapshotTree, decode_repository, decode_installation, namedTree, hlabel, rawEvent]

theorem decode_reviewPayload (e : ReviewEvent) (state : String) :
    reviewPayload.decode (e.payload state) = .ok (rawReviewEvent e state) := by
  rcases e with ⟨r, action, review, pr, _ | i⟩ <;>
    simp [ReviewEvent.payload, originMembers, reviewPayload, reviewPayloadFields,
      Shape.decode, Shape.absent, decodeMembers, Fields.decodeMember, Fields.empty, Fields.finish,
      decode_snapshotTree, decode_repository, decode_installation, decode_reviewTree, rawReviewEvent]

end Webhook

/-! ## States of reviews -/

/-- The text is the name of the state, each of its letters small or capital. -/
def ReviewState.IsSpelled (s : ReviewState) (text : String) : Prop :=
  text.toList.map Char.toUpper = s.capitalName.toList

instance (s : ReviewState) (text : String) : Decidable (s.IsSpelled text) :=
  inferInstanceAs (Decidable (_ = _))

/-- The name of a state is the same in capital letters, whatever letters it is spelled in. -/
theorem ReviewState.IsSpelled.toCapitals {s : ReviewState} {text : String} (h : s.IsSpelled text) :
    Text.toCapitals text = s.capitalName := by
  have hname : s.capitalName.toList.all (·.toNat < 0x80) = true := by cases s <;> decide
  exact Text.toCapitals_of_map_toUpper hname h

/-! ## Events -/

/-- What an event has that a payload can tell of: a repository with a full name, and a label if it is
about one. -/
structure Event.Reportable (e : Event) : Prop where
  repository : e.repository.Proper
  label : ∀ p, e = .pullRequest p → p.action.changesLabel = true → p.label.isSome = true

namespace Webhook

open PullGate.Json

/-- What is read of a snapshot makes the snapshot. -/
theorem snapshot_rawSnapshot (p : Snapshot) : (rawSnapshot p).snapshot = p := by
  have hlabels := LabelSet.ofNames_map_name p.labels
  simp only [PullRequest.snapshot, rawSnapshot, List.map_map, Function.comp_def, Option.getD_some,
    Association.ofText_name]
  rw [hlabels]
  simp

/-- The full name of a repository is parsed as the repository. -/
theorem parseRepository_fullName {r : Repository} (h : r.Proper) :
    parseRepository r.fullName = .ok r := by
  rw [parseRepository, h.ofFullName?_fullName]

/-- What is read of a reportable event makes the event. -/
theorem event_rawEvent {e : PullRequestEvent} (he : (Event.pullRequest e).Reportable) :
    (rawEvent e).event e.action = .ok e := by
  have hrepository : parseRepository e.repository.fullName = .ok e.repository :=
    parseRepository_fullName he.repository
  -- a label that was put on or taken off is told of
  have hlabel : ¬ (e.action.changesLabel && (rawEvent e).label.isNone) = true := by
    intro h
    obtain ⟨hchanges, hnone⟩ := Bool.and_eq_true_iff.1 h
    have hsome := he.label e rfl hchanges
    rw [rawEvent, Option.isNone_map] at hnone
    simp [Option.isNone_iff_eq_none.1 hnone] at hsome
  rw [PullRequestPayload.event, if_neg hlabel]
  simp only [rawEvent, hrepository, snapshot_rawSnapshot, Option.map_map, Function.comp_def]
  simp

theorem event_rawReviewEvent {e : ReviewEvent} (he : (Event.review e).Reportable) {state : String}
    (hstate : e.review.state.IsSpelled state) : (rawReviewEvent e state).event e.action = .ok e := by
  have hrepository : parseRepository e.repository.fullName = .ok e.repository :=
    parseRepository_fullName he.repository
  simp only [ReviewPayload.event, rawReviewEvent, hstate.toCapitals,
    ReviewState.ofCapitalName?_capitalName, Association.ofText_name, hrepository,
    snapshot_rawSnapshot, Option.map_map, Function.comp_def]
  simp

/-! ## Payloads as texts -/

/-- The tree of a pull request nests three deep at most. -/
theorem depth_snapshotTree (p : Snapshot) : (snapshotTree p).depth ≤ 3 := by
  have hlabels : Value.itemsDepth (p.labels.toList.map fun l => namedTree l.name) ≤ 1 :=
    Value.itemsDepth_map_le _ fun _ _ => Nat.le_refl 1
  have hreviewers : Value.itemsDepth (p.reviewers.map personTree) ≤ 1 :=
    Value.itemsDepth_map_le _ fun _ _ => Nat.le_refl 1
  simp only [snapshotTree, Value.depth, Value.membersDepth, show ∀ s, (personTree s).depth = 1 from
    fun _ => rfl]
  omega

/-- A payload is not too deep to be read. -/
theorem depth_payload (e : Event) (spell : ReviewState → String) :
    (e.payload spell).depth < depthLimit := by
  rcases e with ⟨r, action, pr, _ | i, _ | l⟩ | ⟨r, action, review, pr, _ | i⟩
  all_goals
    have hpr := depth_snapshotTree pr
    simp only [Event.payload, PullRequestEvent.payload, ReviewEvent.payload, originMembers, reviewTree,
      personTree, namedTree, Option.toList, List.map_cons, List.map_nil, List.cons_append,
      List.nil_append, Value.depth, Value.membersDepth, depthLimit]
    omega

/-- Its numbers are exact. -/
theorem isExact_snapshotTree (p : Snapshot) : (snapshotTree p).isExact = true := by
  have hlabels : Value.areExact (p.labels.toList.map fun l => namedTree l.name) = true :=
    Value.areExact_map _ fun _ _ => rfl
  have hreviewers : Value.areExact (p.reviewers.map personTree) = true :=
    Value.areExact_map _ fun _ _ => rfl
  simp [snapshotTree, Value.isExact, Value.membersAreExact, Number.isExact, hlabels, hreviewers,
    show ∀ s, (personTree s).isExact = true from fun _ => rfl]

/-- A payload is written exactly. -/
theorem isExact_payload (e : Event) (spell : ReviewState → String) :
    (e.payload spell).isExact = true := by
  rcases e with ⟨r, action, pr, _ | i, _ | l⟩ | ⟨r, action, review, pr, _ | i⟩ <;>
    simp [Event.payload, PullRequestEvent.payload, ReviewEvent.payload, originMembers, reviewTree,
      personTree, namedTree, Value.isExact, Value.membersAreExact, Number.isExact,
      isExact_snapshotTree]

/-- A payload that tells of a pull request is read as its event. -/
theorem parsePullRequest_payload {e : PullRequestEvent} (he : (Event.pullRequest e).Reportable)
    {bytes : List UInt8} (h : SpellsWhole bytes e.payload) :
    parsePullRequest bytes = .ok (some e) := by
  -- the same bytes are read twice, for the action and for the event
  have hdepth := depth_payload (.pullRequest e) ReviewState.name
  have haction := Shape.ofBytes_of_decode h hdepth (decode_action_pullRequest e)
  have hpayload := Shape.ofBytes_of_decode h hdepth (decode_pullRequestPayload e)
  simp only [parsePullRequest, haction, Action.ofName?_name, hpayload, event_rawEvent he]

/-- A payload that tells of a review is read as its event. -/
theorem parseReview_payload {e : ReviewEvent} (he : (Event.review e).Reportable) {state : String}
    (hstate : e.review.state.IsSpelled state) {bytes : List UInt8}
    (h : SpellsWhole bytes (e.payload state)) : parseReview bytes = .ok (some e) := by
  have hdepth := depth_payload (.review e) fun _ => state
  have haction := Shape.ofBytes_of_decode h hdepth (decode_action_review e state)
  have hpayload := Shape.ofBytes_of_decode h hdepth (decode_reviewPayload e state)
  simp only [parseReview, haction, ReviewAction.ofName?_name, hpayload,
    event_rawReviewEvent he hstate]

/-- **What is told is what is handled.** There is a text of the payload that tells of an event, and every
text of it, however its parts are spelled, is read as the event. -/
theorem parse_payload {e : Event} (he : e.Reportable) {spell : ReviewState → String}
    (hspell : ∀ s : ReviewState, s.IsSpelled (spell s)) :
    SpellsWhole (e.payload spell).bytes (e.payload spell) ∧
      ∀ bytes, SpellsWhole bytes (e.payload spell) → parse e.type bytes = .ok (some e) := by
  refine ⟨(Value.spells_bytes (isExact_payload e spell)).whole, fun bytes h => ?_⟩
  · cases e with
    | pullRequest e =>
      have hread := parsePullRequest_payload he h
      simp [parse, Event.type, hread]
    | review e =>
      have hread := parseReview_payload he (hspell e.review.state) h
      simp [parse, Event.type, hread]

/-- A label that the gate does not know is put on a pull request. -/
def labeling : Event := .pullRequest {
  repository := ⟨"spam", "eggs"⟩
  action := .labeled
  pr := {
    number := ⟨18446744073709551615⟩
    url := ""
    htmlUrl := "/spam/eggs/1"
    body := "“\"\\/\n\u0001😀”"
    author := "ẞ"
    association := .firstTimer
    labels := .ofList [.requireTests, .invalid]
    draft := true
    reviewers := ["a", "b"]
    head := ⟨"c0ffee"⟩ }
  installation := none
  label := some "wip" }

/-- The same pull request is approved. -/
def approval : Event := .review {
  repository := labeling.repository
  action := .submitted
  review := ⟨.approved, .owner, "a"⟩
  pr := labeling.pr
  installation := some ⟨7⟩ }

/-- Both events are read from what is written of them, whatever letters the state is in. -/
theorem parse_payload_labeling_approval :
    parse labeling.type (labeling.payload ReviewState.name).bytes = .ok (some labeling) ∧
      parse approval.type (approval.payload ReviewState.capitalName).bytes = .ok (some approval) := by
  have hrepository : labeling.repository.Proper := ⟨by decide, by decide, by decide, by decide⟩
  have hlabel : ∀ p, labeling = .pullRequest p → p.action.changesLabel = true →
      p.label.isSome = true := by
    intro p h _
    rw [← Event.pullRequest.inj h]
    rfl
  have hlabeling : labeling.Reportable := ⟨hrepository, hlabel⟩
  have happroval : approval.Reportable := ⟨hrepository, fun _ h => Event.noConfusion h⟩
  have hname : ∀ s : ReviewState, s.IsSpelled s.name := by
    intro s
    cases s <;> decide
  have hcapital : ∀ s : ReviewState, s.IsSpelled s.capitalName := by
    intro s
    cases s <;> decide
  obtain ⟨htext, hread⟩ := parse_payload hlabeling hname
  obtain ⟨htext', hread'⟩ := parse_payload happroval hcapital
  exact ⟨hread _ htext, hread' _ htext'⟩

end Webhook

end PullGate
