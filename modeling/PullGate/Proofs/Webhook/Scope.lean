import PullGate.Proofs.Admission
import PullGate.Proofs.Json.Accepting
import PullGate.Proofs.Json.Members
import PullGate.Proofs.Webhook.Overlooked
import PullGate.Proofs.Webhook.Report
/-!
# Where a delivery plays

A text is the full name of a repository just if it is an owner and a name with one slash between, and a
repository that was read is written as it was read. So the full name in a payload tells which
interpreter is asked, and no other counts (`fullName_decides_scope`).
-/

namespace PullGate

open PullGate.Json

namespace Webhook

/-! ## The full name in a payload -/

/-- The text that a value is. -/
def textOf? : Raw → Option String
  | .text chars => text? chars
  | _ => none

/-- The full name in what is said of a repository: an object, or a list with the name alone. -/
def fullNameOf? : Raw → Option String
  | .list [v] => textOf? v
  | v => (v.member? "full_name").bind textOf?

/-- The full name of a payload's repository. -/
def fullName? (t : Raw) : Option String := (t.member? "repository").bind fullNameOf?

theorem mean?_text (t : Raw) : Shape.text.mean? t = textOf? t := by
  cases t <;> simp only [Shape.mean?, textOf?]

/-- A repository that is read has its full name there. -/
theorem fullNameOf?_of_mean? {v : Raw} {name : String} (h : repository.mean? v = some name) :
    fullNameOf? v = some name := by
  rw [repository, holding, Shape.mean?_via] at h
  obtain ⟨⟨text, ⟨⟩⟩, hrecord, rfl⟩ := Option.map_eq_some_iff.1 h
  cases v with
  | object members =>
    obtain ⟨v, hmember, hv⟩ := (Fields.holdsAt_head rfl).exists_member hrecord
    rw [mean?_text] at hv
    simpa [fullNameOf?, hmember] using hv
  | list items =>
    rw [Shape.mean?] at hrecord
    obtain ⟨v, rfl, hv⟩ := Fields.exists_of_take?_one hrecord
    rwa [mean?_text] at hv
  | _ => simp [Shape.mean?] at hrecord

/-- A value that says what happened is an object, or a list with one item. -/
theorem cases_of_action {t : Raw} {name : String} (h : action.mean? t = some name) :
    (∃ members, t = .object members) ∨ ∃ v, t = .list [v] := by
  rw [action, holding, Shape.mean?_via] at h
  obtain ⟨⟨text, ⟨⟩⟩, hrecord, -⟩ := Option.map_eq_some_iff.1 h
  cases t with
  | object members => exact .inl ⟨members, rfl⟩
  | list items =>
    rw [Shape.mean?] at hrecord
    obtain ⟨v, rfl, -⟩ := Fields.exists_of_take?_one hrecord
    exact .inr ⟨v, rfl⟩
  | _ => simp [Shape.mean?] at hrecord

/-- A payload that is read as a record with a repository has the repository's full name. -/
theorem fullName?_of_mean? {α : Type} {noun name : String} {f : Fields α} {part : α → String}
    {t : Raw} {a : α} (hpart : f.HoldsAt "repository" (fun t => repository.mean? t) part)
    (hsingle : ∀ v, f.take? [v] = none) (haction : action.mean? t = some name)
    (h : (Shape.record noun f).mean? t = some a) : fullName? t = some (part a) := by
  rcases cases_of_action haction with ⟨members, rfl⟩ | ⟨v, rfl⟩
  · obtain ⟨v, hmember, hv⟩ := hpart.exists_member h
    rw [fullName?, hmember]
    exact fullNameOf?_of_mean? hv
  · -- what is long enough to say what happened is too short for the rest
    rw [Shape.mean?, hsingle] at h
    cases h

/-- A payload that is read about a pull request has the full name of its repository there. -/
theorem fullName?_pullRequestPayload {t : Raw} {name : String} {d : PullRequestPayload}
    (haction : action.mean? t = some name) (h : pullRequestPayload.mean? t = some d) :
    fullName? t = some d.repository := by
  rw [pullRequestPayload, Shape.mean?_via] at h
  obtain ⟨⟨pr, name, installation, label, ⟨⟩⟩, hrecord, rfl⟩ := Option.map_eq_some_iff.1 h
  have hpart : pullRequestPayloadFields.HoldsAt "repository" (fun t => repository.mean? t) (·.2.1) :=
    (Fields.holdsAt_head rfl).tail (by decide) _ _
  have hsingle (v : Raw) : pullRequestPayloadFields.take? [v] = none := by
    simp [pullRequestPayloadFields, Fields.take?]
  exact (fullName?_of_mean? hpart hsingle haction hrecord :)

theorem fullName?_reviewPayload {t : Raw} {name : String} {d : ReviewPayload}
    (haction : action.mean? t = some name) (h : reviewPayload.mean? t = some d) :
    fullName? t = some d.repository := by
  rw [reviewPayload, Shape.mean?_via] at h
  obtain ⟨⟨review, pr, name, installation, ⟨⟩⟩, hrecord, rfl⟩ := Option.map_eq_some_iff.1 h
  have hpart : reviewPayloadFields.HoldsAt "repository" (fun t => repository.mean? t) (·.2.2.1) :=
    ((Fields.holdsAt_head rfl).tail (by decide) _ _).tail (by decide) _ _
  have hsingle (v : Raw) : reviewPayloadFields.take? [v] = none := by
    simp [reviewPayloadFields, Fields.take?]
  exact (fullName?_of_mean? hpart hsingle haction hrecord :)

/-! ## The repository of an event -/

/-- The repository of a text has the text as its full name. -/
theorem fullName_of_parseRepository {text : String} {r : Repository}
    (h : parseRepository text = .ok r) : r.fullName = text := by
  unfold parseRepository at h
  split at h
  · next hname =>
    cases h
    exact (Repository.ofFullName?_eq_some_iff.1 hname).2
  · cases h

/-- The event of a payload plays in the repository whose full name the payload holds. -/
theorem fullName?_of_parsePullRequest {payload : List UInt8} {e : PullRequestEvent}
    (h : parsePullRequest payload = .ok (some e)) {t : Raw} (ht : StandsWholly payload t) :
    fullName? t = some e.repository.fullName := by
  obtain ⟨name, _, d, haction, -, hd, hevent⟩ := exists_payload_of_parsePullRequest h
  obtain ⟨-, repository, hrepository, rfl⟩ := d.exists_of_event hevent
  have hname : action.mean? t = some name :=
    Shape.mean?_of_ofBytes isPlain_action (by decide) ht haction
  have hmean : pullRequestPayload.mean? t = some d :=
    Shape.mean?_of_ofBytes isPlain_pullRequestPayload (by decide) ht hd
  rw [fullName?_pullRequestPayload hname hmean, ← fullName_of_parseRepository hrepository]

/-- The event about a review plays where its payload says. -/
theorem fullName?_of_parseReview {payload : List UInt8} {e : ReviewEvent}
    (h : parseReview payload = .ok (some e)) {t : Raw} (ht : StandsWholly payload t) :
    fullName? t = some e.repository.fullName := by
  obtain ⟨name, _, d, haction, -, hd, hevent⟩ := exists_payload_of_parseReview h
  obtain ⟨_, -, repository, hrepository, rfl⟩ := d.exists_of_event hevent
  have hname : action.mean? t = some name :=
    Shape.mean?_of_ofBytes isPlain_action (by decide) ht haction
  have hmean : reviewPayload.mean? t = some d :=
    Shape.mean?_of_ofBytes isPlain_reviewPayload (by decide) ht hd
  rw [fullName?_reviewPayload hname hmean, ← fullName_of_parseRepository hrepository]

theorem fullName?_of_parse {type : String} {payload : List UInt8} {event : Event}
    (h : parse type payload = .ok (some event)) {t : Raw} (ht : StandsWholly payload t) :
    fullName? t = some event.repository.fullName := by
  obtain ⟨e, rfl, hread⟩ | ⟨e, rfl, hread⟩ := parsed_of_parse h
  · exact fullName?_of_parsePullRequest hread ht
  · exact fullName?_of_parseReview hread ht

/-- A payload that tells of an event is a JSON text. -/
theorem exists_standsWholly_of_parse {type : String} {payload : List UInt8} {event : Event}
    (h : parse type payload = .ok (some event)) : ∃ t, StandsWholly payload t := by
  -- whatever its type, it is looked at first for what happened
  have haction : ∃ name, action.ofBytes payload = .ok name := by
    obtain ⟨e, -, hread⟩ | ⟨e, -, hread⟩ := parsed_of_parse h
    · obtain ⟨name, _, _, haction, -⟩ := exists_payload_of_parsePullRequest hread
      exact ⟨name, haction⟩
    · obtain ⟨name, _, _, haction, -⟩ := exists_payload_of_parseReview hread
      exact ⟨name, haction⟩
  obtain ⟨name, hname⟩ := haction
  exact Shape.exists_standsWholly isPlain_action hname

/-! ## Scopes -/

/-- **The full name decides where a delivery plays.** The texts that stand for a repository are those
with an owner and a name, neither of them empty or with a slash in it, and one slash between; such a
repository is written as the same text, and is what its own text stands for. A payload that tells of an
event is a JSON text, and the event's repository is written as the full name that it holds: handlers
run with the interpreter of this repository, and nothing that is answered or asked for depends on the
interpreters of others. -/
theorem fullName_decides_scope :
    (∀ text, (∃ r, Repository.ofFullName? text = some r) ↔ ∃ owner name : String,
      owner ≠ "" ∧ name ≠ "" ∧ '/' ∉ owner.toList ∧ '/' ∉ name.toList ∧
        text = owner ++ "/" ++ name) ∧
    (∀ text r, Repository.ofFullName? text = some r → r.fullName = text) ∧
    (∀ owner name : String, owner ≠ "" → name ≠ "" → '/' ∉ owner.toList → '/' ∉ name.toList →
      Repository.ofFullName? (Repository.fullName ⟨owner, name⟩) = some ⟨owner, name⟩) ∧
    (∀ type payload event, parse type payload = .ok (some event) →
      (∃ t, StandsWholly payload t) ∧
        ∀ t, StandsWholly payload t → fullName? t = some event.repository.fullName) ∧
    ∀ (s : Service) (r : Service.Request) {σ : Type} (host : Repository → Host σ) (state : σ),
      (∀ event, r.IsDelivery → s.TellsOf r event → s.answer host r state =
        let (trace, state) := (dispatch s.analyzer s.policy event).run (host event.repository) state
        ((Service.handled trace.result, trace.effects), state)) ∧
      ∀ host' : Repository → Host σ, (∀ repository t, StandsWholly r.body t →
        fullName? t = some repository.fullName → host repository = host' repository) →
          s.answer host r state = s.answer host' r state := by
  refine ⟨fun text => ⟨?_, ?_⟩, ?_, ?_, ?_, fun s r σ host state => ⟨?_, ?_⟩⟩
  · rintro ⟨r, hr⟩
    obtain ⟨hproper, hname⟩ := Repository.ofFullName?_eq_some_iff.1 hr
    exact ⟨r.owner, r.name, hproper.owner_ne, hproper.name_ne, hproper.owner_no_slash,
      hproper.name_no_slash, hname.symm⟩
  · rintro ⟨owner, name, howner, hname, howner', hname', rfl⟩
    have hproper : Repository.Proper ⟨owner, name⟩ := ⟨howner, hname, howner', hname'⟩
    exact ⟨_, hproper.ofFullName?_fullName⟩
  · intro text r hr
    exact (Repository.ofFullName?_eq_some_iff.1 hr).2
  · intro owner name howner hname howner' hname'
    exact Repository.Proper.ofFullName?_fullName ⟨howner, hname, howner', hname'⟩
  · intro type payload event hparse
    exact ⟨exists_standsWholly_of_parse hparse, fun t => fullName?_of_parse hparse⟩
  · intro event hr htells
    rw [Service.answer_of_isDelivery hr]
    exact Service.deliver_of_event (Service.accept_eq_event_iff.2 ⟨hr.length_le, htells⟩)
  · intro host' hsame
    refine Service.answer_congr fun event ⟨type, _, hparse⟩ => ?_
    obtain ⟨t, ht⟩ := exists_standsWholly_of_parse hparse
    exact hsame _ t ht (fullName?_of_parse hparse ht)

/-- A request that delivers a pull request that was opened. -/
def opening : Service.Request where
  method := "POST"
  target := "/webhook?"
  headers := [("X-GitHub-Delivery", ascii "1"), ("X-GitHub-Event", ascii "pull_request")]
  body := (opened.payload ReviewState.name).bytes

set_option maxRecDepth 2000 in
/-- The full name in the payload is that of the event's repository, and it is there that the event is
handled. -/
theorem fullName_decides_scope_opening :
    (∃ r, Repository.ofFullName? "spam/eggs" = some r) ∧
    Repository.ofFullName? (Repository.fullName ⟨"spam", "eggs"⟩) = some ⟨"spam", "eggs"⟩ ∧
    (∃ t, StandsWholly opening.body t ∧ fullName? t = some "spam/eggs") ∧
    ∀ (analyzer : Compliance.Analyzer) (policy : Policy) (host : Repository → Host Unit),
      Service.answer ⟨analyzer, policy, none⟩ host opening () =
        let (trace, state) := (dispatch analyzer policy opened).run (host ⟨"spam", "eggs"⟩) ()
        ((Service.handled trace.result, trace.effects), state) := by
  have hparse : parse "pull_request" opening.body = .ok (some opened) := by
    have hreportable : opened.Reportable := by
      refine ⟨⟨by decide, by decide, by decide, by decide⟩, fun p h hchanges => ?_⟩
      rw [← Event.pullRequest.inj h] at hchanges
      cases hchanges
    have hspells := (Value.spells_bytes (isExact_payload opened ReviewState.name)).whole
    have hread := parsePullRequest_payload hreportable hspells
    simp only [parse, opening, if_true, hread]
    rfl
  have hdelivery : opening.IsDelivery := ⟨rfl, by decide, by decide⟩
  obtain ⟨hgrammar, -, hback, hname, hscope⟩ := fullName_decides_scope
  refine ⟨(hgrammar _).2 ⟨"spam", "eggs", by decide, by decide, by decide, by decide, rfl⟩,
    hback _ _ (by decide) (by decide) (by decide) (by decide), ?_, fun analyzer policy host => ?_⟩
  · obtain ⟨⟨t, ht⟩, hnames⟩ := hname _ _ _ hparse
    exact ⟨t, ht, hnames t ht⟩
  · have hcleared : Service.Cleared ⟨analyzer, policy, none⟩ opening "pull_request" :=
      ⟨by decide, ⟨"1", by decide⟩, fun _ hsecret => by cases hsecret⟩
    exact (hscope ⟨analyzer, policy, none⟩ opening host ()).1 opened hdelivery ⟨_, hcleared, hparse⟩

end Webhook

end PullGate
