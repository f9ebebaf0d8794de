import PullGate.Proofs.Turn
import PullGate.Service
/-!
# Admission

What a request has passed when something is done for it, and what it is answered otherwise. A delivery
is `Cleared` once its headers are there and it is verified; `accept_cases` says what else its checks
can come to, in their order. From this follow the answers: a signature that is not accepted is
answered before the payload is looked at (`answer_of_unverified`), and of all other deliveries the
status says where they ended.
-/

namespace PullGate

open PullGate.Compliance (Analyzer)

/-- What is said about an event that was handled without a failure. -/
theorem handling_of_plays {analyzer : Analyzer} {policy : Policy} {event : Event} {xs : Transcript}
    {d : Handling} (h : (dispatch analyzer policy event).Plays xs (.ok d)) : d = event.handling := by
  rw [dispatch_eq_runHandlers] at h
  obtain ⟨_, _, _, -, hend, -⟩ := h.of_bind_ok
  obtain ⟨-, hd⟩ := Program.plays_done_iff.1 hend
  exact Except.ok.inj hd

/-- Nothing is asked for if an event has no handlers. -/
theorem dispatch_of_handlers_eq_nil {analyzer : Analyzer} {policy : Policy} {event : Event}
    (h : event.handlers = []) : dispatch analyzer policy event = .done .ignored := by
  unfold dispatch
  rw [h]
  rfl

namespace Service

/-! ## Requests that are deliveries -/

namespace Request

/-- The request is to handle a delivery, of a length that is read. -/
structure IsDelivery (r : Request) : Prop where
  method : r.method = "POST"
  path : r.path = "/webhook"
  length_le : r.body.length ≤ bodyLimit

/-- A header with this name is there, in small or capital letters, and its value is this text, of
visible characters. -/
def Shows (r : Request) (name text : String) : Prop :=
  ∃ h ∈ r.headers, h.1.toList.map Char.toLower = name.toList ∧
    (∀ b ∈ h.2, isVisible b = true) ∧ text = String.ofList (h.2.map fun b => Char.ofNat b.toNat)

/-- A header that counts is there, in visible characters. -/
theorem shows_of_header? {r : Request} {name text : String} (h : r.header? name = some text) :
    r.Shows name text := by
  unfold header? at h
  split at h
  · rename_i key value hfind
    have hname := List.find?_some hfind
    split at h
    · rename_i hvisible
      cases h
      exact ⟨_, List.mem_of_find?_eq_some hfind, of_decide_eq_true hname,
        List.all_eq_true.1 hvisible, rfl⟩
    · cases h
  · cases h

end Request

/-! ## Checks of deliveries -/

section

variable (s : Service) (r : Request)

/-- The delivery says of what type it is and which one it is, and it is verified under the secret, if
there is one. -/
structure Cleared (type : String) : Prop where
  type_eq : r.header? eventHeader = some type
  exists_delivery : ∃ id, r.header? deliveryHeader = some id
  verified : ∀ secret, s.secret = some secret →
    secret.verify r.body (r.header? signatureHeader) = .ok ()

/-- The delivery says of what type it is and which one it is, but there is a secret under which its
body is not verified. -/
structure Unverified (e : SignatureError) : Prop where
  exists_type : ∃ type, r.header? eventHeader = some type
  exists_delivery : ∃ id, r.header? deliveryHeader = some id
  refused : ∃ secret, s.secret = some secret ∧
    secret.verify r.body (r.header? signatureHeader) = .error e

/-- The delivery does not say of what type it is or which one it is, or its payload is none of its
type. -/
def Request.Malformed (r : Request) : Prop :=
  r.header? eventHeader = none ∨ r.header? deliveryHeader = none ∨
    ∃ type e, r.header? eventHeader = some type ∧ Webhook.parse type r.body = .error e

/-- The delivery passes all checks and tells of an event. -/
def TellsOf (event : Event) : Prop :=
  ∃ type, s.Cleared r type ∧ Webhook.parse type r.body = .ok (some event)

variable {s r}

/-- A request is cleared for one type alone. -/
theorem Cleared.eq {type type' : String} (h : s.Cleared r type) (h' : s.Cleared r type') :
    type = type' :=
  Option.some.inj (h.type_eq.symm.trans h'.type_eq)

/-- A request tells of one event alone. -/
theorem TellsOf.eq {event event' : Event} (h : s.TellsOf r event) (h' : s.TellsOf r event') :
    event = event' := by
  obtain ⟨type, hcleared, hparse⟩ := h
  obtain ⟨type', hcleared', hparse'⟩ := h'
  obtain rfl := hcleared.eq hcleared'
  exact Option.some.inj (Except.ok.inj (hparse.symm.trans hparse'))

/-- What is cleared is malformed only if its payload is. -/
theorem Cleared.malformed_iff {type : String} (h : s.Cleared r type) :
    r.Malformed ↔ ∃ e, Webhook.parse type r.body = .error e := by
  obtain ⟨id, hid⟩ := h.exists_delivery
  constructor
  · rintro (hnone | hnone | ⟨type', e, htype, hparse⟩)
    · cases hnone.symm.trans h.type_eq
    · cases hnone.symm.trans hid
    · obtain rfl : type = type' := Option.some.inj (h.type_eq.symm.trans htype)
      exact ⟨e, hparse⟩
  · rintro ⟨e, hparse⟩
    exact .inr (.inr ⟨type, e, h.type_eq, hparse⟩)

/-- A request that tells of an event is not malformed. -/
theorem TellsOf.not_malformed {event : Event} (h : s.TellsOf r event) : ¬ r.Malformed := by
  obtain ⟨type, hcleared, hparse⟩ := h
  intro hmalformed
  obtain ⟨e, hfailed⟩ := hcleared.malformed_iff.1 hmalformed
  cases hparse.symm.trans hfailed

/-- **The checks of a delivery.** A header is missing; or the body is not verified; or the payload is
read. -/
theorem accept_cases (h : r.body.length ≤ bodyLimit) :
    ((r.header? eventHeader = none ∨ r.header? deliveryHeader = none) ∧
      ∃ name, s.accept r = .error (.missingHeader name)) ∨
    (∃ e, s.Unverified r e ∧ s.accept r = .error (.signature e)) ∨
    ∃ type, s.Cleared r type ∧ s.accept r = (Webhook.parse type r.body).mapError .payload := by
  unfold accept
  rw [if_neg (Nat.not_lt.2 h)]
  rcases htype : r.header? eventHeader with _ | type
  · exact .inl ⟨.inl rfl, _, rfl⟩
  rcases hid : r.header? deliveryHeader with _ | id
  · exact .inl ⟨.inr rfl, _, rfl⟩
  -- both headers are there, so it is the secret that decides
  right
  rcases hsecret : s.secret with _ | secret
  · right
    refine ⟨type, ⟨htype, ⟨id, hid⟩, fun secret h => ?_⟩, ?_⟩
    · cases hsecret.symm.trans h
    · simp only [verify, hsecret]
  · rcases hverify : secret.verify r.body (r.header? signatureHeader) with e | _
    · exact .inl ⟨e, ⟨⟨type, htype⟩, ⟨id, hid⟩, secret, hsecret, hverify⟩,
        by simp only [verify, hsecret, hverify]; rfl⟩
    · right
      refine ⟨type, ⟨htype, ⟨id, hid⟩, fun secret' h => ?_⟩, ?_⟩
      · cases hsecret.symm.trans h
        exact hverify
      · simp only [verify, hsecret, hverify]
        rfl

/-- What is accepted with an event is short enough and tells of it. -/
theorem accept_eq_event_iff {event : Event} :
    s.accept r = .ok (some event) ↔ r.body.length ≤ bodyLimit ∧ s.TellsOf r event := by
  -- the length is looked at before everything else
  by_cases hlong : bodyLimit < r.body.length
  · have htoo : s.accept r = .error .tooLong := if_pos hlong
    simp [htoo, Nat.not_le.2 hlong]
  have hlength := Nat.le_of_not_lt hlong
  rcases s.accept_cases hlength with
    ⟨hmissing, _, haccept⟩ | ⟨e, he, haccept⟩ | ⟨type, hcleared, haccept⟩ <;> rw [haccept]
  · refine ⟨nofun, fun ⟨_, htells⟩ => ?_⟩
    exact absurd (hmissing.imp id .inl : r.Malformed) htells.not_malformed
  · refine ⟨nofun, fun ⟨_, _, hcleared, _⟩ => ?_⟩
    obtain ⟨secret, hsecret, hrefused⟩ := he.refused
    cases hrefused.symm.trans (hcleared.verified secret hsecret)
  · constructor
    · intro hparse
      rcases hread : Webhook.parse type r.body with _ | found <;> rw [hread] at hparse <;> cases hparse
      exact ⟨hlength, type, hcleared, hread⟩
    · rintro ⟨-, type', hcleared', hparse⟩
      obtain rfl := hcleared.eq hcleared'
      rw [hparse]
      rfl

end

/-! ## Answers -/

section

variable {s : Service} {σ : Type} {host : Repository → Host σ} {r : Request} {state : σ}

/-- What is posted as a delivery is answered as one. -/
theorem answer_of_isDelivery (h : r.IsDelivery) :
    s.answer host r state = s.deliver host r state := by
  have hother : r.path ≠ "/health" := by
    rw [h.path]
    decide
  rw [answer, if_neg hother, if_pos h.path, if_pos h.method]

/-- A delivery that is refused has no effects. -/
theorem deliver_of_error {e : Refusal} (h : s.accept r = .error e) :
    s.deliver host r state = ((e.answer, []), state) := by
  simp only [deliver, h]

theorem deliver_of_eventless (h : s.accept r = .ok none) :
    s.deliver host r state = ((⟨200, "Ignored"⟩, []), state) := by
  simp only [deliver, h]

/-- What a delivery with an event is answered comes of the handlers' run at the host of its
repository. -/
theorem deliver_of_event {event : Event} (h : s.accept r = .ok (some event)) :
    s.deliver host r state =
      let (trace, state) := (dispatch s.analyzer s.policy event).run (host event.repository) state
      ((handled trace.result, trace.effects), state) := by
  simp only [deliver, h]

/-- No interpreter counts but that of the repository that the event belongs to. -/
theorem answer_congr {host' : Repository → Host σ} (h : ∀ event, s.TellsOf r event →
    host event.repository = host' event.repository) :
    s.answer host r state = s.answer host' r state := by
  unfold answer
  split
  · rfl
  split
  · split
    · rcases haccept : s.accept r with e | _ | event
      · rw [deliver_of_error haccept, deliver_of_error haccept]
      · rw [deliver_of_eventless haccept, deliver_of_eventless haccept]
      · rw [deliver_of_event haccept, deliver_of_event haccept,
          h event (accept_eq_event_iff.1 haccept).2]
    · rfl
  · rfl

/-- A request for which something is done is a delivery. -/
theorem isDelivery_of_effects_ne_nil (h : (s.answer host r state).1.2 ≠ []) : r.IsDelivery := by
  unfold answer at h
  split at h
  · exact absurd rfl h
  · split at h
    · rename_i hpath
      split at h
      · rename_i hmethod
        refine ⟨hmethod, hpath, Nat.le_of_not_lt fun hlong => h ?_⟩
        have htoo : s.accept r = .error .tooLong := if_pos hlong
        rw [deliver_of_error htoo]
      · exact absurd rfl h
    · exact absurd rfl h

/-- Whatever the body holds, a signature that is not accepted decides the answer. -/
theorem answer_of_unverified (hr : r.IsDelivery) {e : SignatureError} (h : s.Unverified r e) :
    s.answer host r state = (((Refusal.signature e).answer, []), state) := by
  rw [answer_of_isDelivery hr]
  rcases s.accept_cases hr.length_le with ⟨hmissing, -⟩ | ⟨e', h', haccept⟩ | ⟨type, hcleared, -⟩
  · obtain ⟨type, htype⟩ := h.exists_type
    obtain ⟨id, hid⟩ := h.exists_delivery
    rcases hmissing with hnone | hnone
    · cases hnone.symm.trans htype
    · cases hnone.symm.trans hid
  · obtain ⟨secret, hsecret, hrefused⟩ := h.refused
    obtain ⟨secret', hsecret', hrefused'⟩ := h'.refused
    cases hsecret.symm.trans hsecret'
    cases hrefused.symm.trans hrefused'
    exact deliver_of_error haccept
  · obtain ⟨secret, hsecret, hrefused⟩ := h.refused
    cases hrefused.symm.trans (hcleared.verified secret hsecret)

/-- What is not refused for its signature is malformed, or handled as far as its payload tells of an
event, and its status says which. -/
inductive Outcome (s : Service) (host : Repository → Host σ) (r : Request) (state : σ) : Answer → Prop
  /-- A header is missing, or the payload is none of its type. -/
  | malformed {answer : Answer} (h : r.Malformed) (status : answer.status = 400) :
      Outcome s host r state answer
  /-- The delivery tells of nothing that the gate knows. -/
  | eventless {type : String} (cleared : s.Cleared r type)
      (parse : Webhook.parse type r.body = .ok none) : Outcome s host r state ⟨200, "Ignored"⟩
  /-- The event is handed on. -/
  | event {event : Event} (tells : s.TellsOf r event) :
      Outcome s host r state
        (handled ((dispatch s.analyzer s.policy event).run (host event.repository) state).1.result)

/-- A delivery that is not refused for its signature has one of the three outcomes. -/
theorem outcome (hr : r.IsDelivery) (h : ¬ ∃ e, s.Unverified r e) :
    Outcome s host r state (s.answer host r state).1.1 := by
  rw [answer_of_isDelivery hr]
  rcases s.accept_cases hr.length_le with
    ⟨hmissing, name, haccept⟩ | ⟨e, he, -⟩ | ⟨type, hcleared, haccept⟩
  · rw [deliver_of_error haccept]
    exact .malformed (hmissing.imp id .inl) rfl
  · exact absurd ⟨e, he⟩ h
  · rcases hparse : Webhook.parse type r.body with e | _ | event <;> rw [hparse] at haccept
    · rw [deliver_of_error haccept]
      exact .malformed (hcleared.malformed_iff.2 ⟨e, hparse⟩) rfl
    · rw [deliver_of_eventless haccept]
      exact .eventless hcleared hparse
    · rw [deliver_of_event haccept]
      exact .event ⟨type, hcleared, hparse⟩

/-- The handlers for the event that the delivery tells of fail. -/
def Fails (s : Service) (host : Repository → Host σ) (r : Request) (state : σ) : Prop :=
  ∃ event failure, s.TellsOf r event ∧
    ((dispatch s.analyzer s.policy event).run (host event.repository) state).1.result = .error failure

/-- The handlers of an event fail only together with those of the delivery. -/
theorem TellsOf.fails_iff {event : Event} (h : s.TellsOf r event) :
    s.Fails host r state ↔ ∃ failure,
      ((dispatch s.analyzer s.policy event).run (host event.repository) state).1.result =
        .error failure := by
  constructor
  · rintro ⟨event', failure, h', hresult⟩
    obtain rfl := h.eq h'
    exact ⟨failure, hresult⟩
  · rintro ⟨failure, hresult⟩
    exact ⟨event, failure, h, hresult⟩

/-- What an outcome's status and text say. -/
theorem Outcome.statuses {answer : Answer} (h : Outcome s host r state answer) :
    (answer.status = 400 ↔ r.Malformed) ∧
    (answer.status = 500 ↔ s.Fails host r state) ∧
    (answer.status = 200 ↔ ¬ r.Malformed ∧ ¬ s.Fails host r state) ∧
    (answer.status = 200 →
      (answer.body = "Processed" ↔ ∃ event, s.TellsOf r event ∧ event.handlers ≠ [])) := by
  cases h with
  | malformed h status =>
    have hfails : ¬ s.Fails host r state := fun ⟨_, _, htells, _⟩ => htells.not_malformed h
    simp [status, h, hfails]
  | @eventless type cleared parse =>
    have hmalformed : ¬ r.Malformed := fun h => by
      obtain ⟨e, hparse⟩ := cleared.malformed_iff.1 h
      cases parse.symm.trans hparse
    -- the headers settle how the body is read, and by this reading it tells of nothing
    have htells : ∀ event, ¬ s.TellsOf r event := fun event ⟨type', cleared', hparse⟩ => by
      obtain rfl := cleared.eq cleared'
      cases parse.symm.trans hparse
    simp [hmalformed, htells, Fails]
  | @event event tells =>
    have hevent : (∃ event, s.TellsOf r event ∧ event.handlers ≠ []) ↔ event.handlers ≠ [] :=
      ⟨fun ⟨_, h, hroute⟩ => tells.eq h ▸ hroute, fun hroute => ⟨event, tells, hroute⟩⟩
    rw [tells.fails_iff, hevent]
    have hplays := Program.plays_run (host event.repository) (dispatch s.analyzer s.policy event) state
    rcases hresult :
        ((dispatch s.analyzer s.policy event).run (host event.repository) state).1.result with f | d
    · simp [handled, Refusal.answer, tells.not_malformed]
    · -- what was done is known from the event alone
      rw [hresult] at hplays
      obtain rfl := handling_of_plays hplays
      by_cases hroute : event.handlers = []
      · simp [handled, Event.handling, hroute, tells.not_malformed]
      · simp [handled, Event.handling, hroute, tells.not_malformed]

/-- Nothing is asked for unless the delivery tells of an event that has a handler. -/
theorem tellsOf_of_effects_ne_nil (h : (s.answer host r state).1.2 ≠ []) :
    ∃ event, s.TellsOf r event ∧ event.handlers ≠ [] := by
  rw [answer_of_isDelivery (isDelivery_of_effects_ne_nil h)] at h
  rcases haccept : s.accept r with e | _ | event
  · rw [deliver_of_error haccept] at h
    exact absurd rfl h
  · rw [deliver_of_eventless haccept] at h
    exact absurd rfl h
  · refine ⟨event, (accept_eq_event_iff.1 haccept).2, fun hroute => h ?_⟩
    rw [deliver_of_event haccept, dispatch_of_handlers_eq_nil hroute]
    rfl

end

/-- **What a request must pass, and what it is answered.** If anything is asked for, the request is a
delivery that says of what type it is and which one it is, in visible characters; it is verified if
there is a secret; and its payload is that of an event with a handler. A delivery whose signature is
not accepted is answered by the reason alone. Of all others, 400 says that a header is missing or the
payload is wrong, 500 that a handler failed, and 200 that neither is so; and the text says whether
there was a handler. -/
theorem admission (s : Service) {σ : Type} (host : Repository → Host σ) (r : Request) (state : σ) :
    ((s.answer host r state).1.2 ≠ [] →
      r.IsDelivery ∧ ∃ type id event,
        r.Shows eventHeader type ∧ r.Shows deliveryHeader id ∧
        (∀ secret, s.secret = some secret →
          secret.verify r.body (r.header? signatureHeader) = .ok ()) ∧
        Webhook.parse type r.body = .ok (some event) ∧ event.handlers ≠ []) ∧
    (r.IsDelivery →
      (∀ e, s.Unverified r e →
        s.answer host r state = ((⟨401, s!"invalid signature: {e.message}"⟩, []), state)) ∧
      ((¬ ∃ e, s.Unverified r e) →
        ((s.answer host r state).1.1.status = 400 ↔ r.Malformed) ∧
        ((s.answer host r state).1.1.status = 500 ↔ s.Fails host r state) ∧
        ((s.answer host r state).1.1.status = 200 ↔ ¬ r.Malformed ∧ ¬ s.Fails host r state) ∧
        ((s.answer host r state).1.1.status = 200 →
          ((s.answer host r state).1.1.body = "Processed" ↔
            ∃ event, s.TellsOf r event ∧ event.handlers ≠ [])))) := by
  constructor
  · intro heffects
    obtain ⟨event, ⟨type, hcleared, hparse⟩, hroute⟩ := tellsOf_of_effects_ne_nil heffects
    obtain ⟨id, hid⟩ := hcleared.exists_delivery
    exact ⟨isDelivery_of_effects_ne_nil heffects, type, id, event,
      Request.shows_of_header? hcleared.type_eq, Request.shows_of_header? hid,
      hcleared.verified, hparse, hroute⟩
  · intro hr
    exact ⟨fun e he => answer_of_unverified hr he, fun hverified => (outcome hr hverified).statuses⟩

end Service

end PullGate
