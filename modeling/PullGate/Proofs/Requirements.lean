import PullGate.Proofs.AwaitingReview
import PullGate.Proofs.Pursuit
/-!
# Requirements along deliveries

The requirements on a pull request are all that is remembered of its sources. They are what the gate
demanded the last time it completed, whatever was delivered since. To say so, `outcomeBy` keeps how
the gate ended while the handlers of an event take care of it (`dispatch_eq_outcomeBy`), and
`lastDemand` is what the gate has demanded last in a run of deliveries. `requirements_of_plays` is
the step: one delivery leaves the requirements that its gate demands, or those that were there.
-/

namespace PullGate

open PullGate.Compliance (Analyzer Report)

/-- What the gate demands of the sources, if it completes. -/
def Gate.Outcome.demand : Gate.Outcome → Option LabelSet
  | completed requirements => some requirements
  | _ => none

/-! ## How the gate ends -/

section

variable (analyzer : Analyzer) (policy : Policy)

/-- A handler's program for an event, with how the gate ends, if the handler is the gate. -/
def Handler.outcome : Handler → Event → Program (Option Gate.Outcome)
  | gateKeeper, .pullRequest e => (Gate.run analyzer policy e).bind fun o => .done (some o)
  | h, event => (h.program analyzer policy event).bind fun _ => .done none

/-- Handlers one after another, with how the gate ends the last time. -/
def outcomeBy (event : Event) : List Handler → Program (Option Gate.Outcome)
  | [] => .done none
  | h :: hs => (h.outcome analyzer policy event).bind fun o =>
    (outcomeBy event hs).bind fun later => .done (later.or o)

/-- A handler's program is its account without the outcome. -/
theorem Handler.program_eq_outcome (h : Handler) (event : Event) :
    h.program analyzer policy event =
      (h.outcome analyzer policy event).bind fun _ => .done () := by
  have hplain (p : Program Unit) :
      p = (p.bind fun _ => .done (none : Option Gate.Outcome)).bind fun _ => .done () := by
    rw [Program.bind_assoc]
    exact (Program.bind_done p).symm
  cases h <;> cases event
  case gateKeeper.pullRequest e =>
    rw [outcome, Program.bind_assoc]
    rfl
  all_goals exact hplain _

theorem runHandlers_eq_outcomeBy (event : Event) (hs : List Handler) :
    runHandlers analyzer policy event hs =
      (outcomeBy analyzer policy event hs).bind fun _ => .done () := by
  induction hs with
  | nil => rfl
  | cons h hs ih =>
    rw [runHandlers, outcomeBy, Handler.program_eq_outcome, ih]
    simp only [Program.bind_eq, Program.bind_assoc, Program.bind]

/-- Dispatching is to let the handlers of the event run, and to forget how the gate ended. -/
theorem dispatch_eq_outcomeBy (event : Event) : dispatch analyzer policy event =
    (outcomeBy analyzer policy event event.handlers).bind fun _ => .done event.handling := by
  rw [dispatch_eq_runHandlers, runHandlers_eq_outcomeBy, Program.bind_assoc]
  rfl

end

variable {analyzer : Analyzer} {policy : Policy} {event : Event}

/-! ## What a handler leaves of the requirements -/

/-- The labels of rules are requirements. -/
theorem Compliance.Rule.isRequirement_label (r : Compliance.Rule) :
    r.label.isRequirement = true := by
  cases r <;> rfl

/-- Whatever a report asks for is a requirement. -/
theorem Compliance.Report.requirements_requirements (report : Report) :
    report.requirements.requirements = report.requirements := by
  ext l
  rw [LabelSet.has_requirements]
  rcases hhas : report.requirements.has l with _ | _
  · rw [Bool.and_false]
  · obtain ⟨⟨_, v⟩, -, rfl⟩ := List.mem_map.1 (List.contains_iff_mem.1 hhas)
    rw [Bool.and_true]
    exact v.rule.isRequirement_label

/-- Labels that agree on every requirement have the same requirements. -/
theorem LabelSet.requirements_congr {a b : LabelSet}
    (h : ∀ l, l.isRequirement = true → a.has l = b.has l) : a.requirements = b.requirements := by
  ext l
  rw [has_requirements, has_requirements]
  rcases hreq : l.isRequirement with _ | _
  · rfl
  · rw [h l hreq]

/-- Sets with the same requirements agree on each of them. -/
theorem LabelSet.has_eq_of_requirements_eq {a b : LabelSet}
    (h : a.requirements = b.requirements) {l : Label} (hreq : l.isRequirement = true) :
    a.has l = b.has l := by
  have hl : a.requirements.has l = b.requirements.has l := by rw [h]
  simpa [hreq] using hl

/-- Of requirements the gate is after those that it demands, unless nothing was asked of it. -/
theorem Gate.Verdict.wants_requirement {v : Gate.Verdict} (hasked : v ≠ .unasked) (action : Action)
    {l : Label} (hreq : l.isRequirement = true) :
    (v.aim action).wants l = v.outcome.demand.map fun requirements => requirements.has l := by
  have hinvalid : l ≠ .invalid := by
    rintro rfl
    cases hreq
  have hawaits : l ≠ .awaitingReview := by
    rintro rfl
    cases hreq
  cases v with
  | turnAway r =>
    rw [aim]
    split
    · rw [Aim.wants_only, if_neg hinvalid]
      rfl
    · rfl
  | analyzed report =>
    rw [aim, Aim.wants_and, wants_defaultAim hawaits, Option.or_none]
    exact if_pos hreq
  | unasked => exact absurd rfl hasked
  | _ => rfl

/-- The gate is never run when nothing is asked of it. -/
theorem Gate.ne_unasked_of_plays {e : PullRequestEvent}
    (hmem : .gateKeeper ∈ (Event.pullRequest e).handlers) {xs : Transcript} {v : Gate.Verdict}
    (h : (Gate.judge analyzer policy e).Plays xs (.ok v)) : v ≠ .unasked := by
  rintro rfl
  rcases Gate.judged_of_plays h with ⟨-, hsettled, -⟩ | ⟨-, hjudged⟩
  · cases hsettled
  · cases hjudged with
    | unasked hopened hsynchronize hready =>
      rw [Event.handlers] at hmem
      cases haction : e.action <;> rw [haction] at hmem hopened hsynchronize hready
      case opened => exact hopened rfl
      case synchronize => exact hsynchronize rfl
      case readyForReview => exact hready rfl
      all_goals revert hmem; decide

/-- A run of the gate leaves the requirements that it demands, if it completes, and those that were
there, if it does not. -/
theorem Gate.requirements_of_plays_run {e : PullRequestEvent}
    (hmem : .gateKeeper ∈ (Event.pullRequest e).handlers) {xs : Transcript} {o : Gate.Outcome}
    (h : (Gate.run analyzer policy e).Plays xs (.ok o)) {now : LabelSet}
    (hnow : now.requirements = e.pr.labels.requirements) :
    (Effect.applyAll xs.effects now).requirements = o.demand.getD now.requirements := by
  obtain ⟨v, ys, hjudge, -, hreads, hall, rfl⟩ := Gate.verdict_of_plays_run_ok h
  have hafter {l : Label} (hreq : l.isRequirement = true) :
      (Effect.applyAll xs.effects now).has l =
        (v.outcome.demand.map fun requirements => requirements.has l).getD (now.has l) := by
    rw [hall, Effect.applyAll_append, Effect.applyAll_of_reads hreads,
      ← Gate.Verdict.wants_requirement (Gate.ne_unasked_of_plays hmem hjudge) e.action hreq]
    exact v.pursues.has_applyAll (LabelSet.has_eq_of_requirements_eq hnow hreq)
  cases v with
  | analyzed report =>
    refine Eq.trans ?_ report.requirements_requirements
    exact LabelSet.requirements_congr fun l hreq => hafter hreq
  | unasked => exact absurd rfl (Gate.ne_unasked_of_plays hmem hjudge)
  | _ => exact LabelSet.requirements_congr fun l hreq => hafter hreq

/-- No handler but the gate adds or removes a requirement. -/
theorem Handler.requirements_of_plays_program {h : Handler} (hne : h ≠ .gateKeeper)
    {xs : Transcript} {res : Except Failure Unit}
    (hp : (h.program analyzer policy event).Plays xs res) (now : LabelSet) :
    (Effect.applyAll xs.effects now).requirements = now.requirements := by
  refine LabelSet.requirements_congr fun l hreq => ?_
  have hmay : h.mayAdd l = false ∧ h.mayRemove l = false := by
    cases h
    case gateKeeper => exact absurd rfl hne
    all_goals cases l <;> first | exact ⟨rfl, rfl⟩ | cases hreq
  have hrec := records_of_plays hp
  apply Effect.has_applyAll_of_untouched
  · intro e he hadds
    obtain ⟨ws, hasks, hws⟩ := hrec.exists_asks he hadds.isWrite
    exact absurd ((footprint hasks hws l).1 hadds) (by simp [hmay.1])
  · intro e he hremoves
    obtain ⟨ws, hasks, hws⟩ := hrec.exists_asks he hremoves.isWrite
    exact absurd ((footprint hasks hws l).2 hremoves) (by simp [hmay.2])

/-- A handler leaves the requirements that the gate demands, if it is the gate and completes. -/
theorem Handler.requirements_of_plays_outcome {h : Handler} (hmem : h ∈ event.handlers)
    {xs : Transcript} {o : Option Gate.Outcome}
    (hp : (h.outcome analyzer policy event).Plays xs (.ok o)) {now : LabelSet}
    (hnow : h = .gateKeeper → now.requirements = event.pr.labels.requirements) :
    (Effect.applyAll xs.effects now).requirements =
        (o.bind Gate.Outcome.demand).getD now.requirements ∧
      (h ≠ .gateKeeper → o = none) := by
  -- all other handlers have no outcome of their own
  by_cases hgate : h = .gateKeeper
  · obtain rfl := hgate
    obtain ⟨e, rfl⟩ := Event.eq_pullRequest_of_mem_handlers hmem (by decide)
    obtain ⟨ys, out, zs, hrun, hend, rfl⟩ := Program.Plays.of_bind_ok hp
    obtain ⟨rfl, ho⟩ := Program.plays_done_iff.1 hend
    cases ho
    rw [List.append_nil]
    exact ⟨Gate.requirements_of_plays_run hmem hrun (hnow rfl), fun hne => absurd rfl hne⟩
  · have hplain : h.outcome analyzer policy event =
        (h.program analyzer policy event).bind fun _ => .done none := by
      cases h
      case gateKeeper => exact absurd rfl hgate
      all_goals rfl
    rw [hplain] at hp
    obtain ⟨ys, _, zs, hrun, hend, rfl⟩ := hp.of_bind_ok
    obtain ⟨rfl, ho⟩ := Program.plays_done_iff.1 hend
    cases ho
    rw [List.append_nil]
    exact ⟨requirements_of_plays_program hgate hrun now, fun _ => rfl⟩

/-- No event has a handler twice. -/
theorem Event.nodup_handlers (event : Event) : event.handlers.Nodup := by
  rcases event with e | e <;> rw [handlers] <;> cases e.action <;> decide

/-- Handlers in a row leave the requirements that the gate demands. The gate comes once at most, and
the handlers before it have left the requirements as its plan expects them. -/
theorem requirements_of_plays {hs : List Handler} (hmem : hs ⊆ event.handlers) (hnodup : hs.Nodup)
    {xs : Transcript} {o : Option Gate.Outcome}
    (hp : (outcomeBy analyzer policy event hs).Plays xs (.ok o)) {now : LabelSet}
    (hnow : .gateKeeper ∈ hs → now.requirements = event.pr.labels.requirements) :
    (Effect.applyAll xs.effects now).requirements =
        (o.bind Gate.Outcome.demand).getD now.requirements ∧
      (.gateKeeper ∉ hs → o = none) := by
  -- on the handlers: what each leaves is what the next one starts from
  induction hs generalizing xs o now with
  | nil =>
    obtain ⟨rfl, ho⟩ := Program.plays_done_iff.1 hp
    cases ho
    exact ⟨rfl, fun _ => rfl⟩
  | cons h hs ih =>
    obtain ⟨hh, hmem⟩ := List.cons_subset.1 hmem
    obtain ⟨hnot, hnodup⟩ := List.nodup_cons.1 hnodup
    obtain ⟨ys, first, ts, hfirst, hrest, rfl⟩ := Program.Plays.of_bind_ok hp
    obtain ⟨zs, later, us, hlater, hend, rfl⟩ := hrest.of_bind_ok
    obtain ⟨rfl, ho⟩ := Program.plays_done_iff.1 hend
    cases ho
    rw [List.append_nil, Transcript.effects_append, Effect.applyAll_append]
    obtain ⟨hmid, hquiet⟩ := Handler.requirements_of_plays_outcome hh hfirst fun hgate =>
      hnow (hgate ▸ List.mem_cons_self)
    generalize Effect.applyAll ys.effects now = mid at hmid ⊢
    by_cases hgate : h = .gateKeeper
    · -- the handlers after the gate change no requirement
      have hlast : .gateKeeper ∉ hs := hgate ▸ hnot
      have hmidnow : .gateKeeper ∈ hs → mid.requirements = event.pr.labels.requirements :=
        fun hin => absurd hin hlast
      obtain ⟨hrest, hnone⟩ := ih hmem hnodup hlater hmidnow
      obtain rfl := hnone hlast
      refine ⟨?_, fun hout => absurd (hgate ▸ List.mem_cons_self) hout⟩
      rw [hrest, Option.none_or]
      exact hmid
    -- a handler in front of the gate leaves the requirements, so the gate plans from what is there
    · obtain rfl := hquiet hgate
      have hsame : mid.requirements = now.requirements := hmid
      have hmidnow : .gateKeeper ∈ hs → mid.requirements = event.pr.labels.requirements :=
        fun hin => hsame.trans (hnow (List.mem_cons_of_mem h hin))
      obtain ⟨hrest, hnone⟩ := ih hmem hnodup hlater hmidnow
      rw [Option.or_none, ← hsame]
      exact ⟨hrest, fun hout => hnone fun hin => hout (List.mem_cons_of_mem h hin)⟩

/-! ## One delivery -/

/-- What is done with a result afterwards shows in no record but by the result. -/
theorem Program.run_bind_done {α β σ : Type} (host : Host σ) (p : Program α) (g : α → β) (s : σ) :
    ((p.bind fun a => .done (g a)).run host s).1 =
      ⟨(p.run host s).1.effects, (p.run host s).1.result.map g⟩ := by
  rw [run_bind]
  rcases p.run host s with ⟨⟨es, _ | a⟩, _⟩
  · rfl
  · simp only [run, List.append_nil]
    rfl

namespace Delivery

/-- The handlers of the event, with how the gate ends. -/
def account (d : Delivery) (labels : LabelSet) : Trace (Option Gate.Outcome) :=
  let event := d.event.withLabels labels
  ((outcomeBy d.analyzer d.policy event event.handlers).run d.host d.state).1

/-- What the gate demands during the delivery, if it is run and completes. -/
def demand (d : Delivery) (labels : LabelSet) : Option LabelSet :=
  match (d.account labels).result with
  | .ok o => o.bind Gate.Outcome.demand
  | .error _ => none

variable (d : Delivery) {labels : LabelSet}

/-- What is seen of a delivery is its account without the outcome. -/
theorem trace_eq_account (labels : LabelSet) : d.trace labels =
    ⟨(d.account labels).effects,
      (d.account labels).result.map fun _ => (d.event.withLabels labels).handling⟩ := by
  rw [trace, dispatch_eq_outcomeBy, Program.run_bind_done]
  rfl

/-- **One delivery.** If it is handled, it leaves the requirements that its gate demands, if it is
run and completes, and otherwise those that were there. -/
theorem requirements_after (hok : (d.trace labels).result.isOk = true) :
    (d.after labels).requirements = (d.demand labels).getD labels.requirements := by
  have heffects : d.effects labels = (d.account labels).effects := by
    unfold effects
    split
    · rename_i hfailed
      rw [hfailed] at hok
      cases hok
    · rw [trace_eq_account]
  rcases hresult : (d.account labels).result with e | o
  · rw [trace_eq_account, hresult] at hok
    cases hok
  · have hplays := Program.plays_run d.host (outcomeBy d.analyzer d.policy
      (d.event.withLabels labels) (d.event.withLabels labels).handlers) d.state
    rw [show (Program.run _ _ _).1.result = _ from hresult] at hplays
    have hsame : labels.requirements = (d.event.withLabels labels).pr.labels.requirements := by
      rw [Event.labels_withLabels]
    rw [after, heffects, demand, hresult, account, Program.effects_run]
    exact (requirements_of_plays (List.Subset.refl _) (Event.nodup_handlers _) hplays
      fun _ => hsame).1

end Delivery

/-! ## Any number of deliveries -/

/-- All deliveries are handled without a failure, one after another. -/
def Handled : List Delivery → LabelSet → Prop
  | [], _ => True
  | d :: ds, labels => (d.trace labels).result.isOk = true ∧ Handled ds (d.after labels)

instance decidableHandled : ∀ ds labels, Decidable (Handled ds labels)
  | [], _ => isTrue trivial
  | d :: ds, labels =>
    have := decidableHandled ds (d.after labels)
    inferInstanceAs (Decidable (_ ∧ _))

/-- What the last of the gate's runs that completed has demanded, if there was one. -/
def lastDemand : List Delivery → LabelSet → Option LabelSet
  | [], _ => none
  | d :: ds, labels => (lastDemand ds (d.after labels)).or (d.demand labels)

/-- Deliveries that were all handled were so up to any of them. -/
theorem Handled.of_prefix {ds es : List Delivery} (hstart : es <+: ds) {labels : LabelSet}
    (h : Handled ds labels) : Handled es labels := by
  induction es generalizing ds labels with
  | nil => trivial
  | cons e es ih =>
    obtain ⟨rest, rfl⟩ := hstart
    exact ⟨h.1, ih (List.prefix_append es rest) h.2⟩

/-- After deliveries that were handled the requirements are those demanded last, or as before. -/
theorem requirements_deliver_of_handled (ds : List Delivery) {labels : LabelSet}
    (h : Handled ds labels) :
    (deliver ds labels).requirements = (lastDemand ds labels).getD labels.requirements := by
  induction ds generalizing labels with
  | nil => rfl
  | cons d ds ih =>
    obtain ⟨hok, hrest⟩ := h
    rw [deliver_cons, ih hrest, d.requirements_after hok, lastDemand, Option.getD_or]

/-- **The requirements are those demanded last.** If deliveries of any kinds are handled without a
failure, then after each of them the requirements on the pull request are exactly what the gate
demanded when it last completed, and those at the start until it does. -/
theorem requirements_deliver (ds : List Delivery) (labels : LabelSet) (h : Handled ds labels) :
    ∀ before, before <+: ds →
      (deliver before labels).requirements = (lastDemand before labels).getD labels.requirements :=
  fun before hbefore => requirements_deliver_of_handled before (h.of_prefix hbefore)

/-- A pull request is opened with poor names, reviewed, made ready with types missing, and at last
turned away: types are required of it. -/
theorem requirements_deliver_turned_away :
    let delivery (rule : Compliance.Rule) (path : String) (event : Event) : Delivery :=
      (Attempt.whole (fun _ => .ok [⟨rule, .start, ""⟩]) .standard
        (fun
          | .listChangedFiles _ => .changedFiles [⟨path, "", .added⟩]
          | e => Host.plainReply [⟨"completed", some "failure"⟩] e) event).delivery
    let pr := PullRequestEvent.byOwner .opened none ∅
    let ds := [
      delivery .nonDescriptiveName "sum.py" (.pullRequest pr),
      delivery .nonDescriptiveName "sum.py" (.review
        ⟨pr.repository, .submitted, ⟨.changesRequested, .owner, "octo"⟩, pr.pr, none⟩),
      delivery .missingAnnotations "sum.py" (.pullRequest { pr with action := .readyForReview }),
      delivery .nonDescriptiveName "sum" (.pullRequest { pr with action := .synchronize })]
    Handled ds ∅ ∧ (deliver ds ∅).toList =
        [.invalid, .changesRequested, .testsFailing, .requireAnnotations] ∧
      (deliver (ds.take 2) ∅).requirements = .ofList [.requireNames] ∧
      (deliver ds ∅).requirements = .ofList [.requireAnnotations] := by
  intro delivery pr ds
  have hhandled : Handled ds ∅ := by decide +kernel
  have hlast := requirements_deliver ds ∅ hhandled
  refine ⟨hhandled, by decide +kernel, ?_, ?_⟩
  · exact (hlast (ds.take 2) (List.take_prefix 2 ds)).trans (by decide +kernel)
  · exact (hlast ds List.prefix_rfl).trans (by decide +kernel)

end PullGate
