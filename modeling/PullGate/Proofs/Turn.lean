import PullGate.Dispatch
import PullGate.Proofs.Gate.Verdict
/-!
# Turns of handlers

Every handler that takes care of an event reads first and then asks for writes: its `turn` is the
part that reads, and ends with the writes that follow (`Handler.program_eq_turn`). From this come
the two forms in which dispatching is opened: `records_of_plays_dispatch` for an event that one
handler takes care of, and `exists_asks_of_mem`, which finds the handler behind a write.
-/

namespace PullGate

open PullGate.Compliance (Analyzer)

section

variable (analyzer : Analyzer) (policy : Policy)

/-! ## Turns -/

/-- The part of a handler that reads. It ends with the writes that follow. -/
def Handler.turn : Handler → Event → Program (List Effect)
  | gateKeeper, .pullRequest e =>
    (Gate.judge analyzer policy e).bind fun v => .done (v.writes policy e)
  | failingChecks, .pullRequest e =>
    if e.pr.isSettled then .done []
    else (Program.checkRuns e.pr.head).bind fun runs => .done (Upkeep.failingChecks e.pr runs)
  | manualLabel, .pullRequest e => .done (Upkeep.manualLabel e)
  | reviewState, .review e => .done (Upkeep.review e)
  | _, _ => .done []

/-- A handler can come to ask for these writes. -/
def Handler.Asks (h : Handler) (event : Event) (ws : List Effect) : Prop :=
  ∃ ys, (h.turn analyzer policy event).Plays ys (.ok ws)

/-- A handler takes its turn, and then asks for the writes that follow. -/
theorem Handler.program_eq_turn (h : Handler) (event : Event) :
    h.program analyzer policy event =
      (h.turn analyzer policy event).bind Program.performAll := by
  cases h <;> cases event
  case gateKeeper.pullRequest e =>
    simp only [program, turn, Gate.run_eq_judge, Gate.Verdict.carryOut, Program.bind_eq,
      Program.pure_eq, Program.bind_assoc, Program.bind]
    congr 1
    funext v
    exact Program.bind_done _
  case failingChecks.pullRequest e =>
    simp only [program, turn, Upkeep.checks]
    split
    · rfl
    · rw [Program.bind_assoc]
      rfl
  all_goals rfl

/-- A turn changes nothing. -/
theorem Handler.ofReads_turn (h : Handler) (event : Event) :
    (h.turn analyzer policy event).OfReads := by
  cases h <;> cases event
  case gateKeeper.pullRequest e => exact .bind Gate.ofReads_judge fun _ => .done _
  case failingChecks.pullRequest e =>
    simp only [turn]
    split
    · exact .done _
    · exact .bind (.checkRuns _) fun _ => .done _
  all_goals exact .done _

/-! ## One handler -/

/-- What a handler's run records: its reads, and if these come to an end, the writes that follow,
all of them or up to the first that fails. -/
inductive Handler.Records (h : Handler) (event : Event) : List Effect → Except Failure Unit → Prop
  /-- A read fails, or is answered with the wrong kind of answer. -/
  | unread {es : List Effect} {e : Failure} (hreads : ∀ r ∈ es, r.isWrite = false) :
      Records h event es (.error e)
  /-- All reads are answered. -/
  | asked {es ws done : List Effect} {res : Except Failure Unit}
      (hreads : ∀ r ∈ es, r.isWrite = false) (hasks : h.Asks analyzer policy event ws)
      (hdone : done <+: ws) (hall : done = ws ∨ ∃ e m, res = .error (.call e m)) :
      Records h event (es ++ done) res

end

variable {analyzer : Analyzer} {policy : Policy}

/-- What a handler asked for is recorded. -/
theorem Handler.records_of_plays {h : Handler} {event : Event} {xs : Transcript}
    {res : Except Failure Unit} (hp : (h.program analyzer policy event).Plays xs res) :
    h.Records analyzer policy event xs.effects res := by
  rw [program_eq_turn] at hp
  have hreads := (h.ofReads_turn analyzer policy event).reads
  rcases hp.of_bind with ⟨e, hturn, rfl⟩ | ⟨ys, ws, zs, hturn, hwrites, rfl⟩
  · exact .unread (hturn.isWrite_eq_false hreads)
  · obtain ⟨hdone, hall⟩ := hwrites.performAll
    rw [Transcript.effects_append]
    exact .asked (hturn.isWrite_eq_false hreads) ⟨ys, hturn⟩ hdone hall

/-- A write in a record stands among those that the handler asks for, after all of its reads. -/
theorem Handler.Records.exists_done {h : Handler} {event : Event} {es : List Effect}
    {res : Except Failure Unit} (hrec : h.Records analyzer policy event es res) {e : Effect}
    (he : e ∈ es) (hwrite : e.isWrite = true) :
    ∃ reads done ws, es = reads ++ done ∧ (∀ r ∈ reads, r.isWrite = false) ∧
      h.Asks analyzer policy event ws ∧ done <+: ws ∧ e ∈ done := by
  cases hrec with
  | unread hreads => exact absurd ((hreads e he).symm.trans hwrite) Bool.false_ne_true
  | @asked reads ws done _ hreads hasks hdone _ =>
    rcases List.mem_append.1 he with he | he
    · exact absurd ((hreads e he).symm.trans hwrite) Bool.false_ne_true
    · exact ⟨reads, done, ws, rfl, hreads, hasks, hdone, he⟩

/-- A write that a handler's run records is one that the handler asks for. -/
theorem Handler.Records.exists_asks {h : Handler} {event : Event} {es : List Effect}
    {res : Except Failure Unit} (hrec : h.Records analyzer policy event es res) {e : Effect}
    (he : e ∈ es) (hwrite : e.isWrite = true) :
    ∃ ws, h.Asks analyzer policy event ws ∧ e ∈ ws := by
  obtain ⟨_, _, ws, -, -, hasks, hdone, hmem⟩ := hrec.exists_done he hwrite
  exact ⟨ws, hasks, hdone.subset hmem⟩

/-! ## All handlers of an event -/

/-- Only reviews are taken care of by their own handler. -/
theorem Event.eq_pullRequest_of_mem_handlers {event : Event} {h : Handler}
    (hh : h ∈ event.handlers) (hne : h ≠ .reviewState) : ∃ e, event = .pullRequest e := by
  rcases event with e | ⟨_, action, _⟩
  · exact ⟨e, rfl⟩
  · cases action
    · exact absurd (List.mem_singleton.1 hh) hne
    · cases hh
    · cases hh

/-- What is said to have been done with an event when its handlers came to their ends. -/
def Event.handling (event : Event) : Handling := if event.handlers = [] then .ignored else .handled

/-- Dispatching is what the handlers of the event do, one after another. -/
theorem dispatch_eq_runHandlers (event : Event) : dispatch analyzer policy event =
    (runHandlers analyzer policy event event.handlers).bind fun _ => .done event.handling := by
  unfold dispatch Event.handling
  rcases event.handlers with _ | ⟨h, hs⟩ <;> rfl

/-- A run of all handlers of an event is a run of its handlers in a row, and ends as that does. -/
theorem runHandlers_of_plays {event : Event} {xs : Transcript} {res : Except Failure Handling}
    (hp : (dispatch analyzer policy event).Plays xs res) :
    ∃ res', (runHandlers analyzer policy event event.handlers).Plays xs res' ∧
      (∀ d, res = .ok d → res' = .ok ()) ∧ ∀ e, res' = .error e → res = .error e := by
  rw [dispatch_eq_runHandlers] at hp
  rcases hp.of_bind with ⟨e, hrun, rfl⟩ | ⟨ys, _, zs, hrun, hend, rfl⟩
  · exact ⟨.error e, hrun, nofun, fun _ he => by cases he; rfl⟩
  · obtain ⟨rfl, rfl⟩ := Program.plays_done_iff.1 hend
    rw [List.append_nil]
    exact ⟨.ok (), hrun, fun _ _ => rfl, nofun⟩

/-- A write that is recorded while some handlers take care of an event is one that one of them asks
for. -/
theorem exists_asks_of_plays_runHandlers {event : Event} {hs : List Handler} {xs : Transcript}
    {res : Except Failure Unit} (hp : (runHandlers analyzer policy event hs).Plays xs res)
    {e : Effect} (he : e ∈ xs.effects) (hwrite : e.isWrite = true) :
    ∃ h ∈ hs, ∃ ws, h.Asks analyzer policy event ws ∧ e ∈ ws := by
  induction hs generalizing xs with
  | nil =>
    obtain ⟨rfl, -⟩ := Program.plays_done_iff.1 hp
    cases he
  | cons h hs ih =>
    rcases Program.Plays.of_bind hp with ⟨_, hfirst, -⟩ | ⟨ys, _, zs, hfirst, hrest, rfl⟩
    · exact ⟨h, List.mem_cons_self, (Handler.records_of_plays hfirst).exists_asks he hwrite⟩
    · rw [Transcript.effects_append] at he
      rcases List.mem_append.1 he with he | he
      · exact ⟨h, List.mem_cons_self, (Handler.records_of_plays hfirst).exists_asks he hwrite⟩
      · obtain ⟨k, hk, hasks⟩ := ih hrest he
        exact ⟨k, List.mem_cons_of_mem h hk, hasks⟩

/-- The handler behind a write: one that the event is for, and that asks for the write. -/
theorem exists_asks_of_mem {event : Event} {xs : Transcript} {res : Except Failure Handling}
    (hp : (dispatch analyzer policy event).Plays xs res) {e : Effect} (he : e ∈ xs.effects)
    (hwrite : e.isWrite = true) :
    ∃ h ∈ event.handlers, ∃ ws, h.Asks analyzer policy event ws ∧ e ∈ ws := by
  obtain ⟨_, hp, -⟩ := runHandlers_of_plays hp
  exact exists_asks_of_plays_runHandlers hp he hwrite

/-- An event that one handler takes care of records what that handler's run records. -/
theorem records_of_plays_dispatch {event : Event} {h : Handler} (hone : event.handlers = [h])
    {xs : Transcript} {res : Except Failure Handling}
    (hp : (dispatch analyzer policy event).Plays xs res) :
    ∃ res', h.Records analyzer policy event xs.effects res' ∧ ∀ d, res = .ok d → res' = .ok () := by
  obtain ⟨res', hp, hok, -⟩ := runHandlers_of_plays hp
  rw [hone] at hp
  have hprogram : runHandlers analyzer policy event [h] = h.program analyzer policy event :=
    Program.bind_done _
  rw [hprogram] at hp
  exact ⟨res', Handler.records_of_plays hp, hok⟩

/-- If such an event is handled without a failure, then all that the handler asks for is done. -/
theorem exists_asks_of_plays_ok {event : Event} {h : Handler} (hone : event.handlers = [h])
    {xs : Transcript} {d : Handling} (hp : (dispatch analyzer policy event).Plays xs (.ok d)) :
    ∃ reads ws, xs.effects = reads ++ ws ∧ (∀ r ∈ reads, r.isWrite = false) ∧
      h.Asks analyzer policy event ws := by
  obtain ⟨res, hrec, hok⟩ := records_of_plays_dispatch hone hp
  have hres := hok d rfl
  generalize hes : xs.effects = es at hrec ⊢
  cases hrec with
  | unread => cases hres
  | @asked reads ws _ _ hreads hasks _ hall =>
    rcases hall with rfl | ⟨_, _, hfail⟩
    · exact ⟨reads, _, rfl, hreads, hasks⟩
    · rw [hfail] at hres
      cases hres

/-! ## Pull requests that were turned away before -/

/-- No handler has anything to ask for. -/
theorem Handler.turn_of_settled {event : Event} (hsettled : event.pr.isSettled = true)
    (h : Handler) : h.turn analyzer policy event = .done [] := by
  cases h <;> cases event
  case gateKeeper.pullRequest e =>
    have hpr : e.pr.isSettled = true := hsettled
    simp only [turn, Gate.judge, hpr, if_true]
    rfl
  case failingChecks.pullRequest e => exact if_pos hsettled
  case manualLabel.pullRequest e =>
    have hpr : e.pr.isSettled = true := hsettled
    simp only [turn, Upkeep.manualLabel, hpr, if_true]
  case reviewState.review e =>
    have hpr : e.pr.isSettled = true := hsettled
    simp [turn, Upkeep.review, hpr]
  all_goals rfl

/-- For a settled pull request no handler does anything. -/
theorem runHandlers_of_settled {event : Event} (hsettled : event.pr.isSettled = true)
    (hs : List Handler) : runHandlers analyzer policy event hs = .done () := by
  induction hs with
  | nil => rfl
  | cons h hs ih =>
    rw [runHandlers, Handler.program_eq_turn, Handler.turn_of_settled hsettled, ih]
    rfl

/-- Nothing is asked for, and nothing fails. -/
theorem dispatch_of_settled {event : Event} (hsettled : event.pr.isSettled = true) :
    ∃ d, dispatch analyzer policy event = .done d := by
  unfold dispatch
  split
  · exact ⟨.ignored, rfl⟩
  · rw [runHandlers_of_settled hsettled]
    exact ⟨.handled, rfl⟩

end PullGate
