import PullGate.Proofs.Delivery
/-!
# Attempts

An event whose handling failed is delivered again. An `Attempt` is one of these deliveries: its reads
are answered as in all the others, if they do not fail, and it can be broken off at any call. What
follows if nothing fails is `wanted`; the writes of an attempt are the first of these, and all of
them if no call fails (`Attempt.writes_effects`).
-/

namespace PullGate

open PullGate.Compliance (Analyzer)

/-! ## Hosts that tell the same -/

section

variable {σ : Type}

/-- Reads are answered so, unless they fail. -/
def Host.Tells (host : Host σ) (replies : Effect → Response) : Prop :=
  ∀ s e r, e.isWrite = false → (host.answer s e).1 = .ok r → r = replies e

/-- The host that answers so, and at which nothing fails. -/
def Host.steady (replies : Effect → Response) : Host Unit := ⟨fun _ e => (.ok (replies e), ())⟩

/-- Plain answers: no files have changed, the author has no other pull requests, and these checks have
run. -/
def Host.plainReply (runs : List CheckRun) : Effect → Response
  | .listChangedFiles _ => .changedFiles []
  | .getFileContent _ _ => .fileContent ""
  | .searchOpenPrs _ => .openPrs ⟨0, []⟩
  | .listCheckRuns _ => .checkRuns runs
  | .postComment _ _ => .commentPosted
  | .addLabels _ _ => .labelsAdded
  | .removeLabel _ _ => .labelRemoved
  | .closePr _ => .prClosed
  | .unassignReviewers _ _ => .reviewersUnassigned

/-- The host at which so many calls are answered, and those after them fail. -/
def Host.brokenOff (host : Host σ) : Host (Nat × σ) where
  answer
    | (0, s), _ => (.error "broken off", (0, s))
    | (n + 1, s), e => let (answer, s) := host.answer s e; (answer, (n, s))

/-- A host that always says the same tells these replies. -/
theorem Host.tells_steady (replies : Effect → Response) : (steady replies).Tells replies := by
  intro s e r _ hr
  exact (Except.ok.inj hr).symm

/-- A host whose calls break off tells what it told, as far as it tells anything. -/
theorem Host.Tells.brokenOff {host : Host σ} {replies : Effect → Response}
    (h : host.Tells replies) : host.brokenOff.Tells replies := by
  rintro ⟨_ | n, s⟩ e r hread hr
  · cases hr
  · exact h s e r hread hr

/-- Reads were answered so, unless they failed. -/
def Transcript.Tells (xs : Transcript) (replies : Effect → Response) : Prop :=
  ∀ e r, (e, .ok r) ∈ xs → e.isWrite = false → r = replies e

/-- What a program hears is what the host tells. -/
theorem Program.tells_transcript {α : Type} {host : Host σ} {replies : Effect → Response}
    (h : host.Tells replies) (p : Program α) (s : σ) : (p.transcript host s).Tells replies := by
  induction p generalizing s with
  | done a => exact nofun
  | mismatch e r => exact nofun
  | call e next ih =>
    intro d r hmem hread
    rw [transcript] at hmem
    rcases hanswer : host.answer s e with ⟨m | r', s'⟩ <;> rw [hanswer] at hmem
    · cases List.mem_singleton.1 hmem
    · rcases List.mem_cons.1 hmem with heq | hmem
      · cases heq
        exact h s e r hread (by rw [hanswer])
      · exact ih r' s' d r hmem hread

end

/-! ## What programs come to -/

namespace Program

variable {α β : Type} {replies : Effect → Response}

/-- What a program comes to if its effects are answered so and nothing fails. -/
def value (replies : Effect → Response) : Program α → Except Failure α
  | done a => .ok a
  | mismatch e r => .error (.mismatch e r)
  | call e next => (next (replies e)).value replies

/-- The value of two programs one after another is that of the second, for the first one's value. -/
theorem value_bind (p : Program α) (f : α → Program β) :
    (p.bind f).value replies = match p.value replies with
      | .ok a => (f a).value replies
      | .error e => .error e := by
  induction p with
  | done a => rfl
  | mismatch e r => rfl
  | call e next ih => exact ih (replies e)

/-- Writes in a row come to their end. -/
@[simp] theorem value_performAll (ws : List Effect) : (performAll ws).value replies = .ok () := by
  induction ws with
  | nil => rfl
  | cons w ws ih => exact ih

/-- The value is what a run comes to at a host where nothing fails. -/
theorem result_run_steady (p : Program α) :
    (p.run (.steady replies) ()).1.result = p.value replies := by
  induction p with
  | done a => rfl
  | mismatch e r => rfl
  | call e next ih => exact ih (replies e)

/-- Then no call fails. -/
theorem value_ne_call (p : Program α) (e : Effect) (m : String) :
    p.value replies ≠ .error (.call e m) := by
  induction p with
  | done a => exact nofun
  | mismatch e r => exact nofun
  | call e next ih => exact ih (replies e)

/-- A program that only reads comes to the same whenever it is told the same, unless a call
fails. -/
theorem Plays.eq_value {p : Program α} (hp : p.Reads) {xs : Transcript} {res : Except Failure α}
    (h : p.Plays xs res) (htells : xs.Tells replies) :
    (∃ e m, res = .error (.call e m)) ∨ res = p.value replies := by
  induction h with
  | done a => exact .inr rfl
  | mismatch e r => exact .inr rfl
  | failed e next m => exact .inl ⟨e, m, rfl⟩
  | @answered e next r xs _ _ ih =>
    obtain rfl : r = replies e := htells e r List.mem_cons_self hp.1
    exact ih (hp.2 _) fun d r hmem => htells d r (List.mem_cons_of_mem _ hmem)

/-- Writes in a row come to an end unless a call fails. -/
theorem Plays.result_performAll {ws : List Effect} {xs : Transcript} {res : Except Failure Unit}
    (h : (Program.performAll ws).Plays xs res) : res = .ok () ∨ ∃ e m, res = .error (.call e m) := by
  induction ws generalizing xs with
  | nil => exact .inl (plays_done_iff.1 h).2
  | cons w ws ih =>
    cases h with
    | failed _ _ m => exact .inr ⟨w, m, rfl⟩
    | answered h => exact ih h

/-- A call that fails is the last. -/
theorem Plays.exists_eq_concat {p : Program α} {xs : Transcript} {e : Effect} {m : String}
    (h : p.Plays xs (.error (.call e m))) : ∃ es, xs.effects = es ++ [e] := by
  generalize hres : Except.error (Failure.call e m) = res at h
  induction h with
  | done a => cases hres
  | mismatch => cases hres
  | failed e' next m' =>
    cases hres
    exact ⟨[], rfl⟩
  | @answered e' _ _ _ _ _ ih =>
    obtain ⟨es, hes⟩ := ih hres
    exact ⟨e' :: es, by rw [Transcript.effects_cons, hes, List.cons_append]⟩

end Program

/-! ## Writes among effects -/

namespace Effect

/-- The writes among some effects. -/
def writes (es : List Effect) : List Effect := es.filter (·.isWrite)

@[simp] theorem writes_append (es ds : List Effect) : writes (es ++ ds) = writes es ++ writes ds :=
  List.filter_append es ds

/-- Calls that only read have no writes among them. -/
theorem writes_eq_nil {es : List Effect} (h : ∀ e ∈ es, e.isWrite = false) : writes es = [] := by
  refine List.filter_eq_nil_iff.2 fun e he => ?_
  simp [h e he]

theorem writes_eq_self {es : List Effect} (h : ∀ e ∈ es, e.isWrite = true) : writes es = es :=
  List.filter_eq_self.2 h

/-- Labels change by the writes alone. -/
theorem applyAll_writes (es : List Effect) (labels : LabelSet) :
    applyAll (writes es) labels = applyAll es labels := by
  induction es generalizing labels with
  | nil => rfl
  | cons e es ih =>
    rcases hwrite : e.isWrite with _ | _
    · have hsame : applyTo labels e = labels := by cases e <;> first | rfl | cases hwrite
      rw [writes, List.filter_cons_of_neg (by simp [hwrite]), applyAll_cons, hsame]
      exact ih labels
    · rw [writes, List.filter_cons_of_pos hwrite, applyAll_cons, applyAll_cons]
      exact ih (applyTo labels e)

end Effect

/-! ## What is wanted -/

section

variable (analyzer : Analyzer) (policy : Policy) (replies : Effect → Response)

/-- The writes that follow from a handler's turn, if it is told so. -/
def Handler.asked (h : Handler) (event : Event) : Except Failure (List Effect) :=
  (h.turn analyzer policy event).value replies

/-- These writes, and none if the turn does not come to its end. -/
def Handler.wanted (h : Handler) (event : Event) : List Effect :=
  match h.asked analyzer policy replies event with
  | .ok ws => ws
  | .error _ => []

/-- The writes that follow from the turns of handlers, one after another, if they are told so. A turn
that does not come to its end is the last. -/
def wantedBy (event : Event) : List Handler → List Effect
  | [] => []
  | h :: hs =>
    match h.asked analyzer policy replies event with
    | .ok ws => ws ++ wantedBy event hs
    | .error _ => []

/-- The writes that follow from an event, if its handlers are told so. -/
def wanted (event : Event) : List Effect :=
  wantedBy analyzer policy replies event event.handlers

end

variable {analyzer : Analyzer} {policy : Policy} {replies : Effect → Response} {event : Event}

/-- What a handler that is told so asks for is one of the things that it can ask for. -/
theorem Program.plays_value {α : Type} (replies : Effect → Response) (p : Program α) :
    ∃ xs, p.Plays xs (p.value replies) := by
  induction p with
  | done a => exact ⟨[], .done a⟩
  | mismatch e r => exact ⟨[], .mismatch e r⟩
  | call e next ih =>
    obtain ⟨xs, h⟩ := ih (replies e)
    exact ⟨(e, .ok (replies e)) :: xs, .answered h⟩

/-- What a handler asks for at these replies it asks for at all hosts that give them. -/
theorem Handler.asks_of_asked {h : Handler} {ws : List Effect}
    (hasked : h.asked analyzer policy replies event = .ok ws) :
    h.Asks analyzer policy event ws := by
  obtain ⟨xs, hplays⟩ := Program.plays_value replies (h.turn analyzer policy event)
  rw [asked] at hasked
  rw [hasked] at hplays
  exact ⟨xs, hplays⟩

/-- A run of a handler records the first of the writes that are wanted. Unless a call fails it records
all of them, and comes to its end if the turn does. -/
theorem Handler.writes_of_plays {h : Handler} {xs : Transcript} {res : Except Failure Unit}
    (hp : (h.program analyzer policy event).Plays xs res) (htells : xs.Tells replies) :
    Effect.writes xs.effects <+: h.wanted analyzer policy replies event ∧
      ((∃ e m, res = .error (.call e m)) ∨
        Effect.writes xs.effects = h.wanted analyzer policy replies event ∧
          res = (h.asked analyzer policy replies event).map fun _ => ()) := by
  rw [program_eq_turn] at hp
  have hreads := (h.ofReads_turn analyzer policy event).reads
  rcases hp.of_bind with ⟨e, hturn, rfl⟩ | ⟨ys, ws, zs, hturn, hwrites, rfl⟩
  · have hnone : Effect.writes xs.effects = [] :=
      Effect.writes_eq_nil (hturn.isWrite_eq_false hreads)
    rw [hnone]
    refine ⟨List.nil_prefix, ?_⟩
    rcases hturn.eq_value hreads htells with ⟨e', m, he⟩ | he
    · cases he
      exact .inl ⟨e', m, rfl⟩
    · right
      simp only [wanted, asked, ← he]
      exact ⟨trivial, rfl⟩
  · have hys : ys.Tells replies := fun e r hmem => htells e r (List.mem_append_left zs hmem)
    have hasked : h.asked analyzer policy replies event = .ok ws := by
      rcases hturn.eq_value hreads hys with ⟨e', m, he⟩ | he
      · cases he
      · exact he.symm
    obtain ⟨hstart, hall⟩ := hwrites.performAll
    -- the reads drop out, and what the turn ends with are writes only
    have hdone : Effect.writes (Transcript.effects (ys ++ zs)) = zs.effects := by
      rw [Transcript.effects_append, Effect.writes_append,
        Effect.writes_eq_nil (hturn.isWrite_eq_false hreads), List.nil_append]
      exact Effect.writes_eq_self fun e hmem =>
        (asks_of_asked hasked).isWrite_eq_true e (hstart.subset hmem)
    simp only [hdone, wanted, hasked]
    refine ⟨hstart, ?_⟩
    rcases hwrites.result_performAll with rfl | hfail
    · rcases hall with hall | ⟨_, _, hfail⟩
      · exact .inr ⟨hall, rfl⟩
      · cases hfail
    · exact .inl hfail

/-- A run of handlers in a row records the first of the writes that are wanted, and all of them
unless a call fails. -/
theorem writes_of_plays_runHandlers {hs : List Handler} {xs : Transcript}
    {res : Except Failure Unit} (hp : (runHandlers analyzer policy event hs).Plays xs res)
    (htells : xs.Tells replies) :
    Effect.writes xs.effects <+: wantedBy analyzer policy replies event hs ∧
      ((∃ e m, res = .error (.call e m)) ∨
        Effect.writes xs.effects = wantedBy analyzer policy replies event hs) := by
  induction hs generalizing xs with
  | nil =>
    obtain ⟨rfl, -⟩ := Program.plays_done_iff.1 hp
    exact ⟨List.prefix_rfl, .inr rfl⟩
  | cons h hs ih =>
    -- either the first handler fails and nothing follows, or all its writes are there and the
    -- others follow
    rcases Program.Plays.of_bind hp with ⟨e, hfirst, rfl⟩ | ⟨ys, _, zs, hfirst, hrest, rfl⟩
    · obtain ⟨hstart, hend⟩ := Handler.writes_of_plays hfirst htells
      rcases hasked : h.asked analyzer policy replies event with e' | ws <;>
        simp only [Handler.wanted, wantedBy, hasked] at hstart hend ⊢
      · rcases hend with hfail | ⟨hall, -⟩
        · exact ⟨hstart, .inl hfail⟩
        · exact ⟨hstart, .inr hall⟩
      · rcases hend with ⟨e', m, hfail⟩ | ⟨-, hok⟩
        · cases hfail
          exact ⟨hstart.trans (List.prefix_append _ _), .inl ⟨e', m, rfl⟩⟩
        · cases hok
    · have hys : ys.Tells replies := fun e r hmem => htells e r (List.mem_append_left zs hmem)
      have hzs : zs.Tells replies := fun e r hmem => htells e r (List.mem_append_right ys hmem)
      obtain ⟨hnext, hend⟩ := ih hrest hzs
      obtain ⟨-, ⟨_, _, hfail⟩ | ⟨hall, hok⟩⟩ := Handler.writes_of_plays hfirst hys
      · cases hfail
      · rcases hasked : h.asked analyzer policy replies event with e' | ws <;>
          simp only [Handler.wanted, wantedBy, hasked] at hall hok ⊢
        · cases hok
        · rw [Transcript.effects_append, Effect.writes_append, hall]
          refine ⟨(List.prefix_append_right_inj ws).2 hnext, ?_⟩
          rcases hend with hfail | hend
          · exact .inl hfail
          · exact .inr (by rw [hend])

/-! ## Attempts -/

/-- The effects that have happened are the first of those that were recorded. -/
theorem Delivery.effects_prefix (d : Delivery) (labels : LabelSet) :
    d.effects labels <+: (d.trace labels).effects := by
  unfold effects
  split
  · split
    · exact List.prefix_rfl
    · exact List.dropLast_prefix _
  · exact List.prefix_rfl

/-- A delivery of an event whose reads are answered so, unless they fail. -/
structure Attempt (analyzer : Analyzer) (policy : Policy) (replies : Effect → Response)
    (event : Event) where
  State : Type
  host : Host State
  state : State
  tells : host.Tells replies
  /-- Whether a call that was reported as failed has had its effect nevertheless. -/
  happened : Bool

namespace Attempt

/-- The attempt as a delivery. -/
def delivery (t : Attempt analyzer policy replies event) : Delivery where
  event
  policy
  analyzer
  State := t.State
  host := t.host
  state := t.state
  happened := t.happened

/-- The attempt that is broken off after so many calls. -/
def brokenOff (analyzer : Analyzer) (policy : Policy) (replies : Effect → Response) (event : Event)
    (calls : Nat) (happened : Bool) : Attempt analyzer policy replies event where
  State := Nat × Unit
  host := (Host.steady replies).brokenOff
  state := (calls, ())
  tells := (Host.tells_steady replies).brokenOff
  happened

/-- The attempt at which nothing fails. -/
def whole (analyzer : Analyzer) (policy : Policy) (replies : Effect → Response) (event : Event) :
    Attempt analyzer policy replies event where
  State := Unit
  host := .steady replies
  state := ()
  tells := Host.tells_steady replies
  happened := false

/-- No call of the attempt fails, if the pull request has these labels. -/
def Unbroken (t : Attempt analyzer policy replies event) (labels : LabelSet) : Prop :=
  ∀ e m, (t.delivery.trace labels).result ≠ .error (.call e m)

variable (t : Attempt analyzer policy replies event) (labels : LabelSet)

/-- An attempt records the first of the writes that are wanted, and all of them if no call fails. -/
theorem writes_trace :
    Effect.writes (t.delivery.trace labels).effects <+:
      wanted analyzer policy replies (event.withLabels labels) ∧
    (t.Unbroken labels → Effect.writes (t.delivery.trace labels).effects =
      wanted analyzer policy replies (event.withLabels labels)) := by
  have hplays := Program.plays_run t.host (dispatch analyzer policy (event.withLabels labels)) t.state
  have htells := Program.tells_transcript t.tells (dispatch analyzer policy (event.withLabels labels))
    t.state
  obtain ⟨res, hrun, -, herror⟩ := runHandlers_of_plays hplays
  obtain ⟨hstart, hend⟩ := writes_of_plays_runHandlers hrun htells
  rw [Delivery.trace, Program.effects_run]
  refine ⟨hstart, fun hunbroken => ?_⟩
  rcases hend with ⟨e, m, rfl⟩ | hend
  · exact absurd (herror _ rfl) (hunbroken e m)
  · exact hend

/-- The writes of an attempt that have happened are the first of those that are wanted. -/
theorem writes_effects_prefix : Effect.writes (t.delivery.effects labels) <+:
    wanted analyzer policy replies (event.withLabels labels) := by
  have hpart := t.delivery.effects_prefix labels
  exact (hpart.filter _).trans (t.writes_trace labels).1

variable {t labels}

/-- An attempt that is not cut has all the effects of its run. -/
theorem effects_of_unbroken (h : t.Unbroken labels) :
    t.delivery.effects labels = (t.delivery.trace labels).effects := by
  unfold Delivery.effects
  split
  · rename_i e m hfail
    exact absurd hfail (h e m)
  · rfl

theorem unbroken_whole : (whole analyzer policy replies event).Unbroken labels := by
  intro e m h
  exact Program.value_ne_call _ e m ((Program.result_run_steady _).symm.trans h)

/-- An attempt at which no call fails leaves what all that is wanted makes of the labels. -/
theorem after_of_unbroken (h : t.Unbroken labels) : t.delivery.after labels =
    Effect.applyAll (wanted analyzer policy replies (event.withLabels labels)) labels := by
  rw [Delivery.after, effects_of_unbroken h, ← Effect.applyAll_writes,
    (t.writes_trace labels).2 h]

end Attempt

end PullGate
