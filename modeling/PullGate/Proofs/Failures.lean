import PullGate.Proofs.Attempt
import PullGate.Proofs.AwaitingReview
/-!
# Failures

A run comes to its end unless an answer stops it, and such an answer stops it at once: a failed call,
or a read that is answered with what belongs to another. `Program.Strict` is the property of a
program that this rests on. All that an event leads to has it (`strict_dispatch`): the gate and the
other handlers are put together from the four reads (`Program.OfReads`) and from writes whose answers
nobody looks at. What a run's transcript then says about its end is `Transcript.Ends`, and
`Program.run_of_failsAfter` is what becomes of a run when the host gives out during it.
-/

namespace PullGate

open PullGate.Compliance (Analyzer)

/-! ## Answers that belong to an effect -/

namespace Effect

/-- Whether it is this effect that is answered so when it succeeds. -/
def expects : Effect → Response → Bool
  | listChangedFiles _, .changedFiles _ => true
  | getFileContent _ _, .fileContent _ => true
  | searchOpenPrs _, .openPrs _ => true
  | listCheckRuns _, .checkRuns _ => true
  | postComment _ _, .commentPosted => true
  | addLabels _ _, .labelsAdded => true
  | removeLabel _ _, .labelRemoved => true
  | closePr _, .prClosed => true
  | unassignReviewers _ _, .reviewersUnassigned => true
  | _, _ => false

/-- The effect succeeds, and if it is a read, the answer belongs to it. -/
def Accepts (e : Effect) (answer : Except String Response) : Prop :=
  ∃ r, answer = .ok r ∧ (e.isWrite = false → e.expects r = true)

end Effect

/-! ## Strict programs -/

namespace Program

variable {α β : Type}

/-- A program that goes on after a write whatever was answered, and after a read if and only if the
answer belongs to it. It never gives up for another reason. -/
inductive Strict : Program α → Prop
  | done (a : α) : Strict (.done a)
  | write {e : Effect} {p : Program α} (hwrite : e.isWrite = true) (h : Strict p) :
      Strict (.call e fun _ => p)
  | read {e : Effect} {next : Response → Program α} (hread : e.isWrite = false)
      (h : ∀ r, e.expects r = true → Strict (next r))
      (hother : ∀ r, e.expects r = false → next r = .mismatch e r) : Strict (.call e next)

/-- The second of two programs must be strict only for what the first can come to. -/
theorem Strict.bind {p : Program α} {f : α → Program β} (hp : p.Strict)
    (hf : ∀ xs a, p.Plays xs (.ok a) → (f a).Strict) : (p.bind f).Strict := by
  induction hp with
  | done a => exact hf [] a (.done a)
  | @write e p hwrite _ ih =>
    -- any answer will do, since the program goes on alike after all of them
    have hanswered (xs : Transcript) (a : _) (hplays : p.Plays xs (.ok a)) :
        (call e fun _ => p).Plays ((e, .ok .commentPosted) :: xs) (.ok a) := .answered hplays
    exact .write hwrite (ih fun xs a hplays => hf _ a (hanswered xs a hplays))
  | read hread _ hother ih =>
    refine .read hread (fun r hr => ih r hr fun xs a hplays => hf _ a (.answered hplays)) ?_
    intro r hr
    rw [hother r hr]
    rfl

/-- Writes one after another need only be carried out. -/
theorem strict_performAll {ws : List Effect} (h : ∀ w ∈ ws, w.isWrite = true) :
    (performAll ws).Strict := by
  induction ws with
  | nil => exact .done ()
  | cons w ws ih =>
    exact .write (h w List.mem_cons_self) (ih fun v hv => h v (List.mem_cons_of_mem w hv))

/-- Each of the four reads takes its own answer and no other. -/
theorem OfReads.strict {p : Program α} (h : p.OfReads) : p.Strict := by
  induction h with
  | done a => exact .done a
  | changedFiles | fileContent | openPrs | checkRuns =>
    refine .read rfl (fun r hr => ?_) (fun r hr => ?_)
    · cases r <;> first | exact .done _ | cases hr
    · cases r <;> first | rfl | cases hr
  | bind _ _ ihp ihf => exact ihp.bind fun _ a _ => ihf a

end Program

section

variable (analyzer : Analyzer) (policy : Policy)

/-- All handlers end as they are answered. -/
theorem Handler.strict_program (h : Handler) (event : Event) :
    (h.program analyzer policy event).Strict := by
  rw [program_eq_turn]
  refine (h.ofReads_turn analyzer policy event).strict.bind fun xs ws hplays => ?_
  exact Program.strict_performAll (Asks.isWrite_eq_true ⟨xs, hplays⟩)

theorem strict_runHandlers (event : Event) (hs : List Handler) :
    (runHandlers analyzer policy event hs).Strict := by
  induction hs with
  | nil => exact .done ()
  | cons h hs ih => exact (h.strict_program analyzer policy event).bind fun _ _ _ => ih

theorem strict_dispatch (event : Event) : (dispatch analyzer policy event).Strict := by
  rw [dispatch_eq_runHandlers]
  exact (strict_runHandlers analyzer policy event _).bind fun _ _ _ => .done _

end

/-! ## What a transcript says about the end -/

namespace Transcript

/-- All effects succeeded, and each read was answered with what belongs to it. -/
def Accepted (xs : Transcript) : Prop := ∀ x ∈ xs, x.1.Accepts x.2

/-- A run with such a transcript ends so. -/
inductive Ends {α : Type} : Transcript → Except Failure α → Prop
  | ok {xs : Transcript} (h : xs.Accepted) (a : α) : Ends xs (.ok a)
  | call {xs : Transcript} (h : xs.Accepted) (e : Effect) (m : String) :
      Ends (xs ++ [(e, .error m)]) (.error (.call e m))
  | mismatch {xs : Transcript} (h : xs.Accepted) {e : Effect} {r : Response}
      (hread : e.isWrite = false) (hother : e.expects r = false) :
      Ends (xs ++ [(e, .ok r)]) (.error (.mismatch e r))

theorem accepted_nil : Accepted [] := nofun

/-- A call that is answered as it should be, before others that are. -/
theorem Accepted.cons {x : Effect × Except String Response} {xs : Transcript}
    (hx : x.1.Accepts x.2) (h : xs.Accepted) : Accepted (x :: xs) := by
  intro y hy
  rcases List.mem_cons.1 hy with rfl | hy
  · exact hx
  · exact h y hy

namespace Ends

variable {α : Type} {xs : Transcript} {res : Except Failure α}

/-- One call more, answered as it should be, leaves the ending as it is. -/
theorem cons {x : Effect × Except String Response} (hx : x.1.Accepts x.2) (h : xs.Ends res) :
    Ends (x :: xs) res := by
  cases h with
  | ok h a => exact .ok (.cons hx h) a
  | call h e m => exact .call (.cons hx h) e m
  | mismatch h hread hother => exact .mismatch (.cons hx h) hread hother

/-- A run comes to its end exactly if all its calls were answered as they should be. -/
theorem exists_ok_iff (h : xs.Ends res) : (∃ a, res = .ok a) ↔ xs.Accepted := by
  cases h with
  | ok h a => exact ⟨fun _ => h, fun _ => ⟨a, rfl⟩⟩
  | call _ e m =>
    refine ⟨fun ⟨_, hok⟩ => (nomatch hok), fun hall => ?_⟩
    obtain ⟨r, hr, -⟩ := hall (e, .error m) (by simp)
    cases hr
  | @mismatch _ _ e r hread hother =>
    refine ⟨fun ⟨_, hok⟩ => (nomatch hok), fun hall => ?_⟩
    obtain ⟨r', hr, hexpects⟩ := hall (e, .ok r) (by simp)
    cases hr
    exact absurd (hother.symm.trans (hexpects hread)) Bool.false_ne_true

/-- It fails at a call exactly if that call was the last and failed. -/
theorem call_iff (h : xs.Ends res) (e : Effect) (m : String) :
    res = .error (.call e m) ↔ xs.getLast? = some (e, .error m) := by
  cases h with
  | ok h a =>
    refine ⟨nofun, fun hlast => ?_⟩
    obtain ⟨r, hr, -⟩ := h _ (List.mem_of_getLast? hlast)
    cases hr
  | call _ e' m' => simp
  | mismatch => simp

/-- It fails at an answer of another kind exactly if the last call only reads and was answered so. -/
theorem mismatch_iff (h : xs.Ends res) (e : Effect) (r : Response) :
    res = .error (.mismatch e r) ↔
      xs.getLast? = some (e, .ok r) ∧ e.isWrite = false ∧ e.expects r = false := by
  cases h with
  | ok h a =>
    refine ⟨nofun, fun ⟨hlast, hread, hother⟩ => ?_⟩
    obtain ⟨r', hr, hexpects⟩ := h _ (List.mem_of_getLast? hlast)
    cases hr
    exact absurd (hother.symm.trans (hexpects hread)) Bool.false_ne_true
  | call => simp
  | @mismatch _ _ e' r' hread hother =>
    simp only [List.getLast?_concat, Except.error.injEq, Failure.mismatch.injEq, Option.some.injEq,
      Prod.mk.injEq, Except.ok.injEq]
    constructor
    · rintro ⟨rfl, rfl⟩
      exact ⟨⟨rfl, rfl⟩, hread, hother⟩
    · exact And.left

end Ends

end Transcript

/-- A strict program stops at the first answer that is not accepted, and at no other. -/
theorem Program.Strict.ends {α : Type} {p : Program α} (hp : p.Strict) {xs : Transcript}
    {res : Except Failure α} (h : p.Plays xs res) : xs.Ends res := by
  induction hp generalizing xs with
  | done a =>
    obtain ⟨rfl, rfl⟩ := plays_done_iff.1 h
    exact .ok Transcript.accepted_nil a
  -- what a write is answered with is not looked at, so only reads can be answered with something
  -- else
  | @write e p hwrite _ ih =>
    cases h with
    | failed _ _ m => exact .call Transcript.accepted_nil e m
    | answered h =>
      refine (ih h).cons ⟨_, rfl, fun hread => ?_⟩
      exact absurd (hread.symm.trans hwrite) Bool.false_ne_true
  | @read e next hread _ hother ih =>
    cases h with
    | failed _ _ m => exact .call Transcript.accepted_nil e m
    | @answered _ _ r _ _ h =>
      rcases hr : e.expects r with _ | _
      · -- the program gives up here, so nothing can follow in the transcript
        rw [hother r hr] at h
        cases h
        exact .mismatch Transcript.accepted_nil hread hr
      · exact (ih r hr h).cons ⟨r, rfl, fun _ => hr⟩

/-! ## Hosts that answer like another -/

section

variable {σ τ α : Type}

/-- A host answers like another one, up to so many calls, whatever they ask for. The next call
fails. -/
def Host.FailsAfter (host' : Host τ) (host : Host σ) : Nat → τ → σ → Prop
  | 0, t, _ => ∀ e, ∃ m, (host'.answer t e).1 = .error m
  | k + 1, t, s => ∀ e, (host'.answer t e).1 = (host.answer s e).1 ∧
      host'.FailsAfter host k (host'.answer t e).2 (host.answer s e).2

/-- A host that breaks off gives out after the calls that it has left. -/
theorem Host.failsAfter_brokenOff (host : Host σ) (k : Nat) (s : σ) :
    host.brokenOff.FailsAfter host k (k, s) s := by
  induction k generalizing s with
  | zero => exact fun _ => ⟨_, rfl⟩
  | succ k ih => exact fun e => ⟨rfl, ih _⟩

/-- The host that answers like another one, but for the kinds of answers that writes get. -/
def Host.rewording (host : Host σ) (f : σ → Effect → Response → Response) : Host σ where
  answer s e :=
    let (answer, s') := host.answer s e
    (if e.isWrite then answer.map (f s e) else answer, s')

/-- Rewording changes what writes are answered, and nothing else. -/
theorem Host.answer_rewording (host : Host σ) (f : σ → Effect → Response → Response) (s : σ)
    (e : Effect) : (host.rewording f).answer s e =
      (if e.isWrite then (host.answer s e).1.map (f s e) else (host.answer s e).1,
        (host.answer s e).2) := rfl

namespace Program

/-- **A host that gives out.** If the run has got further by then, it ends with the call that failed;
if not, nothing is different. -/
theorem run_of_failsAfter {host' : Host τ} {host : Host σ} (p : Program α) {k : Nat} {t : τ} {s : σ}
    (h : host'.FailsAfter host k t s) :
    (k < (p.run host s).1.effects.length →
      (p.run host' t).1.effects = (p.run host s).1.effects.take (k + 1) ∧
        ∃ e m, (p.run host' t).1.result = .error (.call e m)) ∧
    ((p.run host s).1.effects.length ≤ k → (p.run host' t).1 = (p.run host s).1) := by
  induction p generalizing k t s with
  | done a => exact ⟨nofun, fun _ => rfl⟩
  | mismatch e r => exact ⟨nofun, fun _ => rfl⟩
  | call e next ih =>
    cases k with
    | zero =>
      -- this is the call that fails; the other host may let it fail as well
      obtain ⟨m, hm⟩ := h e
      rcases hanswer' : host'.answer t e with ⟨_, t'⟩
      rw [hanswer'] at hm
      cases hm
      rcases hanswer : host.answer s e with ⟨m' | r, s'⟩ <;>
        simp [run, hanswer, hanswer', Trace.cons]
    | succ k =>
      obtain ⟨hsame, hrest⟩ := h e
      rcases hanswer' : host'.answer t e with ⟨_, t'⟩
      rcases hanswer : host.answer s e with ⟨m | r, s'⟩ <;>
        rw [hanswer, hanswer'] at hsame hrest <;> cases hsame
      · simp [run, hanswer, hanswer']
      · obtain ⟨hcut, hwhole⟩ := ih r hrest
        simp only [run, hanswer, hanswer', Trace.cons, List.length_cons, Nat.add_lt_add_iff_right,
          Nat.add_le_add_iff_right, List.take_succ_cons, List.cons.injEq, true_and]
        exact ⟨hcut, fun hlen => by rw [hwhole hlen]⟩

/-- Strict programs do not look at what writes are answered with. -/
theorem Strict.run_rewording {p : Program α} (hp : p.Strict) (host : Host σ)
    (f : σ → Effect → Response → Response) (s : σ) :
    p.run (host.rewording f) s = p.run host s := by
  induction hp generalizing s with
  | done a => rfl
  | @write e p hwrite _ ih =>
    rcases hanswer : host.answer s e with ⟨m | r, s'⟩ <;>
      simp [run, Host.answer_rewording, hanswer, hwrite, Except.map, ih]
  | @read e next hread _ hother ih =>
    rcases hanswer : host.answer s e with ⟨m | r, s'⟩
    · simp [run, Host.answer_rewording, hanswer, hread]
    · rcases hr : e.expects r with _ | _
      · simp [run, Host.answer_rewording, hanswer, hread, hother r hr]
      · simp [run, Host.answer_rewording, hanswer, hread, ih r hr]

end Program

end

/-! ## All that an event leads to -/

/-- **A run ends as it is answered.** If the host gives out at some call, the run has recorded the
calls up to this one and ends with its failure; if it has fewer calls, nothing is different. A run
comes to its end if and only if all its calls succeeded and each read was answered with what belongs
to it. It gives up if and only if the last call is a read that was answered with something else, and
says which; it ends with a failed call if and only if the last call failed. What a write is answered
with makes no difference. -/
theorem dispatch_ends_as_answered {σ : Type} (analyzer : Analyzer) (policy : Policy) (event : Event)
    (host : Host σ) (s : σ) :
    let p := dispatch analyzer policy event
    let trace := (p.run host s).1
    let xs := p.transcript host s
    trace.effects = xs.effects ∧
    (∀ (τ : Type) (host' : Host τ) (t : τ) (k : Nat), host'.FailsAfter host k t s →
      (k < trace.effects.length →
        (p.run host' t).1.effects = trace.effects.take (k + 1) ∧
          ∃ e m, (p.run host' t).1.result = .error (.call e m)) ∧
      (trace.effects.length ≤ k → (p.run host' t).1 = trace)) ∧
    ((∃ d, trace.result = .ok d) ↔ xs.Accepted) ∧
    (∀ e r, trace.result = .error (.mismatch e r) ↔
      xs.getLast? = some (e, .ok r) ∧ e.isWrite = false ∧ e.expects r = false) ∧
    (∀ e m, trace.result = .error (.call e m) ↔ xs.getLast? = some (e, .error m)) ∧
    ∀ f : σ → Effect → Response → Response, p.run (host.rewording f) s = p.run host s := by
  intro p trace xs
  have hstrict : p.Strict := strict_dispatch analyzer policy event
  have hends : xs.Ends trace.result := hstrict.ends (Program.plays_run host p s)
  refine ⟨Program.effects_run host p s, ?_, hends.exists_ok_iff, hends.mismatch_iff, hends.call_iff,
    fun f => hstrict.run_rewording host f s⟩
  intro τ host' t k hfails
  exact p.run_of_failsAfter hfails

/-- Checks that failed are looked up and their label is set; when this fails, nothing else is asked
for. -/
theorem dispatch_ends_as_answered_label_failed :
    let event := Event.pullRequest (.byOwner .readyForReview none ∅)
    let p := dispatch (fun _ => .ok []) .standard event
    let host := Host.steady (Host.plainReply [⟨"completed", some "failure"⟩])
    host.brokenOff.FailsAfter host 1 (1, ()) () ∧ 1 < (p.run host ()).1.effects.length ∧
      (p.run host.brokenOff (1, ())).1.effects = (p.run host ()).1.effects.take 2 ∧
        ∃ e m, (p.run host.brokenOff (1, ())).1.result = .error (.call e m) := by
  intro event p host
  have hfails : host.brokenOff.FailsAfter host 1 (1, ()) () := host.failsAfter_brokenOff 1 ()
  have hlong : 1 < (p.run host ()).1.effects.length := by decide +kernel
  obtain ⟨-, hcut, -⟩ := dispatch_ends_as_answered (fun _ => .ok []) .standard event host ()
  exact ⟨hfails, hlong, (hcut _ host.brokenOff (1, ()) 1 hfails).1 hlong⟩

end PullGate
