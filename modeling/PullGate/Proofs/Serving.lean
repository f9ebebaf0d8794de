import PullGate.Proofs.Compliance.Demands
import PullGate.Proofs.Duplicate
import PullGate.Proofs.ReadsFirst
/-!
# Hosts at which nothing fails

At a host where nothing fails a run hangs only on what reads are answered with: it has the same record
as at any other host that answers so (`Program.Strict.run_of_serves`). Such a record is `traceBy`. That
of the gate is put together from its reads and the writes of its verdict (`Gate.traceBy_run`), and it
hangs on the changed files in one place only, where they are judged (`Gate.traceBy_judge_rel`). So two
listings, or two analyzers, are compared there.
-/

namespace PullGate

open PullGate.Compliance (Analyzer Report)

/-! ## Records at such hosts -/

section

variable {σ α β : Type} {host : Host σ} {replies : Effect → Response}

/-- Nothing fails, and reads are answered so. -/
structure Host.Serves (host : Host σ) (replies : Effect → Response) : Prop where
  tells : host.Tells replies
  unfailing : ∀ s e, ∃ r, (host.answer s e).1 = .ok r

theorem Host.serves_steady (replies : Effect → Response) : (steady replies).Serves replies :=
  ⟨tells_steady replies, fun _ e => ⟨replies e, rfl⟩⟩

namespace Program

/-- The record of a run if nothing fails and effects are answered so. -/
def traceBy (replies : Effect → Response) (p : Program α) : Trace α :=
  (p.run (.steady replies) ()).1

/-- A call comes before what follows from its reply. -/
theorem traceBy_call (e : Effect) (next : Response → Program α) :
    (call e next).traceBy replies = ((next (replies e)).traceBy replies).cons e := rfl

/-- A run at such a host ends with the program's value. -/
theorem result_traceBy (p : Program α) : (p.traceBy replies).result = p.value replies :=
  result_run_steady p

/-- A run of two programs is that of the first and then, if it ended well, that of the second. -/
theorem traceBy_bind (p : Program α) (f : α → Program β) :
    (p.bind f).traceBy replies = match p.traceBy replies with
      | ⟨es, .ok a⟩ => ⟨es ++ ((f a).traceBy replies).effects, ((f a).traceBy replies).result⟩
      | ⟨es, .error e⟩ => ⟨es, .error e⟩ := by
  rw [traceBy, run_bind, traceBy]
  rcases p.run (.steady replies) () with ⟨⟨es, failure | a⟩, _⟩ <;> rfl

/-- Writes are carried out one after another. -/
theorem traceBy_performAll (ws : List Effect) :
    (performAll ws).traceBy replies = ⟨ws, .ok ()⟩ := by
  induction ws with
  | nil => rfl
  | cons w ws ih =>
    have hstep : (performAll (w :: ws)).traceBy replies =
        ((performAll ws).traceBy replies).cons w := rfl
    rw [hstep, ih]
    rfl

/-- Where nothing fails a strict program has the same record at all hosts that tell it the same. -/
theorem Strict.run_of_serves {p : Program α} (hp : p.Strict) (h : host.Serves replies) (s : σ) :
    (p.run host s).1 = p.traceBy replies := by
  induction hp generalizing s with
  | done a => rfl
  | @write e p _ _ ih =>
    obtain ⟨r, hr⟩ := h.unfailing s e
    rcases hanswer : host.answer s e with ⟨answer, s'⟩
    -- nothing fails, and what a write is answered is not looked at
    obtain rfl : answer = .ok r := by rw [← hr, hanswer]
    rw [traceBy_call, ← ih s']
    simp only [run, hanswer]
  | @read e next hread _ hother ih =>
    obtain ⟨r, hr⟩ := h.unfailing s e
    obtain rfl : r = replies e := h.tells s e r hread hr
    rcases hanswer : host.answer s e with ⟨answer, s'⟩
    obtain rfl : answer = .ok (replies e) := by rw [← hr, hanswer]
    have hnext : ((next (replies e)).run host s').1 = (next (replies e)).traceBy replies := by
      -- an answer of the wrong kind stops the program, whichever host gave it
      rcases hexpects : e.expects (replies e) with _ | _
      · rw [hother _ hexpects]
        rfl
      · exact ih _ hexpects s'
    rw [traceBy_call, ← hnext]
    simp only [run, hanswer]

/-- A strict program comes to its end if all reads are answered with what belongs to them. -/
theorem Strict.exists_value {p : Program α} (hp : p.Strict)
    (h : ∀ e : Effect, e.isWrite = false → e.expects (replies e) = true) :
    ∃ a, p.value replies = .ok a := by
  induction hp with
  | done a => exact ⟨a, rfl⟩
  | write _ _ ih => exact ih
  | read hread _ _ ih => exact ih _ (h _ hread)

end Program

end

/-! ## The gate -/

/-- The answers at a host where a pull request changes these files and all else is answered so. -/
def listing (files : List FileChange) (replies : Effect → Response) : Effect → Response
  | .listChangedFiles _ => .changedFiles files
  | e => replies e

namespace Gate

variable {analyzer : Analyzer} {policy : Policy} {event : PullRequestEvent}
  {replies replies' : Effect → Response}

/-- The writes that follow if the gate comes to a verdict, and none otherwise. -/
def writesOf (policy : Policy) (event : PullRequestEvent) : Except Failure Verdict → List Effect
  | .ok v => v.writes policy event
  | .error _ => []

/-- A run records the reads of the gate and then the writes of its verdict, and ends as it says. -/
theorem traceBy_run : (run analyzer policy event).traceBy replies =
    ⟨((judge analyzer policy event).traceBy replies).effects ++
        writesOf policy event ((judge analyzer policy event).value replies),
      ((judge analyzer policy event).value replies).map Verdict.outcome⟩ := by
  rw [run_eq_judge, Program.traceBy_bind, ← Program.result_traceBy]
  rcases (judge analyzer policy event).traceBy replies with ⟨es, failure | v⟩
  · simp only [writesOf, List.append_nil, Except.map]
  · simp only [Verdict.carryOut, Program.traceBy_bind, Program.traceBy_performAll, writesOf,
      Except.map]
    rw [show ((Program.done v.outcome).traceBy replies).effects = [] from rfl, List.append_nil]
    rfl

/-- To judge only reads. -/
theorem isWrite_eq_false_of_traceBy_judge {e : Effect}
    (h : e ∈ ((judge analyzer policy event).traceBy replies).effects) : e.isWrite = false := by
  have hplays := Program.plays_run (.steady replies) (judge analyzer policy event) ()
  rw [Program.traceBy, Program.effects_run] at h
  exact hplays.isWrite_eq_false ofReads_judge.reads e h

/-- At a host where nothing fails a run ends as its verdict says and records all writes of it. -/
theorem run_of_serves (analyzer : Analyzer) (policy : Policy) (event : PullRequestEvent) {σ : Type}
    {host : Host σ} (h : host.Serves replies) (s : σ) :
    let t := ((run analyzer policy event).run host s).1
    t.result = ((judge analyzer policy event).value replies).map Verdict.outcome ∧
      Effect.writes t.effects = writesOf policy event ((judge analyzer policy event).value replies) := by
  intro t
  have ht : t = (run analyzer policy event).traceBy replies := strict_run.run_of_serves h s
  rw [ht, traceBy_run]
  refine ⟨rfl, ?_⟩
  have hwrites : ∀ e ∈ writesOf policy event ((judge analyzer policy event).value replies),
      e.isWrite = true := by
    rcases (judge analyzer policy event).value replies with failure | v
    · exact nofun
    · exact v.isWrite_eq_true
  rw [Effect.writes_append, Effect.writes_eq_nil fun e => isWrite_eq_false_of_traceBy_judge,
    List.nil_append, Effect.writes_eq_self hwrites]

/-! ### Where the listing matters -/

/-- If searches are answered alike, then the records of two gates are related as those of judging the
changed files are. -/
theorem traceBy_judge_rel {analyzer' : Analyzer} {R : Trace Verdict → Trace Verdict → Prop}
    (hrefl : ∀ t : Trace Verdict, (∀ report, t.result ≠ .ok (.analyzed report)) → R t t)
    (hcons : ∀ e t t', R t t' → R (t.cons e) (t'.cons e))
    (hsearch : ∀ author, replies (.searchOpenPrs author) = replies' (.searchOpenPrs author))
    (hfiles : R ((judgeFiles analyzer policy event).traceBy replies)
      ((judgeFiles analyzer' policy event).traceBy replies')) :
    R ((judge analyzer policy event).traceBy replies)
      ((judge analyzer' policy event).traceBy replies') := by
  have hdraft : R ((judgeDraft analyzer policy event).traceBy replies)
      ((judgeDraft analyzer' policy event).traceBy replies') := by
    unfold judgeDraft
    split
    case h_1 | h_2 =>
      split
      · exact hrefl _ fun _ h => by cases h
      · exact hfiles
    case h_3 => exact hfiles
    case h_4 => exact hrefl _ fun _ h => by cases h
  -- the only read in front of the files: both sides search alike, and go on alike
  have hcap : R ((judgeCap analyzer policy event).traceBy replies)
      ((judgeCap analyzer' policy event).traceBy replies') := by
    unfold judgeCap
    split
    · simp only [Program.openPrs, Program.bind, Program.traceBy_call, hsearch]
      apply hcons
      rcases replies' (.searchOpenPrs event.pr.author)
      case openPrs search =>
        simp only [Program.bind]
        split
        · exact hrefl _ fun _ h => by cases h
        · exact hdraft
      all_goals exact hrefl _ fun _ h => by cases h
    · exact hdraft
  unfold judge
  split
  · exact hrefl _ fun _ h => by cases h
  · split
    · exact hrefl _ fun _ h => by cases h
    · exact hcap

/-- The same for what the gates come to. -/
theorem value_judge_rel {analyzer' : Analyzer}
    {R : Except Failure Verdict → Except Failure Verdict → Prop} (hrefl : ∀ a, R a a)
    (hsearch : ∀ author, replies (.searchOpenPrs author) = replies' (.searchOpenPrs author))
    (hfiles : R ((judgeFiles analyzer policy event).value replies)
      ((judgeFiles analyzer' policy event).value replies')) :
    R ((judge analyzer policy event).value replies)
      ((judge analyzer' policy event).value replies') := by
  simp only [← Program.result_traceBy] at hfiles ⊢
  exact traceBy_judge_rel (R := fun t t' => R t.result t'.result) (fun t _ => hrefl t.result)
    (fun _ _ _ h => h) hsearch hfiles

/-- The record of judging the changed files if these are listed. -/
theorem traceBy_judgeFiles (files : List FileChange) :
    (judgeFiles analyzer policy event).traceBy (listing files replies) =
      Trace.cons (.listChangedFiles event.pr.number)
        (match if event.action = .readyForReview then none else checkExtensions policy files with
        | some r => ⟨[], .ok (.turnAway r)⟩
        | none =>
          let t := (analyzeFiles analyzer event (Compliance.sources policy files)
            (.empty (Compliance.hasTestFile policy files))).traceBy (listing files replies)
          ⟨t.effects, t.result.map Verdict.analyzed⟩) := by
  simp only [judgeFiles, Program.changedFiles, Program.bind, Program.traceBy_call, listing]
  rcases if event.action = .readyForReview then none else checkExtensions policy files with _ | r
  · simp only [Program.traceBy_bind]
    rcases (analyzeFiles _ _ _ _).traceBy _ with ⟨es, failure | report⟩
    · rfl
    · simp only [Except.map]
      rw [show ((Program.done (Verdict.analyzed report)).traceBy (listing files replies)).effects = []
        from rfl, List.append_nil]
      rfl
  · rfl

/-- What the changed files come to if these are listed. -/
theorem value_judgeFiles (files : List FileChange) :
    (judgeFiles analyzer policy event).value (listing files replies) =
      match if event.action = .readyForReview then none else checkExtensions policy files with
      | some r => .ok (.turnAway r)
      | none => ((analyzeFiles analyzer event (Compliance.sources policy files)
          (.empty (Compliance.hasTestFile policy files))).value (listing files replies)).map
            Verdict.analyzed := by
  rw [← Program.result_traceBy, traceBy_judgeFiles, ← Program.result_traceBy]
  split <;> rfl

/-! ### Files one after another -/

/-- The record of reading a file. -/
theorem traceBy_analyzeFiles_cons (f : FileChange) (files : List FileChange) (report : Report) :
    (analyzeFiles analyzer event (f :: files) report).traceBy replies =
      Trace.cons (.getFileContent f.path event.pr.head)
        (match replies (.getFileContent f.path event.pr.head) with
        | .fileContent text =>
          (analyzeFiles analyzer event files (report.record f.path (analyzer text))).traceBy replies
        | other => ⟨[], .error (.mismatch (.getFileContent f.path event.pr.head) other)⟩) := by
  simp only [analyzeFiles, Program.bind_eq, Program.fileContent, Program.bind, Program.traceBy_call]
  rcases replies (.getFileContent f.path event.pr.head) <;> rfl

/-- Reading files does not hang on the listing. -/
theorem traceBy_analyzeFiles_listing (listed files : List FileChange) (report : Report) :
    (analyzeFiles analyzer event files report).traceBy (listing listed replies) =
      (analyzeFiles analyzer event files report).traceBy replies := by
  induction files generalizing report with
  | nil => rfl
  | cons f files ih =>
    rw [traceBy_analyzeFiles_cons, traceBy_analyzeFiles_cons]
    simp only [listing, ih]

/-- What is listed makes no difference to the analysis of given files. -/
theorem value_analyzeFiles_listing (listed files : List FileChange) (report : Report) :
    (analyzeFiles analyzer event files report).value (listing listed replies) =
      (analyzeFiles analyzer event files report).value replies := by
  rw [← Program.result_traceBy, traceBy_analyzeFiles_listing, Program.result_traceBy]

/-- Files are read alike, whatever analyses them: what recording a file keeps of two reports is so of
those at the end, or a read is answered with something else for both. -/
theorem traceBy_analyzeFiles_rel (analyzer analyzer' : Analyzer) (event : PullRequestEvent)
    (replies : Effect → Response) {R : Report → Report → Prop}
    (hrecord : ∀ r r' path text, R r r' →
      R (r.record path (analyzer text)) (r'.record path (analyzer' text)))
    (files : List FileChange) {report report' : Report} (h : R report report') :
    ∃ es,
      (∃ failure, (analyzeFiles analyzer event files report).traceBy replies = ⟨es, .error failure⟩ ∧
        (analyzeFiles analyzer' event files report').traceBy replies = ⟨es, .error failure⟩) ∨
      ∃ r r', (analyzeFiles analyzer event files report).traceBy replies = ⟨es, .ok r⟩ ∧
        (analyzeFiles analyzer' event files report').traceBy replies = ⟨es, .ok r'⟩ ∧ R r r' := by
  -- on the files, for all pairs of reports: a file read changes both
  induction files generalizing report report' with
  | nil => exact ⟨[], .inr ⟨report, report', rfl, rfl, h⟩⟩
  | cons f files ih =>
    simp only [traceBy_analyzeFiles_cons]
    split
    case h_1 text _ =>
      obtain ⟨es, hes⟩ := ih (hrecord _ _ f.path text h)
      refine ⟨.getFileContent f.path event.pr.head :: es, ?_⟩
      rcases hes with ⟨failure, ha, hb⟩ | ⟨r, r', ha, hb, hR⟩
      · rw [ha, hb]
        exact .inl ⟨failure, rfl, rfl⟩
      · rw [ha, hb]
        exact .inr ⟨r, r', rfl, rfl, hR⟩
    case h_2 => exact ⟨_, .inl ⟨_, rfl, rfl⟩⟩

end Gate

end PullGate
