import PullGate.Proofs.Failures
/-!
# Reads come first

The gate reads whatever it needs before it changes anything. `Gate.readList` is all that it can ask to
be told about a pull request, in order, and every run asks for the first part of this and then for
writes (`Gate.reads_of_plays_run`). A run that stops at a read has therefore changed nothing. Where
two handlers take care of an event, the label of failing checks is the one write that can stand in
front of reads (`splits_of_plays_dispatch`).
-/

namespace PullGate

open PullGate.Compliance (Analyzer Report)

/-! ## One read after another -/

/-- The failure is a read's: its call failed, or it was answered with what belongs to another. -/
def Failure.IsOfRead : Failure → Prop
  | call e _ => e.isWrite = false
  | mismatch _ _ => True

namespace Program

variable {α : Type}

/-- A program that ends after a call, whatever is answered, asks for nothing else. -/
theorem Plays.effects_of_call {e : Effect} {next : Response → Program α} {xs : Transcript}
    {res : Except Failure α} (h : (call e next).Plays xs res)
    (hend : ∀ r ys res, (next r).Plays ys res → ys = []) : xs.effects = [e] := by
  cases h with
  | failed _ _ m => rfl
  | @answered _ _ r ys _ h =>
    obtain rfl := hend r ys _ h
    rfl

/-- To read the changed files is one call. -/
theorem Plays.effects_changedFiles {pr : PrNumber} {xs : Transcript}
    {res : Except Failure (List FileChange)} (h : (Program.changedFiles pr).Plays xs res) :
    xs.effects = [.listChangedFiles pr] :=
  h.effects_of_call fun r _ _ h => by cases r <;> cases h <;> rfl

theorem Plays.effects_fileContent {path : String} {reference : Commit} {xs : Transcript}
    {res : Except Failure String} (h : (Program.fileContent path reference).Plays xs res) :
    xs.effects = [.getFileContent path reference] :=
  h.effects_of_call fun r _ _ h => by cases r <;> cases h <;> rfl

theorem Plays.effects_openPrs {author : String} {xs : Transcript}
    {res : Except Failure OpenSearch} (h : (Program.openPrs author).Plays xs res) :
    xs.effects = [.searchOpenPrs author] :=
  h.effects_of_call fun r _ _ h => by cases r <;> cases h <;> rfl

theorem Plays.effects_checkRuns {commit : Commit} {xs : Transcript}
    {res : Except Failure (List CheckRun)} (h : (Program.checkRuns commit).Plays xs res) :
    xs.effects = [.listCheckRuns commit] :=
  h.effects_of_call fun r _ _ h => by cases r <;> cases h <;> rfl

end Program

/-! ## What the gate reads -/

namespace Gate

section

variable (policy : Policy) (event : PullRequestEvent)

/-- The reads of files: the changed ones are listed, and then the text of each that is analysed is
read, as of the last commit. -/
def fileReads (files : List FileChange) : List Effect :=
  .listChangedFiles event.pr.number ::
    (Compliance.sources policy files).map fun f => .getFileContent f.path event.pr.head

/-- All that the gate can ask to be told about a pull request that changes these files, in order. -/
def readList (files : List FileChange) : List Effect :=
  (if asksAuthor event ∧ policy.maxOpenPullRequests ≠ 0 then [.searchOpenPrs event.pr.author]
    else []) ++ fileReads policy event files

/-- These are the first of the reads on a list, and texts are read only of the files that the listing
was answered with. -/
def ReadsAlong (list : List FileChange → List Effect) (reads : List Effect) (answered : Transcript) :
    Prop :=
  ∃ files, reads <+: list files ∧
    ∀ path reference, .getFileContent path reference ∈ reads →
      (.listChangedFiles event.pr.number, .ok (.changedFiles files)) ∈ answered

end

variable {analyzer : Analyzer} {policy : Policy} {event : PullRequestEvent}

/-- Texts are read one after another, until one cannot be. -/
theorem effects_of_plays_analyzeFiles {files : List FileChange} {report : Report} {xs : Transcript}
    {res : Except Failure Report} (h : (analyzeFiles analyzer event files report).Plays xs res) :
    xs.effects <+: files.map fun f => .getFileContent f.path event.pr.head := by
  induction files generalizing report xs with
  | nil =>
    obtain ⟨rfl, -⟩ := Program.plays_done_iff.1 h
    exact List.prefix_rfl
  | cons f files ih =>
    rcases Program.Plays.of_bind h with ⟨e, htext, -⟩ | ⟨ys, text, zs, htext, hrest, rfl⟩
    · rw [htext.effects_fileContent]
      exact List.prefix_append [_] _
    · rw [Transcript.effects_append, htext.effects_fileContent]
      exact (List.prefix_cons_inj _).2 (ih hrest)

/-- To judge on the files reads along their list. -/
theorem reads_of_plays_judgeFiles {xs : Transcript} {res : Except Failure Verdict}
    (h : (judgeFiles analyzer policy event).Plays xs res) :
    ReadsAlong event (fileReads policy event) xs.effects xs := by
  rcases h.of_bind with ⟨e, hlist, -⟩ | ⟨ys, files, zs, hlist, hrest, rfl⟩
  · -- the listing fails, so no text is read
    refine ⟨[], ?_, ?_⟩
    · rw [hlist.effects_changedFiles]
      exact List.prefix_append [_] _
    · intro path reference hmem
      rw [hlist.effects_changedFiles] at hmem
      cases List.mem_singleton.1 hmem
  -- without sources the analysis is not run, so no text is read there either
  · have htexts : zs.effects <+: (Compliance.sources policy files).map
        fun f => .getFileContent f.path event.pr.head := by
      split at hrest
      · obtain ⟨rfl, -⟩ := Program.plays_done_iff.1 hrest
        exact List.nil_prefix
      · rcases hrest.of_bind with ⟨e, hanalyze, -⟩ | ⟨us, report, vs, hanalyze, hend, rfl⟩
        · exact effects_of_plays_analyzeFiles hanalyze
        · obtain ⟨rfl, -⟩ := Program.plays_done_iff.1 hend
          rw [List.append_nil]
          exact effects_of_plays_analyzeFiles hanalyze
    refine ⟨files, ?_, fun _ _ _ => ?_⟩
    · rw [Transcript.effects_append, hlist.effects_changedFiles]
      exact (List.prefix_cons_inj _).2 htexts
    · rw [hlist.changedFiles]
      exact List.mem_cons_self

theorem readsAlong_nil {list : List FileChange → List Effect} {answered : Transcript} :
    ReadsAlong event list [] answered :=
  ⟨[], List.nil_prefix, nofun⟩

/-- Further answers do not change what was read along the list. -/
theorem ReadsAlong.mono {list : List FileChange → List Effect} {reads : List Effect}
    {xs ys : Transcript} (h : ReadsAlong event list reads xs) (hsub : xs ⊆ ys) :
    ReadsAlong event list reads ys := by
  obtain ⟨files, hstart, htexts⟩ := h
  exact ⟨files, hstart, fun path reference hmem => hsub (htexts path reference hmem)⟩

/-- A verdict for which nothing is read. -/
theorem readsAlong_of_plays_done {list : List FileChange → List Effect} {v : Verdict}
    {xs : Transcript} {res : Except Failure Verdict} (h : (Program.done v).Plays xs res) :
    ReadsAlong event list xs.effects xs := by
  obtain ⟨rfl, -⟩ := Program.plays_done_iff.1 h
  exact readsAlong_nil

/-- To judge from the look at drafts on reads along the list of files. -/
theorem reads_of_plays_judgeDraft {xs : Transcript} {res : Except Failure Verdict}
    (h : (judgeDraft analyzer policy event).Plays xs res) :
    ReadsAlong event (fileReads policy event) xs.effects xs := by
  unfold judgeDraft at h
  split at h
  case h_1 | h_2 =>
    split at h
    · exact readsAlong_of_plays_done h
    · exact reads_of_plays_judgeFiles h
  case h_3 => exact reads_of_plays_judgeFiles h
  case h_4 => exact readsAlong_of_plays_done h

/-- To judge from the look at other pull requests on reads along the whole list. -/
theorem reads_of_plays_judgeCap {xs : Transcript} {res : Except Failure Verdict}
    (h : (judgeCap analyzer policy event).Plays xs res) :
    ReadsAlong event (readList policy event) xs.effects xs := by
  unfold judgeCap at h
  unfold readList
  split at h
  · rename_i hasks
    rw [if_pos hasks]
    -- what follows the search has read along the files, or nothing
    have searched {ys zs : Transcript} (hys : ys.effects = [.searchOpenPrs event.pr.author])
        (hzs : ReadsAlong event (fileReads policy event) zs.effects zs) :
        ReadsAlong event (fun files => [.searchOpenPrs event.pr.author] ++
          fileReads policy event files) (Transcript.effects (ys ++ zs)) (ys ++ zs) := by
      obtain ⟨files, hstart, htexts⟩ := hzs
      refine ⟨files, ?_, fun path reference hmem => ?_⟩
      · rw [Transcript.effects_append, hys]
        exact (List.prefix_cons_inj _).2 hstart
      · rw [Transcript.effects_append, hys] at hmem
        rcases List.mem_cons.1 hmem with hsearch | hmem
        · cases hsearch
        · exact List.mem_append_right ys (htexts path reference hmem)
    rcases h.of_bind with ⟨e, hsearch, -⟩ | ⟨ys, search, zs, hsearch, hrest, rfl⟩
    · rw [← List.append_nil xs]
      exact searched hsearch.effects_openPrs readsAlong_nil
    · refine searched hsearch.effects_openPrs ?_
      split at hrest
      · exact readsAlong_of_plays_done hrest
      · exact reads_of_plays_judgeDraft hrest
  · rename_i hasks
    rw [if_neg hasks]
    exact reads_of_plays_judgeDraft h

/-- The gate comes to its verdict by reading along `readList`. -/
theorem reads_of_plays_judge {xs : Transcript} {res : Except Failure Verdict}
    (h : (judge analyzer policy event).Plays xs res) :
    ReadsAlong event (readList policy event) xs.effects xs := by
  unfold judge at h
  split at h
  · exact readsAlong_of_plays_done h
  · split at h
    · exact readsAlong_of_plays_done h
    · exact reads_of_plays_judgeCap h

/-- A run of the gate reads along `readList`, and then asks for writes only. -/
theorem split_of_plays_run {xs : Transcript} {res : Except Failure Outcome}
    (h : (run analyzer policy event).Plays xs res) :
    ∃ ys writes, xs.effects = Transcript.effects ys ++ writes ∧ ys ⊆ xs ∧
      ReadsAlong event (readList policy event) ys.effects ys ∧
      (∀ e ∈ ys.effects, e.isWrite = false) ∧ ∀ e ∈ writes, e.isWrite = true := by
  rw [run_eq_judge] at h
  rcases h.of_bind with ⟨e, hjudge, -⟩ | ⟨ys, v, zs, hjudge, hcarry, rfl⟩
  · exact ⟨xs, [], (List.append_nil _).symm, List.Subset.refl xs, reads_of_plays_judge hjudge,
      hjudge.isWrite_eq_false ofReads_judge.reads, nofun⟩
  · have hstart : zs.effects <+: v.writes policy event := by
      rcases Program.Plays.of_bind hcarry with ⟨e, hwrites, -⟩ | ⟨us, _, vs, hwrites, hend, rfl⟩
      · exact hwrites.performAll.1
      · obtain ⟨rfl, -⟩ := Program.plays_done_iff.1 hend
        rw [List.append_nil]
        exact hwrites.performAll.1
    exact ⟨ys, zs.effects, Transcript.effects_append ys zs, List.subset_append_left ys zs,
      reads_of_plays_judge hjudge, hjudge.isWrite_eq_false ofReads_judge.reads,
      fun e he => v.isWrite_eq_true e (hstart.subset he)⟩

/-- The gate ends as it is answered. -/
theorem strict_run : (run analyzer policy event).Strict := by
  rw [run_eq_judge]
  refine ofReads_judge.strict.bind fun _ v _ => ?_
  exact (Program.strict_performAll v.isWrite_eq_true).bind fun _ _ _ => .done _

end Gate

/-! ## What the handlers of an event read -/

variable {analyzer : Analyzer} {policy : Policy}

/-- What a handler's turn reads: the gate along its list, and the upkeep of failing checks the runs of
checks. All others read nothing. -/
def Handler.ReadsAlong (policy : Policy) : Handler → Event → Transcript → Prop
  | gateKeeper, .pullRequest e, xs => Gate.ReadsAlong e (Gate.readList policy e) xs.effects xs
  | failingChecks, .pullRequest e, xs => xs.effects = [] ∨ xs.effects = [.listCheckRuns e.pr.head]
  | _, _, xs => xs = []

/-- Each handler reads along its list. -/
theorem Handler.reads_of_plays_turn {h : Handler} {event : Event} {xs : Transcript}
    {res : Except Failure (List Effect)} (hp : (h.turn analyzer policy event).Plays xs res) :
    h.ReadsAlong policy event xs := by
  cases h <;> cases event
  case gateKeeper.pullRequest e =>
    rcases Program.Plays.of_bind hp with ⟨_, hjudge, -⟩ | ⟨ys, v, zs, hjudge, hend, rfl⟩
    · exact Gate.reads_of_plays_judge hjudge
    · obtain ⟨rfl, -⟩ := Program.plays_done_iff.1 hend
      rw [List.append_nil]
      exact Gate.reads_of_plays_judge hjudge
  case failingChecks.pullRequest e =>
    simp only [turn] at hp
    split at hp
    · obtain ⟨rfl, -⟩ := Program.plays_done_iff.1 hp
      exact .inl rfl
    · rcases hp.of_bind with ⟨_, hruns, -⟩ | ⟨ys, runs, zs, hruns, hend, rfl⟩
      · exact .inr hruns.effects_checkRuns
      · obtain ⟨rfl, -⟩ := Program.plays_done_iff.1 hend
        rw [List.append_nil]
        exact .inr hruns.effects_checkRuns
  all_goals exact (Program.plays_done_iff.1 hp).1

/-- A run of one handler takes its turn, and then asks for writes only. -/
theorem Handler.split_of_plays {h : Handler} {event : Event} {xs : Transcript}
    {res : Except Failure Unit} (hp : (h.program analyzer policy event).Plays xs res) :
    ∃ ys writes, xs.effects = Transcript.effects ys ++ writes ∧ ys ⊆ xs ∧
      h.ReadsAlong policy event ys ∧ (∀ e ∈ ys.effects, e.isWrite = false) ∧
      ∀ e ∈ writes, e.isWrite = true := by
  have hreads := (h.ofReads_turn analyzer policy event).reads
  rw [program_eq_turn] at hp
  rcases hp.of_bind with ⟨_, hturn, -⟩ | ⟨ys, ws, zs, hturn, hwrites, rfl⟩
  · exact ⟨xs, [], (List.append_nil _).symm, List.Subset.refl xs, reads_of_plays_turn hturn,
      hturn.isWrite_eq_false hreads, nofun⟩
  · have hasks : h.Asks analyzer policy event ws := ⟨ys, hturn⟩
    exact ⟨ys, zs.effects, Transcript.effects_append ys zs, List.subset_append_left ys zs,
      reads_of_plays_turn hturn, hturn.isWrite_eq_false hreads,
      fun e he => hasks.isWrite_eq_true e (hwrites.performAll.1.subset he)⟩

/-- The upkeep of failing checks looks up the runs of checks before it asks for its label. -/
theorem Upkeep.effects_of_plays_checks {event : PullRequestEvent} {xs : Transcript}
    (h : (Upkeep.checks event).Plays xs (.ok ())) :
    (xs.effects = [] ∨ xs.effects = [.listCheckRuns event.pr.head]) ∨
      xs.effects = [.listCheckRuns event.pr.head, .addLabels event.pr.number [.testsFailing]] := by
  unfold Upkeep.checks at h
  split at h
  · obtain ⟨rfl, -⟩ := Program.plays_done_iff.1 h
    exact .inl (.inl rfl)
  · obtain ⟨ys, runs, zs, hruns, hwrites, rfl⟩ := Program.Plays.of_bind_ok h
    rw [Transcript.effects_append, hruns.effects_checkRuns]
    have hall : zs.effects = Upkeep.failingChecks event.pr runs := by
      rcases hwrites.performAll.2 with hall | ⟨_, _, hfail⟩
      · exact hall
      · cases hfail
    rw [hall]
    unfold Upkeep.failingChecks
    split
    · exact .inr rfl
    · exact .inl (.inr rfl)

/-- An event has one handler or none, but for drafts that became ready. -/
theorem Event.handlers_cases (event : Event) :
    event.handlers = [] ∨ (∃ h, event.handlers = [h]) ∨
      ∃ e, event = .pullRequest e ∧ e.action = .readyForReview ∧
        event.handlers = [.failingChecks, .gateKeeper] := by
  rcases event with ⟨_, action, _, _, _⟩ | ⟨_, action, _, _, _⟩ <;> cases action
  case pullRequest.readyForReview => exact .inr (.inr ⟨_, rfl, rfl, rfl⟩)
  all_goals first | exact .inl rfl | exact .inr (.inl ⟨_, rfl⟩)

/-- These are effects that a delivery can begin with, before it reads for the gate: none, or those that
follow when a draft became ready and its checks fail. -/
def Event.Early (event : Event) (early : List Effect) : Prop :=
  early = [] ∨ ∃ e, event = .pullRequest e ∧ e.action = .readyForReview ∧
    early = [.listCheckRuns e.pr.head, .addLabels e.pr.number [.testsFailing]]

/-- What is asked for is split in four: what can stand in front of reads, a look at the runs of checks,
what the gate reads, and writes. -/
structure Event.Splits (policy : Policy) (event : Event) (answered : Transcript)
    (early checks reads writes : List Effect) : Prop where
  isEarly : event.Early early
  checks_eq : checks = [] ∨ checks = [.listCheckRuns event.pr.head]
  onlyReads : ∀ e ∈ reads, e.isWrite = false
  onlyWrites : ∀ e ∈ writes, e.isWrite = true
  along : reads = [] ∨
    ∃ e, event = .pullRequest e ∧ Gate.ReadsAlong e (Gate.readList policy e) reads answered

/-- What a run of one handler asks for is split with nothing in front of the reads. -/
theorem Handler.splits_of_plays {h : Handler} {event : Event} {xs : Transcript}
    {res : Except Failure Unit} (hp : (h.program analyzer policy event).Plays xs res) :
    ∃ checks reads writes, xs.effects = checks ++ reads ++ writes ∧
      event.Splits policy xs [] checks reads writes := by
  obtain ⟨ys, writes, hall, hsub, halong, hreads, hwrites⟩ := Handler.split_of_plays hp
  cases h <;> cases event
  case gateKeeper.pullRequest e =>
    exact ⟨[], ys.effects, writes, hall, .inl rfl, .inl rfl, hreads, hwrites,
      .inr ⟨e, rfl, Gate.ReadsAlong.mono halong hsub⟩⟩
  case failingChecks.pullRequest e =>
    exact ⟨ys.effects, [], writes, by rw [hall, List.append_nil], .inl rfl, halong, nofun, hwrites,
      .inl rfl⟩
  all_goals
    obtain rfl : ys = [] := halong
    exact ⟨[], [], writes, hall, .inl rfl, .inl rfl, nofun, hwrites, .inl rfl⟩

/-- What all handlers of an event ask for is split, and only the label of failing checks stands in front
of reads. -/
theorem splits_of_plays_dispatch {event : Event} {xs : Transcript} {res : Except Failure Handling}
    (hp : (dispatch analyzer policy event).Plays xs res) :
    ∃ early checks reads writes, xs.effects = early ++ checks ++ reads ++ writes ∧
      event.Splits policy xs early checks reads writes := by
  obtain ⟨res', hp, -, -⟩ := runHandlers_of_plays hp
  rcases event.handlers_cases with hnone | ⟨h, hone⟩ | ⟨event, rfl, haction, htwo⟩
  · rw [hnone] at hp
    obtain ⟨rfl, -⟩ := Program.plays_done_iff.1 hp
    exact ⟨[], [], [], [], rfl, .inl rfl, .inl rfl, nofun, nofun, .inl rfl⟩
  · have hprogram : runHandlers analyzer policy event [h] = h.program analyzer policy event :=
      Program.bind_done _
    rw [hone, hprogram] at hp
    obtain ⟨checks, reads, writes, hall, hsplits⟩ := Handler.splits_of_plays hp
    exact ⟨[], checks, reads, writes, hall, hsplits⟩
  · have hprogram : runHandlers analyzer policy (.pullRequest event) [.failingChecks, .gateKeeper] =
        (Handler.failingChecks.program analyzer policy (.pullRequest event)).bind fun _ =>
          Handler.gateKeeper.program analyzer policy (.pullRequest event) :=
      congrArg _ (funext fun _ => Program.bind_done _)
    rw [htwo, hprogram] at hp
    rcases hp.of_bind with ⟨e, hchecks, -⟩ | ⟨ys, _, zs, hchecks, hgate, rfl⟩
    · -- the gate is not reached
      obtain ⟨checks, reads, writes, hall, hsplits⟩ := Handler.splits_of_plays hchecks
      exact ⟨[], checks, reads, writes, hall, hsplits⟩
    · obtain ⟨us, writes, hall, hsub, halong, hreads, hwrites⟩ := Handler.split_of_plays hgate
      have hgate : Gate.ReadsAlong event (Gate.readList policy event) us.effects (ys ++ zs) :=
        Gate.ReadsAlong.mono halong fun x hx => List.mem_append_right ys (hsub hx)
      rw [Transcript.effects_append, hall]
      -- without its label the upkeep only reads; with it, all it did stands in front of the gate's
      -- reads
      rcases Upkeep.effects_of_plays_checks hchecks with hread | hlabel
      · refine ⟨[], ys.effects, us.effects, writes, (List.append_assoc _ _ _).symm, ?_⟩
        exact ⟨.inl rfl, hread, hreads, hwrites, .inr ⟨event, rfl, hgate⟩⟩
      · refine ⟨ys.effects, [], us.effects, writes, ?_, .inr ⟨event, rfl, haction, hlabel⟩,
          .inl rfl, hreads, hwrites, .inr ⟨event, rfl, hgate⟩⟩
        rw [List.append_nil, List.append_assoc]

/-! ## Runs that stop at a read -/

/-- If a read's failure ended the run, then the read was the last that was asked for. -/
theorem Transcript.Ends.exists_getLast_read {α : Type} {xs : Transcript} {f : Failure}
    (h : xs.Ends (.error f : Except Failure α)) (hread : f.IsOfRead) :
    ∃ e, xs.effects.getLast? = some e ∧ e.isWrite = false := by
  cases h with
  | call _ e m => exact ⟨e, by simp [Transcript.effects], hread⟩
  | @mismatch _ _ e r he _ => exact ⟨e, by simp [Transcript.effects], he⟩

/-- Where the last of some effects is a read, no writes come last. -/
theorem Effect.eq_nil_of_getLast_read {es writes : List Effect}
    (hwrites : ∀ w ∈ writes, w.isWrite = true) {e : Effect}
    (hlast : (es ++ writes).getLast? = some e) (hread : e.isWrite = false) : writes = [] := by
  rcases writes.eq_nil_or_concat with rfl | ⟨ws, w, rfl⟩
  · rfl
  · rw [List.concat_eq_append, ← List.append_assoc, List.getLast?_concat] at hlast
    cases hlast
    have hwrite := hwrites e (by simp)
    exact absurd (hread.symm.trans hwrite) Bool.false_ne_true

/-! ## All runs -/

/-- **Reads come before writes.** A run of the gate reads and then writes. What it reads is the first
part of this: a search for the author's open pull requests, if one is made; the list of the changed
files; and the texts of those among them that are analysed, in their order, as of the last commit. So
if it stops at a read, it has changed nothing. It is the same for all handlers of an event together,
which can look at the runs of checks as well: only the label of failing checks can come before a read,
and only if a draft became ready. -/
theorem reads_before_writes {σ : Type} (analyzer : Analyzer) (policy : Policy) (host : Host σ)
    (s : σ) :
    (∀ event : PullRequestEvent,
      let t := ((Gate.run analyzer policy event).run host s).1
      let answered := (Gate.run analyzer policy event).transcript host s
      (∃ reads writes, t.effects = reads ++ writes ∧
        (∀ e ∈ reads, e.isWrite = false) ∧ (∀ e ∈ writes, e.isWrite = true) ∧
        Gate.ReadsAlong event (Gate.readList policy event) reads answered) ∧
      ∀ f, t.result = .error f → f.IsOfRead → Effect.writes t.effects = []) ∧
    ∀ event : Event,
      let t := ((dispatch analyzer policy event).run host s).1
      let answered := (dispatch analyzer policy event).transcript host s
      (∃ early checks reads writes, t.effects = early ++ checks ++ reads ++ writes ∧
        event.Splits policy answered early checks reads writes) ∧
      ∀ f, t.result = .error f → f.IsOfRead → Effect.writes t.effects = [] ∨
        ∃ e, event = .pullRequest e ∧ e.action = .readyForReview ∧
          Effect.writes t.effects = [.addLabels e.pr.number [.testsFailing]] := by
  constructor
  · intro event t answered
    have hplays : (Gate.run analyzer policy event).Plays answered t.result :=
      Program.plays_run host _ s
    have heffects : t.effects = answered.effects := Program.effects_run host _ s
    obtain ⟨ys, writes, hall, hsub, halong, hreads, hwrites⟩ := Gate.split_of_plays_run hplays
    rw [heffects, hall]
    refine ⟨⟨ys.effects, writes, rfl, hreads, hwrites, halong.mono hsub⟩, fun f hf hread => ?_⟩
    rw [hf] at hplays
    -- a strict program stops where it fails, so the failed read is the last thing asked for
    obtain ⟨e, hlast, he⟩ := (Gate.strict_run.ends hplays).exists_getLast_read hread
    rw [hall] at hlast
    rw [Effect.eq_nil_of_getLast_read hwrites hlast he, List.append_nil]
    exact Effect.writes_eq_nil hreads
  · intro event t answered
    have hplays : (dispatch analyzer policy event).Plays answered t.result :=
      Program.plays_run host _ s
    have heffects : t.effects = answered.effects := Program.effects_run host _ s
    obtain ⟨early, checks, reads, writes, hall, hsplits⟩ := splits_of_plays_dispatch hplays
    rw [heffects, hall]
    refine ⟨⟨early, checks, reads, writes, rfl, hsplits⟩, fun f hf hread => ?_⟩
    rw [hf] at hplays
    obtain ⟨e, hlast, he⟩ :=
      ((strict_dispatch analyzer policy event).ends hplays).exists_getLast_read hread
    rw [hall] at hlast
    have hchecks : ∀ e ∈ checks, e.isWrite = false := by
      rcases hsplits.checks_eq with rfl | rfl <;> simp [Effect.isWrite]
    rw [Effect.eq_nil_of_getLast_read hsplits.onlyWrites hlast he, List.append_nil,
      Effect.writes_append, Effect.writes_eq_nil hsplits.onlyReads, List.append_nil,
      Effect.writes_append, Effect.writes_eq_nil hchecks, List.append_nil]
    -- of all writes only the label of failing checks can come before that read
    rcases hsplits.isEarly with rfl | ⟨event, rfl, haction, rfl⟩
    · exact .inl rfl
    · exact .inr ⟨event, rfl, haction, rfl⟩

end PullGate
