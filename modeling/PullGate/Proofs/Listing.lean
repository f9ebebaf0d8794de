import PullGate.Proofs.Serving
/-!
# The listing of the changed files

The gate is told in some order which files a pull request changes, and reads them in this order. The
order makes no difference, but for the texts of comments: a run ends alike and changes labels alike
whatever it is. And a file that should be analysed but is no program could as well not be listed at
all. `Gate.run_of_listings` says both.

What a run comes to depends on the listing in one place only, and there on the value of `judgeFiles`.
So two listings are compared there.
-/

namespace PullGate

open PullGate.Compliance (Analyzer Report)

namespace Gate

section

variable {analyzer : Analyzer} {policy : Policy} {event : PullRequestEvent}
  {replies : Effect → Response}

/-! ## The same files in another order -/

/-- The text that a file is said to have. -/
def textAt (replies : Effect → Response) (reference : Commit) (path : String) : String :=
  match replies (.getFileContent path reference) with
  | .fileContent text => text
  | _ => ""

/-- Files are read to their end, or one of them is answered with something else. -/
theorem value_analyzeFiles_cases (files : List FileChange) (report : Report) :
    let reads := fun f : FileChange => Effect.getFileContent f.path event.pr.head
    (∀ f ∈ files, (reads f).expects (replies (reads f)) = true) ∧
        (analyzeFiles analyzer event files report).value replies =
          .ok (report.recordAll analyzer (textAt replies event.pr.head) files) ∨
      ∃ f ∈ files, (reads f).expects (replies (reads f)) = false ∧
        (analyzeFiles analyzer event files report).value replies =
          .error (.mismatch (reads f) (replies (reads f))) := by
  intro reads
  induction files generalizing report with
  | nil => exact .inl ⟨nofun, rfl⟩
  | cons f files ih =>
    rcases htext : (reads f).expects (replies (reads f)) with _ | _
    · refine .inr ⟨f, List.mem_cons_self, htext, ?_⟩
      simp only [analyzeFiles, Program.bind_eq, Program.fileContent, Program.bind, Program.value]
      simp only [reads] at htext ⊢
      cases hreply : replies (.getFileContent f.path event.pr.head) <;>
        first | rfl | (rw [hreply] at htext; cases htext)
    · obtain ⟨text, hreply⟩ : ∃ text, replies (reads f) = .fileContent text := by
        cases hreply : replies (reads f) <;>
          first | exact ⟨_, rfl⟩ | (rw [hreply] at htext; cases htext)
      have hstep : (analyzeFiles analyzer event (f :: files) report).value replies =
          (analyzeFiles analyzer event files (report.record f.path (analyzer text))).value replies := by
        simp only [analyzeFiles, Program.bind_eq, Program.fileContent, Program.bind, Program.value]
        simp only [reads] at hreply
        rw [hreply]
        rfl
      have hrecord : report.recordAll analyzer (textAt replies event.pr.head) (f :: files) =
          (report.record f.path (analyzer text)).recordAll analyzer (textAt replies event.pr.head)
            files := by
        simp only [reads] at hreply
        simp only [Report.recordAll, List.foldl_cons, textAt, hreply]
      rw [hstep, hrecord]
      rcases ih (report.record f.path (analyzer text)) with ⟨hall, hvalue⟩ | ⟨g, hg, hother, hvalue⟩
      · exact .inl ⟨List.forall_mem_cons.2 ⟨htext, hall⟩, hvalue⟩
      · exact .inr ⟨g, List.mem_cons_of_mem f hg, hother, hvalue⟩

/-- What is required does not hang on the order of the files. -/
theorem requirements_recordAll_perm {files files' : List FileChange} (hperm : files.Perm files')
    (texts : String → String) (report : Report) :
    (report.recordAll analyzer texts files).requirements =
      (report.recordAll analyzer texts files').requirements := by
  ext l
  rw [Bool.eq_iff_iff, Report.requirements_has_iff, Report.requirements_has_iff]
  simp only [Report.mem_rules_recordAll, Report.hasTestFile_recordAll, hperm.mem_iff]

end

end Gate

/-! ## Comments with other texts -/

namespace Effect

/-- Whether labels are changed. -/
def changesLabels : Effect → Bool
  | addLabels _ _ | removeLabel _ _ => true
  | _ => false

/-- The effect without the text of a comment. -/
def unworded : Effect → Effect
  | postComment pr _ => postComment pr ""
  | e => e

/-- The changes of labels can be told from the writes, whatever comments say. -/
theorem filter_changesLabels_unworded (es : List Effect) :
    ((writes es).map unworded).filter (·.changesLabels) = es.filter (·.changesLabels) := by
  induction es with
  | nil => rfl
  | cons e es ih =>
    cases e <;> simpa [writes, isWrite, unworded, changesLabels] using ih

end Effect

namespace Gate

/-- Two runs end alike: with the same, but that files without extensions are named in another order;
or both because a read was answered with what belongs to another. -/
inductive EndsAlike (replies : Effect → Response) :
    Except Failure Outcome → Except Failure Outcome → Prop
  | same (result : Except Failure Outcome) : EndsAlike replies result result
  | extensionless {paths paths' : List String} (h : paths.Perm paths') :
      EndsAlike replies (.ok (.rejected (.extensionlessFiles paths)))
        (.ok (.rejected (.extensionlessFiles paths')))
  | misread {e e' : Effect} (h : e.isWrite = false ∧ e.expects (replies e) = false)
      (h' : e'.isWrite = false ∧ e'.expects (replies e') = false) :
      EndsAlike replies (.error (.mismatch e (replies e))) (.error (.mismatch e' (replies e')))

variable {analyzer : Analyzer} {policy : Policy} {event : PullRequestEvent}
  {replies : Effect → Response}

/-- Two verdicts end alike, and their writes are the same but for the texts of comments. -/
def Shuffled (replies : Effect → Response) (policy : Policy) (event : PullRequestEvent)
    (a b : Except Failure Verdict) : Prop :=
  EndsAlike replies (a.map Verdict.outcome) (b.map Verdict.outcome) ∧
    (writesOf policy event a).map Effect.unworded = (writesOf policy event b).map Effect.unworded

theorem Shuffled.refl (a : Except Failure Verdict) : Shuffled replies policy event a a :=
  ⟨.same _, rfl⟩

theorem shuffled_extensionless {paths paths' : List String} (h : paths.Perm paths') :
    Shuffled replies policy event (.ok (.turnAway (.extensionlessFiles paths)))
      (.ok (.turnAway (.extensionlessFiles paths'))) :=
  ⟨.extensionless h, by simp [writesOf, Verdict.writes, Rejection.effects, Rejection.marksInvalid,
    Effect.unworded]⟩

theorem shuffled_analyzed {report report' : Report}
    (h : report.requirements = report'.requirements) :
    Shuffled replies policy event (.ok (.analyzed report)) (.ok (.analyzed report')) := by
  constructor
  · simp only [Except.map, Verdict.outcome, h]
    exact .same _
  · simp only [writesOf, Verdict.writes, reportEffects, h]
    split <;> rfl

/-- The verdicts on the same files in another order. -/
theorem shuffled_judgeFiles {files files' : List FileChange} (hperm : files.Perm files') :
    Shuffled replies policy event
      ((judgeFiles analyzer policy event).value (listing files replies))
      ((judgeFiles analyzer policy event).value (listing files' replies)) := by
  have hsources : (Compliance.sources policy files).Perm (Compliance.sources policy files') :=
    hperm.filter _
  have htests : Compliance.hasTestFile policy files = Compliance.hasTestFile policy files' :=
    hperm.any_eq
  have hpaths : (Compliance.extensionless policy files).Perm (Compliance.extensionless policy files') :=
    (hperm.filter _).map _
  -- the analysis of the files, where none is turned away for its name
  have hanalyzed (report : Report) : Shuffled replies policy event
      (((analyzeFiles analyzer event (Compliance.sources policy files) report).value replies).map
        Verdict.analyzed)
      (((analyzeFiles analyzer event (Compliance.sources policy files') report).value replies).map
        Verdict.analyzed) := by
    rcases value_analyzeFiles_cases (Compliance.sources policy files) report with
      ⟨hall, hvalue⟩ | ⟨f, hf, hother, hvalue⟩ <;>
    rcases value_analyzeFiles_cases (Compliance.sources policy files') report with
      ⟨hall', hvalue'⟩ | ⟨g, hg, hother', hvalue'⟩ <;>
    rw [hvalue, hvalue']
    · exact shuffled_analyzed (requirements_recordAll_perm hsources _ _)
    · exact absurd (hother'.symm.trans (hall g (hsources.mem_iff.2 hg))) Bool.false_ne_true
    · exact absurd (hother.symm.trans (hall' f (hsources.mem_iff.1 hf))) Bool.false_ne_true
    · exact ⟨.misread ⟨rfl, hother⟩ ⟨rfl, hother'⟩, rfl⟩
  rw [value_judgeFiles, value_judgeFiles, value_analyzeFiles_listing, value_analyzeFiles_listing,
    htests]
  by_cases hready : event.action = .readyForReview
  · rw [if_pos hready, if_pos hready]
    exact hanalyzed _
  · rw [if_neg hready, if_neg hready]
    unfold checkExtensions
    rcases hnone : Compliance.extensionless policy files with _ | ⟨p, ps⟩ <;>
      rcases hnone' : Compliance.extensionless policy files' with _ | ⟨q, qs⟩ <;>
      rw [hnone, hnone'] at hpaths
    · exact hanalyzed _
    · cases hpaths.symm.eq_nil
    · cases hpaths.eq_nil
    · exact shuffled_extensionless hpaths

end Gate

/-! ## Files that are no programs -/

/-- The report but for the files that could not be analysed. -/
def Compliance.Report.found (report : Report) : Report := { report with skipped := [] }

/-- Reports that have found the same still do so after one more file. -/
theorem Compliance.Report.found_record {report report' : Report} (h : report.found = report'.found)
    (path : String) (result : Except AnalysisError (List Violation)) :
    (report.record path result).found = (report'.record path result).found := by
  cases result with
  | error e => exact h
  | ok violations =>
    simp only [found, mk.injEq] at h
    simp only [record, found, h]

namespace Gate

variable {analyzer : Analyzer} {policy : Policy} {event : PullRequestEvent}
  {replies : Effect → Response}

/-- Two reports with the same findings are as good as each other to start from. -/
theorem value_analyzeFiles_found (files : List FileChange) {report report' : Report}
    (h : report.found = report'.found) :
    ((analyzeFiles analyzer event files report).value replies).map Report.found =
      ((analyzeFiles analyzer event files report').value replies).map Report.found := by
  have hrecord (r r' : Report) (path text : String) (h : r.found = r'.found) :
      (r.record path (analyzer text)).found = (r'.record path (analyzer text)).found :=
    Report.found_record h path (analyzer text)
  rw [← Program.result_traceBy, ← Program.result_traceBy]
  obtain ⟨es, ⟨failure, ha, hb⟩ | ⟨r, r', ha, hb, hfound⟩⟩ :=
    traceBy_analyzeFiles_rel analyzer analyzer event replies hrecord files h
  · rw [ha, hb]
  · rw [ha, hb]
    exact congrArg Except.ok hfound

/-- A file that is no program adds nothing to what is found. -/
theorem value_analyzeFiles_insert {f : FileChange} {text : String} {e : Compliance.AnalysisError}
    (htext : replies (.getFileContent f.path event.pr.head) = .fileContent text)
    (herror : analyzer text = .error e) (before after : List FileChange) (report : Report) :
    ((analyzeFiles analyzer event (before ++ f :: after) report).value replies).map Report.found =
      ((analyzeFiles analyzer event (before ++ after) report).value replies).map Report.found := by
  induction before generalizing report with
  | nil =>
    have hread : (Program.fileContent f.path event.pr.head).value replies = .ok text := by
      simp only [Program.fileContent, Program.value, htext]
    simp only [List.nil_append, analyzeFiles, Program.bind_eq, Program.value_bind, hread, herror]
    exact value_analyzeFiles_found after rfl
  | cons g before ih =>
    simp only [List.cons_append, analyzeFiles, Program.bind_eq, Program.value_bind]
    rcases (Program.fileContent g.path event.pr.head).value replies with failure | text'
    · rfl
    · exact ih _

/-- Two verdicts end in the same way, and with the same writes. -/
def Unmoved (policy : Policy) (event : PullRequestEvent) (a b : Except Failure Verdict) : Prop :=
  a.map Verdict.outcome = b.map Verdict.outcome ∧ writesOf policy event a = writesOf policy event b

/-- What could not be analysed has no part in what follows from a report. -/
theorem unmoved_analyzed {a b : Except Failure Report} (h : a.map Report.found = b.map Report.found) :
    Unmoved policy event (a.map Verdict.analyzed) (b.map Verdict.analyzed) := by
  have hfound (report : Report) :
      Unmoved policy event (.ok (.analyzed report)) (.ok (.analyzed report.found)) := ⟨rfl, rfl⟩
  rcases a with failure | report <;> rcases b with failure' | report'
  · cases h
    exact ⟨rfl, rfl⟩
  · cases h
  · cases h
  · have hleft := hfound report
    have hright := hfound report'
    rw [show report.found = report'.found from Except.ok.inj h] at hleft
    exact ⟨hleft.1.trans hright.1.symm, hleft.2.trans hright.2.symm⟩

/-- Neither tests nor files without extensions are analysed. -/
theorem sources_insert {f : FileChange} (hf : Compliance.isAnalyzed policy f = true)
    (before after : List FileChange) :
    Compliance.sources policy (before ++ f :: after) =
        Compliance.sources policy before ++ f :: Compliance.sources policy after ∧
      Compliance.hasTestFile policy (before ++ f :: after) =
        Compliance.hasTestFile policy (before ++ after) ∧
      Compliance.extensionless policy (before ++ f :: after) =
        Compliance.extensionless policy (before ++ after) := by
  have hqualifies := Compliance.isAnalyzed_iff.1 hf
  have htest : Compliance.bringsTest policy f = false := by
    have hnot := Bool.eq_false_iff.2 (mt Compliance.isCompanionTest_iff.1 hqualifies.noTest)
    rw [Compliance.bringsTest, hnot, Bool.and_false]
  have hextension : Compliance.lacksExtension policy f = false := by
    rw [Compliance.lacksExtension, hqualifies.extension]
    simp
  refine ⟨?_, ?_, ?_⟩
  · rw [Compliance.sources, List.filter_append, List.filter_cons_of_pos hf]
    rfl
  · rw [Compliance.hasTestFile, Compliance.hasTestFile, List.any_append, List.any_append,
      List.any_cons, htest, Bool.false_or]
  · rw [Compliance.extensionless, Compliance.extensionless, List.filter_append, List.filter_append,
      List.filter_cons_of_neg (by simp [hextension])]

/-- The verdicts with a file that is no program and without it. -/
theorem unmoved_judgeFiles {f : FileChange} {text : String} {e : Compliance.AnalysisError}
    (hf : Compliance.Qualifies policy f)
    (htext : replies (.getFileContent f.path event.pr.head) = .fileContent text)
    (herror : analyzer text = .error e) (before after : List FileChange) :
    Unmoved policy event
      ((judgeFiles analyzer policy event).value (listing (before ++ f :: after) replies))
      ((judgeFiles analyzer policy event).value (listing (before ++ after) replies)) := by
  obtain ⟨hsources, htests, hpaths⟩ :=
    sources_insert (Compliance.isAnalyzed_iff.2 hf) before after
  have hkept : Compliance.sources policy (before ++ after) =
      Compliance.sources policy before ++ Compliance.sources policy after := List.filter_append ..
  rw [value_judgeFiles, value_judgeFiles, value_analyzeFiles_listing, value_analyzeFiles_listing,
    hsources, hkept, htests, checkExtensions, checkExtensions, hpaths]
  split
  · exact ⟨rfl, rfl⟩
  · exact unmoved_analyzed (value_analyzeFiles_insert htext herror _ _ _)

/-! ## All listings -/

/-- **What listings come to.** Take two hosts where nothing fails, reads are answered alike, and only
the listing of the changed files differs. If the same files are listed in another order, runs of the
gate end alike: files without extensions may be named in another order, and a read that is answered
with what belongs to another may be another one. Their writes are the same but for the texts of
comments, and so are their changes of labels. If one listing has a file more that should be analysed
but is no program, wherever it stands, the runs end in the same way and with the same writes, whatever
comments say. And if each read is answered with what belongs to it, every run ends with an outcome. -/
theorem run_of_listings {σ τ : Type} (analyzer : Analyzer) (policy : Policy)
    (event : PullRequestEvent) (replies : Effect → Response) (host : Host σ) (host' : Host τ) (s : σ)
    (t : τ) :
    let trace := ((run analyzer policy event).run host s).1
    let trace' := ((run analyzer policy event).run host' t).1
    (∀ files files' : List FileChange, files.Perm files' →
      host.Serves (listing files replies) → host'.Serves (listing files' replies) →
        EndsAlike replies trace.result trace'.result ∧
        trace.effects.filter (·.changesLabels) = trace'.effects.filter (·.changesLabels) ∧
        (Effect.writes trace.effects).map Effect.unworded =
          (Effect.writes trace'.effects).map Effect.unworded) ∧
    (∀ before f after text e, Compliance.Qualifies policy f →
      replies (.getFileContent f.path event.pr.head) = .fileContent text →
      analyzer text = .error e →
      host.Serves (listing (before ++ f :: after) replies) →
      host'.Serves (listing (before ++ after) replies) →
        trace.result = trace'.result ∧
        Effect.writes trace.effects = Effect.writes trace'.effects) ∧
    ∀ files, (∀ e : Effect, e.isWrite = false → e.expects (replies e) = true) →
      host.Serves (listing files replies) → ∃ o, trace.result = .ok o := by
  intro trace trace'
  refine ⟨?_, ?_, ?_⟩
  · intro files files' hperm hhost hhost'
    obtain ⟨hresult, hwrites⟩ := run_of_serves analyzer policy event hhost s
    obtain ⟨hresult', hwrites'⟩ := run_of_serves analyzer policy event hhost' t
    have hshuffled : Shuffled replies policy event
        ((judge analyzer policy event).value (listing files replies))
        ((judge analyzer policy event).value (listing files' replies)) :=
      value_judge_rel (R := Shuffled replies policy event) Shuffled.refl (fun _ => rfl)
        (shuffled_judgeFiles hperm)
    obtain ⟨hends, hsame⟩ := hshuffled
    rw [← hresult, ← hresult'] at hends
    rw [← hwrites, ← hwrites'] at hsame
    refine ⟨hends, ?_, hsame⟩
    rw [← Effect.filter_changesLabels_unworded, hsame, Effect.filter_changesLabels_unworded]
  · intro before f after text e hf htext herror hhost hhost'
    obtain ⟨hresult, hwrites⟩ := run_of_serves analyzer policy event hhost s
    obtain ⟨hresult', hwrites'⟩ := run_of_serves analyzer policy event hhost' t
    have hunmoved : Unmoved policy event
        ((judge analyzer policy event).value (listing (before ++ f :: after) replies))
        ((judge analyzer policy event).value (listing (before ++ after) replies)) :=
      value_judge_rel (R := Unmoved policy event) (fun _ => ⟨rfl, rfl⟩) (fun _ => rfl)
        (unmoved_judgeFiles hf htext herror before after)
    rw [hresult, hresult', hwrites, hwrites']
    exact hunmoved
  · intro files hkinds hhost
    have hlisted (e : Effect) (hread : e.isWrite = false) :
        e.expects (listing files replies e) = true := by
      cases e <;> first | rfl | exact hkinds _ hread
    have hstrict : (judge analyzer policy event).Strict := ofReads_judge.strict
    obtain ⟨v, hvalue⟩ := hstrict.exists_value hlisted
    have hresult := (run_of_serves analyzer policy event hhost s).1
    rw [hvalue] at hresult
    exact ⟨v.outcome, hresult⟩

/-- Files without extensions are named as they are listed, and a source that is no program does not
matter. -/
theorem run_of_listings_shuffled :
    let replies : Effect → Response
      | .getFileContent path _ => .fileContent path
      | e => Host.plainReply [] e
    let analyzer : Analyzer := fun text =>
      if text = "oops.py" then .error .notParsed
      else .ok [⟨.missingAnnotations, ⟨1, 5⟩, "a function has no type for its result"⟩]
    let trace := fun files =>
      ((run analyzer .standard (.byOwner .opened none ∅)).run (.steady (listing files replies)) ()).1
    let added : String → FileChange := fun path => ⟨path, "", .added⟩
    (EndsAlike replies (trace [added "notes", added "sum.py", added "todo"]).result
        (trace [added "todo", added "notes", added "sum.py"]).result ∧
      (trace [added "notes", added "sum.py", added "todo"]).result =
        .ok (.rejected (.extensionlessFiles ["notes", "todo"])) ∧
      (trace [added "todo", added "notes", added "sum.py"]).result =
        .ok (.rejected (.extensionlessFiles ["todo", "notes"]))) ∧
    (let whole := trace ([added "sum.py"] ++ added "oops.py" :: [added "area.py"])
      let rest := trace ([added "sum.py"] ++ [added "area.py"])
      whole.result = rest.result ∧ Effect.writes whole.effects = Effect.writes rest.effects ∧
        whole.effects.filter (·.changesLabels) = [.addLabels ⟨1⟩ [.requireAnnotations]] ∧
        ∃ o, whole.result = .ok o) := by
  intro replies analyzer trace added
  have hserves (files : List FileChange) := Host.serves_steady (listing files replies)
  have hkinds : ∀ e : Effect, e.isWrite = false → e.expects (replies e) = true := by
    intro e _
    cases e <;> rfl
  have hqualifies : Compliance.Qualifies .standard (added "oops.py") :=
    Compliance.isAnalyzed_iff.1 (by decide +kernel)
  have htheorem (files files' : List FileChange) := run_of_listings analyzer .standard
    (.byOwner .opened none ∅) replies (.steady (listing files replies))
    (.steady (listing files' replies)) () ()
  refine ⟨⟨?_, by decide +kernel, by decide +kernel⟩, ?_⟩
  · have hperm : ([added "notes", added "sum.py"] ++ [added "todo"]).Perm
        ([added "todo"] ++ [added "notes", added "sum.py"]) := List.perm_append_comm
    exact ((htheorem _ _).1 _ _ hperm (hserves _) (hserves _)).1
  · obtain ⟨-, hunmoved, hended⟩ := htheorem
      ([added "sum.py"] ++ added "oops.py" :: [added "area.py"]) ([added "sum.py"] ++ [added "area.py"])
    obtain ⟨hresult, hwrites⟩ := hunmoved _ _ _ "oops.py" .notParsed hqualifies rfl
      (by decide +kernel) (hserves _) (hserves _)
    exact ⟨hresult, hwrites, by decide +kernel, hended _ hkinds (hserves _)⟩

end Gate

end PullGate
