import PullGate.Proofs.Serving
/-!
# Companion tests

That a file is a test of another is the only thing the gate takes from it: it is not read. So a listing
with one test file more has the same sources, and what is required is the same but for tests; and if
there is a test file already, a run is the same to the last effect. `Gate.run_with_companion_test` says
so for every place of the listing.

The two listings are compared through what the gate looks at in them: the sources, the paths without
extensions, and whether there are tests. The two reports are compared through `Report.withTests`.
-/

namespace PullGate

namespace Compliance

open PullGate.Python (Node)

/-! ## A file more -/

/-- A changed file brings a test. -/
structure IsTest (policy : Policy) (f : FileChange) : Prop where
  kept : f.status ≠ .removed
  extension : Path.extension? f.path = some policy.sourceExtension.toList
  name : IsCompanionTest f.path

section

variable {policy : Policy} {f : FileChange}

/-- What is taken for a test is one. -/
theorem bringsTest_iff : bringsTest policy f = true ↔ IsTest policy f := by
  simp only [bringsTest, isSource, Bool.and_eq_true, ne_eq, decide_eq_true_eq, isCompanionTest_iff]
  constructor
  · rintro ⟨⟨hkept, hextension⟩, hname⟩
    exact ⟨hkept, hextension, hname⟩
  · rintro ⟨hkept, hextension, hname⟩
    exact ⟨⟨hkept, hextension⟩, hname⟩

/-- A file is neither analysed nor found without an extension. -/
structure PassedOver (policy : Policy) (f : FileChange) : Prop where
  source : isAnalyzed policy f = false
  extension : lacksExtension policy f = false

/-- A test is passed over in the analysis. -/
theorem IsTest.passedOver (hf : IsTest policy f) : PassedOver policy f := by
  constructor
  · rw [← Bool.not_eq_true, isAnalyzed_iff]
    intro hqualifies
    exact hqualifies.noTest hf.name
  · rw [lacksExtension, hf.extension]
    simp

theorem passedOver_of_removed (hf : f.status = .removed) : PassedOver policy f := by
  constructor
  · simp [isAnalyzed, hf]
  · simp [lacksExtension, hf]

theorem bringsTest_eq_false_of_removed (hf : f.status = .removed) : bringsTest policy f = false := by
  simp [bringsTest, hf]

/-- A file that is passed over is none of the sources. -/
theorem PassedOver.sources_insert (hf : PassedOver policy f) (before after : List FileChange) :
    sources policy (before ++ f :: after) = sources policy (before ++ after) := by
  rw [sources, sources, List.filter_append, List.filter_append,
    List.filter_cons_of_neg (by simp [hf.source])]

theorem PassedOver.extensionless_insert (hf : PassedOver policy f) (before after : List FileChange) :
    extensionless policy (before ++ f :: after) = extensionless policy (before ++ after) := by
  rw [extensionless, extensionless, List.filter_append, List.filter_append,
    List.filter_cons_of_neg (by simp [hf.extension])]

/-- One file more brings a test, or the others do as before. -/
theorem hasTestFile_insert (policy : Policy) (f : FileChange) (before after : List FileChange) :
    hasTestFile policy (before ++ f :: after) =
      (bringsTest policy f || hasTestFile policy (before ++ after)) := by
  rw [hasTestFile, hasTestFile, List.any_append, List.any_append, List.any_cons, Bool.or_left_comm]

end

/-! ## A report with tests -/

namespace Report

/-- The report if a test file is among the changes. -/
def withTests (r : Report) : Report := { r with hasTestFile := true }

/-- That there are tests and what a file comes to are noted independently. -/
theorem withTests_record (r : Report) (path : String)
    (result : Except AnalysisError (List Violation)) :
    (r.record path result).withTests = r.withTests.record path result := by
  cases result <;> rfl

/-- Tests are no longer required, and what else is required stays. -/
theorem requirements_withTests {r : Report} (h : Rule.missingTest ∉ r.rules) :
    r.withTests.requirements = r.requirements.erase .requireTests := by
  have hlabel {rule : Rule} (hrule : rule ∈ r.rules) :
      rule ≠ .missingExample ↔ rule.label ≠ .requireTests := by
    cases rule
    case missingTest => exact absurd hrule h
    all_goals decide
  ext l
  rw [Bool.eq_iff_iff, LabelSet.has_erase, Bool.and_eq_true, decide_eq_true_eq,
    requirements_has_iff, requirements_has_iff]
  constructor
  · rintro ⟨rule, hrule, hcounts, rfl⟩
    have hother : rule ≠ .missingExample := hcounts.resolve_right nofun
    exact ⟨(hlabel hrule).1 hother, rule, hrule, .inl hother, rfl⟩
  · rintro ⟨hl, rule, hrule, -, rfl⟩
    exact ⟨rule, hrule, .inl ((hlabel hrule).2 hl), rfl⟩

/-- That there are no tests is not among what is found in a source. -/
theorem missingTest_notMem_rules_record {trees : String → Option Node} {naming : Naming}
    {r : Report} (h : Rule.missingTest ∉ r.rules) (path text : String) :
    Rule.missingTest ∉ (r.record path (analyzeBy trees naming text)).rules := by
  rw [mem_rules_record]
  rintro (hrule | ⟨vs, hvs, hrule⟩)
  · exact h hrule
  · unfold analyzeBy at hvs
    split at hvs
    · cases hvs
    · cases hvs
      obtain ⟨n, -, hbreaks⟩ := mem_rulesOf_treeViolations.1 hrule
      exact hbreaks

end Report

end Compliance

namespace Gate

open PullGate.Compliance (Analyzer Naming Report Rule analyzeBy)
open PullGate.Python (Node)

/-! ## The gate and a file more -/

/-- Of the listing the gate looks at the sources, at whether there are tests, and at the paths without
extensions. -/
theorem traceBy_run_congr {analyzer : Analyzer} {policy : Policy} {event : PullRequestEvent}
    {replies : Effect → Response} {files files' : List FileChange}
    (hsources : Compliance.sources policy files = Compliance.sources policy files')
    (htests : Compliance.hasTestFile policy files = Compliance.hasTestFile policy files')
    (hpaths : Compliance.extensionless policy files = Compliance.extensionless policy files') :
    (run analyzer policy event).traceBy (listing files replies) =
      (run analyzer policy event).traceBy (listing files' replies) := by
  have hjudge : (judge analyzer policy event).traceBy (listing files replies) =
      (judge analyzer policy event).traceBy (listing files' replies) := by
    refine traceBy_judge_rel (R := Eq) (fun _ _ => rfl) (fun e t t' h => congrArg _ h)
      (fun _ => rfl) ?_
    rw [traceBy_judgeFiles, traceBy_judgeFiles, checkExtensions, checkExtensions, hpaths, hsources,
      htests]
    simp only [traceBy_analyzeFiles_listing]
  rw [traceBy_run, traceBy_run, ← Program.result_traceBy, ← Program.result_traceBy, hjudge]

/-- Two judgements read the same and end alike, but that the second finds tests. -/
inductive Tested : Trace Verdict → Trace Verdict → Prop
  | same (t : Trace Verdict) (h : ∀ report, t.result ≠ .ok (.analyzed report)) : Tested t t
  | analyzed (es : List Effect) {report : Report} (h : Rule.missingTest ∉ report.rules) :
      Tested ⟨es, .ok (.analyzed report)⟩ ⟨es, .ok (.analyzed report.withTests)⟩

namespace Tested

variable {t t' : Trace Verdict}

/-- One call more in front of both changes nothing between them. -/
theorem cons (h : Tested t t') (e : Effect) : Tested (t.cons e) (t'.cons e) := by
  cases h with
  | same _ h => exact same _ h
  | analyzed es h => exact analyzed (e :: es) h

theorem effects_eq (h : Tested t t') : t'.effects = t.effects := by
  cases h <;> rfl

/-- A run that was completed is completed, and nothing but tests is no longer required. -/
theorem completed (h : Tested t t') {requirements : LabelSet}
    (hresult : t.result.map Verdict.outcome = .ok (.completed requirements)) :
    t'.result.map Verdict.outcome = .ok (.completed (requirements.erase .requireTests)) := by
  cases h with
  | same _ h =>
    rcases t with ⟨es, failure | v⟩
    · cases hresult
    · cases v with
      -- where nothing was asked for, nothing is required in either run
      | unasked =>
        cases hresult
        have hnone : (∅ : LabelSet).erase .requireTests = ∅ := by
          ext l
          rw [LabelSet.has_erase, LabelSet.has_empty, Bool.and_false]
        rw [hnone]
        rfl
      | analyzed report => exact absurd rfl (h report)
      | settled | turnAway | draft => cases hresult
  | analyzed es h =>
    cases hresult
    exact congrArg (fun ls => Except.ok (Outcome.completed ls)) (Report.requirements_withTests h)

end Tested

/-- The judgements without a test file and with one. -/
theorem tested_judge (trees : String → Option Node) (naming : Naming) {policy : Policy}
    (event : PullRequestEvent) (replies : Effect → Response) {f : FileChange}
    (hf : Compliance.IsTest policy f) (before after : List FileChange) :
    Tested
      ((judge (analyzeBy trees naming) policy event).traceBy (listing (before ++ after) replies))
      ((judge (analyzeBy trees naming) policy event).traceBy
        (listing (before ++ f :: after) replies)) := by
  have htests : Compliance.hasTestFile policy (before ++ f :: after) = true := by
    rw [Compliance.hasTestFile_insert, Compliance.bringsTest_iff.2 hf, Bool.true_or]
  refine traceBy_judge_rel (R := Tested) .same (fun e t t' h => h.cons e) (fun _ => rfl) ?_
  rw [traceBy_judgeFiles, traceBy_judgeFiles, checkExtensions, checkExtensions,
    hf.passedOver.extensionless_insert, hf.passedOver.sources_insert, htests]
  refine Tested.cons ?_ _
  split
  · exact .same _ nofun
  · -- both read the same sources, from reports that differ in whether there are tests
    simp only [traceBy_analyzeFiles_listing]
    have hrecord (r r' : Report) (path text : String)
        (h : r' = r.withTests ∧ Rule.missingTest ∉ r.rules) :
        r'.record path (analyzeBy trees naming text) =
            (r.record path (analyzeBy trees naming text)).withTests ∧
          Rule.missingTest ∉ (r.record path (analyzeBy trees naming text)).rules := by
      obtain ⟨rfl, hrules⟩ := h
      exact ⟨(Report.withTests_record r path _).symm,
        Report.missingTest_notMem_rules_record hrules path text⟩
    have hempty (b : Bool) : Report.empty true = (Report.empty b).withTests ∧
        Rule.missingTest ∉ (Report.empty b).rules := ⟨rfl, nofun⟩
    obtain ⟨es, ⟨failure, ha, hb⟩ | ⟨r, r', ha, hb, rfl, hrules⟩⟩ :=
      traceBy_analyzeFiles_rel (analyzeBy trees naming) (analyzeBy trees naming) event replies hrecord
        (Compliance.sources policy (before ++ after))
        (hempty (Compliance.hasTestFile policy (before ++ after)))
    · rw [ha, hb]
      exact .same _ nofun
    · rw [ha, hb]
      exact .analyzed es hrules

/-- The reads of a run are those of its judgement. -/
theorem reads_traceBy_run (analyzer : Analyzer) (policy : Policy) (event : PullRequestEvent)
    (replies : Effect → Response) :
    ((run analyzer policy event).traceBy replies).effects.filter (fun e => !e.isWrite) =
      ((judge analyzer policy event).traceBy replies).effects := by
  have hwrites : ∀ e ∈ writesOf policy event ((judge analyzer policy event).value replies),
      e.isWrite = true := by
    rcases (judge analyzer policy event).value replies with failure | v
    · exact nofun
    · exact v.isWrite_eq_true
  rw [traceBy_run, List.filter_append, List.filter_eq_self.2, List.filter_eq_nil_iff.2,
    List.append_nil]
  · intro e he
    simp [hwrites e he]
  · intro e he
    simp [isWrite_eq_false_of_traceBy_judge he]

/-! ## Any place of the listing -/

/-- **Companion tests.** Take two hosts where nothing fails and reads are answered alike, but that the
second lists one changed file more, at any place. If this file is a test and the run at the first host
is completed, then the run at the second reads the same, analyses the same files, and is completed;
what it requires is what the other does but for tests. If it is a test and the first host lists a test
already, then the runs have the same record; and so they have if the file was removed, whatever its
name. The analysis of Python sources is one of those that this is said of. -/
theorem run_with_companion_test (trees : String → Option Node) (naming : Naming) :
    (∀ {σ τ : Type} (policy : Policy) (event : PullRequestEvent) (replies : Effect → Response)
      (before : List FileChange) (f : FileChange) (after : List FileChange) (host : Host σ)
      (host' : Host τ) (s : σ) (t : τ),
      host.Serves (listing (before ++ after) replies) →
      host'.Serves (listing (before ++ f :: after) replies) →
      let trace := ((run (analyzeBy trees naming) policy event).run host s).1
      let trace' := ((run (analyzeBy trees naming) policy event).run host' t).1
      (Compliance.IsTest policy f → ∀ requirements, trace.result = .ok (.completed requirements) →
        Compliance.sources policy (before ++ f :: after) =
          Compliance.sources policy (before ++ after) ∧
        trace'.effects.filter (fun e => !e.isWrite) = trace.effects.filter (fun e => !e.isWrite) ∧
        trace'.result = .ok (.completed (requirements.erase .requireTests))) ∧
      (Compliance.IsTest policy f → Compliance.BringTest policy (before ++ after) →
        trace' = trace) ∧
      (f.status = .removed → trace' = trace)) ∧
    Compliance.analyze naming = analyzeBy Python.parse naming := by
  refine ⟨?_, Compliance.analyze_eq_analyzeBy naming⟩
  intro σ τ policy event replies before f after host host' s t hhost hhost' trace trace'
  have htrace : trace = (run (analyzeBy trees naming) policy event).traceBy
      (listing (before ++ after) replies) := strict_run.run_of_serves hhost s
  have htrace' : trace' = (run (analyzeBy trees naming) policy event).traceBy
      (listing (before ++ f :: after) replies) := strict_run.run_of_serves hhost' t
  refine ⟨fun hf requirements hcompleted => ?_, fun hf hbring => ?_, fun hf => ?_⟩
  · have htested := tested_judge trees naming event replies hf before after
    refine ⟨hf.passedOver.sources_insert before after, ?_, ?_⟩
    · rw [htrace, htrace', reads_traceBy_run, reads_traceBy_run, htested.effects_eq]
    · rw [htrace, traceBy_run, ← Program.result_traceBy] at hcompleted
      rw [htrace', traceBy_run, ← Program.result_traceBy]
      exact htested.completed hcompleted
  · have htests : Compliance.hasTestFile policy (before ++ f :: after) =
        Compliance.hasTestFile policy (before ++ after) := by
      rw [Compliance.hasTestFile_insert, Compliance.hasTestFile_iff.2 hbring, Bool.or_true]
    rw [htrace, htrace']
    exact traceBy_run_congr (hf.passedOver.sources_insert before after) htests
      (hf.passedOver.extensionless_insert before after)
  · have hpassed : Compliance.PassedOver policy f := Compliance.passedOver_of_removed hf
    have htests : Compliance.hasTestFile policy (before ++ f :: after) =
        Compliance.hasTestFile policy (before ++ after) := by
      rw [Compliance.hasTestFile_insert, Compliance.bringsTest_eq_false_of_removed hf,
        Bool.false_or]
    rw [htrace, htrace']
    exact traceBy_run_congr (hpassed.sources_insert before after) htests
      (hpassed.extensionless_insert before after)

/-- A function has no type and no example. With a test beside it only the type is required; with a
second test, or if the test was removed, nothing changes. -/
theorem run_with_companion_test_function :
    let tree : Node := .mk .functionDefinition ⟨1, 1⟩ "" [
      (some .name, .mk .identifier ⟨1, 5⟩ "area" []),
      (some .parameters, .mk .parameters ⟨1, 9⟩ "" []),
      (some .body, .mk .block ⟨1, 13⟩ "" [(none, .mk .passStatement ⟨1, 13⟩ "" [])])]
    let replies : Effect → Response
      | .getFileContent _ _ => .fileContent "def area(): pass"
      | e => Host.plainReply [] e
    let trace := fun files => ((run (analyzeBy (fun _ => some tree) (.ofPolicy .standard)) .standard
      (.byOwner .opened none ∅)).run (.steady (listing files replies)) ()).1
    let source : FileChange := ⟨"area.py", "", .added⟩
    let test : FileChange := ⟨"test_area.py", "", .renamed⟩
    let other : FileChange := ⟨"area_test.py", "", .modified⟩
    let removed : FileChange := ⟨"test_area.py", "", .removed⟩
    (trace [source]).result = .ok (.completed (.ofList [.requireAnnotations, .requireTests])) ∧
      (trace [source, test]).result = .ok (.completed (.ofList [.requireAnnotations])) ∧
      (trace [source, test]).effects.filter (fun e => !e.isWrite) =
        [.listChangedFiles ⟨1⟩, .getFileContent "area.py" ⟨"0000000"⟩] ∧
      trace [other, source, test] = trace [source, test] ∧
      trace [removed, source] = trace [source] := by
  intro tree replies trace source test other removed
  have hserves (files : List FileChange) := Host.serves_steady (listing files replies)
  have htheorem (before : List FileChange) (f : FileChange) (after : List FileChange) :=
    (run_with_companion_test (fun _ => some tree) (.ofPolicy .standard)).1 .standard
      (.byOwner .opened none ∅) replies before f after _ _ () () (hserves _) (hserves _)
  have hnode : tree.preorder.flatMap (Compliance.nodeViolations (.ofPolicy .standard)) =
      [⟨.missingAnnotations, ⟨1, 5⟩, "return annotation missing for function `area`"⟩,
        ⟨.missingExample, ⟨1, 5⟩, "docstring example missing for function `area`"⟩] := by
    decide +kernel
  have htree : Compliance.treeViolations (.ofPolicy .standard) tree =
      tree.preorder.flatMap (Compliance.nodeViolations (.ofPolicy .standard)) := by
    rw [Compliance.treeViolations, Compliance.walk_singleton, Compliance.Violation.sorted, hnode]
    exact List.mergeSort_of_pairwise (by decide)
  have hanalyzer : analyzeBy (fun _ => some tree) (.ofPolicy .standard) = fun _ => .ok
      [⟨.missingAnnotations, ⟨1, 5⟩, "return annotation missing for function `area`"⟩,
        ⟨.missingExample, ⟨1, 5⟩, "docstring example missing for function `area`"⟩] :=
    funext fun _ => congrArg Except.ok (htree.trans hnode)
  have hsource : (trace [source]).result =
      .ok (.completed (.ofList [.requireAnnotations, .requireTests])) := by
    simp only [trace, hanalyzer, source, replies]
    decide +kernel
  have hreads : (trace [source]).effects.filter (fun e => !e.isWrite) =
      [.listChangedFiles ⟨1⟩, .getFileContent "area.py" ⟨"0000000"⟩] := by
    simp only [trace, hanalyzer]
    decide +kernel
  have hIsTest (f : FileChange) (hf : Compliance.bringsTest .standard f = true) :
      Compliance.IsTest .standard f := Compliance.bringsTest_iff.1 hf
  have hrequired : (LabelSet.ofList [.requireAnnotations, .requireTests]).erase .requireTests =
      .ofList [.requireAnnotations] := by decide
  obtain ⟨-, hsame, hresult⟩ :=
    (htheorem [source] test []).1 (hIsTest _ (by decide +kernel)) _ hsource
  rw [hrequired] at hresult
  refine ⟨hsource, hresult, hsame.trans hreads, ?_, (htheorem [] removed [source]).2.2 rfl⟩
  exact (htheorem [] other [source, test]).2.1 (hIsTest _ (by decide +kernel))
    (Compliance.hasTestFile_iff.1 (by decide +kernel))

end Gate

end PullGate
