import PullGate.Proofs.Attempt
import PullGate.Proofs.Compliance.Breaks
/-!
# What submitted sources are asked for

Which changed files are analysed, and what their trees ask for together. `demands_comply` says that the
labels which the gate demands are those of the rules that the nodes of these trees break.
-/

namespace PullGate.Compliance

open PullGate.Python (Node)

/-! ## Files -/

/-- The name of a file says that it tests another. -/
def IsCompanionTest (path : String) : Prop :=
  (∃ name, Path.fileName? path = some name ∧ "test_".toList <+: name) ∨
    ∃ stem, Path.stem? path = some stem ∧ "_test".toList <:+ stem

/-- Files that are taken for companion tests are those that are named so. -/
theorem isCompanionTest_iff {path : String} :
    isCompanionTest path = true ↔ IsCompanionTest path := by
  have hpart {xs : List Char} {name : Option (List Char)} (P : List Char → List Char → Prop)
      (hnil : ¬ P xs []) : P xs (name.getD []) ↔ ∃ cs, name = some cs ∧ P xs cs := by
    cases name <;> simp [hnil]
  rw [isCompanionTest, Bool.or_eq_true, List.isPrefixOf_iff_prefix, List.isSuffixOf_iff_suffix,
    hpart (· <+: ·) (by simp), hpart (· <:+ ·) (by simp)]
  rfl

/-- A changed file is one that the analysis is for. -/
structure Qualifies (policy : Policy) (f : FileChange) : Prop where
  status : f.status = .added ∨ f.status = .modified
  extension : Path.extension? f.path = some policy.sourceExtension.toList
  noTest : ¬ IsCompanionTest f.path
  noIgnoredDir : ∀ first rest, Path.components f.path = first :: rest →
    String.ofList first.text ∉ policy.ignoredDirs
  noSpecialName : ∀ stem, Path.stem? f.path = some stem → ¬ ("__".toList <+: stem ∧ "__".toList <:+ stem)

/-- A path is under none of the directories if its first part is none of them. -/
theorem isUnderAny_eq_false_iff {dirs : List String} {path : String} :
    Path.isUnderAny dirs path = false ↔
      ∀ first rest, Path.components path = first :: rest → String.ofList first.text ∉ dirs := by
  rw [Path.isUnderAny]
  cases Path.components path <;> simp

/-- Modules without a special name are those whose stem lacks the underscores on one side. -/
theorem isSpecialModule_eq_false_iff {path : String} :
    isSpecialModule path = false ↔
      ∀ stem, Path.stem? path = some stem → ¬ ("__".toList <+: stem ∧ "__".toList <:+ stem) := by
  rw [isSpecialModule]
  cases Path.stem? path with
  | none => simp
  | some stem =>
    simp only [Option.some.injEq, forall_eq', ← List.isPrefixOf_iff_prefix,
      ← List.isSuffixOf_iff_suffix, ← Bool.and_eq_true, Bool.not_eq_true]
    rfl

/-- Files that are analysed are those that qualify. -/
theorem isAnalyzed_iff {policy : Policy} {f : FileChange} :
    isAnalyzed policy f = true ↔ Qualifies policy f := by
  simp only [isAnalyzed, isSource, Bool.and_eq_true, Bool.or_eq_true, decide_eq_true_eq,
    Bool.not_eq_true', isUnderAny_eq_false_iff, isSpecialModule_eq_false_iff,
    ← Bool.not_eq_true (isCompanionTest f.path), isCompanionTest_iff]
  constructor
  · rintro ⟨⟨⟨⟨hstatus, hextension⟩, htest⟩, hdir⟩, hspecial⟩
    exact ⟨hstatus, hextension, htest, hdir, hspecial⟩
  · rintro ⟨hstatus, hextension, htest, hdir, hspecial⟩
    exact ⟨⟨⟨⟨hstatus, hextension⟩, htest⟩, hdir⟩, hspecial⟩

/-- The sources are the files that qualify. -/
theorem mem_sources_iff {policy : Policy} {files : List FileChange} {f : FileChange} :
    f ∈ sources policy files ↔ f ∈ files ∧ Qualifies policy f := by
  rw [sources, List.mem_filter, isAnalyzed_iff]

/-- A file that tests another is among the changes, and is not one that was removed. -/
def BringTest (policy : Policy) (files : List FileChange) : Prop :=
  ∃ f ∈ files, f.status ≠ .removed ∧
    Path.extension? f.path = some policy.sourceExtension.toList ∧ IsCompanionTest f.path

/-- There are tests if a file brings one. -/
theorem hasTestFile_iff {policy : Policy} {files : List FileChange} :
    hasTestFile policy files = true ↔ BringTest policy files := by
  simp only [hasTestFile, List.any_eq_true, bringsTest, isSource, Bool.and_eq_true, ne_eq,
    decide_eq_true_eq, isCompanionTest_iff, and_assoc]
  rfl

/-! ## Reports -/

namespace Report

/-- The report with files more that have these texts. -/
def recordAll (analyzer : Analyzer) (texts : String → String) (r : Report)
    (files : List FileChange) : Report :=
  files.foldl (fun r f => r.record f.path (analyzer (texts f.path))) r

/-- The rules that were found broken. -/
def rules (r : Report) : List Rule := rulesOf (r.all.map (·.2))

variable {analyzer : Analyzer} {texts : String → String} {r : Report} {files : List FileChange}
  {rule : Rule}

/-- A file adds the rules that its source breaks, if it has an analysis. -/
theorem mem_rules_record {path : String} {result : Except AnalysisError (List Violation)} :
    rule ∈ (r.record path result).rules ↔
      rule ∈ r.rules ∨ ∃ vs, result = .ok vs ∧ rule ∈ rulesOf vs := by
  cases result with
  | error e => simp [record, rules, all]
  | ok vs => simp [record, rules, all, rulesOf, Function.comp_def]

/-- Files add the rules that their sources break. -/
theorem mem_rules_recordAll : rule ∈ (r.recordAll analyzer texts files).rules ↔
    rule ∈ r.rules ∨ ∃ f ∈ files, ∃ vs, analyzer (texts f.path) = .ok vs ∧ rule ∈ rulesOf vs := by
  induction files generalizing r with
  | nil => simp [recordAll]
  | cons f files ih =>
    rw [recordAll, List.foldl_cons, ← recordAll, ih, mem_rules_record]
    simp only [List.mem_cons, exists_eq_or_imp, or_assoc]

/-- Whether there are tests does not hang on the analysis. -/
theorem hasTestFile_recordAll :
    (r.recordAll analyzer texts files).hasTestFile = r.hasTestFile := by
  induction files generalizing r with
  | nil => rfl
  | cons f files ih =>
    rw [recordAll, List.foldl_cons, ← recordAll, ih]
    cases analyzer (texts f.path) <;> rfl

/-- A label is required for a rule that is broken; for missing examples only where there are no
tests. -/
theorem requirements_has_iff {l : Label} : r.requirements.has l = true ↔
    ∃ rule ∈ r.rules, (rule ≠ .missingExample ∨ r.hasTestFile = false) ∧ rule.label = l := by
  simp only [requirements, findings, LabelSet.has_ofList, List.contains_iff_mem, List.mem_map,
    List.mem_filter, counts, rules, rulesOf, Bool.or_eq_true, Bool.not_eq_true', ne_eq,
    decide_eq_true_eq]
  constructor
  · rintro ⟨v, ⟨hv, hcounts⟩, hlabel⟩
    exact ⟨v.2.rule, ⟨v.2, ⟨v, hv, rfl⟩, rfl⟩, hcounts, hlabel⟩
  · rintro ⟨_, ⟨_, ⟨v, hv, rfl⟩, rfl⟩, hcounts, hlabel⟩
    exact ⟨v, ⟨hv, hcounts⟩, hlabel⟩

end Report

/-! ## Demands -/

/-- The analysis of sources whose trees are these; a source without a tree is no program. -/
def analyzeBy (trees : String → Option Node) (naming : Naming) : Analyzer := fun source =>
  match trees source with
  | none => .error .notParsed
  | some tree => .ok (treeViolations naming tree)

theorem analyze_eq_analyzeBy (naming : Naming) : analyze naming = analyzeBy Python.parse naming := rfl

section

variable (policy : Policy) (trees : String → Option Node) (texts : String → String)
  (files : List FileChange)

/-- A node is submitted: it is in the tree of a file that the analysis is for. -/
def Submitted (n : Node) : Prop :=
  ∃ f ∈ files, Qualifies policy f ∧ ∃ tree, trees (texts f.path) = some tree ∧ n.Within tree

/-- What asks for a label. `tests` says that there are tests. -/
def Demands (tests : Bool) : Label → Prop
  | .requireAnnotations => ∃ n, Submitted policy trees texts files n ∧ LacksType n
  | .requireTests => tests = false ∧ ∃ n, Submitted policy trees texts files n ∧ LacksExample n
  | .requireNames => ∃ n m, Submitted policy trees texts files n ∧ Introduces n m ∧
      (Naming.ofPolicy policy).Refuses m.text
  | _ => False

/-- The report on the files that the analysis is for. -/
def reportOn (tests : Bool) : Report :=
  (Report.empty tests).recordAll (analyzeBy trees (.ofPolicy policy)) texts (sources policy files)

end

variable {policy : Policy} {trees : String → Option Node} {texts : String → String}
  {files : List FileChange} {tests : Bool}

/-- The rules of a report are those that submitted nodes break. -/
theorem mem_rules_reportOn {rule : Rule} :
    rule ∈ (reportOn policy trees texts files tests).rules ↔
      ∃ n, Submitted policy trees texts files n ∧ Breaks (.ofPolicy policy) n rule := by
  have hanalysis {source : String} : (∃ vs, analyzeBy trees (.ofPolicy policy) source = .ok vs ∧
      rule ∈ rulesOf vs) ↔ ∃ tree, trees source = some tree ∧
        ∃ n, n.Within tree ∧ Breaks (.ofPolicy policy) n rule := by
    rw [analyzeBy]
    cases trees source with
    | none => simp
    | some tree => simp [mem_rulesOf_treeViolations]
  rw [reportOn, Report.mem_rules_recordAll]
  simp only [hanalysis, mem_sources_iff]
  constructor
  · rintro (h | ⟨f, ⟨hf, hqualifies⟩, tree, htree, n, hn, hbreaks⟩)
    · simp [Report.empty, Report.rules, Report.all, rulesOf] at h
    · exact ⟨n, ⟨f, hf, hqualifies, tree, htree, hn⟩, hbreaks⟩
  · rintro ⟨n, ⟨f, hf, hqualifies, tree, htree, hn⟩, hbreaks⟩
    exact .inr ⟨f, ⟨hf, hqualifies⟩, tree, htree, n, hn, hbreaks⟩

/-- The requirements of a report are the labels that are demanded. -/
theorem requirements_reportOn {l : Label} :
    (reportOn policy trees texts files tests).requirements.has l = true ↔
      Demands policy trees texts files tests l := by
  have htests : (reportOn policy trees texts files tests).hasTestFile = tests :=
    Report.hasTestFile_recordAll
  rw [Report.requirements_has_iff, htests]
  simp only [mem_rules_reportOn]
  constructor
  -- one rule for each of the labels; a missing example counts only where there are no tests
  · rintro ⟨rule, ⟨n, hn, hbreaks⟩, hcounts, rfl⟩
    cases rule with
    | missingTest => exact hbreaks.elim
    | missingAnnotations => exact ⟨n, hn, hbreaks⟩
    | missingExample => exact ⟨hcounts.resolve_left (fun h => h rfl), n, hn, hbreaks⟩
    | nonDescriptiveName =>
      obtain ⟨m, h⟩ := hbreaks
      exact ⟨n, m, hn, h⟩
  · intro h
    cases l with
    | requireAnnotations =>
      obtain ⟨n, hn, h⟩ := h
      exact ⟨.missingAnnotations, ⟨n, hn, h⟩, .inl nofun, rfl⟩
    | requireTests =>
      obtain ⟨htests, n, hn, h⟩ := h
      exact ⟨.missingExample, ⟨n, hn, h⟩, .inr htests, rfl⟩
    | requireNames =>
      obtain ⟨n, m, hn, h⟩ := h
      exact ⟨.nonDescriptiveName, ⟨n, hn, m, h⟩, .inl nofun, rfl⟩
    | _ => exact h.elim

/-- Answers that give the texts of files. -/
def served (texts : String → String) : Effect → Response
  | .getFileContent path _ => .fileContent (texts path)
  | e => Host.plainReply [] e

/-- The gate's analysis of files makes the report on their texts. -/
theorem value_analyzeFiles (analyzer : Analyzer) (event : PullRequestEvent)
    (files : List FileChange) (report : Report) :
    (Gate.analyzeFiles analyzer event files report).value (served texts) =
      .ok (report.recordAll analyzer texts files) := by
  induction files generalizing report with
  | nil => rfl
  | cons f files ih => exact ih _

/-- The gate requires what the report on the sources does. -/
theorem value_comply (analyzer : Analyzer) (event : PullRequestEvent) :
    (Gate.comply analyzer policy event files).value (served texts) =
      .ok ((Report.empty (hasTestFile policy files)).recordAll analyzer texts
        (sources policy files)).requirements := by
  rw [Gate.comply]
  simp only [Program.bind_eq, Program.value_bind, value_analyzeFiles, Program.value_performAll]
  rfl

/-- **The labels that sources ask for.** Whatever the trees of texts are: a report on changed files asks
for exactly the labels that are demanded by functions without types, by functions without examples
where there are no tests, and by names that say nothing, at any depth of the trees of the files that
the analysis is for. A run of the analysis at a host with these texts ends with these labels; there are
tests if a file that tests another is among the changes. -/
theorem demands_comply (trees : String → Option Node) (policy : Policy) (event : PullRequestEvent)
    (files : List FileChange) (texts : String → String) :
    (∀ tests l, (reportOn policy trees texts files tests).requirements.has l = true ↔
      Demands policy trees texts files tests l) ∧
    (∃ requirements,
      ((Gate.comply (analyzeBy trees (.ofPolicy policy)) policy event files).run
        (.steady (served texts)) ()).1.result = .ok requirements ∧
      ∀ l, requirements.has l = true ↔
        Demands policy trees texts files (hasTestFile policy files) l) ∧
    (hasTestFile policy files = true ↔ BringTest policy files) ∧
    analyze (.ofPolicy policy) = analyzeBy Python.parse (.ofPolicy policy) := by
  refine ⟨fun tests l => requirements_reportOn, ?_, hasTestFile_iff, analyze_eq_analyzeBy _⟩
  exact ⟨_, (Program.result_run_steady _).trans (value_comply _ _), fun l => requirements_reportOn⟩

end PullGate.Compliance
