import PullGate.Proofs.AwaitingReview
import PullGate.Proofs.Compliance.Demands
/-!
# The summary that a new pull request gets

The labels that a run adds come from the rules that were found broken; the text of its comment comes
from the findings, rule by rule, and the part about tests from a search through all of them.
`Gate.summary_of_findings` says that the two agree: there is a comment exactly if a requirement is
new, and it lists what was found behind the new ones, each finding once.
-/

namespace PullGate

open PullGate.Compliance (Analyzer Naming Report Rule Violation)
open PullGate.Python (Node)

/-! ## Findings -/

namespace Compliance

/-- What is found in files with these paths and texts, in their order. Functions without examples
are passed over if there are tests. -/
def foundIn (trees : String → Option Node) (naming : Naming) (tests : Bool)
    (read : List (String × String)) : List (String × Violation) :=
  (read.flatMap fun (path, text) => match trees text with
    | none => []
    | some tree => (treeViolations naming tree).map fun v => (path, v)).filter
      fun x => x.2.rule ≠ .missingExample || !tests

namespace Report

/-- The report with files more, by their paths and texts. -/
def recordTexts (analyzer : Analyzer) (r : Report) (read : List (String × String)) : Report :=
  read.foldl (fun r x => r.record x.1 (analyzer x.2)) r

variable {trees : String → Option Node} {naming : Naming} {read : List (String × String)}

/-- Whether there are tests does not hang on the texts. -/
theorem hasTestFile_recordTexts {analyzer : Analyzer} {r : Report} :
    (r.recordTexts analyzer read).hasTestFile = r.hasTestFile := by
  induction read generalizing r with
  | nil => rfl
  | cons x read ih =>
    rw [recordTexts, List.foldl_cons, ← recordTexts, ih]
    cases analyzer x.2 <;> rfl

/-- Texts add the violations of their trees, each with its path. -/
theorem all_recordTexts {r : Report} : (r.recordTexts (analyzeBy trees naming) read).all =
    r.all ++ read.flatMap fun (path, text) => match trees text with
      | none => []
      | some tree => (treeViolations naming tree).map fun v => (path, v) := by
  induction read generalizing r with
  | nil => simp [recordTexts]
  | cons x read ih =>
    rw [recordTexts, List.foldl_cons, ← recordTexts, ih, List.flatMap_cons, ← List.append_assoc]
    congr 1
    rcases htree : trees x.2 with _ | tree <;> simp [analyzeBy, htree, record, all]

/-- The findings of a report on these texts. -/
theorem findings_recordTexts {tests : Bool} :
    ((Report.empty tests).recordTexts (analyzeBy trees naming) read).findings =
      foundIn trees naming tests read := by
  rw [findings, all_recordTexts, foundIn]
  simp only [counts, hasTestFile_recordTexts, empty, all, List.flatMap_nil, List.nil_append]

end Report

variable {trees : String → Option Node} {naming : Naming} {tests : Bool}
  {read : List (String × String)} {x : String × Violation}

/-- That there are no tests is never found in a file. -/
theorem rule_ne_missingTest (hx : x ∈ foundIn trees naming tests read) : x.2.rule ≠ .missingTest := by
  obtain ⟨⟨path, text⟩, -, hx⟩ := List.mem_flatMap.1 (List.mem_filter.1 hx).1
  rcases htree : trees text with _ | tree
  · simp [htree] at hx
  · simp only [htree, List.mem_map] at hx
    obtain ⟨v, hv, rfl⟩ := hx
    intro hrule
    have hmem : Rule.missingTest ∈ rulesOf (treeViolations naming tree) := by
      rw [← hrule]
      exact List.mem_map_of_mem hv
    obtain ⟨n, -, hbreaks⟩ := mem_rulesOf_treeViolations.1 hmem
    exact hbreaks

end Compliance

/-! ## Findings by rule -/

namespace Comment

/-- The parts of a summary about rules: a title and what was found, for each rule that was found
broken. -/
def parts (found : List (String × Violation)) : List (String × List (String × Violation)) :=
  (ruleSections.map fun s => (s.1, found.filter fun x => x.2.rule = s.2)).filter
    fun part => part.2 ≠ []

/-- The text of a part. -/
def partText : String × List (String × Violation) → String
  | (title, found) =>
    s!"\n**{title}**\n" ++ "\n".intercalate (found.map fun (path, v) => entry path v) ++ "\n"

/-- What is said about a file that nothing tests. -/
def untested (path : String) : String :=
  s!"no companion test file, and `{path}` has functions without doctest examples"

/-- The text of the part about tests, which names a file. -/
def testsText (path : String) : String :=
  s!"\n**Missing tests**\n- {untested path}. Add a `test_*.py` or `*_test.py` file.\n"

/-- What was found behind the labels that a plan adds. -/
def behind (plan : Plan) (found : List (String × Violation)) : List (String × Violation) :=
  found.filter fun x => x.2.rule.label ∈ plan.toAdd

/-- A comment tells of what was found behind the labels that a plan adds. -/
structure TellsOf (login : String) (plan : Plan) (found : List (String × Violation)) (text : String) :
    Prop where
  /-- It consists of a part about tests and the parts about rules. The one about tests is there if
  they are newly required, and names the first file with a function that has no example. -/
  consists : ∃ tests,
    text = greeting login ++ "Automated review found the following issues:\n" ++ tests ++
      String.join ((parts (behind plan found)).map partText) ++
      "\nPlease address these and push again; the labels update automatically." ∧
    (.requireTests ∈ plan.toAdd ∧ (∃ path v,
        found.find? (fun x => x.2.rule = .missingExample) = some (path, v) ∧ tests = testsText path) ∨
      .requireTests ∉ plan.toAdd ∧ tests = "")
  /-- A part about a rule lists what was found against it, in this order. -/
  lists : ∀ part, part ∈ parts (behind plan found) ↔ part.2 ≠ [] ∧
    ∃ rule, (part.1, rule) ∈ ruleSections ∧
      part.2 = (behind plan found).filter fun x => x.2.rule = rule
  /-- No finding is lost, and none repeated. -/
  once : ((parts (behind plan found)).flatMap (·.2)).Perm (behind plan found)
  /-- No label is new without a part. -/
  covers : ∀ l ∈ plan.toAdd, ∃ part ∈ parts (behind plan found), ∀ x ∈ part.2, x.2.rule.label = l

end Comment

/-- Each element of a list is in the part of it that belongs to its key. -/
theorem perm_flatMap_filter {α κ : Type} [DecidableEq κ] (key : α → κ) {keys : List κ}
    (hkeys : keys.Nodup) {xs : List α} (h : ∀ x ∈ xs, key x ∈ keys) :
    (keys.flatMap fun k => xs.filter fun x => key x = k).Perm xs := by
  induction keys generalizing xs with
  | nil =>
    rw [List.eq_nil_iff_forall_not_mem.2 fun x hx => List.not_mem_nil (h x hx)]
    exact .nil
  | cons k keys ih =>
    obtain ⟨hk, hkeys⟩ := List.nodup_cons.1 hkeys
    -- what does not belong to the first key is left to the others
    have hrest : ∀ x ∈ xs.filter (fun x => !decide (key x = k)), key x ∈ keys := by
      intro x hx
      obtain ⟨hx, hne⟩ := List.mem_filter.1 hx
      exact (List.mem_cons.1 (h x hx)).resolve_left (by simpa using hne)
    have hsame : (keys.flatMap fun k' => xs.filter fun x => key x = k') =
        keys.flatMap fun k' => (xs.filter fun x => !decide (key x = k)).filter fun x => key x = k' := by
      rw [List.flatMap_def, List.flatMap_def]
      refine congrArg List.flatten (List.map_congr_left fun k' hk' => ?_)
      rw [List.filter_filter]
      refine List.filter_congr fun x _ => ?_
      have hne : k' ≠ k := fun heq => hk (heq ▸ hk')
      by_cases hx : key x = k' <;> simp [hx, hne]
    rw [List.flatMap_cons, hsame]
    exact ((ih hkeys hrest).append_left _).trans (List.filter_append_perm _ xs)

namespace Comment

variable {found : List (String × Violation)}

/-- The parts of a summary are the rules that were broken, with what was found of each. -/
theorem mem_parts {part : String × List (String × Violation)} :
    part ∈ parts found ↔ part.2 ≠ [] ∧ ∃ rule, (part.1, rule) ∈ ruleSections ∧
      part.2 = found.filter fun x => x.2.rule = rule := by
  obtain ⟨title, entries⟩ := part
  simp only [parts, List.mem_filter, List.mem_map, Prod.exists, Prod.mk.injEq, decide_eq_true_eq]
  constructor
  · rintro ⟨⟨title, rule, hmem, rfl, rfl⟩, hne⟩
    exact ⟨hne, rule, hmem, rfl⟩
  · rintro ⟨hne, rule, hmem, rfl⟩
    exact ⟨⟨title, rule, hmem, rfl, rfl⟩, hne⟩

/-- The rules that have parts, in their order. -/
def ruleOrder : List Rule := ruleSections.map (·.2)

/-- All rules but that about tests have a section. -/
theorem mem_ruleOrder {rule : Rule} (h : rule ≠ .missingTest) : rule ∈ ruleOrder := by
  cases rule <;> first | exact absurd rfl h | decide

/-- Parts without entries add nothing. -/
theorem flatMap_nonempty (ps : List (String × List (String × Violation))) :
    (ps.filter fun part => part.2 ≠ []).flatMap (·.2) = ps.flatMap (·.2) := by
  induction ps with
  | nil => rfl
  | cons part ps ih =>
    rcases hpart : part.2 with _ | ⟨x, xs⟩
    · rw [List.filter_cons_of_neg (by simp [hpart]), ih, List.flatMap_cons, hpart, List.nil_append]
    · rw [List.filter_cons_of_pos (by simp [hpart]), List.flatMap_cons, List.flatMap_cons, ih]

/-- Nothing is lost and nothing repeated when findings are parted by their rules. -/
theorem perm_flatMap_parts (h : ∀ x ∈ found, x.2.rule ≠ .missingTest) :
    ((parts found).flatMap (·.2)).Perm found := by
  have hall : (parts found).flatMap (·.2) =
      ruleOrder.flatMap fun rule => found.filter fun x => x.2.rule = rule := by
    rw [parts, flatMap_nonempty, List.flatMap_map, ruleOrder, List.flatMap_map]
  rw [hall]
  exact perm_flatMap_filter _ (by decide) fun x hx => mem_ruleOrder (h x hx)

/-- A finding is in a part, together with the others of its rule. -/
theorem exists_part {x : String × Violation} (hx : x ∈ found) (h : x.2.rule ≠ .missingTest) :
    ∃ part ∈ parts found, x ∈ part.2 ∧ ∀ y ∈ part.2, y.2.rule = x.2.rule := by
  obtain ⟨⟨title, rule⟩, hmem, hrule⟩ := List.mem_map.1 (mem_ruleOrder h)
  have hx : x ∈ found.filter fun y => y.2.rule = rule := List.mem_filter.2 ⟨hx, by simp [← hrule]⟩
  refine ⟨(title, found.filter fun y => y.2.rule = rule),
    mem_parts.2 ⟨List.ne_nil_of_mem hx, rule, hmem, rfl⟩, hx, ?_⟩
  intro y hy
  rw [← hrule]
  simpa using (List.mem_filter.1 hy).2

/-- A section is empty, or it tells of all that was found of its rule. -/
theorem ruleSection_eq (report : Report) (added : LabelSet) (title : String) (rule : Rule) :
    ruleSection report added title rule =
      if (report.findingsFor added).filter (fun x => x.2.rule = rule) = [] then ""
      else partText (title, (report.findingsFor added).filter fun x => x.2.rule = rule) := by
  have hentries : ruleEntries report added rule =
      ((report.findingsFor added).filter fun x => x.2.rule = rule).map fun (path, v) => entry path v :=
    rfl
  rw [ruleSection, hentries]
  generalize (report.findingsFor added).filter (fun x => x.2.rule = rule) = found
  cases found <;> rfl

/-- The sections about rules are the parts of what was found behind the labels that are new. -/
theorem join_ruleSections (report : Report) (added : LabelSet) :
    String.join (ruleSections.map fun (title, rule) => ruleSection report added title rule) =
      String.join ((parts (report.findingsFor added)).map partText) := by
  -- for any sections: the induction cannot be on the fixed list of them
  have hjoin (sections : List (String × Rule)) :
      String.join (sections.map fun (title, rule) => ruleSection report added title rule) =
        String.join (((sections.map fun s =>
          (s.1, (report.findingsFor added).filter fun x => x.2.rule = s.2)).filter
            fun part => part.2 ≠ []).map partText) := by
    induction sections with
    | nil => rfl
    | cons s sections ih =>
      rw [List.map_cons, List.map_cons, String.join_cons, ih]
      dsimp only
      rw [ruleSection_eq]
      by_cases hnone : (report.findingsFor added).filter (fun x => x.2.rule = s.2) = []
      · rw [if_pos hnone, List.filter_cons_of_neg (by simp [hnone]), String.empty_append]
      · rw [if_neg hnone, List.filter_cons_of_pos (by simpa using hnone), List.map_cons,
          String.join_cons]
  exact hjoin ruleSections

end Comment

namespace Compliance.Report

/-- That there are no tests is reported where functions without examples count, and the first of these
is named. -/
theorem missingTest_eq (report : Report) : report.missingTest =
    (report.findings.find? fun x => x.2.rule = .missingExample).map fun x =>
      ⟨.missingTest, x.2.location, Comment.untested x.1⟩ := by
  have hall : report.hasTestFile = false → report.findings = report.all := by
    intro htests
    rw [findings]
    exact List.filter_eq_self.2 fun x _ => by simp [counts, htests]
  rw [missingTest]
  rcases htests : report.hasTestFile with _ | _
  · -- nothing is passed over, so the search is through the findings already
    rw [if_neg Bool.false_ne_true, hall htests]
    rfl
  · have hnone : report.findings.find? (fun x => x.2.rule = .missingExample) = none := by
      refine List.find?_eq_none.2 fun x hx => ?_
      have hcounts := (List.mem_filter.1 hx).2
      simpa [counts, htests] using hcounts
    rw [if_pos rfl, hnone]
    rfl

/-- What is required are the labels of what was found. -/
theorem has_requirements_iff {report : Report} {l : Label} :
    report.requirements.has l = true ↔ ∃ x ∈ report.findings, x.2.rule.label = l := by
  rw [requirements, LabelSet.has_ofList, List.contains_iff_mem, List.mem_map]

/-- The findings behind added labels are those behind what the plan adds. -/
theorem findingsFor_added (report : Report) (plan : Plan) :
    report.findingsFor plan.added = Comment.behind plan report.findings := by
  refine List.filter_congr fun x _ => ?_
  exact List.contains_eq_mem ..

end Compliance.Report

/-- The part about tests is there exactly if tests are newly required. -/
theorem Comment.missingTestSection_added {report : Report} {plan : Plan}
    (hfiles : ∀ x ∈ report.findings, x.2.rule ≠ .missingTest)
    (hadds : ∀ l ∈ plan.toAdd, report.requirements.has l = true) :
    .requireTests ∈ plan.toAdd ∧ (∃ path v,
        report.findings.find? (fun x => x.2.rule = .missingExample) = some (path, v) ∧
          missingTestSection report plan.added = testsText path) ∨
      .requireTests ∉ plan.toAdd ∧ missingTestSection report plan.added = "" := by
  rw [missingTestSection, Report.missingTest_eq]
  by_cases hnew : .requireTests ∈ plan.toAdd
  · obtain ⟨x, hx, hlabel⟩ := Report.has_requirements_iff.1 (hadds _ hnew)
    have hrule : x.2.rule = .missingExample := by
      have hne := hfiles x hx
      rcases hrule : x.2.rule <;> simp_all [Rule.label]
    have hsome : (report.findings.find? fun x => x.2.rule = .missingExample).isSome := by
      rw [List.find?_isSome]
      exact ⟨x, hx, decide_eq_true hrule⟩
    obtain ⟨⟨path, v⟩, hfirst⟩ := Option.isSome_iff_exists.1 hsome
    refine .inl ⟨hnew, path, v, hfirst, ?_⟩
    rw [hfirst]
    exact if_pos (List.contains_iff_mem.2 hnew)
  · refine .inr ⟨hnew, ?_⟩
    cases report.findings.find? fun x => x.2.rule = .missingExample with
    | none => rfl
    | some x => exact if_neg (mt List.contains_iff_mem.1 hnew)

/-- The summary tells of what was found behind the requirements that are new. -/
theorem Comment.tellsOf_summary (login : String) {report : Report} (labels : LabelSet)
    (hfiles : ∀ x ∈ report.findings, x.2.rule ≠ .missingTest) :
    let plan := Plan.between report.requirements labels
    TellsOf login plan report.findings (summary login report plan.added) := by
  intro plan
  have hadds : ∀ l ∈ plan.toAdd, report.requirements.has l = true :=
    fun l hl => (Plan.mem_toAdd.1 hl).2.1
  have hbehind : ∀ x ∈ behind plan report.findings, x.2.rule ≠ .missingTest :=
    fun x hx => hfiles x (List.mem_filter.1 hx).1
  refine ⟨⟨missingTestSection report plan.added, ?_, missingTestSection_added hfiles hadds⟩,
    fun part => mem_parts, perm_flatMap_parts hbehind, ?_⟩
  · rw [summary, join_ruleSections, Report.findingsFor_added]
  · intro l hl
    obtain ⟨x, hx, hlabel⟩ := Report.has_requirements_iff.1 (hadds l hl)
    have hmem : x ∈ behind plan report.findings :=
      List.mem_filter.2 ⟨hx, decide_eq_true (hlabel ▸ hl)⟩
    obtain ⟨part, hpart, -, hrule⟩ := exists_part hmem (hbehind x hmem)
    exact ⟨part, hpart, fun y hy => by rw [hrule y hy, hlabel]⟩

/-! ## Runs -/

/-- Whether a comment is posted. -/
def Effect.isComment : Effect → Bool
  | postComment _ _ => true
  | _ => false

namespace Gate

variable {analyzer : Analyzer} {policy : Policy} {event : PullRequestEvent}

/-- Texts of files were read in this order, as of the last commit. -/
def textAnswers (event : PullRequestEvent) (read : List (String × String)) : Transcript :=
  read.map fun x => (.getFileContent x.1 event.pr.head, .ok (.fileContent x.2))

/-- The analysis reads the texts of the files one after another and records them. -/
theorem texts_of_plays_analyzeFiles {files : List FileChange} {report report' : Report}
    {xs : Transcript} (h : (analyzeFiles analyzer event files report).Plays xs (.ok report')) :
    ∃ read, read.map Prod.fst = files.map (·.path) ∧ xs = textAnswers event read ∧
      report' = report.recordTexts analyzer read := by
  induction files generalizing report xs with
  | nil =>
    obtain ⟨rfl, hreport⟩ := Program.plays_done_iff.1 h
    cases hreport
    exact ⟨[], rfl, rfl, rfl⟩
  | cons f files ih =>
    obtain ⟨ys, text, zs, htext, hrest, rfl⟩ := Program.Plays.of_bind_ok h
    obtain ⟨read, hpaths, rfl, rfl⟩ := ih hrest
    refine ⟨(f.path, text) :: read, ?_, ?_, rfl⟩
    · rw [List.map_cons, List.map_cons, hpaths]
    · rw [htext.fileContent]
      rfl

/-- Sources are judged by their texts, each read once behind the list of files. -/
theorem texts_of_plays_judgeFiles {report : Report} {xs : Transcript}
    (h : (judgeFiles analyzer policy event).Plays xs (.ok (.analyzed report))) :
    ∃ files read, read.map Prod.fst = (Compliance.sources policy files).map (·.path) ∧
      xs = (.listChangedFiles event.pr.number, .ok (.changedFiles files)) :: textAnswers event read ∧
      report = (Report.empty (Compliance.hasTestFile policy files)).recordTexts analyzer read := by
  obtain ⟨ys, files, zs, hlist, hrest, rfl⟩ := h.of_bind_ok
  split at hrest
  · cases (Program.plays_done_iff.1 hrest).2
  · obtain ⟨us, report', vs, hanalyze, hend, rfl⟩ := hrest.of_bind_ok
    obtain ⟨rfl, hreport⟩ := Program.plays_done_iff.1 hend
    cases hreport
    obtain ⟨read, hpaths, rfl, hreport⟩ := texts_of_plays_analyzeFiles hanalyze
    refine ⟨files, read, hpaths, ?_, hreport⟩
    rw [hlist.changedFiles, List.append_nil]
    rfl

/-- Whatever is analysed was read last before the verdict. -/
theorem exists_plays_judgeFiles {report : Report} {xs : Transcript}
    (h : (judge analyzer policy event).Plays xs (.ok (.analyzed report))) :
    ∃ ys zs, xs = ys ++ zs ∧ (judgeFiles analyzer policy event).Plays zs (.ok (.analyzed report)) := by
  -- all other ways out of the checks end in another verdict
  have hdraft {xs : Transcript}
      (h : (judgeDraft analyzer policy event).Plays xs (.ok (.analyzed report))) :
      (judgeFiles analyzer policy event).Plays xs (.ok (.analyzed report)) := by
    unfold judgeDraft at h
    split at h
    case h_1 | h_2 =>
      split at h
      · cases (Program.plays_done_iff.1 h).2
      · exact h
    case h_3 => exact h
    case h_4 => cases (Program.plays_done_iff.1 h).2
  unfold judge at h
  split at h
  · cases (Program.plays_done_iff.1 h).2
  split at h
  · cases (Program.plays_done_iff.1 h).2
  unfold judgeCap at h
  split at h
  · obtain ⟨ys, search, zs, -, hrest, rfl⟩ := h.of_bind_ok
    split at hrest
    · cases (Program.plays_done_iff.1 hrest).2
    · exact ⟨ys, zs, rfl, hdraft hrest⟩
  · exact ⟨[], xs, rfl, hdraft h⟩

/-- The only comment of a run that analysed the sources is the summary. -/
theorem filter_isComment_analyzed (report : Report) :
    (Verdict.writes policy event (.analyzed report)).filter (·.isComment) =
      let plan := Plan.between report.requirements event.pr.labels
      if event.action = .opened ∧ plan.toAdd ≠ [] then
        [.postComment event.pr.number (Comment.summary event.pr.author report plan.added)]
      else [] := by
  have hplan (plan : Plan) : (plan.effects event.pr.number).filter (·.isComment) = [] := by
    refine List.filter_eq_nil_iff.2 fun e he => ?_
    rcases Plan.mem_effects he with rfl | ⟨l, -, rfl⟩ <;> exact Bool.false_ne_true
  have hdefault : (defaultEffects event report.requirements).filter (·.isComment) = [] := by
    refine List.filter_eq_nil_iff.2 fun e he => ?_
    obtain ⟨-, -, rfl⟩ := mem_defaultEffects he
    exact Bool.false_ne_true
  simp only [Verdict.writes, reportEffects, List.filter_append, hplan, hdefault, List.append_nil]
  split <;> rfl

/-- A run that ends without a fault had nothing to do, or it read the sources and analysed them. -/
theorem verdict_of_completed {requirements : LabelSet} {xs : Transcript}
    (h : (run analyzer policy event).Plays xs (.ok (.completed requirements))) :
    ∃ v ys zs, (judge analyzer policy event).Plays ys (.ok v) ∧ xs = ys ++ zs ∧
      xs.effects.filter (·.isComment) = (v.writes policy event).filter (·.isComment) ∧
      (v = .unasked ∧ event.action ≠ .opened ∨
        ∃ report, v = .analyzed report ∧ requirements = report.requirements) := by
  rw [run_eq_judge] at h
  obtain ⟨ys, v, zs, hjudge, hcarry, rfl⟩ := h.of_bind_ok
  obtain ⟨us, _, vs, hwrites, hend, rfl⟩ := Program.Plays.of_bind_ok hcarry
  obtain ⟨rfl, houtcome⟩ := Program.plays_done_iff.1 hend
  refine ⟨v, ys, us ++ [], hjudge, rfl, ?_, ?_⟩
  -- the verdict is come to by reads alone, so every comment is among the writes
  · have hreads : ys.effects.filter (·.isComment) = [] := by
      refine List.filter_eq_nil_iff.2 fun e he => ?_
      have hread := hjudge.isWrite_eq_false ofReads_judge.reads e he
      cases e <;> first | exact Bool.false_ne_true | cases hread
    have hall : us.effects = v.writes policy event := by
      rcases hwrites.performAll.2 with hall | ⟨_, _, hfail⟩
      · exact hall
      · cases hfail
    rw [List.append_nil, Transcript.effects_append, List.filter_append, hreads, hall,
      List.nil_append]
  · cases v with
    | unasked =>
      refine .inl ⟨rfl, ?_⟩
      rcases judged_of_plays hjudge with ⟨-, hsettled, -⟩ | ⟨-, hjudged⟩
      · cases hsettled
      · cases hjudged with
        | unasked hopened => exact hopened
    | analyzed report =>
      cases houtcome
      exact .inr ⟨report, rfl, rfl⟩
    | _ => cases houtcome

/-! ## Summaries -/

/-- **What the summary says.** Take a run that ends without a fault, whatever trees the texts of files
have. It posts no comment unless the pull request is new. If it is, the changed files were listed and
then the texts of those that are analysed were read, in their order, and the labels that are required
are those of what was found in them. A comment is posted exactly if a requirement is new, only one, and
it tells of what was found behind the new requirements: rule by rule, each finding once, and nothing
else but whether tests are newly required. The analysis of Python sources is one with such trees. -/
theorem summary_of_findings {σ : Type} (trees : String → Option Node) (naming : Naming)
    (policy : Policy) (event : PullRequestEvent) (host : Host σ) (s : σ) (requirements : LabelSet) :
    let program := run (Compliance.analyzeBy trees naming) policy event
    let comments := (program.run host s).1.effects.filter (·.isComment)
    let plan := Plan.between requirements event.pr.labels
    (program.run host s).1.result = .ok (.completed requirements) →
    (event.action ≠ .opened → comments = []) ∧
    (event.action = .opened → ∃ files read before after text,
      program.transcript host s = before ++
          (.listChangedFiles event.pr.number, .ok (.changedFiles files)) ::
            textAnswers event read ++ after ∧
      read.map Prod.fst = (Compliance.sources policy files).map (·.path) ∧
      let found := Compliance.foundIn trees naming (Compliance.hasTestFile policy files) read
      (∀ l, requirements.has l = true ↔ ∃ x ∈ found, x.2.rule.label = l) ∧
      comments = (if plan.toAdd = [] then [] else [.postComment event.pr.number text]) ∧
      Comment.TellsOf event.pr.author plan found text) ∧
    Compliance.analyze naming = Compliance.analyzeBy Python.parse naming := by
  intro program comments plan hresult
  have hplays := Program.plays_run host program s
  rw [hresult] at hplays
  have hcomments : comments = ((program.transcript host s).effects).filter (·.isComment) :=
    congrArg (List.filter _) (Program.effects_run host program s)
  obtain ⟨v, ys, zs, hjudge, hxs, hwrites, ⟨rfl, hopened⟩ | ⟨report, rfl, rfl⟩⟩ :=
    verdict_of_completed hplays
  · exact ⟨fun _ => by rw [hcomments, hwrites]; rfl, fun h => absurd h hopened, rfl⟩
  -- of the writes that follow an analysis only one can be a comment
  rw [filter_isComment_analyzed, ← hcomments] at hwrites
  refine ⟨fun h => by rw [hwrites]; exact if_neg fun hnew => h hnew.1, fun hopened => ?_, rfl⟩
  obtain ⟨before, us, rfl, hjudgeFiles⟩ := exists_plays_judgeFiles hjudge
  obtain ⟨files, read, hpaths, rfl, hreport⟩ := texts_of_plays_judgeFiles hjudgeFiles
  have hfound : report.findings =
      Compliance.foundIn trees naming (Compliance.hasTestFile policy files) read := by
    rw [hreport]
    exact Report.findings_recordTexts
  -- missing tests are told of by themselves: no finding in a file is of that rule
  have hfiles : ∀ x ∈ report.findings, x.2.rule ≠ .missingTest := by
    rw [hfound]
    exact fun x => Compliance.rule_ne_missingTest
  refine ⟨files, read, before, zs, Comment.summary event.pr.author report plan.added, ?_, hpaths, ?_⟩
  · rw [hxs]
  rw [← hfound]
  refine ⟨fun l => Report.has_requirements_iff, ?_, Comment.tellsOf_summary _ _ hfiles⟩
  rw [hwrites]
  by_cases hnew : plan.toAdd = []
  · rw [if_pos hnew]
    exact if_neg fun h => h.2 hnew
  · rw [if_neg hnew]
    exact if_pos ⟨hopened, hnew⟩

/-- Someone adds a function that has no type and no example, where types are required already. -/
theorem summary_of_findings_function :
    let name : Node := .mk .identifier ⟨1, 5⟩ "area" []
    let tree : Node := .mk .functionDefinition ⟨1, 1⟩ "" [(some .name, name)]
    let naming := Naming.ofPolicy .standard
    let event := PullRequestEvent.byOwner .opened none (.ofList [.requireAnnotations])
    let replies : Effect → Response
      | .listChangedFiles _ => .changedFiles [⟨"area.py", "", .added⟩]
      | e => Host.plainReply [] e
    let t := ((run (Compliance.analyzeBy (fun _ => some tree) naming) .standard event).run
      (.steady replies) ()).1
    let requirements := LabelSet.ofList [.requireAnnotations, .requireTests]
    let text :=
      "Hello @octo, thank you for your contribution!\n\n" ++
      "Automated review found the following issues:\n" ++
      "\n**Missing tests**\n" ++
      "- no companion test file, and `area.py` has functions without doctest examples. " ++
      "Add a `test_*.py` or `*_test.py` file.\n" ++
      "\n**Missing doctest examples**\n" ++
      "- `area.py:1`: docstring example missing for function `area`\n" ++
      "\nPlease address these and push again; the labels update automatically."
    t.result = .ok (.completed requirements) ∧
      t.effects.filter (·.isComment) = [.postComment ⟨1⟩ text] ∧
      ∃ found, Comment.TellsOf "octo" (.between requirements event.pr.labels) found text := by
  intro name tree naming event replies t requirements text
  have hnode : tree.preorder.flatMap (Compliance.nodeViolations naming) =
      [⟨.missingAnnotations, ⟨1, 5⟩, "return annotation missing for function `area`"⟩,
        ⟨.missingExample, ⟨1, 5⟩, "docstring example missing for function `area`"⟩] := by
    decide +kernel
  have htree : Compliance.treeViolations naming tree =
      tree.preorder.flatMap (Compliance.nodeViolations naming) := by
    rw [Compliance.treeViolations, Compliance.walk_singleton, Violation.sorted, hnode]
    exact List.mergeSort_of_pairwise (by decide)
  have hanalyzer : Compliance.analyzeBy (fun _ => some tree) naming = fun _ => .ok
      [⟨.missingAnnotations, ⟨1, 5⟩, "return annotation missing for function `area`"⟩,
        ⟨.missingExample, ⟨1, 5⟩, "docstring example missing for function `area`"⟩] :=
    funext fun _ => congrArg Except.ok (htree.trans hnode)
  have hresult : t.result = .ok (.completed requirements) := by
    simp only [t, hanalyzer]
    rfl
  have hcomments : t.effects.filter (·.isComment) = [.postComment ⟨1⟩ text] := by
    simp only [t, hanalyzer]
    decide +kernel
  refine ⟨hresult, hcomments, ?_⟩
  obtain ⟨-, hnew, -⟩ := summary_of_findings (fun _ => some tree) naming .standard event
    (.steady replies) () requirements hresult
  obtain ⟨files, read, _, _, text', -, -, -, hone, htells⟩ := hnew rfl
  rw [if_neg (by decide +kernel)] at hone
  obtain rfl : text = text' := by
    cases hcomments.symm.trans hone
    rfl
  exact ⟨_, htells⟩

end Gate

end PullGate
