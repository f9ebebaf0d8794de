import Mathlib.Data.List.Basic
import PullGate.Proofs.Compliance.Aliases
import PullGate.Proofs.Serving
/-!
# Lenient naming

What names are accepted has a part in one rule only, and at every node a policy passes over some of
the same names. So two policies find the same in a source but for names, in the same order; and a
policy that accepts more names finds the less of what another finds. `analyze_lenient` says this of
sources, and of what pull requests are asked for.

At the nodes both are one relation, `SameButNames`. That the list of violations is sorted afterwards
is no matter, since sorting keeps what is a part of a list a part of it (`Violation.sublist_sorted`).
-/

namespace PullGate

open PullGate.Python (Node)

/-- The settings with another naming policy. -/
def Policy.withNaming (policy : Policy) (naming : Compliance.Naming) : Policy :=
  { policy with allowedNames := naming.allowed, refusedNames := naming.refused }

namespace Compliance

/-! ## Naming policies -/

/-- Every name that one policy accepts is accepted by another. -/
def Naming.Within (p q : Naming) : Prop :=
  ∀ name, p.isDescriptive name = true → q.isDescriptive name = true

/-- To allow more names and to refuse fewer is to accept more. -/
theorem Naming.within_of_lists {p q : Naming} (hallowed : p.allowed ⊆ q.allowed)
    (hrefused : q.refused ⊆ p.refused) : p.Within q := by
  intro name h
  simp only [isDescriptive, Bool.or_eq_true, Bool.and_eq_true, List.contains_iff_mem,
    Bool.not_eq_true', decide_eq_true_eq, ← Bool.not_eq_true] at h ⊢
  rcases h with h | ⟨hnot, hlong⟩
  · left
    exact hallowed h
  · right
    exact ⟨fun h => hnot (hrefused h), hlong⟩

/-! ## The order of a part of a list -/

namespace Violation

/-- One violation more is listed behind those that come before it and in front of the others. -/
theorem sorted_cons (v : Violation) (vs : List Violation) : sorted (v :: vs) =
    (sorted vs).filter (fun w => !le v w) ++ v :: (sorted vs).filter (le v) := by
  obtain ⟨before, after, hcons, hrest, hbefore⟩ := List.mergeSort_cons trans_le total_le v vs
  have hafter : ∀ w ∈ after, le v w = true := by
    have hpairwise := List.pairwise_mergeSort trans_le total_le (v :: vs)
    rw [hcons] at hpairwise
    exact (List.pairwise_cons.1 (List.pairwise_append.1 hpairwise).2.1).1
  have hearlier : (before ++ after).filter (fun w => !le v w) = before := by
    rw [List.filter_append, List.filter_eq_self.2 hbefore,
      List.filter_eq_nil_iff.2 (by simpa using hafter), List.append_nil]
  have hlater : (before ++ after).filter (le v) = after := by
    rw [List.filter_append, List.filter_eq_self.2 hafter,
      List.filter_eq_nil_iff.2 (by simpa using hbefore), List.nil_append]
  rw [sorted, sorted, hcons, hrest, hearlier, hlater]

/-- A part of a list is sorted as it stands in the whole. -/
theorem sublist_sorted {vs ws : List Violation} (h : vs.Sublist ws) :
    (sorted vs).Sublist (sorted ws) := by
  induction h with
  | slnil => exact List.Sublist.refl _
  | @cons vs ws w _ ih =>
    obtain ⟨before, after, hcons, hrest, -⟩ := List.mergeSort_cons trans_le total_le w ws
    rw [sorted, sorted, hrest] at ih
    rw [sorted, sorted, hcons]
    exact ih.middle w
  | @cons_cons vs ws v _ ih =>
    rw [sorted_cons, sorted_cons]
    exact (ih.filter _).append ((ih.filter _).cons_cons v)

/-- What is left of a sorted list is the sorted list of what is left. -/
theorem sorted_filter (f : Violation → Bool) (vs : List Violation) :
    sorted (vs.filter f) = (sorted vs).filter f := by
  have hall : (sorted (vs.filter f)).filter f = sorted (vs.filter f) := by
    refine List.filter_eq_self.2 fun v hv => ?_
    exact (List.mem_filter.1 ((perm_sorted _).mem_iff.1 hv)).2
  have hsub := (sublist_sorted (List.filter_sublist (p := f) (l := vs))).filter f
  rw [hall] at hsub
  exact hsub.eq_of_length
    ((perm_sorted _).trans ((perm_sorted vs).filter f).symm).length_eq

end Violation

/-! ## Two policies at a node -/

/-- The violations besides names. -/
def besidesNames (vs : List Violation) : List Violation :=
  vs.filter fun v => v.rule ≠ .nonDescriptiveName

/-- What two policies find at the same places. Each passes over the names that it accepts. -/
inductive SameButNames (p q : Naming) : List Violation → List Violation → Prop
  | nil : SameButNames p q [] []
  | found (v : Violation) : SameButNames p q [v] [v]
  | name (name : String) (v : Violation) (h : v.rule = .nonDescriptiveName) :
      SameButNames p q (if p.isDescriptive name then [] else [v])
        (if q.isDescriptive name then [] else [v])
  | append {vs ws vs' ws' : List Violation} (h : SameButNames p q vs ws)
      (h' : SameButNames p q vs' ws') : SameButNames p q (vs ++ vs') (ws ++ ws')

namespace SameButNames

variable {p q : Naming} {vs ws : List Violation}

/-- Besides names both lists report the same. -/
theorem besidesNames_eq (h : SameButNames p q vs ws) : besidesNames vs = besidesNames ws := by
  induction h with
  | nil => rfl
  | found v => rfl
  | name name v hrule =>
    have hnone : besidesNames [v] = [] := by simp [besidesNames, hrule]
    split <;> split <;> simp only [hnone] <;> rfl
  | append _ _ ih ih' =>
    simp only [besidesNames, List.filter_append] at ih ih' ⊢
    rw [ih, ih']

/-- The policy that accepts more finds less. -/
theorem sublist (h : SameButNames p q vs ws) (hwithin : p.Within q) : ws.Sublist vs := by
  induction h with
  | nil => exact List.Sublist.refl []
  | found v => exact List.Sublist.refl [v]
  | name name v _ =>
    split
    · exact List.nil_sublist _
    · rename_i hrefused
      rw [if_neg fun haccepted => hrefused (hwithin name haccepted)]
  | append _ _ ih ih' => exact ih.append ih'

/-- One violation under a condition is the same to both. -/
theorem ite {c : Prop} [Decidable c] (v : Violation) :
    SameButNames p q (if c then [v] else []) (if c then [v] else []) := by
  split
  · exact found v
  · exact nil

/-- Lists put together are the same but for names if each pair is. -/
theorem flatMap {α : Type} {f g : α → List Violation} (as : List α)
    (h : ∀ a, SameButNames p q (f a) (g a)) : SameButNames p q (as.flatMap f) (as.flatMap g) := by
  induction as with
  | nil => exact nil
  | cons a as ih =>
    rw [List.flatMap_cons, List.flatMap_cons]
    exact append (h a) ih

end SameButNames

section

variable (p q : Naming)

/-- Of a parameter two policies report the same but for names. -/
theorem sameButNames_parameterViolations (owner : String) (typed : Bool) (n : Node) :
    SameButNames p q (parameterViolations p owner typed n)
      (parameterViolations q owner typed n) := by
  unfold parameterViolations
  rcases parameterName n with _ | ⟨m, hasType⟩
  · exact .nil
  · dsimp only
    split
    · exact .nil
    · exact .append (.ite _) (.name _ _ rfl)

theorem sameButNames_parametersViolations (owner : String) (typed : Bool)
    (parameters : Option Node) :
    SameButNames p q (parametersViolations p owner typed parameters)
      (parametersViolations q owner typed parameters) := by
  cases parameters with
  | none => exact .nil
  | some ps => exact .flatMap _ (sameButNames_parameterViolations p q owner typed)

theorem sameButNames_functionViolations (n : Node) :
    SameButNames p q (functionViolations p n) (functionViolations q n) := by
  unfold functionViolations
  rcases n.part? .name with _ | m
  · exact .nil
  · have hname : SameButNames p q
        (if p.isDescriptive m.text then []
          else [⟨.nonDescriptiveName, m.start, s!"function name `{m.text}` is not descriptive"⟩])
        (if q.isDescriptive m.text then []
          else [⟨.nonDescriptiveName, m.start, s!"function name `{m.text}` is not descriptive"⟩]) :=
      .name _ _ rfl
    exact (hname.append (sameButNames_parametersViolations p q _ _ _)).append (.ite _) |>.append
      (.ite _)

/-- Of each name that a target binds there is one violation or none. -/
theorem targetViolations_eq_flatMap (naming : Naming) (t : Node) :
    targetViolations naming (some t) = (boundNames t).flatMap fun m =>
      if naming.isDescriptive m.text then [] else [variableViolation m] := by
  rw [targetViolations]
  induction boundNames t with
  | nil => rfl
  | cons m ms ih =>
    rw [List.filterMap_cons, List.flatMap_cons, ← ih]
    by_cases haccepted : naming.isDescriptive m.text = true
    · rw [if_pos haccepted, if_pos haccepted]
      rfl
    · rw [if_neg haccepted, if_neg haccepted]
      rfl

theorem sameButNames_targetViolations (target : Option Node) :
    SameButNames p q (targetViolations p target) (targetViolations q target) := by
  cases target with
  | none => exact .nil
  | some t =>
    rw [targetViolations_eq_flatMap, targetViolations_eq_flatMap]
    exact .flatMap _ fun m => .name m.text (variableViolation m) rfl

theorem sameButNames_nodeViolations (n : Node) :
    SameButNames p q (nodeViolations p n) (nodeViolations q n) := by
  unfold nodeViolations
  split
  case h_1 => exact sameButNames_functionViolations p q n
  case h_9 => exact sameButNames_parametersViolations p q _ _ _
  case h_10 => exact .nil
  all_goals exact sameButNames_targetViolations p q _

/-! ## Two policies at a source -/

variable {p q}

/-- Besides names two policies report the same of a tree. -/
theorem besidesNames_treeViolations (tree : Node) :
    besidesNames (treeViolations p tree) = besidesNames (treeViolations q tree) := by
  have hfound : SameButNames p q ((Node.walk [tree]).flatMap (nodeViolations p))
      ((Node.walk [tree]).flatMap (nodeViolations q)) :=
    .flatMap _ (sameButNames_nodeViolations p q)
  rw [besidesNames, besidesNames, treeViolations, treeViolations, ← Violation.sorted_filter,
    ← Violation.sorted_filter]
  exact congrArg Violation.sorted hfound.besidesNames_eq

/-- The more lenient policy reports a part of what the other does. -/
theorem sublist_treeViolations (h : p.Within q) (tree : Node) :
    (treeViolations q tree).Sublist (treeViolations p tree) := by
  have hfound : SameButNames p q ((Node.walk [tree]).flatMap (nodeViolations p))
      ((Node.walk [tree]).flatMap (nodeViolations q)) :=
    .flatMap _ (sameButNames_nodeViolations p q)
  exact Violation.sublist_sorted (hfound.sublist h)

/-- Where a source has an analysis under the more lenient policy it has one under the other, that
reports no less. -/
theorem exists_analyzeBy_sublist (h : p.Within q) {trees : String → Option Node} {source : String}
    {ws : List Violation} (hws : analyzeBy trees q source = .ok ws) :
    ∃ vs, analyzeBy trees p source = .ok vs ∧ ws.Sublist vs := by
  unfold analyzeBy at hws ⊢
  split at hws
  · cases hws
  · cases hws
    exact ⟨_, rfl, sublist_treeViolations h _⟩

end

/-! ## Two policies at a pull request -/

/-- There are tests for the one report if there are for the other, and no rule was found broken that
the first does not name. -/
structure Report.Covers (r r' : Report) : Prop where
  tests : r'.hasTestFile = r.hasTestFile
  rules : r'.rules ⊆ r.rules

/-- A report still covers another after both have recorded a file, each under its policy. -/
theorem Report.Covers.record {p q : Naming} (hwithin : p.Within q) (trees : String → Option Node)
    {r r' : Report} (h : r.Covers r') (path text : String) :
    (r.record path (analyzeBy trees p text)).Covers (r'.record path (analyzeBy trees q text)) := by
  constructor
  · have hkept (report : Report) (result : Except AnalysisError (List Violation)) :
        (report.record path result).hasTestFile = report.hasTestFile := by cases result <;> rfl
    rw [hkept, hkept, h.tests]
  · intro rule hrule
    rw [mem_rules_record] at hrule ⊢
    rcases hrule with hrule | ⟨ws, hws, hrule⟩
    · left
      exact h.rules hrule
    · right
      obtain ⟨vs, hvs, hsub⟩ := exists_analyzeBy_sublist hwithin hws
      exact ⟨vs, hvs, (hsub.map _).subset hrule⟩

/-- A report requires all that those require which it covers. -/
theorem Report.Covers.requirements {r r' : Report} (h : r.Covers r') {l : Label}
    (hl : r'.requirements.has l = true) : r.requirements.has l = true := by
  rw [requirements_has_iff] at hl ⊢
  obtain ⟨rule, hrule, hcounts, hlabel⟩ := hl
  rw [h.tests] at hcounts
  exact ⟨rule, h.rules hrule, hcounts, hlabel⟩

end Compliance

namespace Gate

open PullGate.Compliance (Naming analyzeBy)

/-- Two runs end in the same way, but that the second may require less. -/
inductive RequiresLess : Except Failure Outcome → Except Failure Outcome → Prop
  | same (result : Except Failure Outcome) : RequiresLess result result
  | completed {ls ks : LabelSet} (h : ∀ l, ks.has l = true → ls.has l = true) :
      RequiresLess (.ok (.completed ls)) (.ok (.completed ks))

/-- Under the more lenient policy the gate requires no more, and judges otherwise alike. -/
theorem requiresLess_run {p q : Naming} (hwithin : p.Within q) (trees : String → Option Node)
    (policy : Policy) (event : PullRequestEvent) (files : List FileChange)
    (replies : Effect → Response) :
    RequiresLess
      (((judge (analyzeBy trees p) policy event).value (listing files replies)).map Verdict.outcome)
      (((judge (analyzeBy trees q) policy event).value (listing files replies)).map
        Verdict.outcome) := by
  refine value_judge_rel (R := fun a b => RequiresLess (a.map Verdict.outcome) (b.map Verdict.outcome))
    (fun a => .same _) (fun _ => rfl) ?_
  rw [value_judgeFiles, value_judgeFiles]
  split
  · exact .same _
  -- the reports of both runs begin alike, and what is recorded keeps one covering the other
  · have hstart : (Compliance.Report.empty (Compliance.hasTestFile policy files)).Covers
        (.empty (Compliance.hasTestFile policy files)) := ⟨rfl, List.Subset.refl _⟩
    simp only [← Program.result_traceBy]
    obtain ⟨es, ⟨failure, hp, hq⟩ | ⟨r, r', hp, hq, hcovers⟩⟩ :=
      traceBy_analyzeFiles_rel (analyzeBy trees p) (analyzeBy trees q) event (listing files replies)
        (R := Compliance.Report.Covers) (fun r r' path text h => h.record hwithin trees path text)
        (Compliance.sources policy files) hstart
    · rw [hp, hq]
      exact .same _
    · rw [hp, hq]
      exact .completed fun l => hcovers.requirements

end Gate

namespace Compliance

/-- **Lenient naming.** Under two naming policies a source is a program for both or for neither, and
what is found in it besides names is the same, in the same order. Who allows more names and refuses
fewer accepts more. And where one policy accepts all that another does, its list of violations is a
part of the other's, in the same order; and every run of the gate ends under it as under the other, but
that fewer labels may be required. The analysis of Python sources is one of these. -/
theorem analyze_lenient (trees : String → Option Node) (p q : Naming) :
    (∀ source, (∀ e, analyzeBy trees p source = .error e ↔ analyzeBy trees q source = .error e) ∧
      (analyzeBy trees p source).map besidesNames = (analyzeBy trees q source).map besidesNames) ∧
    (p.allowed ⊆ q.allowed → q.refused ⊆ p.refused → p.Within q) ∧
    (p.Within q →
      (∀ source vs, analyzeBy trees p source = .ok vs →
        ∃ ws, analyzeBy trees q source = .ok ws ∧ ws.Sublist vs) ∧
      ∀ {σ τ : Type} (policy : Policy) (event : PullRequestEvent) (files : List FileChange)
        (replies : Effect → Response) (host : Host σ) (host' : Host τ) (s : σ) (t : τ),
        host.Serves (listing files replies) → host'.Serves (listing files replies) →
        Gate.RequiresLess
          ((Gate.run (analyzeBy trees p) (policy.withNaming p) event).run host s).1.result
          ((Gate.run (analyzeBy trees q) (policy.withNaming q) event).run host' t).1.result) ∧
    ∀ naming, analyze naming = analyzeBy Python.parse naming := by
  refine ⟨fun source => ?_, Naming.within_of_lists, fun hwithin => ⟨?_, ?_⟩, analyze_eq_analyzeBy⟩
  · unfold analyzeBy
    rcases trees source with _ | tree
    · exact ⟨fun e => Iff.rfl, rfl⟩
    · refine ⟨fun e => ⟨nofun, nofun⟩, ?_⟩
      exact congrArg Except.ok (besidesNames_treeViolations tree)
  · intro source vs hvs
    unfold analyzeBy at hvs ⊢
    rcases htree : trees source with _ | tree
    · rw [htree] at hvs
      cases hvs
    · rw [htree] at hvs
      cases hvs
      exact ⟨_, rfl, sublist_treeViolations hwithin tree⟩
  · intro σ τ policy event files replies host host' s t hhost hhost'
    rw [(Gate.run_of_serves (analyzeBy trees p) (policy.withNaming p) event hhost s).1,
      (Gate.run_of_serves (analyzeBy trees q) (policy.withNaming q) event hhost' t).1]
    exact Gate.requiresLess_run hwithin trees policy event files replies

/-- The tree of `def f(a): pass`. -/
def shortNamesTree : Node :=
  .mk .program ⟨1, 1⟩ "" [(none, .mk .functionDefinition ⟨1, 1⟩ "" [
    (some .name, .mk .identifier ⟨1, 5⟩ "f" []),
    (some .parameters, .mk .parameters ⟨1, 6⟩ "" [(none, .mk .identifier ⟨1, 7⟩ "a" [])]),
    (some .body, .mk .block ⟨1, 11⟩ "" [(none, .mk .passStatement ⟨1, 11⟩ "" [])])])]

/-- A policy that allows the name of the function passes over it and over nothing else. -/
theorem analyze_lenient_function_name :
    let p := Naming.ofPolicy .standard
    let q : Naming := ⟨"f" :: p.allowed, p.refused⟩
    let trees := fun _ : String => some shortNamesTree
    let source := "def f(a): pass"
    let v : Violation := ⟨.nonDescriptiveName, ⟨1, 5⟩, "function name `f` is not descriptive"⟩
    let host := Host.steady (listing [⟨"sum.py", "", .added⟩] fun
      | .getFileContent _ _ => .fileContent source
      | e => Host.plainReply [] e)
    let result := fun naming : Naming =>
      ((Gate.run (analyzeBy trees naming) (Policy.standard.withNaming naming)
        (.byOwner .opened none ∅)).run host ()).1.result
    p.Within q ∧
    (∃ vs ws, analyzeBy trees p source = .ok vs ∧ analyzeBy trees q source = .ok ws ∧
      ws.Sublist vs ∧ v ∈ vs ∧ v ∉ ws ∧ besidesNames vs = besidesNames ws) ∧
    Gate.RequiresLess (result p) (result q) := by
  intro p q trees source v host result
  obtain ⟨hall, hlists, hmore, -⟩ := analyze_lenient trees p q
  have hwithin : p.Within q := hlists (List.subset_cons_self "f" p.allowed) (List.Subset.refl _)
  obtain ⟨hsources, hruns⟩ := hmore hwithin
  obtain ⟨ws, hws, hsub⟩ := hsources source _ rfl
  refine ⟨hwithin, ⟨_, ws, rfl, hws, hsub, ?_, ?_, ?_⟩,
    hruns .standard _ _ _ host host () () (Host.serves_steady _) (Host.serves_steady _)⟩
  · rw [mem_treeViolations_iff]
    decide +kernel
  · cases hws
    rw [mem_treeViolations_iff]
    decide +kernel
  · have hbesides := (hall source).2
    rw [hws] at hbesides
    exact Except.ok.inj hbesides

end Compliance

end PullGate
