import PullGate.Proofs.Compliance.Demands
/-!
# Names behind `as`

A clause of a `with` or an `except` statement and a pattern of a `case` can bind names behind `as`.
They do not look alike in the tree. Of a `with` clause, and mostly of an `except` clause, what is bound
is a part with a role of its own and is wrapped once more; of an `except` clause it can also be a bare
part; and of a `case` it is a child like others. `aliases_checked` says which of these names are looked
at: all that no star leads to, but those of a `case` never. `aliases_passed_over` shows the rest.
-/

namespace PullGate.Compliance

open PullGate.Python (Kind Node Role)

/-! ## Forms of clauses -/

/-- The parts of a node without the comments that stand between them. -/
def uncommented (n : Node) : List (Option Role × Node) :=
  n.parts.filter fun p => !(p.1.isNone && p.2.kind = .comment)

/-- A `with` or an `except` clause binds a target. -/
inductive BindsAlias (n target : Node) : Prop
  /-- Behind an expression and `as`: `with E as target` and `except E as target`. -/
  | wrapped {value wrapper : Node} (kind : n.kind = .asPattern)
      (parts : uncommented n = [(none, value), (some .alias, wrapper)])
      (wrapperKind : wrapper.kind = .asPatternTarget) (inner : uncommented wrapper = [(none, target)])
  /-- Within the clause itself: `except E, target`. -/
  | bare {value : Node} {rest : List (Option Role × Node)} (kind : n.kind = .exceptClause)
      (parts : uncommented n = (none, value) :: (some .alias, target) :: rest)

/-- A pattern of a `case` binds a name: `case P as name`. -/
structure BindsCase (n name : Node) : Prop where
  kind : n.kind = .asPattern
  parts : ∃ pattern, pattern.kind = .casePattern ∧ uncommented n = [(none, pattern), (none, name)]
  isName : name.kind = .identifier

/-- A part with a role is found among the parts that are no comments. -/
theorem part?_eq_uncommented (n : Node) (role : Role) :
    n.part? role = ((uncommented n).find? fun p => p.1 = some role).map (·.2) := by
  have hfilter : n.parts.find? (fun p => p.1 = some role) =
      (uncommented n).find? fun p => p.1 = some role := by
    rw [uncommented, List.find?_filter]
    refine congrArg (List.find? · n.parts) (funext fun p => ?_)
    rcases p with ⟨_ | r, c⟩ <;> simp
  rw [Node.part?, hfilter]

/-- What stands beside the comments is a child. -/
theorem mem_children_of_uncommented {n c : Node} {role : Option Role}
    (h : (role, c) ∈ uncommented n) : c ∈ n.children :=
  List.mem_map_of_mem (f := Prod.snd) (List.mem_filter.1 h).1

/-- A child is a comment, or stands beside the comments. -/
theorem comment_or_mem_uncommented {n c : Node} (h : c ∈ n.children) :
    c.kind = .comment ∨ ∃ role, (role, c) ∈ uncommented n := by
  obtain ⟨⟨role, c⟩, hmem, rfl⟩ := List.mem_map.1 h
  by_cases hcomment : (role.isNone && c.kind = .comment) = true
  · rw [Bool.and_eq_true, decide_eq_true_eq] at hcomment
    exact .inl hcomment.2
  · refine .inr ⟨role, List.mem_filter.2 ⟨hmem, ?_⟩⟩
    rw [Bool.not_eq_true', Bool.eq_false_iff]
    exact hcomment

/-! ## What is bound -/

/-- A target takes a name: it is the name, or one of its parts takes it. `starred` says whether a star
stands before a part on the way. -/
inductive Takes (m : Node) : Bool → Node → Prop
  | name (kind : m.kind = .identifier) : Takes m false m
  | part {starred : Bool} {c target : Node} (kind : target.kind ∈ compoundTargets)
      (child : c ∈ target.children) (h : Takes m starred c) : Takes m starred target
  | star {starred : Bool} {c target : Node} (kind : target.kind = .listSplat)
      (child : c ∈ target.children) (h : Takes m starred c) : Takes m true target

/-- The names that no star leads to are those that are collected. -/
theorem takes_false_iff {m target : Node} : Takes m false target ↔ Binds m target := by
  constructor
  · intro h
    -- the index has to be a variable for the induction
    generalize hstar : false = starred at h
    induction h with
    | name kind => exact .name kind
    | part kind child _ ih => exact .part kind child (ih hstar)
    | star => cases hstar
  · intro h
    induction h with
    | name kind => exact .name kind
    | part kind child _ ih => exact .part kind child ih

/-- A comment binds no name. -/
theorem not_binds_comment {m c : Node} (kind : c.kind = .comment) : ¬ Binds m c := by
  intro h
  cases h with
  | name hname => exact absurd (kind.symm.trans hname) (by decide)
  | part hpart => exact absurd (kind ▸ hpart) (by decide)

/-- Wrapping a target once more changes nothing. -/
theorem binds_wrapper_iff {m wrapper target : Node} (kind : wrapper.kind = .asPatternTarget)
    (inner : uncommented wrapper = [(none, target)]) : Binds m wrapper ↔ Binds m target := by
  constructor
  · intro h
    cases h with
    | name hname => exact absurd (kind.symm.trans hname) (by decide)
    | part _ child h =>
      rcases comment_or_mem_uncommented child with hcomment | ⟨role, hmem⟩
      · exact absurd h (not_binds_comment hcomment)
      · rw [inner] at hmem
        cases List.mem_singleton.1 hmem
        exact h
  · intro h
    have hchild : target ∈ wrapper.children :=
      mem_children_of_uncommented (by rw [inner]; exact List.mem_singleton_self _)
    exact .part (by rw [kind]; decide) hchild h

/-! ## What is reported -/

/-- What is said of the name of a variable that says nothing. -/
def variableViolation (m : Node) : Violation :=
  ⟨.nonDescriptiveName, m.start, s!"variable name `{m.text}` is not descriptive"⟩

variable {naming : Naming}

/-- Of a target the names are reported that it binds and that say nothing. -/
theorem mem_targetViolations_iff {target : Node} {v : Violation} :
    v ∈ targetViolations naming (some target) ↔
      ∃ m, Binds m target ∧ naming.Refuses m.text ∧ v = variableViolation m := by
  simp only [targetViolations, List.mem_filterMap, mem_boundNames_iff,
    ← Naming.isDescriptive_eq_false_iff]
  refine exists_congr fun m => and_congr_right fun _ => ?_
  cases naming.isDescriptive m.text <;> simp [variableViolation, eq_comm]

/-- The violations of a tree are those of its nodes, at any depth. -/
theorem mem_treeViolations_iff {tree : Node} {v : Violation} :
    v ∈ treeViolations naming tree ↔ v ∈ tree.preorder.flatMap (nodeViolations naming) := by
  rw [treeViolations, (Violation.perm_sorted _).mem_iff, walk_singleton]

/-- All that is reported for a clause are the names that its target takes without a star. -/
theorem mem_nodeViolations_of_bindsAlias {n target : Node} (h : BindsAlias n target) {v : Violation} :
    v ∈ nodeViolations naming n ↔
      ∃ m, Takes m false target ∧ naming.Refuses m.text ∧ v = variableViolation m := by
  simp only [takes_false_iff]
  cases h with
  | @wrapped value wrapper kind parts wrapperKind inner =>
    have hpart : n.part? .alias = some wrapper := by
      rw [part?_eq_uncommented, parts]
      rfl
    simp only [nodeViolations, kind, hpart, mem_targetViolations_iff,
      binds_wrapper_iff wrapperKind inner]
  | bare kind parts =>
    have hpart : n.part? .alias = some target := by
      rw [part?_eq_uncommented, parts]
      rfl
    simp only [nodeViolations, kind, hpart, mem_targetViolations_iff]

/-- For a pattern of a `case` nothing is reported. -/
theorem nodeViolations_of_bindsCase {n name : Node} (h : BindsCase n name) :
    nodeViolations naming n = [] := by
  obtain ⟨pattern, -, hparts⟩ := h.parts
  have hpart : n.part? .alias = none := by
    rw [part?_eq_uncommented, hparts]
    rfl
  simp only [nodeViolations, h.kind, hpart, targetViolations]

/-- **Names behind `as`.** If a source has a tree, it is analysed, and wherever in the tree a `with` or
an `except` clause binds a target, every name is reported, at its place, that the target takes without
a star before it and that says nothing. These are all that is reported for the clause: names behind
stars are not, and for a pattern of a `case` nothing is. The analysis of Python sources is one with
such trees. -/
theorem aliases_checked (trees : String → Option Node) (naming : Naming) (source : String)
    (tree : Node) (htree : trees source = some tree) :
    (∃ vs, analyzeBy trees naming source = .ok vs ∧
      ∀ n target m, n.Within tree → BindsAlias n target → Takes m false target →
        naming.Refuses m.text → variableViolation m ∈ vs) ∧
    (∀ n target, BindsAlias n target → ∀ v, v ∈ nodeViolations naming n ↔
      ∃ m, Takes m false target ∧ naming.Refuses m.text ∧ v = variableViolation m) ∧
    (∀ n name, BindsCase n name → nodeViolations naming n = []) ∧
    analyze naming = analyzeBy Python.parse naming := by
  refine ⟨⟨treeViolations naming tree, ?_, ?_⟩, fun n target h v =>
    mem_nodeViolations_of_bindsAlias h, fun n name => nodeViolations_of_bindsCase, rfl⟩
  · rw [analyzeBy, htree]
  · intro n target m hn hbinds htakes hrefused
    have hviolation : variableViolation m ∈ nodeViolations naming n :=
      (mem_nodeViolations_of_bindsAlias hbinds).2 ⟨m, htakes, hrefused, rfl⟩
    exact mem_treeViolations_iff.2 (List.mem_flatMap_of_mem (Node.mem_preorder_iff.2 hn) hviolation)

/-! ## Names that are passed over -/

/-- The target in `with open() as (a, *b):`, whose names say nothing. -/
def pairTarget : Node :=
  .mk .tuple ⟨1, 16⟩ "" [(none, .mk .identifier ⟨1, 17⟩ "a" []),
    (none, .mk .listSplat ⟨1, 20⟩ "" [(none, .mk .identifier ⟨1, 21⟩ "b" [])])]

/-- What it stands behind, with it. -/
def pairAlias : Node :=
  .mk .asPattern ⟨1, 6⟩ "" [
    (none, .mk .call ⟨1, 6⟩ "" [(none, .mk .identifier ⟨1, 6⟩ "open" []),
      (none, .mk .argumentList ⟨1, 10⟩ "" [])]),
    (some .alias, .mk .asPatternTarget ⟨1, 16⟩ "" [(none, pairTarget)])]

/-- The tree of a program with nothing but this statement. -/
def pairTree : Node :=
  .mk .program ⟨1, 1⟩ "" [(none, .mk .withStatement ⟨1, 1⟩ "" [
    (none, .mk .withClause ⟨1, 6⟩ "" [(none, .mk .withItem ⟨1, 6⟩ "" [(none, pairAlias)])]),
    (none, .mk .block ⟨1, 25⟩ "" [(none, .mk .passStatement ⟨1, 25⟩ "" [])])])]

/-- The pattern in `case int() as a:`, on the second line. -/
def caseAlias : Node :=
  .mk .asPattern ⟨2, 8⟩ "" [
    (none, .mk .casePattern ⟨2, 8⟩ "" [(none, .mk .classPattern ⟨2, 8⟩ "" [
      (none, .mk .dottedName ⟨2, 8⟩ "" [(none, .mk .identifier ⟨2, 8⟩ "int" [])])])]),
    (none, .mk .identifier ⟨2, 17⟩ "a" [])]

/-- The tree of a program that matches `q` against this pattern. -/
def caseTree : Node :=
  .mk .program ⟨1, 1⟩ "" [(none, .mk .matchStatement ⟨1, 1⟩ "" [
    (none, .mk .identifier ⟨1, 7⟩ "q" []),
    (none, .mk .block ⟨1, 9⟩ "" [(none, .mk .caseClause ⟨2, 3⟩ "" [
      (none, .mk .casePattern ⟨2, 8⟩ "" [(none, caseAlias)]),
      (none, .mk .block ⟨2, 20⟩ "" [(none, .mk .passStatement ⟨2, 20⟩ "" [])])])])])]

theorem pairAlias_within : pairAlias.Within pairTree :=
  .inChild (.head _) (.inChild (.head _) (.inChild (.head _) (.inChild (.head _) .root)))

theorem pairAlias_binds : BindsAlias pairAlias pairTarget := .wrapped rfl rfl rfl rfl

/-- The pattern stands in the tree of the `match` statement. -/
theorem caseAlias_within : caseAlias.Within caseTree :=
  .inChild (.head _) (.inChild (.tail _ (.head _)) (.inChild (.head _)
    (.inChild (.head _) (.inChild (.head _) .root))))

/-- The first name of the pair is reported. -/
theorem aliases_checked_pair :
    let a : Node := .mk .identifier ⟨1, 17⟩ "a" []
    ∃ vs, analyzeBy (fun _ => some pairTree) (.ofPolicy .standard) "with open() as (a, *b): pass" =
      .ok vs ∧ variableViolation a ∈ vs := by
  intro a
  obtain ⟨⟨vs, hvs, hall⟩, -⟩ := aliases_checked (fun _ => some pairTree) (.ofPolicy .standard)
    "with open() as (a, *b): pass" pairTree rfl
  have htakes : Takes a false pairTarget := .part (by decide) (.head _) (.name rfl)
  have hrefused : (Naming.ofPolicy .standard).Refuses a.text :=
    Naming.isDescriptive_eq_false_iff.1 (by decide +kernel)
  exact ⟨vs, hvs, hall pairAlias pairTarget a pairAlias_within pairAlias_binds htakes hrefused⟩

/-- The second one of the pair is not, and neither is the name behind the pattern. -/
theorem aliases_passed_over :
    (∃ n target m, n.Within pairTree ∧ BindsAlias n target ∧ Takes m true target ∧
      (Naming.ofPolicy .standard).Refuses m.text ∧
      ∃ vs, analyzeBy (fun _ => some pairTree) (.ofPolicy .standard) "with open() as (a, *b): pass" =
        .ok vs ∧ variableViolation m ∉ vs) ∧
    ∃ n name, n.Within caseTree ∧ BindsCase n name ∧ (Naming.ofPolicy .standard).Refuses name.text ∧
      analyzeBy (fun _ => some caseTree) (.ofPolicy .standard) "match q:\n  case int() as a: pass" =
        .ok [] := by
  have hrefused {name : String} (h : (Naming.ofPolicy .standard).isDescriptive name = false) :
      (Naming.ofPolicy .standard).Refuses name := Naming.isDescriptive_eq_false_iff.1 h
  constructor
  · -- at no node of this tree is the name behind the star reported
    let b : Node := .mk .identifier ⟨1, 21⟩ "b" []
    have hsplat : Takes b true (.mk .listSplat ⟨1, 20⟩ "" [(none, b)]) :=
      .star rfl (.head _) (.name rfl)
    have htakes : Takes b true pairTarget := .part (by decide) (.tail _ (.head _)) hsplat
    refine ⟨pairAlias, pairTarget, b, pairAlias_within, pairAlias_binds, htakes,
      hrefused (by decide +kernel), _, rfl, fun hmem => ?_⟩
    exact absurd (mem_treeViolations_iff.1 hmem) (by decide +kernel)
  · -- this tree has nothing to report at any node
    have hcase : BindsCase caseAlias (.mk .identifier ⟨2, 17⟩ "a" []) := ⟨rfl, ⟨_, rfl, rfl⟩, rfl⟩
    refine ⟨caseAlias, _, caseAlias_within, hcase, hrefused (by decide +kernel), ?_⟩
    have hnone : caseTree.preorder.flatMap (nodeViolations (.ofPolicy .standard)) = [] := by
      decide +kernel
    refine congrArg Except.ok (List.eq_nil_iff_forall_not_mem.2 fun v hmem => ?_)
    rw [mem_treeViolations_iff, hnone] at hmem
    cases hmem

end PullGate.Compliance
