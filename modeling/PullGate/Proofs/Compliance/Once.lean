import Mathlib.Data.List.Flatten
import Mathlib.Data.List.Pairwise
import PullGate.Proofs.Compliance.Aliases
import PullGate.Proofs.Python.Names
/-!
# Nothing is reported twice

What is reported of a node is reported at names, and a name is reached from the node through nodes that
report nothing (`Reaches`). So no node in between reports this name again, and names that are reached
otherwise begin elsewhere, since in the tree of a source names begin at different places and stand where
the grammar has them. `analyze_reports_once` says that the list of violations is strictly increasing.

The proof goes down the tree: what a node reports differs from what is reported below it, and what is
reported below one child from what is reported below the next.
-/

namespace PullGate

open PullGate.Python (Kind Node Role)

/-! ## Names of a tree -/

namespace Python.Node

/-- The names of a tree begin at different places if the root's does, the names below each child do, and
those below different children do. -/
theorem namesApart_iff {n : Node} : n.NamesApart ↔
    (∀ c ∈ n.children, ∀ m ∈ c.preorder, n.IsName → m.IsName → n.start ≠ m.start) ∧
      (∀ c ∈ n.children, c.NamesApart) ∧
      n.children.Pairwise fun c d => ∀ m ∈ c.preorder, ∀ m' ∈ d.preorder,
        m.IsName → m'.IsName → m.start ≠ m'.start := by
  rw [NamesApart, preorder_eq, List.pairwise_cons, List.pairwise_flatMap]
  simp only [List.mem_flatMap, forall_exists_index, and_imp]
  exact and_congr_left' ⟨fun h c hc m hm => h m c hc hm, fun h m c hc hm => h c hc m hm⟩

/-- Names below different children begin at different places. -/
theorem NamesApart.start_ne {n c d m m' : Node} (h : n.NamesApart) (hc : c ∈ n.children)
    (hd : d ∈ n.children) (hne : c ≠ d) (hm : m ∈ c.preorder) (hm' : m' ∈ d.preorder)
    (hname : m.IsName) (hname' : m'.IsName) : m.start ≠ m'.start := by
  have hsymm : Std.Symm fun c d : Node => ∀ m ∈ c.preorder, ∀ m' ∈ d.preorder,
      m.IsName → m'.IsName → m.start ≠ m'.start :=
    ⟨fun _ _ h m hm m' hm' hname hname' => (h m' hm' m hm hname' hname).symm⟩
  exact (namesApart_iff.1 h).2.2.forall hc hd hne m hm m' hm' hname hname'

theorem Formed.shaped {n : Node} (h : n.Formed) : n.Shaped := (formed_iff.1 h).1

theorem Formed.child {n c : Node} (h : n.Formed) (hc : c ∈ n.children) : c.Formed := (formed_iff.1 h).2 c hc

/-- A part with a role is a child. -/
theorem mem_children_of_part? {n c : Node} {r : Role} (h : n.part? r = some c) : c ∈ n.children := by
  obtain ⟨p, hp, rfl⟩ := Option.map_eq_some_iff.1 h
  exact List.mem_map_of_mem (List.mem_of_find?_eq_some hp)

/-- A child has fewer nodes. -/
theorem size_lt_of_mem_children {n c : Node} (h : c ∈ n.children) : c.size < n.size := by
  rw [size_eq n]
  obtain ⟨before, after, hsplit⟩ := List.append_of_mem h
  rw [hsplit, sizeAll_append, sizeAll]
  omega

/-- What holds of a node if it holds of its children holds of all nodes. -/
theorem induct {P : Node → Prop} (h : ∀ n, (∀ c ∈ n.children, P c) → P n) (n : Node) : P n :=
  h n fun c _ => induct h c
termination_by n.size
decreasing_by exact size_lt_of_mem_children ‹_›

end Python.Node

namespace Compliance

variable (naming : Naming)

/-! ## Names that are reached -/

/-- The kinds of nodes of which something can be reported. -/
def reportingKinds : List Kind := [.functionDefinition, .assignment, .augmentedAssignment, .forStatement,
  .forInClause, .namedExpression, .asPattern, .exceptClause, .lambda]

/-- Of a node of another kind nothing is reported. -/
theorem nodeViolations_eq_nil {n : Node} (h : n.kind ∉ reportingKinds) :
    nodeViolations naming n = [] := by
  unfold nodeViolations
  split
  case h_10 => rfl
  all_goals
    rename_i hkind
    exact absurd (hkind ▸ by decide) h

/-- A name is reached from a node through nodes of which nothing is reported. -/
inductive Reaches (m : Node) : Node → Prop
  | name (h : m.IsName) : Reaches m m
  | child {c t : Node} (kind : t.kind ∉ reportingKinds) (child : c ∈ t.children) (h : Reaches m c) :
      Reaches m t

variable {m t : Node}

/-- What is reached is a name. -/
theorem Reaches.isName (h : Reaches m t) : m.IsName := by
  induction h with
  | name h => exact h
  | child _ _ _ ih => exact ih

/-- What is reached stands in the tree. -/
theorem Reaches.mem_preorder (h : Reaches m t) : m ∈ t.preorder := by
  induction h with
  | name =>
    rw [Node.preorder_eq]
    exact List.mem_cons_self
  | child _ child _ ih =>
    rw [Node.preorder_eq]
    exact List.mem_cons_of_mem _ (List.mem_flatMap_of_mem child ih)

/-- A name that a target binds is reached from it. -/
theorem Binds.reaches (h : Binds m t) : Reaches m t := by
  induction h with
  | name kind => exact .name (.inl kind)
  | part kind child _ ih =>
    have hsilent : ∀ k ∈ compoundTargets, k ∉ reportingKinds := by decide
    exact .child (hsilent _ kind) child ih

theorem reaches_of_child {p : Node} (kind : p.kind ∉ reportingKinds) (h : m ∈ p.children)
    (hname : m.IsName) : Reaches m p := .child kind h (.name hname)

/-- The identifier behind stars is reached. -/
theorem reaches_of_find? {p : Node} (kind : p.kind ∉ reportingKinds)
    (h : p.children.find? (fun c => c.kind = .identifier) = some m) : Reaches m p := by
  have hkind := List.find?_some h
  exact reaches_of_child kind (List.mem_of_find?_eq_some h) (.inl (of_decide_eq_true hkind))

/-- The name of a parameter without a type is reached. -/
theorem Untyped.reaches {p : Node} (hp : p.Shaped) (h : Untyped p m) : Reaches m p := by
  cases h with
  | plain kind => exact .name (.inl kind)
  | withDefault kind name =>
    exact reaches_of_child (by rw [kind]; decide) (Node.mem_children_of_part? name)
      (hp.withDefault kind m name)
  | starred kind name =>
    have hkind : p.kind ∉ reportingKinds := by rcases kind with kind | kind <;> rw [kind] <;> decide
    exact reaches_of_find? hkind name

theorem Typed.reaches {p : Node} (hp : p.Shaped) (h : Typed p m) : Reaches m p := by
  cases h with
  | plain kind first name =>
    exact reaches_of_child (by rw [kind]; decide) (List.mem_of_mem_head? first) (.inl name)
  | withDefault kind name =>
    exact reaches_of_child (by rw [kind]; decide) (Node.mem_children_of_part? name)
      (.inl (hp.typedWithDefault kind m name))
  | @starred stars _ kind first other name =>
    have hstars : stars.kind ∉ reportingKinds := by
      rcases (hp.typed kind stars first).resolve_left other with kind | kind <;> rw [kind] <;> decide
    exact .child (by rw [kind]; decide) (List.mem_of_mem_head? first) (reaches_of_find? hstars name)

/-! ## Where a node is reported -/

section

variable {naming}

/-- A parameter is reported at its name. -/
theorem exists_name_of_mem_parameterViolations {owner : String} {typed : Bool} {p : Node}
    {v : Violation} (hp : p.Shaped) (hv : v ∈ parameterViolations naming owner typed p) :
    ∃ m, Reaches m p ∧ v.location = m.start := by
  unfold parameterViolations at hv
  rcases hname : parameterName p with _ | ⟨m, hasType⟩
  · rw [hname] at hv
    cases hv
  · rw [hname] at hv
    have hreaches : Reaches m p := by
      rcases parameterName_eq_some_iff.1 hname with ⟨-, h⟩ | ⟨-, h⟩
      · exact h.reaches hp
      · exact h.reaches hp
    refine ⟨m, hreaches, ?_⟩
    dsimp only at hv
    split at hv
    · cases hv
    · rcases List.mem_append.1 hv with hv | hv <;> split at hv <;> simp_all

/-- Parameters are reported at their names. -/
theorem exists_name_of_mem_parametersViolations {owner : String} {typed : Bool} {n ps : Node}
    {v : Violation} (hn : n.Formed) (hparameters : n.kind = .functionDefinition ∨ n.kind = .lambda)
    (hps : n.part? .parameters = some ps) (hv : v ∈ parametersViolations naming owner typed (some ps)) :
    ∃ m, Reaches m ps ∧ v.location = m.start := by
  obtain ⟨p, hp, hv⟩ := List.mem_flatMap.1 hv
  have hformed : ps.Formed := hn.child (Node.mem_children_of_part? hps)
  obtain ⟨m, hm, hlocation⟩ := exists_name_of_mem_parameterViolations (hformed.child hp).shaped hv
  have hkind : ps.kind ∉ reportingKinds := by
    rcases hn.shaped.parameters hparameters ps hps with kind | kind <;> rw [kind] <;> decide
  exact ⟨m, .child hkind hp hm, hlocation⟩

/-- A target is reported at the names that it binds. -/
theorem exists_name_of_mem_targetViolations {t : Node} {v : Violation}
    (hv : v ∈ targetViolations naming (some t)) : ∃ m, Reaches m t ∧ v.location = m.start := by
  obtain ⟨m, hm, -, rfl⟩ := mem_targetViolations_iff.1 hv
  exact ⟨m, hm.reaches, rfl⟩

/-- At one place one rule has one thing to say, or nothing. -/
def AtMostOne (r : Rule) (l : Text.Location) (vs : List Violation) : Prop :=
  vs = [] ∨ ∃ message, vs = [⟨r, l, message⟩]

theorem atMostOne_if (c : Prop) [Decidable c] (r : Rule) (l : Text.Location) (message : String) :
    AtMostOne r l (if c then [⟨r, l, message⟩] else []) := by
  split
  · exact .inr ⟨message, rfl⟩
  · exact .inl rfl

theorem atMostOne_unless (c : Prop) [Decidable c] (r : Rule) (l : Text.Location) (message : String) :
    AtMostOne r l (if c then [] else [⟨r, l, message⟩]) := by
  split
  · exact .inl rfl
  · exact .inr ⟨message, rfl⟩

/-- What is said is said for this rule at this place. -/
theorem AtMostOne.of_mem {r : Rule} {l : Text.Location} {vs : List Violation} (h : AtMostOne r l vs)
    {v : Violation} (hv : v ∈ vs) : v.rule = r ∧ v.location = l := by
  rcases h with rfl | ⟨message, rfl⟩
  · cases hv
  · rw [List.mem_singleton.1 hv]
    exact ⟨rfl, rfl⟩

theorem AtMostOne.pairwise {r : Rule} {l : Text.Location} {vs : List Violation} (h : AtMostOne r l vs)
    (R : Violation → Violation → Prop) : vs.Pairwise R := by
  rcases h with rfl | ⟨message, rfl⟩
  · exact .nil
  · exact List.pairwise_singleton R _

/-- Of a function three rules may each say something at its name, and the others are of its
parameters. -/
theorem functionViolations_parts {n m : Node} (hname : n.part? .name = some m) :
    ∃ owner named annotated shown, functionViolations naming n =
        named ++ parametersViolations naming owner true (n.part? .parameters) ++ annotated ++ shown ∧
      AtMostOne .nonDescriptiveName m.start named ∧ AtMostOne .missingAnnotations m.start annotated ∧
      AtMostOne .missingExample m.start shown := by
  rw [functionViolations, hname]
  exact ⟨_, _, _, _, rfl, atMostOne_unless _ _ _ _, atMostOne_if _ _ _ _, atMostOne_if _ _ _ _⟩

/-- What is reported of the target with a role is reported at a name that a child leads to. -/
theorem exists_child_of_mem_targetViolations {n : Node} {r : Role} {v : Violation}
    (hv : v ∈ targetViolations naming (n.part? r)) :
    ∃ c ∈ n.children, ∃ m, Reaches m c ∧ v.location = m.start := by
  rcases ht : n.part? r with _ | t
  · rw [ht] at hv
    cases hv
  · rw [ht] at hv
    exact ⟨t, Node.mem_children_of_part? ht, exists_name_of_mem_targetViolations hv⟩

/-- What is reported of parameters is reported at a name that their list leads to. -/
theorem exists_child_of_mem_parametersViolations {owner : String} {typed : Bool} {n : Node}
    {v : Violation} (hn : n.Formed) (hparameters : n.kind = .functionDefinition ∨ n.kind = .lambda)
    (hv : v ∈ parametersViolations naming owner typed (n.part? .parameters)) :
    ∃ ps, n.part? .parameters = some ps ∧ ∃ m, Reaches m ps ∧ v.location = m.start := by
  rcases hps : n.part? .parameters with _ | ps
  · rw [hps] at hv
    cases hv
  · rw [hps] at hv
    exact ⟨ps, rfl, exists_name_of_mem_parametersViolations hn hparameters hps hv⟩

/-- A function is reported at its name and those of its parameters. -/
theorem exists_name_of_mem_functionViolations {n : Node} {v : Violation} (hn : n.Formed)
    (kind : n.kind = .functionDefinition) (hv : v ∈ functionViolations naming n) :
    ∃ c ∈ n.children, ∃ m, Reaches m c ∧ v.location = m.start := by
  rcases hname : n.part? .name with _ | m
  · rw [functionViolations, hname] at hv
    cases hv
  · have hown (h : v.location = m.start) :
        ∃ c ∈ n.children, ∃ m, Reaches m c ∧ v.location = m.start :=
      ⟨m, Node.mem_children_of_part? hname, m, .name (.inl (hn.shaped.functionName kind m hname)), h⟩
    obtain ⟨owner, named, annotated, shown, heq, hnamed, hannotated, hshown⟩ :=
      @functionViolations_parts naming n m hname
    rw [heq] at hv
    simp only [List.mem_append] at hv
    rcases hv with ((hv | hv) | hv) | hv
    · exact hown (hnamed.of_mem hv).2
    · obtain ⟨ps, hps, hreached⟩ := exists_child_of_mem_parametersViolations hn (.inl kind) hv
      exact ⟨ps, Node.mem_children_of_part? hps, hreached⟩
    · exact hown (hannotated.of_mem hv).2
    · exact hown (hshown.of_mem hv).2

/-- A node is reported at names that are reached from its children. -/
theorem exists_name_of_mem_nodeViolations {n : Node} {v : Violation} (hn : n.Formed)
    (hv : v ∈ nodeViolations naming n) : ∃ c ∈ n.children, ∃ m, Reaches m c ∧ v.location = m.start := by
  unfold nodeViolations at hv
  split at hv
  case h_1 kind => exact exists_name_of_mem_functionViolations hn kind hv
  case h_9 kind =>
    obtain ⟨ps, hps, hreached⟩ := exists_child_of_mem_parametersViolations hn (.inr kind) hv
    exact ⟨ps, Node.mem_children_of_part? hps, hreached⟩
  case h_10 => cases hv
  all_goals exact exists_child_of_mem_targetViolations hv

/-- What is reported of the nodes of a tree. -/
theorem violationsWithin_eq (n : Node) : violationsWithin naming n =
    nodeViolations naming n ++ n.children.flatMap (violationsWithin naming) := by
  have hbelow : violationsWithin naming = fun c => c.preorder.flatMap (nodeViolations naming) :=
    funext fun c => (flatMap_preorder naming c).symm
  rw [← flatMap_preorder, Node.preorder_eq, List.flatMap_cons, List.flatMap_assoc, hbelow]

/-- A tree is reported at its names. -/
theorem exists_name_of_mem_violationsWithin {t : Node} {v : Violation} (ht : t.Formed)
    (hv : v ∈ violationsWithin naming t) : ∃ m ∈ t.preorder, m.IsName ∧ v.location = m.start := by
  induction t using Node.induct with
  | h t ih =>
    have hbelow {c m : Node} (hc : c ∈ t.children) (hm : m ∈ c.preorder) : m ∈ t.preorder := by
      rw [Node.preorder_eq]
      exact List.mem_cons_of_mem t (List.mem_flatMap_of_mem hc hm)
    rw [violationsWithin_eq, List.mem_append] at hv
    rcases hv with hv | hv
    · obtain ⟨c, hc, m, hm, hlocation⟩ := exists_name_of_mem_nodeViolations ht hv
      exact ⟨m, hbelow hc hm.mem_preorder, hm.isName, hlocation⟩
    · obtain ⟨c, hc, hv⟩ := List.mem_flatMap.1 hv
      obtain ⟨m, hm, hname⟩ := ih c hc (ht.child hc) hv
      exact ⟨m, hbelow hc hm, hname⟩

/-! ## Different places -/

/-- Below a node from which a name is reached, nothing is reported at this name. -/
theorem Reaches.location_ne (h : Reaches m t) (ht : t.Formed) (hapart : t.NamesApart) {w : Violation}
    (hw : w ∈ violationsWithin naming t) : w.location ≠ m.start := by
  induction h with
  | name hm =>
    have hkind : m.kind ∉ reportingKinds := by rcases hm with kind | kind <;> rw [kind] <;> decide
    rw [violationsWithin_eq, nodeViolations_eq_nil naming hkind, List.nil_append] at hw
    obtain ⟨c, hc, hw⟩ := List.mem_flatMap.1 hw
    obtain ⟨m', hm', hname, hlocation⟩ := exists_name_of_mem_violationsWithin (ht.child hc) hw
    rw [hlocation]
    exact ((Node.namesApart_iff.1 hapart).1 c hc m' hm' hm hname).symm
  | @child c t kind hc h ih =>
    rw [violationsWithin_eq, nodeViolations_eq_nil naming kind, List.nil_append] at hw
    obtain ⟨d, hd, hw⟩ := List.mem_flatMap.1 hw
    by_cases hcd : c = d
    · subst hcd
      exact ih (ht.child hc) ((Node.namesApart_iff.1 hapart).2.1 c hc) hw
    · obtain ⟨m', hm', hname, hlocation⟩ := exists_name_of_mem_violationsWithin (ht.child hd) hw
      rw [hlocation]
      exact (hapart.start_ne hc hd hcd h.mem_preorder hm' h.isName hname).symm

/-! ## Violations of one node -/

/-- Violations at different places have different keys. -/
theorem Violation.key_ne_of_location {v w : Violation} (h : v.location ≠ w.location) :
    v.key ≠ w.key := by
  obtain ⟨r, ⟨l, c⟩, _⟩ := v
  obtain ⟨r', ⟨l', c'⟩, _⟩ := w
  intro hkey
  simp only [key, EmbeddingLike.apply_eq_iff_eq, Prod.mk.injEq] at hkey
  obtain ⟨rfl, rfl, -⟩ := hkey
  exact h rfl

/-- Violations of different rules have different keys. -/
theorem Violation.key_ne_of_rule {v w : Violation} (h : v.rule ≠ w.rule) : v.key ≠ w.key := by
  obtain ⟨r, ⟨l, c⟩, _⟩ := v
  obtain ⟨r', ⟨l', c'⟩, _⟩ := w
  intro hkey
  simp only [key, EmbeddingLike.apply_eq_iff_eq, Prod.mk.injEq] at hkey
  refine h ?_
  cases r <;> cases r' <;> first | rfl | exact absurd hkey.2.2 (by decide)

/-- Of a parameter its type and its name can be reported. -/
theorem pairwise_parameterViolations (owner : String) (typed : Bool) (p : Node) :
    (parameterViolations naming owner typed p).Pairwise fun v w => v.key ≠ w.key := by
  unfold parameterViolations
  rcases parameterName p with _ | ⟨m, hasType⟩
  · exact .nil
  · dsimp only
    split
    · exact .nil
    · split <;> split
      case isTrue.isFalse => exact List.pairwise_pair.2 (Violation.key_ne_of_rule fun h => by cases h)
      all_goals simp

/-- Different parameters are reported at different places. -/
theorem pairwise_parametersViolations (owner : String) (typed : Bool) {ps : Node} (hps : ps.Formed)
    (hapart : ps.NamesApart) :
    (parametersViolations naming owner typed (some ps)).Pairwise fun v w => v.key ≠ w.key := by
  refine List.pairwise_flatMap.2 ⟨fun p _ => pairwise_parameterViolations owner typed p, ?_⟩
  refine (Node.namesApart_iff.1 hapart).2.2.imp_of_mem fun {p q} hp hq hdistinct v hv w hw => ?_
  obtain ⟨m, hm, hv⟩ := exists_name_of_mem_parameterViolations (hps.child hp).shaped hv
  obtain ⟨m', hm', hw⟩ := exists_name_of_mem_parameterViolations (hps.child hq).shaped hw
  refine Violation.key_ne_of_location ?_
  rw [hv, hw]
  exact hdistinct m hm.mem_preorder m' hm'.mem_preorder hm.isName hm'.isName

/-- The names that a target binds are listed in the order of the text. -/
theorem sublist_boundNames (t : Node) : (boundNames t).Sublist t.preorder := by
  induction t using Node.induct with
  | h t ih =>
    by_cases hcompound : t.kind ∈ compoundTargets
    · rw [boundNames_of_compound hcompound, Node.preorder_eq]
      exact (List.Sublist.flatMap_right t.children ih).cons t
    · obtain ⟨k, l, s, cs⟩ := t
      have hkind : k ∉ compoundTargets := hcompound
      rw [boundNames.eq_def, Node.preorder_eq]
      dsimp only
      split
      case h_1 => exact (List.nil_sublist _).cons_cons _
      case h_10 => exact List.nil_sublist _
      all_goals exact absurd (by decide) hkind

/-- A target is reported once for each name. -/
theorem pairwise_targetViolations {t : Node} (hapart : t.NamesApart) :
    (targetViolations naming (some t)).Pairwise fun v w => v.key ≠ w.key := by
  refine List.pairwise_filterMap.2 ?_
  refine (hapart.sublist (sublist_boundNames t)).imp_of_mem fun {m m'} hm hm' hdistinct v hv w hw => ?_
  have hname := (mem_boundNames_iff.1 hm).reaches.isName
  have hname' := (mem_boundNames_iff.1 hm').reaches.isName
  split at hv
  · cases hv
  · split at hw
    · cases hw
    · cases hv
      cases hw
      exact Violation.key_ne_of_location (hdistinct hname hname')

/-- No parameter of a function is reported at the function's name. -/
theorem location_ne_of_mem_parametersViolations {owner : String} {typed : Bool} {n m : Node}
    {v : Violation} (kind : n.kind = .functionDefinition) (hn : n.Formed) (hapart : n.NamesApart)
    (hname : n.part? .name = some m)
    (hv : v ∈ parametersViolations naming owner typed (n.part? .parameters)) : v.location ≠ m.start := by
  have hm : m.kind = .identifier := hn.shaped.functionName kind m hname
  obtain ⟨ps, hps, m', hm', hlocation⟩ := exists_child_of_mem_parametersViolations hn (.inl kind) hv
  have hne : ps ≠ m := by
    rintro rfl
    rcases hn.shaped.parameters (.inl kind) ps hps with h | h <;> rw [hm] at h <;> cases h
  have hself : m ∈ m.preorder := (Reaches.name (.inl hm)).mem_preorder
  rw [hlocation]
  exact hapart.start_ne (Node.mem_children_of_part? hps) (Node.mem_children_of_part? hname) hne
    hm'.mem_preorder hself hm'.isName (.inl hm)

theorem AtMostOne.key_ne {r r' : Rule} {l l' : Text.Location} {vs ws : List Violation}
    (hv : AtMostOne r l vs) (hw : AtMostOne r' l' ws) (hne : r ≠ r') :
    ∀ v ∈ vs, ∀ w ∈ ws, v.key ≠ w.key := by
  intro v hv' w hw'
  refine Violation.key_ne_of_rule ?_
  rwa [(hv.of_mem hv').1, (hw.of_mem hw').1]

/-- What is reported of a function itself, by three rules, and of its parameters. -/
theorem pairwise_functionViolations {n : Node} (kind : n.kind = .functionDefinition) (hn : n.Formed)
    (hapart : n.NamesApart)
    (hparameters : ∀ owner typed, (parametersViolations naming owner typed
      (n.part? .parameters)).Pairwise fun v w => v.key ≠ w.key) :
    (functionViolations naming n).Pairwise fun v w => v.key ≠ w.key := by
  rcases hname : n.part? .name with _ | m
  · rw [functionViolations, hname]
    exact .nil
  · obtain ⟨owner, named, annotated, shown, heq, hnamed, hannotated, hshown⟩ :=
      @functionViolations_parts naming n m hname
    -- at the name the rules differ, and the parameters stand elsewhere
    have helsewhere {r : Rule} {vs : List Violation} (hvs : AtMostOne r m.start vs) :
        ∀ v ∈ vs, ∀ w ∈ parametersViolations naming owner true (n.part? .parameters),
          v.key ≠ w.key := by
      intro v hv w hw
      refine Violation.key_ne_of_location ?_
      rw [(hvs.of_mem hv).2]
      exact (location_ne_of_mem_parametersViolations kind hn hapart hname hw).symm
    rw [heq]
    simp only [List.pairwise_append, List.mem_append]
    refine ⟨⟨⟨hnamed.pairwise _, hparameters _ _, helsewhere hnamed⟩, hannotated.pairwise _, ?_⟩,
      hshown.pairwise _, ?_⟩
    · rintro v (hv | hv) w hw
      · exact hnamed.key_ne hannotated (by decide) v hv w hw
      · exact (helsewhere hannotated w hw v hv).symm
    · rintro v ((hv | hv) | hv) w hw
      · exact hnamed.key_ne hshown (by decide) v hv w hw
      · exact (helsewhere hshown w hw v hv).symm
      · exact hannotated.key_ne hshown (by decide) v hv w hw

/-- Nothing is reported twice of a node. -/
theorem pairwise_nodeViolations {n : Node} (hn : n.Formed) (hapart : n.NamesApart) :
    (nodeViolations naming n).Pairwise fun v w => v.key ≠ w.key := by
  have hchild {r : Role} {c : Node} (hc : n.part? r = some c) : c.NamesApart :=
    (Node.namesApart_iff.1 hapart).2.1 c (Node.mem_children_of_part? hc)
  -- what is reported of a part is reported of one child alone
  have htarget (r : Role) :
      (targetViolations naming (n.part? r)).Pairwise fun v w => v.key ≠ w.key := by
    rcases ht : n.part? r with _ | t
    · exact .nil
    · exact pairwise_targetViolations (hchild ht)
  have hparameters (owner : String) (typed : Bool) :
      (parametersViolations naming owner typed (n.part? .parameters)).Pairwise
        fun v w => v.key ≠ w.key := by
    rcases hps : n.part? .parameters with _ | ps
    · exact .nil
    · exact pairwise_parametersViolations owner typed
        (hn.child (Node.mem_children_of_part? hps)) (hchild hps)
  unfold nodeViolations
  split
  case h_1 kind => exact pairwise_functionViolations kind hn hapart hparameters
  case h_9 => exact hparameters _ _
  case h_10 => exact .nil
  all_goals exact htarget _

/-- Nothing is reported twice of a tree. -/
theorem pairwise_violationsWithin {t : Node} (ht : t.Formed) (hapart : t.NamesApart) :
    (violationsWithin naming t).Pairwise fun v w => v.key ≠ w.key := by
  induction t using Node.induct with
  | h t ih =>
    obtain ⟨-, hchildren, hbetween⟩ := Node.namesApart_iff.1 hapart
    rw [violationsWithin_eq]
    refine List.pairwise_append.2 ⟨pairwise_nodeViolations ht hapart, ?_, ?_⟩
    · refine List.pairwise_flatMap.2 ⟨fun c hc => ih c hc (ht.child hc) (hchildren c hc), ?_⟩
      refine hbetween.imp_of_mem fun {c d} hc hd hdistinct v hv w hw => ?_
      obtain ⟨m, hm, hname, hv⟩ := exists_name_of_mem_violationsWithin (ht.child hc) hv
      obtain ⟨m', hm', hname', hw⟩ := exists_name_of_mem_violationsWithin (ht.child hd) hw
      refine Violation.key_ne_of_location ?_
      rw [hv, hw]
      exact hdistinct m hm m' hm' hname hname'
    · intro v hv w hw
      obtain ⟨c, hc, m, hm, hv⟩ := exists_name_of_mem_nodeViolations ht hv
      obtain ⟨d, hd, hw⟩ := List.mem_flatMap.1 hw
      refine Violation.key_ne_of_location ?_
      rw [hv]
      -- the name is reached from the child below which the other stands, or from another child
      by_cases hcd : c = d
      · subst hcd
        exact (hm.location_ne (ht.child hc) (hchildren c hc) hw).symm
      · obtain ⟨m', hm', hname, hw⟩ := exists_name_of_mem_violationsWithin (ht.child hd) hw
        rw [hw]
        exact hapart.start_ne hc hd hcd hm.mem_preorder hm' hm.isName hname

end

/-! ## The list of violations -/

/-- The list is in strict order: nothing has the place and the rule of something else. -/
theorem pairwise_treeViolations {tree : Node} (htree : tree.Formed) (hapart : tree.NamesApart) :
    (treeViolations naming tree).Pairwise fun v w => v.key < w.key := by
  have hsymm : ∀ {v w : Violation}, v.key ≠ w.key → w.key ≠ v.key := Ne.symm
  have hdistinct : (treeViolations naming tree).Pairwise fun v w => v.key ≠ w.key := by
    refine (Violation.perm_sorted _).symm.pairwise ?_ hsymm
    rw [walk_singleton, flatMap_preorder]
    exact pairwise_violationsWithin htree hapart
  have hsorted := Violation.pairwise_sorted ((Node.walk [tree]).flatMap (nodeViolations naming))
  exact (hsorted.and hdistinct).imp fun h => lt_of_le_of_ne h.1 h.2

/-- **Nothing is reported twice.** Under every naming policy, a source is not analysed if it has no tree.
If it has one, its names begin at different places, and the list of its violations is strictly
increasing: no place comes with the same rule again, however functions, lambdas, targets and clauses stand
in one another. And the list is so for every tree in which names begin at different places and stand where
the grammar has them. -/
theorem analyze_reports_once (naming : Naming) :
    (∀ tree : Node, tree.Formed → tree.NamesApart →
      (treeViolations naming tree).Pairwise fun v w => v.key < w.key) ∧
    ∀ source : String,
      (Python.parse source = none ∧ analyze naming source = .error .notParsed) ∨
      ∃ tree vs, Python.parse source = some tree ∧ tree.NamesApart ∧ analyze naming source = .ok vs ∧
        vs.Pairwise fun v w => v.key < w.key := by
  refine ⟨fun tree htree hapart => pairwise_treeViolations naming htree hapart, fun source => ?_⟩
  unfold analyze
  rcases hparse : Python.parse source with _ | tree
  · exact .inl ⟨rfl, rfl⟩
  · have hformed : tree.Formed := Python.formed_of_parse hparse
    have hapart : tree.NamesApart := Python.namesApart_of_parse hparse
    exact .inr ⟨tree, _, rfl, hapart, rfl, pairwise_treeViolations naming hformed hapart⟩

/-- The tree of `def f(a, b=lambda c: c): d = e = a`: a lambda in the default of a parameter, and an
assignment within an assignment. -/
theorem analyze_reports_once_nested :
    let name : Nat → Nat → String → Node := fun l c text => .mk .identifier ⟨l, c⟩ text []
    let tree : Node := .mk .program ⟨1, 1⟩ "" [(none, .mk .functionDefinition ⟨1, 1⟩ "" [
      (some .name, name 1 5 "f"),
      (some .parameters, .mk .parameters ⟨1, 6⟩ "" [
        (none, name 1 7 "a"),
        (none, .mk .defaultParameter ⟨1, 10⟩ "" [
          (some .name, name 1 10 "b"),
          (none, .mk .lambda ⟨1, 12⟩ "" [
            (some .parameters, .mk .lambdaParameters ⟨1, 19⟩ "" [(none, name 1 19 "c")]),
            (none, name 1 22 "c")])])]),
      (some .body, .mk .block ⟨1, 26⟩ "" [(none, .mk .expressionStatement ⟨1, 26⟩ "" [
        (none, .mk .assignment ⟨1, 26⟩ "" [
          (some .left, name 1 26 "d"),
          (none, .mk .assignment ⟨1, 30⟩ "" [
            (some .left, name 1 30 "e"),
            (none, name 1 34 "a")])])])])])]
    tree.Formed ∧ tree.NamesApart ∧ (treeViolations (.ofPolicy .standard) tree).length = 10 ∧
      (treeViolations (.ofPolicy .standard) tree).Pairwise fun v w => v.key < w.key := by
  intro name tree
  have hformed : tree.Formed := by decide +kernel
  have hapart : tree.NamesApart := by decide +kernel
  refine ⟨hformed, hapart, ?_, (analyze_reports_once (.ofPolicy .standard)).1 tree hformed hapart⟩
  have hcount : (tree.preorder.flatMap (nodeViolations (.ofPolicy .standard))).length = 10 := by
    decide +kernel
  rw [treeViolations, (Violation.perm_sorted _).length_eq, walk_singleton, hcount]

end Compliance

end PullGate
