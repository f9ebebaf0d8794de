import PullGate.Proofs.Compliance.Traversal
/-!
# What the nodes of a tree break

When a node breaks a rule, said of its shape: of functions without types or examples, and of names
that say nothing. `mem_rulesOf_treeViolations` says that the rules found in a tree are those that its
nodes break, at any depth.
-/

namespace PullGate

open PullGate.Python (Kind Node Role)

/-! ## Nodes at any depth -/

/-- A node is in a tree: it is the root, or in the tree of a child. -/
inductive Python.Node.Within (n : Node) : Node → Prop
  | root : Within n n
  | inChild {c tree : Node} (child : c ∈ tree.children) (h : Within n c) : Within n tree

mutual

/-- A node that is listed for a tree stands in it. -/
theorem Python.Node.within_of_mem_preorder {n : Node} : ∀ {tree : Node}, n ∈ tree.preorder → n.Within tree
  | .mk k l t cs, h => by
    rw [preorder, List.mem_cons] at h
    rcases h with rfl | h
    · exact .root
    · obtain ⟨c, hc, h⟩ := within_of_mem_preorderParts h
      exact .inChild hc h

/-- A node that is listed for parts stands in one of them. -/
theorem Python.Node.within_of_mem_preorderParts {n : Node} : ∀ {cs : List (Option Role × Node)},
    n ∈ preorderParts cs → ∃ c ∈ cs.map (·.2), n.Within c
  | (_, c) :: cs, h => by
    rw [preorderParts, List.mem_append] at h
    rcases h with h | h
    · exact ⟨c, List.mem_cons_self, within_of_mem_preorder h⟩
    · obtain ⟨d, hd, h⟩ := within_of_mem_preorderParts h
      exact ⟨d, List.mem_cons_of_mem _ hd, h⟩

end

/-- The nodes that are listed for a tree are those that stand in it. -/
theorem Python.Node.mem_preorder_iff {n tree : Node} : n ∈ tree.preorder ↔ n.Within tree := by
  refine ⟨within_of_mem_preorder, fun h => ?_⟩
  induction h with
  | root => rw [preorder_eq]; exact List.mem_cons_self
  | inChild child _ ih =>
    rw [preorder_eq]
    exact List.mem_cons_of_mem _ (List.mem_flatMap_of_mem child ih)

namespace Compliance

/-! ## Parameters -/

/-- A parameter without a type, and the node of its name. -/
inductive Untyped : Node → Node → Prop
  | plain {p : Node} (kind : p.kind = .identifier) : Untyped p p
  | withDefault {p n : Node} (kind : p.kind = .defaultParameter) (name : p.part? .name = some n) :
      Untyped p n
  /-- One star or two, before a name. -/
  | starred {p n : Node} (kind : p.kind = .listSplatPattern ∨ p.kind = .dictionarySplatPattern)
      (name : p.children.find? (fun c => c.kind = .identifier) = some n) : Untyped p n

/-- A parameter with a type, and the node of its name. -/
inductive Typed : Node → Node → Prop
  | plain {p n : Node} (kind : p.kind = .typedParameter) (first : p.children.head? = some n)
      (name : n.kind = .identifier) : Typed p n
  | withDefault {p n : Node} (kind : p.kind = .typedDefaultParameter)
      (name : p.part? .name = some n) : Typed p n
  | starred {p stars n : Node} (kind : p.kind = .typedParameter)
      (first : p.children.head? = some stars) (other : stars.kind ≠ .identifier)
      (name : stars.children.find? (fun c => c.kind = .identifier) = some n) : Typed p n

/-- A name that is found for a parameter is that of a parameter without or with a type. -/
theorem untyped_or_typed_of_parameterName {p n : Node} {hasType : Bool}
    (h : parameterName p = some (n, hasType)) :
    hasType = false ∧ Untyped p n ∨ hasType = true ∧ Typed p n := by
  unfold parameterName at h
  split at h
  case h_1 hkind =>
    cases h
    exact .inl ⟨rfl, .plain hkind⟩
  case h_2 hkind =>
    obtain ⟨m, hm, h⟩ := Option.map_eq_some_iff.1 h
    cases h
    exact .inl ⟨rfl, .withDefault hkind hm⟩
  case h_3 hkind =>
    obtain ⟨m, hm, h⟩ := Option.map_eq_some_iff.1 h
    cases h
    exact .inr ⟨rfl, .withDefault hkind hm⟩
  case h_4 hkind =>
    obtain ⟨m, hm, h⟩ := Option.map_eq_some_iff.1 h
    cases h
    obtain ⟨first, hfirst, hm⟩ := Option.bind_eq_some_iff.1 hm
    unfold starredName at hm
    split at hm
    · cases hm
      exact .inr ⟨rfl, .plain hkind hfirst ‹_›⟩
    · exact .inr ⟨rfl, .starred hkind hfirst ‹_› hm⟩
  case h_5 hkind =>
    obtain ⟨m, hm, h⟩ := Option.map_eq_some_iff.1 h
    cases h
    rw [starredName, if_neg (by simp [hkind])] at hm
    exact .inl ⟨rfl, .starred (.inl hkind) hm⟩
  case h_6 hkind =>
    obtain ⟨m, hm, h⟩ := Option.map_eq_some_iff.1 h
    cases h
    rw [starredName, if_neg (by simp [hkind])] at hm
    exact .inl ⟨rfl, .starred (.inr hkind) hm⟩
  case h_7 => cases h

/-- The name of a parameter without a type is found. -/
theorem Untyped.parameterName {p n : Node} (h : Untyped p n) : parameterName p = some (n, false) := by
  cases h with
  | plain kind => simp [Compliance.parameterName, kind]
  | withDefault kind name => simp [Compliance.parameterName, kind, name]
  | starred kind name =>
    rcases kind with kind | kind <;> simp [Compliance.parameterName, starredName, kind, name]

theorem Typed.parameterName {p n : Node} (h : Typed p n) : parameterName p = some (n, true) := by
  cases h with
  | plain kind first name => simp [Compliance.parameterName, starredName, kind, first, name]
  | withDefault kind name => simp [Compliance.parameterName, kind, name]
  | starred kind first other name =>
    simp [Compliance.parameterName, starredName, kind, first, other, name]

/-- The names that are found for parameters are theirs, and so are the types. -/
theorem parameterName_eq_some_iff {p n : Node} {hasType : Bool} :
    parameterName p = some (n, hasType) ↔
      hasType = false ∧ Untyped p n ∨ hasType = true ∧ Typed p n := by
  refine ⟨untyped_or_typed_of_parameterName, ?_⟩
  rintro (⟨rfl, h⟩ | ⟨rfl, h⟩)
  · exact h.parameterName
  · exact h.parameterName

theorem untyped_iff {p n : Node} : Untyped p n ↔ parameterName p = some (n, false) := by
  simp [parameterName_eq_some_iff]

theorem typed_iff {p n : Node} : Typed p n ↔ parameterName p = some (n, true) := by
  simp [parameterName_eq_some_iff]

/-- A parameter of a function or a lambda. -/
def IsParameter (owner p : Node) : Prop :=
  ∃ parameters, owner.part? .parameters = some parameters ∧ p ∈ parameters.children

/-! ## Names -/

/-- A name that says nothing: it is not on the list of allowed names, and is on the list of refused
names or has one character. -/
def Naming.Refuses (naming : Naming) (name : String) : Prop :=
  name ∉ naming.allowed ∧ (name ∈ naming.refused ∨ name.length ≤ 1)

/-- Names that are not descriptive are those that are refused. -/
theorem Naming.isDescriptive_eq_false_iff {naming : Naming} {name : String} :
    naming.isDescriptive name = false ↔ naming.Refuses name := by
  simp [isDescriptive, Refuses, Classical.or_iff_not_imp_left]

/-- The kinds of targets that are made of targets. -/
def compoundTargets : List Kind := [.patternList, .tuplePattern, .listPattern, .listSplatPattern, .tuple,
  .list, .parenthesizedExpression, .asPatternTarget]

/-- A target binds a name. What stands before a dot or a bracket binds nothing. -/
inductive Binds (n : Node) : Node → Prop
  | name (kind : n.kind = .identifier) : Binds n n
  | part {c target : Node} (kind : target.kind ∈ compoundTargets) (child : c ∈ target.children)
      (h : Binds n c) : Binds n target

/-- Names that parts bind are those of each. -/
theorem boundNamesOfParts_eq (cs : List (Option Role × Node)) :
    boundNamesOfParts cs = (cs.map (·.2)).flatMap boundNames := by
  induction cs with
  | nil => rfl
  | cons c cs ih =>
    obtain ⟨r, n⟩ := c
    rw [boundNamesOfParts, ih, List.map_cons, List.flatMap_cons]

/-- Names that a target of several parts binds are those of its children. -/
theorem boundNames_of_compound {target : Node} (h : target.kind ∈ compoundTargets) :
    boundNames target = target.children.flatMap boundNames := by
  obtain ⟨k, l, t, cs⟩ := target
  simp only [Node.kind, compoundTargets, List.mem_cons, List.not_mem_nil, or_false] at h
  rcases h with rfl | rfl | rfl | rfl | rfl | rfl | rfl | rfl <;>
    exact (boundNames.eq_def _).trans (boundNamesOfParts_eq cs)

mutual

/-- A name that is collected of a target is bound by it. -/
theorem binds_of_mem_boundNames {n : Node} : ∀ {target : Node}, n ∈ boundNames target → Binds n target
  | .mk k l t cs, h => by
    have hparts (hk : k ∈ compoundTargets) (h : n ∈ boundNamesOfParts cs) : Binds n (.mk k l t cs) := by
      obtain ⟨c, hc, hbinds⟩ := binds_of_mem_boundNamesOfParts h
      exact .part hk hc hbinds
    rw [boundNames.eq_def] at h
    dsimp only at h
    split at h
    case h_1 =>
      obtain rfl := List.mem_singleton.1 h
      exact .name rfl
    case h_10 => cases h
    all_goals exact hparts (by decide) h

/-- A name that is collected of parts is bound by one of them. -/
theorem binds_of_mem_boundNamesOfParts {n : Node} : ∀ {cs : List (Option Role × Node)},
    n ∈ boundNamesOfParts cs → ∃ c ∈ cs.map (·.2), Binds n c
  | (_, c) :: cs, h => by
    rw [boundNamesOfParts, List.mem_append] at h
    rcases h with h | h
    · exact ⟨c, List.mem_cons_self, binds_of_mem_boundNames h⟩
    · obtain ⟨d, hd, h⟩ := binds_of_mem_boundNamesOfParts h
      exact ⟨d, List.mem_cons_of_mem _ hd, h⟩

end

/-- The names that are collected of a target are those that it binds. -/
theorem mem_boundNames_iff {n target : Node} : n ∈ boundNames target ↔ Binds n target := by
  refine ⟨binds_of_mem_boundNames, fun h => ?_⟩
  induction h with
  | name kind =>
    obtain ⟨k, l, t, cs⟩ := n
    obtain rfl : k = .identifier := kind
    exact List.mem_singleton_self _
  | part kind child _ ih =>
    rw [boundNames_of_compound kind]
    exact List.mem_flatMap_of_mem child ih

/-- A node gives names to the parts of a target: it is an assignment, a loop or a clause of a
comprehension, a named expression, or what stands before an alias. -/
inductive IsTarget (n target : Node) : Prop
  | left (kind : n.kind ∈ [Kind.assignment, .augmentedAssignment, .forStatement, .forInClause])
      (part : n.part? .left = some target)
  | name (kind : n.kind = .namedExpression) (part : n.part? .name = some target)
  | alias (kind : n.kind = .asPattern ∨ n.kind = .exceptClause) (part : n.part? .alias = some target)

/-- A node is a function definition of this name. -/
structure IsFunction (n name : Node) : Prop where
  kind : n.kind = .functionDefinition
  part : n.part? .name = some name

/-- A node brings up a name: of a function, of a parameter of a function or a lambda that is not
implicit, or in a target. -/
inductive Introduces (n m : Node) : Prop
  | function (h : IsFunction n m)
  | parameter {p : Node} (owner : (∃ name, IsFunction n name) ∨ n.kind = .lambda)
      (parameter : IsParameter n p) (name : Untyped p m ∨ Typed p m)
      (explicit : m.text ∉ implicitParameters)
  | target {target : Node} (h : IsTarget n target) (binds : Binds m target)

/-! ## Types and examples -/

/-- A node is a function without a type: that of a parameter which is not implicit, or that of its
result, unless it makes a new object. -/
def LacksType (n : Node) : Prop :=
  ∃ name, IsFunction n name ∧
    ((∃ p m, IsParameter n p ∧ Untyped p m ∧ m.text ∉ implicitParameters) ∨
      n.part? .returnType = none ∧ name.text ≠ "__init__")

/-- A name with two underscores on both sides of something. -/
def IsSpecialName (name : String) : Prop := ∃ middle, middle ≠ "" ∧ name = "__" ++ middle ++ "__"

/-- Special names are told by their underscores. -/
theorem isSpecial_iff {name : String} : isSpecial name = true ↔ IsSpecialName name := by
  simp only [isSpecial, Bool.and_eq_true, decide_eq_true_eq, List.isPrefixOf_iff_prefix,
    List.isSuffixOf_iff_suffix]
  constructor
  · rintro ⟨⟨hsize, rest, hprefix⟩, start, hsuffix⟩
    -- of fewer than five characters the underscores would be shared
    rcases start with _ | ⟨a, _ | ⟨b, middle⟩⟩
    · obtain rfl : name = "__" := String.toList_inj.1 hsuffix.symm
      exact absurd hsize (by decide)
    · rw [← hsuffix] at hprefix
      obtain rfl : a = '_' := ((List.cons.inj hprefix).1).symm
      obtain rfl : name = "___" := String.toList_inj.1 hsuffix.symm
      exact absurd hsize (by decide)
    · rw [← hsuffix] at hprefix
      obtain rfl : a = '_' := ((List.cons.inj hprefix).1).symm
      obtain rfl : b = '_' := ((List.cons.inj (List.cons.inj hprefix).2).1).symm
      have hname : name = "__" ++ String.ofList middle ++ "__" := by
        rw [← String.toList_inj, ← hsuffix]
        simp
      refine ⟨String.ofList middle, ?_, hname⟩
      intro hempty
      rw [hname, hempty] at hsize
      exact absurd hsize (by decide)
  · rintro ⟨middle, hmiddle, rfl⟩
    have hpos : 0 < middle.utf8ByteSize :=
      Nat.pos_of_ne_zero fun h => hmiddle (String.utf8ByteSize_eq_zero_iff.1 h)
    have htwo : "__".utf8ByteSize = 2 := by decide
    refine ⟨⟨?_, ?_⟩, ?_⟩
    · rw [String.utf8ByteSize_append, String.utf8ByteSize_append, htwo]
      omega
    · exact ⟨middle.toList ++ ['_', '_'], by simp⟩
    · exact ⟨['_', '_'] ++ middle.toList, by simp⟩

/-- The first statement of a function's body is a string that shows an example. -/
def ShowsExample (function : Node) : Prop :=
  ∃ body first string before after,
    function.part? .body = some body ∧ body.children.find? (fun c => c.kind ≠ .comment) = some first ∧
      first.kind = .expressionStatement ∧ first.children.head? = some string ∧
        string.kind = .string ∧ string.text = before ++ ">>>" ++ after

/-- A text shows an example if three marks stand in it one after another. -/
theorem showsExample_iff {text : String} :
    showsExample text = true ↔ ∃ before after, text = before ++ ">>>" ++ after := by
  rw [showsExample, Text.occursIn_iff]
  constructor
  · rintro ⟨before, after, h⟩
    refine ⟨String.ofList before, String.ofList after, ?_⟩
    rw [← String.toList_inj, ← h]
    simp [examplePrompt]
  · rintro ⟨before, after, rfl⟩
    exact ⟨before.toList, after.toList, by simp [examplePrompt]⟩

/-- A function has an example if the string that its body begins with shows one. -/
theorem hasExample_iff {function : Node} : hasExample function = true ↔ ShowsExample function := by
  unfold hasExample
  constructor
  · intro h
    split at h
    · cases h
    · rename_i first hfirst
      obtain ⟨body, hbody, hfirst⟩ := Option.bind_eq_some_iff.1 hfirst
      obtain ⟨hkind, h⟩ := Bool.and_eq_true_iff.1 h
      split at h
      · rename_i string hstring
        obtain ⟨hkind', hshows⟩ := Bool.and_eq_true_iff.1 h
        obtain ⟨before, after, htext⟩ := showsExample_iff.1 hshows
        exact ⟨body, first, string, before, after, hbody, hfirst, of_decide_eq_true hkind, hstring,
          of_decide_eq_true hkind', htext⟩
      · cases h
  · rintro ⟨body, first, string, before, after, hbody, hfirst, hkind, hstring, hkind', htext⟩
    simp only [hbody, Option.bind_some, hfirst, hkind, hstring, hkind', decide_true, Bool.true_and]
    exact showsExample_iff.2 ⟨before, after, htext⟩

/-- A node is a function without an example. -/
def LacksExample (n : Node) : Prop :=
  ∃ name, IsFunction n name ∧ ¬ IsSpecialName name.text ∧ ¬ ShowsExample n

/-! ## Rules that a node breaks -/

section

variable {naming : Naming} {r : Rule}

/-- The rules that violations break. -/
def rulesOf (vs : List Violation) : List Rule := vs.map (·.rule)

theorem mem_rulesOf_append {vs ws : List Violation} :
    r ∈ rulesOf (vs ++ ws) ↔ r ∈ rulesOf vs ∨ r ∈ rulesOf ws := by
  rw [rulesOf, List.map_append, List.mem_append]
  rfl

theorem mem_rulesOf_flatMap {α : Type} {as : List α} {f : α → List Violation} :
    r ∈ rulesOf (as.flatMap f) ↔ ∃ a ∈ as, r ∈ rulesOf (f a) := by
  rw [rulesOf, List.map_flatMap, List.mem_flatMap]
  rfl

theorem mem_rulesOf_ite {c : Prop} [Decidable c] {v : Violation} :
    r ∈ rulesOf (if c then [v] else []) ↔ c ∧ r = v.rule := by
  split <;> simp [rulesOf, *]

theorem mem_rulesOf_ite_not {c : Prop} [Decidable c] {v : Violation} :
    r ∈ rulesOf (if c then [] else [v]) ↔ ¬ c ∧ r = v.rule := by
  split <;> simp [rulesOf, *]

/-- A parameter can lack a type that it should have, and can have a name that says nothing. -/
theorem mem_rulesOf_parameterViolations {owner : String} {typed : Bool} {p : Node} :
    r ∈ rulesOf (parameterViolations naming owner typed p) ↔
      (typed = true ∧ r = .missingAnnotations ∧ ∃ m, Untyped p m ∧ m.text ∉ implicitParameters) ∨
        r = .nonDescriptiveName ∧ ∃ m, (Untyped p m ∨ Typed p m) ∧ m.text ∉ implicitParameters ∧
          naming.Refuses m.text := by
  unfold parameterViolations
  simp only [untyped_iff, typed_iff]
  rcases parameterName p with _ | ⟨n, hasType⟩
  · simp [rulesOf]
  · dsimp only
    by_cases himplicit : n.text ∈ implicitParameters
    · rw [if_pos (List.contains_iff_mem.2 himplicit)]
      simp only [rulesOf, List.map_nil, List.not_mem_nil, false_iff]
      rintro (⟨-, -, m, hm, hexplicit⟩ | ⟨-, m, hm | hm, hexplicit, -⟩) <;> cases hm <;>
        exact hexplicit himplicit
    · rw [if_neg (fun h => himplicit (List.contains_iff_mem.1 h)), mem_rulesOf_append,
        mem_rulesOf_ite, mem_rulesOf_ite_not, Bool.not_eq_true, Naming.isDescriptive_eq_false_iff]
      cases hasType <;> simp [himplicit, and_comm]

theorem mem_rulesOf_parametersViolations {owner : String} {typed : Bool} {n : Node} :
    r ∈ rulesOf (parametersViolations naming owner typed (n.part? .parameters)) ↔
      ∃ p, IsParameter n p ∧ r ∈ rulesOf (parameterViolations naming owner typed p) := by
  rcases hn : n.part? .parameters with _ | ps
  · simp [parametersViolations, IsParameter, hn, rulesOf]
  · simp [parametersViolations, IsParameter, hn, mem_rulesOf_flatMap]

/-- A target can bind names that say nothing. -/
theorem mem_rulesOf_targetViolations {target : Option Node} :
    r ∈ rulesOf (targetViolations naming target) ↔ r = .nonDescriptiveName ∧
      ∃ t m, target = some t ∧ Binds m t ∧ naming.Refuses m.text := by
  rcases target with _ | t
  · simp [targetViolations, rulesOf]
  · simp only [targetViolations, rulesOf, List.mem_map, List.mem_filterMap, mem_boundNames_iff,
      ← Naming.isDescriptive_eq_false_iff]
    constructor
    · rintro ⟨v, ⟨m, hm, hv⟩, rfl⟩
      split at hv
      · cases hv
      · rename_i hname
        cases hv
        exact ⟨rfl, t, m, rfl, hm, Bool.not_eq_true _ ▸ hname⟩
    · rintro ⟨rfl, _, m, ⟨⟩, hm, hname⟩
      exact ⟨_, ⟨m, hm, if_neg (by simp [hname])⟩, rfl⟩

/-- A function can have a name that says nothing, parameters that break a rule, no type of its result,
and no example. -/
theorem mem_rulesOf_functionViolations {n : Node} :
    r ∈ rulesOf (functionViolations naming n) ↔ ∃ name, n.part? .name = some name ∧
      (r = .nonDescriptiveName ∧ naming.Refuses name.text ∨
        (∃ p, IsParameter n p ∧
          r ∈ rulesOf (parameterViolations naming s!"function `{name.text}`" true p)) ∨
        r = .missingAnnotations ∧ n.part? .returnType = none ∧ name.text ≠ "__init__" ∨
        r = .missingExample ∧ ¬ IsSpecialName name.text ∧ ¬ ShowsExample n) := by
  unfold functionViolations
  rcases n.part? .name with _ | name
  · simp [rulesOf]
  · simp only [mem_rulesOf_append, mem_rulesOf_ite, mem_rulesOf_ite_not, Bool.not_eq_true,
      Naming.isDescriptive_eq_false_iff, mem_rulesOf_parametersViolations, Bool.and_eq_true,
      decide_eq_true_eq, Option.isNone_iff_eq_none, Bool.not_eq_true', ← isSpecial_iff,
      ← hasExample_iff, Option.some.injEq, exists_eq_left', or_assoc]
    simp only [and_comm]

end

/-- A node breaks a rule. That there are no tests is not said of nodes. -/
def Breaks (naming : Naming) (n : Node) : Rule → Prop
  | .missingTest => False
  | .missingAnnotations => LacksType n
  | .missingExample => LacksExample n
  | .nonDescriptiveName => ∃ m, Introduces n m ∧ naming.Refuses m.text

section

variable {naming : Naming} {r : Rule} {n : Node}

/-- A function breaks what is reported of functions. -/
theorem breaks_function_iff (kind : n.kind = .functionDefinition) :
    Breaks naming n r ↔ r ∈ rulesOf (functionViolations naming n) := by
  have htarget (t : Node) : ¬ IsTarget n t := by
    rintro (⟨h, -⟩ | ⟨h, -⟩ | ⟨h, -⟩) <;> simp [kind] at h
  -- a function has no target, so that of the ways to introduce a name two are left
  rw [mem_rulesOf_functionViolations]
  simp only [mem_rulesOf_parameterViolations]
  constructor
  · intro h
    cases r with
    | missingTest => cases h
    | missingAnnotations =>
      obtain ⟨name, hname, ⟨p, m, hp, hm, hexplicit⟩ | hresult⟩ := h
      · exact ⟨name, hname.part, .inr (.inl ⟨p, hp, .inl ⟨trivial, rfl, m, hm, hexplicit⟩⟩)⟩
      · exact ⟨name, hname.part, .inr (.inr (.inl ⟨rfl, hresult⟩))⟩
    | missingExample =>
      obtain ⟨name, hname, h⟩ := h
      exact ⟨name, hname.part, .inr (.inr (.inr ⟨rfl, h⟩))⟩
    | nonDescriptiveName =>
      obtain ⟨m, hintroduces, hrefused⟩ := h
      cases hintroduces with
      | function h => exact ⟨m, h.part, .inl ⟨rfl, hrefused⟩⟩
      | @parameter p owner hp hm hexplicit =>
        obtain ⟨name, hname⟩ | hlambda := owner
        · exact ⟨name, hname.part, .inr (.inl ⟨p, hp, .inr ⟨rfl, m, hm, hexplicit, hrefused⟩⟩)⟩
        · simp [kind] at hlambda
      | target h => exact absurd h (htarget _)
  · rintro ⟨name, hname, ⟨rfl, hrefused⟩ |
      ⟨p, hp, ⟨-, rfl, m, hm, hexplicit⟩ | ⟨rfl, m, hm, hexplicit, hrefused⟩⟩ |
      ⟨rfl, hresult⟩ | ⟨rfl, h⟩⟩
    · exact ⟨name, .function ⟨kind, hname⟩, hrefused⟩
    · exact ⟨name, ⟨kind, hname⟩, .inl ⟨p, m, hp, hm, hexplicit⟩⟩
    · exact ⟨m, .parameter (.inl ⟨name, kind, hname⟩) hp hm hexplicit, hrefused⟩
    · exact ⟨name, ⟨kind, hname⟩, .inr hresult⟩
    · exact ⟨name, ⟨kind, hname⟩, h⟩

/-- Of a node that is no function only names can break a rule. -/
theorem breaks_iff_of_ne (kind : n.kind ≠ .functionDefinition) :
    Breaks naming n r ↔ r = .nonDescriptiveName ∧ ∃ m, naming.Refuses m.text ∧
      ((n.kind = .lambda ∧ ∃ p, IsParameter n p ∧ (Untyped p m ∨ Typed p m) ∧
        m.text ∉ implicitParameters) ∨ ∃ t, IsTarget n t ∧ Binds m t) := by
  have hfunction (name : Node) : ¬ IsFunction n name := fun h => kind h.kind
  cases r with
  | missingTest => simp [Breaks]
  | missingAnnotations => simp [Breaks, LacksType, hfunction]
  | missingExample => simp [Breaks, LacksExample, hfunction]
  | nonDescriptiveName =>
    simp only [Breaks, true_and]
    refine exists_congr fun m => ⟨?_, ?_⟩
    · rintro ⟨hintroduces, hrefused⟩
      refine ⟨hrefused, ?_⟩
      cases hintroduces with
      | function h => exact absurd h (hfunction m)
      | @parameter p owner hp hm hexplicit =>
        exact .inl ⟨owner.resolve_left fun ⟨name, h⟩ => hfunction name h, p, hp, hm, hexplicit⟩
      | @target t h hbinds => exact .inr ⟨t, h, hbinds⟩
    · rintro ⟨hrefused, ⟨hlambda, p, hp, hm, hexplicit⟩ | ⟨t, ht, hbinds⟩⟩
      · exact ⟨.parameter (.inr hlambda) hp hm hexplicit, hrefused⟩
      · exact ⟨.target ht hbinds, hrefused⟩

/-- A node whose only names are those that its target binds. -/
theorem breaks_target_iff {target : Option Node} (kind : n.kind ≠ .functionDefinition)
    (other : n.kind ≠ .lambda) (h : ∀ t, IsTarget n t ↔ target = some t) :
    Breaks naming n r ↔ r ∈ rulesOf (targetViolations naming target) := by
  rw [breaks_iff_of_ne kind, mem_rulesOf_targetViolations]
  simp only [other, false_and, false_or, h]
  refine and_congr_right fun _ => ⟨?_, ?_⟩
  · rintro ⟨m, hrefused, t, ht, hbinds⟩
    exact ⟨t, m, ht, hbinds, hrefused⟩
  · rintro ⟨t, m, ht, hbinds, hrefused⟩
    exact ⟨m, hrefused, t, ht, hbinds⟩

/-- **Nodes.** What is found at a node are the rules that it breaks. -/
theorem mem_rulesOf_nodeViolations : r ∈ rulesOf (nodeViolations naming n) ↔ Breaks naming n r := by
  -- of each kind of node at most one part is a target
  have htarget {t : Node} : IsTarget n t ↔
      (n.kind ∈ [Kind.assignment, .augmentedAssignment, .forStatement, .forInClause] ∧
        n.part? .left = some t) ∨ (n.kind = .namedExpression ∧ n.part? .name = some t) ∨
        ((n.kind = .asPattern ∨ n.kind = .exceptClause) ∧ n.part? .alias = some t) := by
    constructor
    · rintro (⟨hk, h⟩ | ⟨hk, h⟩ | ⟨hk, h⟩)
      · exact .inl ⟨hk, h⟩
      · exact .inr (.inl ⟨hk, h⟩)
      · exact .inr (.inr ⟨hk, h⟩)
    · rintro (⟨hk, h⟩ | ⟨hk, h⟩ | ⟨hk, h⟩)
      · exact .left hk h
      · exact .name hk h
      · exact .alias hk h
  unfold nodeViolations
  split
  case h_1 kind => exact (breaks_function_iff kind).symm
  case h_9 kind =>
    rw [mem_rulesOf_parametersViolations, breaks_iff_of_ne (by simp [kind])]
    simp only [mem_rulesOf_parameterViolations, htarget, kind]
    constructor
    · rintro ⟨p, hp, ⟨h, -⟩ | ⟨rfl, m, hm, hexplicit, hrefused⟩⟩
      · cases h
      · exact ⟨rfl, m, hrefused, .inl ⟨trivial, p, hp, hm, hexplicit⟩⟩
    · rintro ⟨rfl, m, hrefused, ⟨-, p, hp, hm, hexplicit⟩ | ⟨t, h, -⟩⟩
      · exact ⟨p, hp, .inr ⟨rfl, m, hm, hexplicit, hrefused⟩⟩
      · simp at h
  -- nodes of all other kinds introduce nothing
  case h_10 =>
    have hother (t : Node) : ¬ IsTarget n t := by
      rw [htarget]
      simp_all
    simp_all [breaks_iff_of_ne, rulesOf]
  all_goals
    rename_i kind
    refine (breaks_target_iff (by simp [kind]) (by simp [kind]) fun t => ?_).symm
    simp [htarget, kind]

/-- **Trees.** What is found in a tree are the rules that its nodes break, at any depth. -/
theorem mem_rulesOf_treeViolations {tree : Node} :
    r ∈ rulesOf (treeViolations naming tree) ↔ ∃ n, n.Within tree ∧ Breaks naming n r := by
  have hperm := (Violation.perm_sorted ((Node.walk [tree]).flatMap (nodeViolations naming))).map
    fun v => v.rule
  rw [rulesOf, treeViolations, hperm.mem_iff, ← rulesOf, mem_rulesOf_flatMap, walk_singleton]
  simp only [Node.mem_preorder_iff, mem_rulesOf_nodeViolations]

end

end Compliance

end PullGate
