import PullGate.Proofs.Python.Growth
/-!
# Names stand where the grammar has them

In every tree of a source the names of functions and parameters are identifiers, or identifiers in
parentheses, and parameters are listed by nodes of their own (`formed_of_parse`). So no statement or
expression stands where the analysis looks for a name.

The tree is read, and what is read is a phrase of the grammar. So it is enough to look at the parts of
each rule, and the induction is over phrases.
-/

namespace PullGate.Python

open PullGate.Grammar (Leaf Lexeme Parts Step)

namespace Node

/-! ## Shapes of nodes -/

/-- A node that stands where a name is: an identifier, or identifiers in parentheses. -/
def IsName (n : Node) : Prop := n.kind = .identifier ∨ n.kind = .tuplePattern

instance : DecidablePred IsName := fun n =>
  inferInstanceAs (Decidable (n.kind = .identifier ∨ n.kind = .tuplePattern))

/-- Names and parameters stand where the grammar has them: the name of a function is an identifier, as
is that of a parameter with a type and a default; that of a parameter with a default alone may be
several in parentheses; parameters with types begin with a name, perhaps behind stars; and parameters
are listed by nodes of their own. -/
structure Shaped (n : Node) : Prop where
  functionName : n.kind = .functionDefinition → ∀ m ∈ n.part? .name, m.kind = .identifier
  parameters : n.kind = .functionDefinition ∨ n.kind = .lambda →
    ∀ ps ∈ n.part? .parameters, ps.kind = .parameters ∨ ps.kind = .lambdaParameters
  withDefault : n.kind = .defaultParameter → ∀ m ∈ n.part? .name, m.IsName
  typedWithDefault : n.kind = .typedDefaultParameter → ∀ m ∈ n.part? .name, m.kind = .identifier
  typed : n.kind = .typedParameter → ∀ c ∈ n.children.head?,
    c.kind = .identifier ∨ c.kind = .listSplatPattern ∨ c.kind = .dictionarySplatPattern

instance : DecidablePred Shaped := fun n =>
  decidable_of_iff
    ((n.kind = .functionDefinition → ∀ m ∈ n.part? .name, m.kind = .identifier) ∧
      (n.kind = .functionDefinition ∨ n.kind = .lambda →
        ∀ ps ∈ n.part? .parameters, ps.kind = .parameters ∨ ps.kind = .lambdaParameters) ∧
      (n.kind = .defaultParameter → ∀ m ∈ n.part? .name, m.IsName) ∧
      (n.kind = .typedDefaultParameter → ∀ m ∈ n.part? .name, m.kind = .identifier) ∧
      (n.kind = .typedParameter → ∀ c ∈ n.children.head?,
        c.kind = .identifier ∨ c.kind = .listSplatPattern ∨ c.kind = .dictionarySplatPattern))
    ⟨fun ⟨a, b, c, d, e⟩ => ⟨a, b, c, d, e⟩, fun ⟨a, b, c, d, e⟩ => ⟨a, b, c, d, e⟩⟩

/-- All nodes of the tree are shaped so. -/
def Formed (tree : Node) : Prop := ∀ n ∈ tree.preorder, n.Shaped

instance : DecidablePred Formed := fun tree => inferInstanceAs (Decidable (∀ n ∈ tree.preorder, n.Shaped))

/-- A tree is formed if its root is shaped and its children are formed. -/
theorem formed_iff {n : Node} : n.Formed ↔ n.Shaped ∧ ∀ c ∈ n.children, c.Formed := by
  simp only [Formed, preorder_eq n, List.forall_mem_cons, List.mem_flatMap, forall_exists_index,
    and_imp]
  exact and_congr_right' ⟨fun h c hc m hm => h m c hc hm, fun h m c hc hm => h c hc m hm⟩

/-- A node of another kind is shaped. -/
theorem shaped_of_notMem {n : Node} (h : n.kind ∉ namingKinds) : n.Shaped where
  functionName kind := absurd (kind ▸ by decide) h
  parameters kind := by
    rcases kind with kind | kind
    · exact absurd (kind ▸ by decide) h
    · exact absurd (kind ▸ by decide) h
  withDefault kind := absurd (kind ▸ by decide) h
  typedWithDefault kind := absurd (kind ▸ by decide) h
  typed kind := absurd (kind ▸ by decide) h

end Node

/-! ## Shapes of growths -/

/-- The kinds that a part with a role has in the nodes of a phrase in which it is looked for. -/
def roleKinds : Phrase → Role → List Kind
  | .node .functionDefinition, .name => [.identifier]
  | .node .functionDefinition, .parameters => [.parameters]
  | .node .lambda, .parameters => [.lambdaParameters]
  | .node .lambdaWithinForInClause, .parameters => [.lambdaParameters]
  | .node .defaultParameter, .name => [.identifier, .tuplePattern]
  | .node .typedDefaultParameter, .name => [.identifier]
  | _, _ => []

/-- The phrases in which a part with the role is looked for. -/
def roleOwners : Role → List Phrase
  | .name => [.node .functionDefinition, .node .defaultParameter, .node .typedDefaultParameter]
  | .parameters => [.node .functionDefinition, .node .lambda, .node .lambdaWithinForInClause]
  | .returnType | .body | .left | .alias => []

/-- In the rules, a part with a role that is looked for is of a kind that it has. -/
theorem role_leaves : ∀ p ∈ pythonGrammar.rules, ∀ x ∈ p.2.leaves [], ∀ r ∈ roleMarked x.2,
    p.1 ∈ roleOwners r → ∃ k ∈ Part.kind? x, k ∈ roleKinds p.1 r := by
  decide +kernel

/-- In the rule of a parameter with a type, what comes first is a name or has one behind stars. -/
theorem typed_leaves : ∀ p ∈ pythonGrammar.rules, p.1 = .node .typedParameter →
    p.2.nullable = false ∧ ∀ x ∈ p.2.firsts [], ∃ k ∈ Part.kind? x,
      k ∈ [Kind.identifier, .listSplatPattern, .dictionarySplatPattern] := by
  decide +kernel

/-- What a symbol grows to: its nodes are formed, it shows as a node of its kind, and if it is none, then
none of its nodes has a role. -/
structure Grown (s : Grammar.Symbol Token Phrase) (g : Growth) : Prop where
  shown : g.shown = shownKind s.leaf
  formed : ∀ p ∈ g.below, p.2.Formed
  roles : shownKind s.leaf = none → ∀ p ∈ g.below, p.1 = none
  shaped : ∀ k, k ∉ namingKinds ∨ shownKind s.leaf = some k ∨
      k = .lambda ∧ s.leaf = .phrase (.node .lambdaWithinForInClause) →
    ∀ l t, (Node.mk k l t g.below.reverse).Shaped

theorem grown_token (l : Lexeme Token) : Grown (.token l.token) (.ofToken l) where
  shown := rfl
  formed := nofun
  roles _ := nofun
  shaped _ _ _ _ := ⟨fun _ => nofun, fun _ => nofun, fun _ => nofun, fun _ => nofun, fun _ => nofun⟩

/-- What a part puts among the nodes of the whole has the part's role. It is a node of the part's kind, or
if that is none, one of its own. -/
theorem Grown.cases_of_mem_nodes {src : Source} {s : Grammar.Symbol Token Phrase} {g : Growth}
    (hg : Grown s g) {marks : List Mark} {p : Option Role × Node} (hp : p ∈ g.nodes src marks) :
    p.1 = roleMarked marks ∧
      ((∃ k l t, Part.kind? (s.leaf, marks) = some k ∧ p.2 = .mk k l t g.below.reverse) ∨
        Part.kind? (s.leaf, marks) = none ∧ ∃ q ∈ g.below, p.2 = q.2) := by
  rw [Growth.nodes_eq, hg.shown] at hp
  rcases hkind : (kindMarked marks).or (shownKind s.leaf) with _ | k
  · rw [hkind] at hp
    dsimp only at hp
    have hnone := (Option.or_eq_none_iff.1 hkind).2
    rcases hrole : roleMarked marks with _ | r
    · rw [hrole] at hp
      exact ⟨hg.roles hnone p hp, .inr ⟨hkind, p, hp, rfl⟩⟩
    · rw [hrole] at hp
      obtain ⟨q, hq, rfl⟩ := List.mem_map.1 hp
      exact ⟨rfl, .inr ⟨hkind, q, hq, rfl⟩⟩
  · rw [hkind] at hp
    rw [List.mem_singleton.1 hp]
    exact ⟨rfl, .inl ⟨k, _, _, hkind, rfl⟩⟩

section

variable {src : Source} {s : Grammar.Symbol Token Phrase}
  {steps : List (Step (Grammar.Symbol Token Phrase) Mark)} {ls : List (Lexeme Token)}
  {parts : List (List Mark × Growth)}

/-- Among the nodes of a phrase each comes from a step, or it is a filler, which has no marks. -/
theorem cases_of_mem_nodesInOrder
    (h : Parts (growth src) (fun s _ g => Grown s g) steps ls parts) {p : Option Role × Node}
    (hp : p ∈ nodesInOrder src parts) :
    (∃ t ∈ steps, ∃ g, Grown t.symbol g ∧ p ∈ g.nodes src t.marks) ∨
      ∃ l, p ∈ (Growth.ofToken l).nodes src [] := by
  obtain ⟨⟨marks, g⟩, hpart, hp⟩ := List.mem_flatMap.1 hp
  have hp := List.mem_reverse.1 hp
  rcases h.cases_of_mem hpart with ⟨t, ht, rfl, _, hg⟩ | ⟨l, heq⟩
  · exact .inl ⟨t, ht, g, hg, hp⟩
  · cases heq
    exact .inr ⟨l, by rwa [growth_token] at hp⟩

/-- A node of a part that has a shape is formed. -/
theorem Grown.formed_of_mem_nodes {g : Growth} (hg : Grown s g) {marks : List Mark}
    (hkinds : ∀ k ∈ kindMarked marks, k ∈ namingKinds →
      k = .lambda ∧ s.leaf = .phrase (.node .lambdaWithinForInClause))
    {p : Option Role × Node} (hp : p ∈ g.nodes src marks) : p.2.Formed := by
  rcases (hg.cases_of_mem_nodes hp).2 with ⟨k, l, t, hkind, heq⟩ | ⟨-, q, hq, heq⟩
  · rw [heq, Node.formed_iff]
    constructor
    · refine hg.shaped k ?_ l t
      by_cases hnaming : k ∈ namingKinds
      · right
        rcases hmarked : kindMarked marks with _ | k'
        · rw [Part.kind?, hmarked, Option.none_or] at hkind
          exact .inl hkind
        · rw [Part.kind?, hmarked, Option.some_or] at hkind
          cases hkind
          exact .inr (hkinds k hmarked hnaming)
      · exact .inl hnaming
    · intro c hc
      obtain ⟨q, hq, rfl⟩ := List.mem_map.1 hc
      exact hg.formed q (List.mem_reverse.1 hq)
  · rw [heq]
    exact hg.formed q hq

/-- In the nodes of a phrase, a part with a role that is looked for there is of a kind that it has. -/
theorem kind_of_part {n : Phrase} (hproduces : pythonGrammar.Produces (.phrase n) steps)
    (h : Parts (growth src) (fun s _ g => Grown s g) steps ls parts) {r : Role} (hr : n ∈ roleOwners r)
    {k : Kind} {l : Text.Location} {t : String} {m : Node}
    (hm : (Node.mk k l t (nodesInOrder src parts)).part? r = some m) : m.kind ∈ roleKinds n r := by
  obtain ⟨p, hfind, rfl⟩ := Option.map_eq_some_iff.1 hm
  have hfound := List.find?_some hfind
  have hrole : p.1 = some r := of_decide_eq_true hfound
  rcases cases_of_mem_nodesInOrder h (List.mem_of_find?_eq_some hfind) with
    ⟨step, hstep, g, hg, hp⟩ | ⟨l, hp⟩
  · obtain ⟨hmarked, hkind⟩ := hg.cases_of_mem_nodes hp
    obtain ⟨rule, hrule, hleaves, -, -⟩ := hproduces.of_phrase
    obtain ⟨k', hk', hmem⟩ :=
      role_leaves (n, rule) hrule _ (hleaves step hstep) r (hmarked.symm.trans hrole) hr
    rcases hkind with ⟨k, l, t, hkind, heq⟩ | ⟨hnone, -⟩
    · rw [heq]
      cases hk'.symm.trans hkind
      exact hmem
    · cases hk'.symm.trans hnone
  · cases hrole.symm.trans ((grown_token l).cases_of_mem_nodes hp).1

/-- The first node of a parameter with a type is of a kind that is a name or has one behind stars. -/
theorem kind_of_first (hproduces : pythonGrammar.Produces (.phrase (.node .typedParameter)) steps)
    (h : Parts (growth src) (fun s _ g => Grown s g) steps ls parts) {k : Kind} {l : Text.Location}
    {t : String} {c : Node} (hc : c ∈ (Node.mk k l t (nodesInOrder src parts)).children.head?) :
    c.kind ∈ [Kind.identifier, .listSplatPattern, .dictionarySplatPattern] := by
  obtain ⟨r, hr, -, hfirst, hnone⟩ := hproduces.of_phrase
  obtain ⟨hnullable, hfirsts⟩ := typed_leaves _ hr rfl
  have hne : steps ≠ [] := fun hnil => by simp [hnone hnil] at hnullable
  obtain ⟨step, hstep, g, _, _, rest, hg, -, rfl⟩ := h.head_of_cons hne
  obtain ⟨k', hk', hmem⟩ := hfirsts _ (hfirst step hstep)
  have hnode : g.nodes src step.marks =
      [(roleMarked step.marks, .mk k' (src.place g.start) (g.textOf src k') g.below.reverse)] := by
    rw [Growth.nodes_eq, hg.shown]
    have hk' : (kindMarked step.marks).or (shownKind step.symbol.leaf) = some k' := hk'
    rw [hk']
  have hhead : c = .mk k' (src.place g.start) (g.textOf src k') g.below.reverse := by
    rw [Node.children, Node.parts, nodesInOrder, List.flatMap_cons, hnode] at hc
    exact (Option.some.inj hc).symm
  rw [hhead]
  exact hmem

/-- A naming phrase is shaped as its kind says. -/
theorem shaped_of_produces {n : Phrase} (hproduces : pythonGrammar.Produces (.phrase n) steps)
    (h : Parts (growth src) (fun s _ g => Grown s g) steps ls parts) {k : Kind}
    (hk : n = .node k ∨ k = .lambda ∧ n = .node .lambdaWithinForInClause) (l : Text.Location)
    (t : String) : (Node.mk k l t (nodesInOrder src parts)).Shaped := by
  have hpart (r : Role) (hr : n ∈ roleOwners r) (m : Node)
      (hm : (Node.mk k l t (nodesInOrder src parts)).part? r = some m) : m.kind ∈ roleKinds n r :=
    kind_of_part hproduces h hr hm
  have hsame (hne : k ≠ .lambda) : n = .node k := hk.resolve_right fun h => hne h.1
  refine ⟨?_, ?_, ?_, ?_, ?_⟩
  · rintro (rfl : k = _) m hm
    rw [hsame nofun] at hpart
    exact List.mem_singleton.1 (hpart .name (by decide) m hm)
  · rintro (rfl | rfl : k = _ ∨ k = _) ps hps
    · rw [hsame nofun] at hpart
      exact .inl (List.mem_singleton.1 (hpart .parameters (by decide) ps hps))
    · right
      rcases hk with rfl | ⟨-, rfl⟩
      · exact List.mem_singleton.1 (hpart .parameters (by decide) ps hps)
      · exact List.mem_singleton.1 (hpart .parameters (by decide) ps hps)
  · rintro (rfl : k = _) m hm
    rw [hsame nofun] at hpart
    exact (List.mem_cons.1 (hpart .name (by decide) m hm)).imp_right List.mem_singleton.1
  · rintro (rfl : k = _) m hm
    rw [hsame nofun] at hpart
    exact List.mem_singleton.1 (hpart .name (by decide) m hm)
  · rintro (rfl : k = _) c hc
    -- the one shape told by place and not by role: what a list of parameters begins with
    rw [hsame nofun] at hproduces
    simpa using kind_of_first hproduces h hc

/-- A phrase grows to what a symbol grows to, if its parts do. -/
theorem grown_phrase (hproduces : pythonGrammar.Produces s steps)
    (h : Parts (growth src) (fun s _ g => Grown s g) steps ls parts) :
    Grown s ((growth src).phrase s.name? parts) := by
  have hshown : shownKind s.leaf = s.name?.bind fun n => shownKind (.phrase n) := by
    cases s with
    | token t => cases hproduces
    | phrase n => rfl
    | repetition place => rfl
  rw [growth_phrase, ← hshown]
  have hmem {p : Option Role × Node} (hp : p ∈ (Growth.ofParts src (shownKind s.leaf) parts).below) :
      p ∈ nodesInOrder src parts := by
    rw [← reverse_below_ofParts]
    exact List.mem_reverse.2 hp
  constructor
  · exact shown_ofParts src _ parts
  · intro p hp
    rcases cases_of_mem_nodesInOrder h (hmem hp) with ⟨t, ht, g, hg, hp⟩ | ⟨l, hp⟩
    · exact hg.formed_of_mem_nodes (sensible_of_produces hproduces ht).kinds hp
    · exact (grown_token l).formed_of_mem_nodes (by simp [kindMarked]) hp
  · intro hnone p hp
    rcases cases_of_mem_nodesInOrder h (hmem hp) with ⟨t, ht, g, hg, hp⟩ | ⟨l, hp⟩
    · rw [(hg.cases_of_mem_nodes hp).1]
      exact (sensible_of_produces hproduces ht).roles (hshown ▸ hnone)
    · exact ((grown_token l).cases_of_mem_nodes hp).1
  -- the node of the phrase itself, which only a named phrase has
  · intro k hk l t
    rw [reverse_below_ofParts]
    rcases hk with hother | hk
    · exact Node.shaped_of_notMem hother
    · cases s with
      | token x => cases hproduces
      | repetition place => rcases hk with hk | ⟨-, hk⟩ <;> cases hk
      | phrase n =>
        refine shaped_of_produces hproduces h (hk.imp (fun hk => ?_) fun ⟨hlambda, hk⟩ => ?_) l t
        · cases n <;> cases hk
          rfl
        · cases hk
          exact ⟨hlambda, rfl⟩

end

/-! ## Trees of sources -/

/-- **Names stand where the grammar has them**, in every tree of a source. -/
theorem formed_of_parse {text : String} {tree : Node} (h : parse text = some tree) : tree.Formed := by
  simp only [parse, Option.bind_eq_bind, Option.bind_eq_some_iff] at h
  obtain ⟨g, hread, heq⟩ := h
  cases heq
  obtain ⟨_, ls, _, _, -, hreads⟩ := Grammar.RuleSet.reads_of_read closed_pythonGrammar hread
  have hgrown : Grown (.phrase (.node .program)) g :=
    hreads.induct (fun l => growth_token _ l ▸ grown_token l)
      fun s steps ls parts hproduces hparts => grown_phrase hproduces hparts
  rw [Node.formed_iff]
  refine ⟨hgrown.shaped .program (.inl (by decide)) _ _, fun c hc => ?_⟩
  obtain ⟨p, hp, rfl⟩ := List.mem_map.1 hc
  exact hgrown.formed p (List.mem_reverse.1 hp)

end PullGate.Python
