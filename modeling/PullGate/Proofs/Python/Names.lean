import PullGate.Proofs.Python.Formed
import PullGate.Proofs.Python.Scanning
/-!
# Names begin at different places

In every tree of a source the nodes that stand where a name is begin at different places
(`namesApart_of_parse`). Each of them begins with a token of its own: an identifier is a word, and names
in parentheses begin with the opening one, after which the names within begin. The tokens stand one after
another in the text, and different characters stand at different places.
-/

namespace PullGate.Python

open PullGate.Grammar (Leaf Lexeme Parts Step)
open PullGate.Text (Location)

/-! ## Names among nodes -/

namespace Node

/-- The names in the tree begin at different places. -/
def NamesApart (tree : Node) : Prop :=
  tree.preorder.Pairwise fun n m => n.IsName → m.IsName → n.start ≠ m.start

instance : DecidablePred NamesApart := fun tree =>
  inferInstanceAs (Decidable (tree.preorder.Pairwise fun n m =>
    n.IsName → m.IsName → n.start ≠ m.start))

theorem isName_iff {n : Node} : n.IsName ↔ n.kind ∈ nameKinds := by
  simp [IsName, nameKinds]

end Node

/-- The names among nodes and below them, in the order of the text. -/
def namesIn (nodes : List (Option Role × Node)) : List Node :=
  (nodes.flatMap fun p => p.2.preorder).filter (·.IsName)

/-- The names among nodes of two lists are those of both. -/
theorem namesIn_append (ns ns' : List (Option Role × Node)) :
    namesIn (ns ++ ns') = namesIn ns ++ namesIn ns' := by
  rw [namesIn, List.flatMap_append, List.filter_append]
  rfl

/-- Roles make no difference. -/
theorem namesIn_map_role (r : Option Role) (ns : List (Option Role × Node)) :
    namesIn (ns.map fun p => (r, p.2)) = namesIn ns := by
  rw [namesIn, List.flatMap_map]
  rfl

/-- The names of one node are those below it, behind its own if it is one. -/
theorem namesIn_singleton (r : Option Role) (k : Kind) (l : Location) (t : String)
    (cs : List (Option Role × Node)) : namesIn [(r, .mk k l t cs)] =
      (if k ∈ nameKinds then [.mk k l t cs] else []) ++ namesIn cs := by
  have hbelow : (Node.mk k l t cs).children.flatMap Node.preorder = cs.flatMap fun p => p.2.preorder :=
    List.flatMap_map ..
  have hname : (Node.mk k l t cs).IsName ↔ k ∈ nameKinds := Node.isName_iff
  rw [namesIn, List.flatMap_singleton, Node.preorder_eq, hbelow, List.filter_cons]
  by_cases hk : k ∈ nameKinds
  · rw [if_pos hk, if_pos (decide_eq_true (hname.2 hk))]
    rfl
  · rw [if_neg hk, if_neg fun h => hk (hname.1 (of_decide_eq_true h))]
    rfl

/-! ## Tokens that names begin with -/

/-- The names among nodes begin with these words, one with each. -/
structure Starters (src : Source) (nodes : List (Option Role × Node)) (words : List (Lexeme Token)) :
    Prop where
  isWord : ∀ l ∈ words, l.token.IsWord
  start_eq : (namesIn nodes).map Node.start = words.map fun l => src.place l.start

namespace Starters

variable {src : Source} {nodes nodes' : List (Option Role × Node)} {words words' : List (Lexeme Token)}

theorem nil : Starters src [] [] := ⟨nofun, rfl⟩

theorem eq_nil (h : Starters src [] words) : words = [] :=
  List.map_eq_nil_iff.1 h.start_eq.symm

/-- Names among nodes of two lists begin with the words of both. -/
theorem append (h : Starters src nodes words) (h' : Starters src nodes' words') :
    Starters src (nodes ++ nodes') (words ++ words') where
  isWord := List.forall_mem_append.2 ⟨h.isWord, h'.isWord⟩
  start_eq := by rw [namesIn_append, List.map_append, List.map_append, h.start_eq, h'.start_eq]

theorem map_role (h : Starters src nodes words) (r : Option Role) :
    Starters src (nodes.map fun p => (r, p.2)) words :=
  ⟨h.isWord, by rw [namesIn_map_role, h.start_eq]⟩

/-- A name begins before the names below it. -/
theorem name {k : Kind} {l : Lexeme Token} {r : Option Role} {t : String} (hk : k ∈ nameKinds)
    (hl : l.token.IsWord) (h : Starters src nodes words) :
    Starters src [(r, .mk k (src.place l.start) t nodes)] (l :: words) where
  isWord := List.forall_mem_cons.2 ⟨hl, h.isWord⟩
  start_eq := by
    rw [namesIn_singleton, if_pos hk, List.map_append, h.start_eq]
    rfl

/-- A node that is no name begins with no word of its own. -/
theorem other {k : Kind} {l : Location} {r : Option Role} {t : String} (hk : k ∉ nameKinds)
    (h : Starters src nodes words) : Starters src [(r, .mk k l t nodes)] words := by
  refine ⟨h.isWord, ?_⟩
  rw [namesIn_singleton, if_neg hk, List.nil_append, h.start_eq]

end Starters

/-! ## Names of growths -/

/-- In the rules of names in parentheses, what comes first is a mark and no node. -/
theorem tuple_firsts : ∀ p ∈ pythonGrammar.rules, p.1 ∈ tuplePhrases → p.2.nullable = false ∧
    ∀ x ∈ p.2.firsts [], Part.kind? x = none ∧ ∃ t ∈ x.1.token?, t.IsWord := by
  decide +kernel

/-- What a symbol grows to from tokens: the names among its nodes begin with some of these, and if it
stands for names in parentheses, with some of those after the first. -/
structure Named (src : Source) (s : Grammar.Symbol Token Phrase) (ls : List (Lexeme Token)) (g : Growth) :
    Prop where
  shown : g.shown = shownKind s.leaf
  names : ∃ words, Starters src g.below.reverse words ∧ words.Sublist ls
  token : ∀ t ∈ s.leaf.token?, ∃ l, ls = [l] ∧ l.token = t ∧ g = .ofToken l
  tuple : ∀ n ∈ s.leaf.phrase?, n ∈ tuplePhrases → ∃ first rest words, ls = first :: rest ∧
    first.token.IsWord ∧ g.start = first.start ∧ Starters src g.below.reverse words ∧ words.Sublist rest

variable {src : Source} {s : Grammar.Symbol Token Phrase}
  {steps : List (Step (Grammar.Symbol Token Phrase) Mark)} {ls : List (Lexeme Token)} {g : Growth}
  {parts : List (List Mark × Growth)}

/-- A token that stands by itself has no names below it. -/
theorem named_token (l : Lexeme Token) : Named src (.token l.token) [l] (.ofToken l) where
  shown := rfl
  names := ⟨[], .nil, List.nil_sublist [l]⟩
  token _ ht := ⟨l, rfl, Option.some.inj ht, rfl⟩
  tuple := nofun

/-- The names that a part puts among the nodes of the whole begin with some of its tokens. -/
theorem Named.nodes (hg : Named src s ls g) {marks : List Mark}
    (hnames : Part.NamesAreWords (s.leaf, marks)) :
    ∃ words, Starters src (g.nodes src marks).reverse words ∧ words.Sublist ls := by
  obtain ⟨words, hwords, hsub⟩ := hg.names
  rw [Growth.nodes_eq, hg.shown]
  rcases hkind : (kindMarked marks).or (shownKind s.leaf) with _ | k
  · dsimp only
    rcases roleMarked marks with _ | r
    · exact ⟨words, hwords, hsub⟩
    · refine ⟨words, ?_, hsub⟩
      dsimp only
      rw [← List.map_reverse]
      exact hwords.map_role (some r)
  · dsimp only
    rw [List.reverse_singleton]
    by_cases hname : k ∈ nameKinds
    · rcases hnames k hkind hname with ⟨t, ht, hword⟩ | ⟨n, hn, htuple⟩
      · obtain ⟨l, rfl, rfl, rfl⟩ := hg.token t ht
        exact ⟨[l], .name hname hword .nil, .refl _⟩
      · obtain ⟨first, rest, words, rfl, hword, hstart, hwords, hsub⟩ := hg.tuple n hn htuple
        rw [hstart]
        exact ⟨first :: words, hwords.name hname hword, hsub.cons_cons first⟩
    · exact ⟨words, hwords.other hname, hsub⟩

/-- A token that is no node puts nothing among the nodes of the whole. -/
theorem Named.nodes_eq_nil (hg : Named src s ls g) {marks : List Mark}
    (hkind : Part.kind? (s.leaf, marks) = none) {t : Token} (ht : t ∈ s.leaf.token?) :
    g.nodes src marks = [] := by
  obtain ⟨l, -, -, rfl⟩ := hg.token t ht
  have hkind : (kindMarked marks).or (shownKind s.leaf) = none := hkind
  rw [Growth.nodes_eq, hg.shown, hkind]
  dsimp only
  split <;> rfl

/-- A filler is a word if it is a name. -/
theorem names_of_filler (src : Source) (l : Lexeme Token) : ∃ words,
    Starters src ((Growth.ofToken l).nodes src []).reverse words ∧ words.Sublist [l] := by
  refine (named_token l).nodes fun k hk hname => ?_
  have hshown : shownKind (.token l.token) = some k := hk
  refine .inl ⟨l.token, rfl, ?_⟩
  cases htoken : l.token with
  | node k' =>
    rw [htoken] at hshown
    cases hshown
    exact List.mem_append_left _ hname
  | _ =>
    rw [htoken] at hshown
    cases hshown

/-- The names among the nodes of a phrase begin with some of its tokens, and not with the first of these
if that is no node. -/
theorem names_of_parts (hproduces : pythonGrammar.Produces s steps)
    (h : Parts (growth src) (Named src) steps ls parts) :
    ∃ words, Starters src (nodesInOrder src parts) words ∧ words.Sublist ls ∧
      ∀ t ∈ steps.head?, Part.kind? t.leaf = none → (∃ x ∈ t.symbol.leaf.token?, x.IsWord) →
        ∃ first rest, ls = first :: rest ∧ words.Sublist rest := by
  have hsensible : ∀ t ∈ steps, Sensible s.name? t.leaf := fun t ht => sensible_of_produces hproduces ht
  clear hproduces
  -- on the parts, with the last one split off
  induction h with
  | nil => exact ⟨[], .nil, .refl _, nofun⟩
  | @step steps ls ls' parts g before t reads ih =>
    obtain ⟨words, hwords, hsub, hrest⟩ := ih fun t ht => hsensible t (List.mem_append_left _ ht)
    obtain ⟨words', hwords', hsub'⟩ :=
      reads.nodes (hsensible t (List.mem_append_right _ List.mem_cons_self)).names
    have hnodes : nodesInOrder src (parts ++ [(t.marks, g)]) =
        nodesInOrder src parts ++ (g.nodes src t.marks).reverse := by
      rw [nodesInOrder, List.flatMap_append, List.flatMap_singleton]
      rfl
    refine ⟨words ++ words', hnodes ▸ hwords.append hwords', hsub.append hsub', fun t' ht' hkind hx => ?_⟩
    rcases steps with _ | ⟨t'', steps⟩
    · -- the first part: it is a token by itself, and puts no nodes there
      obtain ⟨rfl, rfl⟩ := before.eq_nil_of_nil
      cases ht'
      obtain ⟨x, hx, -⟩ := hx
      obtain ⟨l, rfl, -, -⟩ := reads.token x hx
      rw [reads.nodes_eq_nil hkind hx] at hwords'
      rw [hwords.eq_nil, hwords'.eq_nil]
      exact ⟨l, [], rfl, .refl _⟩
    · obtain ⟨first, rest, rfl, hlater⟩ := hrest t' ht' hkind hx
      exact ⟨first, rest ++ ls', rfl, hlater.append hsub'⟩
  | @filler steps ls parts before ne l ih =>
    obtain ⟨words, hwords, hsub, hrest⟩ := ih hsensible
    obtain ⟨words', hwords', hsub'⟩ := names_of_filler src l
    have hnodes : nodesInOrder src (parts ++ [([], (growth src).token l)]) =
        nodesInOrder src parts ++ ((Growth.ofToken l).nodes src []).reverse := by
      rw [nodesInOrder, List.flatMap_append, List.flatMap_singleton, growth_token]
      rfl
    refine ⟨words ++ words', hnodes ▸ hwords.append hwords', hsub.append hsub', fun t ht hkind hx => ?_⟩
    obtain ⟨first, rest, rfl, hlater⟩ := hrest t ht hkind hx
    exact ⟨first, rest ++ [l], rfl, hlater.append hsub'⟩

/-- A phrase grows from tokens so, if its parts do. -/
theorem named_phrase (hproduces : pythonGrammar.Produces s steps)
    (h : Parts (growth src) (Named src) steps ls parts) :
    Named src s ls ((growth src).phrase s.name? parts) := by
  have hshown : shownKind s.leaf = s.name?.bind fun n => shownKind (.phrase n) := by
    cases s with
    | token t => cases hproduces
    | phrase n => rfl
    | repetition place => rfl
  rw [growth_phrase, ← hshown]
  obtain ⟨words, hwords, hsub, hfirst⟩ := names_of_parts hproduces h
  rw [← reverse_below_ofParts src (shownKind s.leaf)] at hwords
  refine ⟨shown_ofParts src _ parts, ⟨words, hwords, hsub⟩, fun t ht => ?_, fun n hn htuple => ?_⟩
  · cases s with
    | token t => cases hproduces
    | phrase n => cases ht
    | repetition place => cases ht
  · cases s with
    | token t => cases hproduces
    | repetition place => cases hn
    | phrase n' =>
      cases hn
      obtain ⟨r, hr, -, hfirsts, hnone⟩ := hproduces.of_phrase
      obtain ⟨hnullable, hfirsts'⟩ := tuple_firsts (n, r) hr htuple
      -- it cannot be empty, and its first part is a word that makes no node
      have hne : steps ≠ [] := fun hnil => by
        have htrue := hnone hnil
        rw [hnullable] at htrue
        cases htrue
      obtain ⟨t, ht, v, ls₁, ls₂, after, hreads, hls, rfl⟩ := h.head_of_cons hne
      obtain ⟨hkind, x, hx, hword⟩ := hfirsts' t.leaf (hfirsts t ht)
      obtain ⟨first, rest, rfl, hlater⟩ := hfirst t ht hkind ⟨x, hx, hword⟩
      obtain ⟨l, rfl, rfl, rfl⟩ := hreads.token x hx
      cases hls
      exact ⟨_, _, words, rfl, hword, (ofParts_cons src _ t.marks _ after).1, hwords, hlater⟩

/-! ## Trees of sources -/

/-- Different characters of a source stand at different places. -/
theorem place_ne (text : List Char) {a b : Nat} (hlt : a < b) (hb : b < text.length) :
    (Source.ofList text).place a ≠ (Source.ofList text).place b := by
  have hb : b < (Text.locations text).length := by
    rw [Text.length_locations]
    omega
  have ha : a < (Text.locations text).length := Nat.lt_trans hlt hb
  have hat (i : Nat) (hi : i < (Text.locations text).length) :
      (Source.ofList text).place i = (Text.locations text)[i] := by
    simp [Source.place, Source.ofList, Array.getD, hi]
  rw [hat a ha, hat b hb]
  exact (List.pairwise_iff_getElem.1 (Text.pairwise_locations text) a b ha hb hlt).ne

/-- **Names begin at different places**, in every tree of a source. -/
theorem namesApart_of_parse {text : String} {tree : Node} (h : parse text = some tree) :
    tree.NamesApart := by
  simp only [parse, Option.bind_eq_bind, Option.bind_eq_some_iff] at h
  obtain ⟨g, hread, heq⟩ := h
  cases heq
  obtain ⟨before, ls, after, rest, hfinds, hreads⟩ :=
    Grammar.RuleSet.reads_of_read closed_pythonGrammar hread
  have hnamed : Named (Source.ofList text.toList) (.phrase (.node .program)) ls g :=
    hreads.induct (fun l => growth_token _ l ▸ named_token l)
      fun s steps ls parts hproduces hparts => named_phrase hproduces hparts
  obtain ⟨words, hwords, hsub⟩ := hnamed.names
  have hplaced := (placed_of_finds hfinds).2
  have hall : words.Sublist (before ++ ls ++ after) :=
    hsub.trans ((List.sublist_append_right before ls).trans (List.sublist_append_left _ after))
  have hapart : words.Pairwise fun a b =>
      (Source.ofList text.toList).place a.start ≠ (Source.ofList text.toList).place b.start := by
    refine (hplaced.ordered.sublist hall).imp_of_mem fun {a b} ha hb hle => ?_
    -- a word has characters, so where it stops is behind where it starts
    have hstop := (hplaced.word a (hall.subset ha) (hwords.isWord a ha)).1
    have hend := (hplaced.word b (hall.subset hb) (hwords.isWord b hb)).2
    exact place_ne text.toList (by omega) hend
  have hstarts : (namesIn g.below.reverse).Pairwise fun n m => n.start ≠ m.start := by
    rw [← List.pairwise_map, hwords.start_eq, List.pairwise_map]
    exact hapart
  have hprogram (l : Location) (t : String) :
      namesIn [(none, .mk .program l t g.below.reverse)] = namesIn g.below.reverse := by
    rw [namesIn_singleton, if_neg (by decide), List.nil_append]
  rw [← hprogram ((Source.ofList text.toList).place g.start) "", namesIn, List.flatMap_singleton,
    List.pairwise_filter] at hstarts
  simpa [Node.NamesApart] using hstarts

end PullGate.Python
