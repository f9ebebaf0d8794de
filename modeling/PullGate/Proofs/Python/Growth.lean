import PullGate.Proofs.Grammar.Leaves
import PullGate.Python.Parse
/-!
# How trees grow from the grammar

What a part puts among the nodes of the whole is told by its leaf in the rules: the kind of its node, if
it is one, and its role. What holds of the leaves of all rules is read off the grammar
(`sensible_leaves`), and so holds of all steps of a phrase (`sensible_of_produces`).
-/

namespace PullGate.Python

open PullGate.Grammar (Leaf Lexeme Step)

/-! ## Leaves of the grammar -/

/-- The role that marks give a part. -/
def roleMarked (marks : List Mark) : Option Role :=
  marks.findSome? fun | .role r => some r | _ => none

/-- The kind that marks give a part. -/
def kindMarked (marks : List Mark) : Option Kind :=
  marks.findSome? fun | .kind k => some k | _ => none

/-- The kind of node that a token or a phrase is. -/
def shownKind : Leaf Token Phrase → Option Kind
  | .token (.node k) | .phrase (.node k) => some k
  | _ => none

/-- A part in a rule: what it is, and the marks around it. -/
abbrev Part := Leaf Token Phrase × List Mark

/-- The kind of the node that a part is. -/
def Part.kind? (x : Part) : Option Kind := (kindMarked x.2).or (shownKind x.1)

/-- The kinds of nodes in which a name or parameters are looked for. -/
def namingKinds : List Kind :=
  [.functionDefinition, .lambda, .defaultParameter, .typedDefaultParameter, .typedParameter]

/-- The kinds of nodes that stand where a name is. -/
def nameKinds : List Kind := [.identifier, .tuplePattern]

/-- The phrases of names in parentheses. -/
def tuplePhrases : List Phrase := [.node .tuplePattern, .tupleCasePattern]

/-- A token that a name may begin with, or that may be read as a name: a word or a mark. -/
def Token.IsWord : Token → Prop
  | .literal _ => True
  | .node k => k ∈ nameKinds ++ [.trueLiteral, .falseLiteral, .noneLiteral]
  | .newline | .indent | .dedent | .plainText | .loneBackslash | .formatText => False

instance : DecidablePred Token.IsWord
  | .literal _ => inferInstanceAs (Decidable True)
  | .node k =>
    inferInstanceAs (Decidable (k ∈ nameKinds ++ [Kind.trueLiteral, .falseLiteral, .noneLiteral]))
  | .newline | .indent | .dedent | .plainText | .loneBackslash | .formatText =>
    inferInstanceAs (Decidable False)

/-- If the part is a name, it is a word, or names in parentheses. -/
def Part.NamesAreWords (x : Part) : Prop := ∀ k ∈ x.kind?, k ∈ nameKinds →
  (∃ t ∈ x.1.token?, t.IsWord) ∨ ∃ n ∈ x.1.phrase?, n ∈ tuplePhrases

instance : DecidablePred Part.NamesAreWords := fun x =>
  inferInstanceAs (Decidable (∀ k ∈ x.kind?, k ∈ nameKinds →
    (∃ t ∈ x.1.token?, t.IsWord) ∨ ∃ n ∈ x.1.phrase?, n ∈ tuplePhrases))

/-- What holds of the parts of a phrase, or of a repetition, which has no name: phrases have rules, and
no literal is empty; what is no node has no parts with roles; of the kinds in which names are looked for
only a lambda within a clause is marked; and names are words. -/
structure Sensible (owner : Option Phrase) (x : Part) : Prop where
  closed : ∀ n ∈ x.1.phrase?, n ∈ pythonGrammar.rules.map (·.1)
  literals : ∀ t ∈ x.1.token?, t ≠ .literal ""
  roles : owner.bind (fun n => shownKind (.phrase n)) = none → roleMarked x.2 = none
  kinds : ∀ k ∈ kindMarked x.2, k ∈ namingKinds →
    k = .lambda ∧ x.1 = .phrase (.node .lambdaWithinForInClause)
  names : x.NamesAreWords

instance (owner : Option Phrase) (x : Part) : Decidable (Sensible owner x) :=
  decidable_of_iff (_ ∧ _ ∧ _ ∧ _ ∧ _)
    ⟨fun ⟨a, b, c, d, e⟩ => ⟨a, b, c, d, e⟩, fun ⟨a, b, c, d, e⟩ => ⟨a, b, c, d, e⟩⟩

/-- All parts of all rules are sensible. -/
theorem sensible_leaves : ∀ p ∈ pythonGrammar.rules, (∀ x ∈ p.2.leaves [], Sensible (some p.1) x) ∧
    ∀ body ∈ p.2.repetitions, ∀ x ∈ body.leaves [], Sensible none x := by
  decide +kernel

/-- The steps of phrases and repetitions are sensible. -/
theorem sensible_of_produces {s : Grammar.Symbol Token Phrase}
    {steps : List (Step (Grammar.Symbol Token Phrase) Mark)} (h : pythonGrammar.Produces s steps)
    {t : Step (Grammar.Symbol Token Phrase) Mark} (ht : t ∈ steps) : Sensible s.name? t.leaf := by
  cases s with
  | token x => cases h
  | phrase n =>
    obtain ⟨r, hr, hleaves, -, -⟩ := h.of_phrase
    exact (sensible_leaves (n, r) hr).1 _ (hleaves t ht)
  | repetition place =>
    rcases h.of_repetition ht with hrepetition | ⟨p, hp, body, hbody, hleaf⟩
    · have hnone : Sensible none (.repetition, []) := by decide
      rw [hrepetition]
      exact hnone
    · exact (sensible_leaves p hp).2 body hbody _ hleaf

/-- Every phrase that a rule speaks of has a rule. -/
theorem closed_pythonGrammar : pythonGrammar.Closed := by
  intro s steps h t ht n hn
  refine (sensible_of_produces h ht).closed n ?_
  rw [Step.leaf, hn]
  rfl

/-! ## Nodes of a growth -/

/-- The growth of a token. -/
def Growth.ofToken (l : Lexeme Token) : Growth := ⟨l.start, l.stop, shownKind (.token l.token), []⟩

theorem growth_token (s : Source) (l : Lexeme Token) : (growth s).token l = .ofToken l := by
  rcases l with ⟨t, start, stop⟩
  cases t <;> rfl

/-- A phrase grows to its parts, shown as its kind if it is a node. -/
theorem growth_phrase (s : Source) (name : Option Phrase) (parts : List (List Mark × Growth)) :
    (growth s).phrase name parts =
      .ofParts s (name.bind fun n => shownKind (.phrase n)) parts := by
  rcases name with _ | n
  · rfl
  · cases n <;> rfl

/-- The text that a node of a kind keeps. -/
def Growth.textOf (s : Source) (g : Growth) (k : Kind) : String :=
  if k.keepsText then s.between g.start g.stop else ""

/-- A part puts one node among those of the whole if it is one, and otherwise its own. -/
theorem Growth.nodes_eq (s : Source) (marks : List Mark) (g : Growth) : g.nodes s marks =
    match (kindMarked marks).or g.shown with
    | some k => [(roleMarked marks, .mk k (s.place g.start) (g.textOf s k) g.below.reverse)]
    | none => match roleMarked marks with
      | some r => g.below.map fun (_, n) => (some r, n)
      | none => g.below := rfl

/-- The nodes of parts in the order of the text. -/
def nodesInOrder (s : Source) (parts : List (List Mark × Growth)) : List (Option Role × Node) :=
  parts.flatMap fun p => (p.2.nodes s p.1).reverse

/-- A whole begins where its first part does, and its nodes are those of its parts. -/
theorem ofParts_cons (s : Source) (shown : Option Kind) (marks : List Mark) (first : Growth)
    (rest : List (List Mark × Growth)) :
    let whole := Growth.ofParts s shown ((marks, first) :: rest)
    whole.start = first.start ∧ whole.shown = shown ∧
      whole.below.reverse = nodesInOrder s ((marks, first) :: rest) := by
  have hfold (whole : Growth) : ∀ rest : List (List Mark × Growth),
      let all := rest.foldl (fun whole p =>
        { whole with stop := p.2.stop, below := p.2.nodes s p.1 ++ whole.below }) whole
      all.start = whole.start ∧ all.shown = whole.shown ∧
        all.below.reverse = whole.below.reverse ++ nodesInOrder s rest := by
    intro rest
    induction rest generalizing whole with
    | nil => exact ⟨rfl, rfl, (List.append_nil _).symm⟩
    | cons p rest ih =>
      obtain ⟨hstart, hshown, hbelow⟩ :=
        ih { whole with stop := p.2.stop, below := p.2.nodes s p.1 ++ whole.below }
      refine ⟨hstart, hshown, ?_⟩
      rw [List.foldl_cons]
      refine hbelow.trans ?_
      rw [List.reverse_append, List.append_assoc]
      rfl
  exact hfold _ rest

/-- The nodes of a whole are those of its parts. -/
theorem reverse_below_ofParts (s : Source) (shown : Option Kind) (parts : List (List Mark × Growth)) :
    (Growth.ofParts s shown parts).below.reverse = nodesInOrder s parts := by
  rcases parts with _ | ⟨⟨marks, first⟩, rest⟩
  · rfl
  · exact (ofParts_cons s shown marks first rest).2.2

/-- A whole is shown as it was told to be. -/
theorem shown_ofParts (s : Source) (shown : Option Kind) (parts : List (List Mark × Growth)) :
    (Growth.ofParts s shown parts).shown = shown := by
  rcases parts with _ | ⟨⟨marks, first⟩, rest⟩
  · rfl
  · exact (ofParts_cons s shown marks first rest).2.1

end PullGate.Python
