/-!
# Grammar rules

What a phrase is made of, as data. A rule is built from tokens `τ`, phrases `ν` and marks `μ`
that a tree keeps on the parts of a phrase. Bindings say which of two readings wins where a
phrase could both end and go on; weights choose between readings that are both kept.

`Rule.alternatives` unfolds a rule into the flat sequences of steps it stands for.
-/

namespace PullGate.Grammar

/-! ## Rules -/

/-- The side on which a chain of equally strong operators groups. -/
inductive Side where
  | left
  | right
  deriving DecidableEq, Hashable, Repr

/-- What a phrase is made of. -/
inductive Rule (τ ν μ : Type) where
  /-- Nothing at all. -/
  | empty
  | token (t : τ)
  | phrase (n : ν)
  | seq (first rest : Rule τ ν μ)
  | either (first second : Rule τ ν μ)
  /-- The body once or more. -/
  | many1 (body : Rule τ ν μ)
  /-- How strongly the body holds together, and on which side a chain of it groups. -/
  | bind (level : Int) (side : Option Side) (body : Rule τ ν μ)
  /-- How much a reading gains by this phrase against another reading of the same text. -/
  | weigh (weight : Int) (body : Rule τ ν μ)
  | mark (m : μ) (body : Rule τ ν μ)
  deriving DecidableEq

variable {τ ν μ : Type}

namespace Rule

/-- The rules one after another. -/
def sequence : List (Rule τ ν μ) → Rule τ ν μ
  | [] => empty
  | [r] => r
  | r :: rs => seq r (sequence rs)

/-- Any one of the rules. -/
def oneOf : List (Rule τ ν μ) → Rule τ ν μ
  | [] => empty
  | [r] => r
  | r :: rs => either r (oneOf rs)

/-- The body or nothing. -/
def optional (body : Rule τ ν μ) : Rule τ ν μ := either body empty

/-- The body any number of times. -/
def many (body : Rule τ ν μ) : Rule τ ν μ := optional (many1 body)

/-- The body once or more, with a separator between. -/
def sepBy1 (separator body : Rule τ ν μ) : Rule τ ν μ := seq body (many (seq separator body))

/-- The bodies of all repetitions inside a rule, inner ones too. -/
def repetitions : Rule τ ν μ → List (Rule τ ν μ)
  | empty | token _ | phrase _ => []
  | seq a b | either a b => a.repetitions ++ b.repetitions
  | many1 body => body :: body.repetitions
  | bind _ _ body | weigh _ body | mark _ body => body.repetitions

end Rule

/-! ## Steps -/

/-- What one step of a flat sequence reads: a token, a phrase, or one of the grammar's repetitions,
which are known by the place of their body in a list. -/
inductive Symbol (τ ν : Type) where
  | token (t : τ)
  | phrase (n : ν)
  | repetition (place : Nat)
  deriving DecidableEq, Hashable

/-- The strength that holds at a place of a rule; an absent level counts as zero. -/
structure Binding where
  level : Option Int
  side : Option Side
  deriving DecidableEq, Hashable

/-- No strength given. -/
def Binding.free : Binding := ⟨none, none⟩

/-- The level that two bindings are compared by. -/
def Binding.strength (b : Binding) : Int := b.level.getD 0

/-- One part of a flat sequence; its marks are innermost first. -/
structure Step (σ μ : Type) where
  symbol : σ
  binding : Binding
  marks : List μ
  deriving DecidableEq, Hashable

/-- A flat sequence of steps and its weight. -/
structure Alternative (σ μ : Type) where
  steps : List (Step σ μ)
  weight : Int
  deriving DecidableEq

namespace Alternative

variable {σ : Type}

/-- The alternative with nothing in it. -/
def none : Alternative σ μ := ⟨[], 0⟩

/-- The alternative of one step. -/
def one (s : Step σ μ) : Alternative σ μ := ⟨[s], 0⟩

/-- The weight further from zero; the first where both are equally far. -/
def heavier (a b : Int) : Int := if b.natAbs > a.natAbs then b else a

/-- One alternative after another. -/
def append (a b : Alternative σ μ) : Alternative σ μ := ⟨a.steps ++ b.steps, heavier a.weight b.weight⟩

/-- The alternative with at least this weight. -/
def weighted (w : Int) (a : Alternative σ μ) : Alternative σ μ := ⟨a.steps, heavier w a.weight⟩

/-- Gives the last step back the binding that held outside; a side that was not set inside stays. -/
def release (outside : Binding) (side : Option Side) (a : Alternative σ μ) : Alternative σ μ :=
  match a.steps.reverse with
  | [] => a
  | s :: before =>
    let binding := ⟨outside.level, if side.isSome then outside.side else s.binding.side⟩
    ⟨(({ s with binding } : Step σ μ) :: before).reverse, a.weight⟩

end Alternative

/-- The flat sequences a rule stands for. `bodies` lists the grammar's repetitions, `binding` and
`marks` hold around the rule, and `last` says that nothing of the enclosing phrase follows: the
binding of an inner rule reaches beyond it only there. -/
def Rule.alternatives [DecidableEq τ] [DecidableEq ν] [DecidableEq μ]
    (bodies : List (Rule τ ν μ)) (binding : Binding) (marks : List μ) (last : Bool) :
    Rule τ ν μ → List (Alternative (Symbol τ ν) μ)
  | .empty => [.none]
  | .token t => [.one ⟨.token t, binding, marks⟩]
  | .phrase n => [.one ⟨.phrase n, binding, marks⟩]
  | .many1 body => [.one ⟨.repetition (bodies.idxOf body), binding, marks⟩]
  | .seq a b =>
    (a.alternatives bodies binding marks false).flatMap fun x =>
      (b.alternatives bodies binding marks last).map x.append
  | .either a b =>
    a.alternatives bodies binding marks last ++ b.alternatives bodies binding marks last
  | .bind level side body =>
    let inside : Binding := ⟨some level, side.or binding.side⟩
    let found := body.alternatives bodies inside marks last
    if last then found else found.map (Alternative.release binding side)
  | .weigh w body => (body.alternatives bodies binding marks last).map (Alternative.weighted w)
  | .mark m body => body.alternatives bodies binding (m :: marks) last

/-! ## Grammars -/

/-- A grammar: where reading starts, and the rule of each phrase. -/
structure RuleSet (τ ν μ : Type) where
  start : ν
  rules : List (ν × Rule τ ν μ)

variable [DecidableEq τ] [DecidableEq ν] [DecidableEq μ]

/-- The bodies of the grammar's repetitions, each once. -/
def RuleSet.bodies (g : RuleSet τ ν μ) : List (Rule τ ν μ) :=
  (g.rules.flatMap fun r => r.2.repetitions).eraseDups

/-- The flat sequences of a rule of the grammar. -/
def RuleSet.unfold (g : RuleSet τ ν μ) (r : Rule τ ν μ) : List (Alternative (Symbol τ ν) μ) :=
  (r.alternatives g.bodies .free [] true).eraseDups

end PullGate.Grammar
