import PullGate.Proofs.Grammar.Reading
/-!
# Leaves of a rule

The flat sequences of a rule are made of its tokens, phrases and repetitions, each with the marks around
it. So what holds of all of these, or of those that can come first, holds of the steps of a phrase, and
no rule has to be unfolded for it.
-/

namespace PullGate.Grammar

variable {τ ν μ : Type}

/-- A token, a phrase or a repetition of a rule. -/
inductive Leaf (τ ν : Type) where
  | token (t : τ)
  | phrase (n : ν)
  | repetition
  deriving DecidableEq

/-- The token, if it is one. -/
def Leaf.token? : Leaf τ ν → Option τ
  | .token t => some t
  | .phrase _ | .repetition => none

/-- The phrase, if it is one. -/
def Leaf.phrase? : Leaf τ ν → Option ν
  | .phrase n => some n
  | .token _ | .repetition => none

/-- What a symbol is in a rule. -/
def Symbol.leaf : Symbol τ ν → Leaf τ ν
  | .token t => .token t
  | .phrase n => .phrase n
  | .repetition _ => .repetition

/-- What a step is in a rule, with the marks around it. -/
def Step.leaf (s : Step (Symbol τ ν) μ) : Leaf τ ν × List μ := (s.symbol.leaf, s.marks)

namespace Rule

/-- The leaves of a rule that stands within marks. -/
def leaves (marks : List μ) : Rule τ ν μ → List (Leaf τ ν × List μ)
  | .empty => []
  | .token t => [(.token t, marks)]
  | .phrase n => [(.phrase n, marks)]
  | .many1 _ => [(.repetition, marks)]
  | .seq a b | .either a b => a.leaves marks ++ b.leaves marks
  | .bind _ _ body | .weigh _ body => body.leaves marks
  | .mark m body => body.leaves (m :: marks)

/-- Whether a rule may stand for nothing. -/
def nullable : Rule τ ν μ → Bool
  | .empty => true
  | .token _ | .phrase _ | .many1 _ => false
  | .seq a b => a.nullable && b.nullable
  | .either a b => a.nullable || b.nullable
  | .bind _ _ body | .weigh _ body | .mark _ body => body.nullable

/-- The leaves that can come first. -/
def firsts (marks : List μ) : Rule τ ν μ → List (Leaf τ ν × List μ)
  | .empty => []
  | .token t => [(.token t, marks)]
  | .phrase n => [(.phrase n, marks)]
  | .many1 _ => [(.repetition, marks)]
  | .seq a b => a.firsts marks ++ if a.nullable then b.firsts marks else []
  | .either a b => a.firsts marks ++ b.firsts marks
  | .bind _ _ body | .weigh _ body => body.firsts marks
  | .mark m body => body.firsts (m :: marks)

end Rule

/-- Another binding of the last step changes no leaves. -/
theorem Alternative.map_leaf_release (outside : Binding) (side : Option Side)
    (a : Alternative (Symbol τ ν) μ) : (a.release outside side).steps.map Step.leaf = a.steps.map Step.leaf := by
  unfold release
  split
  · rfl
  · rename_i s before hsteps
    have hall : a.steps = before.reverse ++ [s] := by
      rw [← List.reverse_reverse a.steps, hsteps, List.reverse_cons]
    dsimp only
    rw [List.reverse_cons, hall, List.map_append, List.map_append]
    rfl

/-- A flat sequence has leaves of a rule, begins with one that can come first, and is empty only if the
rule may stand for nothing. -/
structure Alternative.Within (r : Rule τ ν μ) (marks : List μ) (a : Alternative (Symbol τ ν) μ) : Prop where
  leaves : ∀ x ∈ a.steps.map Step.leaf, x ∈ r.leaves marks
  first : ∀ x ∈ (a.steps.map Step.leaf).head?, x ∈ r.firsts marks
  nullable : a.steps = [] → r.nullable = true

namespace Alternative.Within

variable {r r' : Rule τ ν μ} {marks : List μ} {a b : Alternative (Symbol τ ν) μ}

/-- Sequences of two rules one after another are within both together. -/
theorem append (h : Within r marks a) (h' : Within r' marks b) :
    Within (.seq r r') marks (a.append b) where
  leaves x hx := by
    rw [Alternative.append, List.map_append] at hx
    rcases List.mem_append.1 hx with hx | hx
    · exact List.mem_append_left _ (h.leaves x hx)
    · exact List.mem_append_right _ (h'.leaves x hx)
  first x hx := by
    -- the second sequence comes first only where the first one is empty
    rw [Alternative.append, List.map_append] at hx
    rcases hsteps : a.steps with _ | ⟨s, steps⟩
    · rw [hsteps] at hx
      refine List.mem_append_right _ ?_
      rw [if_pos (h.nullable hsteps)]
      exact h'.first x hx
    · have hfirst := h.first x
      rw [hsteps] at hx hfirst
      exact List.mem_append_left _ (hfirst hx)
  nullable hnil := by
    obtain ⟨ha, hb⟩ := List.append_eq_nil_iff.1 hnil
    exact Bool.and_eq_true_iff.2 ⟨h.nullable ha, h'.nullable hb⟩

/-- A sequence of the first of two rules is within either. -/
theorem left (h : Within r marks a) (r' : Rule τ ν μ) : Within (.either r r') marks a where
  leaves x hx := List.mem_append_left _ (h.leaves x hx)
  first x hx := List.mem_append_left _ (h.first x hx)
  nullable hnil := Bool.or_eq_true_iff.2 (.inl (h.nullable hnil))

/-- A sequence of the second of two rules is within either. -/
theorem right (h : Within r' marks a) (r : Rule τ ν μ) : Within (.either r r') marks a where
  leaves x hx := List.mem_append_right _ (h.leaves x hx)
  first x hx := List.mem_append_right _ (h.first x hx)
  nullable hnil := Bool.or_eq_true_iff.2 (.inr (h.nullable hnil))

/-- Binding decides on readings and not on leaves. -/
theorem release (h : Within r marks a) (outside : Binding) (side : Option Side) :
    Within r marks (a.release outside side) where
  leaves := by
    rw [map_leaf_release]
    exact h.leaves
  first := by
    rw [map_leaf_release]
    exact h.first
  nullable hnil := by
    have hleaves := congrArg (List.map Step.leaf) hnil
    rw [map_leaf_release] at hleaves
    exact h.nullable (List.map_eq_nil_iff.1 hleaves)

end Alternative.Within

variable [DecidableEq τ] [DecidableEq ν] [DecidableEq μ]

/-- The flat sequences of a rule are made of the rule's leaves. -/
theorem Rule.within_of_mem_alternatives (bodies : List (Rule τ ν μ)) (r : Rule τ ν μ) {binding : Binding}
    {marks : List μ} {last : Bool} {a : Alternative (Symbol τ ν) μ}
    (ha : a ∈ r.alternatives bodies binding marks last) : a.Within r marks := by
  induction r generalizing binding marks last a with
  | empty =>
    rw [List.mem_singleton.1 ha]
    constructor <;> simp [Alternative.none, nullable]
  | token t | phrase n | many1 body =>
    rw [List.mem_singleton.1 ha]
    constructor <;> simp [Alternative.one, leaves, firsts, Step.leaf, Symbol.leaf]
  | seq r r' ih ih' =>
    obtain ⟨b, hb, ha⟩ := List.mem_flatMap.1 ha
    obtain ⟨c, hc, rfl⟩ := List.mem_map.1 ha
    exact (ih hb).append (ih' hc)
  | either r r' ih ih' =>
    rcases List.mem_append.1 ha with ha | ha
    · exact (ih ha).left r'
    · exact (ih' ha).right r
  | bind level side body ih =>
    rw [alternatives] at ha
    split at ha
    · have hbody := ih ha
      exact ⟨hbody.leaves, hbody.first, hbody.nullable⟩
    · obtain ⟨b, hb, rfl⟩ := List.mem_map.1 ha
      have hbody := (ih hb).release binding side
      exact ⟨hbody.leaves, hbody.first, hbody.nullable⟩
  | weigh w body ih =>
    obtain ⟨b, hb, rfl⟩ := List.mem_map.1 ha
    have hbody := ih hb
    exact ⟨hbody.leaves, hbody.first, hbody.nullable⟩
  | mark m body ih =>
    have hbody := ih ha
    exact ⟨hbody.leaves, hbody.first, hbody.nullable⟩

namespace RuleSet

variable {g : RuleSet τ ν μ}

/-- The bodies of the repetitions of all rules. -/
theorem mem_bodies {body : Rule τ ν μ} (h : body ∈ g.bodies) : ∃ p ∈ g.rules, body ∈ p.2.repetitions :=
  List.mem_flatMap.1 (List.mem_eraseDups.1 h)

/-- The flat sequences of a phrase have leaves of its rule. -/
theorem Produces.of_phrase {n : ν} {steps : List (Step (Symbol τ ν) μ)} (h : g.Produces (.phrase n) steps) :
    ∃ r, (n, r) ∈ g.rules ∧ (∀ s ∈ steps, s.leaf ∈ r.leaves []) ∧
      (∀ s ∈ steps.head?, s.leaf ∈ r.firsts []) ∧ (steps = [] → r.nullable = true) := by
  cases h with
  | @phrase n r a rule alternative =>
    have hwithin := r.within_of_mem_alternatives g.bodies (List.mem_eraseDups.1 alternative)
    refine ⟨r, rule, fun s hs => hwithin.leaves _ (List.mem_map_of_mem hs),
      fun s hs => hwithin.first _ ?_, hwithin.nullable⟩
    rw [List.head?_map, hs]
    rfl

/-- Those of a repetition have leaves of its body, or are repetitions with no marks. -/
theorem Produces.of_repetition {place : Nat} {steps : List (Step (Symbol τ ν) μ)}
    (h : g.Produces (.repetition place) steps) {s : Step (Symbol τ ν) μ} (hs : s ∈ steps) :
    s.leaf = (.repetition, []) ∨ ∃ p ∈ g.rules, ∃ body ∈ p.2.repetitions, s.leaf ∈ body.leaves [] := by
  cases h with
  | @body _ r a body alternative =>
    right
    obtain ⟨p, hp, hr⟩ := mem_bodies (List.mem_of_getElem? body)
    have hwithin := r.within_of_mem_alternatives g.bodies (List.mem_eraseDups.1 alternative)
    exact ⟨p, hp, r, hr, hwithin.leaves _ (List.mem_map_of_mem hs)⟩
  | pair =>
    left
    simp only [List.mem_cons, List.not_mem_nil, or_false, or_self] at hs
    rw [hs]
    rfl

end RuleSet

end PullGate.Grammar
