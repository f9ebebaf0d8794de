import Std.Data.HashMap
import PullGate.Grammar.Rule
/-!
# The automaton of a grammar

The states of a grammar's left-to-right automaton with one token of lookahead, each with what may
be done on each token. Where a state could both go on reading and close a phrase, or close two
phrases, the stronger binding wins, then the side on which equals group; what this leaves open
stays open, and a state then has several actions on one token.

A state is known by its kernel: the places in productions that reading has reached, each with the
tokens that may follow the production there.
-/

namespace PullGate.Grammar

open Std (HashMap)

/-! ## Numbered productions -/

/-- A symbol by number: tokens count from 1, number 0 being the end of the text, and heads are the
phrases followed by the repetitions. -/
inductive Code where
  | token (n : Nat)
  | head (n : Nat)
  deriving DecidableEq, Hashable

/-- A head and one flat sequence of what it is made of. -/
structure Production (μ : Type) where
  head : Nat
  steps : List (Step Code μ)
  weight : Int
  /-- Puts two runs of one repetition together. -/
  pairs : Bool

/-- A grammar with its symbols numbered. -/
structure Numbered (τ ν μ : Type) where
  tokens : Array τ
  phrases : Array ν
  /-- How many heads there are, the repetitions counted. -/
  heads : Nat
  productions : Array (Production μ)

/-- A numbering of the members of a list, in the order they first occur. -/
def numbering {α : Type} [BEq α] [Hashable α] (members : List α) : Array α × HashMap α Nat :=
  members.foldl (fun (all, number) a =>
    if number.contains a then (all, number) else (all.push a, number.insert a all.size))
    (#[], ∅)

variable {τ ν μ : Type} [DecidableEq τ] [DecidableEq ν] [DecidableEq μ]
  [Hashable τ] [Hashable ν] [Hashable μ]

/-- The flat sequences of a repetition: its body, or two runs of it. -/
def repetitionAlternatives (bodies : List (Rule τ ν μ)) (place : Nat)
    (body : Rule τ ν μ) : List (Bool × Alternative (Symbol τ ν) μ) :=
  let run : Step (Symbol τ ν) μ := ⟨.repetition place, .free, []⟩
  (true, ⟨[run, run], 0⟩) ::
    (body.alternatives bodies .free [] true).eraseDups.map fun a => (false, a)

/-- Numbers the symbols of a grammar and lists its productions. -/
def RuleSet.numbered (g : RuleSet τ ν μ) : Numbered τ ν μ :=
  let bodies := g.bodies
  let named := g.rules.map fun (n, r) => (n, (r.alternatives bodies .free [] true).eraseDups)
  let repeated := (bodies.zipIdx).map fun (b, place) => repetitionAlternatives bodies place b
  let everyStep := named.flatMap (·.2.flatMap (·.steps)) ++ repeated.flatMap (·.flatMap (·.2.steps))
  let (tokens, tokenNumber) := numbering (everyStep.filterMap fun s =>
    match s.symbol with | .token t => some t | _ => none)
  let (phrases, phraseNumber) := numbering (g.start :: g.rules.map (·.1))
  let code : Symbol τ ν → Code
    | .token t => .token (tokenNumber.getD t 0 + 1)
    | .phrase n => .head (phraseNumber.getD n 0)
    | .repetition place => .head (phrases.size + place)
  let production (head : Nat) (pairs : Bool) (a : Alternative (Symbol τ ν) μ) : Production μ :=
    ⟨head, a.steps.map fun s => ⟨code s.symbol, s.binding, s.marks⟩, a.weight, pairs⟩
  let ofPhrases := named.flatMap fun (n, alternatives) =>
    alternatives.map (production (phraseNumber.getD n 0) false)
  let ofRepetitions := (repeated.zipIdx).flatMap fun (alternatives, place) =>
    alternatives.map fun (pairs, a) => production (phrases.size + place) pairs a
  { tokens, phrases, heads := phrases.size + bodies.length,
    productions := (ofPhrases ++ ofRepetitions).toArray }

/-! ## Sets of tokens -/

/-- A set of token numbers, as the bits of a number. -/
abbrev TokenSet := Nat

namespace TokenSet

/-- The set of one token. -/
def single (token : Nat) : TokenSet := 1 <<< token

/-- Whether the token is in the set. -/
def has (s : TokenSet) (token : Nat) : Bool := s.testBit token

/-- The tokens of either set. -/
def union (a b : TokenSet) : TokenSet := a ||| b

end TokenSet

/-- For each head, the tokens that a phrase of it can begin with. No phrase but the start may be
empty, so the first step decides. -/
def firstTokens (productions : Array (Production μ)) (heads : Nat) : Array TokenSet := Id.run do
  let mut first : Array TokenSet := .replicate heads 0
  for _ in [0:heads] do
    let mut next := first
    for p in productions do
      let new := match p.steps with
        | [] => 0
        | s :: _ => match s.symbol with
          | .token t => TokenSet.single t
          | .head h => next.getD h 0
      next := next.modify p.head (TokenSet.union new)
    if next == first then break
    first := next
  return first

/-! ## Items -/

/-- A place in a production. What has been read matters only through its marks and the binding of
the last step, so productions that agree in these and in what is left share their items. -/
structure Item (μ : Type) where
  head : Nat
  pairs : Bool
  weight : Int
  done : List (List μ)
  binding : Binding
  left : List (Step Code μ)
  deriving DecidableEq, Hashable

/-- The item at the start of a production. -/
def Production.item (p : Production μ) : Item μ := ⟨p.head, p.pairs, p.weight, [], .free, p.steps⟩

/-- The item after one more step, if there is a step to take. -/
def Item.next? (i : Item μ) : Option (Item μ) :=
  match i.left with
  | [] => none
  | s :: rest => some { i with done := s.marks :: i.done, binding := s.binding, left := rest }

/-- An item and all that follow it in its production. -/
def Item.run (i : Item μ) : List (Item μ) :=
  go i.left.length i
where
  /-- The item and the given number of successors. -/
  go : Nat → Item μ → List (Item μ)
    | 0, i => [i]
    | n + 1, i => match i.next? with
      | none => [i]
      | some j => i :: go n j

/-! ## States -/

/-- The items of a state with the tokens that may follow, sorted by item. -/
abbrev Kernel := List (Nat × TokenSet)

/-- Adds an item to a kernel. -/
def Kernel.insert (item : Nat) (follow : TokenSet) : Kernel → Kernel
  | [] => [(item, follow)]
  | (i, s) :: rest =>
    if item < i then (item, follow) :: (i, s) :: rest
    else if item = i then (i, s.union follow) :: rest
    else (i, s) :: Kernel.insert item follow rest

/-- What to do on a token. -/
inductive Action where
  /-- Take the token and go to the state. -/
  | shift (state : Nat)
  /-- Close the phrase of this finished item. -/
  | reduce (item : Nat)
  | accept
  deriving DecidableEq, Hashable

/-- What the items of a grammar have in common for building its states. -/
structure Places (μ : Type) where
  items : Array (Item μ)
  /-- The item after the next step, by item. -/
  next : Array Nat
  /-- The tokens that a phrase of a head can begin with. -/
  first : Array TokenSet
  /-- The items that stand at the beginning of a head's phrases, of those their phrases begin with,
  and so on, with the tokens that may follow and whether what follows the head may too. -/
  openings : Array (Array (Nat × TokenSet × Bool))

variable (P : Places μ)

/-- The tokens that a symbol can begin with. -/
def Places.beginning : Code → TokenSet
  | .token t => .single t
  | .head h => P.first.getD h 0

/-- Token sets by item, and the items in the order they were added. -/
structure Spread where
  sets : Array TokenSet
  order : Array Nat

/-- Adds an item with tokens that may follow. -/
def Spread.add (s : Spread) (item : Nat) (follow : TokenSet) : Spread :=
  let old := s.sets.getD item 0
  ⟨s.sets.modify item (TokenSet.union follow), if old = 0 then s.order.push item else s.order⟩

/-- All items of a state: its kernel and the openings of the phrases that may come next. -/
def Places.close (kernel : Kernel) : Array (Nat × TokenSet) :=
  let start := kernel.foldl (fun s (i, follow) => s.add i follow)
    (⟨.replicate P.items.size 0, #[]⟩ : Spread)
  let all := kernel.foldl (fun s (i, follow) =>
    match P.items[i]? with
    | some ⟨_, _, _, _, _, step :: rest⟩ =>
      match step.symbol with
      | .token _ => s
      | .head h =>
        let after := match rest with
          | [] => follow
          | r :: _ => P.beginning r.symbol
        (P.openings.getD h #[]).foldl (fun s (j, tokens, through) =>
          s.add j (if through then tokens.union after else tokens)) s
    | _ => s) start
  all.order.map fun i => (i, all.sets.getD i 0)

/-- The kernels reached from a state's items, by the symbol read. -/
def Places.moves (closed : Array (Nat × TokenSet)) : HashMap Code Kernel :=
  closed.foldl (fun moves (i, follow) =>
    match P.items[i]? with
    | some ⟨_, _, _, _, _, step :: _⟩ =>
      moves.alter step.symbol fun k => some ((k.getD []).insert (P.next.getD i 0) follow)
    | _ => moves) ∅

/-- Whether an item's phrase is one of the grammar's repetitions. -/
def Item.isRepetition (phrases : Nat) (i : Item μ) : Bool := phrases ≤ i.head

/-- Of the finished items that may be closed on a token, those of the strongest binding. -/
def strongest (finished : List (Nat × Item μ)) : List (Nat × Item μ) :=
  finished.filter fun (_, i) => finished.all fun (_, j) => j.binding.strength ≤ i.binding.strength

/-- What to do on a token: `shift` is where taking it leads, `finished` the items that could be
closed on it, and `going` the items under way that could go on with it. -/
def resolve (phrases : Nat) (shift : Option Nat) (finished : List (Nat × Item μ))
    (going : List (Item μ)) : List Action :=
  let reduces := strongest finished
  let closing := reduces.map fun (n, _) => Action.reduce n
  match shift, reduces with
  | none, _ => closing
  | some s, [] => [.shift s]
  | some s, (_, r) :: _ =>
    let heads := going.map (·.head) ++ finished.map (·.2.head)
    if r.isRepetition phrases && heads.all (· == r.head) then closing
    else
      let level := r.binding.strength
      let more := going.any fun i => level < i.binding.strength
      let less := going.any fun i => i.binding.strength < level
      let sides := reduces.map (·.2.binding.side)
      if more && !less then [.shift s]
      else if less && !more then closing
      else if more then closing ++ [.shift s]
      else if sides.all (· == some .left) then closing
      else if sides.all (· == some .right) then [.shift s]
      else closing ++ [.shift s]

/-- One state: the actions by token and the states reached by closed phrases. -/
structure Row where
  actions : Array (List Action)
  gotos : Array Nat

/-- The states found so far; `rows` are those of the states already expanded. -/
structure Found where
  number : HashMap Kernel Nat
  kernels : Array Kernel
  rows : Array Row

/-- The number of the state with a kernel, a new one if need be. -/
def Found.state (f : Found) (k : Kernel) : Found × Nat :=
  match f.number[k]? with
  | some n => (f, n)
  | none =>
    let n := f.kernels.size
    ({ f with number := f.number.insert k n, kernels := f.kernels.push k }, n)

/-- The states that moves lead to, by token and by head. -/
def Found.move (tokens heads : Nat) (f : Found) (moves : Array (Code × Kernel)) :
    Found × Array (Option Nat) × Array Nat :=
  moves.foldl (fun (f, shifts, gotos) (code, next) =>
    let (f, n) := f.state next
    match code with
    | .token t => (f, shifts.setIfInBounds t (some n), gotos)
    | .head h => (f, shifts, gotos.setIfInBounds h n))
    (f, .replicate tokens none, .replicate heads 0)

/-- Of a state's items the finished ones, by the tokens they may be closed on, and those under way,
with the tokens they could go on with. -/
def Places.sort (tokens : Nat) (closed : Array (Nat × TokenSet)) :
    Array (List (Nat × Item μ)) × List (TokenSet × Item μ) :=
  closed.foldl (fun (finished, going) (n, follow) =>
    match P.items[n]? with
    | none => (finished, going)
    | some i =>
      match i.left with
      | [] =>
        (finished.mapIdx fun t ends => if follow.has t then (n, i) :: ends else ends, going)
      | s :: _ =>
        (finished, if i.done ≠ [] then (P.beginning s.symbol, i) :: going else going))
    (.replicate tokens [], [])

/-- What to do on each token. The item `last` is the whole text read. -/
def settle (tokens phrases last : Nat) (shifts : Array (Option Nat))
    (finished : Array (List (Nat × Item μ))) (going : List (TokenSet × Item μ)) :
    Array (List Action) :=
  (Array.range tokens).map fun t =>
    let ends := (finished.getD t []).reverse
    let underWay := if ends.isEmpty then [] else
      going.filterMap fun (tokens, i) => if tokens.has t then some i else none
    (resolve phrases (shifts.getD t none) ends underWay).map
      fun a => if a = .reduce last then .accept else a

/-- Expands a state: closes its kernel and settles what to do on each token. -/
def Places.expand (tokens phrases heads last : Nat) (f : Found) (kernel : Kernel) : Found :=
  let closed := P.close kernel
  let (f, shifts, gotos) := f.move tokens heads (P.moves closed).toArray
  let (finished, going) := P.sort tokens closed
  { f with rows := f.rows.push ⟨settle tokens phrases last shifts finished going, gotos⟩ }

/-- Expands states until all that were found are expanded; at most `limit` of them. -/
def Places.explore (tokens phrases heads last : Nat) : (limit : Nat) → Found → Found
  | 0, f => f
  | limit + 1, f =>
    match f.kernels[f.rows.size]? with
    | none => f
    | some kernel =>
      Places.explore tokens phrases heads last limit (P.expand tokens phrases heads last f kernel)

/-! ## The automaton -/

/-- The heads that a phrase of head `h` can begin with, each with the tokens that may follow it and
whether what follows `h` may too. -/
def reachableHeads (productions : Array (List (Production μ))) (first : Array TokenSet)
    (h : Nat) : HashMap Nat (TokenSet × Bool) := Id.run do
  let mut found : HashMap Nat (TokenSet × Bool) := HashMap.emptyWithCapacity.insert h (0, true)
  for _ in [0:productions.size + 1] do
    let mut changed := false
    for (m, follow, through) in found.toArray do
      for p in productions.getD m [] do
        match p.steps with
        | [] => pure ()
        | s :: rest => match s.symbol with
          | .token _ => pure ()
          | .head k =>
            let (new, pass) := match rest with
              | [] => (follow, through)
              | r :: _ => (match r.symbol with
                | .token t => TokenSet.single t
                | .head j => first.getD j 0, false)
            let old := found[k]?
            let merged := match old with
              | none => (new, pass)
              | some (f, t) => (f.union new, t || pass)
            unless old == some merged do
              found := found.insert k merged
              changed := true
    unless changed do break
  return found

/-- A grammar's automaton. Tokens are known by number, 0 being the end of the text. -/
structure Automaton (τ ν μ : Type) where
  tokens : Array τ
  number : τ → Option Nat
  phrases : Array ν
  items : Array (Item μ)
  rows : Array Row

/-- More states than the automaton of any grammar in this library has. -/
def stateLimit : Nat := 65536

/-- The automaton of a grammar. -/
def RuleSet.automaton (g : RuleSet τ ν μ) : Automaton τ ν μ :=
  let n := g.numbered
  let top : Production μ := ⟨n.heads, [⟨.head 0, .free, []⟩], 0, false⟩
  let productions := n.productions.push top
  let heads := n.heads + 1
  let tokens := n.tokens.size + 1
  let (items, itemNumber) := numbering (productions.toList.flatMap fun p => p.item.run)
  let numberOf (i : Item μ) : Nat := itemNumber.getD i 0
  let first := firstTokens productions heads
  let byHead := productions.foldl (fun all p => all.modify p.head (p :: ·))
    (.replicate heads ([] : List (Production μ)))
  let openings := (Array.range heads).map fun h =>
    (reachableHeads byHead first h).toArray.flatMap fun (m, follow, through) =>
      ((byHead.getD m []).map fun p => (numberOf p.item, follow, through)).toArray
  let places : Places μ :=
    { items, next := items.map fun i => (i.next?.map numberOf).getD 0, first, openings }
  let start := numberOf top.item
  let last := places.next.getD start 0
  let found := places.explore tokens n.phrases.size heads last stateLimit
    ((⟨∅, #[], #[]⟩ : Found).state [(start, .single 0)]).1
  let tokenNumber := (numbering n.tokens.toList).2
  { tokens := n.tokens, number := fun t => (tokenNumber.get? t).map (· + 1),
    phrases := n.phrases, items, rows := found.rows }

end PullGate.Grammar
