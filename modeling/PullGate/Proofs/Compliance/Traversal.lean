import Mathlib.Data.Prod.Lex
import PullGate.Compliance.Analysis
/-!
# The way through a tree

The nodes of a tree are known by their addresses: the places among the children on the way from the
root. The walk through a tree comes to every address once, in the order of addresses
(`Node.pairwise_positions`, `Node.mem_positions`). A turn of the walk takes a node off the stack, and
what is found on the way is what the tree's recursion finds (`Survey.run_start`). It is listed by place
and rule, and otherwise in the order of the walk (`Violation.filter_sorted`).
-/

namespace PullGate

/-! ## Addresses -/

namespace Python.Node

/-- The node that is reached from a node by going from child to child. -/
def at? : Node → List Nat → Option Node
  | n, [] => some n
  | n, i :: address => n.children[i]?.bind fun c => c.at? address

mutual

/-- All nodes of a tree with their addresses, in the order of the text, parents first. -/
def positions : Node → List (List Nat × Node)
  | mk k l t cs => ([], mk k l t cs) :: positionsOfParts 0 cs

/-- All nodes of a list of children; the first of these is so far down the list of all children. -/
def positionsOfParts : Nat → List (Option Role × Node) → List (List Nat × Node)
  | _, [] => []
  | i, (_, n) :: rest =>
    (positions n).map (fun x => (i :: x.1, x.2)) ++ positionsOfParts (i + 1) rest

end

mutual

/-- The nodes with their addresses are all nodes, in the order of the text. -/
theorem map_snd_positions : ∀ n : Node, n.positions.map (·.2) = n.preorder
  | mk k l t cs => by
    rw [positions, preorder, List.map_cons, map_snd_positionsOfParts 0 cs]

theorem map_snd_positionsOfParts : ∀ (i : Nat) (cs : List (Option Role × Node)),
    (positionsOfParts i cs).map (·.2) = preorderParts cs
  | _, [] => rfl
  | i, (_, n) :: rest => by
    rw [positionsOfParts, preorderParts, List.map_append, List.map_map,
      map_snd_positionsOfParts (i + 1) rest, ← map_snd_positions n]
    rfl

end

mutual

/-- Every address of the tree is listed, with the node that stands there. -/
theorem mem_positions : ∀ {n : Node} {address : List Nat} {m : Node},
    (address, m) ∈ n.positions ↔ n.at? address = some m
  | mk k l t cs, [], m => by
    have hbelow : ([], m) ∉ positionsOfParts 0 cs := by
      rw [mem_positionsOfParts]
      rintro ⟨_, _, _, h, _⟩
      cases h
    simp [positions, at?, hbelow, eq_comm]
  | mk k l t cs, i :: address, m => by
    simp only [positions, List.mem_cons, Prod.mk.injEq, reduceCtorEq, false_and, false_or,
      mem_positionsOfParts, at?, children, parts, Option.bind_eq_some_iff]
    constructor
    · rintro ⟨j, c, rest, ⟨rfl, rfl⟩, hc, hm⟩
      exact ⟨c, by rwa [Nat.zero_add], hm⟩
    · rintro ⟨c, hc, hm⟩
      exact ⟨i, c, address, by rw [Nat.zero_add], hc, hm⟩

/-- An address among parts leads to a part, and from there on. -/
theorem mem_positionsOfParts : ∀ {i : Nat} {cs : List (Option Role × Node)} {address : List Nat}
    {m : Node}, (address, m) ∈ positionsOfParts i cs ↔ ∃ j c rest, address = (i + j) :: rest ∧
      (cs.map (·.2))[j]? = some c ∧ c.at? rest = some m
  | _, [], _, _ => by simp [positionsOfParts]
  | i, (_, n) :: cs, address, m => by
    simp only [positionsOfParts, List.mem_append, List.mem_map, Prod.mk.injEq, Prod.exists]
    constructor
    · rintro (⟨rest, _, hm, rfl, rfl⟩ | h)
      · exact ⟨0, n, rest, rfl, rfl, mem_positions.1 hm⟩
      · obtain ⟨j, c, rest, rfl, hc, hm⟩ := mem_positionsOfParts.1 h
        exact ⟨j + 1, c, rest, by rw [Nat.add_right_comm, Nat.add_assoc], hc, hm⟩
    · rintro ⟨_ | j, c, rest, rfl, hc, hm⟩
      · cases hc
        exact .inl ⟨rest, m, mem_positions.2 hm, rfl, rfl⟩
      · refine .inr (mem_positionsOfParts.2 ⟨j, c, rest, ?_, hc, hm⟩)
        rw [Nat.add_right_comm, Nat.add_assoc]

end

mutual

/-- The addresses are listed in their order: a node before those below it, and those below a child
before those below the next. -/
theorem pairwise_positions : ∀ n : Node, n.positions.Pairwise fun a b => a.1 < b.1
  | mk k l t cs => by
    refine List.pairwise_cons.2 ⟨?_, pairwise_positionsOfParts 0 cs⟩
    rintro ⟨address, m⟩ h
    obtain ⟨j, c, rest, rfl, -, -⟩ := mem_positionsOfParts.1 h
    exact List.nil_lt_cons _ _

/-- Addresses among parts ascend. -/
theorem pairwise_positionsOfParts : ∀ (i : Nat) (cs : List (Option Role × Node)),
    (positionsOfParts i cs).Pairwise fun a b => a.1 < b.1
  | _, [] => .nil
  | i, (_, n) :: rest => by
    refine List.pairwise_append.2
      ⟨List.pairwise_map.2 ((pairwise_positions n).imp fun h => ?_),
        pairwise_positionsOfParts (i + 1) rest, ?_⟩
    · exact List.cons_lt_cons_iff.2 (.inr ⟨rfl, h⟩)
    · rintro _ ha ⟨address, m⟩ hb
      obtain ⟨x, -, rfl⟩ := List.mem_map.1 ha
      obtain ⟨j, c, below, rfl, -, -⟩ := mem_positionsOfParts.1 hb
      exact List.cons_lt_cons_iff.2 (.inl (by omega))

end

mutual

/-- A tree has as many nodes as its size says. -/
theorem length_preorder : ∀ n : Node, n.preorder.length = n.size
  | mk k l t cs => by rw [preorder, size, List.length_cons, length_preorderParts cs]

theorem length_preorderParts : ∀ cs : List (Option Role × Node),
    (preorderParts cs).length = sizeParts cs
  | [] => rfl
  | (_, n) :: rest => by
    rw [preorderParts, sizeParts, List.length_append, length_preorder n, length_preorderParts rest]

end

/-- Only an empty stack has no nodes. -/
theorem preorder_eq_nil_iff {stack : List Node} : stack.flatMap preorder = [] ↔ stack = [] := by
  cases stack with
  | nil => simp
  | cons n stack => simp [preorder_eq]

end Python.Node

/-! ## Turns of the walk -/

namespace Compliance

open PullGate.Python (Node Role)

variable (naming : Naming)

/-- How far the walk through a tree has come: the nodes on the stack, and what was found before. -/
structure Survey where
  stack : List Node
  found : List Violation

namespace Survey

/-- A turn: the node on top is looked at, and its children take its place. -/
def turn (s : Survey) : Survey :=
  match s.stack with
  | [] => s
  | n :: stack => ⟨n.children ++ stack, s.found ++ nodeViolations naming n⟩

/-- The walk after some turns. -/
def run (s : Survey) : Nat → Survey
  | 0 => s
  | turns + 1 => ((s.turn naming).run turns)

/-- The walk before its first turn. -/
def start (tree : Node) : Survey := ⟨[tree], []⟩

/-- The nodes that are still to be visited, in their order. -/
def ahead (s : Survey) : List Node := s.stack.flatMap Node.preorder

/-- A turn visits the first of the nodes ahead. -/
theorem turn_eq (s : Survey) :
    (s.turn naming).ahead = s.ahead.drop 1 ∧
      (s.turn naming).found = s.found ++ (s.ahead.take 1).flatMap (nodeViolations naming) := by
  obtain ⟨_ | ⟨n, stack⟩, found⟩ := s
  · simp [turn, ahead]
  · simp [turn, ahead, Node.preorder_eq n]

/-- So many turns visit so many of the nodes ahead. -/
theorem run_eq (turns : Nat) (s : Survey) :
    (s.run naming turns).ahead = s.ahead.drop turns ∧
      (s.run naming turns).found =
        s.found ++ (s.ahead.take turns).flatMap (nodeViolations naming) := by
  induction turns generalizing s with
  | zero => simp [run]
  | succ turns ih =>
    obtain ⟨hahead, hfound⟩ := ih (s.turn naming)
    obtain ⟨hahead', hfound'⟩ := turn_eq naming s
    refine ⟨?_, ?_⟩
    · rw [run, hahead, hahead', List.drop_drop, Nat.add_comm]
    · rw [run, hfound, hfound', hahead', List.append_assoc, ← List.flatMap_append,
        Nat.add_comm turns 1, List.take_add]

end Survey

/-! ## What is found on the way -/

mutual

/-- What a node and all nodes below it break, parents first. -/
def violationsWithin : Node → List Violation
  | .mk k l t cs => nodeViolations naming (.mk k l t cs) ++ violationsWithinParts cs

/-- What the nodes of a list of children break. -/
def violationsWithinParts : List (Option Role × Node) → List Violation
  | [] => []
  | (_, n) :: rest => violationsWithin n ++ violationsWithinParts rest

end

mutual

/-- What is reported of all nodes of a tree is reported within it. -/
theorem flatMap_preorder : ∀ n : Node,
    n.preorder.flatMap (nodeViolations naming) = violationsWithin naming n
  | .mk k l t cs => by
    rw [Node.preorder, violationsWithin, List.flatMap_cons, flatMap_preorderParts cs]

/-- What is reported of all nodes of parts is reported within them. -/
theorem flatMap_preorderParts : ∀ cs : List (Option Role × Node),
    (Node.preorderParts cs).flatMap (nodeViolations naming) = violationsWithinParts naming cs
  | [] => rfl
  | (_, n) :: rest => by
    rw [Node.preorderParts, violationsWithinParts, List.flatMap_append, flatMap_preorder n,
      flatMap_preorderParts rest]

end

/-- The walk lists a tree's nodes in the order of the text, parents first. -/
theorem walk_singleton (tree : Node) : Node.walk [tree] = tree.preorder := by
  rw [Node.walk_eq, List.flatMap_cons, List.flatMap_nil, List.append_nil]

/-! ## The order of the list -/

namespace Violation

/-- What a violation is listed by: line, column, and rule in the order of rules. -/
def key (v : Violation) : ℕ ×ₗ ℕ ×ₗ ℕ :=
  toLex (v.location.line, toLex (v.location.column, v.rule.rank))

/-- Violations are compared by place and then by rule. -/
theorem le_iff {a b : Violation} : Violation.le a b = true ↔ a.key ≤ b.key := by
  obtain ⟨r, ⟨l, c⟩, _⟩ := a
  obtain ⟨r', ⟨l', c'⟩, _⟩ := b
  simp only [Violation.le, key, Prod.Lex.toLex_le_toLex, Text.Location.le, Text.Location.mk.injEq]
  split
  · simp; omega
  · simp; omega

theorem trans_le (a b c : Violation) : le a b = true → le b c = true → le a c = true := by
  simpa only [le_iff] using le_trans

theorem total_le (a b : Violation) : (le a b || le b a) = true := by
  simpa only [Bool.or_eq_true, le_iff] using le_total a.key b.key

theorem perm_sorted (vs : List Violation) : (sorted vs).Perm vs := List.mergeSort_perm vs le

/-- What is sorted is in order. -/
theorem pairwise_sorted (vs : List Violation) : (sorted vs).Pairwise fun a b => a.key ≤ b.key :=
  (List.pairwise_mergeSort trans_le total_le vs).imp le_iff.1

/-- Violations with the same key keep their order. -/
theorem filter_sorted (vs : List Violation) (k : ℕ ×ₗ ℕ ×ₗ ℕ) :
    (sorted vs).filter (fun v => v.key = k) = vs.filter fun v => v.key = k := by
  have hequal : (vs.filter fun v => v.key = k).Pairwise fun a b => le a b = true := by
    refine List.pairwise_of_forall_mem_list fun a ha b hb => le_iff.2 (le_of_eq ?_)
    rw [of_decide_eq_true (List.mem_filter.1 ha).2, of_decide_eq_true (List.mem_filter.1 hb).2]
  have hsub := (List.sublist_mergeSort trans_le total_le hequal List.filter_sublist).filter
    fun v => decide (v.key = k)
  rw [List.filter_filter] at hsub
  simp only [Bool.and_self] at hsub
  exact (hsub.eq_of_length ((perm_sorted vs).filter _).length_eq.symm).symm

end Violation

/-! ## The analysis -/

/-- **A tree is walked once, in the order of its addresses.** The walk ends after as many turns as the
tree has nodes, having visited the node at every address of the tree once, in the order of addresses,
and having found what plain recursion finds. The analysis lists these violations in the order of their
keys, and those with the same key in the order of the walk. -/
theorem analyze_walks (tree : Node) :
    (∀ turns, ((Survey.start tree).run naming turns).stack = [] ↔ tree.size ≤ turns) ∧
      ((Survey.start tree).run naming tree.size).found = violationsWithin naming tree ∧
      (∃ positions : List (List Nat × Node),
        positions.map (·.2) = Node.walk [tree] ∧
          positions.Pairwise (fun a b => a.1 < b.1) ∧
          ∀ address n, (address, n) ∈ positions ↔ tree.at? address = some n) ∧
      (Node.walk [tree]).flatMap (nodeViolations naming) = violationsWithin naming tree ∧
      (treeViolations naming tree).Perm (violationsWithin naming tree) ∧
      (treeViolations naming tree).Pairwise (fun a b => a.key ≤ b.key) ∧
      (∀ k, (treeViolations naming tree).filter (fun v => v.key = k) =
        (violationsWithin naming tree).filter fun v => v.key = k) ∧
      ∀ source, (analyze naming source).toOption =
        (Python.parse source).map (treeViolations naming) := by
  have hahead : (Survey.start tree).ahead = tree.preorder := by simp [Survey.start, Survey.ahead]
  have hfound : (Node.walk [tree]).flatMap (nodeViolations naming) = violationsWithin naming tree := by
    rw [walk_singleton, flatMap_preorder]
  have hsorted : treeViolations naming tree = Violation.sorted (violationsWithin naming tree) := by
    rw [treeViolations, hfound]
  refine ⟨fun turns => ?_, ?_, ⟨tree.positions, ?_, tree.pairwise_positions,
    fun _ _ => Node.mem_positions⟩, hfound, ?_, ?_, fun k => ?_, fun source => ?_⟩
  -- each turn takes one node from those ahead, which at first are all in preorder
  · rw [← Node.preorder_eq_nil_iff, ← Survey.ahead, (Survey.run_eq naming turns _).1, hahead,
      List.drop_eq_nil_iff, Node.length_preorder]
  · rw [(Survey.run_eq naming _ _).2, hahead, ← Node.length_preorder, List.take_length,
      flatMap_preorder]
    rfl
  · rw [Node.map_snd_positions, walk_singleton]
  · exact hsorted ▸ Violation.perm_sorted _
  · exact hsorted ▸ Violation.pairwise_sorted _
  · exact hsorted ▸ Violation.filter_sorted _ k
  · rw [analyze]
    cases Python.parse source <;> rfl

end Compliance

end PullGate
