import PullGate.Python.Token
import PullGate.Text.Location
/-!
# Trees of sources

A node has a kind, the place where it begins, and its children in the order of the text, each
perhaps with a role. Marks and keywords are no nodes; comments are.

All nodes of a tree in the order of the text, parents first, are `Node.preorder`. `walk` lists them
with a stack of its own and so needs no deep recursion; `walk_eq` says that it lists the same.
-/

namespace PullGate.Python

open PullGate.Text (Location)

/-! ## Nodes -/

/-- A node of a tree. `text` is the source text of a name, a string or a tuple of targets, and empty
for other kinds. -/
inductive Node where
  | mk (kind : Kind) (start : Location) (text : String) (children : List (Option Role × Node))

namespace Node

/-- What the node is. -/
def kind : Node → Kind
  | mk k _ _ _ => k

/-- Where the node begins. -/
def start : Node → Location
  | mk _ l _ _ => l

/-- The node's source text, if its kind keeps it. -/
def text : Node → String
  | mk _ _ t _ => t

/-- The children with their roles. -/
def parts : Node → List (Option Role × Node)
  | mk _ _ _ cs => cs

/-- The children. -/
def children (n : Node) : List Node := n.parts.map (·.2)

/-- The first child with a role. -/
def part? (n : Node) (r : Role) : Option Node :=
  (n.parts.find? fun p => p.1 = some r).map (·.2)

/-! ## All nodes of a tree -/

mutual

/-- The node and all below it, in the order of the text, parents first. -/
def preorder : Node → List Node
  | mk k l t cs => mk k l t cs :: preorderParts cs

/-- All nodes of a list of children. -/
def preorderParts : List (Option Role × Node) → List Node
  | [] => []
  | (_, n) :: rest => preorder n ++ preorderParts rest

end

mutual

/-- How many nodes a tree has. -/
def size : Node → Nat
  | mk _ _ _ cs => sizeParts cs + 1

/-- How many nodes a list of children has. -/
def sizeParts : List (Option Role × Node) → Nat
  | [] => 0
  | (_, n) :: rest => size n + sizeParts rest

end

/-- How many nodes a list of trees has. -/
def sizeAll : List Node → Nat
  | [] => 0
  | n :: rest => n.size + sizeAll rest

/-- Trees of two lists have the nodes of both. -/
theorem sizeAll_append (as bs : List Node) : sizeAll (as ++ bs) = sizeAll as + sizeAll bs := by
  induction as with
  | nil => simp [sizeAll]
  | cons a as ih => simp [sizeAll, ih, Nat.add_assoc]

/-- The children have the nodes of the parts. -/
theorem sizeAll_children (cs : List (Option Role × Node)) :
    sizeAll (cs.map (·.2)) = sizeParts cs := by
  induction cs with
  | nil => simp [sizeAll, sizeParts]
  | cons c cs ih =>
    obtain ⟨r, n⟩ := c
    simp [sizeAll, sizeParts, ih]

/-- A tree has its root and the nodes of its children. -/
theorem size_eq (n : Node) : n.size = sizeAll n.children + 1 := by
  obtain ⟨k, l, t, cs⟩ := n
  simp [size, children, parts, sizeAll_children]

/-- The nodes of the trees on a stack: the top one is taken off, and its children are put in its
place. -/
def walk : List Node → List Node
  | [] => []
  | n :: stack => n :: walk (n.children ++ stack)
termination_by stack => sizeAll stack
decreasing_by
  simp only [sizeAll, sizeAll_append, size_eq n]
  omega

/-- The nodes of parts are those of their trees, one after another. -/
theorem preorderParts_eq (cs : List (Option Role × Node)) :
    preorderParts cs = (cs.map (·.2)).flatMap preorder := by
  induction cs with
  | nil => rfl
  | cons c cs ih =>
    obtain ⟨r, n⟩ := c
    simp [preorderParts, ih]

/-- All nodes of a tree are the root and those of its children. -/
theorem preorder_eq (n : Node) : n.preorder = n :: n.children.flatMap preorder := by
  obtain ⟨k, l, t, cs⟩ := n
  simp [preorder, preorderParts_eq, children, parts]

/-- The stack holds what is still to come: it is walked as its trees would be one after another. -/
theorem walk_eq (stack : List Node) : walk stack = stack.flatMap preorder := by
  fun_induction walk stack with
  | case1 => rfl
  | case2 n stack ih => rw [ih, List.flatMap_append, List.flatMap_cons, preorder_eq n]; rfl

end Node

end PullGate.Python
