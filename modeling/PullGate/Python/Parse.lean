import PullGate.Python.Scanner
import PullGate.Python.Tree
/-!
# Trees from sources

`parse` reads a source as a program and builds its tree. There is no tree for a source that the
grammar does not cover.
-/

namespace PullGate.Python

open PullGate.Grammar (Automaton Lexeme Meaning)
open PullGate.Text (Location locations)

/-- The automaton of Python's grammar. -/
def pythonAutomaton : Automaton Token Phrase Mark := pythonGrammar.automaton

/-- The characters of a source and the places where they stand. -/
structure Source where
  chars : Array Char
  places : Array Location

/-- The source with a text. -/
def Source.ofList (text : List Char) : Source := ⟨text.toArray, (locations text).toArray⟩

/-- The text between two offsets. -/
def Source.between (s : Source) (start stop : Nat) : String :=
  String.ofList (s.chars.extract start stop).toList

/-- The place at an offset. -/
def Source.place (s : Source) (offset : Nat) : Location := s.places.getD offset .start

/-- The kinds whose text is looked at. -/
def Kind.keepsText : Kind → Bool
  | .identifier | .string | .tuplePattern => true
  | _ => false

/-- A stretch of source that was read: the kind of node it is, if it is one, and the nodes below,
last first. -/
structure Growth where
  start : Nat
  stop : Nat
  shown : Option Kind
  below : List (Option Role × Node)

/-- What a growth of a part puts among the nodes of the whole, last first: one node if it is one, or
the nodes below, which take the part's role. -/
def Growth.nodes (s : Source) (marks : List Mark) (g : Growth) : List (Option Role × Node) :=
  let role := marks.findSome? fun | .role r => some r | _ => none
  let kind := marks.findSome? fun | .kind k => some k | _ => none
  match kind.or g.shown with
  | some k =>
    let text := if k.keepsText then s.between g.start g.stop else ""
    [(role, .mk k (s.place g.start) text g.below.reverse)]
  | none => match role with
    | some r => g.below.map fun (_, n) => (some r, n)
    | none => g.below

/-- The growth of a phrase from those of its parts. -/
def Growth.ofParts (s : Source) (shown : Option Kind) : List (List Mark × Growth) → Growth
  | [] => ⟨0, 0, shown, []⟩
  | (marks, first) :: rest =>
    rest.foldl (fun whole (marks, g) =>
      { whole with stop := g.stop, below := g.nodes s marks ++ whole.below })
      ⟨first.start, first.stop, shown, first.nodes s marks⟩

/-- How trees are built: a phrase that is a node shows as one, and the parts of other phrases take
their place. -/
def growth (s : Source) : Meaning Token Phrase Mark Growth where
  token l :=
    let shown := match l.token with
      | .node k => some k
      | _ => none
    ⟨l.start, l.stop, shown, []⟩
  phrase name parts :=
    let shown := match name with
      | some (.node k) => some k
      | _ => none
    .ofParts s shown parts

/-- The tree of a source, if it is a program. -/
def parse (text : String) : Option Node := do
  let chars := text.toList
  let source := Source.ofList chars
  let program ← pythonAutomaton.read (growth source) pythonScanner (.start chars) source.chars.size
  return .mk .program (source.place program.start) "" program.below.reverse

end PullGate.Python
