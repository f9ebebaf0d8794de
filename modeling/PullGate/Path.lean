/-!
# Paths

Paths as texts with slashes. Empty parts and parts of one dot do not count, except that a path which
begins with a dot keeps it. The last part, if it is a name, splits at its last dot into stem and
extension; a dot in front of all else does not split.
-/

namespace PullGate.Path

/-! ## Parts -/

/-- The parts of a text between the places where a character stands. -/
def split (sep : Char) : List Char → List (List Char)
  | [] => [[]]
  | c :: rest =>
    if c = sep then [] :: split sep rest
    else match split sep rest with
      | first :: more => (c :: first) :: more
      | [] => [[c]]

/-- A part of a path. -/
inductive Component where
  /-- The slash that a path begins with. -/
  | root
  /-- The dot that a path begins with. -/
  | current
  /-- Two dots. -/
  | parent
  | name (text : List Char)
  deriving DecidableEq, Repr

namespace Component

/-- The text of the part. -/
def text : Component → List Char
  | root => ['/']
  | current => ['.']
  | parent => ['.', '.']
  | name t => t

/-- What stands between two slashes as a part, if it counts. -/
def ofSegment (segment : List Char) : Option Component :=
  if segment = [] ∨ segment = ['.'] then none
  else if segment = ['.', '.'] then some parent
  else some (name segment)

end Component

/-- The parts of a path. -/
def components (path : String) : List Component :=
  let segments := split '/' path.toList
  let front := match segments with
    | [] :: _ :: _ => [Component.root]
    | ['.'] :: _ => [Component.current]
    | _ => []
  front ++ segments.filterMap Component.ofSegment

/-- The name that a path ends with. -/
def fileName? (path : String) : Option (List Char) :=
  match (components path).getLast? with
  | some (.name t) => some t
  | _ => none

/-! ## Stem and extension -/

/-- What stands before and after the last dot of a name, unless the name begins with it or has none. -/
def splitAtDot? (name : List Char) : Option (List Char × List Char) :=
  let reversed := name.reverse
  match reversed.dropWhile (· ≠ '.') with
  | [] | [_] => none
  | _ :: stem => some (stem.reverse, (reversed.takeWhile (· ≠ '.')).reverse)

/-- The extension of a path. -/
def extension? (path : String) : Option (List Char) :=
  (fileName? path).bind fun n => (splitAtDot? n).map (·.2)

/-- The name that a path ends with, without its extension. -/
def stem? (path : String) : Option (List Char) :=
  (fileName? path).map fun n => match splitAtDot? n with
    | some (stem, _) => stem
    | none => n

/-- Whether the first part of a path is one of these texts. -/
def isUnderAny (dirs : List String) (path : String) : Bool :=
  match components path with
  | [] => false
  | first :: _ => dirs.contains (String.ofList first.text)

end PullGate.Path
