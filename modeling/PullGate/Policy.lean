/-!
# Policy

What the gate asks for, as far as it can be set.
-/

namespace PullGate

/-- The settings of the gate. -/
structure Policy where
  /-- How many other open pull requests an author may have; none asked for if zero. -/
  maxOpenPullRequests : UInt64
  /-- The text that a ticked checklist shows in a description. -/
  checklistMarker : String
  /-- The extension, without its dot, of the files that are analysed. -/
  sourceExtension : String
  /-- Top directories whose files are not analysed. -/
  ignoredDirs : List String
  /-- Top directories whose files may lack an extension. -/
  extensionlessDirs : List String
  /-- Names that are always accepted. -/
  allowedNames : List String
  /-- Names that are refused, unless they are always accepted. -/
  refusedNames : List String
  deriving DecidableEq, Repr

/-- The settings that hold unless others are given. -/
def Policy.standard : Policy where
  maxOpenPullRequests := 1
  checklistMarker := "[x]"
  sourceExtension := "py"
  ignoredDirs := [".github", "docs"]
  extensionlessDirs := [".github"]
  allowedNames := ["_", "i", "j", "k", "n", "x", "y", "z"]
  refusedNames := ["foo", "bar", "baz", "tmp", "temp", "var", "val", "obj", "dummy"]

instance : Inhabited Policy := ⟨.standard⟩

end PullGate
