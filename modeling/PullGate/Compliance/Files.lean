import PullGate.Effect
import PullGate.Path
import PullGate.Policy
/-!
# Files that are looked at

Which changed files are analysed, whether the changes bring a test file, and which files lack an
extension.
-/

namespace PullGate.Compliance

/-! ## Kinds of files -/

/-- Whether the name of a file says that it tests another. -/
def isCompanionTest (path : String) : Bool :=
  ['t', 'e', 's', 't', '_'].isPrefixOf ((Path.fileName? path).getD []) ||
    ['_', 't', 'e', 's', 't'].isSuffixOf ((Path.stem? path).getD [])

/-- Whether a file has the extension of sources. -/
def isSource (policy : Policy) (path : String) : Bool :=
  Path.extension? path = some policy.sourceExtension.toList

/-- Whether the name of a file has two underscores at its beginning and at its end. -/
def isSpecialModule (path : String) : Bool :=
  match Path.stem? path with
  | none => false
  | some stem => ['_', '_'].isPrefixOf stem && ['_', '_'].isSuffixOf stem

/-! ## Choosing files -/

/-- Whether a change brings a test file: a source that is not removed and whose name says so. -/
def bringsTest (policy : Policy) (f : FileChange) : Bool :=
  f.status ≠ .removed && isSource policy f.path && isCompanionTest f.path

/-- Whether a changed file is analysed: it is a source that was added or modified, outside the
directories that are passed over, and neither a test nor a special module. -/
def isAnalyzed (policy : Policy) (f : FileChange) : Bool :=
  (f.status = .added || f.status = .modified) && isSource policy f.path &&
    !isCompanionTest f.path && !Path.isUnderAny policy.ignoredDirs f.path && !isSpecialModule f.path

/-- The changed files that are analysed. -/
def sources (policy : Policy) (files : List FileChange) : List FileChange :=
  files.filter (isAnalyzed policy)

/-- Whether a test file is among the changes. -/
def hasTestFile (policy : Policy) (files : List FileChange) : Bool := files.any (bringsTest policy)

/-- Whether a changed file should have an extension and has none. -/
def lacksExtension (policy : Policy) (f : FileChange) : Bool :=
  f.status ≠ .removed && (Path.extension? f.path).isNone &&
    !Path.isUnderAny policy.extensionlessDirs f.path

/-- The paths of the files that should have an extension and have none. -/
def extensionless (policy : Policy) (files : List FileChange) : List String :=
  (files.filter (lacksExtension policy)).map (·.path)

end PullGate.Compliance
