import PullGate.Identity
import PullGate.Label
import PullGate.Text.Case
/-!
# Snapshots

What a delivery says about its pull request: the author, the description, the labels, and so on. A
snapshot is all that is known about a pull request; nothing is kept between deliveries.
-/

namespace PullGate

/-- What an author is to a repository. -/
inductive Association where
  | owner
  | member
  | collaborator
  | contributor
  | firstTimeContributor
  | firstTimer
  | mannequin
  | none
  deriving DecidableEq, Repr, Inhabited

namespace Association

/-- All associations. -/
def all : List Association :=
  [owner, member, collaborator, contributor, firstTimeContributor, firstTimer, mannequin, none]

/-- The text of the association. -/
def name : Association → String
  | owner => "OWNER"
  | member => "MEMBER"
  | collaborator => "COLLABORATOR"
  | contributor => "CONTRIBUTOR"
  | firstTimeContributor => "FIRST_TIME_CONTRIBUTOR"
  | firstTimer => "FIRST_TIMER"
  | mannequin => "MANNEQUIN"
  | none => "NONE"

/-- The association with this text in capital letters; a text of no association stands for none. -/
def ofText (text : String) : Association :=
  (all.find? fun a => a.name = Text.toCapitals text).getD none

/-- The name of an association stands for it. -/
theorem ofText_name (a : Association) : ofText a.name = a := by
  cases a <;> decide

/-- Whether the author may review, and is not asked for a description or for few pull requests. -/
def isPrivileged : Association → Bool
  | owner | member | collaborator => true
  | _ => false

end Association

/-- A pull request as a delivery shows it. -/
structure Snapshot where
  number : PrNumber
  /-- The address for programs. -/
  url : String
  /-- The address for people. -/
  htmlUrl : String
  /-- The description. -/
  body : String
  author : String
  association : Association
  /-- The labels on it that the gate owns. -/
  labels : LabelSet
  draft : Bool
  reviewers : List String
  head : Commit
  deriving DecidableEq

namespace Snapshot

/-- Whether the author is privileged. -/
def isPrivileged (s : Snapshot) : Bool := s.association.isPrivileged

/-- Whether the pull request was turned away before, so that nothing else happens to it. -/
def isSettled (s : Snapshot) : Bool := s.labels.isTerminal

end Snapshot

end PullGate
