import PullGate.Decimal.Natural
import PullGate.Json.Error
import PullGate.Text.Case
import PullGate.Text.Search
/-!
# Failed calls

Why a call to the host failed, and whether it may succeed when it is made again. The status is known
where the host refused a call in words; otherwise it is looked for in the message.
-/

namespace PullGate.Client

/-- Why a call failed. -/
inductive Fault where
  /-- The address has a character that must not stand there. -/
  | address
  /-- There was no reply. -/
  | transport (text : String)
  /-- The host refused, and said why. -/
  | refused (status : Nat)
  /-- The body of a refusal, or of a file's contents, was not of the right shape. -/
  | unread (error : Json.Error)
  /-- The body of another reply was not of the right shape. -/
  | misshapen (error : Json.Error)

/-- The status that a text names after the word for it, if it fits 16 bits. -/
def namedStatus? (text : String) : Option Nat :=
  match Text.afterFirst? ("status: ".toList) text.toList with
  | some rest => Decimal.ofText? 65535 (rest.takeWhile Char.isDigit)
  | none => none

/-- Statuses that are looked for in a text as they stand, in this order. -/
def plainStatuses : List Nat := [422, 403, 401, 429, 500, 502, 503]

/-- The status that a text tells of. -/
def statusIn? (text : String) : Option Nat :=
  match namedStatus? text with
  | some status => some status
  | none =>
    if Text.holds text "404" && Text.holds (Text.toSmall text) "not found" then some 404
    else plainStatuses.find? fun status => Text.holds text (toString status)

/-- Whether a text holds one of several texts, in small or capital letters. -/
def mentions (words : List String) (text : String) : Bool :=
  words.any fun word => Text.holds (Text.toSmall text) word

/-- What refusals say when there were too many calls. -/
def limitWords : List String := ["rate limit", "api rate", "secondary rate", "abuse detection"]

/-- What is said when the network failed. -/
def networkWords : List String := ["timeout", "connection", "network", "dns", "timed out"]

namespace Fault

/-- The fault in words. -/
def message : Fault → String
  | address => "Uri"
  | transport text => "Service Error: " ++ text
  | refused _ => "GitHub"
  | unread e => "Serde Error: " ++ e.message
  | misshapen e => "JSON Error in " ++ Json.renderPath e.path ++ ": " ++ e.message

/-- The status of the reply, as far as it is known. -/
def status? : Fault → Option Nat
  | refused status => some status
  | other => statusIn? other.message

/-- Whether the label or the file that the call was about is not there. -/
def isNotFound (f : Fault) : Bool := f.status? = some 404

/-- Whether the call may succeed when it is made again. -/
def isTransient (f : Fault) : Bool :=
  match f.status? with
  | some status =>
    if status = 429 then true
    else if status = 403 then mentions limitWords f.message
    else 500 ≤ status && status < 600
  | none => mentions networkWords f.message

/-- What is said about the call that failed. -/
def render (f : Fault) : String :=
  match f.status? with
  | some status => s!"GitHub API error (HTTP {status}): {f.message}"
  | none => s!"GitHub API error: {f.message}"

end Fault

end PullGate.Client
