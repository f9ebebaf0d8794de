import PullGate.Digest.Hmac
import PullGate.Text.Hex
/-!
# Signatures

A delivery is signed with a shared secret: the header holds the keyed digest of the body, in
hexadecimal text after a fixed beginning. `verify` says why a header is not accepted.
-/

namespace PullGate

/-- The shared secret. -/
structure Secret where
  key : List UInt8
  deriving DecidableEq

/-- Why a signature is not accepted. -/
inductive SignatureError where
  /-- There is no header. -/
  | missing
  /-- The header is not the fixed beginning and then pairs of hexadecimal digits. -/
  | malformed
  /-- The header holds another digest. -/
  | mismatch
  deriving DecidableEq, Repr

/-- What is said about a signature that is not accepted. -/
def SignatureError.message : SignatureError → String
  | missing => "signature header is missing"
  | malformed => "signature header is not of the form sha256=<hex>"
  | mismatch => "signature does not match payload"

namespace Secret

/-- What a signature begins with. -/
def signatureStart : List Char := ['s', 'h', 'a', '2', '5', '6', '=']

/-- How the secret is shown: not at all. -/
def render (_ : Secret) : String := "WebhookSecret(..)"

/-- The digest of a body under the secret. -/
def sign (s : Secret) (body : List UInt8) : List UInt8 := Digest.Hmac.digest s.key body

/-- The header that signs a body. -/
def header (s : Secret) (body : List UInt8) : String :=
  String.ofList (signatureStart ++ Text.Hex.encode (s.sign body))

/-- The digest that a header holds. -/
def digestOf? (header : String) : Option (List UInt8) :=
  if signatureStart.isPrefixOf header.toList then
    Text.Hex.decode? (header.toList.drop signatureStart.length)
  else none

/-- Whether a header signs a body, and if not, why. -/
def verify (s : Secret) (body : List UInt8) : Option String → Except SignatureError Unit
  | none => .error .missing
  | some h => match digestOf? h with
    | none => .error .malformed
    | some d => if d = s.sign body then .ok () else .error .mismatch

/-- The header that is sent holds the digest. -/
theorem digestOf?_header (s : Secret) (body : List UInt8) :
    digestOf? (s.header body) = some (s.sign body) := by
  simp [digestOf?, header, Text.Hex.decode?_encode]

/-- The secret's own header is accepted. -/
theorem verify_header (s : Secret) (body : List UInt8) :
    s.verify body (some (s.header body)) = .ok () := by
  simp [verify, digestOf?_header]

end Secret

end PullGate
