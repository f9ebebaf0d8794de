import PullGate.Dispatch
import PullGate.Signature
import PullGate.Webhook.Parse
/-!
# The service

What requests to the service are answered. A delivery passes its checks in a fixed order — its
headers, its signature, its payload — and only then is anything done for it; the first check that it
fails is the answer.
-/

namespace PullGate

open PullGate.Compliance (Analyzer)

/-- A request to the service. -/
structure Service.Request where
  method : String
  /-- The path, with whatever follows it. -/
  target : String
  headers : List (String × List UInt8)
  body : List UInt8
  deriving DecidableEq, Repr

/-- What the service answers. -/
structure Service.Answer where
  status : Nat
  body : String
  deriving DecidableEq, Repr

/-- The service, as it was set up. -/
structure Service where
  analyzer : Analyzer
  policy : Policy
  /-- Deliveries are verified if there is a secret. -/
  secret : Option Secret

namespace Service

/-! ## Requests -/

namespace Request

/-- The path, without a query. -/
def path (r : Request) : String :=
  String.ofList (r.target.toList.takeWhile fun c => c ≠ '?' && c ≠ '#')

/-- Whether a byte may stand in a header that counts. -/
def isVisible (b : UInt8) : Bool := b = 0x09 || (0x20 ≤ b && b < 0x7f)

/-- The text of the first header with a name, in small or capital letters, unless it has bytes that
do not count. -/
def header? (r : Request) (name : String) : Option String :=
  match r.headers.find? fun h => h.1.toList.map Char.toLower = name.toList with
  | some (_, value) =>
    if value.all isVisible then some (String.ofList (value.map fun b => Char.ofNat b.toNat)) else none
  | none => none

end Request

/-- The header that names the type of a delivery. -/
def eventHeader : String := "x-github-event"

/-- The header that names a delivery. -/
def deliveryHeader : String := "x-github-delivery"

/-- The header that signs a delivery. -/
def signatureHeader : String := "x-hub-signature-256"

/-- How many bytes the body of a delivery may have. -/
def bodyLimit : Nat := 2097152

/-! ## Refusals -/

/-- Why a request is refused. -/
inductive Refusal where
  | unknownPath
  | unknownMethod
  | tooLong
  | missingHeader (name : String)
  | signature (error : SignatureError)
  | payload (error : Webhook.ParseError)
  | failed (failure : Failure)

/-- What a refused request is answered. -/
def Refusal.answer : Refusal → Answer
  | unknownPath => ⟨404, ""⟩
  | unknownMethod => ⟨405, ""⟩
  | tooLong => ⟨413, "Failed to buffer the request body: length limit exceeded"⟩
  | missingHeader name => ⟨400, s!"missing required header: {name}"⟩
  | signature e => ⟨401, s!"invalid signature: {e.message}"⟩
  | payload e => ⟨400, s!"invalid payload: {e.message}"⟩
  | failed f => ⟨500, s!"handler failed: {f.message}"⟩

/-! ## Deliveries -/

variable (s : Service)

/-- Whether a delivery is signed, if it has to be. -/
def verify (r : Request) : Except Refusal Unit :=
  match s.secret with
  | none => .ok ()
  | some secret => (secret.verify r.body (r.header? signatureHeader)).mapError .signature

/-- The event of a delivery that passes all checks, if it tells of one. -/
def accept (r : Request) : Except Refusal (Option Event) :=
  if bodyLimit < r.body.length then .error .tooLong
  else match r.header? eventHeader with
  | none => .error (.missingHeader eventHeader)
  | some type => match r.header? deliveryHeader with
    | none => .error (.missingHeader deliveryHeader)
    | some _ => match s.verify r with
      | .error e => .error e
      | .ok () => (Webhook.parse type r.body).mapError .payload

/-- What is answered after an event was handled. -/
def handled : Except Failure Handling → Answer
  | .ok .handled => ⟨200, "Processed"⟩
  | .ok .ignored => ⟨200, "Ignored"⟩
  | .error f => (Refusal.failed f).answer

variable {σ : Type} (host : Repository → Host σ)

/-- What a delivery is answered, with all effects that were asked for. -/
def deliver (r : Request) (state : σ) : (Answer × List Effect) × σ :=
  match s.accept r with
  | .error e => ((e.answer, []), state)
  | .ok none => ((⟨200, "Ignored"⟩, []), state)
  | .ok (some event) =>
    let (trace, state) := (dispatch s.analyzer s.policy event).run (host event.repository) state
    ((handled trace.result, trace.effects), state)

/-- What a request whether the service lives is answered. -/
def health (r : Request) : Answer :=
  if r.method = "GET" then ⟨200, "OK"⟩
  else if r.method = "HEAD" then ⟨200, ""⟩
  else Refusal.unknownMethod.answer

/-- What a request is answered, with all effects that were asked for. -/
def answer (r : Request) (state : σ) : (Answer × List Effect) × σ :=
  if r.path = "/health" then ((health r, []), state)
  else if r.path = "/webhook" then
    if r.method = "POST" then s.deliver host r state
    else ((Refusal.unknownMethod.answer, []), state)
  else ((Refusal.unknownPath.answer, []), state)

end Service

end PullGate
