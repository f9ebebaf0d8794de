import PullGate.Json.Value
/-!
# Exchanges

Requests to the host of the pull requests, its replies, and conversations made of them. A conversation
sends one request after another, each perhaps chosen by the replies so far, and ends with a result.
-/

namespace PullGate.Client

/-- What a request does. -/
inductive Method where
  | get
  | post
  | patch
  | delete
  deriving DecidableEq, Repr

/-- The method as it is sent. -/
def Method.name : Method → String
  | get => "GET"
  | post => "POST"
  | patch => "PATCH"
  | delete => "DELETE"

/-- A request. -/
structure Request where
  method : Method
  /-- The address, from its path on. -/
  address : String
  body : Option Json.Value

/-- A reply. -/
structure Reply where
  status : Nat
  body : List UInt8
  deriving DecidableEq, Repr

/-- A conversation that ends with a result of type `α`. -/
inductive Exchange (α : Type) where
  /-- The conversation ends. -/
  | done (result : α)
  /-- A request is sent; there is a reply, or it is said why there is none. -/
  | send (request : Request) (next : Except String Reply → Exchange α)

/-- What carries requests. It may hang on a state. -/
structure Transport (τ : Type) where
  send : τ → Request → Except String Reply × τ

namespace Exchange

variable {α β τ : Type}

/-- One conversation after another. -/
def bind : Exchange α → (α → Exchange β) → Exchange β
  | done a, f => f a
  | send request next, f => send request fun reply => (next reply).bind f

/-- The conversation with another result. -/
def map (f : α → β) (x : Exchange α) : Exchange β := x.bind fun a => done (f a)

/-- Holds a conversation: the requests that were sent, the result, and the state after it. -/
def run (transport : Transport τ) : Exchange α → τ → (List Request × α) × τ
  | done a, t => (([], a), t)
  | send request next, t =>
    let (reply, t) := transport.send t request
    let ((requests, a), t) := (next reply).run transport t
    ((request :: requests, a), t)

/-- To hold two conversations one after another is to hold the first, and then the second from where
the first ended. -/
theorem run_bind (transport : Transport τ) (x : Exchange α) (f : α → Exchange β) (t : τ) :
    (x.bind f).run transport t =
      let ((before, a), t) := x.run transport t
      let ((after, b), t) := (f a).run transport t
      ((before ++ after, b), t) := by
  induction x generalizing t with
  | done a => rfl
  | send request next ih => simp only [bind, run, ih]; rfl

end Exchange

end PullGate.Client
