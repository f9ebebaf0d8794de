import PullGate.Decimal.Natural
import PullGate.Network.Endpoint
import PullGate.Policy
/-!
# The command line

The settings of the service, from arguments and from variables of the environment. An argument goes
before a variable, and a variable before what holds otherwise. Arguments are read from left to right;
the value of a flag is looked at when the next flag comes, or at the end.
-/

namespace PullGate

open PullGate.Network (Endpoint)

/-- What the service is told when it starts. -/
structure Settings where
  /-- Where to listen. -/
  listen : Endpoint
  /-- What the host of the pull requests knows the service by. -/
  token : String
  secret : Option String
  policy : Policy
  deriving DecidableEq, Repr

namespace CommandLine

/-- What can be set. -/
inductive Flag where
  | listen
  | token
  | secret
  | maxOpenPrs
  | checklistMarker
  deriving DecidableEq, Repr

namespace Flag

/-- All flags. -/
def all : List Flag := [listen, token, secret, maxOpenPrs, checklistMarker]

/-- The name of the flag, without the dashes in front. -/
def name : Flag → String
  | listen => "listen"
  | token => "github-token"
  | secret => "webhook-secret"
  | maxOpenPrs => "max-open-prs"
  | checklistMarker => "checklist-marker"

/-- The variable of the environment that stands in for the flag. -/
def variableName : Flag → String
  | listen => "GATEKEEPER_LISTEN"
  | token => "GITHUB_TOKEN"
  | secret => "GITHUB_WEBHOOK_SECRET"
  | maxOpenPrs => "GATEKEEPER_MAX_OPEN_PRS"
  | checklistMarker => "GATEKEEPER_CHECKLIST_MARKER"

end Flag

/-- Why there are no settings. -/
inductive Stop where
  /-- Help was asked for. -/
  | help
  /-- The version was asked for. -/
  | version
  /-- An argument is no flag, and no value of one. -/
  | unknownArgument (argument : String)
  /-- A flag has no value. -/
  | missingValue (flag : Flag)
  /-- The value of a flag cannot be read. -/
  | badValue (flag : Flag) (value : String)
  /-- A flag is there twice. -/
  | repeated (flag : Flag)
  /-- A value was given where there is none. -/
  | unwantedValue (name : String)
  /-- A flag that must be there is not. -/
  | missing (flag : Flag)
  deriving DecidableEq, Repr

/-- What is said when there are no settings. -/
def Stop.message : Stop → String
  | help =>
    "Usage: pr-gatekeeper --github-token <GITHUB_TOKEN> [--listen <LISTEN>] " ++
      "[--webhook-secret <WEBHOOK_SECRET>] [--max-open-prs <MAX_OPEN_PRS>] " ++
      "[--checklist-marker <CHECKLIST_MARKER>]"
  | version => "pr-gatekeeper 0.1.0"
  | unknownArgument a => s!"error: unexpected argument '{a}' found"
  | missingValue f => s!"error: a value is required for '--{f.name}' but none was supplied"
  | badValue f v => s!"error: invalid value '{v}' for '--{f.name}'"
  | repeated f => s!"error: the argument '--{f.name}' cannot be used multiple times"
  | unwantedValue name => s!"error: unexpected value for '--{name}' found"
  | missing f => s!"error: the required argument '--{f.name}' was not provided"

/-! ## Values -/

/-- The values that were given so far. -/
structure Given where
  listen : Option Endpoint
  token : Option String
  secret : Option String
  maxOpenPrs : Option UInt64
  checklistMarker : Option String
  deriving DecidableEq, Repr

namespace Given

/-- Nothing was given. -/
def nothing : Given := ⟨none, none, none, none, none⟩

/-- Whether a flag has a value. -/
def has (g : Given) : Flag → Bool
  | .listen => g.listen.isSome
  | .token => g.token.isSome
  | .secret => g.secret.isSome
  | .maxOpenPrs => g.maxOpenPrs.isSome
  | .checklistMarker => g.checklistMarker.isSome

/-- Gives a flag a value in place of the one that it has. -/
def set (g : Given) (f : Flag) (value : String) : Except Stop Given :=
  match f with
  | .listen => match Endpoint.ofText? value with
    | some endpoint => .ok { g with listen := some endpoint }
    | none => .error (.badValue f value)
  | .token => .ok { g with token := some value }
  | .secret => .ok { g with secret := some value }
  | .maxOpenPrs => match Decimal.ofText? (Nat.pow 2 64 - 1) value.toList with
    | some n => .ok { g with maxOpenPrs := some (UInt64.ofNat n) }
    | none => .error (.badValue f value)
  | .checklistMarker => .ok { g with checklistMarker := some value }

/-- Gives a flag a value that it may have only once. -/
def give (g : Given) (f : Flag) (value : String) : Except Stop Given :=
  if g.has f then .error (.repeated f) else g.set f value

/-- Gives the flags that have no values those of their variables. -/
def fill (environment : String → Option String) : List Flag → Given → Except Stop Given
  | [], g => .ok g
  | f :: rest, g =>
    match (if g.has f then none else environment f.variableName) with
    | none => fill environment rest g
    | some value => match g.set f value with
      | .error e => .error e
      | .ok g => fill environment rest g

/-- The settings, with what holds otherwise. -/
def settings (g : Given) : Except Stop Settings :=
  match g.token with
  | none => .error (.missing .token)
  | some token => .ok {
      listen := g.listen.getD (.four ⟨0, 0, 0, 0⟩ 3000)
      token
      secret := g.secret
      policy := {
        Policy.standard with
        maxOpenPullRequests := g.maxOpenPrs.getD Policy.standard.maxOpenPullRequests
        checklistMarker := g.checklistMarker.getD Policy.standard.checklistMarker } }

end Given

/-! ## Arguments -/

/-- A flag whose value was not looked at yet, and the value if it has come. -/
structure Pending where
  flag : Flag
  value : Option String
  deriving DecidableEq, Repr

/-- Looks at the value of a flag that waits. -/
def settle (g : Given) : Option Pending → Except Stop Given
  | none => .ok g
  | some ⟨f, none⟩ => .error (.missingValue f)
  | some ⟨f, some value⟩ => g.give f value

/-- What an argument is. -/
inductive Argument where
  /-- The sign that no flags follow. -/
  | noMoreFlags
  /-- A name behind two dashes, with what stands behind an equals sign. -/
  | named (name : String) (value : Option String)
  /-- Letters behind one dash. -/
  | letters (first : Char)
  /-- Anything else. -/
  | plain
  deriving DecidableEq, Repr

/-- What an argument is, by its first characters. -/
def Argument.ofText (text : String) : Argument :=
  match text.toList with
  | ['-', '-'] => noMoreFlags
  | '-' :: '-' :: rest =>
    let name := String.ofList (rest.takeWhile (· ≠ '='))
    match rest.dropWhile (· ≠ '=') with
    | [] => named name none
    | _ :: value => named name (some (String.ofList value))
  | '-' :: c :: _ => letters c
  | _ => plain

/-- Reads arguments, with a flag that waits for its value or for a look at it. -/
def readArguments : List String → Given → Option Pending → Except Stop Given
  | [], g, pending => settle g pending
  | argument :: rest, g, pending =>
    match Argument.ofText argument with
    | .noMoreFlags => match rest with
      | [] => settle g pending
      | next :: _ => .error (.unknownArgument next)
    | .named name value => match Flag.all.find? fun f => f.name = name with
      | some f => match settle g pending with
        | .error e => .error e
        | .ok g => match value with
          | none => readArguments rest g (some ⟨f, none⟩)
          | some value => match g.give f value with
            | .error e => .error e
            | .ok g => readArguments rest g none
      | none =>
        if name = "help" || name = "version" then
          match value with
          | some _ => .error (.unwantedValue name)
          | none => match settle g pending with
            | .error e => .error e
            | .ok _ => .error (if name = "help" then .help else .version)
        else .error (.unknownArgument argument)
    | .letters c =>
      if c = 'h' || c = 'V' then
        match settle g pending with
        | .error e => .error e
        | .ok _ => .error (if c = 'h' then .help else .version)
      else .error (.unknownArgument argument)
    | .plain => match pending with
      | some ⟨f, none⟩ => readArguments rest g (some ⟨f, some argument⟩)
      | _ => .error (.unknownArgument argument)

/-- The settings that arguments and the environment make. -/
def parse (arguments : List String) (environment : String → Option String) : Except Stop Settings := do
  let given ← readArguments arguments .nothing none
  let filled ← given.fill environment Flag.all
  filled.settings

end CommandLine

end PullGate
