import PullGate.CommandLine
import PullGate.Json.Write
import PullGate.Wire.Parts
/-!
# The program

Reads the settings and shows them, without the token and the secret.
-/

namespace PullGate

/-- The settings as they are shown. -/
def Settings.shown (s : Settings) : Json.Value :=
  .object [
    ("listen", .text s.listen.render),
    ("verifies_signatures", .flag s.secret.isSome),
    ("config", Wire.policy.write s.policy)]

end PullGate

/-- Shows the settings, or says why there are none. -/
def main (arguments : List String) : IO UInt32 := do
  let found ← PullGate.CommandLine.Flag.all.mapM fun f => do
    return (f.variableName, ← IO.getEnv f.variableName)
  let environment (name : String) : Option String := (found.lookup name).join
  match PullGate.CommandLine.parse arguments environment with
  | .ok settings =>
    IO.println (String.ofList settings.shown.render)
    return 0
  | .error stop =>
    match stop with
    | .help | .version =>
      IO.println stop.message
      return 0
    | _ =>
      IO.eprintln stop.message
      return 2
