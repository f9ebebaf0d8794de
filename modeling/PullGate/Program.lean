import PullGate.Effect.Described
/-!
# Programs

A handler as a program: it asks for effects one after another, may look at each answer, and ends with
a result. Programs do nothing by themselves; `run` has a host answer their effects and keeps a
record of all that were asked for.
-/

namespace PullGate

/-- A program that ends with a result of type `α`. -/
inductive Program (α : Type) where
  /-- The program ends. -/
  | done (result : α)
  /-- The program gives up: the answer to an effect was of the wrong kind. -/
  | mismatch (effect : Effect) (response : Response)
  /-- The program asks for an effect and goes on with the answer. -/
  | call (effect : Effect) (next : Response → Program α)

namespace Program

variable {α β : Type}

/-- One program after another. -/
def bind : Program α → (α → Program β) → Program β
  | done a, f => f a
  | mismatch e r, _ => mismatch e r
  | call e next, f => call e fun r => (next r).bind f

instance : Monad Program where
  pure := done
  bind := bind

theorem pure_eq (a : α) : (pure a : Program α) = done a := rfl

theorem bind_eq (p : Program α) (f : α → Program β) : p >>= f = p.bind f := rfl

theorem bind_done (p : Program α) : p.bind done = p := by
  induction p with
  | done a => rfl
  | mismatch e r => rfl
  | call e next ih => simp only [bind, ih]

/-- Three programs one after another can be put together in both ways. -/
theorem bind_assoc {γ : Type} (p : Program α) (f : α → Program β) (g : β → Program γ) :
    (p.bind f).bind g = p.bind fun a => (f a).bind g := by
  induction p with
  | done a => rfl
  | mismatch e r => rfl
  | call e next ih => simp only [bind, ih]

/-! ## Asking -/

/-- Asks for a write; whatever is answered is accepted. -/
def perform (e : Effect) : Program Unit := call e fun _ => done ()

/-- Asks for writes in order. -/
def performAll : List Effect → Program Unit
  | [] => done ()
  | e :: es => (perform e).bind fun _ => performAll es

/-- Asks for the files that a pull request changes. -/
def changedFiles (pr : PrNumber) : Program (List FileChange) :=
  call (.listChangedFiles pr) fun
    | .changedFiles files => done files
    | other => mismatch (.listChangedFiles pr) other

/-- Asks for the text of a file. -/
def fileContent (path : String) (reference : Commit) : Program String :=
  call (.getFileContent path reference) fun
    | .fileContent text => done text
    | other => mismatch (.getFileContent path reference) other

/-- Asks for an author's open pull requests. -/
def openPrs (author : String) : Program OpenSearch :=
  call (.searchOpenPrs author) fun
    | .openPrs search => done search
    | other => mismatch (.searchOpenPrs author) other

/-- Asks for the runs of checks on a commit. -/
def checkRuns (commit : Commit) : Program (List CheckRun) :=
  call (.listCheckRuns commit) fun
    | .checkRuns runs => done runs
    | other => mismatch (.listCheckRuns commit) other

end Program

/-! ## Runs -/

/-- What answers effects. An answer may hang on a state, and may be a failure with its message. -/
structure Host (σ : Type) where
  answer : σ → Effect → Except String Response × σ

/-- Why a run did not end with a result. -/
inductive Failure where
  /-- An effect failed. -/
  | call (effect : Effect) (message : String)
  /-- An effect was answered with the wrong kind of answer. -/
  | mismatch (effect : Effect) (response : Response)
  deriving DecidableEq, Repr

/-- What is said about a failure. -/
def Failure.message : Failure → String
  | call e m => s!"GitHub call failed: GitHub {e.operation} failed: {m}"
  | mismatch e r => s!"unexpected response to {e.operation}: {r.described}"

/-- The record of a run: all effects that were asked for, and how it ended. -/
structure Trace (α : Type) where
  effects : List Effect
  result : Except Failure α

/-- The record with one effect in front. -/
def Trace.cons {α : Type} (e : Effect) (t : Trace α) : Trace α := ⟨e :: t.effects, t.result⟩

namespace Program

variable {α β σ : Type}

/-- Runs a program: the host answers its effects in order, and the first failure ends the run. -/
def run (host : Host σ) : Program α → σ → Trace α × σ
  | done a, s => (⟨[], .ok a⟩, s)
  | mismatch e r, s => (⟨[], .error (.mismatch e r)⟩, s)
  | call e next, s =>
    match host.answer s e with
    | (.error m, s) => (⟨[e], .error (.call e m)⟩, s)
    | (.ok r, s) => let (t, s) := (next r).run host s; (t.cons e, s)

/-- A run of two programs one after another is the run of the first, and if that ends with a result,
then the run of the second. -/
theorem run_bind (host : Host σ) (p : Program α) (f : α → Program β) (s : σ) :
    (p.bind f).run host s =
      match p.run host s with
      | (⟨es, .ok a⟩, s) => let (t, s) := (f a).run host s; (⟨es ++ t.effects, t.result⟩, s)
      | (⟨es, .error e⟩, s) => (⟨es, .error e⟩, s) := by
  induction p generalizing s with
  | done a => rfl
  | mismatch e r => rfl
  | call e next ih =>
    simp only [bind, run]
    rcases host.answer s e with ⟨_ | r, s'⟩
    · rfl
    · simp only [ih]
      rcases (next r).run host s' with ⟨⟨es, _ | a⟩, s''⟩ <;> rfl

end Program

end PullGate
