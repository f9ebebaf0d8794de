import PullGate.Grammar.Automaton
/-!
# Reading a text

How a text is read as a phrase of a grammar. The automaton tells the scanner which tokens it could
take, and the scanner finds the next one; so the same characters may be different tokens at
different places. Where the automaton has several actions on a token, reading goes on with each of
them in its own thread. Threads that meet in the same states at the same place of the text are
readings of the same stretch, and only the better of them goes on.

What a reading is worth is built up on the way: a `Meaning` says what tokens stand for, and how the
parts of a phrase make up the whole.
-/

namespace PullGate.Grammar

/-! ## Scanners and meanings -/

/-- A token of the text with the places where it begins and ends. -/
structure Lexeme (τ : Type) where
  token : τ
  start : Nat
  stop : Nat

/-- What a scanner finds next; a filler, such as a comment, may stand between any two tokens. -/
inductive Scan (τ σ : Type) where
  | token (lexeme : Lexeme τ) (rest : σ)
  | filler (lexeme : Lexeme τ) (rest : σ)
  | finish

/-- Finds tokens in a text, from a state that says where in the text it stands. -/
structure Scanner (τ σ : Type) where
  position : σ → Nat
  /-- The next token, given which tokens are possible; none where no token begins. -/
  scan : (τ → Bool) → σ → Option (Scan τ σ)
  /-- What a token may be read as instead where it cannot be taken itself. -/
  otherwise : τ → Option τ

/-- What tokens and phrases stand for. Each part of a phrase comes with the marks its step has;
fillers among the parts have none. A phrase without a name is a stretch of a repetition. -/
structure Meaning (τ ν μ δ : Type) where
  token : Lexeme τ → δ
  phrase : Option ν → List (List μ × δ) → δ

/-! ## Threads -/

/-- A part of the text that was read, and the state it led to. -/
structure Frame (δ : Type) where
  state : Nat
  value : δ
  isFiller : Bool

/-- The token in front of a thread: the end of the text, or a lexeme and what follows it. -/
inductive Ahead (τ σ : Type) where
  | finish
  | lexeme (l : Lexeme τ) (rest : σ)

/-- One way of reading the text up to a place; the stack has the latest part first. -/
structure Thread (τ σ δ : Type) where
  stack : List (Frame δ)
  scanner : σ
  ahead : Option (Ahead τ σ)
  weight : Int
  taken : Nat

variable {τ ν μ σ δ : Type}

/-- The state on top of a stack. -/
def topState : List (Frame δ) → Nat
  | [] => 0
  | f :: _ => f.state

/-- Takes parts off a stack, one for each step, with the fillers between them. The steps' marks and
the frames both have the latest first; the parts come out in the order of the text. -/
def takeParts : List (List μ) → List (Frame δ) → List (List μ × δ) →
    Option (List (List μ × δ) × List (Frame δ))
  | [], stack, parts => some (parts, stack)
  | _ :: _, [], _ => none
  | m :: steps, f :: below, parts =>
    if f.isFiller then takeParts (m :: steps) below (([], f.value) :: parts)
    else takeParts steps below ((m, f.value) :: parts)

namespace Automaton

variable (A : Automaton τ ν μ)

/-- What to do in a state on a token number. -/
def actions (state token : Nat) : List Action :=
  match A.rows[state]? with
  | some row => row.actions.getD token []
  | none => []

/-- Whether a state can take or close anything on a token. -/
def expects (state : Nat) (t : τ) : Bool :=
  match A.number t with
  | some n => !(A.actions state n).isEmpty
  | none => false

/-- What to do in a state on what lies ahead, and the token it is then read as. -/
def actionsAhead (S : Scanner τ σ) (state : Nat) : Ahead τ σ → List Action × Ahead τ σ
  | .finish => (A.actions state 0, .finish)
  | .lexeme l rest =>
    let on (t : τ) : List Action := match A.number t with
      | some n => A.actions state n
      | none => []
    match on l.token, S.otherwise l.token with
    | [], some t => (on t, .lexeme { l with token := t } rest)
    | found, _ => (found, .lexeme l rest)

variable (M : Meaning τ ν μ δ)

/-- Closes a phrase on top of a stack; the weight is what the phrase adds. -/
def close (item : Nat) (stack : List (Frame δ)) : Option (List (Frame δ) × Int) := do
  let i ← A.items[item]?
  let fillers := stack.takeWhile (·.isFiller)
  let (parts, below) ← takeParts i.done (stack.dropWhile (·.isFiller)) []
  let row ← A.rows[topState below]?
  let state := row.gotos.getD i.head 0
  let closed : Frame δ := ⟨state, M.phrase A.phrases[i.head]? parts, false⟩
  return (fillers.map (fun f => { f with state }) ++ closed :: below, i.weight)

/-- The threads that one thread goes on with, and the reading it ends with if it is complete. -/
def step (S : Scanner τ σ) (t : Thread τ σ δ) : List (Thread τ σ δ) × Option (Thread τ σ δ) :=
  match t.ahead with
  | none =>
    match S.scan (A.expects (topState t.stack)) t.scanner with
    | none => ([], none)
    | some .finish => ([{ t with ahead := some .finish }], none)
    | some (.token l rest) => ([{ t with ahead := some (.lexeme l rest) }], none)
    | some (.filler l rest) =>
      let frame := ⟨topState t.stack, M.token l, true⟩
      ([{ t with stack := frame :: t.stack, scanner := rest }], none)
  | some ahead =>
    let (actions, ahead) := A.actionsAhead S (topState t.stack) ahead
    let reduces := actions.filterMap fun | .reduce i => some i | _ => none
    let closed := reduces.zipIdx.filterMap fun (item, n) => do
      let (stack, weight) ← A.close M item t.stack
      let ahead := if n + 1 = reduces.length then some ahead else none
      return { t with stack, weight := t.weight + weight, ahead }
    let taken := actions.filterMap fun
      | .shift state => match ahead with
        | .lexeme l rest => some
            { t with
              stack := ⟨state, M.token l, false⟩ :: t.stack
              scanner := rest, ahead := none, taken := t.taken + 1 }
        | .finish => none
      | _ => none
    (closed ++ taken, if actions.contains .accept then some t else none)

end Automaton

/-! ## All readings together -/

/-- Whether two threads have read the same stretch and stand in the same states. -/
def Thread.meets [BEq σ] (a b : Thread τ σ δ) : Bool :=
  a.ahead.isNone && b.ahead.isNone && a.scanner == b.scanner &&
    a.stack.map (fun f => (f.state, f.isFiller)) == b.stack.map (fun f => (f.state, f.isFiller))

/-- A reading is better than another by its weight, then by having taken fewer tokens. -/
def Thread.better (a b : Thread τ σ δ) : Bool :=
  b.weight < a.weight || (a.weight == b.weight && a.taken < b.taken)

/-- Adds a thread; of two that meet, the better one stays, and the earlier one of equals. -/
def insertThread [BEq σ] (t : Thread τ σ δ) : List (Thread τ σ δ) → List (Thread τ σ δ)
  | [] => [t]
  | u :: rest =>
    if t.meets u then (if t.better u then t else u) :: rest else u :: insertThread t rest

/-- The first of the threads that are least far in the text, and the others. -/
def pickThread (S : Scanner τ σ) :
    List (Thread τ σ δ) → Option (Thread τ σ δ × List (Thread τ σ δ))
  | [] => none
  | t :: rest =>
    match pickThread S rest with
    | none => some (t, [])
    | some (u, others) =>
      if S.position t.scanner ≤ S.position u.scanner then some (t, rest) else some (u, t :: others)

/-- Runs the threads for at most `steps` steps; the best complete reading so far is `found`. -/
def Automaton.run [BEq σ] (A : Automaton τ ν μ) (M : Meaning τ ν μ δ) (S : Scanner τ σ) :
    (steps : Nat) → List (Thread τ σ δ) → Option (Thread τ σ δ) → Option (Thread τ σ δ)
  | 0, _, _ => none
  | steps + 1, threads, found =>
    match pickThread S threads with
    | none => found
    | some (t, others) =>
      let (next, complete) := A.step M S t
      let found := match found, complete with
        | some f, some c => some (if c.better f then c else f)
        | none, c => c
        | f, none => f
      A.run M S steps (next.foldl (fun all t => insertThread t all) others) found

/-- More steps than reading takes for each character of a text. -/
def stepsPerCharacter : Nat := 4096

/-- What the best reading of a text stands for, from a scanner's state and the text's length. -/
def Automaton.read [BEq σ] (A : Automaton τ ν μ) (M : Meaning τ ν μ δ) (S : Scanner τ σ)
    (start : σ) (length : Nat) : Option δ := do
  let t ← A.run M S (stepsPerCharacter * (length + 2)) [⟨[], start, none, 0, 0⟩] none
  let top ← (t.stack.dropWhile (·.isFiller)).head?
  return top.value

end PullGate.Grammar
