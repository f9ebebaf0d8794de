import PullGate.Program
/-!
# Transcripts

A run as it looks from outside: what a program asked for, and how each of these was answered.
`Plays` says which transcripts a program can have at all, and how it then ends, without naming a
host; `plays_run` says that every run has such a transcript. Statements about all hosts are proved
by induction over `Plays`, one program after another with `Plays.of_bind`.
-/

namespace PullGate

/-! ## Transcripts -/

/-- What was asked for and how it was answered, in order. -/
abbrev Transcript := List (Effect × Except String Response)

/-- What was asked for. -/
def Transcript.effects (xs : Transcript) : List Effect := xs.map Prod.fst

@[simp] theorem Transcript.effects_nil : Transcript.effects [] = [] := rfl

@[simp] theorem Transcript.effects_cons (x : Effect × Except String Response) (xs : Transcript) :
    Transcript.effects (x :: xs) = x.1 :: Transcript.effects xs := rfl

@[simp] theorem Transcript.effects_append (xs ys : Transcript) :
    Transcript.effects (xs ++ ys) = Transcript.effects xs ++ Transcript.effects ys :=
  List.map_append

namespace Program

variable {α β σ : Type}

/-- The transcript of a run. -/
def transcript (host : Host σ) : Program α → σ → Transcript
  | done _, _ => []
  | mismatch _ _, _ => []
  | call e next, s =>
    match host.answer s e with
    | (.error m, _) => [(e, .error m)]
    | (.ok r, s) => (e, .ok r) :: (next r).transcript host s

/-- The transcript of a run names the effects that the run records. -/
theorem effects_run (host : Host σ) (p : Program α) (s : σ) :
    (p.run host s).1.effects = (p.transcript host s).effects := by
  induction p generalizing s with
  | done a => rfl
  | mismatch e r => rfl
  | call e next ih =>
    simp only [run, transcript]
    rcases host.answer s e with ⟨_ | r, s'⟩
    · rfl
    · rw [Transcript.effects_cons, ← ih r s']
      rfl

/-! ## What a program can do -/

/-- A program can have a transcript, and then ends in a certain way. -/
inductive Plays : Program α → Transcript → Except Failure α → Prop
  /-- The program has ended. -/
  | done (a : α) : Plays (.done a) [] (.ok a)
  /-- The program has given up. -/
  | mismatch (e : Effect) (r : Response) : Plays (.mismatch e r) [] (.error (.mismatch e r))
  /-- What the program asks for fails. -/
  | failed (e : Effect) (next : Response → Program α) (m : String) :
      Plays (.call e next) [(e, .error m)] (.error (.call e m))
  /-- What the program asks for is answered, and the program goes on. -/
  | answered {e : Effect} {next : Response → Program α} {r : Response} {xs : Transcript}
      {res : Except Failure α} (h : Plays (next r) xs res) :
      Plays (.call e next) ((e, .ok r) :: xs) res

/-- Every run is one of those that the program can have. -/
theorem plays_run (host : Host σ) (p : Program α) (s : σ) :
    p.Plays (p.transcript host s) (p.run host s).1.result := by
  induction p generalizing s with
  | done a => exact .done a
  | mismatch e r => exact .mismatch e r
  | call e next ih =>
    simp only [run, transcript]
    rcases host.answer s e with ⟨m | r, s'⟩
    · exact .failed e next m
    · exact .answered (ih r s')

/-- A program that is done asks for nothing. -/
theorem plays_done_iff {a : α} {xs : Transcript} {res : Except Failure α} :
    (done a).Plays xs res ↔ xs = [] ∧ res = .ok a := by
  constructor
  · rintro ⟨⟩
    exact ⟨rfl, rfl⟩
  · rintro ⟨rfl, rfl⟩
    exact .done a

/-- Two programs one after another: the first fails, or it comes to its end and the second goes on
from there. -/
theorem Plays.of_bind {p : Program α} {f : α → Program β} {xs : Transcript}
    {res : Except Failure β} (h : (p.bind f).Plays xs res) :
    (∃ e, p.Plays xs (.error e) ∧ res = .error e) ∨
      ∃ ys a zs, p.Plays ys (.ok a) ∧ (f a).Plays zs res ∧ xs = ys ++ zs := by
  induction p generalizing xs with
  | done a => exact .inr ⟨[], a, xs, .done a, h, rfl⟩
  | mismatch e r =>
    cases h
    exact .inl ⟨_, .mismatch e r, rfl⟩
  | call e next ih =>
    cases h with
    | failed _ _ m => exact .inl ⟨_, .failed e next m, rfl⟩
    | @answered _ _ r xs _ h =>
      rcases ih r h with ⟨e', h', hres⟩ | ⟨ys, a, zs, hp, hf, rfl⟩
      · exact .inl ⟨e', .answered h', hres⟩
      · exact .inr ⟨(e, .ok r) :: ys, a, zs, .answered hp, hf, rfl⟩

/-- Two programs one after another come to an end if the first does and the second goes on from
there. -/
theorem Plays.of_bind_ok {p : Program α} {f : α → Program β} {xs : Transcript} {b : β}
    (h : (p.bind f).Plays xs (.ok b)) :
    ∃ ys a zs, p.Plays ys (.ok a) ∧ (f a).Plays zs (.ok b) ∧ xs = ys ++ zs := by
  rcases h.of_bind with ⟨e, _, he⟩ | h
  · cases he
  · exact h

/-! ## Writes in a row -/

/-- Writes of two lists are carried out one list after the other. -/
theorem performAll_append (ws vs : List Effect) :
    performAll (ws ++ vs) = (performAll ws).bind fun _ => performAll vs := by
  induction ws with
  | nil => rfl
  | cons w ws ih => rw [List.cons_append, performAll, performAll, ih, bind_assoc]

/-- Writes in a row are asked for in their order: all of them, or up to the first that fails. -/
theorem Plays.performAll {ws : List Effect} {xs : Transcript} {res : Except Failure Unit}
    (h : (performAll ws).Plays xs res) :
    xs.effects <+: ws ∧ (xs.effects = ws ∨ ∃ e m, res = .error (.call e m)) := by
  induction ws generalizing xs with
  | nil =>
    obtain ⟨rfl, rfl⟩ := plays_done_iff.1 h
    exact ⟨List.prefix_rfl, .inl rfl⟩
  | cons w ws ih =>
    cases h with
    | failed _ _ m =>
      refine ⟨?_, .inr ⟨_, _, rfl⟩⟩
      exact List.prefix_append [w] ws
    | answered h =>
      obtain ⟨hstart, hall⟩ := ih h
      refine ⟨(List.prefix_cons_inj w).2 hstart, ?_⟩
      rcases hall with hall | hall
      · exact .inl (by rw [Transcript.effects_cons, hall])
      · exact .inr hall

/-! ## Programs that only read -/

/-- All that a program can ask for is a read. -/
def Reads : Program α → Prop
  | done _ => True
  | mismatch _ _ => True
  | call e next => e.isWrite = false ∧ ∀ r, (next r).Reads

/-- Two programs that only read do so one after the other. -/
theorem reads_bind {p : Program α} {f : α → Program β} (hp : p.Reads) (hf : ∀ a, (f a).Reads) :
    (p.bind f).Reads := by
  induction p with
  | done a => exact hf a
  | mismatch e r => trivial
  | call e next ih => exact ⟨hp.1, fun r => ih r (hp.2 r)⟩

/-- A program that only reads asks for no writes. -/
theorem Plays.isWrite_eq_false {p : Program α} (hp : p.Reads) {xs : Transcript}
    {res : Except Failure α} (h : p.Plays xs res) : ∀ e ∈ xs.effects, e.isWrite = false := by
  induction h with
  | done a => simp
  | mismatch e r => simp
  | failed e next m => simpa using hp.1
  | answered h ih =>
    intro e he
    rcases List.mem_cons.1 he with rfl | he
    · exact hp.1
    · exact ih (hp.2 _) e he

/-- The programs that are put together from the four reads. -/
inductive OfReads : {α : Type} → Program α → Prop
  | done {α : Type} (a : α) : OfReads (.done a)
  | changedFiles (pr : PrNumber) : OfReads (Program.changedFiles pr)
  | fileContent (path : String) (reference : Commit) : OfReads (Program.fileContent path reference)
  | openPrs (author : String) : OfReads (Program.openPrs author)
  | checkRuns (commit : Commit) : OfReads (Program.checkRuns commit)
  | bind {α β : Type} {p : Program α} {f : α → Program β} (hp : OfReads p)
      (hf : ∀ a, OfReads (f a)) : OfReads (p.bind f)

/-- A program made of reads only reads. -/
theorem OfReads.reads {p : Program α} (h : p.OfReads) : p.Reads := by
  induction h with
  | done a => trivial
  | changedFiles | fileContent | openPrs | checkRuns =>
    exact ⟨rfl, fun r => by cases r <;> trivial⟩
  | bind _ _ ihp ihf => exact reads_bind ihp ihf

/-! ## What reads are answered with -/

/-- The changed files are what one call was answered. -/
theorem Plays.changedFiles {pr : PrNumber} {xs : Transcript} {files : List FileChange}
    (h : (changedFiles pr).Plays xs (.ok files)) :
    xs = [(.listChangedFiles pr, .ok (.changedFiles files))] := by
  cases h with
  | @answered _ _ r _ _ h =>
    cases r <;> cases h
    rfl

/-- A file's text is what one call was answered. -/
theorem Plays.fileContent {path : String} {reference : Commit} {xs : Transcript} {text : String}
    (h : (fileContent path reference).Plays xs (.ok text)) :
    xs = [(.getFileContent path reference, .ok (.fileContent text))] := by
  cases h with
  | @answered _ _ r _ _ h =>
    cases r <;> cases h
    rfl

/-- A search is what one call was answered. -/
theorem Plays.openPrs {author : String} {xs : Transcript} {search : OpenSearch}
    (h : (openPrs author).Plays xs (.ok search)) :
    xs = [(.searchOpenPrs author, .ok (.openPrs search))] := by
  cases h with
  | @answered _ _ r _ _ h =>
    cases r <;> cases h
    rfl

end Program

end PullGate
