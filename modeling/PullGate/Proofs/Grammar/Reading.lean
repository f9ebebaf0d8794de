import PullGate.Proofs.Grammar.States
/-!
# What is read is a phrase of the grammar

`RuleSet.Reads` says what stretches of tokens are phrases of a grammar, and what they stand for. Whatever
the automaton of a grammar reads is a phrase of it, spelled by tokens that the scanner found one after
another (`RuleSet.reads_of_read`).

The threads keep that each part on a stack was read so, and that its state is one to which the state
below leads (`Stacked`). So the parts that are taken off when a phrase is closed are those of one of its
flat sequences, by going down the stack from the finished item to the beginning of its production.
-/

namespace PullGate.Grammar

variable {τ ν μ σ δ : Type}

/-! ## Phrases -/

/-- Parts of a phrase, one for each step, with fillers after any of them. -/
inductive Parts {α : Type} (M : Meaning τ ν μ δ) (R : α → List (Lexeme τ) → δ → Prop) :
    List (Step α μ) → List (Lexeme τ) → List (List μ × δ) → Prop
  | nil : Parts M R [] [] []
  | step {steps : List (Step α μ)} {ls ls' : List (Lexeme τ)} {parts : List (List μ × δ)} {v : δ}
      (before : Parts M R steps ls parts) (s : Step α μ) (reads : R s.symbol ls' v) :
      Parts M R (steps ++ [s]) (ls ++ ls') (parts ++ [(s.marks, v)])
  | filler {steps : List (Step α μ)} {ls : List (Lexeme τ)} {parts : List (List μ × δ)}
      (before : Parts M R steps ls parts) (ne : steps ≠ []) (l : Lexeme τ) :
      Parts M R steps (ls ++ [l]) (parts ++ [([], M.token l)])

namespace Parts

variable {α : Type} {M : Meaning τ ν μ δ} {R : α → List (Lexeme τ) → δ → Prop} {steps : List (Step α μ)}
  {ls : List (Lexeme τ)} {parts : List (List μ × δ)}

/-- A part is that of a step, or a filler. -/
theorem cases_of_mem (h : Parts M R steps ls parts) {p : List μ × δ} (hp : p ∈ parts) :
    (∃ t ∈ steps, t.marks = p.1 ∧ ∃ ls', R t.symbol ls' p.2) ∨ ∃ l, p = ([], M.token l) := by
  induction h with
  | nil => cases hp
  | step before s reads ih =>
    rcases List.mem_append.1 hp with hp | hp
    · exact (ih hp).imp_left fun ⟨t, ht, h⟩ => ⟨t, List.mem_append_left _ ht, h⟩
    · cases List.mem_singleton.1 hp
      exact .inl ⟨s, List.mem_append_right _ List.mem_cons_self, rfl, _, reads⟩
  | filler before ne l ih =>
    rcases List.mem_append.1 hp with hp | hp
    · exact ih hp
    · exact .inr ⟨l, List.mem_singleton.1 hp⟩

/-- Without steps there are neither tokens nor parts. -/
theorem eq_nil_of_nil (h : Parts M R [] ls parts) : ls = [] ∧ parts = [] := by
  generalize hsteps : ([] : List (Step α μ)) = steps at h
  cases h with
  | nil => exact ⟨rfl, rfl⟩
  | step _ s => simp at hsteps
  | filler _ ne => exact absurd hsteps.symm ne

/-- The first part is that of the first step. -/
theorem head_of_cons (h : Parts M R steps ls parts) (hne : steps ≠ []) :
    ∃ t ∈ steps.head?, ∃ v ls₁ ls₂ rest, R t.symbol ls₁ v ∧ ls = ls₁ ++ ls₂ ∧
      parts = (t.marks, v) :: rest := by
  induction h with
  | nil => exact absurd rfl hne
  | @step steps ls ls' parts v before s reads ih =>
    rcases steps with _ | ⟨t, steps⟩
    · obtain ⟨rfl, rfl⟩ := before.eq_nil_of_nil
      exact ⟨s, rfl, v, ls', [], [], reads, (List.append_nil ls').symm, rfl⟩
    · obtain ⟨t', ht', v', ls₁, ls₂, rest, hreads, rfl, rfl⟩ := ih (List.cons_ne_nil t steps)
      exact ⟨t', ht', v', ls₁, ls₂ ++ ls', rest ++ [(s.marks, v)], hreads, List.append_assoc _ _ _, rfl⟩
  | filler before ne l ih =>
    obtain ⟨t, ht, v, ls₁, ls₂, rest, hreads, rfl, rfl⟩ := ih hne
    exact ⟨t, ht, v, ls₁, ls₂ ++ [l], rest ++ [([], M.token l)], hreads, List.append_assoc _ _ _, rfl⟩

end Parts

section

variable [DecidableEq τ] [DecidableEq ν] [DecidableEq μ]

/-- The tokens are a phrase, or a token by itself, and stand for this. -/
inductive RuleSet.Reads (g : RuleSet τ ν μ) (M : Meaning τ ν μ δ) :
    Symbol τ ν → List (Lexeme τ) → δ → Prop
  | token (l : Lexeme τ) : g.Reads M (.token l.token) [l] (M.token l)
  | phrase {s : Symbol τ ν} {steps : List (Step (Symbol τ ν) μ)} {ls : List (Lexeme τ)}
      {parts : List (List μ × δ)} (produces : g.Produces s steps)
      (reads : Parts M (g.Reads M) steps ls parts) : g.Reads M s ls (M.phrase s.name? parts)

/-- What holds of tokens, and of a phrase if of its parts, holds of all that is read. -/
theorem RuleSet.Reads.induct {g : RuleSet τ ν μ} {M : Meaning τ ν μ δ}
    {P : Symbol τ ν → List (Lexeme τ) → δ → Prop} (token : ∀ l, P (.token l.token) [l] (M.token l))
    (phrase : ∀ s steps ls parts, g.Produces s steps → Parts M P steps ls parts →
      P s ls (M.phrase s.name? parts))
    {s : Symbol τ ν} {ls : List (Lexeme τ)} {v : δ} (h : g.Reads M s ls v) : P s ls v := by
  refine @Reads.rec τ ν μ δ _ _ _ g M (fun s ls v _ => P s ls v)
    (fun steps ls parts _ => Parts M P steps ls parts) token ?_ .nil ?_ ?_ s ls v h
  · intro s steps ls parts produces _ ih
    exact phrase s steps ls parts produces ih
  · intro _ _ _ _ _ _ s _ ih ih'
    exact .step ih s ih'
  · intro _ _ _ _ ne l ih
    exact .filler ih ne l

end

/-! ## What the scanner found -/

/-- What a token may be read as. -/
inductive Scanner.ReadAs (S : Scanner τ σ) (l : Lexeme τ) : Lexeme τ → Prop
  | same : S.ReadAs l l
  | again {l' : Lexeme τ} {t : τ} (before : S.ReadAs l l') (h : S.otherwise l'.token = some t) :
      S.ReadAs l { l' with token := t }

/-- What a token is read as may be read as something else in turn. -/
theorem Scanner.ReadAs.trans {S : Scanner τ σ} {l l' l'' : Lexeme τ} (h : S.ReadAs l l')
    (h' : S.ReadAs l' l'') : S.ReadAs l l'' := by
  induction h' with
  | same => exact h
  | again _ hother ih => exact .again ih hother

/-- The scanner finds these tokens and fillers one after another, and then stands at a state. -/
inductive Scanner.Finds (S : Scanner τ σ) (start : σ) : List (Lexeme τ) → σ → Prop
  | nil : S.Finds start [] start
  | token {ls : List (Lexeme τ)} {s rest : σ} {expects : τ → Bool} {l l' : Lexeme τ}
      (before : S.Finds start ls s) (h : S.scan expects s = some (.token l rest))
      (read : S.ReadAs l l') : S.Finds start (ls ++ [l']) rest
  | filler {ls : List (Lexeme τ)} {s rest : σ} {expects : τ → Bool} {l : Lexeme τ}
      (before : S.Finds start ls s) (h : S.scan expects s = some (.filler l rest)) :
      S.Finds start (ls ++ [l]) rest

/-- What lies ahead was found there. -/
def Ahead.Found (S : Scanner τ σ) (s : σ) : Ahead τ σ → Prop
  | .finish => True
  | .lexeme l rest => ∃ expects l', S.scan expects s = some (.token l' rest) ∧ S.ReadAs l' l

/-- What lies ahead is read as it is or as something else, and what is done is done on that. -/
theorem actionsAhead_lexeme (A : Automaton τ ν μ) (S : Scanner τ σ) (n : Nat) (l : Lexeme τ) (rest : σ) :
    ∃ l', S.ReadAs l l' ∧ (A.actionsAhead S n (.lexeme l rest)).2 = .lexeme l' rest ∧
      ∀ b ∈ (A.actionsAhead S n (.lexeme l rest)).1, ∃ t, A.number l'.token = some t ∧
        b ∈ A.actions n t := by
  unfold Automaton.actionsAhead
  dsimp only
  split
  · rename_i t _ hother
    refine ⟨{ l with token := t }, .again .same hother, rfl, fun b hb => ?_⟩
    dsimp only at hb
    split at hb
    · exact ⟨_, ‹_›, hb⟩
    · cases hb
  · refine ⟨l, .same, rfl, fun b hb => ?_⟩
    dsimp only at hb
    split at hb
    · exact ⟨_, ‹_›, hb⟩
    · cases hb

/-! ## Stacks -/

/-- The parts on a stack were read so, and the state below each leads to its own. -/
inductive Stacked (M : Meaning τ ν μ δ) (R : Code → List (Lexeme τ) → δ → Prop)
    (stands : Nat → Item μ → Prop) : List (Frame δ) → List (Lexeme τ) → Prop
  | nil : Stacked M R stands [] []
  | filler {below : List (Frame δ)} {ls : List (Lexeme τ)} (h : Stacked M R stands below ls)
      (l : Lexeme τ) : Stacked M R stands (⟨topState below, M.token l, true⟩ :: below) (ls ++ [l])
  | part {below : List (Frame δ)} {ls ls' : List (Lexeme τ)} {c : Code} {v : δ} {state : Nat}
      (h : Stacked M R stands below ls) (reads : R c ls' v)
      (leads : ∀ j, stands state j → j.done ≠ [] → ∃ i, stands (topState below) i ∧ i.Goes c j) :
      Stacked M R stands (⟨state, v, false⟩ :: below) (ls ++ ls')

section

variable {M : Meaning τ ν μ δ} {R : Code → List (Lexeme τ) → δ → Prop} {stands : Nat → Item μ → Prop}

/-- The parts found are those that were taken for an item off a stack, in front of others: what is left of
the stack ends in a state where the item's production begins. -/
def Took (M : Meaning τ ν μ δ) (R : Code → List (Lexeme τ) → δ → Prop) (stands : Nat → Item μ → Prop)
    (j : Item μ) (ls : List (Lexeme τ)) (parts found : List (List μ × δ)) (below : List (Frame δ)) : Prop :=
  ∃ before after i steps taken, ls = before ++ after ∧ found = taken ++ parts ∧
    Stacked M R stands below before ∧ Parts M R steps after taken ∧ stands (topState below) i ∧
    i.done = [] ∧ i.head = j.head ∧ i.left = steps ++ j.left ∧ (j.done ≠ [] → steps ≠ [])

/-- At the beginning of its production an item takes nothing off the stack. -/
theorem Stacked.took_nothing {stack below : List (Frame δ)} {ls : List (Lexeme τ)} {j : Item μ}
    {parts found : List (List μ × δ)} (h : Stacked M R stands stack ls) (hj : stands (topState stack) j)
    (hdone : j.done = []) (htaken : takeParts j.done stack parts = some (found, below)) :
    Took M R stands j ls parts found below := by
  rw [hdone, takeParts] at htaken
  cases htaken
  exact ⟨ls, [], j, [], [], (List.append_nil ls).symm, rfl, h, .nil, hj, hdone, rfl, rfl, absurd hdone⟩

/-- The parts that are taken off are those of what stands in the state on top, up to the state where its
production begins. -/
theorem Stacked.took {stack below : List (Frame δ)} {ls : List (Lexeme τ)} {j : Item μ}
    {parts found : List (List μ × δ)} (h : Stacked M R stands stack ls)
    (hj : stands (topState stack) j) (htaken : takeParts j.done stack parts = some (found, below)) :
    Took M R stands j ls parts found below := by
  by_cases hdone : j.done = []
  · exact h.took_nothing hj hdone htaken
  obtain ⟨m, done, hcons⟩ := List.exists_cons_of_ne_nil hdone
  rw [hcons] at htaken
  induction h generalizing j parts m done with
  | nil => cases htaken
  | @filler below' ls' h l ih =>
    rw [takeParts, if_pos rfl] at htaken
    obtain ⟨before, after, i, steps, taken, rfl, rfl, hbelow, hparts, hi, hbegins, hhead, hleft, hne⟩ :=
      ih hj hdone m done htaken hcons
    exact ⟨before, after ++ [l], i, steps, taken ++ [([], M.token l)], List.append_assoc _ _ _,
      List.append_cons _ _ _, hbelow, hparts.filler (hne hdone) l, hi, hbegins, hhead, hleft, hne⟩
  | @part below' ls' ls'' c v state h reads leads ih =>
    rw [takeParts, if_neg Bool.false_ne_true] at htaken
    obtain ⟨i', hi', s, rest, hleft', rfl, hnext⟩ := leads j hj hdone
    rw [Item.next?, hleft'] at hnext
    cases hnext
    cases hcons
    have htook : Took M R stands i' ls' ((s.marks, v) :: parts) found below := by
      by_cases hfirst : i'.done = []
      · exact h.took_nothing hi' hfirst htaken
      · obtain ⟨m, done, hcons⟩ := List.exists_cons_of_ne_nil hfirst
        exact ih hi' hfirst m done (by rwa [hcons] at htaken) hcons
    obtain ⟨before, after, i, steps, taken, rfl, rfl, hbelow, hparts, hi, hbegins, hhead, hleft, -⟩ := htook
    refine ⟨before, after ++ ls'', i, steps ++ [s], taken ++ [(s.marks, v)], List.append_assoc _ _ _,
      List.append_cons _ _ _, hbelow, hparts.step s reads, hi, hbegins, hhead, ?_, fun _ => by simp⟩
    rw [hleft, hleft', List.append_assoc, List.singleton_append]

/-- Fillers on top of a stack can be put on another. -/
theorem Stacked.refill {stack : List (Frame δ)} {ls : List (Lexeme τ)} (h : Stacked M R stands stack ls) :
    ∃ before after, ls = before ++ after ∧ Stacked M R stands (stack.dropWhile (·.isFiller)) before ∧
      topState (stack.dropWhile (·.isFiller)) = topState stack ∧
      ∀ {stack' : List (Frame δ)} {ls' : List (Lexeme τ)}, Stacked M R stands stack' ls' →
        Stacked M R stands ((stack.takeWhile (·.isFiller)).map (fun f => { f with state := topState stack' })
          ++ stack') (ls' ++ after) := by
  induction h with
  | nil => exact ⟨[], [], rfl, .nil, rfl, fun h => by simpa using h⟩
  | @filler below ls h l ih =>
    obtain ⟨before, after, rfl, hdrop, htop, hput⟩ := ih
    refine ⟨before, after ++ [l], List.append_assoc _ _ _, ?_, ?_, fun {stack' ls'} h' => ?_⟩
    · rwa [List.dropWhile_cons_of_pos rfl]
    · rw [List.dropWhile_cons_of_pos rfl]
      exact htop
    · rw [List.takeWhile_cons_of_pos rfl, List.map_cons, List.cons_append, ← List.append_assoc]
      have htop' (fs : List (Frame δ)) :
          topState (fs.map (fun f => { f with state := topState stack' }) ++ stack') = topState stack' := by
        cases fs <;> rfl
      have hall := (hput h').filler l
      rw [htop'] at hall
      exact hall
  | part h reads leads =>
    refine ⟨_, [], (List.append_nil _).symm, ?_, ?_, fun h' => ?_⟩
    · rw [List.dropWhile_cons_of_neg (by simp)]
      exact .part h reads leads
    · rw [List.dropWhile_cons_of_neg (by simp)]
    · rw [List.takeWhile_cons_of_neg (by simp)]
      simpa using h'

end

/-! ## Lists of threads -/

/-- Among the threads after one is put in are that one and those before. -/
theorem mem_insertThread [BEq σ] {t u : Thread τ σ δ} {ts : List (Thread τ σ δ)}
    (h : u ∈ insertThread t ts) : u = t ∨ u ∈ ts := by
  induction ts with
  | nil => exact .inl (List.mem_singleton.1 h)
  | cons v rest ih =>
    rw [insertThread] at h
    split at h
    · rcases List.mem_cons.1 h with rfl | h
      · split
        · exact .inl rfl
        · exact .inr List.mem_cons_self
      · exact .inr (List.mem_cons_of_mem v h)
    · rcases List.mem_cons.1 h with rfl | h
      · exact .inr List.mem_cons_self
      · exact (ih h).imp_right (List.mem_cons_of_mem v)

/-- The thread that is picked is one of them, and so are the others. -/
theorem mem_of_pickThread {S : Scanner τ σ} {t : Thread τ σ δ} {ts others : List (Thread τ σ δ)}
    (h : pickThread S ts = some (t, others)) : t ∈ ts ∧ others ⊆ ts := by
  induction ts generalizing t others with
  | nil => cases h
  | cons v rest ih =>
    rw [pickThread] at h
    split at h
    · cases h
      exact ⟨List.mem_cons_self, List.nil_subset _⟩
    · rename_i hpick
      obtain ⟨hmem, hsub⟩ := ih hpick
      split at h
      · cases h
        exact ⟨List.mem_cons_self, List.subset_cons_self _ _⟩
      · cases h
        exact ⟨List.mem_cons_of_mem v hmem, List.cons_subset_cons v hsub⟩

/-- The better of two is one of them. -/
theorem mem_better {P : Thread τ σ δ → Prop} {found complete : Option (Thread τ σ δ)}
    (hfound : ∀ t ∈ found, P t) (hcomplete : ∀ t ∈ complete, P t) :
    ∀ t ∈ (match found, complete with
      | some f, some c => some (if c.better f then c else f)
      | none, c => c
      | f, none => f), P t := by
  intro t ht
  rcases found with _ | f <;> rcases complete with _ | c <;> dsimp only at ht
  · cases ht
  · exact hcomplete t ht
  · exact hfound t ht
  · split at ht
    · cases ht
      exact hcomplete t rfl
    · cases ht
      exact hfound t rfl

/-! ## What a step can do -/

/-- What a thread goes on with in one step: something is found ahead, a filler goes on the stack, a phrase
is closed or a token is taken. -/
inductive Automaton.Steps (A : Automaton τ ν μ) (M : Meaning τ ν μ δ) (S : Scanner τ σ)
    (t : Thread τ σ δ) : Thread τ σ δ → Prop
  | finish (none_ahead : t.ahead = none)
      (scan : S.scan (A.expects (topState t.stack)) t.scanner = some .finish) :
      A.Steps M S t { t with ahead := some .finish }
  | token {l : Lexeme τ} {rest : σ} (none_ahead : t.ahead = none)
      (scan : S.scan (A.expects (topState t.stack)) t.scanner = some (.token l rest)) :
      A.Steps M S t { t with ahead := some (.lexeme l rest) }
  | filler {l : Lexeme τ} {rest : σ} (none_ahead : t.ahead = none)
      (scan : S.scan (A.expects (topState t.stack)) t.scanner = some (.filler l rest)) :
      A.Steps M S t { t with stack := ⟨topState t.stack, M.token l, true⟩ :: t.stack, scanner := rest }
  | close {a : Ahead τ σ} {k : Nat} {stack : List (Frame δ)} {w : Int} {ahead : Option (Ahead τ σ)}
      (some_ahead : t.ahead = some a)
      (reduce : .reduce k ∈ (A.actionsAhead S (topState t.stack) a).1)
      (closed : A.close M k t.stack = some (stack, w))
      (same : ∀ b ∈ ahead, b = (A.actionsAhead S (topState t.stack) a).2) :
      A.Steps M S t { t with stack, weight := t.weight + w, ahead }
  | take {a : Ahead τ σ} {state : Nat} {l : Lexeme τ} {rest : σ} (some_ahead : t.ahead = some a)
      (shift : .shift state ∈ (A.actionsAhead S (topState t.stack) a).1)
      (found : (A.actionsAhead S (topState t.stack) a).2 = .lexeme l rest) :
      A.Steps M S t { t with
        stack := ⟨state, M.token l, false⟩ :: t.stack
        scanner := rest, ahead := none, taken := t.taken + 1 }

/-- A thread goes on in one of the ways there are. -/
theorem Automaton.steps_of_mem_step {A : Automaton τ ν μ} {M : Meaning τ ν μ δ} {S : Scanner τ σ}
    {t t' : Thread τ σ δ} (h : t' ∈ (A.step M S t).1) : A.Steps M S t t' := by
  unfold Automaton.step at h
  split at h
  · rename_i hahead
    split at h
    · cases h
    · rename_i hscan
      rw [List.mem_singleton.1 h]
      exact .finish hahead hscan
    · rename_i l rest hscan
      rw [List.mem_singleton.1 h]
      exact .token hahead hscan
    · rename_i l rest hscan
      rw [List.mem_singleton.1 h]
      exact .filler hahead hscan
  · rename_i a hahead
    dsimp only at h
    rcases List.mem_append.1 h with h | h
    · obtain ⟨⟨k, n⟩, hk, hclose⟩ := List.mem_filterMap.1 h
      simp only [Option.bind_eq_bind, Option.bind_eq_some_iff] at hclose
      obtain ⟨⟨stack, w⟩, hclose, heq⟩ := hclose
      cases heq
      obtain ⟨b, hb, hreduce⟩ := List.mem_filterMap.1 (List.fst_mem_of_mem_zipIdx hk)
      split at hreduce
      · cases hreduce
        refine .close hahead hb hclose fun b hb => ?_
        split at hb
        · cases hb
          rfl
        · cases hb
      · cases hreduce
    · obtain ⟨b, hb, htaken⟩ := List.mem_filterMap.1 h
      split at htaken
      · split at htaken
        · rename_i hfound
          cases htaken
          exact .take hahead hb hfound
        · cases htaken
      · cases htaken

/-! ## Closing a phrase -/

variable [DecidableEq τ] [DecidableEq ν] [DecidableEq μ] [Hashable τ] [Hashable ν]

namespace RuleSet

variable {g : RuleSet τ ν μ} {M : Meaning τ ν μ δ} {stands : Nat → Item μ → Prop}

/-- A symbol with this code is read. -/
def ReadsCode (g : RuleSet τ ν μ) (M : Meaning τ ν μ δ) (c : Code) (ls : List (Lexeme τ)) (v : δ) : Prop :=
  ∃ s, g.Has s ∧ g.code s = c ∧ g.Reads M s ls v

/-- Parts that are read by code are read. -/
theorem parts_of_coded {steps : List (Step (Symbol τ ν) μ)} {ls : List (Lexeme τ)}
    {parts : List (List μ × δ)} (hsteps : ∀ t ∈ steps, g.Has t.symbol)
    (h : Parts M (g.ReadsCode M) (steps.map g.coded) ls parts) : Parts M (g.Reads M) steps ls parts := by
  generalize hcoded : steps.map g.coded = coded at h
  induction h generalizing steps with
  | nil =>
    rw [List.map_eq_nil_iff.1 hcoded]
    exact .nil
  | step before s reads ih =>
    obtain ⟨first, last, rfl, hfirst, hlast⟩ := List.map_eq_append_iff.1 hcoded
    obtain ⟨t, rfl, rfl⟩ := List.map_eq_singleton_iff.1 hlast
    obtain ⟨s, hs, hcode, hread⟩ := reads
    have hsame : s = t.symbol :=
      code_injective hs (hsteps t (List.mem_append_right _ List.mem_cons_self)) hcode
    subst hsame
    exact .step (ih (fun t ht => hsteps t (List.mem_append_left _ ht)) hfirst) t hread
  | filler before ne l ih =>
    refine .filler (ih hsteps hcoded) ?_ l
    rintro rfl
    exact ne hcoded.symm

variable [Hashable μ]

/-- Closing a phrase keeps what is said of a stack. -/
theorem States.close (hstates : g.States stands) (hclosed : g.Closed) {stack stack' : List (Frame δ)}
    {ls : List (Lexeme τ)} (h : Stacked M (g.ReadsCode M) stands stack ls) {k t : Nat} {w : Int}
    (hk : .reduce k ∈ g.automaton.actions (topState stack) t)
    (hclose : g.automaton.close M k stack = some (stack', w)) :
    Stacked M (g.ReadsCode M) stands stack' ls := by
  obtain ⟨j, hj, hhead, hleft, hstands⟩ := hstates.reduce _ t k hk
  simp only [Automaton.close, Option.bind_eq_bind, Option.bind_eq_some_iff] at hclose
  obtain ⟨j', hj', ⟨parts, below⟩, htaken, row, hrow, heq⟩ := hclose
  rw [hj] at hj'
  cases hj'
  cases heq
  obtain ⟨before, after, rfl, hdrop, htop, hput⟩ := h.refill
  obtain ⟨first, phrase, i, steps, taken, rfl, rfl, hbelow, hparts, hi, hbegins, hsame, hsteps, -⟩ :=
    hdrop.took (htop ▸ hstands) htaken
  rw [hleft, List.append_nil] at hsteps
  obtain ⟨p, hp, rfl⟩ := hstates.begins _ i hi hbegins
  have hp : p ∈ g.numbered.productions := by
    refine (mem_allProductions.1 hp).resolve_right ?_
    rintro rfl
    exact hhead hsame.symm
  obtain ⟨-, s, steps', hproduces, hcode, hsteps'⟩ := exists_produces hp
  have hread : g.ReadsCode M (.head j.head) phrase
      (M.phrase g.automaton.phrases[j.head]? (taken ++ [])) := by
    refine ⟨s, hproduces.has, hsame ▸ hcode, ?_⟩
    have hname : g.automaton.phrases[j.head]? = s.name? :=
      getElem?_phrases hproduces.has (hsame ▸ hcode)
    rw [hname, List.append_nil]
    refine .phrase hproduces (parts_of_coded (fun t ht => hclosed.has hproduces ht) ?_)
    rw [← hsteps']
    subst hsteps
    exact hparts
  exact hput (.part hbelow hread fun j' hj' hdone => hstates.goto _ row j.head j' hrow hj' hdone)

/-! ## Threads -/

variable {S : Scanner τ σ} {start : σ}

/-- A thread has read what is on its stack, and stands where the scanner came to. -/
structure Reached (g : RuleSet τ ν μ) (M : Meaning τ ν μ δ) (stands : Nat → Item μ → Prop)
    (S : Scanner τ σ) (start : σ) (t : Thread τ σ δ) (ls : List (Lexeme τ)) : Prop where
  stacked : Stacked M (g.ReadsCode M) stands t.stack ls
  found : S.Finds start ls t.scanner
  ahead : ∀ a ∈ t.ahead, a.Found S t.scanner

/-- A numbered token is one of the grammar, under this number. -/
theorem code_of_number {t : τ} {n : Nat} (h : g.automaton.number t = some n) :
    g.Has (.token t) ∧ g.code (.token t) = .token n := by
  rw [automaton_eq] at h
  obtain ⟨m, hm, rfl⟩ := Option.map_eq_some_iff.1 h
  have hat : (numbering g.tokenList).1[m]? = some t := numbering_again g.tokenList hm
  have hnumbers := numbers_numbering g.tokenList
  exact ⟨(hnumbers.mem_iff t).2 ⟨m, hat⟩, congrArg (fun n => Code.token (n + 1)) (hnumbers.getD_eq hat 0)⟩

/-- What lies ahead was found as what it is read as. -/
theorem found_actionsAhead {s : σ} {n : Nat} {a : Ahead τ σ} (ha : a.Found S s) :
    (g.automaton.actionsAhead S n a).2.Found S s := by
  cases a with
  | finish => trivial
  | lexeme l rest =>
    obtain ⟨expects, l', hscan, hread⟩ := ha
    obtain ⟨l'', hread', heq, -⟩ := actionsAhead_lexeme g.automaton S n l rest
    rw [heq]
    exact ⟨expects, l', hscan, hread.trans hread'⟩

/-- What is done on what lies ahead is an action of the state on some token. -/
theorem exists_mem_actions {n : Nat} {a : Ahead τ σ} {b : Action}
    (hb : b ∈ (g.automaton.actionsAhead S n a).1) : ∃ t, b ∈ g.automaton.actions n t := by
  cases a with
  | finish => exact ⟨0, hb⟩
  | lexeme l rest =>
    obtain ⟨_, -, -, hall⟩ := actionsAhead_lexeme g.automaton S n l rest
    obtain ⟨t, -, ht⟩ := hall b hb
    exact ⟨t, ht⟩

/-- What is done on a token that lies ahead is an action of the state on this token, as it is read. -/
theorem exists_number_of_mem_actions {n : Nat} {a : Ahead τ σ} {l : Lexeme τ} {rest : σ}
    (ha : (g.automaton.actionsAhead S n a).2 = .lexeme l rest) {b : Action}
    (hb : b ∈ (g.automaton.actionsAhead S n a).1) :
    ∃ t, g.automaton.number l.token = some t ∧ b ∈ g.automaton.actions n t := by
  cases a with
  | finish => cases ha
  | lexeme l' rest' =>
    obtain ⟨l'', -, heq, hall⟩ := actionsAhead_lexeme g.automaton S n l' rest'
    rw [heq] at ha
    cases ha
    exact hall b hb

/-- One step keeps what is said of threads. -/
theorem States.step (hstates : g.States stands) (hclosed : g.Closed) {t t' : Thread τ σ δ}
    {ls : List (Lexeme τ)} (h : Reached g M stands S start t ls) (ht' : t' ∈ (g.automaton.step M S t).1) :
    ∃ ls', Reached g M stands S start t' ls' := by
  cases Automaton.steps_of_mem_step ht' with
  | finish =>
    exact ⟨ls, h.stacked, h.found, by rintro a ⟨⟩; trivial⟩
  | @token l _ _ hscan =>
    exact ⟨ls, h.stacked, h.found, by rintro a ⟨⟩; exact ⟨_, l, hscan, .same⟩⟩
  | @filler l _ hahead hscan =>
    refine ⟨ls ++ [l], h.stacked.filler l, h.found.filler hscan, fun a ha => ?_⟩
    rw [hahead] at ha
    cases ha
  | close hahead hreduce hclose hsame =>
    obtain ⟨token, htoken⟩ := exists_mem_actions hreduce
    refine ⟨ls, hstates.close hclosed h.stacked htoken hclose, h.found, fun b hb => ?_⟩
    rw [hsame b hb]
    exact found_actionsAhead (h.ahead _ hahead)
  | @take a state l rest hahead hshift hahead' =>
    have hfound := found_actionsAhead (g := g) (n := topState t.stack) (h.ahead a hahead)
    rw [hahead'] at hfound
    obtain ⟨expects, l', hscan, hread⟩ := hfound
    obtain ⟨n, hn, hmem⟩ := exists_number_of_mem_actions hahead' hshift
    obtain ⟨hhas, hcode⟩ := code_of_number hn
    exact ⟨ls ++ [l], h.stacked.part ⟨.token l.token, hhas, hcode, .token l⟩
      fun j hj hdone => hstates.shift _ n state j hmem hj hdone, h.found.token hscan hread, nofun⟩

/-- A thread that has read a whole text. -/
def Completed (g : RuleSet τ ν μ) (M : Meaning τ ν μ δ) (stands : Nat → Item μ → Prop) (S : Scanner τ σ)
    (start : σ) (t : Thread τ σ δ) : Prop :=
  ∃ ls, g.Reached M stands S start t ls ∧ ∃ n, .accept ∈ g.automaton.actions (topState t.stack) n

/-- A thread that is at its end has read a whole text. -/
theorem Reached.completed {t c : Thread τ σ δ} {ls : List (Lexeme τ)} (h : g.Reached M stands S start t ls)
    (hc : (g.automaton.step M S t).2 = some c) : g.Completed M stands S start c := by
  unfold Automaton.step at hc
  rcases hahead : t.ahead with _ | a
  · rw [hahead] at hc
    dsimp only at hc
    split at hc <;> cases hc
  · rw [hahead] at hc
    dsimp only at hc
    split at hc
    · rename_i haccept
      cases hc
      exact ⟨ls, h, exists_mem_actions (List.contains_iff_mem.1 haccept)⟩
    · cases hc

/-- All threads have read what is on their stacks. -/
def AllReached (g : RuleSet τ ν μ) (M : Meaning τ ν μ δ) (stands : Nat → Item μ → Prop)
    (S : Scanner τ σ) (start : σ) (ts : List (Thread τ σ δ)) : Prop :=
  ∀ t ∈ ts, ∃ ls, g.Reached M stands S start t ls

omit [Hashable μ] in
/-- One thread more that has read what is on its stack. -/
theorem AllReached.insertThread [BEq σ] {ts : List (Thread τ σ δ)} (hts : g.AllReached M stands S start ts)
    {t : Thread τ σ δ} (ht : ∃ ls, g.Reached M stands S start t ls) :
    g.AllReached M stands S start (insertThread t ts) := by
  intro u hu
  rcases mem_insertThread hu with rfl | hu
  · exact ht
  · exact hts u hu

/-- What a run comes to has read a whole text. -/
theorem States.run [BEq σ] (hstates : g.States stands) (hclosed : g.Closed) (steps : Nat)
    {threads : List (Thread τ σ δ)} {found : Option (Thread τ σ δ)} {t : Thread τ σ δ}
    (hthreads : g.AllReached M stands S start threads)
    (hfound : ∀ t ∈ found, g.Completed M stands S start t)
    (h : g.automaton.run M S steps threads found = some t) : g.Completed M stands S start t := by
  induction steps generalizing threads found with
  | zero => cases h
  | succ steps ih =>
    rw [Automaton.run] at h
    rcases hpick : pickThread S threads with _ | ⟨u, others⟩
    · rw [hpick] at h
      exact hfound t h
    · rw [hpick] at h
      obtain ⟨hu, hothers⟩ := mem_of_pickThread hpick
      obtain ⟨ls, hreached⟩ := hthreads u hu
      refine ih ?_ (mem_better hfound fun c hc => hreached.completed hc) h
      exact List.foldlRecOn (motive := g.AllReached M stands S start) _ _
        (fun t ht => hthreads t (hothers ht))
        fun ts hts t' ht' => hts.insertThread (hstates.step hclosed hreached ht')

/-- What goes on to the end of a whole text is the beginning of it. -/
theorem States.eq_top (hstates : g.States stands) {n : Nat} {i j : Item μ} (hj : stands n j)
    (hgoes : j.next? = some i) (hnext : g.top.item.next? = some i) : j = g.top.item := by
  rw [Item.next?] at hgoes
  split at hgoes
  · cases hgoes
  · have hsame := (Option.some.inj hgoes).trans (Option.some.inj hnext).symm
    obtain ⟨p, hp, rfl⟩ := hstates.begins _ j hj (List.cons.inj (congrArg Item.done hsame)).2
    have hhead : p.head = g.top.head := congrArg Item.head hsame
    rcases mem_allProductions.1 hp with hp | rfl
    · exact absurd hhead (Nat.ne_of_lt (exists_produces hp).1)
    · rfl

/-- What is on top of a stack that has read a whole text is read by the grammar's first symbol. -/
theorem States.reads_start (hstates : g.States stands) {frame : Frame δ} {below : List (Frame δ)}
    {ls : List (Lexeme τ)} (h : Stacked M (g.ReadsCode M) stands (frame :: below) ls)
    (hpart : frame.isFiller = false) {i : Item μ} (hi : stands frame.state i)
    (hnext : g.top.item.next? = some i) :
    ∃ before ls', ls = before ++ ls' ∧ g.Reads M (.phrase g.start) ls' frame.value := by
  cases h with
  | filler _ l => cases hpart
  | @part _ ls ls' c v state hbelow reads leads =>
    obtain ⟨j, hj, s, rest, hleft, rfl, hgoes⟩ := leads i hi (Item.done_ne_nil_of_next? hnext)
    obtain rfl := hstates.eq_top hj hgoes hnext
    cases hleft
    obtain ⟨s', hs', hcode, hread⟩ := reads
    obtain rfl : s' = .phrase g.start := code_injective hs' List.mem_cons_self (hcode.trans code_start.symm)
    exact ⟨ls, ls', rfl, hread⟩

/-- **What is read is a phrase of the grammar.** It is spelled by tokens that the scanner found one after
another. -/
theorem reads_of_read [BEq σ] (hclosed : g.Closed) {length : Nat} {v : δ}
    (h : g.automaton.read M S start length = some v) :
    ∃ before ls after rest, S.Finds start (before ++ ls ++ after) rest ∧
      g.Reads M (.phrase g.start) ls v := by
  have hstates := states_standsIn (g := g)
  simp only [Automaton.read, Option.bind_eq_bind, Option.bind_eq_some_iff] at h
  obtain ⟨t, hrun, top, htop, heq⟩ := h
  cases heq
  have hbegin : g.AllReached M g.StandsIn S start [(⟨[], start, none, 0, 0⟩ : Thread τ σ δ)] := by
    intro t ht
    rw [List.mem_singleton.1 ht]
    exact ⟨[], .nil, .nil, nofun⟩
  obtain ⟨ls, hreached, n, haccept⟩ := hstates.run hclosed _ hbegin (by simp) hrun
  obtain ⟨i, hnext, hi⟩ := hstates.accept _ n haccept
  -- the fillers after the text are left aside, and the part below them is the text
  obtain ⟨read, after, rfl, hdrop, hsame, -⟩ := hreached.stacked.refill
  have hpart := List.head?_dropWhile_not (·.isFiller) t.stack
  rw [htop] at hpart
  obtain ⟨below, hstack⟩ : ∃ below, t.stack.dropWhile (·.isFiller) = top :: below :=
    List.head?_eq_some_iff.1 htop
  rw [hstack] at hdrop hsame
  rw [← hsame] at hi
  obtain ⟨before, ls, rfl, hread⟩ := hstates.reads_start hdrop (by simpa using hpart) hi hnext
  exact ⟨before, ls, after, t.scanner, hreached.found, hread⟩

end RuleSet

end PullGate.Grammar
