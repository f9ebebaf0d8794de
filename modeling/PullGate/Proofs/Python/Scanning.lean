import PullGate.Proofs.Python.Growth
/-!
# Where tokens stand

The scanner goes through a text from the front to the back: a token begins where the last one ended or
later, and words and marks take at least one character (`advances_nextToken`). So what is found one after
another stands one after another (`placed_of_finds`).
-/

namespace PullGate.Python

open PullGate.Grammar (Leaf Lexeme Scan Scanner)

/-! ## Cursors -/

namespace Cursor

/-- What is left is what comes after the characters before. -/
def In (text : List Char) (c : Cursor) : Prop := c.rest = text.drop c.offset

/-- A place further on. -/
def Leads (c c' : Cursor) : Prop := ∃ n, c' = c.drop n

theorem drop_drop (c : Cursor) (n m : Nat) : (c.drop n).drop m = c.drop (n + m) := by
  simp only [drop, List.drop_drop, Nat.add_assoc]

theorem Leads.refl (c : Cursor) : c.Leads c := ⟨0, rfl⟩

theorem leads_drop (c : Cursor) (n : Nat) : c.Leads (c.drop n) := ⟨n, rfl⟩

/-- What leads further on twice does so at once. -/
theorem Leads.trans {a b c : Cursor} (h : a.Leads b) (h' : b.Leads c) : a.Leads c := by
  obtain ⟨n, rfl⟩ := h
  obtain ⟨m, rfl⟩ := h'
  exact ⟨n + m, drop_drop a n m⟩

theorem Leads.offset_le {a b : Cursor} (h : a.Leads b) : a.offset ≤ b.offset := by
  obtain ⟨n, rfl⟩ := h
  exact Nat.le_add_right _ _

theorem Leads.inText {text : List Char} {a b : Cursor} (h : a.Leads b) (ha : a.In text) : b.In text := by
  obtain ⟨n, rfl⟩ := h
  rw [In, drop, ha, List.drop_drop]

/-- Before the end of the text there are characters left. -/
theorem In.offset_lt {text : List Char} {c : Cursor} (h : c.In text) (hne : c.rest ≠ []) :
    c.offset < text.length := by
  rw [h] at hne
  exact Nat.lt_of_not_le fun hle => hne (List.drop_eq_nil_iff.2 hle)

theorem leads_skipBlanks (c : Cursor) : c.Leads c.skipBlanks := leads_drop _ _

end Cursor

/-! ## Strings and margins -/

/-- Where a look into a string ends. -/
def Inside.stop : Inside → Cursor
  | .text stop | .close stop => stop

/-- What stands behind a backslash ends further on. -/
theorem leads_rawEscape (mark : Char) (c : Cursor) : c.Leads (rawEscape mark c) := by
  unfold rawEscape
  dsimp only
  repeat' split
  -- what is escaped takes one character or none, and an end of line after it up to two
  all_goals first
    | exact .refl c
    | exact c.leads_drop 1
    | exact c.leads_drop 2
    | exact (c.leads_drop 1).trans (Cursor.leads_drop _ 1)
    | exact (c.leads_drop 1).trans (Cursor.leads_drop _ 2)

/-- A look into a string ends further on. -/
theorem leads_inside {q : Quote} {n : Nat} {any : Bool} {c : Cursor} {found : Inside}
    (h : q.inside n any c = some found) : c.Leads found.stop := by
  induction n generalizing any c with
  | zero => cases h
  | succ n ih =>
    rw [Quote.inside] at h
    repeat' split at h
    -- the search is over here, or further on, or goes on from further on
    all_goals first
      | cases h
      | skip
    all_goals first
      | exact .refl c
      | exact c.leads_drop _
      | exact (c.leads_drop _).trans (ih h)
      | exact ((c.leads_drop 1).trans (leads_rawEscape _ _)).trans (ih h)

/-- The margin ends further on. -/
theorem leads_skipMargin {comments inComment : Bool} {m m' : Margin} {cs : List Char} {offset : Nat}
    {next : Cursor} (h : skipMargin comments inComment m cs offset = some (m', next)) :
    (⟨cs, offset⟩ : Cursor).Leads next := by
  have hon {cs rest : List Char} {offset n : Nat} (hrest : cs.drop n = rest)
      (h : (⟨rest, offset + n⟩ : Cursor).Leads next) : (⟨cs, offset⟩ : Cursor).Leads next := by
    subst hrest
    exact (Cursor.leads_drop ⟨cs, offset⟩ n).trans h
  -- one case for each way to go on: by one character, or past a backslash and the line's end at
  -- once
  fun_induction skipMargin comments inComment m cs offset
  case case1 =>
    cases h
    exact .refl _
  case case6 rest offset _ _ _ =>
    cases h
    refine ⟨1 + rest.length, ?_⟩
    rw [Cursor.drop, Nat.add_comm 1 rest.length, List.drop_succ_cons, List.drop_length,
      Nat.add_assoc, Nat.add_comm 1]
  case case7 | case13 => cases h
  case case4 ih => exact hon (n := 3) rfl (ih h)
  case case5 ih => exact hon (n := 2) rfl (ih h)
  case case14 =>
    cases h
    exact .refl _
  all_goals
    rename_i ih
    exact hon (n := 1) rfl (ih h)

/-- The letters before a string's marks end further on. -/
theorem leads_stringPrefix (q : Quote) (c : Cursor) (n : Nat) : c.Leads (stringPrefix q c n).2 := by
  induction n generalizing q c with
  | zero => exact .refl c
  | succ n ih =>
    rw [stringPrefix]
    repeat' split
    all_goals first
      | exact .refl c
      | exact (c.leads_drop 1).trans (ih _ _)

/-! ## Found tokens -/

/-- A token stands between the place of one state and that of another, and a word takes at least one
character of the text. -/
structure Advances (text : List Char) (s : ScanState) (l : Lexeme Token) (rest : ScanState) : Prop where
  inText : rest.cursor.In text
  start_ge : s.cursor.offset ≤ l.start
  stop_ge : l.start ≤ l.stop
  rest_ge : l.stop ≤ rest.cursor.offset
  word : l.token.IsWord → l.start < l.stop ∧ l.start < text.length

/-- What is found stands further on. -/
def FoundFrom (text : List Char) (s : ScanState) : Found → Prop
  | .token l rest | .filler l rest => Advances text s l rest
  | .finish => True

section

variable {text : List Char} {s : ScanState}

/-- What stands between two places further on is found from here. -/
theorem foundFrom_between (hs : s.cursor.In text) {t : Token} {start stop : Cursor} {s' : ScanState}
    (hstart : s.cursor.Leads start) (hstop : start.Leads stop)
    (hword : t.IsWord → start.offset < stop.offset ∧ start.rest ≠ []) :
    FoundFrom text s (.between t start stop s') where
  inText := (hstart.trans hstop).inText hs
  start_ge := hstart.offset_le
  stop_ge := hstop.offset_le
  rest_ge := Nat.le_refl _
  word ht := ⟨(hword ht).1, (hstart.inText hs).offset_lt (hword ht).2⟩

/-- A token of the layout is found from here. -/
theorem foundFrom_layoutToken (hs : s.cursor.In text) {expects : Token → Bool} {m : Margin} {next : Cursor}
    {found : Found} (h : layoutToken expects s m next = some found) : FoundFrom text s found := by
  have hhere (t : Token) (ht : ¬ t.IsWord) (margins : List Nat) :
      FoundFrom text s (.between t s.cursor s.cursor { s with margins }) :=
    foundFrom_between hs (.refl _) (.refl _) fun hword => absurd hword ht
  unfold layoutToken at h
  dsimp only at h
  repeat' split at h
  all_goals cases h
  all_goals exact hhere _ (by decide) _

theorem foundFrom_stringBegin (hs : s.cursor.In text) {start : Cursor} (hstart : s.cursor.Leads start)
    {found : Found} (h : stringBegin s start = some found) : FoundFrom text s found := by
  have hletters := leads_stringPrefix ⟨'"', false, false, false, false⟩ start start.rest.length
  have hbegun (s' : ScanState) (n : Nat) : FoundFrom text s (.between (.node .stringStart) start
      ((stringPrefix ⟨'"', false, false, false, false⟩ start start.rest.length).2.drop n) s') :=
    foundFrom_between hs hstart (hletters.trans (Cursor.leads_drop _ n)) fun hword =>
      absurd hword (by decide : ¬ (Token.node .stringStart).IsWord)
  unfold stringBegin at h
  dsimp only at h
  split at h
  all_goals cases h
  all_goals exact hbegun _ _

theorem foundFrom_stringToken (hs : s.cursor.In text) {expects : Token → Bool} {found : Found}
    (h : stringToken expects s = some (some found)) : FoundFrom text s found := by
  have hhere {t : Token} (ht : ¬ t.IsWord) {stop : Cursor} (hstop : s.cursor.Leads stop) (s' : ScanState) :
      FoundFrom text s (.between t s.cursor stop s') :=
    foundFrom_between hs (.refl _) hstop fun hword => absurd hword ht
  unfold stringToken at h
  split at h
  · cases h
  · rename_i q outer _
    dsimp only at h
    split at h
    · split at h
      · cases h
        exact hhere (by decide) (Cursor.leads_drop _ _) _
      · cases h
    · split at h
      · obtain ⟨inside, hinside, rfl⟩ := Option.map_eq_some_iff.1 (Option.some.inj h)
        have hstop := leads_inside hinside
        cases inside with
        | text stop => exact hhere (by decide) hstop _
        | close stop => exact hhere (by decide) hstop _
      · cases h

theorem foundFrom_marginToken (hs : s.cursor.In text) {expects : Token → Bool} {found : Found}
    (h : marginToken expects s = some found) : FoundFrom text s found := by
  simp only [marginToken, Option.bind_eq_bind, Option.bind_eq_some_iff] at h
  obtain ⟨⟨m, next⟩, hmargin, h⟩ := h
  have hnext : s.cursor.Leads next := leads_skipMargin hmargin
  dsimp only at h
  split at h
  · rename_i hlayout
    cases h
    exact foundFrom_layoutToken hs hlayout
  · split at h
    · exact foundFrom_stringBegin hs hnext h
    · cases h

/-! ## Words, numbers and marks -/

/-- No mark is empty. -/
theorem ne_nil_of_mem_marks {m : List Char} (h : m ∈ marks) : m ≠ [] := by
  have hmem := (List.mem_filter.1 ((List.mergeSort_perm _ _).mem_iff.1 h)).1
  obtain ⟨text, ht, rfl⟩ := List.mem_map.1 hmem
  obtain ⟨x, hx, heq⟩ := List.mem_filterMap.1 ht
  obtain ⟨s, steps, hproduces, step, hstep, hsymbol⟩ :=
    Grammar.RuleSet.exists_produces_of_mem_tokenList (Grammar.RuleSet.mem_tokenList_of_mem_tokens hx)
  have htoken : x ∈ step.leaf.1.token? := by
    rw [Grammar.Step.leaf, hsymbol]
    rfl
  intro hnil
  split at heq
  · cases heq
    refine (sensible_of_produces hproduces hstep).literals _ htoken ?_
    rw [String.toList_eq_nil_iff.1 hnil]
  · cases heq

/-- A number is no word. -/
theorem not_isWord_of_number {cs : List Char} {k : Kind} {n : Nat} (h : number cs = some (k, n)) :
    ¬ (Token.node k).IsWord := by
  have hkind : k = .integerLiteral ∨ k = .floatLiteral := by
    unfold number at h
    dsimp only at h
    repeat' split at h
    all_goals cases h
    all_goals simp
  rcases hkind with rfl | rfl <;> decide

/-- A word, a number or a mark is found from here, and so is a comment. -/
theorem foundFrom_plainToken (hs : s.cursor.In text) {expects : Token → Bool} {c : Cursor}
    (hc : s.cursor.Leads c) {found : Found} (h : plainToken expects s c = some found) :
    FoundFrom text s found := by
  have hfound {t : Token} {n : Nat} (hword : t.IsWord → 0 < n ∧ c.rest ≠ []) :
      FoundFrom text s (.between t c (c.drop n) s) :=
    foundFrom_between hs hc (c.leads_drop n) fun ht => ⟨Nat.lt_add_of_pos_right (hword ht).1, (hword ht).2⟩
  have hfiller {k : Kind} (hk : ¬ (Token.node k).IsWord) (n : Nat) :
      FoundFrom text s (.filler ⟨.node k, c.offset, c.offset + n⟩ { s with cursor := c.drop n }) :=
    hfound (t := .node k) (n := n) fun ht => absurd ht hk
  unfold plainToken at h
  split at h
  case h_1 =>
    cases h
    trivial
  case h_7 => cases h
  case h_8 d rest _ _ _ _ _ _ hrest =>
    -- a word or a mark has the character `d`, and nothing else that is found here is one of them
    have hne : c.rest ≠ [] := by
      rw [hrest]
      exact List.cons_ne_nil d rest
    dsimp only at h
    split at h
    · split at h
      · cases h
        exact hfound fun _ => ⟨by decide, hne⟩
      · cases h
        exact hfound fun _ => ⟨Nat.succ_pos _, hne⟩
    · split at h
      · rename_i k n hnumeral
        cases h
        refine hfound fun ht => absurd ht ?_
        split at hnumeral
        · exact not_isWord_of_number hnumeral
        · cases hnumeral
      · split at h
        · cases h
          exact hfound fun ht => absurd ht (by decide)
        · split at h
          · cases h
            exact hfound fun ht => absurd ht (by decide)
          · simp only [Option.bind_eq_bind, Option.bind_eq_some_iff] at h
            obtain ⟨mark, hmark, heq⟩ := h
            cases heq
            exact hfound fun _ =>
              ⟨List.length_pos_iff.2 (ne_nil_of_mem_marks (List.mem_of_find?_eq_some hmark)), hne⟩
  all_goals
    cases h
    exact hfiller (by decide) _

theorem foundFrom_innerToken (hs : s.cursor.In text) {expects : Token → Bool} {found : Found}
    (h : innerToken expects s = some found) : FoundFrom text s found := by
  unfold innerToken at h
  dsimp only at h
  split at h
  · split at h
    · cases h
      exact foundFrom_between hs (.refl _) (Cursor.leads_drop _ _) fun ht => absurd ht (by decide)
    · cases h
      exact foundFrom_between hs (.refl _) (Cursor.leads_drop _ _) fun ht => absurd ht (by decide)
  · split at h
    · split at h
      · exact foundFrom_plainToken hs ((Cursor.leads_drop _ _).trans (Cursor.leads_skipBlanks _)) h
      · cases h
        exact foundFrom_between hs (Cursor.leads_drop _ _) (Cursor.leads_drop _ _)
          fun ht => absurd ht (by decide)
    · exact foundFrom_plainToken hs (Cursor.leads_skipBlanks _) h

/-- **The scanner goes on.** What it finds stands further on, and words and marks take a character. -/
theorem foundFrom_nextToken (hs : s.cursor.In text) {expects : Token → Bool} {found : Found}
    (h : nextToken expects s = some found) : FoundFrom text s found := by
  unfold nextToken at h
  split at h
  · rename_i hstring
    cases h
    exact foundFrom_stringToken hs hstring
  · exact foundFrom_innerToken hs h
  · split at h
    · rename_i hmargin
      cases h
      exact foundFrom_marginToken hs hmargin
    · exact foundFrom_innerToken hs h

end

/-! ## All that is found -/

/-- Tokens stand one after another up to a place, words and marks at characters of the text. -/
structure Placed (text : List Char) (ls : List (Lexeme Token)) (stop : Nat) : Prop where
  ordered : ls.Pairwise fun a b => a.stop ≤ b.start
  stop_ge : ∀ l ∈ ls, l.start ≤ l.stop ∧ l.stop ≤ stop
  word : ∀ l ∈ ls, l.token.IsWord → l.start < l.stop ∧ l.start < text.length

/-- One token more stands behind the others. -/
theorem Placed.append {text : List Char} {ls : List (Lexeme Token)} {s rest : ScanState} {l l' : Lexeme Token}
    (h : Placed text ls s.cursor.offset) (hl : Advances text s l rest) (hstart : l'.start = l.start)
    (hstop : l'.stop = l.stop) (hword : l'.token.IsWord → l.token.IsWord) :
    Placed text (ls ++ [l']) rest.cursor.offset where
  ordered := by
    refine List.pairwise_append.2 ⟨h.ordered, List.pairwise_singleton _ _, fun a ha b hb => ?_⟩
    rw [List.mem_singleton.1 hb, hstart]
    exact Nat.le_trans (h.stop_ge a ha).2 hl.start_ge
  stop_ge a ha := by
    rcases List.mem_append.1 ha with ha | ha
    · obtain ⟨hle, hbefore⟩ := h.stop_ge a ha
      have hfurther := Nat.le_trans hl.start_ge (Nat.le_trans hl.stop_ge hl.rest_ge)
      exact ⟨hle, Nat.le_trans hbefore hfurther⟩
    · rw [List.mem_singleton.1 ha, hstart, hstop]
      exact ⟨hl.stop_ge, hl.rest_ge⟩
  word a ha hword' := by
    rcases List.mem_append.1 ha with ha | ha
    · exact h.word a ha hword'
    · rw [List.mem_singleton.1 ha] at hword' ⊢
      rw [hstart, hstop]
      exact hl.word (hword hword')

/-- A token is read as another at the same place, and only words are read as words. -/
theorem readAs_place {l l' : Lexeme Token} (h : pythonScanner.ReadAs l l') :
    l'.start = l.start ∧ l'.stop = l.stop ∧ (l'.token.IsWord → l.token.IsWord) := by
  induction h with
  | same => exact ⟨rfl, rfl, id⟩
  | @again l' t before hother ih =>
    refine ⟨ih.1, ih.2.1, fun _ => ih.2.2 ?_⟩
    change (if l'.token.isKeyword then some (.node .identifier) else none) = some t at hother
    split at hother
    · rename_i hkeyword
      unfold Token.isKeyword at hkeyword
      split at hkeyword
      · rename_i heq
        rw [heq]
        trivial
      all_goals first
        | (rename_i heq; rw [heq]; decide)
        | cases hkeyword
    · cases hother

/-- **What is found one after another stands one after another.** -/
theorem placed_of_finds {text : List Char} {ls : List (Lexeme Token)} {s : ScanState}
    (h : pythonScanner.Finds (.start text) ls s) : s.cursor.In text ∧ Placed text ls s.cursor.offset := by
  induction h with
  | nil => exact ⟨rfl, .nil, nofun, nofun⟩
  | token before hscan hread ih =>
    have hadvances := foundFrom_nextToken ih.1 hscan
    obtain ⟨hstart, hstop, hword⟩ := readAs_place hread
    exact ⟨hadvances.inText, ih.2.append hadvances hstart hstop hword⟩
  | filler before hscan ih =>
    have hadvances := foundFrom_nextToken ih.1 hscan
    exact ⟨hadvances.inText, ih.2.append hadvances rfl rfl id⟩

end PullGate.Python
