import PullGate.Grammar.Reading
import PullGate.Proofs.Grammar.Numbering
/-!
# What stands in a state

A state of a grammar's automaton is found from another by a symbol, and what stands in it stood there
with the symbol still to come (`RuleSet.states`). This is all that reading needs: what a state closes was
read step by step in the states below, up to the one where its production begins.
-/

namespace PullGate.Grammar

open Std (HashMap)

variable {τ ν μ : Type}

/-! ## Items -/

/-- An item goes on to another by a symbol. -/
def Item.Goes (i : Item μ) (c : Code) (j : Item μ) : Prop :=
  ∃ s rest, i.left = s :: rest ∧ s.symbol = c ∧ i.next? = some j

/-- After one step something is done. -/
theorem Item.done_ne_nil_of_next? {i j : Item μ} (h : i.next? = some j) : j.done ≠ [] := by
  rw [Item.next?] at h
  split at h
  · cases h
  · cases h
    exact List.cons_ne_nil _ _

/-- A step stays in its production. -/
theorem Item.head_eq_of_next? {i j : Item μ} (h : i.next? = some j) : j.head = i.head := by
  rw [Item.next?] at h
  split at h
  · cases h
  · cases h
    rfl

theorem Item.length_left_of_next? {i j : Item μ} (h : i.next? = some j) :
    i.left.length = j.left.length + 1 := by
  rw [Item.next?] at h
  split at h
  · cases h
  · rename_i hleft
    cases h
    rw [hleft, List.length_cons]

/-- A run goes on from its first item to the runs of the next one. -/
theorem Item.mem_go_succ {n : Nat} {i j : Item μ} :
    j ∈ Item.run.go (n + 1) i ↔ j = i ∨ ∃ next, i.next? = some next ∧ j ∈ Item.run.go n next := by
  rw [Item.run.go]
  rcases i.next? with _ | next <;> simp

/-- An item is among those that it runs through. -/
theorem Item.mem_go_self (n : Nat) (i : Item μ) : i ∈ Item.run.go n i := by
  cases n with
  | zero => exact List.mem_singleton_self i
  | succ n => exact mem_go_succ.2 (.inl rfl)

/-- After an item of a production there is the next one. -/
theorem Item.mem_go_of_next? {n : Nat} {i j k : Item μ} (hn : i.left.length ≤ n)
    (hj : j ∈ Item.run.go n i) (hk : j.next? = some k) : k ∈ Item.run.go n i := by
  induction n generalizing i with
  | zero =>
    rw [List.mem_singleton.1 hj, Item.next?, List.length_eq_zero_iff.1 (Nat.le_zero.1 hn)] at hk
    cases hk
  | succ n ih =>
    rcases mem_go_succ.1 hj with rfl | ⟨next, hnext, hj⟩
    · exact mem_go_succ.2 (.inr ⟨k, hk, mem_go_self n k⟩)
    · rw [length_left_of_next? hnext] at hn
      exact mem_go_succ.2 (.inr ⟨next, hnext, ih (Nat.le_of_succ_le_succ hn) hj⟩)

/-- If something is done at first, something is done all along. -/
theorem Item.done_ne_nil_of_mem_go {n : Nat} {i j : Item μ} (hi : i.done ≠ [])
    (hj : j ∈ Item.run.go n i) : j.done ≠ [] := by
  induction n generalizing i with
  | zero => rwa [List.mem_singleton.1 hj]
  | succ n ih =>
    rcases mem_go_succ.1 hj with rfl | ⟨next, hnext, hj⟩
    · exact hi
    · exact ih (done_ne_nil_of_next? hnext) hj

/-- Only the first item of a run has nothing done. -/
theorem Item.eq_of_mem_run {i j : Item μ} (hj : j ∈ i.run) (hdone : j.done = []) : j = i := by
  rw [Item.run] at hj
  rcases hlength : i.left.length with _ | n <;> rw [hlength] at hj
  · exact List.mem_singleton.1 hj
  · rcases mem_go_succ.1 hj with rfl | ⟨next, hnext, hj⟩
    · rfl
    · exact absurd hdone (done_ne_nil_of_mem_go (done_ne_nil_of_next? hnext) hj)

/-- All items that are run through belong to one production. -/
theorem Item.head_eq_of_mem_go {n : Nat} {i j : Item μ} (hj : j ∈ Item.run.go n i) : j.head = i.head := by
  induction n generalizing i with
  | zero => rw [List.mem_singleton.1 hj]
  | succ n ih =>
    rcases mem_go_succ.1 hj with rfl | ⟨next, hnext, hj⟩
    · rfl
    · rw [ih hj, head_eq_of_next? hnext]

/-! ## What stands in a kernel and what follows it -/

/-- Only the item itself is new when it is added. -/
theorem Spread.mem_order_add {s : Spread} {n item : Nat} {follow : TokenSet}
    (h : n ∈ (s.add item follow).order) : n ∈ s.order ∨ n = item := by
  simp only [Spread.add] at h
  split at h
  · exact Array.mem_push.1 h
  · exact .inl h

/-- Only the item itself is new when it is put into a kernel. -/
theorem Kernel.mem_insert {item n : Nat} {follow s : TokenSet} {k : Kernel}
    (h : (n, s) ∈ k.insert item follow) : n = item ∨ ∃ s', (n, s') ∈ k := by
  induction k with
  | nil =>
    left
    exact (Prod.mk.inj (List.mem_singleton.1 h)).1
  | cons p rest ih =>
    obtain ⟨i, t⟩ := p
    rw [Kernel.insert] at h
    split at h
    · rcases List.mem_cons.1 h with heq | h
      · left
        exact (Prod.mk.inj heq).1
      · right
        exact ⟨s, h⟩
    · split at h
      · rename_i hitem
        rcases List.mem_cons.1 h with heq | h
        · left
          rw [hitem]
          exact (Prod.mk.inj heq).1
        · right
          exact ⟨s, List.mem_cons_of_mem _ h⟩
      · rcases List.mem_cons.1 h with heq | h
        · right
          exact ⟨s, heq ▸ List.mem_cons_self⟩
        · rcases ih h with h | ⟨s', h⟩
          · exact .inl h
          · exact .inr ⟨s', List.mem_cons_of_mem _ h⟩

namespace Places

variable (P : Places μ)

/-- An item stands where a kernel has it, or at the beginning of a production. -/
def Stands (kernel : Kernel) (i : Item μ) : Prop :=
  ∃ n : Nat, P.items[n]? = some i ∧ ((∃ follow, (n, follow) ∈ kernel) ∨ i.done = [])

/-- All items of a kernel were reached from another by a symbol. -/
def Follows (kernel : Kernel) (c : Code) (next : Kernel) : Prop :=
  ∀ n follow, (n, follow) ∈ next → ∃ i j, P.Stands kernel i ∧ i.Goes c j ∧ P.items[n]? = some j

/-- The items fit together: after an item comes the next, and openings are at beginnings. -/
structure Sound : Prop where
  next : ∀ (n : Nat) i j, P.items[n]? = some i → i.next? = some j → P.items[P.next.getD n 0]? = some j
  openings : ∀ h o, o ∈ P.openings.getD h #[] → ∃ i, P.items[o.1]? = some i ∧ i.done = []

variable {P}

/-- The items gathered are of the kernel or at the beginning of a production. -/
def Gathers (P : Places μ) (kernel : Kernel) (s : Spread) : Prop :=
  ∀ n ∈ s.order, (∃ follow, (n, follow) ∈ kernel) ∨ ∃ i, P.items[n]? = some i ∧ i.done = []

/-- Items of the kernel and beginnings may be added. -/
theorem Gathers.add {kernel : Kernel} {s : Spread} (hs : P.Gathers kernel s) {item : Nat}
    {follow : TokenSet}
    (hitem : (∃ follow, (item, follow) ∈ kernel) ∨ ∃ i, P.items[item]? = some i ∧ i.done = []) :
    P.Gathers kernel (s.add item follow) := by
  intro n hn
  rcases Spread.mem_order_add hn with hn | rfl
  · exact hs n hn
  · exact hitem

theorem gathers_kernel (kernel : Kernel) : P.Gathers kernel
    (kernel.foldl (fun s p => s.add p.1 p.2) (⟨.replicate P.items.size 0, #[]⟩ : Spread)) := by
  refine List.foldlRecOn (motive := P.Gathers kernel) _ _ (fun n hn => absurd hn (Array.not_mem_empty n))
    fun s hs p hp => hs.add (.inl ⟨p.2, hp⟩)

/-- The openings of a head are gathered too. -/
theorem Sound.gathers_openings (hP : P.Sound) {kernel : Kernel} {s : Spread} (hs : P.Gathers kernel s)
    (head : Nat) (tokens : Nat × TokenSet × Bool → TokenSet) :
    P.Gathers kernel ((P.openings.getD head #[]).foldl (fun s o => s.add o.1 (tokens o)) s) := by
  rw [← Array.foldl_toList]
  exact List.foldlRecOn (motive := P.Gathers kernel) _ _ hs fun s hs o ho =>
    hs.add (.inr (hP.openings head o (Array.mem_toList_iff.1 ho)))

/-- What a state closes to stands in it. -/
theorem Sound.stands_of_mem_close (hP : P.Sound) {kernel : Kernel} {n : Nat} {follow : TokenSet}
    {i : Item μ} (h : (n, follow) ∈ P.close kernel) (hi : P.items[n]? = some i) : P.Stands kernel i := by
  rw [close] at h
  obtain ⟨n', hn', heq⟩ := Array.mem_map.1 h
  cases heq
  have hall : (∃ follow, (n, follow) ∈ kernel) ∨ ∃ i, P.items[n]? = some i ∧ i.done = [] := by
    refine List.foldlRecOn (motive := P.Gathers kernel) _ _ (gathers_kernel kernel)
      (fun s hs p hp => ?_) n hn'
    dsimp only
    split
    · split
      · exact hs
      · rename_i head _
        exact hP.gathers_openings hs head _
    · exact hs
  refine ⟨n, hi, hall.imp_right ?_⟩
  rintro ⟨i', hi', hdone⟩
  rw [hi] at hi'
  cases hi'
  exact hdone

/-- The kernels that are moved to so far follow. -/
def Leads (P : Places μ) (kernel : Kernel) (moves : HashMap Code Kernel) : Prop :=
  ∀ (c : Code) (next : Kernel), moves[c]? = some next → P.Follows kernel c next

/-- An item that is gone to joins a kernel that follows. -/
theorem Leads.alter {kernel : Kernel} {moves : HashMap Code Kernel} (hmoves : P.Leads kernel moves)
    {c : Code} {i j : Item μ} {n : Nat} (hi : P.Stands kernel i) (hgoes : i.Goes c j)
    (hj : P.items[n]? = some j) (follow : TokenSet) :
    P.Leads kernel (moves.alter c fun k => some ((k.getD []).insert n follow)) := by
  intro c' next hnext m s hm
  rw [HashMap.getElem?_alter] at hnext
  split at hnext
  · rename_i hsame
    obtain rfl := eq_of_beq hsame
    cases hnext
    rcases Kernel.mem_insert hm with rfl | ⟨s', hm⟩
    · exact ⟨i, j, hi, hgoes, hj⟩
    · rcases hbefore : moves[c]? with _ | before
      · rw [hbefore] at hm
        cases hm
      · rw [hbefore] at hm
        exact hmoves c before hbefore m s' hm
  · exact hmoves c' next hnext m s hm

/-- Moves lead to kernels that follow. -/
theorem Sound.leads_moves (hP : P.Sound) (kernel : Kernel) :
    P.Leads kernel (P.moves (P.close kernel)) := by
  rw [moves, ← Array.foldl_toList]
  refine List.foldlRecOn (motive := P.Leads kernel) _ _ (fun c next h => by simp at h)
    fun moves hmoves p hp => ?_
  dsimp only
  split
  · rename_i step rest hitem
    exact hmoves.alter (hP.stands_of_mem_close (Array.mem_toList_iff.1 hp) hitem)
      ⟨step, rest, rfl, rfl, rfl⟩ (hP.next p.1 _ _ hitem rfl) p.2
  · exact hmoves

end Places

/-! ## Rows -/

/-- A state's row leads to states that follow, and closes what stands finished. The item `last` is the
whole text read. -/
structure Row.Sound (P : Places μ) (last : Nat) (kernels : Array Kernel) (kernel : Kernel) (row : Row) :
    Prop where
  shift : ∀ t m, .shift m ∈ row.actions.getD t [] →
    ∃ next, kernels[m]? = some next ∧ P.Follows kernel (.token t) next
  reduce : ∀ t n, .reduce n ∈ row.actions.getD t [] →
    n ≠ last ∧ ∃ i, P.items[n]? = some i ∧ i.left = [] ∧ P.Stands kernel i
  accept : ∀ t, .accept ∈ row.actions.getD t [] →
    ∃ i, P.items[last]? = some i ∧ i.left = [] ∧ P.Stands kernel i
  goto : ∀ h, row.gotos.getD h 0 = 0 ∨
    ∃ next, kernels[row.gotos.getD h 0]? = some next ∧ P.Follows kernel (.head h) next

/-- All kernels of one list stand at their places in another. -/
def Keeps (kernels later : Array Kernel) : Prop :=
  ∀ (n : Nat) k, kernels[n]? = some k → later[n]? = some k

theorem Keeps.trans {a b c : Array Kernel} (h : Keeps a b) (h' : Keeps b c) : Keeps a c :=
  fun n k hk => h' n k (h n k hk)

/-- A row stays sound when more states are found. -/
theorem Row.Sound.mono {P : Places μ} {last : Nat} {kernels later : Array Kernel} {kernel : Kernel}
    {row : Row} (h : row.Sound P last kernels kernel) (hkeeps : Keeps kernels later) :
    row.Sound P last later kernel where
  shift t m hm := by
    obtain ⟨next, hnext, hfollows⟩ := h.shift t m hm
    exact ⟨next, hkeeps m next hnext, hfollows⟩
  reduce := h.reduce
  accept := h.accept
  goto head := by
    rcases h.goto head with hzero | ⟨next, hnext, hfollows⟩
    · exact .inl hzero
    · exact .inr ⟨next, hkeeps _ next hnext, hfollows⟩

/-- After a place is set, something stands there that stood there before or is new. -/
theorem getD_setIfInBounds {α : Type} (xs : Array α) (n m : Nat) (a d : α) :
    (xs.setIfInBounds n a).getD m d = xs.getD m d ∨ n = m ∧ (xs.setIfInBounds n a).getD m d = a := by
  simp only [Array.getD_eq_getD_getElem?, Array.getElem?_setIfInBounds]
  split
  · split
    · exact .inr ⟨‹_›, rfl⟩
    · rename_i hsize
      left
      rw [Array.getElem?_eq_none (by omega)]
  · exact .inl rfl

theorem getD_replicate {α : Type} (n m : Nat) (a : α) : (Array.replicate n a).getD m a = a := by
  rw [Array.getD_eq_getD_getElem?, Array.getElem?_replicate]
  split <;> rfl

namespace Found

/-- Kernels are told apart by their numbers. -/
def Counts (f : Found) : Prop := ∀ (k : Kernel) n, f.number[k]? = some n → f.kernels[n]? = some k

/-- A state with a kernel is found, and all that were found before stay. -/
theorem state_spec {f : Found} (hf : f.Counts) (k : Kernel) :
    (f.state k).1.Counts ∧ Keeps f.kernels (f.state k).1.kernels ∧ (f.state k).1.rows = f.rows ∧
      (f.state k).1.kernels[(f.state k).2]? = some k := by
  rw [state]
  split
  · rename_i n hn
    exact ⟨hf, fun _ _ => id, rfl, hf k n hn⟩
  · have hkeeps : Keeps f.kernels (f.kernels.push k) := by
      intro n k' hk'
      rw [Array.getElem?_push, if_neg, hk']
      exact Nat.ne_of_lt (Array.getElem?_eq_some_iff.1 hk').1
    refine ⟨fun k' n hn => ?_, hkeeps, rfl, by rw [Array.getElem?_push, if_pos rfl]⟩
    dsimp only at hn ⊢
    rw [HashMap.getElem?_insert] at hn
    split at hn
    · rename_i hsame
      cases hn
      rw [Array.getElem?_push, if_pos rfl, eq_of_beq hsame]
    · exact hkeeps n k' (hf k' n hn)

/-- What moves from a kernel lead to. -/
structure Moved (P : Places μ) (kernel : Kernel) (f : Found) (moved : Found × Array (Option Nat) × Array Nat) :
    Prop where
  counts : moved.1.Counts
  keeps : Keeps f.kernels moved.1.kernels
  rows : moved.1.rows = f.rows
  shift : ∀ t m, moved.2.1.getD t none = some m →
    ∃ next, moved.1.kernels[m]? = some next ∧ P.Follows kernel (.token t) next
  goto : ∀ h, moved.2.2.getD h 0 = 0 ∨
    ∃ next, moved.1.kernels[moved.2.2.getD h 0]? = some next ∧ P.Follows kernel (.head h) next

/-- Moves to kernels that follow lead to states that follow. -/
theorem moved_move {P : Places μ} {kernel : Kernel} (tokens heads : Nat) {f : Found} (hf : f.Counts)
    {moves : Array (Code × Kernel)} (hmoves : ∀ c next, (c, next) ∈ moves → P.Follows kernel c next) :
    Moved P kernel f (f.move tokens heads moves) := by
  rw [move, ← Array.foldl_toList]
  refine List.foldlRecOn (motive := Moved P kernel f) _ _ ?_ fun moved hmoved p hp => ?_
  · refine ⟨hf, fun _ _ => id, rfl, fun t m hm => ?_, fun h => .inl (getD_replicate _ _ _)⟩
    rw [getD_replicate] at hm
    cases hm
  · obtain ⟨f', shifts, gotos⟩ := moved
    obtain ⟨c, next⟩ := p
    obtain ⟨hcounts, hkeeps, hrows, hstate⟩ := state_spec hmoved.counts next
    have hfollows := hmoves c next (Array.mem_toList_iff.1 hp)
    have hfound : Moved P kernel f ((f'.state next).1, shifts, gotos) := by
      refine ⟨hcounts, hmoved.keeps.trans hkeeps, hrows.trans hmoved.rows, fun t m hm => ?_, fun h => ?_⟩
      · obtain ⟨later, hlater, hfollows⟩ := hmoved.shift t m hm
        exact ⟨later, hkeeps m later hlater, hfollows⟩
      · rcases hmoved.goto h with hzero | ⟨later, hlater, hfollows⟩
        · exact .inl hzero
        · exact .inr ⟨later, hkeeps _ later hlater, hfollows⟩
    cases c with
    | token t =>
      refine ⟨hfound.counts, hfound.keeps, hfound.rows, fun t' m hm => ?_, hfound.goto⟩
      rcases getD_setIfInBounds shifts t t' (some (f'.state next).2) none with hsame | ⟨rfl, hset⟩
      · exact hfound.shift t' m (hsame ▸ hm)
      · cases hset.symm.trans hm
        exact ⟨next, hstate, hfollows⟩
    | head h =>
      refine ⟨hfound.counts, hfound.keeps, hfound.rows, hfound.shift, fun h' => ?_⟩
      dsimp only
      rcases getD_setIfInBounds gotos h h' (f'.state next).2 0 with hsame | ⟨rfl, hset⟩
      · rw [hsame]
        exact hfound.goto h'
      · rw [hset]
        exact .inr ⟨next, hstate, hfollows⟩

/-- The states found so far: kernels are told apart, and the rows are sound. -/
structure Sound (P : Places μ) (last : Nat) (f : Found) : Prop where
  counts : f.Counts
  rows : ∀ (n : Nat) row, f.rows[n]? = some row →
    ∃ kernel, f.kernels[n]? = some kernel ∧ row.Sound P last f.kernels kernel

end Found

/-- What is done on a token is to take it or to close something finished. -/
theorem cases_of_mem_resolve {phrases : Nat} {shift : Option Nat} {finished : List (Nat × Item μ)}
    {going : List (Item μ)} {a : Action} (h : a ∈ resolve phrases shift finished going) :
    (∃ m, shift = some m ∧ a = .shift m) ∨ ∃ p ∈ finished, a = .reduce p.1 := by
  let closing := (strongest finished).map fun p => Action.reduce p.1
  have hclosing (h : a ∈ closing) : ∃ p ∈ finished, a = .reduce p.1 := by
    obtain ⟨p, hp, rfl⟩ := List.mem_map.1 h
    exact ⟨p, (List.mem_filter.1 hp).1, rfl⟩
  suffices hparts : (∃ m, shift = some m ∧ a ∈ [.shift m]) ∨ a ∈ closing by
    rcases hparts with ⟨m, hm, ha⟩ | ha
    · exact .inl ⟨m, hm, List.mem_singleton.1 ha⟩
    · exact .inr (hclosing ha)
  unfold resolve at h
  dsimp only at h
  split at h
  · exact .inr h
  · exact .inl ⟨_, rfl, h⟩
  · rename_i s n r rest hstrongest
    have hboth (h : a ∈ closing ++ [.shift s]) :
        (∃ m, some s = some m ∧ a ∈ [Action.shift m]) ∨ a ∈ closing := by
      rcases List.mem_append.1 h with h | h
      · exact .inr h
      · exact .inl ⟨s, rfl, h⟩
    repeat' split at h
    all_goals first
      | exact hboth h
      | exact .inr h
      | exact .inl ⟨s, rfl, h⟩

/-- What is sorted out as finished so far stands finished in the state. -/
def Places.Finishes (P : Places μ) (kernel : Kernel) (finished : Array (List (Nat × Item μ))) : Prop :=
  ∀ t, ∀ p ∈ finished.getD t [], P.items[p.1]? = some p.2 ∧ p.2.left = [] ∧ P.Stands kernel p.2

/-- Something finished may be put before the others, on whatever tokens it is closed. -/
theorem Places.Finishes.mapIdx {P : Places μ} {kernel : Kernel} {finished : Array (List (Nat × Item μ))}
    (h : P.Finishes kernel finished) {n : Nat} {i : Item μ} (hi : P.items[n]? = some i)
    (hleft : i.left = []) (hstands : P.Stands kernel i) (follow : TokenSet) :
    P.Finishes kernel
      (finished.mapIdx fun t ends => if follow.has t then (n, i) :: ends else ends) := by
  intro t p hp
  have hbefore := h t
  rw [Array.getD_eq_getD_getElem?] at hp hbefore
  rw [Array.getElem?_mapIdx] at hp
  rcases hends : finished[t]? with _ | ends
  · rw [hends] at hp
    cases hp
  · rw [hends] at hp hbefore
    rw [Option.map_some, Option.getD_some] at hp
    split at hp
    · rcases List.mem_cons.1 hp with rfl | hp
      · exact ⟨hi, hleft, hstands⟩
      · exact hbefore p hp
    · exact hbefore p hp

/-- What is sorted out as finished stands finished in the state. -/
theorem Places.Sound.finishes_sort {P : Places μ} (hP : P.Sound) (kernel : Kernel) (tokens : Nat) :
    P.Finishes kernel (P.sort tokens (P.close kernel)).1 := by
  rw [sort, ← Array.foldl_toList]
  refine List.foldlRecOn 
    (motive := fun sorted : Array (List (Nat × Item μ)) × List (TokenSet × Item μ) =>
      P.Finishes kernel sorted.1) _ _ (fun t p hp => ?_) fun sorted hsorted o ho => ?_
  · rw [getD_replicate] at hp
    cases hp
  · dsimp only
    split
    · exact hsorted
    · rename_i i hi
      split
      · rename_i hleft
        exact hsorted.mapIdx hi hleft (hP.stands_of_mem_close (Array.mem_toList_iff.1 ho) hi) o.2
      · exact hsorted

/-- What is settled on a token is to take it, to close something finished, or to have read all. -/
theorem cases_of_mem_settle {tokens phrases last t : Nat} {shifts : Array (Option Nat)}
    {finished : Array (List (Nat × Item μ))} {going : List (TokenSet × Item μ)} {a : Action}
    (h : a ∈ (settle tokens phrases last shifts finished going).getD t []) :
    (∃ m, shifts.getD t none = some m ∧ a = .shift m) ∨
      ∃ p ∈ finished.getD t [], p.1 ≠ last ∧ a = .reduce p.1 ∨ p.1 = last ∧ a = .accept := by
  rw [settle, Array.getD_eq_getD_getElem?, Array.getElem?_map] at h
  rcases hrange : (Array.range tokens)[t]? with _ | t'
  · rw [hrange] at h
    cases h
  · have hsame : t' = t := by
      obtain ⟨ht, hsame⟩ := Array.getElem?_eq_some_iff.1 hrange
      rw [← hsame, Array.getElem_range]
    subst hsame
    rw [hrange, Option.map_some, Option.getD_some] at h
    obtain ⟨b, hb, rfl⟩ := List.mem_map.1 h
    rcases cases_of_mem_resolve hb with ⟨m, hm, rfl⟩ | ⟨p, hp, rfl⟩
    · exact .inl ⟨m, hm, if_neg fun heq => by cases heq⟩
    · refine .inr ⟨p, List.mem_reverse.1 hp, ?_⟩
      by_cases hlast : p.1 = last
      · exact .inr ⟨hlast, if_pos (congrArg Action.reduce hlast)⟩
      · exact .inl ⟨hlast, if_neg fun heq => hlast (Action.reduce.inj heq)⟩

/-- What is settled for a state is a sound row of it. -/
theorem Places.Sound.row_settle {P : Places μ} (hP : P.Sound) (tokens phrases last : Nat)
    {f : Found} {kernel : Kernel} {moved : Found × Array (Option Nat) × Array Nat}
    (hmoved : Found.Moved P kernel f moved) :
    Row.Sound P last moved.1.kernels kernel
      ⟨settle tokens phrases last moved.2.1 (P.sort tokens (P.close kernel)).1
        (P.sort tokens (P.close kernel)).2, moved.2.2⟩ where
  shift t m hm := by
    rcases cases_of_mem_settle hm with ⟨m', hm', heq⟩ | ⟨p, -, ⟨-, heq⟩ | ⟨-, heq⟩⟩
    · cases heq
      exact hmoved.shift t m hm'
    · cases heq
    · cases heq
  reduce t n hn := by
    rcases cases_of_mem_settle hn with ⟨m, -, heq⟩ | ⟨p, hp, ⟨hother, heq⟩ | ⟨-, heq⟩⟩
    · cases heq
    · cases heq
      exact ⟨hother, p.2, hP.finishes_sort kernel tokens t p hp⟩
    · cases heq
  accept t ht := by
    rcases cases_of_mem_settle ht with ⟨m, -, heq⟩ | ⟨p, hp, ⟨-, heq⟩ | ⟨hlast, -⟩⟩
    · cases heq
    · cases heq
    · rw [← hlast]
      exact ⟨p.2, hP.finishes_sort kernel tokens t p hp⟩
  goto := hmoved.goto

/-- What a kernel adds to the states found: the states that it leads to, and its row. -/
theorem Places.expand_eq (P : Places μ) (tokens phrases heads last : Nat) {f : Found} {kernel : Kernel}
    {moved : Found × Array (Option Nat) × Array Nat}
    (h : f.move tokens heads (P.moves (P.close kernel)).toArray = moved) :
    P.expand tokens phrases heads last f kernel = { moved.1 with
      rows := moved.1.rows.push ⟨settle tokens phrases last moved.2.1
        (P.sort tokens (P.close kernel)).1 (P.sort tokens (P.close kernel)).2, moved.2.2⟩ } := by
  subst h
  rfl

/-- Expanding a state adds a sound row, and all that was found before stays. -/
theorem Places.Sound.expand {P : Places μ} (hP : P.Sound) (tokens phrases heads last : Nat) {f : Found}
    (hf : f.Sound P last) {kernel : Kernel} (hkernel : f.kernels[f.rows.size]? = some kernel) :
    (P.expand tokens phrases heads last f kernel).Sound P last ∧
      Keeps f.kernels (P.expand tokens phrases heads last f kernel).kernels := by
  obtain ⟨moved, hmove⟩ : ∃ moved, f.move tokens heads (P.moves (P.close kernel)).toArray = moved :=
    ⟨_, rfl⟩
  have hmoved : Found.Moved P kernel f moved := hmove ▸ Found.moved_move tokens heads hf.counts
    fun c next h => hP.leads_moves kernel c next (HashMap.mem_toArray_iff_getElem?_eq_some.1 h)
  rw [P.expand_eq tokens phrases heads last hmove]
  refine ⟨⟨hmoved.counts, fun n row hrow => ?_⟩, hmoved.keeps⟩
  rw [Array.getElem?_push] at hrow
  split at hrow
  · rename_i hn
    cases hrow
    rw [hn, hmoved.rows]
    exact ⟨kernel, hmoved.keeps _ _ hkernel, hP.row_settle tokens phrases last hmoved⟩
  · obtain ⟨k, hk, hsound⟩ := hf.rows n row (hmoved.rows ▸ hrow)
    exact ⟨k, hmoved.keeps n k hk, hsound.mono hmoved.keeps⟩

/-- So do all states. -/
theorem Places.Sound.explore {P : Places μ} (hP : P.Sound) (tokens phrases heads last limit : Nat)
    {f : Found} (hf : f.Sound P last) :
    (P.explore tokens phrases heads last limit f).Sound P last ∧
      Keeps f.kernels (P.explore tokens phrases heads last limit f).kernels := by
  induction limit generalizing f with
  | zero => exact ⟨hf, fun _ _ => id⟩
  | succ limit ih =>
    rw [Places.explore]
    split
    · exact ⟨hf, fun _ _ => id⟩
    · rename_i kernel hkernel
      obtain ⟨hsound, hkeeps⟩ := hP.expand tokens phrases heads last hf hkernel
      obtain ⟨hall, hkept⟩ := ih hsound
      exact ⟨hall, hkeeps.trans hkept⟩

/-- What follows a kernel was reached from what stands in it. -/
theorem Places.exists_goes {P : Places μ} {kernels : Array Kernel} {kernel next : Kernel} {c : Code} {m : Nat}
    {j : Item μ} (hnext : kernels[m]? = some next) (hfollows : P.Follows kernel c next)
    (hj : ∃ k, kernels[m]? = some k ∧ P.Stands k j) (hdone : j.done ≠ []) :
    ∃ i, P.Stands kernel i ∧ i.Goes c j := by
  obtain ⟨k, hk, n, hn, hkernel⟩ := hj
  rw [hnext] at hk
  cases hk
  obtain ⟨follow, hmem⟩ := hkernel.resolve_right hdone
  obtain ⟨i, j', hi, hgoes, hj'⟩ := hfollows n follow hmem
  rw [hn] at hj'
  cases hj'
  exact ⟨i, hi, hgoes⟩

/-! ## The states of a grammar -/

variable [DecidableEq τ] [DecidableEq ν] [DecidableEq μ] [Hashable τ] [Hashable ν] [Hashable μ]

namespace RuleSet

variable (g : RuleSet τ ν μ)

/-- The production of a whole text. -/
def top : Production μ := ⟨g.numbered.heads, [⟨.head 0, .free, []⟩], 0, false⟩

/-- The productions of the grammar and that of a whole text. -/
def allProductions : Array (Production μ) := g.numbered.productions.push g.top

/-- The items of all productions. -/
def itemList : List (Item μ) := g.allProductions.toList.flatMap fun p => p.item.run

/-- The number of an item. -/
def numberOf (i : Item μ) : Nat := (numbering g.itemList).2.getD i 0

/-- The productions by head. -/
def byHead : Array (List (Production μ)) :=
  g.allProductions.foldl (fun all p => all.modify p.head (p :: ·))
    (.replicate (g.numbered.heads + 1) ([] : List (Production μ)))

/-- The items of the grammar and how they go together. -/
def places : Places μ where
  items := (numbering g.itemList).1
  next := (numbering g.itemList).1.map fun i => (i.next?.map g.numberOf).getD 0
  first := firstTokens g.allProductions (g.numbered.heads + 1)
  openings := (Array.range (g.numbered.heads + 1)).map fun h =>
    (reachableHeads g.byHead (firstTokens g.allProductions (g.numbered.heads + 1)) h).toArray.flatMap
      fun (m, follow, through) =>
        ((g.byHead.getD m []).map fun p => (g.numberOf p.item, follow, through)).toArray

/-- The first state, from which all others are found. -/
def begun : Found := ((⟨∅, #[], #[]⟩ : Found).state [(g.numberOf g.top.item, .single 0)]).1

/-- The item after a whole text. -/
def last : Nat := g.places.next.getD (g.numberOf g.top.item) 0

/-- All states. -/
def found : Found :=
  g.places.explore (g.numbered.tokens.size + 1) g.numbered.phrases.size (g.numbered.heads + 1) g.last
    stateLimit g.begun

/-- The automaton, part by part. -/
theorem automaton_eq : g.automaton =
    { tokens := g.numbered.tokens
      number := fun t => ((numbering g.numbered.tokens.toList).2.get? t).map (· + 1)
      phrases := g.numbered.phrases
      items := g.places.items
      rows := g.found.rows } := rfl

variable {g}

omit [Hashable μ] in
/-- All productions are the numbered ones and that of the whole text. -/
theorem mem_allProductions {p : Production μ} :
    p ∈ g.allProductions ↔ p ∈ g.numbered.productions ∨ p = g.top := by
  rw [allProductions, Array.mem_push]

/-- All productions put by their heads so far are of the grammar. -/
def Sorts (g : RuleSet τ ν μ) (all : Array (List (Production μ))) : Prop :=
  ∀ h, ∀ p ∈ all.getD h [], p ∈ g.allProductions

omit [Hashable μ] in
/-- A production of the grammar may be put under its head. -/
theorem Sorts.modify {all : Array (List (Production μ))} (hall : g.Sorts all) {p : Production μ}
    (hp : p ∈ g.allProductions) : g.Sorts (all.modify p.head (p :: ·)) := by
  intro h q hq
  have hbefore := hall h
  rw [Array.getD_eq_getD_getElem?] at hq hbefore
  rw [Array.getElem?_modify] at hq
  split at hq
  · rcases hends : all[h]? with _ | ps
    · rw [hends] at hq
      cases hq
    · rw [hends] at hq hbefore
      rcases List.mem_cons.1 hq with rfl | hq
      · exact hp
      · exact hbefore q hq
  · exact hbefore q hq

omit [Hashable μ] in
/-- What stands under a head is a production of the grammar. -/
theorem mem_byHead {h : Nat} {p : Production μ} (hp : p ∈ g.byHead.getD h []) : p ∈ g.allProductions := by
  suffices hsorts : g.Sorts g.byHead from hsorts h p hp
  rw [byHead, ← Array.foldl_toList]
  refine List.foldlRecOn (motive := g.Sorts) _ _ (fun h p hp => ?_)
    fun all hall p hp => hall.modify (Array.mem_toList_iff.1 hp)
  rw [getD_replicate] at hp
  cases hp

/-- The first item of a production has its number. -/
theorem getElem?_items_numberOf {p : Production μ} (hp : p ∈ g.allProductions) :
    g.places.items[g.numberOf p.item]? = some p.item :=
  (numbers_numbering g.itemList).getElem?_getD
    (List.mem_flatMap_of_mem (Array.mem_toList_iff.2 hp) (Item.mem_go_self _ _)) 0

/-- An item at the beginning is that of a production. -/
theorem exists_production {n : Nat} {i : Item μ} (h : g.places.items[n]? = some i) (hdone : i.done = []) :
    ∃ p ∈ g.allProductions, i = p.item := by
  have hmem := ((numbers_numbering g.itemList).mem_iff i).2 ⟨n, h⟩
  obtain ⟨p, hp, hi⟩ := List.mem_flatMap.1 hmem
  exact ⟨p, Array.mem_toList_iff.1 hp, Item.eq_of_mem_run hi hdone⟩

/-- An item finished at the end of a whole text is the last one. -/
theorem eq_last_of_head {n : Nat} {i : Item μ} (h : g.places.items[n]? = some i) (hleft : i.left = [])
    (hhead : i.head = g.numbered.heads) : g.top.item.next? = some i := by
  have hmem := ((numbers_numbering g.itemList).mem_iff i).2 ⟨n, h⟩
  obtain ⟨p, hp, hrun⟩ := List.mem_flatMap.1 hmem
  have hp := mem_allProductions.1 (Array.mem_toList_iff.1 hp)
  have htop : p = g.top := by
    refine hp.resolve_left fun hp => ?_
    have hlt := (exists_produces hp).1
    rw [Item.head_eq_of_mem_go hrun] at hhead
    exact Nat.ne_of_lt hlt hhead
  subst htop
  rcases List.mem_cons.1 hrun with rfl | hrun
  · cases hleft
  · rw [List.mem_singleton.1 hrun]
    rfl

/-- The items of the grammar fit together. -/
theorem sound_places : g.places.Sound := by
  constructor
  · intro n i j hi hj
    have hmem := ((numbers_numbering g.itemList).mem_iff i).2 ⟨n, hi⟩
    obtain ⟨p, hp, hrun⟩ := List.mem_flatMap.1 hmem
    have hnext : j ∈ g.itemList :=
      List.mem_flatMap_of_mem hp (Item.mem_go_of_next? (Nat.le_refl _) hrun hj)
    have hnumber : g.places.next.getD n 0 = g.numberOf j := by
      have hi' : (numbering g.itemList).1[n]? = some i := hi
      rw [places, Array.getD_eq_getD_getElem?, Array.getElem?_map, hi', Option.map_some, hj]
      rfl
    rw [hnumber]
    exact (numbers_numbering g.itemList).getElem?_getD hnext 0
  · intro h o ho
    rw [places, Array.getD_eq_getD_getElem?, Array.getElem?_map] at ho
    rcases hrange : (Array.range (g.numbered.heads + 1))[h]? with _ | h'
    · rw [hrange] at ho
      simp at ho
    · rw [hrange, Option.map_some, Option.getD_some] at ho
      obtain ⟨m, -, ho⟩ := Array.mem_flatMap.1 ho
      obtain ⟨p, hp, rfl⟩ := List.mem_map.1 (List.mem_toArray.1 ho)
      have hitem := getElem?_items_numberOf (mem_byHead hp)
      rw [places] at hitem
      exact ⟨p.item, hitem, rfl⟩

/-- What stands in the states of the automaton. Whatever a state has under way was reached from a state
that leads to it, and what it closes is finished there. -/
structure States (g : RuleSet τ ν μ) (stands : Nat → Item μ → Prop) : Prop where
  begins : ∀ n i, stands n i → i.done = [] → ∃ p ∈ g.allProductions, i = p.item
  first : ∀ i, stands 0 i → i.done = []
  shift : ∀ n t m j, .shift m ∈ g.automaton.actions n t → stands m j → j.done ≠ [] →
    ∃ i, stands n i ∧ i.Goes (.token t) j
  goto : ∀ (n : Nat) row h j, g.automaton.rows[n]? = some row → stands (row.gotos.getD h 0) j →
    j.done ≠ [] → ∃ i, stands n i ∧ i.Goes (.head h) j
  reduce : ∀ n t k, .reduce k ∈ g.automaton.actions n t →
    ∃ i, g.automaton.items[k]? = some i ∧ i.head ≠ g.numbered.heads ∧ i.left = [] ∧ stands n i
  accept : ∀ n t, .accept ∈ g.automaton.actions n t → ∃ i, g.top.item.next? = some i ∧ stands n i

/-- At first there is one kernel, that of the whole text, and no row. -/
theorem counts_begun : g.begun.Counts ∧ g.begun.rows = #[] ∧
    g.begun.kernels[0]? = some [(g.numberOf g.top.item, .single 0)] := by
  have hempty : (⟨∅, #[], #[]⟩ : Found).Counts := by
    intro k n h
    simp at h
  obtain ⟨hcounts, -, hrows, hkernel⟩ :=
    Found.state_spec hempty [(g.numberOf g.top.item, TokenSet.single 0)]
  refine ⟨hcounts, hrows, ?_⟩
  have hzero : ((⟨∅, #[], #[]⟩ : Found).state [(g.numberOf g.top.item, .single 0)]).2 = 0 := by
    simp [Found.state]
  rw [hzero] at hkernel
  exact hkernel

/-- An item stands in a numbered state. -/
def StandsIn (g : RuleSet τ ν μ) (n : Nat) (i : Item μ) : Prop :=
  ∃ kernel, g.found.kernels[n]? = some kernel ∧ g.places.Stands kernel i

theorem sound_begun : g.begun.Sound g.places g.last := by
  obtain ⟨hcounts, hnone, -⟩ := counts_begun (g := g)
  refine ⟨hcounts, fun n row hrow => ?_⟩
  rw [hnone] at hrow
  simp at hrow

theorem sound_found : g.found.Sound g.places g.last :=
  (sound_places.explore _ _ _ g.last stateLimit sound_begun).1

/-- In the first state stands what begins a whole text. -/
theorem kernel_zero : g.found.kernels[0]? = some [(g.numberOf g.top.item, .single 0)] :=
  (sound_places.explore _ _ _ g.last stateLimit sound_begun).2 0 _ counts_begun.2.2

theorem getElem?_items_top : g.places.items[g.numberOf g.top.item]? = some g.top.item :=
  getElem?_items_numberOf (mem_allProductions.2 (.inr rfl))

/-- Nothing is done of what stands in the first state. -/
theorem StandsIn.done_eq_nil {i : Item μ} (h : g.StandsIn 0 i) : i.done = [] := by
  obtain ⟨kernel, hkernel, n, hn, hmem | hdone⟩ := h
  · rw [kernel_zero] at hkernel
    cases hkernel
    obtain ⟨follow, hmem⟩ := hmem
    cases List.mem_singleton.1 hmem
    rw [getElem?_items_top] at hn
    cases hn
    rfl
  · exact hdone

/-- What is to be done in a state stands in a sound row of it. -/
theorem exists_row_of_mem_actions {n t : Nat} {a : Action} (h : a ∈ g.automaton.actions n t) :
    ∃ (row : Row) (kernel : Kernel), a ∈ row.actions.getD t [] ∧ g.found.kernels[n]? = some kernel ∧
      row.Sound g.places g.last g.found.kernels kernel := by
  rw [Automaton.actions, automaton_eq] at h
  split at h
  · rename_i row hrow
    obtain ⟨kernel, hkernel, hsound⟩ := sound_found.rows n row hrow
    exact ⟨row, kernel, h, hkernel, hsound⟩
  · cases h

/-- What closes a whole text has the number of the item after it. -/
theorem eq_last_of_items {k : Nat} {i : Item μ} (hi : g.places.items[k]? = some i) (hleft : i.left = [])
    (hhead : i.head = g.numbered.heads) : k = g.last := by
  have hnext := sound_places.next _ _ _ getElem?_items_top (eq_last_of_head hi hleft hhead)
  have hk := ((numbers_numbering g.itemList).eq_some_iff i k).2 hi
  rw [((numbers_numbering g.itemList).eq_some_iff i _).2 hnext] at hk
  exact (Option.some.inj hk).symm

/-- **States.** The automaton of a grammar has states as said. -/
theorem states_standsIn : States g g.StandsIn where
  begins n i h hdone := by
    obtain ⟨kernel, -, m, hm, -⟩ := h
    exact exists_production hm hdone
  first i h := h.done_eq_nil
  shift n t m j hm hj hdone := by
    obtain ⟨row, kernel, hmem, hkernel, hsound⟩ := exists_row_of_mem_actions hm
    obtain ⟨next, hnext, hfollows⟩ := hsound.shift t m hmem
    obtain ⟨i, hi, hgoes⟩ := Places.exists_goes hnext hfollows hj hdone
    exact ⟨i, ⟨kernel, hkernel, hi⟩, hgoes⟩
  goto n row h j hn hj hdone := by
    obtain ⟨kernel, hkernel, hsound⟩ := sound_found.rows n row hn
    rcases hsound.goto h with hzero | ⟨next, hnext, hfollows⟩
    · -- no state is gone to, so `j` stands in the first one, where nothing is done
      rw [hzero] at hj
      exact absurd hj.done_eq_nil hdone
    · obtain ⟨i, hi, hgoes⟩ := Places.exists_goes hnext hfollows hj hdone
      exact ⟨i, ⟨kernel, hkernel, hi⟩, hgoes⟩
  reduce n t k hk := by
    obtain ⟨row, kernel, hmem, hkernel, hsound⟩ := exists_row_of_mem_actions hk
    obtain ⟨hother, i, hi, hleft, hstands⟩ := hsound.reduce t k hmem
    exact ⟨i, hi, fun hhead => hother (eq_last_of_items hi hleft hhead), hleft, kernel, hkernel, hstands⟩
  accept n t hmem := by
    obtain ⟨row, kernel, hmem, hkernel, hsound⟩ := exists_row_of_mem_actions hmem
    obtain ⟨i, hi, -, hstands⟩ := hsound.accept t hmem
    have hlast := (sound_places (g := g)).next _ _ _ getElem?_items_top rfl
    rw [← last, hi] at hlast
    cases hlast
    exact ⟨_, rfl, kernel, hkernel, hstands⟩

end RuleSet

end PullGate.Grammar
