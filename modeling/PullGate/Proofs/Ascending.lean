import Mathlib.Data.List.Sort
import PullGate.Identity
/-!
# Numbers in ascending order

Sorting numbers of pull requests and dropping repetitions that stand together leaves every number once,
in ascending order (`pairwise_lt_eraseReps`). Such a list is known by what is in it alone
(`eq_of_mem_iff`).
-/

namespace PullGate

/-! ## Repetitions -/

section

variable {α : Type} [BEq α]

/-- What was gathered comes first. -/
theorem eraseRepsBy_loop_eq (a : α) (l gathered : List α) :
    List.eraseRepsBy.loop (· == ·) a l gathered =
      gathered.reverse ++ List.eraseRepsBy.loop (· == ·) a l [] := by
  induction l generalizing a gathered with
  | nil => simp [List.eraseRepsBy.loop]
  | cons b l ih =>
    rw [List.eraseRepsBy.loop, List.eraseRepsBy.loop]
    cases a == b with
    | true => exact ih a gathered
    | false =>
      dsimp only
      rw [ih b (a :: gathered), ih b [a], List.reverse_cons, List.reverse_singleton,
        List.append_assoc]

/-- Of two items in a row the first is left out if they are the same. -/
theorem eraseReps_cons_cons (a b : α) (l : List α) :
    (a :: b :: l).eraseReps = if a == b then (a :: l).eraseReps else a :: (b :: l).eraseReps := by
  show List.eraseRepsBy.loop (· == ·) a (b :: l) [] = _
  rw [List.eraseRepsBy.loop]
  cases a == b with
  | true => rfl
  | false => exact eraseRepsBy_loop_eq b l [a]

end

/-- Nothing is lost with the repetitions. -/
theorem mem_eraseReps {α : Type} [BEq α] [LawfulBEq α] {l : List α} {x : α} :
    x ∈ l.eraseReps ↔ x ∈ l := by
  cases l with
  | nil => rfl
  | cons a l =>
    induction l generalizing a with
    | nil => rfl
    | cons b l ih =>
      rw [eraseReps_cons_cons]
      split
      · rename_i hab
        obtain rfl := eq_of_beq hab
        rw [ih, List.mem_cons, List.mem_cons, List.mem_cons, or_self_left]
      · rw [List.mem_cons, ih, List.mem_cons, List.mem_cons, List.mem_cons]

/-! ## Numbers of pull requests -/

namespace PrNumber

/-- Different pull requests have different numbers. -/
theorem value_ne {a b : PrNumber} (h : a ≠ b) : a.value ≠ b.value := by
  intro hvalue
  cases a
  cases b
  exact h (congrArg PrNumber.mk hvalue)

/-- Sorted numbers are in ascending order. -/
theorem pairwise_le_mergeSort (numbers : List PrNumber) :
    (numbers.mergeSort fun a b => a.value ≤ b.value).Pairwise fun a b => a.value ≤ b.value := by
  let le := fun a b : PrNumber => decide (a.value ≤ b.value)
  have htrans : ∀ a b c, le a b = true → le b c = true → le a c = true := by
    intro a b c hab hbc
    rw [decide_eq_true_eq] at hab hbc ⊢
    exact UInt64.le_trans hab hbc
  have htotal : ∀ a b, (le a b || le b a) = true := by
    intro a b
    rw [Bool.or_eq_true, decide_eq_true_eq, decide_eq_true_eq]
    exact UInt64.le_total a.value b.value
  exact (List.pairwise_mergeSort htrans htotal numbers).imp of_decide_eq_true

/-- In ascending order all repetitions stand together. -/
theorem pairwise_lt_eraseReps {l : List PrNumber} (h : l.Pairwise fun a b => a.value ≤ b.value) :
    l.eraseReps.Pairwise fun a b => a.value < b.value := by
  cases l with
  | nil => exact .nil
  | cons a l =>
    induction l generalizing a with
    | nil => exact List.pairwise_singleton _ a
    | cons b l ih =>
      obtain ⟨ha, hrest⟩ := List.pairwise_cons.1 h
      obtain ⟨hb, hl⟩ := List.pairwise_cons.1 hrest
      -- the first of two equal heads goes, and of two different ones it stays
      rw [eraseReps_cons_cons]
      split
      · exact ih a (.cons (fun n hn => ha n (List.mem_cons_of_mem b hn)) hl)
      · rename_i hab
        have hlt : a.value < b.value :=
          UInt64.lt_of_le_of_ne (ha b List.mem_cons_self) (value_ne fun heq => hab (beq_iff_eq.2 heq))
        refine .cons (fun n hn => ?_) (ih b hrest)
        rcases List.mem_cons.1 (mem_eraseReps.1 hn) with rfl | hn
        · exact hlt
        · exact UInt64.lt_of_lt_of_le hlt (hb n hn)

/-- In a list that ascends nothing stands twice. -/
theorem nodup_of_pairwise_lt {l : List PrNumber} (h : l.Pairwise fun a b => a.value < b.value) :
    l.Nodup :=
  h.imp fun hlt heq => absurd (congrArg value heq) (UInt64.ne_of_lt hlt)

/-- What is in it makes a list in strictly ascending order. -/
theorem eq_of_mem_iff {l l' : List PrNumber} (h : l.Pairwise fun a b => a.value < b.value)
    (h' : l'.Pairwise fun a b => a.value < b.value) (hmem : ∀ n, n ∈ l ↔ n ∈ l') : l = l' := by
  have hperm : l.Perm l' :=
    (List.perm_ext_iff_of_nodup (nodup_of_pairwise_lt h) (nodup_of_pairwise_lt h')).2 hmem
  refine hperm.eq_of_pairwise (fun a b _ _ hab hba => ?_) h h'
  exact absurd (UInt64.lt_trans hab hba) (UInt64.lt_irrefl a.value)

end PrNumber

end PullGate
