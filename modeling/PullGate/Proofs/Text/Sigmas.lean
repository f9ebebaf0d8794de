import PullGate.Proofs.Text.Letters
import PullGate.Text.Search
/-!
# Sigmas in small letters

A text's small letters hang on the text alone, but for those of a capital sigma, which is written
otherwise at the end of a word. So what stands around a text may change how its sigmas are written, and
nothing else (`smallAmid_eq_iff`). `Steady` are the texts with which this does not happen. They are found
in small letters wherever they stand (`holds_toSmall_of_keepsSigmas`), and they alone
(`not_holds_toSmall_of_not_steady`).
-/

namespace PullGate.Text

/-! ## The place of a character -/

/-- Whether a sigma between these characters ends a word; `before` are those in front, last first. -/
def endsWord (before after : List Char) : Bool := meetsCased before && !meetsCased after

/-- The small forms of characters that stand between others. -/
def smallAmid (before after : List Char) : List Char → List Char
  | [] => []
  | c :: rest =>
    (if c = 'Σ' then [if endsWord before (rest ++ after) then 'ς' else 'σ'] else small c) ++
      smallAmid (c :: before) after rest

/-- The first characters of a text stand between what is in front and the others. -/
theorem smallFrom_append (before xs ys : List Char) :
    smallFrom before (xs ++ ys) = smallAmid before ys xs ++ smallFrom (xs.reverse ++ before) ys := by
  induction xs generalizing before with
  | nil => rfl
  | cons c xs ih =>
    rw [List.cons_append, smallFrom, smallAmid, ih, List.append_assoc, List.reverse_cons,
      List.append_assoc]
    rfl

/-- Small letters behind something are those with nothing after. -/
theorem smallFrom_eq (before xs : List Char) : smallFrom before xs = smallAmid before [] xs := by
  have h := smallFrom_append before xs []
  rw [List.append_nil, smallFrom, List.append_nil] at h
  exact h

/-- The small letters of two texts are those of each, with the other around it. -/
theorem smallAmid_append (before after xs ys : List Char) :
    smallAmid before after (xs ++ ys) =
      smallAmid before (ys ++ after) xs ++ smallAmid (xs.reverse ++ before) after ys := by
  induction xs generalizing before with
  | nil => rfl
  | cons c xs ih =>
    rw [List.cons_append, smallAmid, smallAmid, ih, List.append_assoc, List.append_assoc,
      List.reverse_cons, List.append_assoc]
    rfl

/-- As many characters are written in every place. -/
theorem length_smallAmid (before after before' after' xs : List Char) :
    (smallAmid before after xs).length = (smallAmid before' after' xs).length := by
  induction xs generalizing before before' with
  | nil => rfl
  | cons c xs ih =>
    rw [smallAmid, smallAmid, List.length_append, List.length_append, ih (c :: before) (c :: before')]
    by_cases hc : c = 'Σ'
    · rw [if_pos hc, if_pos hc]
      rfl
    · rw [if_neg hc, if_neg hc]

/-! ## What is around a text -/

/-- Every capital sigma of the text ends a word between these characters if it does in the text
alone. -/
def KeepsSigmas (before after text : List Char) : Prop :=
  ∀ front back, text = front ++ 'Σ' :: back →
    endsWord (front.reverse ++ before) (back ++ after) = endsWord front.reverse back

/-- A sigma stands at the front of a text, or further behind. -/
theorem forall_splits_cons {P : List Char → List Char → Prop} (c : Char) (text : List Char) :
    (∀ front back, c :: text = front ++ 'Σ' :: back → P front back) ↔
      (c = 'Σ' → P [] text) ∧ ∀ front back, text = front ++ 'Σ' :: back → P (c :: front) back := by
  constructor
  · intro h
    refine ⟨?_, ?_⟩
    · rintro rfl
      exact h [] text rfl
    · rintro front back rfl
      exact h (c :: front) back rfl
  · rintro ⟨hhead, htail⟩ front back heq
    cases front with
    | nil =>
      obtain ⟨rfl, rfl⟩ := List.cons.inj heq
      exact hhead rfl
    | cons d front =>
      obtain ⟨rfl, htext⟩ := List.cons.inj heq
      exact htail front back htext

/-- What stands in front makes no difference exactly if it makes none to a sigma. -/
theorem smallAmid_eq_iff_of_front (before after front text : List Char) :
    smallAmid (front ++ before) after text = smallAmid front [] text ↔
      ∀ inner back, text = inner ++ 'Σ' :: back →
        endsWord (inner.reverse ++ front ++ before) (back ++ after) =
          endsWord (inner.reverse ++ front) back := by
  -- What was passed of the text stands in front of the rest in both places.
  induction text generalizing front with
  | nil => simp [smallAmid]
  | cons c text ih =>
    have hrest := ih (c :: front)
    rw [List.cons_append] at hrest
    rw [forall_splits_cons, smallAmid, smallAmid]
    simp only [List.reverse_nil, List.nil_append, List.append_nil, List.reverse_cons,
      List.append_assoc, List.cons_append] at hrest ⊢
    rw [← hrest]
    by_cases hc : c = 'Σ'
    · rw [if_pos hc, if_pos hc, List.cons_append, List.cons_append, List.nil_append,
        List.nil_append, List.cons.injEq]
      refine and_congr_left' ?_
      cases endsWord (front ++ before) (text ++ after) <;> cases endsWord front text <;>
        simp [hc]
    · rw [if_neg hc, if_neg hc, List.append_cancel_left_eq]
      simp [hc]

/-- A text is written between others as it is alone exactly if its sigmas are. -/
theorem smallAmid_eq_iff {before after text : List Char} :
    smallAmid before after text = smallAmid [] [] text ↔ KeepsSigmas before after text := by
  have h := smallAmid_eq_iff_of_front before after [] text
  simp only [List.append_nil, List.nil_append] at h
  exact h

instance (before after text : List Char) : Decidable (KeepsSigmas before after text) :=
  decidable_of_iff _ smallAmid_eq_iff

/-- Characters that are ignored let one look on to what is behind them. -/
theorem meetsCased_append (xs ys : List Char) :
    meetsCased (xs ++ ys) = if xs.all isCaseIgnorable then meetsCased ys else meetsCased xs := by
  induction xs with
  | nil => rfl
  | cons c xs ih =>
    rw [List.cons_append]
    cases hc : isCaseIgnorable c with
    | true =>
      have hskip (zs : List Char) : meetsCased (c :: zs) = meetsCased zs := by
        unfold meetsCased
        rw [List.dropWhile_cons_of_pos hc]
      rw [hskip, hskip, ih, List.all_cons, hc, Bool.true_and]
    | false =>
      have hstop (zs : List Char) : meetsCased (c :: zs) = isCased c := by
        unfold meetsCased
        rw [List.dropWhile_cons_of_neg (Bool.eq_false_iff.1 hc)]
      rw [hstop, hstop, List.all_cons, hc]
      rfl

/-! ## Texts that are found wherever they stand -/

/-- Some of the characters is not passed over. -/
def Counts (cs : List Char) : Prop := ∃ c ∈ cs, isCaseIgnorable c = false

/-- For every capital sigma of the text, the text itself says whether it ends a word: a letter with case
comes next behind it; or in front of it comes something else, or such a letter and behind it something
else. -/
def Steady (text : List Char) : Prop :=
  ∀ front back, text = front ++ 'Σ' :: back →
    meetsCased back = true ∨ Counts front ∧ (Counts back ∨ meetsCased front.reverse = false)

theorem not_counts_iff {cs : List Char} : ¬ Counts cs ↔ cs.all isCaseIgnorable = true := by
  simp [Counts]

/-- Behind a text that counts nothing else is looked at. -/
theorem Counts.meetsCased_append {xs : List Char} (h : Counts xs) (ys : List Char) :
    meetsCased (xs ++ ys) = meetsCased xs := by
  rw [Text.meetsCased_append, if_neg fun hall => not_counts_iff.2 hall h]

/-- Behind a text that does not count one looks on. -/
theorem meetsCased_append_of_not_counts {xs : List Char} (h : ¬ Counts xs) (ys : List Char) :
    meetsCased (xs ++ ys) = meetsCased ys := by
  rw [meetsCased_append, if_pos (not_counts_iff.1 h)]

/-- A text that does not count has no letter to meet. -/
theorem meetsCased_of_not_counts {xs : List Char} (h : ¬ Counts xs) : meetsCased xs = false := by
  have hnil := meetsCased_append_of_not_counts h []
  rw [List.append_nil] at hnil
  exact hnil

/-- A text in which a letter is met counts. -/
theorem counts_of_meetsCased {xs : List Char} (h : meetsCased xs = true) : Counts xs := by
  by_contra hnone
  rw [meetsCased_of_not_counts hnone] at h
  cases h

theorem counts_reverse {xs : List Char} : Counts xs.reverse ↔ Counts xs := by
  simp [Counts]

/-- A text without capital sigmas is steady. -/
theorem steady_of_not_mem {text : List Char} (h : 'Σ' ∉ text) : Steady text := by
  rintro front back rfl
  exact absurd (List.mem_append_right front List.mem_cons_self) h

/-- What is around a steady text does not change it. -/
theorem Steady.keepsSigmas {text : List Char} (h : Steady text) (before after : List Char) :
    KeepsSigmas before after text := by
  intro front back htext
  unfold endsWord
  rcases h front back htext with hback | ⟨hfront, hback | hfirst⟩
  · rw [(counts_of_meetsCased hback).meetsCased_append, hback, Bool.not_true, Bool.and_false,
      Bool.and_false]
  · rw [(counts_reverse.2 hfront).meetsCased_append, hback.meetsCased_append]
  · rw [(counts_reverse.2 hfront).meetsCased_append, hfirst, Bool.false_and, Bool.false_and]

/-- An `a` is the small form of no character that is passed over. -/
theorem not_mem_small_of_isCaseIgnorable {c : Char} (h : isCaseIgnorable c = true) : 'a' ∉ small c := by
  intro hmem
  by_cases hc : c.toNat < 0x80
  · rw [isCaseIgnorable, if_pos hc, List.contains_iff_mem] at h
    simp only [List.mem_cons, List.not_mem_nil, or_false] at h
    revert hmem
    rcases h with rfl | rfl | rfl | rfl | rfl <;> decide
  · exact absurd (mem_small hc 'a' hmem) (by decide)

/-- A text that does not count has no `a` among its small letters. -/
theorem not_mem_smallAmid {before after text : List Char} (h : ¬ Counts text) :
    'a' ∉ smallAmid before after text := by
  rw [not_counts_iff, List.all_eq_true] at h
  induction text generalizing before with
  | nil => exact List.not_mem_nil
  | cons c text ih =>
    rw [smallAmid, List.mem_append, not_or]
    refine ⟨?_, ih fun d hd => h d (List.mem_cons_of_mem c hd)⟩
    split
    · split <;> decide
    · exact not_mem_small_of_isCaseIgnorable (h c List.mem_cons_self)

/-- A text with a sigma in it, between others. -/
theorem smallAmid_split (before after front back : List Char) :
    smallAmid before after (front ++ 'Σ' :: back) =
      smallAmid before ('Σ' :: back ++ after) front ++
        (if endsWord (front.reverse ++ before) (back ++ after) then 'ς' else 'σ') ::
          smallAmid ('Σ' :: (front.reverse ++ before)) after back := by
  rw [smallAmid_append, smallAmid, if_pos rfl]
  rfl

/-- A text that holds a character before another does not begin with the other. -/
theorem not_prefix_cons {xs ys l : List Char} {c d : Char} (hxs : d ∉ xs) (hc : c ≠ d) :
    ¬ xs ++ c :: ys <+: d :: l := by
  intro h
  cases xs with
  | nil => exact hc (List.cons_prefix_cons.1 h).1
  | cons x xs => exact hxs ((List.cons_prefix_cons.1 h).1 ▸ List.mem_cons_self)

/-- An `a` in front of a text whose first sigma does not know what is in front of it makes it one that
ends a word. -/
theorem not_infix_of_front {front back : List Char} (hfront : ¬ Counts front)
    (hback : meetsCased back = false) :
    ¬ smallAmid [] [] (front ++ 'Σ' :: back) <:+: 'a' :: smallAmid ['a'] [] (front ++ 'Σ' :: back) := by
  intro h
  -- Both are of one length but for the `a`, so the text stands at the start or is all the rest.
  rcases List.infix_cons_iff.1 h with hstart | hwhole
  · rw [smallAmid_split [] []] at hstart
    refine not_prefix_cons (not_mem_smallAmid hfront) ?_ hstart
    split <;> decide
  · have hkeeps := smallAmid_eq_iff.1 (hwhole.eq_of_length (length_smallAmid _ _ _ _ _)).symm
      front back rfl
    rw [← counts_reverse] at hfront
    unfold endsWord at hkeeps
    rw [meetsCased_append_of_not_counts hfront, meetsCased_of_not_counts hfront, List.append_nil,
      hback] at hkeeps
    revert hkeeps
    decide

/-- An `a` behind a text whose last sigma does not know what is behind it makes it one that ends no
word. -/
theorem not_infix_of_back {front back : List Char} (hfront : meetsCased front.reverse = true)
    (hback : ¬ Counts back) :
    ¬ smallAmid [] [] (front ++ 'Σ' :: back) <:+: smallAmid [] ['a'] (front ++ 'Σ' :: back) ++ ['a'] := by
  intro h
  -- As before, from the other end.
  rcases List.infix_concat_iff.1 h with hend | hwhole
  · rw [← List.reverse_prefix, smallAmid_split [] [], List.reverse_append, List.reverse_append,
      List.reverse_cons, List.append_assoc] at hend
    refine not_prefix_cons (fun hmem => ?_) ?_ hend
    · exact not_mem_smallAmid hback (List.mem_reverse.1 hmem)
    · split <;> decide
  · have hkeeps := smallAmid_eq_iff.1 (hwhole.eq_of_length (length_smallAmid _ _ _ _ _)).symm
      front back rfl
    unfold endsWord at hkeeps
    rw [List.append_nil, hfront, meetsCased_append_of_not_counts hback,
      meetsCased_of_not_counts hback] at hkeeps
    revert hkeeps
    decide

/-! ## Texts -/

/-- The small letters of a text are those with nothing around it. -/
theorem toList_toSmall (s : String) : (toSmall s).toList = smallAmid [] [] s.toList := by
  rw [toSmall, String.toList_ofList, smallFrom_eq]

/-- The small letters of a text between others. -/
theorem toList_toSmall_append (before text after : String) :
    (toSmall (before ++ text ++ after)).toList =
      smallAmid [] (text.toList ++ after.toList) before.toList ++
        smallAmid before.toList.reverse after.toList text.toList ++
          smallAmid (text.toList.reverse ++ before.toList.reverse) [] after.toList := by
  rw [toList_toSmall, String.toList_append, String.toList_append, smallAmid_append, smallAmid_append]
  simp only [List.append_nil, List.reverse_append]

/-- A text whose sigmas are written as in the text alone is found in small letters. -/
theorem holds_toSmall_of_keepsSigmas {before text after : String}
    (h : KeepsSigmas before.toList.reverse after.toList text.toList) :
    holds (toSmall (before ++ text ++ after)) (toSmall text) = true := by
  rw [holds_iff, toList_toSmall_append, smallAmid_eq_iff.2 h, ← toList_toSmall]
  exact ⟨_, _, rfl⟩

/-- A text that is not steady is not found behind an `a`, or not in front of one. -/
theorem not_holds_toSmall_of_not_steady {text : String} (h : ¬ Steady text.toList) :
    holds (toSmall ("a" ++ text ++ "")) (toSmall text) = false ∨
      holds (toSmall ("" ++ text ++ "a")) (toSmall text) = false := by
  simp only [Steady, not_forall, not_or] at h
  obtain ⟨front, back, htext, hback, hfront⟩ := h
  rw [Bool.not_eq_true] at hback
  -- a letter in front of the sigma that counts makes it final unless one follows; else it depends
  -- on what is put before
  by_cases hcounts : Counts front
  · right
    obtain ⟨hnone, hfirst⟩ := not_or.1 fun hor => hfront ⟨hcounts, hor⟩
    rw [Bool.not_eq_false] at hfirst
    have hwhole : (toSmall ("" ++ text ++ "a")).toList = smallAmid [] ['a'] text.toList ++ ['a'] := by
      rw [toList_toSmall_append]
      rfl
    rw [← Bool.not_eq_true, holds, occursIn_iff, hwhole, toList_toSmall, htext]
    exact not_infix_of_back hfirst hnone
  · left
    have hwhole : (toSmall ("a" ++ text ++ "")).toList = 'a' :: smallAmid ['a'] [] text.toList := by
      rw [toList_toSmall_append]
      exact List.append_nil _
    rw [← Bool.not_eq_true, holds, occursIn_iff, hwhole, toList_toSmall, htext]
    exact not_infix_of_front hcounts hback

end PullGate.Text
