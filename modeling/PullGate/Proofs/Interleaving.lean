import PullGate.Proofs.AwaitingReview
import PullGate.Proofs.Attempt
/-!
# Deliveries at the same time

Deliveries are not kept apart: what two of them write can reach the pull request in any order that
keeps the order within each, and each may have been decided on labels that are no longer there.
`Interleaves` says which orders these are. If no label is touched by both, the order does not matter
(`Interleaves.applyAll_eq`); pushes on the one side, and reviews and labels changed by people on the
other, have no label in common.
-/

namespace PullGate

open PullGate.Compliance (Analyzer)

/-! ## Interleavings -/

/-- A list has the elements of two lists, and those of each in their order. -/
inductive Interleaves {α : Type} : List α → List α → List α → Prop
  /-- There are no elements left. -/
  | nil : Interleaves [] [] []
  /-- The next element is of the first list. -/
  | left (x : α) {xs ys zs : List α} (h : Interleaves xs ys zs) :
      Interleaves (x :: xs) ys (x :: zs)
  /-- The next element is of the second list. -/
  | right (y : α) {xs ys zs : List α} (h : Interleaves xs ys zs) :
      Interleaves xs (y :: ys) (y :: zs)

namespace Interleaves

variable {α : Type}

/-- Which of two lists is called first makes no difference. -/
theorem symm {xs ys zs : List α} (h : Interleaves xs ys zs) : Interleaves ys xs zs := by
  induction h with
  | nil => exact .nil
  | left x _ ih => exact .right x ih
  | right y _ ih => exact .left y ih

/-- One list after the other is such an order. -/
theorem append (xs ys : List α) : Interleaves xs ys (xs ++ ys) := by
  induction xs with
  | nil =>
    induction ys with
    | nil => exact .nil
    | cons y ys ih => exact .right y ih
  | cons x xs ih => exact .left x ih

end Interleaves

/-! ## Effects on different labels -/

namespace Effect

/-- The effect adds or removes a label. -/
def Touches (l : Label) (e : Effect) : Prop := e.Adds l ∨ e.Removes l

/-- Only writes touch labels. -/
theorem Touches.isWrite {l : Label} {e : Effect} (h : e.Touches l) : e.isWrite = true :=
  h.elim Adds.isWrite Removes.isWrite

/-- What becomes of a label hangs on that label alone. -/
theorem has_applyTo_congr {a b : LabelSet} {l : Label} (h : a.has l = b.has l) (e : Effect) :
    (applyTo a e).has l = (applyTo b e).has l := by
  cases e with
  | addLabels pr ls => rw [has_foldl_insert_eq, has_foldl_insert_eq, h]
  | removeLabel pr k => rw [applyTo, applyTo, LabelSet.has_erase, LabelSet.has_erase, h]
  | _ => exact h

/-- An effect leaves labels alone that it does not touch. -/
theorem has_applyTo_of_not_touches {e : Effect} {l : Label} (h : ¬ e.Touches l)
    (labels : LabelSet) : (applyTo labels e).has l = labels.has l := by
  have hone : (applyAll [e] labels).has l = labels.has l := by
    apply has_applyAll_of_untouched
    · intro d hd hadds
      exact h (.inl (List.mem_singleton.1 hd ▸ hadds))
    · intro d hd hremoves
      exact h (.inr (List.mem_singleton.1 hd ▸ hremoves))
  exact hone

end Effect

namespace Interleaves

variable {es ds zs : List Effect} {l : Label}

/-- What becomes of a label that only the second list touches is what that list makes of it. -/
theorem has_applyAll_right (h : Interleaves es ds zs) (hes : ∀ e ∈ es, ¬ e.Touches l)
    {a b : LabelSet} (hsame : a.has l = b.has l) :
    (Effect.applyAll zs a).has l = (Effect.applyAll ds b).has l := by
  induction h generalizing a b with
  | nil => exact hsame
  | left e _ ih =>
    have hrest := fun d hd => hes d (List.mem_cons_of_mem e hd)
    have hkept := Effect.has_applyTo_of_not_touches (hes e List.mem_cons_self) a
    exact ih hrest (hkept.trans hsame)
  | right d _ ih => exact ih hes (Effect.has_applyTo_congr hsame d)

/-- **Different labels.** If no label is touched by both lists of effects, then in every order that
keeps the order within each they leave the same labels as one after the other. -/
theorem applyAll_eq (h : Interleaves es ds zs)
    (hapart : ∀ l, (∀ e ∈ es, ¬ e.Touches l) ∨ ∀ d ∈ ds, ¬ d.Touches l) (labels : LabelSet) :
    Effect.applyAll zs labels = Effect.applyAll (es ++ ds) labels := by
  ext l
  rcases hapart l with hes | hds
  · calc (Effect.applyAll zs labels).has l
        = (Effect.applyAll ds labels).has l := h.has_applyAll_right hes rfl
      _ = (Effect.applyAll (es ++ ds) labels).has l :=
          ((append es ds).has_applyAll_right hes rfl).symm
  · calc (Effect.applyAll zs labels).has l
        = (Effect.applyAll es labels).has l := h.symm.has_applyAll_right hds rfl
      _ = (Effect.applyAll (es ++ ds) labels).has l :=
          ((append es ds).symm.has_applyAll_right hds rfl).symm

end Interleaves

/-! ## Pushes, and what people do -/

/-- Commits were pushed, or a draft became ready. -/
def Event.IsPush : Event → Prop
  | pullRequest e => e.action = .synchronize ∨ e.action = .readyForReview
  | review _ => False

/-- Someone changed a label, or something happened to a review. -/
def Event.IsByPeople : Event → Prop
  | pullRequest e => e.action = .labeled ∨ e.action = .unlabeled
  | review _ => True

/-- Whether the label says where the review stands. -/
def Label.isAboutReview (l : Label) : Bool := l = .awaitingReview || l = .changesRequested

variable {analyzer : Analyzer} {policy : Policy} {event : Event}

/-- A push is an event of a pull request for the gate and the look at checks. -/
theorem Event.IsPush.exists_eq (h : event.IsPush) :
    ∃ e, event = .pullRequest e ∧ e.action ≠ .opened ∧
      ∀ k ∈ event.handlers, k = .gateKeeper ∨ k = .failingChecks := by
  cases event with
  | review e => exact h.elim
  | pullRequest e =>
    refine ⟨e, rfl, ?_⟩
    rcases h with h | h <;> rw [handlers, h] <;> decide

/-- What people do is for the handlers of labels and of reviews. -/
theorem Event.IsByPeople.handlers_subset (h : event.IsByPeople) :
    ∀ k ∈ event.handlers, k = .manualLabel ∨ k = .reviewState := by
  cases event with
  | review e => rw [handlers]; cases e.action <;> decide
  | pullRequest e => rcases h with h | h <;> rw [handlers, h] <;> decide

/-- A push never touches a label about the review: the gate adds `awaiting review` to new pull requests
only. -/
theorem not_touches_of_push (hpush : event.IsPush) {xs : Transcript} {res : Except Failure Handling}
    (hp : (dispatch analyzer policy event).Plays xs res) {l : Label} (hl : l.isAboutReview = true) :
    ∀ e ∈ xs.effects, ¬ e.Touches l := by
  intro x hx htouches
  obtain ⟨e, rfl, hopened, hhandlers⟩ := hpush.exists_eq
  obtain ⟨h, hh, ws, hasks, hmem⟩ := exists_asks_of_mem hp hx htouches.isWrite
  obtain ⟨hadd, hremove⟩ := Handler.footprint hasks hmem l
  -- neither of the handlers of a push takes such a label away
  have hremoves : h.mayRemove l = false := by
    rcases hhandlers h hh with rfl | rfl <;> revert hl <;> cases l <;> decide
  rcases htouches with hadds | hgone
  · rcases hhandlers h hh with rfl | rfl
    · -- of these labels the gate adds `awaiting review` at most
      obtain rfl : l = .awaitingReview := by
        have hmay := hadd hadds
        revert hmay hl
        cases l <;> decide
      obtain ⟨_, v, -, rfl⟩ := hasks.exists_verdict
      obtain ⟨_, -, haction, -⟩ := Gate.Verdict.eq_of_adds_awaitingReview hmem hadds
      exact hopened haction
    · have hmay := hadd hadds
      revert hmay hl
      cases l <;> decide
  · exact absurd (hremoves.symm.trans (hremove hgone)) (by decide)

/-- What people do leads to changes of labels about the review only. -/
theorem isAboutReview_of_touches (hpeople : event.IsByPeople) {xs : Transcript}
    {res : Except Failure Handling} (hp : (dispatch analyzer policy event).Plays xs res)
    {x : Effect} (hx : x ∈ xs.effects) {l : Label} (htouches : x.Touches l) :
    l.isAboutReview = true := by
  obtain ⟨h, hh, ws, hasks, hmem⟩ := exists_asks_of_mem hp hx htouches.isWrite
  have hmay : h.mayAdd l = true ∨ h.mayRemove l = true :=
    htouches.imp (Handler.footprint hasks hmem l).1 (Handler.footprint hasks hmem l).2
  revert hmay
  rcases hpeople.handlers_subset h hh with rfl | rfl <;> cases l <;> decide

/-! ## A push and what people do at the same time -/

/-- Other labels do not make or unmake a push. -/
theorem Event.isPush_withLabels (labels : LabelSet) :
    (event.withLabels labels).IsPush ↔ event.IsPush := by
  cases event <;> exact Iff.rfl

theorem Event.isByPeople_withLabels (labels : LabelSet) :
    (event.withLabels labels).IsByPeople ↔ event.IsByPeople := by
  cases event <;> exact Iff.rfl

/-- The writes of a delivery that have happened. -/
def Delivery.writes (d : Delivery) (labels : LabelSet) : List Effect :=
  Effect.writes (d.effects labels)

/-- The writes of a delivery are effects of one of its runs. -/
theorem Delivery.exists_plays_writes (d : Delivery) (labels : LabelSet) :
    ∃ (xs : Transcript) (res : Except Failure Handling),
      (dispatch d.analyzer d.policy (d.event.withLabels labels)).Plays xs res ∧
        d.writes labels ⊆ xs.effects := by
  obtain ⟨xs, hplays, heffects⟩ := d.exists_plays labels
  refine ⟨xs, _, hplays, fun x hx => ?_⟩
  rw [← heffects]
  exact (d.effects_prefix labels).subset (List.mem_filter.1 hx).1

/-- **A push and what people do at the same time.** A push of commits or a draft made ready, and a
label changed by someone or a review, are each decided on labels that need not be there any more. In
whatever order their writes reach the pull request, whatever its labels are, they leave the labels
that the one after the other leaves. -/
theorem applyAll_interleaved (push people : Delivery) (hpush : push.event.IsPush)
    (hpeople : people.event.IsByPeople) (shown shown' : LabelSet) {es : List Effect}
    (h : Interleaves (push.writes shown) (people.writes shown') es) (labels : LabelSet) :
    Effect.applyAll es labels =
      Effect.applyAll (push.writes shown ++ people.writes shown') labels := by
  refine h.applyAll_eq (fun l => ?_) labels
  by_cases hl : l.isAboutReview = true
  · left
    intro x hx
    obtain ⟨xs, res, hplays, hsub⟩ := push.exists_plays_writes shown
    exact not_touches_of_push ((Event.isPush_withLabels shown).2 hpush) hplays hl x (hsub hx)
  · right
    intro x hx htouches
    obtain ⟨xs, res, hplays, hsub⟩ := people.exists_plays_writes shown'
    have hpeople' := (Event.isByPeople_withLabels shown').2 hpeople
    exact hl (isAboutReview_of_touches hpeople' hplays (hsub hx) htouches)

/-- A draft made ready gets `tests are failing` and loses a requirement, while an owner requests
changes; each was shown other labels than there are. -/
theorem applyAll_interleaved_ready :
    let checks := Host.plainReply [⟨"completed", some "failure"⟩]
    let pr := PullRequestEvent.byOwner .readyForReview none ∅
    let push := (Attempt.whole (fun _ => .ok []) .standard checks (.pullRequest pr)).delivery
    let people := (Attempt.whole (fun _ => .ok []) .standard checks
      (.review ⟨pr.repository, .submitted, ⟨.changesRequested, .owner, "octo"⟩, pr.pr, none⟩)).delivery
    let shown := LabelSet.ofList [.requireNames]
    let shown' := LabelSet.ofList [.awaitingReview]
    let es : List Effect := [.addLabels ⟨1⟩ [.testsFailing], .addLabels ⟨1⟩ [.changesRequested],
      .removeLabel ⟨1⟩ .requireNames, .removeLabel ⟨1⟩ .awaitingReview]
    let labels := LabelSet.ofList [.awaitingReview, .requireTests, .requireNames]
    push.event.IsPush ∧ people.event.IsByPeople ∧
      Interleaves (push.writes shown) (people.writes shown') es ∧
      Effect.applyAll es labels =
        Effect.applyAll (push.writes shown ++ people.writes shown') labels ∧
      (Effect.applyAll es labels).toList = [.changesRequested, .testsFailing, .requireTests] := by
  intro checks pr push people shown shown' es labels
  have hpush : push.writes shown =
      [.addLabels ⟨1⟩ [.testsFailing], .removeLabel ⟨1⟩ .requireNames] := by decide +kernel
  have hpeople : people.writes shown' =
      [.addLabels ⟨1⟩ [.changesRequested], .removeLabel ⟨1⟩ .awaitingReview] := by decide +kernel
  have horder : Interleaves (push.writes shown) (people.writes shown') es := by
    rw [hpush, hpeople]
    exact .left _ (.right _ (.left _ (.right _ .nil)))
  exact ⟨.inr rfl, trivial, horder,
    applyAll_interleaved push people (.inr rfl) trivial shown shown' horder labels, by decide⟩

end PullGate
