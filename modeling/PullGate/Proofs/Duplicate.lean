import PullGate.Proofs.Redelivery
/-!
# Events that are delivered twice

An event that was handled may be delivered again. By then its handlers have what they were after, and
a handler rests once it has what it is after (`rests_wanted`). There is one exception: nothing remains
on a pull request that was turned away because of its author's other ones, so it is turned away anew.
-/

namespace PullGate

open PullGate.Compliance (Analyzer Report)

/-! ## Handlers rest -/

/-- The gate turns the pull request away because of its author's other ones. -/
def IsOverCap (analyzer : Analyzer) (policy : Policy) (replies : Effect → Response)
    (event : Event) : Prop :=
  ∃ e others, event = .pullRequest e ∧
    (Gate.run analyzer policy e).value replies = .ok (.rejected (.tooManyOpenPrs others))

variable {analyzer : Analyzer} {policy : Policy} {replies : Effect → Response} {event : Event}

namespace Gate

variable {e : PullRequestEvent}

/-- A run of the gate ends as its verdict says. -/
theorem value_run : (run analyzer policy e).value replies =
    ((judge analyzer policy e).value replies).map Verdict.outcome := by
  rw [run_eq_judge, Program.value_bind]
  rcases (judge analyzer policy e).value replies with failure | v
  · rfl
  · simp only [Verdict.carryOut, Program.value_bind, Program.value_performAll, Program.value]
    rfl

/-- The gate turns a pull request away by a verdict. -/
theorem value_run_eq_rejected {r : Rejection} :
    (run analyzer policy e).value replies = .ok (.rejected r) ↔
      (judge analyzer policy e).value replies = .ok (.turnAway r) := by
  rw [value_run]
  rcases (judge analyzer policy e).value replies with failure | v
  · exact ⟨nofun, nofun⟩
  · cases v <;> simp [Except.map, Verdict.outcome]

/-- Nothing that follows from a report is asked for where the requirements are met. -/
theorem rests_reportEffects (report : Report) :
    (Plan.aim report.requirements).Rests e.pr.labels (reportEffects e report) := by
  intro hmet
  obtain ⟨hadd, heffects⟩ := Plan.effects_eq_nil hmet e.pr.number
  simp only [reportEffects, hadd, heffects, ne_eq, not_true_eq_false, and_false, if_false,
    List.append_nil]

/-- Nothing is put on where the pull request awaits review already. -/
theorem rests_defaultEffects (requirements : LabelSet) :
    (defaultAim e.action requirements).Rests e.pr.labels (defaultEffects e requirements) := by
  intro hmet
  unfold defaultEffects
  refine if_neg ?_
  rintro ⟨haction, hempty, hawaits⟩
  rw [defaultAim, if_pos ⟨haction, hempty⟩] at hmet
  exact hawaits (Aim.met_only.1 hmet)

/-- A verdict rests, unless it turns away a pull request and leaves no mark. -/
theorem Verdict.rests {v : Verdict} (h : (judge analyzer policy e).value replies = .ok v)
    (hcap : ∀ others, v ≠ .turnAway (.tooManyOpenPrs others)) :
    (v.aim e.action).Rests e.pr.labels (v.writes policy e) := by
  cases v with
  | turnAway r =>
    intro hmet
    have hmarks : r.marksInvalid = true := by
      cases r with
      | tooManyOpenPrs others => exact absurd rfl (hcap others)
      | _ => rfl
    rw [aim, if_pos hmarks, Aim.met_only] at hmet
    cases (isSettled_of_turnAway h).symm.trans ((LabelSet.isTerminal_eq _).trans hmet)
  | analyzed report =>
    exact (rests_reportEffects report).and (rests_defaultEffects report.requirements)
      (apart_plan_default _ _ _)
  | _ => exact Aim.rests_nil _ _

end Gate

namespace Upkeep

/-- A label that is not there is not taken off. -/
theorem rests_removeIfThere (pr : Snapshot) (l : Label) :
    (Aim.only l false).Rests pr.labels (removeIfThere pr l) := by
  intro hmet
  exact if_neg (Bool.eq_false_iff.1 (Aim.met_only.1 hmet))

/-- Nothing follows from checks where the label about them is as it should be. -/
theorem rests_failingChecks (pr : Snapshot) (runs : List CheckRun) :
    (checksAim runs).Rests pr.labels (failingChecks pr runs) := by
  intro hmet
  unfold failingChecks
  refine if_neg fun hcond => ?_
  simp only [Bool.and_eq_true, Bool.not_eq_true'] at hcond
  rw [checksAim, if_pos hcond.1, Aim.met_only] at hmet
  cases hmet.symm.trans hcond.2

/-- Nothing follows from a label put on by hand where the aim is met. -/
theorem rests_manualLabel (e : PullRequestEvent) :
    (manualLabelAim e).Rests e.pr.labels (manualLabel e) := by
  unfold manualLabelAim manualLabel
  by_cases hsettled : e.pr.isSettled = true
  · simp only [hsettled, if_true]
    exact Aim.rests_nil _ _
  simp only [hsettled, Bool.false_eq_true, if_false]
  rcases e.label.bind Label.ofName? with _ | l
  · exact Aim.rests_nil _ _
  cases e.action
  case labeled =>
    dsimp only
    split
    · exact rests_removeIfThere _ _
    · exact Aim.rests_nil _ _
  -- the label is added unless it is there, and it is there once the aim is met
  case unlabeled =>
    intro hmet
    dsimp only at hmet ⊢
    refine if_neg fun hcond => ?_
    rw [Bool.and_eq_true, Bool.not_eq_true'] at hcond
    rw [if_pos hcond.1, Aim.met_only] at hmet
    cases hmet.symm.trans hcond.2
  all_goals exact Aim.rests_nil _ _

/-- Nothing follows from a review where the aim is met. -/
theorem rests_review (e : ReviewEvent) : (reviewAim e).Rests e.pr.labels (review e) := by
  unfold reviewAim review
  dsimp only
  by_cases hcond : e.action = .submitted ∧ ¬ e.pr.isSettled ∧ e.review.association.isPrivileged
  · rw [if_pos hcond, if_pos hcond]
    cases e.review.state
    case changesRequested =>
      dsimp only
      by_cases hhas : e.pr.labels.has .changesRequested = true
      · rw [if_pos hhas, if_pos hhas]
        exact Aim.rests_nil _ _
      -- the aim cannot be met, since `changes requested` is not there yet
      · rw [if_neg hhas]
        intro hmet
        have hapart := Aim.apart_only (l := .changesRequested) (k := .awaitingReview) (by decide)
        exact absurd (Aim.met_only.1 ((Aim.met_and (hapart _ _)).1 hmet).1) hhas
    case approved =>
      exact (rests_removeIfThere _ _).and (rests_removeIfThere _ _) (Aim.apart_only (by decide) _ _)
    all_goals exact Aim.rests_nil _ _
  · rw [if_neg hcond, if_neg hcond]
    exact Aim.rests_nil _ _

end Upkeep

/-- No handler asks for anything where its aim is met, unless the author has too many pull requests. -/
theorem Handler.rests {h : Handler} {a : Aim} {ws : List Effect}
    (hcap : ¬ IsOverCap analyzer policy replies event)
    (haim : h.aim analyzer policy replies event = .ok a)
    (hasked : h.asked analyzer policy replies event = .ok ws) : a.Rests event.pr.labels ws := by
  cases h <;> cases event
  case gateKeeper.pullRequest e =>
    simp only [aim, asked, turn, Program.value_bind] at haim hasked
    rcases hvalue : (Gate.judge analyzer policy e).value replies with failure | v <;>
      rw [hvalue] at haim hasked <;> cases haim
    cases hasked
    -- of all verdicts only this one writes again what it wrote before
    refine Gate.Verdict.rests hvalue fun others hv => hcap ⟨e, others, rfl, ?_⟩
    rw [Gate.value_run_eq_rejected, hvalue, hv]
  case failingChecks.pullRequest e =>
    simp only [aim, asked, turn] at haim hasked
    split at haim
    · rename_i hsettled
      rw [if_pos hsettled] at hasked
      cases hasked
      exact Aim.rests_nil _ _
    · rename_i hsettled
      rw [if_neg hsettled, Program.value_bind] at hasked
      rcases hvalue : (Program.checkRuns e.pr.head).value replies with failure | runs <;>
        rw [hvalue] at haim hasked <;> cases haim
      cases hasked
      exact Upkeep.rests_failingChecks e.pr runs
  case manualLabel.pullRequest e =>
    cases haim
    cases hasked
    exact Upkeep.rests_manualLabel e
  case reviewState.review e =>
    cases haim
    cases hasked
    exact Upkeep.rests_review e
  all_goals
    cases hasked
    exact Aim.rests_nil _ _

theorem rests_wantedBy (hcap : ¬ IsOverCap analyzer policy replies event) {hs : List Handler}
    (hapart : hs.Pairwise Handler.Apart) :
    (aimBy analyzer policy replies event hs).Rests event.pr.labels
      (wantedBy analyzer policy replies event hs) := by
  induction hs with
  | nil => exact Aim.rests_nil _ _
  | cons h hs ih =>
    obtain ⟨hfirst, hrest⟩ := List.pairwise_cons.1 hapart
    rw [aimBy, wantedBy]
    rcases h.asked_cases event with ⟨a, ws, haim, hasked, -⟩ | ⟨e, haim, hasked⟩
    · rw [haim, hasked]
      exact (Handler.rests hcap haim hasked).and (ih hrest) (apart_aimBy hfirst haim)
    · rw [haim, hasked]
      exact Aim.rests_nil _ _

/-- Nothing is wanted of the handlers of an event once they have what they are after. -/
theorem rests_wanted (hcap : ¬ IsOverCap analyzer policy replies event) :
    (aimOf analyzer policy replies event).Rests event.pr.labels
      (wanted analyzer policy replies event) :=
  rests_wantedBy hcap event.pairwise_apart_handlers

/-! ## Reviews on other labels -/

/-- The review with other labels on its pull request. -/
def ReviewEvent.withLabels (labels : LabelSet) (e : ReviewEvent) : ReviewEvent :=
  { e with pr := { e.pr with labels } }

theorem Event.withLabels_review (labels : LabelSet) (e : ReviewEvent) :
    (Event.review e).withLabels labels = .review (e.withLabels labels) := rfl

/-- The aim of a review's event is that of the review. -/
theorem aimOf_review (e : ReviewEvent) :
    aimOf analyzer policy replies (.review e) = Upkeep.reviewAim e := by
  rcases haction : e.action with _ | _ | _
  case submitted =>
    simp only [aimOf, Event.handlers, ReviewAction.handlers, haction, aimBy, Handler.aim,
      Aim.and_nothing]
  all_goals
    simp only [aimOf, Event.handlers, ReviewAction.handlers, haction, aimBy, Upkeep.reviewAim,
      reduceCtorEq, false_and, if_false]

namespace Upkeep

variable {e : ReviewEvent} {start now : LabelSet}

/-- A review wants nothing of the mark that turns away for good. -/
theorem wants_reviewAim_invalid (e : ReviewEvent) : (reviewAim e).wants .invalid = none := by
  unfold reviewAim
  split
  · split
    · split <;> rfl
    all_goals rfl
  · rfl

/-- If changes were requested before, a request for changes is after nothing. -/
theorem reviewAim_of_changesRequested (hstate : e.review.state = .changesRequested)
    (hhas : now.has .changesRequested = true) : reviewAim (e.withLabels now) = .nothing := by
  have hpr : (e.withLabels now).pr.labels.has .changesRequested = true := hhas
  have hreview : (e.withLabels now).review.state = .changesRequested := hstate
  simp only [reviewAim, hreview, hpr, if_true, ite_self]

/-- Otherwise it does not hang on the labels what a review is after, but for the mark. -/
theorem reviewAim_withLabels (hinvalid : now.has .invalid = start.has .invalid)
    (hchanges : e.review.state = .changesRequested →
      now.has .changesRequested = start.has .changesRequested) :
    reviewAim (e.withLabels now) = reviewAim (e.withLabels start) := by
  have hsettled : (e.withLabels now).pr.isSettled = (e.withLabels start).pr.isSettled := by
    simp only [ReviewEvent.withLabels, Snapshot.isSettled, LabelSet.isTerminal_eq, hinvalid]
  have hreview (labels : LabelSet) : (e.withLabels labels).review = e.review := rfl
  have hlabels (labels : LabelSet) : (e.withLabels labels).pr.labels = labels := rfl
  simp only [reviewAim, hsettled, hreview, hlabels]
  cases hstate : e.review.state
  case changesRequested =>
    rw [hchanges hstate]
    rfl
  all_goals rfl

/-- What is left by a review is what the same review is after. -/
theorem met_reviewAim_again {left : LabelSet}
    (hleft : left = (reviewAim (e.withLabels start)).reached start) :
    (reviewAim (e.withLabels left)).Met left := by
  by_cases hnothing : e.review.state = .changesRequested ∧ left.has .changesRequested = true
  · rw [reviewAim_of_changesRequested hnothing.1 hnothing.2]
    exact Aim.met_nothing left
  · have hinvalid : left.has .invalid = start.has .invalid := by
      rw [hleft, Aim.has_reached, wants_reviewAim_invalid]
      rfl
    have hsame : reviewAim (e.withLabels left) = reviewAim (e.withLabels start) := by
      refine reviewAim_withLabels hinvalid fun hstate => ?_
      -- changes were not requested before, or the label would still be there
      have hgone := Bool.eq_false_iff.2 fun h => hnothing ⟨hstate, h⟩
      refine hgone.trans (Eq.symm (Bool.eq_false_iff.2 fun hhas => ?_))
      rw [reviewAim_of_changesRequested hstate hhas, Aim.reached_of_met (Aim.met_nothing start)] at hleft
      exact hnothing ⟨hstate, hleft ▸ hhas⟩
    rw [hsame, hleft]
    exact Aim.met_reached _ _

end Upkeep

/-! ## A pull request turned away for its author's other ones -/

section

variable {e : PullRequestEvent} {start now : LabelSet}

/-- Too many are open where the gate turns the pull request away for it. -/
theorem isOverCap_pullRequest : IsOverCap analyzer policy replies (.pullRequest e) ↔
    ∃ others, (Gate.judge analyzer policy e).value replies =
      .ok (.turnAway (.tooManyOpenPrs others)) := by
  constructor
  · rintro ⟨_, others, heq, hrun⟩
    cases heq
    exact ⟨others, Gate.value_run_eq_rejected.1 hrun⟩
  · rintro ⟨others, hjudge⟩
    exact ⟨e, others, rfl, Gate.value_run_eq_rejected.2 hjudge⟩

/-- Such is the verdict if the description is as it should be, and too many others are found. -/
theorem Gate.value_judge_of_overCap {search : OpenSearch} {r : Gate.Rejection}
    (hsettled : e.pr.isSettled = false) (hasks : asksAuthor e = true)
    (hshape : checkShape policy e.pr = none) (hmax : policy.maxOpenPullRequests ≠ 0)
    (hsearch : replies (.searchOpenPrs e.pr.author) = .openPrs search)
    (hfound : checkOpenPrs policy e.pr search = some r) :
    (judge analyzer policy e).value replies = .ok (.turnAway r) := by
  simp only [judge, hsettled, hasks, hshape, judgeCap, Bool.false_eq_true, if_true, if_false]
  rw [if_pos ⟨trivial, hmax⟩, Program.value_bind]
  simp only [Program.openPrs, Program.value, hsearch, hfound]

/-- Reviews are not about how many are open. -/
theorem not_isOverCap_review (e : ReviewEvent) :
    ¬ IsOverCap analyzer policy replies (.review e) := by
  rintro ⟨_, _, heq, -⟩
  cases heq

/-- No label changes. -/
theorem IsOverCap.aimOf_eq (h : IsOverCap analyzer policy replies event) :
    aimOf analyzer policy replies event = .nothing := by
  cases event with
  | review e => exact absurd h (not_isOverCap_review e)
  | pullRequest e =>
    obtain ⟨others, hjudge⟩ := isOverCap_pullRequest.1 h
    rw [aimOf_of_turnAway hjudge]
    rfl

/-- Part of the way to what its handlers are after, a pull request is turned away for its author's
other ones only if it was so at first. -/
theorem IsOverCap.of_partWay
    (hpart : (aimOf analyzer policy replies (event.withLabels start)).PartWay start now)
    (h : IsOverCap analyzer policy replies (event.withLabels now)) :
    IsOverCap analyzer policy replies (event.withLabels start) := by
  cases event with
  | review e => exact absurd h (not_isOverCap_review _)
  | pullRequest e =>
    rw [Event.withLabels_pullRequest, isOverCap_pullRequest] at h ⊢
    obtain ⟨others, hjudge⟩ := h
    have hnow : now.has .invalid = false :=
      (e.isSettled_withLabels now).symm.trans (Gate.isSettled_of_turnAway hjudge)
    rw [Gate.judge_withLabels e hnow (has_invalid_of_partWay hpart hnow)] at hjudge
    exact ⟨others, hjudge⟩

end

/-! ## Twice the same event -/

/-- What an event leaves is what its handlers are after when it is delivered again. -/
theorem met_aimOf_again {start left : LabelSet}
    (hleft : left = (aimOf analyzer policy replies (event.withLabels start)).reached start)
    (hpart : (aimOf analyzer policy replies (event.withLabels start)).PartWay start left) :
    (aimOf analyzer policy replies (event.withLabels left)).Met left := by
  cases event with
  | review e =>
    rw [Event.withLabels_review, aimOf_review] at hleft ⊢
    exact Upkeep.met_reviewAim_again hleft
  | pullRequest e =>
    rcases hmarked : left.has .invalid with _ | _
    · have hstart := has_invalid_of_partWay hpart hmarked
      rw [Event.withLabels_pullRequest, aimOf_withLabels hstart hmarked hpart, hleft]
      exact Aim.met_reached _ _
    · rw [aimOf_of_settled ((Event.isSettled_withLabels _ left).trans hmarked)]
      exact Aim.met_nothing left

/-- **Handled once and for all.** If an event is handled and no call fails, then to handle it again
writes nothing and leaves the labels as they are. Only a pull request that was turned away because of
its author's other ones is turned away once more, by the very same writes. -/
theorem handled_again (first second : Attempt analyzer policy replies event) (labels : LabelSet)
    (hfirst : first.Unbroken labels) :
    let left := first.delivery.after labels
    second.delivery.after left = left ∧
      (¬ IsOverCap analyzer policy replies (event.withLabels labels) →
        Effect.writes (second.delivery.trace left).effects = []) ∧
      (IsOverCap analyzer policy replies (event.withLabels labels) → second.Unbroken left →
        Effect.writes (second.delivery.trace left).effects =
          Effect.writes (first.delivery.trace labels).effects) := by
  intro left
  have hpart := first.partWay labels
  have hmet : (aimOf analyzer policy replies (event.withLabels left)).Met left :=
    met_aimOf_again (Attempt.after_eq hfirst) hpart
  refine ⟨(second.partWay left).eq_of_met hmet, ?_, ?_⟩
  · intro hcap
    have hrests : (aimOf analyzer policy replies (event.withLabels left)).Rests _ _ :=
      rests_wanted fun h => hcap (h.of_partWay hpart)
    rw [Event.labels_withLabels] at hrests
    have hstart := (second.writes_trace left).1
    rw [hrests hmet] at hstart
    exact List.prefix_nil.1 hstart
  · intro hcap hsecond
    have hsame : left = labels := by
      rw [hcap.aimOf_eq] at hpart
      exact hpart.eq_of_met (Aim.met_nothing labels)
    rw [(second.writes_trace left).2 hsecond, (first.writes_trace labels).2 hfirst, hsame]

/-- Someone new opens a pull request, and asks for a review. -/
def PullRequestEvent.byNewcomer (body : String) : PullRequestEvent :=
  let e := byOwner .opened none ∅
  { e with
    pr := { e.pr with body, author := "newcomer", association := .firstTimer, reviewers := ["octo"] } }

/-- An owner's new pull request awaits review once. A newcomer's is turned away twice if there is
another one. -/
theorem handled_again_new :
    let replies : Effect → Response
      | .searchOpenPrs _ => .openPrs ⟨1, [⟨2⟩]⟩
      | e => Host.plainReply [] e
    let owners := Attempt.whole (fun _ => .ok []) .standard replies
      (.pullRequest (.byOwner .opened none ∅))
    let newcomers := Attempt.whole (fun _ => .ok []) .standard replies
      (.pullRequest (.byNewcomer "[x]"))
    (Effect.writes (owners.delivery.trace ∅).effects = [.addLabels ⟨1⟩ [.awaitingReview]] ∧
        Effect.writes (owners.delivery.trace (owners.delivery.after ∅)).effects = []) ∧
      ((Effect.writes (newcomers.delivery.trace ∅).effects).map (·.operation) =
          ["post_comment", "close_pr", "unassign_reviewers"] ∧
        Effect.writes (newcomers.delivery.trace (newcomers.delivery.after ∅)).effects =
          Effect.writes (newcomers.delivery.trace ∅).effects) := by
  intro replies owners newcomers
  have hplain := handled_again owners owners ∅ Attempt.unbroken_whole
  have hover := handled_again newcomers newcomers ∅ Attempt.unbroken_whole
  refine ⟨⟨by decide, hplain.2.1 ?_⟩, ⟨by decide +kernel, hover.2.2 ?_ Attempt.unbroken_whole⟩⟩
  · rintro ⟨_, _, heq, hrun⟩
    cases heq
    cases hrun
  · refine isOverCap_pullRequest.2 ⟨[⟨2⟩], ?_⟩
    exact Gate.value_judge_of_overCap rfl rfl (by decide) (by decide) rfl (by decide +kernel)

end PullGate
