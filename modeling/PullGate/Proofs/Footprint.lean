import PullGate.Proofs.Gate.Endings
import PullGate.Proofs.Turn
/-!
# Footprints of handlers

Which labels a handler can add and which it can remove, whatever the event, the policy, the analyzer
and the answers. `Handler.mayAdd` and `Handler.mayRemove` are the two tables, and
`Handler.footprint` says that no handler asks for more. No handler can remove the mark of pull
requests that were turned away.
-/

namespace PullGate

open PullGate.Compliance (Analyzer)

namespace Handler

/-- The labels that a handler can add. -/
def mayAdd : Handler → Label → Bool
  | gateKeeper, l => l.isRequirement || l = .invalid || l = .awaitingReview
  | failingChecks, l => l = .testsFailing
  | manualLabel, l => l = .awaitingReview
  | reviewState, l => l = .changesRequested

/-- The labels that a handler can remove. -/
def mayRemove : Handler → Label → Bool
  | gateKeeper, l => l.isRequirement
  | failingChecks, _ => false
  | manualLabel, l => l = .awaitingReview
  | reviewState, l => l = .changesRequested || l = .awaitingReview

/-- No handler takes off the mark that turns away for good. -/
theorem mayRemove_invalid (h : Handler) : h.mayRemove .invalid = false := by
  cases h <;> rfl

end Handler

/-! ## What each handler asks for -/

variable {analyzer : Analyzer} {policy : Policy}

/-- A handler that does not read asks for the writes that it starts with. -/
theorem Handler.Asks.eq_of_turn {h : Handler} {event : Event} {ws vs : List Effect}
    (hasks : h.Asks analyzer policy event ws) (hturn : h.turn analyzer policy event = .done vs) :
    ws = vs := by
  obtain ⟨xs, hplays⟩ := hasks
  rw [hturn] at hplays
  obtain ⟨-, hws⟩ := Program.plays_done_iff.1 hplays
  exact Except.ok.inj hws

/-- The gate asks for the writes of a verdict. -/
theorem Handler.Asks.exists_verdict {e : PullRequestEvent} {ws : List Effect}
    (h : gateKeeper.Asks analyzer policy (.pullRequest e) ws) :
    ∃ ys v, (Gate.judge analyzer policy e).Plays ys (.ok v) ∧ ws = v.writes policy e := by
  obtain ⟨xs, h⟩ := h
  obtain ⟨ys, v, zs, hjudge, hend, -⟩ := Program.Plays.of_bind_ok h
  obtain ⟨-, hws⟩ := Program.plays_done_iff.1 hend
  cases hws
  exact ⟨ys, v, hjudge, rfl⟩

/-- The upkeep of failing checks asks for nothing, or for the label of failing checks. -/
theorem Handler.Asks.eq_of_failingChecks {e : PullRequestEvent} {ws : List Effect}
    (h : failingChecks.Asks analyzer policy (.pullRequest e) ws) :
    ws = [] ∨ ws = [Upkeep.add e.pr .testsFailing] := by
  obtain ⟨xs, h⟩ := h
  simp only [turn] at h
  split at h
  · obtain ⟨-, hws⟩ := Program.plays_done_iff.1 h
    cases hws
    exact .inl rfl
  · obtain ⟨ys, runs, zs, -, hend, -⟩ := Program.Plays.of_bind_ok h
    obtain ⟨-, hws⟩ := Program.plays_done_iff.1 hend
    cases hws
    unfold Upkeep.failingChecks
    split
    · exact .inr rfl
    · exact .inl rfl

/-- For a label changed by hand the effects are determined by the event. -/
theorem Handler.Asks.eq_manualLabel {e : PullRequestEvent} {ws : List Effect}
    (h : manualLabel.Asks analyzer policy (.pullRequest e) ws) : ws = Upkeep.manualLabel e :=
  h.eq_of_turn rfl

theorem Handler.Asks.eq_review {e : ReviewEvent} {ws : List Effect}
    (h : reviewState.Asks analyzer policy (.review e) ws) : ws = Upkeep.review e :=
  h.eq_of_turn rfl

/-! ## Writes of the gate -/

/-- Of what the gate asks for when it turns a pull request away, the mark alone changes labels. -/
theorem Gate.Rejection.footprint {pr : Snapshot} {r : Gate.Rejection} {e : Effect}
    (h : e ∈ r.effects policy pr) (l : Label) :
    (e.Adds l → l = .invalid ∧ r.marksInvalid = true ∧ e = .addLabels pr.number [.invalid]) ∧
      ¬ e.Removes l := by
  rcases Gate.Rejection.mem_effects.1 h with rfl | ⟨hmarks, rfl⟩ | rfl | ⟨-, rfl⟩
  · exact ⟨False.elim, id⟩
  · exact ⟨fun hadds => ⟨List.mem_singleton.1 hadds, hmarks, rfl⟩, id⟩
  · exact ⟨False.elim, id⟩
  · exact ⟨False.elim, id⟩

/-- What a report asks for adds and removes requirements only. -/
theorem Gate.footprint_reportEffects {event : PullRequestEvent} {report : Compliance.Report}
    {e : Effect} (h : e ∈ Gate.reportEffects event report) (l : Label) :
    (e.Adds l → l.isRequirement = true) ∧ (e.Removes l → l.isRequirement = true) := by
  rcases Gate.mem_reportEffects h with ⟨body, rfl⟩ | ⟨ls, rfl, hls⟩ | ⟨k, rfl, hk⟩
  · exact ⟨False.elim, False.elim⟩
  · exact ⟨hls l, False.elim⟩
  · refine ⟨False.elim, ?_⟩
    rintro rfl
    exact hk

/-- The gate adds `awaiting review` last, to new pull requests whose sources ask for nothing. -/
theorem Gate.Verdict.eq_of_adds_awaitingReview {event : PullRequestEvent} {v : Gate.Verdict}
    {e : Effect} (h : e ∈ v.writes policy event) (hadds : e.Adds .awaitingReview) :
    ∃ report : Compliance.Report, v = .analyzed report ∧ event.action = .opened ∧
      report.requirements = ∅ ∧
      v.writes policy event = Gate.reportEffects event report ++
        [.addLabels event.pr.number [.awaitingReview]] := by
  cases v with
  | turnAway r => exact absurd ((Gate.Rejection.footprint h _).1 hadds).1 (by decide)
  | analyzed report =>
    rcases List.mem_append.1 h with h | h
    · exact absurd ((Gate.footprint_reportEffects h _).1 hadds) (by decide)
    · obtain ⟨hopened, hnone, -⟩ := Gate.mem_defaultEffects h
      refine ⟨report, rfl, hopened, hnone, ?_⟩
      unfold Gate.defaultEffects at h
      split at h
      · rename_i hcond
        rw [writes, Gate.defaultEffects, if_pos hcond]
      · cases h
  | _ => cases h

/-- The gate adds requirements, the mark and `awaiting review`, and removes requirements. -/
theorem Gate.Verdict.footprint {event : PullRequestEvent} {v : Gate.Verdict} {e : Effect}
    (h : e ∈ v.writes policy event) (l : Label) :
    (e.Adds l → Handler.gateKeeper.mayAdd l = true) ∧
      (e.Removes l → Handler.gateKeeper.mayRemove l = true) := by
  cases v with
  | turnAway r =>
    obtain ⟨hadd, hremove⟩ := Gate.Rejection.footprint h l
    refine ⟨fun hadds => ?_, fun hremoves => absurd hremoves hremove⟩
    simp [Handler.mayAdd, (hadd hadds).1]
  | analyzed report =>
    rcases List.mem_append.1 h with h | h
    · obtain ⟨hadd, hremove⟩ := Gate.footprint_reportEffects h l
      exact ⟨fun hadds => by simp [Handler.mayAdd, hadd hadds], hremove⟩
    · obtain ⟨-, -, rfl⟩ := Gate.mem_defaultEffects h
      refine ⟨fun hadds => ?_, False.elim⟩
      simp [Handler.mayAdd, List.mem_singleton.1 hadds]
  | _ => cases h

/-! ## Writes of the upkeep -/

theorem Upkeep.adds_add {pr : Snapshot} {k l : Label} : (Upkeep.add pr k).Adds l ↔ l = k :=
  List.mem_singleton

theorem Upkeep.removes_remove {pr : Snapshot} {k l : Label} :
    (Upkeep.remove pr k).Removes l ↔ l = k := eq_comm

/-- If anything is asked for, it is that the label be taken off. -/
theorem Upkeep.mem_removeIfThere {pr : Snapshot} {l : Label} {e : Effect}
    (h : e ∈ Upkeep.removeIfThere pr l) : e = Upkeep.remove pr l := by
  unfold Upkeep.removeIfThere at h
  split at h
  · exact List.mem_singleton.1 h
  · cases h

/-- Nothing follows from a label changed by people, or `awaiting review` goes because of a label
that keeps the pull request from review, or it comes back when a requirement goes and no such label
is left. -/
theorem Upkeep.manualLabel_cases (event : PullRequestEvent) :
    Upkeep.manualLabel event = [] ∨
      (event.action = .labeled ∧
        Upkeep.manualLabel event = [Upkeep.remove event.pr .awaitingReview]) ∨
      (event.action = .unlabeled ∧ event.pr.isSettled = false ∧ event.pr.draft = false ∧
        event.pr.labels.blocksReview = false ∧
        Upkeep.manualLabel event = [Upkeep.add event.pr .awaitingReview]) := by
  rcases hsettled : event.pr.isSettled with _ | _
  · rcases hlabel : event.label.bind Label.ofName? with _ | l
    · exact .inl (by simp only [Upkeep.manualLabel, hlabel, ite_self])
    · cases haction : event.action
      case labeled =>
        simp only [Upkeep.manualLabel, Upkeep.removeIfThere, hsettled, hlabel, haction,
          Bool.false_eq_true, if_false]
        split
        · split
          · exact .inr (.inl ⟨trivial, rfl⟩)
          · exact .inl rfl
        · exact .inl rfl
      case unlabeled =>
        simp only [Upkeep.manualLabel, hsettled, hlabel, haction, Bool.false_eq_true, if_false]
        split
        -- that the label was a requirement is not needed here
        · rename_i hcond
          simp only [Bool.and_eq_true, Bool.not_eq_true'] at hcond
          obtain ⟨⟨⟨-, hdraft⟩, hblocks⟩, -⟩ := hcond
          exact .inr (.inr ⟨trivial, trivial, hdraft, hblocks, rfl⟩)
        · exact .inl rfl
      all_goals exact .inl (by simp only [Upkeep.manualLabel, hlabel, haction, ite_self])
  · exact .inl (by simp only [Upkeep.manualLabel, hsettled, if_true])

/-- What follows from a review adds or removes `changes requested`, or removes `awaiting review`. -/
theorem Upkeep.mem_review {event : ReviewEvent} {e : Effect} (h : e ∈ Upkeep.review event) :
    e = Upkeep.add event.pr .changesRequested ∨ e = Upkeep.remove event.pr .changesRequested ∨
      e = Upkeep.remove event.pr .awaitingReview := by
  simp only [Upkeep.review] at h
  split at h
  · split at h
    · split at h
      · cases h
      · rcases List.mem_cons.1 h with h | h
        · exact .inl h
        · exact .inr (.inr (Upkeep.mem_removeIfThere h))
    · rcases List.mem_append.1 h with h | h
      · exact .inr (.inl (Upkeep.mem_removeIfThere h))
      · exact .inr (.inr (Upkeep.mem_removeIfThere h))
    · cases h
  · cases h

/-! ## Writes only -/

/-- All that the gate asks for after its verdict is a write. -/
theorem Gate.Verdict.isWrite_eq_true {event : PullRequestEvent} (v : Gate.Verdict) :
    ∀ e ∈ v.writes policy event, e.isWrite = true := by
  intro e he
  cases v with
  | turnAway r =>
    rcases Gate.Rejection.mem_effects.1 he with rfl | ⟨-, rfl⟩ | rfl | ⟨-, rfl⟩ <;> rfl
  | analyzed report =>
    rcases List.mem_append.1 he with he | he
    · rcases Gate.mem_reportEffects he with ⟨body, rfl⟩ | ⟨ls, rfl, -⟩ | ⟨l, rfl, -⟩ <;> rfl
    · obtain ⟨-, -, rfl⟩ := Gate.mem_defaultEffects he
      rfl
  | _ => cases he

/-- All that a handler asks for after its turn is a write. -/
theorem Handler.Asks.isWrite_eq_true {h : Handler} {event : Event} {ws : List Effect}
    (hasks : h.Asks analyzer policy event ws) : ∀ e ∈ ws, e.isWrite = true := by
  intro e he
  cases h <;> cases event
  case gateKeeper.pullRequest event =>
    obtain ⟨-, v, -, rfl⟩ := hasks.exists_verdict
    exact v.isWrite_eq_true e he
  case failingChecks.pullRequest event =>
    rcases hasks.eq_of_failingChecks with rfl | rfl
    · cases he
    · obtain rfl := List.mem_singleton.1 he
      rfl
  case manualLabel.pullRequest event =>
    obtain rfl := hasks.eq_manualLabel
    rcases Upkeep.manualLabel_cases event with hws | ⟨-, hws⟩ | ⟨-, -, -, -, hws⟩ <;> rw [hws] at he
    · cases he
    · obtain rfl := List.mem_singleton.1 he
      rfl
    · obtain rfl := List.mem_singleton.1 he
      rfl
  case reviewState.review event =>
    obtain rfl := hasks.eq_review
    rcases Upkeep.mem_review he with rfl | rfl | rfl <;> rfl
  -- what is left are handlers of the other kind of event
  all_goals
    have hnone : ws = [] := hasks.eq_of_turn rfl
    rw [hnone] at he
    cases he

/-! ## All handlers -/

/-- **Footprints.** No handler adds or removes a label that is not in its tables. -/
theorem Handler.footprint {h : Handler} {event : Event} {ws : List Effect}
    (hasks : h.Asks analyzer policy event ws) {e : Effect} (he : e ∈ ws) (l : Label) :
    (e.Adds l → h.mayAdd l = true) ∧ (e.Removes l → h.mayRemove l = true) := by
  cases h <;> cases event
  case gateKeeper.pullRequest =>
    obtain ⟨ys, v, -, rfl⟩ := hasks.exists_verdict
    exact Gate.Verdict.footprint he l
  case failingChecks.pullRequest =>
    rcases hasks.eq_of_failingChecks with rfl | rfl
    · cases he
    · obtain rfl := List.mem_singleton.1 he
      exact ⟨fun hadds => by simp [mayAdd, Upkeep.adds_add.1 hadds], False.elim⟩
  case manualLabel.pullRequest =>
    obtain rfl := hasks.eq_manualLabel
    rcases Upkeep.manualLabel_cases _ with hws | ⟨-, hws⟩ | ⟨-, -, -, -, hws⟩ <;> rw [hws] at he
    · cases he
    · obtain rfl := List.mem_singleton.1 he
      exact ⟨False.elim, fun hremoves => by simp [mayRemove, Upkeep.removes_remove.1 hremoves]⟩
    · obtain rfl := List.mem_singleton.1 he
      exact ⟨fun hadds => by simp [mayAdd, Upkeep.adds_add.1 hadds], False.elim⟩
  case reviewState.review =>
    obtain rfl := hasks.eq_review
    rcases Upkeep.mem_review he with rfl | rfl | rfl
    · exact ⟨fun hadds => by simp [mayAdd, Upkeep.adds_add.1 hadds], False.elim⟩
    · exact ⟨False.elim, fun hremoves => by simp [mayRemove, Upkeep.removes_remove.1 hremoves]⟩
    · exact ⟨False.elim, fun hremoves => by simp [mayRemove, Upkeep.removes_remove.1 hremoves]⟩
  -- what is left are handlers of the other kind of event
  all_goals
    have hnone : ws = [] := hasks.eq_of_turn rfl
    rw [hnone] at he
    cases he

/-- No event makes the mark of pull requests that were turned away go. -/
theorem not_removes_invalid_of_plays {event : Event} {xs : Transcript}
    {res : Except Failure Handling} (hp : (dispatch analyzer policy event).Plays xs res) :
    ∀ e ∈ xs.effects, ¬ e.Removes .invalid := by
  intro e he hremoves
  obtain ⟨h, -, ws, hasks, hmem⟩ := exists_asks_of_mem hp he hremoves.isWrite
  have hmay := (Handler.footprint hasks hmem .invalid).2 hremoves
  rw [h.mayRemove_invalid] at hmay
  cases hmay

end PullGate
