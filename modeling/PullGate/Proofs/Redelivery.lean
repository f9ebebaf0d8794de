import PullGate.Proofs.AwaitingReview
import PullGate.Proofs.Pursuit
/-!
# Attempts at a pull request's event

The handling of a pull request's event may fail any number of times and anywhere. Each attempt starts
from the labels that those before it have left, and these lie part of the way to what the handlers
were after at first. From there the handlers are after the same (`aimOf_withLabels`), unless the pull
request was turned away meanwhile, and then nothing is left to do. So an attempt that does not fail
comes to the labels of an uninterrupted delivery.
-/

namespace PullGate

open PullGate.Compliance (Analyzer Report)

variable {analyzer : Analyzer} {policy : Policy} {replies : Effect → Response}

/-! ## Other labels on the same pull request -/

/-- The event with other labels on its pull request. -/
def PullRequestEvent.withLabels (labels : LabelSet) (e : PullRequestEvent) : PullRequestEvent :=
  { e with pr := { e.pr with labels } }

theorem Event.withLabels_pullRequest (labels : LabelSet) (e : PullRequestEvent) :
    (Event.pullRequest e).withLabels labels = .pullRequest (e.withLabels labels) := rfl

/-- A pull request with other labels is settled if `invalid` is among them. -/
theorem PullRequestEvent.isSettled_withLabels (e : PullRequestEvent) (labels : LabelSet) :
    (e.withLabels labels).pr.isSettled = labels.has .invalid :=
  LabelSet.isTerminal_eq labels

theorem Event.isSettled_withLabels (event : Event) (labels : LabelSet) :
    (event.withLabels labels).pr.isSettled = labels.has .invalid := by
  rw [Snapshot.isSettled, labels_withLabels, LabelSet.isTerminal_eq]

namespace Gate

variable (e : PullRequestEvent) (labels : LabelSet)

/-- Files are analysed alike whatever the labels are. -/
theorem analyzeFiles_withLabels (files : List FileChange) (report : Report) :
    analyzeFiles analyzer (e.withLabels labels) files report =
      analyzeFiles analyzer e files report := by
  induction files generalizing report with
  | nil => rfl
  | cons f files ih =>
    simp only [analyzeFiles, ih]
    rfl

/-- On the files it is judged alike whatever the labels are. -/
theorem judgeFiles_withLabels :
    judgeFiles analyzer policy (e.withLabels labels) = judgeFiles analyzer policy e := by
  simp only [judgeFiles, analyzeFiles_withLabels]
  rfl

theorem judgeDraft_withLabels :
    judgeDraft analyzer policy (e.withLabels labels) = judgeDraft analyzer policy e := by
  simp only [judgeDraft, judgeFiles_withLabels]
  rfl

theorem judgeCap_withLabels :
    judgeCap analyzer policy (e.withLabels labels) = judgeCap analyzer policy e := by
  simp only [judgeCap, judgeDraft_withLabels]
  rfl

variable {labels}

/-- Of a pull request that was not turned away the gate judges without a look at its labels. -/
theorem judge_withLabels {others : LabelSet} (h : labels.has .invalid = false)
    (h' : others.has .invalid = false) :
    judge analyzer policy (e.withLabels labels) = judge analyzer policy (e.withLabels others) := by
  simp only [judge, e.isSettled_withLabels, h, h', judgeCap_withLabels]
  rfl

end Gate

/-! ## Aims on other labels -/

/-- Sets with the same blocking labels block alike. -/
theorem LabelSet.blocksReview_congr {a b : LabelSet}
    (h : ∀ l, l.blocksReview = true → a.has l = b.has l) : a.blocksReview = b.blocksReview := by
  rw [Bool.eq_iff_iff, blocksReview_iff, blocksReview_iff]
  constructor
  · rintro ⟨l, hl, hblocks⟩
    exact ⟨l, (h l hblocks).symm.trans hl, hblocks⟩
  · rintro ⟨l, hl, hblocks⟩
    exact ⟨l, (h l hblocks).trans hl, hblocks⟩

/-- Handlers that each want the same of two events want it together. -/
theorem aimBy_congr {event event' : Event} {hs : List Handler}
    (h : ∀ k ∈ hs, k.aim analyzer policy replies event = k.aim analyzer policy replies event') :
    aimBy analyzer policy replies event hs = aimBy analyzer policy replies event' hs := by
  induction hs with
  | nil => rfl
  | cons k hs ih =>
    rw [aimBy, aimBy, h k List.mem_cons_self, ih fun j hj => h j (List.mem_cons_of_mem k hj)]

variable {e : PullRequestEvent} {start now : LabelSet}

/-- A handler is after the same as long as the pull request was not turned away, and the same labels
keep it from review. -/
theorem Handler.aim_withLabels (h : Handler) (hstart : start.has .invalid = false)
    (hnow : now.has .invalid = false)
    (hblocks : h = .manualLabel → now.blocksReview = start.blocksReview) :
    h.aim analyzer policy replies (.pullRequest (e.withLabels now)) =
      h.aim analyzer policy replies (.pullRequest (e.withLabels start)) := by
  cases h with
  | gateKeeper =>
    simp only [aim, Gate.judge_withLabels e hnow hstart]
    rfl
  | failingChecks =>
    simp only [aim, e.isSettled_withLabels, hstart, hnow]
    rfl
  | manualLabel =>
    have hsame : (e.withLabels now).pr.labels.blocksReview =
        (e.withLabels start).pr.labels.blocksReview := hblocks rfl
    simp only [aim, Upkeep.manualLabelAim, e.isSettled_withLabels, hstart, hnow, hsame]
    rfl
  | reviewState => rfl

/-- Part of the way to what the handlers are after, they are after the same, unless the pull request
was turned away. -/
theorem aimOf_withLabels (hstart : start.has .invalid = false) (hnow : now.has .invalid = false)
    (hpart : (aimOf analyzer policy replies (.pullRequest (e.withLabels start))).PartWay start now) :
    aimOf analyzer policy replies (.pullRequest (e.withLabels now)) =
      aimOf analyzer policy replies (.pullRequest (e.withLabels start)) := by
  refine aimBy_congr fun h hh => h.aim_withLabels hstart hnow ?_
  rintro rfl
  have hone : e.action.handlers = [.manualLabel] := Action.handlers_eq_of_mem hh
  refine LabelSet.blocksReview_congr fun l hl => hpart.has_eq ?_
  -- the label is not `awaiting review`, which is all that this handler touches
  refine wants_aimBy_eq_none fun k hk => ?_
  rw [Event.handlers, PullRequestEvent.withLabels, hone] at hk
  obtain rfl := List.mem_singleton.1 hk
  cases l <;> first | rfl | cases hl

/-! ## Pull requests that were turned away meanwhile -/

/-- Of a settled pull request no handler wants anything. -/
theorem Handler.aim_of_settled {event : Event} (hsettled : event.pr.isSettled = true)
    (h : Handler) : h.aim analyzer policy replies event = .ok .nothing := by
  cases h <;> cases event
  case gateKeeper.pullRequest e =>
    have hpr : e.pr.isSettled = true := hsettled
    simp only [aim, Gate.judge, hpr, if_true]
    rfl
  case failingChecks.pullRequest e => exact if_pos hsettled
  case manualLabel.pullRequest e =>
    have hpr : e.pr.isSettled = true := hsettled
    simp only [aim, Upkeep.manualLabelAim, hpr, if_true]
  case reviewState.review e =>
    have hpr : e.pr.isSettled = true := hsettled
    simp [aim, Upkeep.reviewAim, hpr]
  all_goals rfl

/-- Of a settled pull request nothing is wanted. -/
theorem aimOf_of_settled {event : Event} (hsettled : event.pr.isSettled = true) :
    aimOf analyzer policy replies event = .nothing := by
  unfold aimOf
  induction event.handlers with
  | nil => rfl
  | cons h hs ih =>
    simp only [aimBy, Handler.aim_of_settled hsettled, ih]
    rfl

/-- From a pull request that was turned away there is no way to go. -/
theorem eq_of_partWay_of_invalid {event : Event} (hstart : start.has .invalid = true)
    (hpart : (aimOf analyzer policy replies (event.withLabels start)).PartWay start now) :
    now = start := by
  rw [aimOf_of_settled ((event.isSettled_withLabels start).trans hstart)] at hpart
  exact hpart.eq_of_met (Aim.met_nothing start)

/-- One that was not turned away part of the way was not turned away before. -/
theorem has_invalid_of_partWay {event : Event}
    (hpart : (aimOf analyzer policy replies (event.withLabels start)).PartWay start now)
    (hnow : now.has .invalid = false) : start.has .invalid = false := by
  refine Bool.eq_false_iff.2 fun hstart => ?_
  rw [eq_of_partWay_of_invalid hstart hpart, hstart] at hnow
  cases hnow

/-- For a settled pull request nothing is done. -/
theorem wanted_of_settled {event : Event} (hsettled : event.pr.isSettled = true) :
    wanted analyzer policy replies event = [] := by
  unfold wanted
  induction event.handlers with
  | nil => rfl
  | cons h hs ih =>
    simp only [wantedBy, Handler.asked, Handler.turn_of_settled hsettled, Program.value, ih]
    rfl

/-- Nothing is turned away twice. -/
theorem Gate.isSettled_of_turnAway {r : Gate.Rejection}
    (h : (Gate.judge analyzer policy e).value replies = .ok (.turnAway r)) :
    e.pr.isSettled = false := by
  refine Bool.eq_false_iff.2 fun hsettled => ?_
  rw [judge, if_pos hsettled] at h
  cases h

/-- Only new commits are turned away. -/
theorem Gate.action_of_turnAway {r : Gate.Rejection}
    (h : (Gate.judge analyzer policy e).value replies = .ok (.turnAway r)) :
    e.action = .opened ∨ e.action = .synchronize := by
  obtain ⟨xs, hplays⟩ := Program.plays_value replies (Gate.judge analyzer policy e)
  rw [h] at hplays
  rcases Gate.judged_of_plays hplays with ⟨-, hsettled, -⟩ | ⟨-, hjudged⟩
  · cases hsettled
  cases hjudged with
  | turnAway hfault =>
    obtain ⟨c, hc⟩ := hfault.exists_applies
    cases c <;> simp only [Gate.Check.applies, Gate.asksAuthor, Bool.and_eq_true,
      Bool.or_eq_true, decide_eq_true_eq] at hc
    · exact .inl hc.1
    · exact .inl hc.1.1
    · exact hc.1

/-- The gate alone takes care of new commits. -/
theorem handlers_of_turnAway {r : Gate.Rejection}
    (h : (Gate.judge analyzer policy e).value replies = .ok (.turnAway r)) :
    (Event.pullRequest e).handlers = [.gateKeeper] := by
  rcases Gate.action_of_turnAway h with haction | haction <;>
    simp only [Event.handlers, Action.handlers, haction]

/-- If a pull request is turned away, the mark is wanted, or nothing. -/
theorem aimOf_of_turnAway {r : Gate.Rejection}
    (h : (Gate.judge analyzer policy e).value replies = .ok (.turnAway r)) :
    aimOf analyzer policy replies (.pullRequest e) =
      if r.marksInvalid then .only .invalid true else .nothing := by
  rw [aimOf, handlers_of_turnAway h, aimBy, Handler.aim, h]
  exact Aim.and_nothing _

/-- If a pull request is turned away, the turning away is done. -/
theorem wanted_of_turnAway {r : Gate.Rejection}
    (h : (Gate.judge analyzer policy e).value replies = .ok (.turnAway r)) :
    wanted analyzer policy replies (.pullRequest e) = r.effects policy e.pr := by
  rw [wanted, handlers_of_turnAway h, wantedBy, Handler.asked, Handler.turn, Program.value_bind, h]
  simp only [Program.value, Gate.Verdict.writes, wantedBy, List.append_nil]

/-- Of all handlers the gate alone is after the mark, and only when it turns a pull request away. -/
theorem turnAway_of_wants_invalid {b : Bool}
    (h : (aimOf analyzer policy replies (.pullRequest e)).wants .invalid = some b) :
    ∃ r, (Gate.judge analyzer policy e).value replies = .ok (.turnAway r) := by
  obtain ⟨k, -, a, haim, hwants⟩ := exists_aim_of_wants_aimBy h
  cases k with
  | gateKeeper =>
    simp only [Handler.aim] at haim
    rcases hvalue : (Gate.judge analyzer policy e).value replies with failure | v <;>
      rw [hvalue] at haim <;> cases haim
    cases v with
    | turnAway r => exact ⟨r, rfl⟩
    | analyzed report =>
      have hnone : ((Gate.Verdict.analyzed report).aim e.action).wants .invalid = none := by
        rw [Gate.Verdict.aim, Aim.wants_and, Gate.wants_defaultAim (by decide)]
        rfl
      cases hnone.symm.trans hwants
    | _ => cases hwants
  | _ => cases (Handler.wants_eq_none haim (by decide)).symm.trans hwants

/-! ## Attempts -/

/-- Whatever labels an attempt that failed has left, the writes of the next one pursue what the
handlers were after at first. -/
theorem pursues_of_partWay
    (hpart : (aimOf analyzer policy replies (.pullRequest (e.withLabels start))).PartWay start now) :
    (aimOf analyzer policy replies (.pullRequest (e.withLabels start))).Pursues now
      (wanted analyzer policy replies (.pullRequest (e.withLabels now))) := by
  rcases hstart : start.has .invalid with _ | _
  · rcases hnow : now.has .invalid with _ | _
    · rw [← aimOf_withLabels hstart hnow hpart]
      exact pursues_wanted (.pullRequest (e.withLabels now))
    · -- the mark is new, so it was all that the handlers were after, and nothing is left to do
      have hsettled : (Event.pullRequest (e.withLabels now)).pr.isSettled = true :=
        (e.isSettled_withLabels now).trans hnow
      rw [wanted_of_settled hsettled]
      refine Aim.pursues_of_met ?_
      rcases hpart .invalid with hsame | hwanted
      · cases hstart.symm.trans (hsame.symm.trans hnow)
      · obtain ⟨r, hr⟩ := turnAway_of_wants_invalid hwanted
        rw [aimOf_of_turnAway hr]
        split
        · exact Aim.met_only.2 hnow
        · exact Aim.met_nothing now
  · rw [← Event.withLabels_pullRequest] at hpart
    rw [eq_of_partWay_of_invalid hstart hpart]
    exact pursues_wanted (.pullRequest (e.withLabels start))

/-- An attempt takes the labels part of the way, however it ends. -/
theorem Attempt.partWay_after (t : Attempt analyzer policy replies (.pullRequest e))
    (hpart : (aimOf analyzer policy replies (.pullRequest (e.withLabels start))).PartWay start now) :
    (aimOf analyzer policy replies (.pullRequest (e.withLabels start))).PartWay start
      (t.delivery.after now) :=
  hpart.trans (t.partWay_of_follows now (pursues_of_partWay hpart).follows)

/-- Any number of attempts do. -/
theorem partWay_deliver (attempts : List (Attempt analyzer policy replies (.pullRequest e)))
    (hpart : (aimOf analyzer policy replies (.pullRequest (e.withLabels start))).PartWay start now) :
    (aimOf analyzer policy replies (.pullRequest (e.withLabels start))).PartWay start
      (deliver (attempts.map (·.delivery)) now) := by
  induction attempts generalizing now with
  | nil => exact hpart
  | cons t attempts ih => exact ih (t.partWay_after hpart)

/-- An attempt at which no call fails goes all of the way. -/
theorem Attempt.after_eq_reached {t : Attempt analyzer policy replies (.pullRequest e)}
    (hpart : (aimOf analyzer policy replies (.pullRequest (e.withLabels start))).PartWay start now)
    (h : t.Unbroken now) : t.delivery.after now =
      (aimOf analyzer policy replies (.pullRequest (e.withLabels start))).reached start := by
  rw [← Aim.reached_of_partWay hpart]
  exact after_of_pursues h (pursues_of_partWay hpart)

/-- **Attempts converge.** After any attempts to handle a pull request's event, each broken off
anywhere and each starting from the labels that those before it have left, one attempt at which no
call fails leaves the labels that an uninterrupted delivery would have left in the first place. -/
theorem after_deliver_attempts (attempts : List (Attempt analyzer policy replies (.pullRequest e)))
    (last once : Attempt analyzer policy replies (.pullRequest e)) (labels : LabelSet)
    (hlast : last.Unbroken (deliver (attempts.map (·.delivery)) labels))
    (honce : once.Unbroken labels) :
    last.delivery.after (deliver (attempts.map (·.delivery)) labels) =
      once.delivery.after labels := by
  have hstart := Aim.PartWay.refl
    (aimOf analyzer policy replies (.pullRequest (e.withLabels labels))) labels
  rw [Attempt.after_eq_reached (partWay_deliver attempts hstart) hlast,
    Attempt.after_eq_reached hstart honce]

/-- A pull request became ready while a check fails and two requirements are out of date. At the first
attempt the failing check is marked, but reported as unmarked; at the second the first of the
requirements goes, and the third finds the other one. -/
theorem after_deliver_attempts_ready :
    let replies := Host.plainReply [⟨"completed", some "failure"⟩]
    let event := Event.pullRequest (.byOwner .readyForReview none ∅)
    let start := LabelSet.ofList [.requireTests, .requireAnnotations]
    let first := Attempt.brokenOff (fun _ => .ok []) .standard replies event 1 true
    let second := Attempt.brokenOff (fun _ => .ok []) .standard replies event 3 false
    let last := Attempt.whole (fun _ => .ok []) .standard replies event
    (deliver [first.delivery, second.delivery] start).toList = [.testsFailing, .requireAnnotations] ∧
      (last.delivery.after start).toList = [.testsFailing] ∧
      last.delivery.after (deliver [first.delivery, second.delivery] start) =
        last.delivery.after start :=
  ⟨by decide, by decide, after_deliver_attempts [.brokenOff _ _ _ _ 1 true, .brokenOff _ _ _ _ 3 false]
    _ _ _ Attempt.unbroken_whole Attempt.unbroken_whole⟩

end PullGate
