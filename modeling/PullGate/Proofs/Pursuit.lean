import PullGate.Proofs.Aim
import PullGate.Proofs.Attempt
/-!
# What handlers are after

Once it has read what it needs, every handler has an `Aim`, and the writes that follow pursue it on
the labels that the delivery shows (`pursues_wanted`). An aim hardly depends on these labels: of a
pull request that was not turned away it is the same whatever the handler's own writes have done to
them (`aimOf_withLabels`). Reviews are the exception, since a request for changes is passed over if
changes were requested before.
-/

namespace PullGate

open PullGate.Compliance (Analyzer Report)

/-! ## Aims of the gate -/

/-- A plan is after the requirements among the desired labels. -/
def Plan.aim (desired : LabelSet) : Aim :=
  ⟨fun l => if l.isRequirement then some (desired.has l) else none⟩

/-- Labels that are to be added are added together. -/
theorem Plan.addLabels_mem_effects {p : Plan} {l : Label} (h : l ∈ p.toAdd) (pr : PrNumber) :
    .addLabels pr p.toAdd ∈ p.effects pr := by
  have hsome : ¬ p.toAdd.isEmpty = true := fun hempty => by simp [List.isEmpty_iff.1 hempty] at h
  rw [effects, if_neg hsome]
  exact List.mem_append_left _ (List.mem_singleton_self _)

/-- Each label that is to be removed is removed by itself. -/
theorem Plan.removeLabel_mem_effects {p : Plan} {l : Label} (h : l ∈ p.toRemove) (pr : PrNumber) :
    .removeLabel pr l ∈ p.effects pr :=
  List.mem_append_right _ (List.mem_map_of_mem h)

/-- The effects of a plan pursue what is desired. -/
theorem Plan.pursues (desired current : LabelSet) (pr : PrNumber) :
    (aim desired).Pursues current ((between desired current).effects pr) where
  follows := by
    intro e he l
    -- a plan adds all its labels in one write and removes each in its own
    rcases mem_effects he with rfl | ⟨k, hk, rfl⟩
    · refine ⟨fun hadds => ?_, False.elim⟩
      obtain ⟨hreq, hdesired, -⟩ := mem_toAdd.1 hadds
      simp [aim, hreq, hdesired]
    · refine ⟨False.elim, ?_⟩
      rintro rfl
      obtain ⟨hreq, -, hdesired⟩ := mem_toRemove.1 hk
      simp [aim, hreq, hdesired]
  exists_effect := by
    intro l b hl hhas
    by_cases hreq : l.isRequirement = true
    · have hdesired : desired.has l = b := by simpa [aim, hreq] using hl
      rcases b with _ | _
      · have hremove : l ∈ (between desired current).toRemove :=
          mem_toRemove.2 ⟨hreq, by simpa using hhas, hdesired⟩
        exact ⟨_, removeLabel_mem_effects hremove pr, .inr rfl⟩
      · have hadd : l ∈ (between desired current).toAdd :=
          mem_toAdd.2 ⟨hreq, hdesired, by simpa using hhas⟩
        exact ⟨_, addLabels_mem_effects hadd pr, .inl hadd⟩
    · simp [aim, hreq] at hl

/-- A plan for requirements that are there as desired changes nothing. -/
theorem Plan.effects_eq_nil {desired current : LabelSet} (h : (aim desired).Met current)
    (pr : PrNumber) :
    (between desired current).toAdd = [] ∧ (between desired current).effects pr = [] := by
  have hmet (l : Label) (hreq : l.isRequirement = true) : current.has l = desired.has l :=
    h l _ (by simp [aim, hreq])
  have hadd : (between desired current).toAdd = [] := by
    refine List.eq_nil_iff_forall_not_mem.2 fun l hl => ?_
    obtain ⟨hreq, hdesired, hcurrent⟩ := mem_toAdd.1 hl
    exact absurd (hcurrent.symm.trans ((hmet l hreq).trans hdesired)) (by decide)
  have hremove : (between desired current).toRemove = [] := by
    refine List.eq_nil_iff_forall_not_mem.2 fun l hl => ?_
    obtain ⟨hreq, hcurrent, hdesired⟩ := mem_toRemove.1 hl
    exact absurd (hdesired.symm.trans ((hmet l hreq).symm.trans hcurrent)) (by decide)
  refine ⟨hadd, ?_⟩
  rw [effects, hadd, hremove]
  rfl

namespace Gate

/-- New pull requests that nothing is required of should await review. -/
def defaultAim (action : Action) (requirements : LabelSet) : Aim :=
  if action = .opened ∧ requirements.isEmpty then .only .awaitingReview true else .nothing

/-- What the gate is after with a verdict. -/
def Verdict.aim (action : Action) : Verdict → Aim
  | turnAway r => if r.marksInvalid then .only .invalid true else .nothing
  | analyzed report => (Plan.aim report.requirements).and (defaultAim action report.requirements)
  | _ => .nothing

variable {policy : Policy} {event : PullRequestEvent}

/-- What follows from a report pursues its requirements. -/
theorem pursues_reportEffects (report : Report) :
    (Plan.aim report.requirements).Pursues event.pr.labels (reportEffects event report) := by
  have hcomment : Aim.nothing.Pursues event.pr.labels
      (if event.action = .opened ∧ (Plan.between report.requirements event.pr.labels).toAdd ≠ [] then
        [.postComment event.pr.number (Comment.summary event.pr.author report
          (Plan.between report.requirements event.pr.labels).added)]
      else []) := by
    refine ⟨?_, nofun⟩
    intro e he l
    split at he
    · obtain rfl := List.mem_singleton.1 he
      exact ⟨False.elim, False.elim⟩
    · cases he
  exact hcomment.and (Plan.pursues _ _ _) fun _ => .inl rfl

/-- What is done by default pursues the default aim. -/
theorem pursues_defaultEffects (requirements : LabelSet) :
    (defaultAim event.action requirements).Pursues event.pr.labels
      (defaultEffects event requirements) := by
  unfold defaultAim defaultEffects
  by_cases hcond : event.action = .opened ∧ requirements.isEmpty
  · rw [if_pos hcond]
    by_cases hhas : event.pr.labels.has .awaitingReview = true
    · rw [if_neg fun h => h.2.2 hhas]
      exact Aim.pursues_of_met (Aim.met_only.2 hhas)
    · rw [if_pos ⟨hcond.1, hcond.2, hhas⟩]
      exact Aim.pursues_only_true _ _ _
  · rw [if_neg hcond, if_neg fun h => hcond ⟨h.1, h.2.1⟩]
    exact Aim.pursues_nothing _

/-- By default nothing is wanted but that a pull request awaits review. -/
theorem wants_defaultAim {l : Label} (hl : l ≠ .awaitingReview) (action : Action)
    (requirements : LabelSet) : (defaultAim action requirements).wants l = none := by
  unfold defaultAim
  split
  · rw [Aim.wants_only, if_neg hl]
  · rfl

/-- Requirements and the default label are different. -/
theorem apart_plan_default (action : Action) (desired requirements : LabelSet) :
    (Plan.aim desired).Apart (defaultAim action requirements) := by
  intro l
  by_cases hreq : l.isRequirement = true
  · right
    refine wants_defaultAim ?_ action requirements
    rintro rfl
    cases hreq
  · exact .inl (by simp [Plan.aim, hreq])

/-- The writes of a verdict pursue what the gate is after with it. -/
theorem Verdict.pursues (v : Verdict) :
    (v.aim event.action).Pursues event.pr.labels (v.writes policy event) := by
  cases v with
  | turnAway r =>
    refine ⟨?_, ?_⟩
    · intro e he l
      obtain ⟨hadd, hremove⟩ := Rejection.footprint he l
      refine ⟨fun hadds => ?_, fun hremoves => absurd hremoves hremove⟩
      obtain ⟨rfl, hmarks, -⟩ := hadd hadds
      simp [aim, hmarks]
    · intro l b hl _
      simp only [aim] at hl
      split at hl
      · rename_i hmarks
        rw [Aim.wants_only] at hl
        split at hl
        · rename_i hinvalid
          exact ⟨_, Rejection.mem_effects.2 (.inr (.inl ⟨hmarks, rfl⟩)),
            .inl (List.mem_singleton.2 hinvalid)⟩
        · cases hl
      · cases hl
  | analyzed report =>
    -- the plan is after requirements only, and awaiting review is none, so the two do not meet
    exact (pursues_reportEffects report).and (pursues_defaultEffects report.requirements)
      (apart_plan_default _ _ _)
  | _ => exact Aim.pursues_nothing _

end Gate

/-! ## Aims of the upkeep -/

namespace Upkeep

/-- When a check failed, `tests are failing` should be there. -/
def checksAim (runs : List CheckRun) : Aim :=
  if runs.any (·.isFailure) then .only .testsFailing true else .nothing

/-- What follows when someone adds or removes a label is after `awaiting review` alone. -/
def manualLabelAim (event : PullRequestEvent) : Aim :=
  if event.pr.isSettled then .nothing
  else match event.label.bind Label.ofName? with
  | none => .nothing
  | some l =>
    match event.action with
    | .labeled => if l.blocksReview then .only .awaitingReview false else .nothing
    | .unlabeled =>
      if l.isRequirement && !event.pr.draft && !event.pr.labels.blocksReview then
        .only .awaitingReview true
      else .nothing
    | _ => .nothing

/-- What follows from a review by someone privileged. When changes were requested before, a request
for changes is after nothing, also not after `awaiting review`. -/
def reviewAim (event : ReviewEvent) : Aim :=
  if event.action = .submitted ∧ ¬ event.pr.isSettled ∧ event.review.association.isPrivileged then
    match event.review.state with
    | .changesRequested =>
      if event.pr.labels.has .changesRequested then .nothing
      else (Aim.only .changesRequested true).and (.only .awaitingReview false)
    | .approved => (Aim.only .changesRequested false).and (.only .awaitingReview false)
    | _ => .nothing
  else .nothing

/-- What follows from checks pursues what is wanted of them. -/
theorem pursues_failingChecks (pr : Snapshot) (runs : List CheckRun) :
    (checksAim runs).Pursues pr.labels (failingChecks pr runs) := by
  unfold checksAim failingChecks
  by_cases hfailed : runs.any (·.isFailure) = true
  · by_cases hhas : pr.labels.has .testsFailing = true
    · simp only [hfailed, hhas, Bool.not_true, Bool.and_false, if_true, Bool.false_eq_true, if_false]
      exact Aim.pursues_of_met (Aim.met_only.2 hhas)
    · simp only [hfailed, hhas, Bool.not_false, Bool.and_true, if_true]
      exact Aim.pursues_only_true _ _ _
  · simp only [hfailed, Bool.false_and, Bool.false_eq_true, if_false]
    exact Aim.pursues_nothing _

/-- A label that is taken off if it is there is pursued to be gone. -/
theorem pursues_removeIfThere (pr : Snapshot) (l : Label) :
    (Aim.only l false).Pursues pr.labels (removeIfThere pr l) := by
  unfold removeIfThere
  split
  · exact Aim.pursues_only_false _ _ _
  · rename_i hnot
    exact Aim.pursues_of_met (Aim.met_only.2 (Bool.eq_false_iff.2 hnot))

/-- What follows from a label changed by hand pursues what is wanted then. -/
theorem pursues_manualLabel (event : PullRequestEvent) :
    (manualLabelAim event).Pursues event.pr.labels (manualLabel event) := by
  unfold manualLabelAim manualLabel
  by_cases hsettled : event.pr.isSettled = true
  · simp only [hsettled, if_true]
    exact Aim.pursues_nothing _
  simp only [hsettled, Bool.false_eq_true, if_false]
  rcases event.label.bind Label.ofName? with _ | l
  · exact Aim.pursues_nothing _
  cases event.action
  case labeled =>
    dsimp only
    split
    · exact pursues_removeIfThere _ _
    · exact Aim.pursues_nothing _
  case unlabeled =>
    dsimp only
    -- only the removal of a requirement brings it back to review, and only where nothing else
    -- blocks
    by_cases hcond : (l.isRequirement && !event.pr.draft && !event.pr.labels.blocksReview) = true
    · by_cases hhas : event.pr.labels.has .awaitingReview = true
      · simp only [hcond, hhas, Bool.not_true, Bool.and_false, if_true, Bool.false_eq_true, if_false]
        exact Aim.pursues_of_met (Aim.met_only.2 hhas)
      · simp only [hcond, hhas, Bool.not_false, Bool.and_true, if_true]
        exact Aim.pursues_only_true _ _ _
    · simp only [hcond, Bool.false_and, Bool.false_eq_true, if_false]
      exact Aim.pursues_nothing _
  all_goals exact Aim.pursues_nothing _

/-- What follows from a review pursues what is wanted of it. -/
theorem pursues_review (event : ReviewEvent) :
    (reviewAim event).Pursues event.pr.labels (review event) := by
  have hapart (b : Bool) : (Aim.only .changesRequested b).Apart (.only .awaitingReview false) :=
    Aim.apart_only (by decide) _ _
  unfold reviewAim review
  dsimp only
  by_cases hcond : event.action = .submitted ∧ ¬ event.pr.isSettled ∧
      event.review.association.isPrivileged
  · rw [if_pos hcond, if_pos hcond]
    cases event.review.state
    case changesRequested =>
      dsimp only
      split
      · exact Aim.pursues_nothing _
      · exact (Aim.pursues_only_true _ event.pr.number _).and (pursues_removeIfThere _ _) (hapart _)
    case approved =>
      exact (pursues_removeIfThere _ _).and (pursues_removeIfThere _ _) (hapart _)
    all_goals exact Aim.pursues_nothing _
  · rw [if_neg hcond, if_neg hcond]
    exact Aim.pursues_nothing _

end Upkeep

/-! ## Aims of handlers -/

section

variable (analyzer : Analyzer) (policy : Policy) (replies : Effect → Response)

/-- What a handler is after, if it is told so. -/
def Handler.aim : Handler → Event → Except Failure Aim
  | gateKeeper, .pullRequest e => ((Gate.judge analyzer policy e).value replies).map (·.aim e.action)
  | failingChecks, .pullRequest e =>
    if e.pr.isSettled then .ok .nothing
    else ((Program.checkRuns e.pr.head).value replies).map Upkeep.checksAim
  | manualLabel, .pullRequest e => .ok (Upkeep.manualLabelAim e)
  | reviewState, .review e => .ok (Upkeep.reviewAim e)
  | _, _ => .ok .nothing

/-- What handlers in a row are after. -/
def aimBy (event : Event) : List Handler → Aim
  | [] => .nothing
  | h :: hs =>
    match h.aim analyzer policy replies event with
    | .ok a => a.and (aimBy event hs)
    | .error _ => .nothing

/-- What the handlers of an event are after. -/
def aimOf (event : Event) : Aim := aimBy analyzer policy replies event event.handlers

end

variable {analyzer : Analyzer} {policy : Policy} {replies : Effect → Response} {event : Event}

/-- The turn of a handler comes to writes that pursue its aim, or does not come to its end. -/
theorem Handler.asked_cases (h : Handler) (event : Event) :
    (∃ a ws, h.aim analyzer policy replies event = .ok a ∧
      h.asked analyzer policy replies event = .ok ws ∧ a.Pursues event.pr.labels ws) ∨
    ∃ e, h.aim analyzer policy replies event = .error e ∧
      h.asked analyzer policy replies event = .error e := by
  cases h <;> cases event
  case gateKeeper.pullRequest e =>
    simp only [aim, asked, turn, Program.value_bind]
    rcases (Gate.judge analyzer policy e).value replies with failure | v
    · exact .inr ⟨failure, rfl, rfl⟩
    · exact .inl ⟨_, _, rfl, rfl, v.pursues⟩
  case failingChecks.pullRequest e =>
    simp only [aim, asked, turn]
    split
    · exact .inl ⟨_, _, rfl, rfl, Aim.pursues_nothing _⟩
    · rw [Program.value_bind]
      rcases (Program.checkRuns e.pr.head).value replies with failure | runs
      · exact .inr ⟨failure, rfl, rfl⟩
      · exact .inl ⟨_, _, rfl, rfl, Upkeep.pursues_failingChecks e.pr runs⟩
  case manualLabel.pullRequest e => exact .inl ⟨_, _, rfl, rfl, Upkeep.pursues_manualLabel e⟩
  case reviewState.review e => exact .inl ⟨_, _, rfl, rfl, Upkeep.pursues_review e⟩
  all_goals exact .inl ⟨_, _, rfl, rfl, Aim.pursues_nothing _⟩

/-! ### Handlers of one event are after different labels -/

/-- Whether a label is one that a handler adds or removes. -/
def Handler.touches (h : Handler) (l : Label) : Bool := h.mayAdd l || h.mayRemove l

/-- After a label was changed by hand nothing is wanted but about `awaiting review`. -/
theorem Upkeep.wants_manualLabelAim (e : PullRequestEvent) {l : Label} (hl : l ≠ .awaitingReview) :
    (manualLabelAim e).wants l = none := by
  unfold manualLabelAim
  split
  · rfl
  · split
    · rfl
    · split
      · split <;> simp [hl]
      · split <;> simp [hl]
      · rfl

/-- Of checks nothing is wanted but about `tests are failing`. -/
theorem Upkeep.wants_checksAim (runs : List CheckRun) {l : Label}
    (hl : l ≠ .testsFailing) : (checksAim runs).wants l = none := by
  unfold checksAim
  split <;> simp [hl]

/-- Of a review nothing is wanted but about the two labels of reviews. -/
theorem Upkeep.wants_reviewAim (e : ReviewEvent) {l : Label} (hchanges : l ≠ .changesRequested)
    (hawaits : l ≠ .awaitingReview) : (reviewAim e).wants l = none := by
  unfold reviewAim
  split
  · split
    · split <;> simp [hchanges, hawaits]
    · simp [hchanges, hawaits]
    · rfl
  · rfl

/-- A verdict wants nothing of labels that the gate does not touch. -/
theorem Gate.Verdict.wants_aim (v : Gate.Verdict) (action : Action) {l : Label}
    (hl : Handler.gateKeeper.touches l = false) : (v.aim action).wants l = none := by
  simp only [Handler.touches, Handler.mayAdd, Handler.mayRemove, Bool.or_eq_false_iff,
    decide_eq_false_iff_not] at hl
  obtain ⟨⟨⟨hreq, hinvalid⟩, hawaits⟩, -⟩ := hl
  cases v with
  | turnAway r => simp only [aim]; split <;> simp [hinvalid]
  | analyzed report =>
    rw [aim, Aim.wants_and, Gate.wants_defaultAim hawaits, Option.or_none]
    exact if_neg (Bool.eq_false_iff.1 hreq)
  | _ => rfl

/-- No handler is after labels that it neither adds nor removes. -/
theorem Handler.wants_eq_none {h : Handler} {a : Aim}
    (haim : h.aim analyzer policy replies event = .ok a) {l : Label} (hl : h.touches l = false) :
    a.wants l = none := by
  cases h <;> cases event
  case gateKeeper.pullRequest e =>
    simp only [aim] at haim
    rcases hvalue : (Gate.judge analyzer policy e).value replies with failure | v <;>
      rw [hvalue] at haim <;> cases haim
    exact v.wants_aim e.action hl
  case failingChecks.pullRequest e =>
    have hne : l ≠ .testsFailing := by
      rintro rfl
      cases hl
    simp only [aim] at haim
    split at haim
    · cases haim
      rfl
    · rcases hvalue : (Program.checkRuns e.pr.head).value replies with failure | runs <;>
        rw [hvalue] at haim <;> cases haim
      exact Upkeep.wants_checksAim runs hne
  case manualLabel.pullRequest e =>
    cases haim
    refine Upkeep.wants_manualLabelAim e ?_
    rintro rfl
    cases hl
  case reviewState.review e =>
    cases haim
    have hchanges : l ≠ .changesRequested := by
      rintro rfl
      cases hl
    have hawaits : l ≠ .awaitingReview := by
      rintro rfl
      cases hl
    exact Upkeep.wants_reviewAim e hchanges hawaits
  all_goals
    cases haim
    rfl

/-- Two handlers have no label in common. -/
def Handler.Apart (h k : Handler) : Prop := ∀ l, h.touches l = false ∨ k.touches l = false

/-- The handlers of an event have labels of their own. -/
theorem Event.pairwise_apart_handlers (event : Event) : event.handlers.Pairwise Handler.Apart := by
  have hchecks : Handler.failingChecks.Apart .gateKeeper := by
    intro l
    cases l <;> decide
  rcases event with ⟨_, action, _, _, _⟩ | ⟨_, action, _, _, _⟩ <;> cases action <;>
    simp [Event.handlers, Action.handlers, ReviewAction.handlers, hchecks]

/-- What handlers in a row are after, one of them is after. -/
theorem exists_aim_of_wants_aimBy {hs : List Handler} {l : Label} {b : Bool}
    (h : (aimBy analyzer policy replies event hs).wants l = some b) :
    ∃ k ∈ hs, ∃ a, k.aim analyzer policy replies event = .ok a ∧ a.wants l = some b := by
  induction hs with
  | nil => cases h
  | cons k hs ih =>
    rw [aimBy] at h
    split at h
    · rename_i a haim
      rcases hwants : a.wants l with _ | c
      · rw [Aim.wants_and, hwants, Option.none_or] at h
        obtain ⟨j, hj, hj'⟩ := ih h
        exact ⟨j, List.mem_cons_of_mem k hj, hj'⟩
      · rw [Aim.wants_and, hwants, Option.some_or] at h
        exact ⟨k, List.mem_cons_self, a, haim, hwants.trans h⟩
    · cases h

/-- Handlers want nothing of labels that none of them touches. -/
theorem wants_aimBy_eq_none {hs : List Handler} {l : Label} (hl : ∀ h ∈ hs, h.touches l = false) :
    (aimBy analyzer policy replies event hs).wants l = none := by
  refine Option.eq_none_iff_forall_ne_some.2 fun b hb => ?_
  obtain ⟨k, hk, a, haim, hwants⟩ := exists_aim_of_wants_aimBy hb
  cases (Handler.wants_eq_none haim (hl k hk)).symm.trans hwants

/-- A handler apart from others wants what none of them does. -/
theorem apart_aimBy {h : Handler} {hs : List Handler} (hapart : ∀ k ∈ hs, h.Apart k) {a : Aim}
    (haim : h.aim analyzer policy replies event = .ok a) :
    a.Apart (aimBy analyzer policy replies event hs) := by
  intro l
  by_cases hl : h.touches l = false
  · exact .inl (Handler.wants_eq_none haim hl)
  · exact .inr (wants_aimBy_eq_none fun k hk => (hapart k hk l).resolve_left hl)

/-- What handlers ask for pursues what they want together. -/
theorem pursues_wantedBy {hs : List Handler} (hapart : hs.Pairwise Handler.Apart) :
    (aimBy analyzer policy replies event hs).Pursues event.pr.labels
      (wantedBy analyzer policy replies event hs) := by
  induction hs with
  | nil => exact Aim.pursues_nothing _
  | cons h hs ih =>
    obtain ⟨hfirst, hrest⟩ := List.pairwise_cons.1 hapart
    rw [aimBy, wantedBy]
    rcases h.asked_cases event with ⟨a, ws, haim, hasked, hpursues⟩ | ⟨e, haim, hasked⟩
    · rw [haim, hasked]
      exact hpursues.and (ih hrest) (apart_aimBy hfirst haim)
    · rw [haim, hasked]
      exact Aim.pursues_nothing _

/-- **The writes of an event pursue what its handlers are after.** -/
theorem pursues_wanted (event : Event) : (aimOf analyzer policy replies event).Pursues
    event.pr.labels (wanted analyzer policy replies event) :=
  pursues_wantedBy event.pairwise_apart_handlers

/-! ## Attempts -/

namespace Attempt

variable (t : Attempt analyzer policy replies event) (labels : LabelSet)

/-- If the writes that are wanted follow an aim, then an attempt takes the labels part of the way to
it, however it ends. -/
theorem partWay_of_follows {a : Aim}
    (h : a.Follows (wanted analyzer policy replies (event.withLabels labels))) :
    a.PartWay labels (t.delivery.after labels) := by
  have hfollows := h.of_subset (t.writes_effects_prefix labels).subset
  rw [Delivery.after, ← Effect.applyAll_writes]
  exact hfollows.partWay labels

/-- An attempt goes part of the way. -/
theorem partWay : (aimOf analyzer policy replies (event.withLabels labels)).PartWay labels
    (t.delivery.after labels) :=
  t.partWay_of_follows labels (pursues_wanted (event.withLabels labels)).follows

variable {t labels}

/-- If they pursue the aim, then an attempt at which no call fails takes them all of the way. -/
theorem after_of_pursues {a : Aim} (h : t.Unbroken labels)
    (hpursues : a.Pursues labels (wanted analyzer policy replies (event.withLabels labels))) :
    t.delivery.after labels = a.reached labels := by
  rw [after_of_unbroken h, hpursues.applyAll_eq]

/-- An attempt that is not cut goes all the way. -/
theorem after_eq (h : t.Unbroken labels) : t.delivery.after labels =
    (aimOf analyzer policy replies (event.withLabels labels)).reached labels := by
  have hpursues : (aimOf analyzer policy replies (event.withLabels labels)).Pursues _ _ :=
    pursues_wanted (event.withLabels labels)
  rw [Event.labels_withLabels] at hpursues
  exact after_of_pursues h hpursues

end Attempt

end PullGate
