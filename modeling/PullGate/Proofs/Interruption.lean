import PullGate.Proofs.Duplicate
/-!
# Interruptions that are not made up for

Two kinds of events write twice, and look first whether their first write was already made. A review
that requests changes adds `changes requested` and then removes `awaiting review`, and does neither if
`changes requested` is there. A pull request that is turned away gets its mark and is then closed, and
nothing at all is done to one that has the mark. If such an event breaks off between the two writes,
the second one is not made up for when it is delivered again; anywhere else an interruption does no
harm.
-/

namespace PullGate

open PullGate.Compliance (Analyzer)

variable {analyzer : Analyzer} {policy : Policy} {replies : Effect → Response} {event : Event}
variable {labels : LabelSet} {x : Effect} {m : String}

/-! ## Where an attempt breaks off -/

namespace Attempt

variable {t : Attempt analyzer policy replies event}

/-- A call that failed and has had no effect is all that was asked for besides what has happened. -/
theorem effects_trace_of_failed (hfailed : (t.delivery.trace labels).result = .error (.call x m))
    (hnot : t.happened = false) :
    (t.delivery.trace labels).effects = t.delivery.effects labels ++ [x] := by
  obtain ⟨xs, hplays, heffects⟩ := t.delivery.exists_plays labels
  rw [hfailed] at hplays
  obtain ⟨es, hes⟩ := hplays.exists_eq_concat
  have hhappened : t.delivery.happened = false := hnot
  simp only [Delivery.effects, hfailed, hhappened, heffects, hes, Bool.false_eq_true, if_false,
    List.dropLast_concat]

/-- If one handler takes care of the event, then an attempt that breaks off at a read has written
nothing. -/
theorem writes_eq_nil_of_read {h : Handler} (hone : event.handlers = [h])
    (hfailed : (t.delivery.trace labels).result = .error (.call x m)) (hnot : t.happened = false)
    (hread : x.isWrite = false) : Effect.writes (t.delivery.effects labels) = [] := by
  have hcut := effects_trace_of_failed hfailed hnot
  obtain ⟨xs, hplays, heffects⟩ := t.delivery.exists_plays labels
  have hone' : (event.withLabels labels).handlers = [h] := by
    rw [← hone]
    cases event <;> rfl
  obtain ⟨res, hrec, -⟩ := records_of_plays_dispatch hone' hplays
  refine Effect.writes_eq_nil fun w hw => Bool.eq_false_iff.2 fun hwrite => ?_
  rw [← heffects, hcut] at hrec
  obtain ⟨reads, done, ws, heq, -, hasks, hdone, hmem⟩ :=
    hrec.exists_done (List.mem_append_left [x] hw) hwrite
  -- writes come last, so the call that failed would be one of them
  rcases List.eq_nil_or_concat done with rfl | ⟨ds, y, rfl⟩
  · cases hmem
  · rw [List.concat_eq_append, ← List.append_assoc] at heq
    obtain ⟨-, hxy⟩ := List.append_inj' heq rfl
    obtain rfl : x = y := List.singleton_inj.1 hxy
    have hx := hasks.isWrite_eq_true x (hdone.subset (by simp))
    exact absurd (hread.symm.trans hx) Bool.false_ne_true

/-- An attempt that breaks off at a write has made the writes that are wanted before it. -/
theorem writes_concat_prefix (hfailed : (t.delivery.trace labels).result = .error (.call x m))
    (hnot : t.happened = false) (hwrite : x.isWrite = true) :
    Effect.writes (t.delivery.effects labels) ++ [x] <+:
      wanted analyzer policy replies (event.withLabels labels) := by
  have hstart := (t.writes_trace labels).1
  have hx : Effect.writes [x] = [x] := Effect.writes_eq_self (by simpa using hwrite)
  rwa [effects_trace_of_failed hfailed hnot, Effect.writes_append, hx] at hstart

/-- An attempt that has written nothing has left the labels. -/
theorem after_of_writes_eq_nil (h : Effect.writes (t.delivery.effects labels) = []) :
    t.delivery.after labels = labels := by
  rw [Delivery.after, ← Effect.applyAll_writes, h, Effect.applyAll_nil]

end Attempt

/-! ## Reviews -/

section

variable {e : ReviewEvent}

/-- Of a review the handler's effects are wanted. -/
theorem wanted_review (e : ReviewEvent) :
    wanted analyzer policy replies (.review e) = Upkeep.review e := by
  rcases haction : e.action with _ | _ | _
  case submitted =>
    simp only [wanted, Event.handlers, ReviewAction.handlers, haction, wantedBy, Handler.asked,
      Handler.turn, Program.value, List.append_nil]
  all_goals
    simp only [wanted, Event.handlers, ReviewAction.handlers, haction, wantedBy, Upkeep.review,
      reduceCtorEq, false_and, if_false]

/-- Only a review that was submitted is handled. -/
theorem Attempt.handlers_review_of_failed {t : Attempt analyzer policy replies (.review e)}
    (hfailed : (t.delivery.trace labels).result = .error (.call x m)) :
    (Event.review e).handlers = [.reviewState] := by
  obtain ⟨_, action, _, _, _⟩ := e
  cases action
  case submitted => rfl
  all_goals cases hfailed

/-- From a request for changes nothing follows, or it adds `changes requested` first. -/
theorem Upkeep.review_of_changesRequested (hstate : e.review.state = .changesRequested) :
    Upkeep.review e = [] ∨
      Upkeep.review e = add e.pr .changesRequested :: removeIfThere e.pr .awaitingReview ∧
        reviewAim e = (Aim.only .changesRequested true).and (.only .awaitingReview false) := by
  simp only [Upkeep.review, reviewAim, hstate]
  split
  · split
    · exact .inl rfl
    · exact .inr ⟨rfl, rfl⟩
  · exact .inl rfl

/-- If anything is done to take a label off, it is one effect, and the label was there. -/
theorem Upkeep.eq_of_concat_prefix_removeIfThere {pr : Snapshot} {l : Label} {ds : List Effect}
    (h : ds ++ [x] <+: removeIfThere pr l) : ds = [] ∧ x = remove pr l ∧ pr.labels.has l = true := by
  unfold removeIfThere at h
  split at h
  · rename_i hhas
    rcases ds with _ | ⟨d, ds⟩
    · exact ⟨rfl, (List.cons_prefix_cons.1 h).1, hhas⟩
    · simpa using h.length_le
  · simp at h

/-- As long as a review is after the same on the labels that an attempt has left, to deliver it again
makes up for all that is missing. -/
theorem Attempt.after_review_eq {failed again once : Attempt analyzer policy replies (.review e)}
    (hagain : again.Unbroken (failed.delivery.after labels)) (honce : once.Unbroken labels)
    (hsame : Upkeep.reviewAim (e.withLabels (failed.delivery.after labels)) =
      Upkeep.reviewAim (e.withLabels labels)) :
    again.delivery.after (failed.delivery.after labels) = once.delivery.after labels := by
  have hpart := failed.partWay labels
  rw [after_eq hagain, after_eq honce]
  simp only [Event.withLabels_review, aimOf_review] at hpart ⊢
  rw [hsame]
  exact Aim.reached_of_partWay hpart

/-- A request for changes breaks off before anything has happened, or between its two writes. -/
theorem Attempt.cut_of_changesRequested {t : Attempt analyzer policy replies (.review e)}
    (hstate : e.review.state = .changesRequested)
    (hfailed : (t.delivery.trace labels).result = .error (.call x m)) (hnot : t.happened = false) :
    (t.delivery.after labels = labels ∧ x ≠ Upkeep.remove e.pr .awaitingReview) ∨
      (x = Upkeep.remove e.pr .awaitingReview ∧ labels.has .awaitingReview = true ∧
        t.delivery.after labels = labels.insert .changesRequested ∧
        Upkeep.reviewAim (e.withLabels labels) =
          (Aim.only .changesRequested true).and (.only .awaitingReview false)) := by
  -- when a read fails nothing has been written, and when a write fails those in front of it have
  rcases hwrite : x.isWrite with _ | _
  · have hnone := writes_eq_nil_of_read (handlers_review_of_failed hfailed) hfailed hnot hwrite
    refine .inl ⟨after_of_writes_eq_nil hnone, ?_⟩
    rintro rfl
    cases hwrite
  · have hnext := writes_concat_prefix hfailed hnot hwrite
    rw [Event.withLabels_review, wanted_review] at hnext
    rcases Upkeep.review_of_changesRequested (e := e.withLabels labels) hstate with
      hnothing | ⟨hreview, haim⟩
    · rw [hnothing, List.prefix_nil] at hnext
      simp at hnext
    · rw [hreview] at hnext
      rcases hdone : Effect.writes (t.delivery.effects labels) with _ | ⟨d, ds⟩
      · rw [hdone, List.nil_append, List.cons_prefix_cons] at hnext
        rw [hnext.1]
        exact .inl ⟨after_of_writes_eq_nil hdone, nofun⟩
      · rw [hdone, List.cons_append, List.cons_prefix_cons] at hnext
        obtain ⟨rfl, hrest⟩ := hnext
        obtain ⟨rfl, hx, hhas⟩ := Upkeep.eq_of_concat_prefix_removeIfThere hrest
        refine .inr ⟨hx, hhas, ?_, haim⟩
        rw [Delivery.after, ← Effect.applyAll_writes, hdone]
        rfl

/-- **Reviews and interruptions.** A review is handled, and a call fails and has had no effect. To
deliver it again leaves the labels of an uninterrupted delivery, unless the review requests changes
and the call was to remove `awaiting review`. Then nothing happens any more, and both labels stay. -/
theorem review_redelivered (failed again once : Attempt analyzer policy replies (.review e))
    (labels : LabelSet)
    (hfailed : (failed.delivery.trace labels).result = .error (.call x m))
    (hnot : failed.happened = false)
    (hagain : again.Unbroken (failed.delivery.after labels)) (honce : once.Unbroken labels) :
    let left := failed.delivery.after labels
    let forgotten := e.review.state = .changesRequested ∧ x = Upkeep.remove e.pr .awaitingReview
    (again.delivery.after left = once.delivery.after labels ↔ ¬ forgotten) ∧
      (forgotten → again.delivery.after left = left ∧ left.has .changesRequested = true ∧
        left.has .awaitingReview = true ∧ (once.delivery.after labels).has .awaitingReview = false) := by
  intro left forgotten
  by_cases hstate : e.review.state = .changesRequested
  · rcases Attempt.cut_of_changesRequested hstate hfailed hnot with
      ⟨hleft, hx⟩ | ⟨hx, hhas, hleft, haim⟩
    · have hsame := Attempt.after_review_eq hagain honce (by rw [hleft])
      exact ⟨⟨fun _ hforgotten => hx hforgotten.2, fun _ => hsame⟩,
        fun hforgotten => absurd hforgotten.2 hx⟩
    -- the first write is done, and with it the second is no longer wanted
    · have hchanges : left.has .changesRequested = true := by simp [left, hleft]
      have hawaits : left.has .awaitingReview = true := by simp [left, hleft, hhas]
      have hstays : again.delivery.after left = left := by
        rw [Attempt.after_eq hagain, Event.withLabels_review, aimOf_review,
          Upkeep.reviewAim_of_changesRequested hstate hchanges]
        exact Aim.reached_of_met (Aim.met_nothing left)
      have hgone : (once.delivery.after labels).has .awaitingReview = false := by
        rw [Attempt.after_eq honce, Event.withLabels_review, aimOf_review, haim]
        rfl
      refine ⟨⟨fun heq => ?_, fun h => absurd ⟨hstate, hx⟩ h⟩,
        fun _ => ⟨hstays, hchanges, hawaits, hgone⟩⟩
      rw [← heq, hstays, hawaits] at hgone
      cases hgone
  -- the aim of such a review depends on the mark alone, which it does not touch
  · have hinvalid : left.has .invalid = labels.has .invalid := by
      have hpart := failed.partWay labels
      rw [Event.withLabels_review, aimOf_review] at hpart
      exact hpart.has_eq (Upkeep.wants_reviewAim_invalid _)
    have hsame := Attempt.after_review_eq hagain honce
      (Upkeep.reviewAim_withLabels hinvalid fun h => absurd h hstate)
    exact ⟨⟨fun _ hforgotten => hstate hforgotten.1, fun _ => hsame⟩,
      fun hforgotten => absurd hforgotten.1 hstate⟩

/-- An owner reviews a pull request of their own. -/
def ReviewEvent.byOwner (state : ReviewState) : ReviewEvent where
  repository := ⟨"octo", "algorithms"⟩
  action := .submitted
  review := ⟨state, .owner, "octo"⟩
  pr := (PullRequestEvent.byOwner .opened none ∅).pr
  installation := none

/-- An approval that breaks off between its two writes is made up for. -/
theorem review_redelivered_approval :
    let event := Event.review (.byOwner .approved)
    let start := LabelSet.ofList [.changesRequested, .awaitingReview]
    let failed := Attempt.brokenOff (fun _ => .ok []) .standard (Host.plainReply []) event 1 false
    let whole := Attempt.whole (fun _ => .ok []) .standard (Host.plainReply []) event
    (failed.delivery.after start).toList = [.awaitingReview] ∧
      (whole.delivery.after start).toList = [] ∧
      whole.delivery.after (failed.delivery.after start) = whole.delivery.after start := by
  intro event start failed whole
  refine ⟨by decide, by decide, ?_⟩
  exact (review_redelivered failed whole whole start rfl rfl Attempt.unbroken_whole
    Attempt.unbroken_whole).1.2 fun h => nomatch h.1

/-- A request for changes that breaks off between its two writes is not. -/
theorem review_forgotten :
    let event := Event.review (.byOwner .changesRequested)
    let start := LabelSet.ofList [.awaitingReview]
    let failed := Attempt.brokenOff (fun _ => .ok []) .standard (Host.plainReply []) event 1 false
    let whole := Attempt.whole (fun _ => .ok []) .standard (Host.plainReply []) event
    let left := failed.delivery.after start
    (failed.delivery.trace start).result =
        .error (.call (.removeLabel ⟨1⟩ .awaitingReview) "broken off") ∧
      (whole.delivery.trace left).effects = [] ∧
      (whole.delivery.after left).toList = [.awaitingReview, .changesRequested] ∧
      (whole.delivery.after start).toList = [.changesRequested] :=
  ⟨rfl, by decide, by decide, by decide⟩

end

/-! ## Pull requests that are turned away -/

namespace Gate.Rejection

variable {r : Rejection} {pr : Snapshot}

/-- How a pull request is turned away does not hang on its labels. -/
theorem effects_withLabels (e : PullRequestEvent) (labels : LabelSet) :
    r.effects policy (e.withLabels labels).pr = r.effects policy e.pr := by
  cases r <;> rfl

/-- No step is taken twice. -/
theorem nodup_effects : (r.effects policy pr).Nodup := by
  by_cases hmarks : r.marksInvalid = true <;> by_cases hnone : pr.reviewers.isEmpty = true <;>
    simp [effects, hmarks, hnone]

/-- A step that comes after the mark: the closing, or the release of the reviewers. -/
def AfterMark (r : Rejection) (pr : Snapshot) (x : Effect) : Prop :=
  r.marksInvalid = true ∧ (x = .closePr pr.number ∨ x = .unassignReviewers pr.number pr.reviewers)

/-- The mark is set once a step after it is next. -/
theorem mark_mem_iff {done rest : List Effect} (h : r.effects policy pr = done ++ x :: rest) :
    .addLabels pr.number [.invalid] ∈ done ↔ r.AfterMark pr x := by
  by_cases hmarks : r.marksInvalid = true
  · have heffects : r.effects policy pr =
        .postComment pr.number (r.comment policy pr) :: .addLabels pr.number [.invalid] ::
          .closePr pr.number :: if pr.reviewers.isEmpty then []
            else [.unassignReviewers pr.number pr.reviewers] := by
      rw [effects, if_pos hmarks]
      rfl
    rw [heffects] at h
    -- the mark is the second step, so two steps must be done
    rcases done with _ | ⟨c, _ | ⟨d, done⟩⟩ <;>
      simp only [List.nil_append, List.cons_append, List.cons.injEq] at h
    · obtain ⟨rfl, -⟩ := h
      simp [AfterMark]
    · obtain ⟨rfl, rfl, -⟩ := h
      simp [AfterMark]
    · obtain ⟨rfl, rfl, h⟩ := h
      have hx : x ∈ done ++ x :: rest := List.mem_append_right done List.mem_cons_self
      rw [← h] at hx
      refine ⟨fun _ => ⟨hmarks, ?_⟩, fun _ => List.mem_cons_of_mem _ List.mem_cons_self⟩
      rcases List.mem_cons.1 hx with hx | hx
      · exact .inl hx
      · split at hx
        · cases hx
        · exact .inr (List.mem_singleton.1 hx)
  · refine ⟨fun hmem => ?_, fun hlate => absurd hlate.1 hmarks⟩
    have hmark : .addLabels pr.number [.invalid] ∈ r.effects policy pr := by
      rw [h]
      exact List.mem_append_left _ hmem
    rcases mem_effects.1 hmark with heq | ⟨hmarks', -⟩ | heq | ⟨-, heq⟩
    · cases heq
    · exact absurd hmarks' hmarks
    · cases heq
    · cases heq

variable {done : List Effect}

/-- Once the mark is set it stays, whatever else of the turning away is done. -/
theorem has_invalid_applyAll (hsub : done ⊆ r.effects policy pr)
    (hmark : .addLabels pr.number [.invalid] ∈ done) (labels : LabelSet) :
    (Effect.applyAll done labels).has .invalid = true := by
  have hfollows : (Aim.only .invalid true).Follows done := by
    intro e he l
    obtain ⟨hadd, hremove⟩ := footprint (hsub he) l
    exact ⟨fun hadds => if_pos (hadd hadds).1, fun hremoves => absurd hremoves hremove⟩
  exact hfollows.has_applyAll hmark rfl (.inl (List.mem_singleton_self _)) labels

/-- Before the mark is set the labels are as they were. -/
theorem applyAll_of_not_mem (hsub : done ⊆ r.effects policy pr)
    (hmark : .addLabels pr.number [.invalid] ∉ done) (labels : LabelSet) :
    Effect.applyAll done labels = labels := by
  have hfollows : Aim.nothing.Follows done := by
    intro e he l
    obtain ⟨hadd, hremove⟩ := footprint (hsub he) l
    refine ⟨fun hadds => ?_, fun hremoves => absurd hremoves hremove⟩
    exact absurd ((hadd hadds).2.2 ▸ he) hmark
  exact (hfollows.partWay labels).eq_of_met (Aim.met_nothing labels)

end Gate.Rejection

/-- The pull request is closed, and its reviewers are released. -/
def Effect.PutAway (pr : Snapshot) (es : List Effect) : Prop :=
  .closePr pr.number ∈ es ∧
    (pr.reviewers ≠ [] → .unassignReviewers pr.number pr.reviewers ∈ es)

/-- What is put away stays so with more effects. -/
theorem Effect.PutAway.mono {pr : Snapshot} {es ds : List Effect} (h : PutAway pr es)
    (hsub : es ⊆ ds) : PutAway pr ds :=
  ⟨hsub h.1, fun hsome => hsub (h.2 hsome)⟩

/-- All steps after the mark have been taken. -/
theorem Effect.PutAway.mem_of_afterMark {pr : Snapshot} {es : List Effect} {r : Gate.Rejection}
    (h : PutAway pr es) (hlate : r.AfterMark pr x) (hstep : x ∈ r.effects policy pr) : x ∈ es := by
  obtain ⟨-, rfl | rfl⟩ := hlate
  · exact h.1
  · refine h.2 fun hnone => ?_
    rcases Gate.Rejection.mem_effects.1 hstep with heq | ⟨-, heq⟩ | heq | ⟨hsome, -⟩
    · cases heq
    · cases heq
    · cases heq
    · exact hsome hnone

/-- The whole turning away puts the pull request away. -/
theorem Gate.Rejection.putAway_effects (r : Gate.Rejection) (pr : Snapshot) :
    Effect.PutAway pr (r.effects policy pr) :=
  ⟨mem_effects.2 (.inr (.inr (.inl rfl))),
    fun hsome => mem_effects.2 (.inr (.inr (.inr ⟨hsome, rfl⟩)))⟩

section

variable {e : PullRequestEvent} {r : Gate.Rejection}

/-- If the gate turns the pull request away, what is wanted is the turning away. -/
theorem wanted_of_rejected
    (hrejected : (Gate.run analyzer policy (e.withLabels labels)).value replies = .ok (.rejected r)) :
    wanted analyzer policy replies ((Event.pullRequest e).withLabels labels) =
      r.effects policy e.pr := by
  rw [Event.withLabels_pullRequest, wanted_of_turnAway (Gate.value_run_eq_rejected.1 hrejected),
    Gate.Rejection.effects_withLabels]

/-- An attempt to turn a pull request away breaks off before the mark, with the labels as they were, or
after it, and then the step that failed is missing. -/
theorem Attempt.cut_of_turnAway {t : Attempt analyzer policy replies (.pullRequest e)}
    (hrejected : (Gate.run analyzer policy (e.withLabels labels)).value replies = .ok (.rejected r))
    (hfailed : (t.delivery.trace labels).result = .error (.call x m)) (hnot : t.happened = false) :
    (t.delivery.after labels = labels ∧ ¬ r.AfterMark e.pr x) ∨
      ((t.delivery.after labels).has .invalid = true ∧ r.AfterMark e.pr x ∧
        x ∈ r.effects policy e.pr ∧ x ∉ t.delivery.effects labels) := by
  rcases hwrite : x.isWrite with _ | _
  · have hone : (Event.pullRequest e).handlers = [.gateKeeper] :=
      handlers_of_turnAway (e := e.withLabels labels) (Gate.value_run_eq_rejected.1 hrejected)
    refine .inl ⟨after_of_writes_eq_nil (writes_eq_nil_of_read hone hfailed hnot hwrite), ?_⟩
    rintro ⟨-, rfl | rfl⟩ <;> cases hwrite
  · have hnext := writes_concat_prefix hfailed hnot hwrite
    rw [wanted_of_rejected hrejected] at hnext
    obtain ⟨rest, hrest⟩ := hnext
    rw [List.append_assoc, List.singleton_append] at hrest
    have hsub : Effect.writes (t.delivery.effects labels) ⊆ r.effects policy e.pr := by
      rw [← hrest]
      exact List.subset_append_left _ _
    have hmark := Gate.Rejection.mark_mem_iff hrest.symm
    rw [Delivery.after, ← Effect.applyAll_writes]
    by_cases hlate : r.AfterMark e.pr x
    · refine .inr ⟨Gate.Rejection.has_invalid_applyAll hsub (hmark.2 hlate) labels, hlate, ?_, ?_⟩
      · rw [← hrest]
        exact List.mem_append_right _ List.mem_cons_self
      -- no step stands twice among them, so the one that failed is not among those that are done
      · intro hmem
        have hnodup : (r.effects policy e.pr).Nodup := Gate.Rejection.nodup_effects
        rw [← hrest] at hnodup
        have hdone : x ∈ Effect.writes (t.delivery.effects labels) := List.mem_filter.2 ⟨hmem, hwrite⟩
        exact (List.nodup_append.1 hnodup).2.2 x hdone x List.mem_cons_self rfl
    · exact .inl ⟨Gate.Rejection.applyAll_of_not_mem hsub (mt hmark.1 hlate) labels, hlate⟩

/-- **Turning away and interruptions.** A pull request is to be turned away, and a call fails and has
had no effect. To deliver the event again turns the pull request away from the beginning, so that it is
closed and its reviewers are released, unless the call comes after the mark. Then nothing at all
happens any more, and the pull request stays open or its reviewers stay asked. -/
theorem turnAway_redelivered (failed again : Attempt analyzer policy replies (.pullRequest e))
    (labels : LabelSet)
    (hrejected : (Gate.run analyzer policy (e.withLabels labels)).value replies = .ok (.rejected r))
    (hfailed : (failed.delivery.trace labels).result = .error (.call x m))
    (hnot : failed.happened = false) (hagain : again.Unbroken (failed.delivery.after labels)) :
    let left := failed.delivery.after labels
    (Effect.PutAway e.pr (failed.delivery.effects labels ++ again.delivery.effects left) ↔
        ¬ r.AfterMark e.pr x) ∧
      (¬ r.AfterMark e.pr x →
        Effect.writes (again.delivery.effects left) = r.effects policy e.pr) ∧
      (r.AfterMark e.pr x → (again.delivery.trace left).effects = []) := by
  intro left
  rcases Attempt.cut_of_turnAway hrejected hfailed hnot with
    ⟨hleft, hearly⟩ | ⟨hmarked, hlate, hstep, hmissing⟩
  · have hwrites : Effect.writes (again.delivery.effects left) = r.effects policy e.pr := by
      rw [Attempt.effects_of_unbroken hagain, (again.writes_trace left).2 hagain,
        ← wanted_of_rejected hrejected, ← hleft]
    have hput : Effect.PutAway e.pr (failed.delivery.effects labels ++ again.delivery.effects left) := by
      have hall : Effect.PutAway e.pr (r.effects policy e.pr) := r.putAway_effects e.pr
      rw [← hwrites] at hall
      exact hall.mono fun w hw => List.mem_append_right _ (List.mem_filter.1 hw).1
    exact ⟨⟨fun _ => hearly, fun _ => hput⟩, fun _ => hwrites, fun hlate => absurd hlate hearly⟩
  · obtain ⟨result, htrace⟩ := again.delivery.trace_of_invalid hmarked
    have hnothing : again.delivery.effects left = [] := by
      simp only [Delivery.effects, left, htrace]
    refine ⟨⟨fun hput => ?_, fun hearly => absurd hlate hearly⟩, fun hearly => absurd hlate hearly,
      fun _ => by rw [htrace]⟩
    -- the step that failed is missing for good
    rw [hnothing, List.append_nil] at hput
    exact absurd (hput.mem_of_afterMark hlate hstep) hmissing

/-- A newcomer's pull request without a description is turned away although its mark failed at first. -/
theorem turnAway_redelivered_before_mark :
    let event := Event.pullRequest (.byNewcomer "")
    let failed := Attempt.brokenOff (fun _ => .ok []) .standard (Host.plainReply []) event 1 false
    let whole := Attempt.whole (fun _ => .ok []) .standard (Host.plainReply []) event
    let left := failed.delivery.after ∅
    (failed.delivery.trace ∅).result = .error (.call (.addLabels ⟨1⟩ [.invalid]) "broken off") ∧
      Effect.PutAway event.pr (failed.delivery.effects ∅ ++ whole.delivery.effects left) := by
  intro event failed whole left
  refine ⟨rfl, ?_⟩
  exact (turnAway_redelivered (r := .emptyBody) failed whole ∅ rfl rfl rfl
    Attempt.unbroken_whole).1.2 (by rintro ⟨-, h | h⟩ <;> cases h)

/-- If the closing fails, nothing is made up for: it stays open, and its reviewers stay asked. -/
theorem turnAway_forgotten :
    let e := PullRequestEvent.byNewcomer ""
    let failed := Attempt.brokenOff (fun _ => .ok []) .standard (Host.plainReply [])
      (.pullRequest e) 2 false
    let whole := Attempt.whole (fun _ => .ok []) .standard (Host.plainReply []) (.pullRequest e)
    let left := failed.delivery.after ∅
    (Gate.run (fun _ => .ok []) .standard e).value (Host.plainReply []) =
        .ok (.rejected .emptyBody) ∧
      (failed.delivery.trace ∅).result = .error (.call (.closePr ⟨1⟩) "broken off") ∧
      left.toList = [.invalid] ∧ whole.delivery.trace left = ⟨[], .ok .handled⟩ ∧
      ¬ Effect.PutAway e.pr (failed.delivery.effects ∅ ++ whole.delivery.effects left) ∧
      Effect.PutAway e.pr (whole.delivery.effects ∅) := by
  refine ⟨rfl, rfl, by decide, rfl, ?_, by decide, fun _ => by decide⟩
  rintro ⟨hclosed, -⟩
  revert hclosed
  decide

end

end PullGate
