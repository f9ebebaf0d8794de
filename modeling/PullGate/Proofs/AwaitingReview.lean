import PullGate.Proofs.Footprint
/-!
# Waiting for review

`awaiting review` is added at two places: by the gate, to a new pull request whose sources ask for
nothing, and when people remove the last label that kept the pull request from review.
`BeginsWaiting` says what is known whenever it is added. On a new pull request the gate does not look
for `changes requested`, the one label beside which the pull request can then wait.
-/

namespace PullGate

open PullGate.Compliance (Analyzer Report)

variable {analyzer : Analyzer} {policy : Policy}

/-- What holds of the pull request when it begins to wait, and of its labels afterwards. -/
structure BeginsWaiting (event : Event) (es : List Effect) : Prop where
  draft : event.pr.draft = false
  invalid : event.pr.labels.has .invalid = false
  /-- Nothing is required of it any more. -/
  requirement : ∀ l, l.isRequirement = true → (Effect.applyAll es event.pr.labels).has l = false
  /-- Changes that were requested are still requested. -/
  changesRequested : (Effect.applyAll es event.pr.labels).has .changesRequested =
    event.pr.labels.has .changesRequested
  /-- Changes were requested of new pull requests only. -/
  opened : event.pr.labels.has .changesRequested = true →
    ∃ e, event = .pullRequest e ∧ e.action = .opened

/-- Nothing is left that keeps the pull request from review, but changes that were requested. -/
theorem BeginsWaiting.blocksReview_eq {event : Event} {es : List Effect}
    (h : BeginsWaiting event es) :
    (Effect.applyAll es event.pr.labels).blocksReview = event.pr.labels.has .changesRequested := by
  rw [← h.changesRequested, Bool.eq_iff_iff, LabelSet.blocksReview_iff]
  constructor
  · rintro ⟨l, hl, hblocks⟩
    rcases Bool.or_eq_true_iff.1 hblocks with hreq | hchanges
    · exact absurd (hl.symm.trans (h.requirement l hreq)) (by decide)
    · rwa [of_decide_eq_true hchanges] at hl
  · intro hl
    exact ⟨_, hl, rfl⟩

/-! ## New pull requests -/

/-- After what follows from a report, the requirements are those of the report, and other labels are
as they were. -/
theorem Gate.has_applyAll_reportEffects (event : PullRequestEvent) (report : Report) (l : Label) :
    (Effect.applyAll (Gate.reportEffects event report) event.pr.labels).has l =
      if l.isRequirement then report.requirements.has l else event.pr.labels.has l := by
  rw [Gate.reportEffects, Effect.applyAll_append, ← Plan.has_applyAll_effects]
  -- the comment, if there is one, changes no labels
  split <;> rfl

/-- The gate adds `awaiting review` to new pull requests only, and as its last step. -/
theorem Handler.Asks.beginsWaiting_of_gateKeeper {event : PullRequestEvent} {ws done : List Effect}
    {reads : List Effect} (hreads : ∀ r ∈ reads, r.isWrite = false)
    (hasks : gateKeeper.Asks analyzer policy (.pullRequest event) ws) (hdone : done <+: ws)
    {e : Effect} (he : e ∈ done) (hadds : e.Adds .awaitingReview) :
    event.action = .opened ∧ BeginsWaiting (.pullRequest event) (reads ++ done) := by
  obtain ⟨ys, v, hjudge, rfl⟩ := hasks.exists_verdict
  obtain ⟨report, rfl, hopened, hnone, hwrites⟩ :=
    Gate.Verdict.eq_of_adds_awaitingReview (hdone.subset he) hadds
  rw [hwrites] at hdone
  -- the addition is the last write, so all writes before it have happened
  have hall : done = Gate.reportEffects event report ++
      [.addLabels event.pr.number [.awaitingReview]] := by
    rcases List.prefix_concat_iff.1 hdone with hall | hstart
    · exact hall
    · have hreq := (Gate.footprint_reportEffects (hstart.subset he) .awaitingReview).1 hadds
      cases hreq
  have hafter (l : Label) (hl : l ≠ .awaitingReview) :
      (Effect.applyAll (reads ++ done) event.pr.labels).has l =
        if l.isRequirement then false else event.pr.labels.has l := by
    have hreport := Gate.has_applyAll_reportEffects event report l
    rw [hnone, LabelSet.has_empty] at hreport
    rw [Effect.applyAll_append, Effect.applyAll_of_reads hreads, hall, Effect.applyAll_append,
      ← hreport]
    simp [Effect.applyTo, hl]
  rcases Gate.judged_of_plays hjudge with ⟨-, hsettled, -⟩ | ⟨hsettled, hjudged⟩
  · cases hsettled
  · refine ⟨hopened, ?_, ?_, ?_, ?_, fun _ => ⟨event, rfl, hopened⟩⟩
    · cases hjudged with
      | analyzed _ haction =>
        rcases haction with ⟨-, hdraft⟩ | hready
        · exact hdraft
        · exact absurd (hopened.symm.trans hready) (by decide)
    · rwa [Snapshot.isSettled, LabelSet.isTerminal_eq] at hsettled
    · intro l hl
      rw [Event.pr, hafter l (by rintro rfl; cases hl), if_pos hl]
    · exact hafter .changesRequested (by decide)

/-! ## Labels removed by people -/

/-- `awaiting review` comes back when nothing keeps the pull request from review any more. -/
theorem Handler.Asks.beginsWaiting_of_manualLabel {event : PullRequestEvent}
    {reads ws done : List Effect} (hreads : ∀ r ∈ reads, r.isWrite = false)
    (hasks : manualLabel.Asks analyzer policy (.pullRequest event) ws) (hdone : done <+: ws)
    {e : Effect} (he : e ∈ done) (hadds : e.Adds .awaitingReview) :
    BeginsWaiting (.pullRequest event) (reads ++ done) := by
  obtain rfl := hasks.eq_manualLabel
  rcases Upkeep.manualLabel_cases event with
    hws | ⟨-, hws⟩ | ⟨-, hsettled, hdraft, hblocks, hws⟩ <;> rw [hws] at hdone
  · cases hdone.subset he
  · rw [List.mem_singleton.1 (hdone.subset he)] at hadds
    exact hadds.elim
  -- the label is added last, so that what holds before it is added can be read off the event
  · have hafter : Effect.applyAll (reads ++ done) event.pr.labels =
        event.pr.labels.insert .awaitingReview := by
      have hstart : done <+: [] ++ [Upkeep.add event.pr .awaitingReview] := hdone
      rcases List.prefix_concat_iff.1 hstart with rfl | hnil
      · rw [Effect.applyAll_append, Effect.applyAll_of_reads hreads]
        rfl
      · cases hnil.subset he
    have hfree (l : Label) (hl : l.blocksReview = true) : event.pr.labels.has l = false := by
      refine Bool.eq_false_iff.2 fun hhas => ?_
      have := LabelSet.blocksReview_iff.2 ⟨l, hhas, hl⟩
      exact absurd (this.symm.trans hblocks) (by decide)
    refine ⟨hdraft, ?_, ?_, ?_, ?_⟩
    · rwa [Snapshot.isSettled, LabelSet.isTerminal_eq] at hsettled
    · intro l hl
      have hne : l ≠ .awaitingReview := by
        rintro rfl
        cases hl
      simp [Event.pr, hafter, hne, hfree l (by simp [Label.blocksReview, hl])]
    · simp [Event.pr, hafter]
    · intro hchanges
      exact absurd (hchanges.symm.trans (hfree .changesRequested rfl)) (by decide)

/-! ## All events -/

/-- Labels that people change concern one handler alone. -/
theorem Action.handlers_eq_of_mem {a : Action} (h : .manualLabel ∈ a.handlers) :
    a.handlers = [.manualLabel] := by
  revert h
  cases a <;> decide

/-- Whenever a delivery adds `awaiting review`, this holds of the pull request. -/
theorem beginsWaiting_of_plays {event : Event} {xs : Transcript} {res : Except Failure Handling}
    (hp : (dispatch analyzer policy event).Plays xs res) {e : Effect} (he : e ∈ xs.effects)
    (hadds : e.Adds .awaitingReview) : BeginsWaiting event xs.effects := by
  obtain ⟨h, hh, ws, hasks, hmem⟩ := exists_asks_of_mem hp he hadds.isWrite
  -- of the handlers only two ever add this label, and neither has company on its event
  have hmay := (Handler.footprint hasks hmem .awaitingReview).1 hadds
  cases h with
  | failingChecks => cases hmay
  | reviewState => cases hmay
  | gateKeeper =>
    obtain ⟨event, rfl⟩ := Event.eq_pullRequest_of_mem_handlers hh (by decide)
    have hnone : ∀ r ∈ ([] : List Effect), r.isWrite = false := nofun
    have hopened := (hasks.beginsWaiting_of_gateKeeper hnone List.prefix_rfl hmem hadds).1
    have hone : (Event.pullRequest event).handlers = [.gateKeeper] := by
      rw [Event.handlers, hopened]
      rfl
    obtain ⟨_, hrec, -⟩ := records_of_plays_dispatch hone hp
    obtain ⟨reads, done, vs, hall, hreads, hasks, hdone, he⟩ := hrec.exists_done he hadds.isWrite
    rw [hall]
    exact (hasks.beginsWaiting_of_gateKeeper hreads hdone he hadds).2
  | manualLabel =>
    obtain ⟨event, rfl⟩ := Event.eq_pullRequest_of_mem_handlers hh (by decide)
    have hone : (Event.pullRequest event).handlers = [.manualLabel] :=
      Action.handlers_eq_of_mem hh
    obtain ⟨_, hrec, -⟩ := records_of_plays_dispatch hone hp
    obtain ⟨reads, done, vs, hall, hreads, hasks, hdone, he⟩ := hrec.exists_done he hadds.isWrite
    rw [hall]
    exact hasks.beginsWaiting_of_manualLabel hreads hdone he hadds

/-! ### A plain pull request -/

/-- A host that has nothing to tell, and at which nothing fails. -/
def Host.bare : Host Unit where
  answer _ e := (.ok <| match e with
    | .listChangedFiles _ => .changedFiles []
    | .getFileContent _ _ => .fileContent ""
    | .searchOpenPrs _ => .openPrs ⟨0, []⟩
    | .listCheckRuns _ => .checkRuns []
    | .postComment _ _ => .commentPosted
    | .addLabels _ _ => .labelsAdded
    | .removeLabel _ _ => .labelRemoved
    | .closePr _ => .prClosed
    | .unassignReviewers _ _ => .reviewersUnassigned, ())

/-- Something happened to an owner's pull request that has these labels. -/
def PullRequestEvent.byOwner (action : Action) (label : Option String) (labels : LabelSet) :
    PullRequestEvent where
  repository := ⟨"octo", "algorithms"⟩
  action
  pr :=
    { number := ⟨1⟩, url := "", htmlUrl := "", body := "", author := "octo", association := .owner,
      labels, draft := false, reviewers := [], head := ⟨"0000000"⟩ }
  installation := none
  label

/-! ### What every such delivery leaves -/

/-- **When a pull request begins to wait for review.** It is not a draft and was not turned away,
and nothing is required of it any more. Nothing else keeps it from review afterwards exactly if no
changes were requested before, and they were only if it is new. -/
theorem awaitingReview_added {σ : Type} (analyzer : Analyzer) (policy : Policy) (event : Event)
    (host : Host σ) (s : σ)
    (h : ∃ e ∈ ((dispatch analyzer policy event).run host s).1.effects, e.Adds .awaitingReview) :
    let after := Effect.applyAll ((dispatch analyzer policy event).run host s).1.effects
      event.pr.labels
    event.pr.draft = false ∧ event.pr.labels.has .invalid = false ∧
      (∀ l, l.isRequirement = true → after.has l = false) ∧
      (after.blocksReview = false ↔ event.pr.labels.has .changesRequested = false) ∧
      (event.pr.labels.has .changesRequested = true →
        ∃ e, event = .pullRequest e ∧ e.action = .opened) := by
  obtain ⟨e, he, hadds⟩ := h
  rw [Program.effects_run] at he ⊢
  have hwaits := beginsWaiting_of_plays (Program.plays_run host _ s) he hadds
  refine ⟨hwaits.draft, hwaits.invalid, hwaits.requirement, ?_, hwaits.opened⟩
  rw [hwaits.blocksReview_eq]

/-- When the last requirement goes, the pull request waits. -/
theorem awaitingReview_added_requirement_gone :
    let event := Event.pullRequest (.byOwner .unlabeled "require tests" ∅)
    let t := ((dispatch (fun _ => .ok []) .standard event).run Host.bare ()).1
    let after := Effect.applyAll t.effects ∅
    (∃ e ∈ t.effects, e.Adds .awaitingReview) ∧
      event.pr.draft = false ∧ event.pr.labels.has .invalid = false ∧
      (∀ l, l.isRequirement = true → after.has l = false) ∧
      (after.blocksReview = false ↔ event.pr.labels.has .changesRequested = false) ∧
      (event.pr.labels.has .changesRequested = true →
        ∃ e, event = .pullRequest e ∧ e.action = .opened) := by
  have h : ∃ e ∈ ((dispatch (fun _ => .ok []) .standard
      (.pullRequest (.byOwner .unlabeled "require tests" ∅))).run Host.bare ()).1.effects,
      e.Adds .awaitingReview :=
    ⟨.addLabels ⟨1⟩ [.awaitingReview], by decide, List.mem_singleton_self _⟩
  exact ⟨h, awaitingReview_added _ _ _ Host.bare () h⟩

/-- A new pull request with changes requested waits nevertheless. -/
theorem awaitingReview_beside_changesRequested :
    let event := Event.pullRequest (.byOwner .opened none (.ofList [.changesRequested]))
    let t := ((dispatch (fun _ => .ok []) .standard event).run Host.bare ()).1
    t.effects = [.listChangedFiles ⟨1⟩, .addLabels ⟨1⟩ [.awaitingReview]] ∧
      (Effect.applyAll t.effects event.pr.labels).has .changesRequested = true ∧
      (Effect.applyAll t.effects event.pr.labels).blocksReview = true := by
  decide

end PullGate
