import PullGate.Proofs.Pursuit
/-!
# Sparing changes of labels

No delivery asks for a change of labels that makes no difference. Effects are `Sparing` for some labels
if they add only labels that are not there, remove only labels that are there, and name no label
twice. Every handler looks at the labels that the delivery shows before it asks, and two handlers of
one event have no label in common, so the effects of a delivery are sparing for these labels
(`sparing_of_plays_dispatch`). What sparing effects add and remove is then what tells the labels after
them from those before.
-/

namespace PullGate

open PullGate.Compliance (Analyzer Report)

/-! ## Labels in their order -/

/-- The labels stand in their order, each once. -/
def Label.Ascending (ls : List Label) : Prop := ls.Pairwise fun a b => a.rank < b.rank

theorem Label.ascending_all : Label.Ascending Label.all := by
  unfold Label.Ascending
  decide

/-- In a list that ascends no label stands twice. -/
theorem Label.Ascending.nodup {ls : List Label} (h : Label.Ascending ls) : ls.Nodup := by
  refine List.Pairwise.imp (fun {a b} hlt => ?_) h
  rintro rfl
  exact Nat.lt_irrefl _ hlt

theorem LabelSet.ascending_difference (a b : LabelSet) : Label.Ascending (a.difference b) :=
  Label.ascending_all.filter _

/-- What a plan adds ascends. -/
theorem Plan.ascending_toAdd (desired current : LabelSet) :
    Label.Ascending (between desired current).toAdd :=
  LabelSet.ascending_difference desired.requirements current.requirements

theorem Plan.ascending_toRemove (desired current : LabelSet) :
    Label.Ascending (between desired current).toRemove :=
  LabelSet.ascending_difference current.requirements desired.requirements

/-! ## Sparing effects -/

namespace Effect

/-- The labels that an effect adds or removes. -/
def named : Effect → List Label
  | addLabels _ ls => ls
  | removeLabel _ l => [l]
  | _ => []

theorem mem_named {e : Effect} {l : Label} : l ∈ e.named ↔ e.Adds l ∨ e.Removes l := by
  cases e <;> simp [named, Adds, Removes, eq_comm]

/-- Reads name no labels. -/
theorem isWrite_of_mem_named {e : Effect} {l : Label} (h : l ∈ e.named) : e.isWrite = true :=
  (mem_named.1 h).elim Adds.isWrite Removes.isWrite

/-- An addition is of some labels, in their order, none of which is there, and a removal is of a label
that is there. -/
def Spares (labels : LabelSet) : Effect → Prop
  | addLabels _ ls => ls ≠ [] ∧ Label.Ascending ls ∧ ∀ l ∈ ls, labels.has l = false
  | removeLabel _ l => labels.has l = true
  | _ => True

/-- Each effect makes a difference to the labels, and no label is named by two of them. -/
structure Sparing (labels : LabelSet) (es : List Effect) : Prop where
  spares : ∀ e ∈ es, e.Spares labels
  apart : es.Pairwise fun d e => ∀ l ∈ d.named, l ∉ e.named

variable {labels : LabelSet} {es ds : List Effect}

theorem sparing_nil (labels : LabelSet) : Sparing labels [] := ⟨nofun, .nil⟩

/-- One effect that spares what it can is sparing. -/
theorem sparing_singleton {e : Effect} (h : e.Spares labels) : Sparing labels [e] where
  spares := by
    intro d hd
    obtain rfl := List.mem_singleton.1 hd
    exact h
  apart := List.pairwise_singleton _ _

theorem Sparing.of_sublist (h : Sparing labels es) (hsub : ds.Sublist es) : Sparing labels ds :=
  ⟨fun e he => h.spares e (hsub.subset he), h.apart.sublist hsub⟩

/-- Sparing effects on different labels are sparing together. -/
theorem Sparing.append (hes : Sparing labels es) (hds : Sparing labels ds)
    (hapart : ∀ d ∈ es, ∀ e ∈ ds, ∀ l ∈ d.named, l ∉ e.named) : Sparing labels (es ++ ds) where
  spares := by
    intro e he
    rcases List.mem_append.1 he with he | he
    · exact hes.spares e he
    · exact hds.spares e he
  apart := List.pairwise_append.2 ⟨hes.apart, hds.apart, hapart⟩

/-- Effects without labels are sparing. -/
theorem sparing_of_named_eq_nil (h : ∀ e ∈ es, e.Spares labels ∧ e.named = []) :
    Sparing labels es where
  spares := fun e he => (h e he).1
  apart := List.pairwise_of_forall_mem_list fun d hd e _ l hl => by
    rw [(h d hd).2] at hl
    cases hl

theorem sparing_of_reads (h : ∀ e ∈ es, e.isWrite = false) : Sparing labels es := by
  refine sparing_of_named_eq_nil fun e he => ?_
  have hread := h e he
  cases e <;> first | exact ⟨trivial, rfl⟩ | cases hread

/-! ### What sparing effects make of the labels -/

/-- A label that an effect adds, and none removes, is there in the end. -/
theorem has_applyAll_of_adds {e : Effect} (he : e ∈ es) {l : Label} (hadds : e.Adds l)
    (hkeep : ∀ d ∈ es, ¬ d.Removes l) : (applyAll es labels).has l = true := by
  obtain ⟨front, rest, rfl⟩ := List.append_of_mem he
  rw [applyAll_append, applyAll_cons]
  refine has_applyAll_of_has (fun d hd => hkeep d (by simp [hd])) ?_
  cases e with
  | addLabels pr ls => rw [has_foldl_insert_eq, List.contains_iff_mem.2 hadds, Bool.true_or]
  | _ => exact hadds.elim

/-- A label that an effect removes, and none adds, is not there in the end. -/
theorem has_applyAll_of_removes {e : Effect} (he : e ∈ es) {l : Label} (hremoves : e.Removes l)
    (hlack : ∀ d ∈ es, ¬ d.Adds l) : (applyAll es labels).has l = false := by
  obtain ⟨front, rest, rfl⟩ := List.append_of_mem he
  rw [applyAll_append, applyAll_cons]
  have hgone : (applyTo (applyAll front labels) e).has l = false := by
    cases e with
    | removeLabel pr k =>
      obtain rfl : k = l := hremoves
      simp [applyTo]
    | _ => exact hremoves.elim
  refine Bool.eq_false_iff.2 fun hhas => ?_
  obtain ⟨d, hd, hadds⟩ := exists_adds_of_has_applyAll hgone hhas
  exact hlack d (by simp [hd]) hadds

/-- Only labels that are not there are added. -/
theorem Sparing.has_of_adds (h : Sparing labels es) {e : Effect} (he : e ∈ es) {l : Label}
    (hadds : e.Adds l) : labels.has l = false := by
  have hspares := h.spares e he
  cases e with
  | addLabels pr ls => exact hspares.2.2 l hadds
  | _ => exact hadds.elim

/-- Only labels that are there are removed. -/
theorem Sparing.has_of_removes (h : Sparing labels es) {e : Effect} (he : e ∈ es) {l : Label}
    (hremoves : e.Removes l) : labels.has l = true := by
  have hspares := h.spares e he
  cases e with
  | removeLabel pr k =>
    obtain rfl : k = l := hremoves
    exact hspares
  | _ => exact hremoves.elim

/-- Sparing effects add exactly the labels that are there afterwards and were not before. -/
theorem Sparing.exists_adds_iff (h : Sparing labels es) (l : Label) :
    (∃ e ∈ es, e.Adds l) ↔ labels.has l = false ∧ (applyAll es labels).has l = true := by
  constructor
  · rintro ⟨e, he, hadds⟩
    have hlack := h.has_of_adds he hadds
    refine ⟨hlack, has_applyAll_of_adds he hadds fun d hd hremoves => ?_⟩
    exact absurd (hlack.symm.trans (h.has_of_removes hd hremoves)) Bool.false_ne_true
  · rintro ⟨hlack, hhas⟩
    exact exists_adds_of_has_applyAll hlack hhas

/-- Sparing effects remove exactly the labels that were there before and are not afterwards. -/
theorem Sparing.exists_removes_iff (h : Sparing labels es) (l : Label) :
    (∃ e ∈ es, e.Removes l) ↔ labels.has l = true ∧ (applyAll es labels).has l = false := by
  constructor
  · rintro ⟨e, he, hremoves⟩
    have hhas := h.has_of_removes he hremoves
    refine ⟨hhas, has_applyAll_of_removes he hremoves fun d hd hadds => ?_⟩
    exact absurd ((h.has_of_adds hd hadds).symm.trans hhas) Bool.false_ne_true
  · rintro ⟨hhas, hgone⟩
    refine Classical.byContradiction fun hnone => ?_
    have hstays := has_applyAll_of_has (fun e he hremoves => hnone ⟨e, he, hremoves⟩) hhas
    exact absurd (hgone.symm.trans hstays) Bool.false_ne_true

end Effect

/-! ## The gate -/

/-- A plan is sparing for the labels that it was made for. -/
theorem Plan.sparing_effects (desired current : LabelSet) (pr : PrNumber) :
    Effect.Sparing current ((between desired current).effects pr) := by
  have hadd : Effect.Sparing current (if (between desired current).toAdd.isEmpty then []
      else [.addLabels pr (between desired current).toAdd]) := by
    split
    · exact Effect.sparing_nil current
    · rename_i hsome
      exact Effect.sparing_singleton ⟨fun hnone => hsome (List.isEmpty_iff.2 hnone),
        ascending_toAdd _ _, fun l hl => (mem_toAdd.1 hl).2.2⟩
  have hremove : Effect.Sparing current ((between desired current).toRemove.map (.removeLabel pr)) := by
    constructor
    · intro e he
      obtain ⟨l, hl, rfl⟩ := List.mem_map.1 he
      exact (mem_toRemove.1 hl).2.1
    · have honce := (ascending_toRemove desired current).nodup
      refine List.pairwise_map.2 (honce.imp fun {a b} hne l ha hb => ?_)
      rw [List.mem_singleton.1 ha] at hb
      exact hne (List.mem_singleton.1 hb)
  refine hadd.append hremove fun d hd e he l hadds hremoves => ?_
  split at hd
  · cases hd
  · obtain rfl := List.mem_singleton.1 hd
    obtain ⟨k, hk, rfl⟩ := List.mem_map.1 he
    obtain rfl := List.mem_singleton.1 hremoves
    -- what is added is desired, and what is removed is not
    have hdesired := (mem_toAdd.1 hadds).2.1
    exact absurd (hdesired.symm.trans (mem_toRemove.1 hk).2.2) (by decide)

namespace Gate

variable {analyzer : Analyzer} {policy : Policy} {event : PullRequestEvent}

/-- What follows from a report is sparing. -/
theorem sparing_reportEffects (event : PullRequestEvent) (report : Report) :
    Effect.Sparing event.pr.labels (reportEffects event report) := by
  unfold reportEffects
  dsimp only
  have hunnamed {c : Prop} [Decidable c] {body : String} :
      ∀ e ∈ (if c then [Effect.postComment event.pr.number body] else []),
        e.Spares event.pr.labels ∧ e.named = [] := by
    intro e he
    split at he
    · obtain rfl := List.mem_singleton.1 he
      exact ⟨trivial, rfl⟩
    · cases he
  refine (Effect.sparing_of_named_eq_nil hunnamed).append (Plan.sparing_effects _ _ _) ?_
  intro d hd e _ l hl
  rw [(hunnamed d hd).2] at hl
  cases hl

theorem sparing_defaultEffects (event : PullRequestEvent) (requirements : LabelSet) :
    Effect.Sparing event.pr.labels (defaultEffects event requirements) := by
  unfold defaultEffects
  split
  · rename_i hcond
    have hlack : event.pr.labels.has .awaitingReview = false := by simpa using hcond.2.2
    refine Effect.sparing_singleton ⟨by simp, List.pairwise_singleton _ _, ?_⟩
    simpa using hlack
  · exact Effect.sparing_nil _

theorem Rejection.sparing_effects (r : Rejection) {pr : Snapshot}
    (hlack : pr.labels.has .invalid = false) :
    Effect.Sparing pr.labels (r.effects policy pr) := by
  have hall : Effect.Sparing pr.labels [.postComment pr.number (r.comment policy pr),
      .addLabels pr.number [.invalid], .closePr pr.number,
      .unassignReviewers pr.number pr.reviewers] := by
    constructor
    · simp [Effect.Spares, Label.Ascending, hlack]
    · simp [Effect.named]
  refine hall.of_sublist ?_
  unfold effects
  split <;> split <;> simp

/-- The writes of a verdict are sparing for the labels that the gate was shown. -/
theorem Verdict.sparing_writes {v : Verdict} {ys : Transcript}
    (h : (judge analyzer policy event).Plays ys (.ok v)) :
    Effect.Sparing event.pr.labels (v.writes policy event) := by
  rcases judged_of_plays h with ⟨-, rfl, -⟩ | ⟨hsettled, -⟩
  · exact Effect.sparing_nil _
  · cases v with
    | turnAway r =>
      rw [Snapshot.isSettled, LabelSet.isTerminal_eq] at hsettled
      exact r.sparing_effects hsettled
    | analyzed report =>
      refine (sparing_reportEffects event report).append (sparing_defaultEffects event _) ?_
      intro d hd e he l hl hl'
      obtain ⟨-, -, rfl⟩ := mem_defaultEffects he
      obtain rfl := List.mem_singleton.1 hl'
      -- a report asks for requirements only
      obtain ⟨hadd, hremove⟩ := footprint_reportEffects hd .awaitingReview
      rcases Effect.mem_named.1 hl with hadds | hremoves
      · exact absurd (hadd hadds) (by decide)
      · exact absurd (hremove hremoves) (by decide)
    | _ => exact Effect.sparing_nil _

end Gate

/-! ## The upkeep -/

namespace Upkeep

/-- To add a label is sparing where it is not there. -/
theorem sparing_add {pr : Snapshot} {l : Label} (hlack : pr.labels.has l = false) :
    Effect.Sparing pr.labels [add pr l] :=
  Effect.sparing_singleton ⟨by simp, List.pairwise_singleton _ _, by simpa using hlack⟩

/-- To remove a label if it is there is sparing. -/
theorem sparing_removeIfThere (pr : Snapshot) (l : Label) :
    Effect.Sparing pr.labels (removeIfThere pr l) := by
  unfold removeIfThere
  split
  · rename_i hhas
    exact Effect.sparing_singleton hhas
  · exact Effect.sparing_nil _

/-- What follows from checks is sparing. -/
theorem sparing_failingChecks (pr : Snapshot) (runs : List CheckRun) :
    Effect.Sparing pr.labels (failingChecks pr runs) := by
  unfold failingChecks
  split
  · rename_i hcond
    refine sparing_add ?_
    simpa using (Bool.and_eq_true_iff.1 hcond).2
  · exact Effect.sparing_nil _

theorem sparing_manualLabel (event : PullRequestEvent) :
    Effect.Sparing event.pr.labels (manualLabel event) := by
  unfold manualLabel
  dsimp only
  split
  · exact Effect.sparing_nil _
  · split
    · exact Effect.sparing_nil _
    · split
      · split
        · exact sparing_removeIfThere _ _
        · exact Effect.sparing_nil _
      · split
        · rename_i hcond
          refine sparing_add ?_
          simpa using (Bool.and_eq_true_iff.1 hcond).2
        · exact Effect.sparing_nil _
      · exact Effect.sparing_nil _

theorem sparing_review (event : ReviewEvent) :
    Effect.Sparing event.pr.labels (review event) := by
  -- what comes before `awaiting review` goes is about another label
  have before_awaits {es : List Effect} (hes : Effect.Sparing event.pr.labels es)
      (hnamed : ∀ e ∈ es, e.named = [.changesRequested]) :
      Effect.Sparing event.pr.labels (es ++ removeIfThere event.pr .awaitingReview) := by
    refine hes.append (sparing_removeIfThere _ _) fun d hd e he l hl hl' => ?_
    rw [hnamed d hd] at hl
    rw [mem_removeIfThere he] at hl'
    cases (List.mem_singleton.1 hl).symm.trans (List.mem_singleton.1 hl')
  unfold review
  dsimp only
  split
  · split
    · split
      · exact Effect.sparing_nil _
      · rename_i hlack
        refine before_awaits (sparing_add (by simpa using hlack)) ?_
        simp [add, Effect.named]
    · refine before_awaits (sparing_removeIfThere _ _) fun e he => ?_
      rw [mem_removeIfThere he]
      rfl
    · exact Effect.sparing_nil _
  · exact Effect.sparing_nil _

end Upkeep

/-! ## All handlers -/

variable {analyzer : Analyzer} {policy : Policy}

/-- Whatever a handler asks for is sparing for the labels that it was shown. -/
theorem Handler.Asks.sparing {h : Handler} {event : Event} {ws : List Effect}
    (hasks : h.Asks analyzer policy event ws) : Effect.Sparing event.pr.labels ws := by
  cases h <;> cases event
  case gateKeeper.pullRequest e =>
    obtain ⟨ys, v, hjudge, rfl⟩ := hasks.exists_verdict
    exact Gate.Verdict.sparing_writes hjudge
  case failingChecks.pullRequest e =>
    obtain ⟨xs, hturn⟩ := hasks
    simp only [turn] at hturn
    split at hturn
    · obtain ⟨-, hws⟩ := Program.plays_done_iff.1 hturn
      cases hws
      exact Effect.sparing_nil _
    · obtain ⟨ys, runs, zs, -, hend, -⟩ := Program.Plays.of_bind_ok hturn
      obtain ⟨-, hws⟩ := Program.plays_done_iff.1 hend
      cases hws
      exact Upkeep.sparing_failingChecks e.pr runs
  case manualLabel.pullRequest e =>
    rw [hasks.eq_manualLabel]
    exact Upkeep.sparing_manualLabel e
  case reviewState.review e =>
    rw [hasks.eq_review]
    exact Upkeep.sparing_review e
  -- what is left are handlers of the other kind of event
  all_goals
    have hnone : ws = [] := hasks.eq_of_turn rfl
    rw [hnone]
    exact Effect.sparing_nil _

/-- Whatever a handler's run records is so, however it ends. -/
theorem Handler.Records.sparing {h : Handler} {event : Event} {es : List Effect}
    {res : Except Failure Unit} (hrec : h.Records analyzer policy event es res) :
    Effect.Sparing event.pr.labels es := by
  cases hrec with
  | unread hreads => exact Effect.sparing_of_reads hreads
  | @asked reads ws done _ hreads hasks hdone _ =>
    refine (Effect.sparing_of_reads hreads).append (hasks.sparing.of_sublist hdone.sublist) ?_
    intro d hd e _ l hl
    exact absurd ((hreads d hd).symm.trans (Effect.isWrite_of_mem_named hl)) Bool.false_ne_true

/-- A label that an effect of a handler names is one that the handler touches. -/
theorem Handler.touches_of_mem_named {h : Handler} {event : Event} {ws : List Effect}
    (hasks : h.Asks analyzer policy event ws) {e : Effect} (he : e ∈ ws) {l : Label}
    (hl : l ∈ e.named) : h.touches l = true := by
  obtain ⟨hadd, hremove⟩ := Handler.footprint hasks he l
  rcases Effect.mem_named.1 hl with hadds | hremoves
  · simp [touches, hadd hadds]
  · simp [touches, hremove hremoves]

/-- Handlers in a row are sparing if no two of them have a label in common. -/
theorem sparing_of_plays_runHandlers {event : Event} {hs : List Handler}
    (hapart : hs.Pairwise Handler.Apart) {xs : Transcript} {res : Except Failure Unit}
    (hp : (runHandlers analyzer policy event hs).Plays xs res) :
    Effect.Sparing event.pr.labels xs.effects := by
  induction hs generalizing xs with
  | nil =>
    obtain ⟨rfl, -⟩ := Program.plays_done_iff.1 hp
    exact Effect.sparing_nil _
  | cons h hs ih =>
    obtain ⟨hfirst, hrest⟩ := List.pairwise_cons.1 hapart
    rcases Program.Plays.of_bind hp with ⟨_, hone, -⟩ | ⟨ys, _, zs, hone, hmore, rfl⟩
    · exact (Handler.records_of_plays hone).sparing
    · have hrec := Handler.records_of_plays hone
      rw [Transcript.effects_append]
      refine hrec.sparing.append (ih hrest hmore) fun d hd e he l hl hl' => ?_
      obtain ⟨ws, hasks, hmem⟩ := hrec.exists_asks hd (Effect.isWrite_of_mem_named hl)
      obtain ⟨k, hk, vs, hasks', hmem'⟩ :=
        exists_asks_of_plays_runHandlers hmore he (Effect.isWrite_of_mem_named hl')
      have htouches := Handler.touches_of_mem_named hasks hmem hl
      have htouches' := Handler.touches_of_mem_named hasks' hmem' hl'
      rcases hfirst k hk l with hnot | hnot
      · exact absurd (hnot.symm.trans htouches) Bool.false_ne_true
      · exact absurd (hnot.symm.trans htouches') Bool.false_ne_true

/-- All that is recorded for an event is sparing for the labels that the event shows. -/
theorem sparing_of_plays_dispatch {event : Event} {xs : Transcript} {res : Except Failure Handling}
    (hp : (dispatch analyzer policy event).Plays xs res) :
    Effect.Sparing event.pr.labels xs.effects := by
  obtain ⟨_, hp, -, -⟩ := runHandlers_of_plays hp
  exact sparing_of_plays_runHandlers event.pairwise_apart_handlers hp

/-- **No change of labels is wasted.** Of all that is recorded for an event, every addition is of some
labels, in their order, none of which was there; every removal is of a label that was there; and no
label is named by two effects. So when nothing fails, the labels that are added are exactly those that
are there afterwards and were not before, and the labels that are removed are exactly those that were
there before and are not afterwards. -/
theorem label_changes_not_wasted {σ : Type} (analyzer : Analyzer) (policy : Policy) (event : Event)
    (host : Host σ) (s : σ) :
    let es := ((dispatch analyzer policy event).run host s).1.effects
    let before := event.pr.labels
    let after := Effect.applyAll es before
    (∀ pr ls, .addLabels pr ls ∈ es → ls ≠ [] ∧ (ls.Pairwise fun a b => a.rank < b.rank) ∧
      ∀ l ∈ ls, before.has l = false) ∧
    (∀ pr l, .removeLabel pr l ∈ es → before.has l = true) ∧
    (es.Pairwise fun d e => ∀ l ∈ d.named, l ∉ e.named) ∧
    (∀ l, (∃ pr ls, .addLabels pr ls ∈ es ∧ l ∈ ls) ↔
      before.has l = false ∧ after.has l = true) ∧
    ∀ l, (∃ pr, .removeLabel pr l ∈ es) ↔ before.has l = true ∧ after.has l = false := by
  intro es before after
  have hsparing : Effect.Sparing before es := by
    have hplays := Program.plays_run host (dispatch analyzer policy event) s
    have heffects : es = _ := Program.effects_run host _ s
    rw [heffects]
    exact sparing_of_plays_dispatch hplays
  refine ⟨fun pr ls h => hsparing.spares _ h, fun pr l h => hsparing.spares _ h, hsparing.apart,
    fun l => ?_, fun l => ?_⟩
  · rw [← hsparing.exists_adds_iff l]
    constructor
    · rintro ⟨pr, ls, hmem, hl⟩
      exact ⟨_, hmem, hl⟩
    · rintro ⟨e, he, hadds⟩
      cases e with
      | addLabels pr ls => exact ⟨pr, ls, he, hadds⟩
      | _ => exact hadds.elim
  · rw [← hsparing.exists_removes_iff l]
    constructor
    · rintro ⟨pr, hmem⟩
      exact ⟨_, hmem, rfl⟩
    · rintro ⟨e, he, hremoves⟩
      cases e with
      | removeLabel pr k =>
        obtain rfl : k = l := hremoves
        exact ⟨pr, he⟩
      | _ => exact hremoves.elim

end PullGate
