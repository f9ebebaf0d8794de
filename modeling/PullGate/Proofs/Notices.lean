import Mathlib.Data.Multiset.AddSub
import Mathlib.Data.List.Dedup
import Mathlib.Logic.Relation
import PullGate.Proofs.AwaitingReview
/-!
# Notices of changed labels

Every change of a label is delivered too, sooner or later. The gate counts on this: when it adds a
requirement it leaves `awaiting review` where it is, and removes it only on notice of the
requirement. Here a pull request is followed over any number of steps, with the notices that are
still to come. `Step` says what can happen, `Standing.Watched` is what every step preserves: as long
as a pull request waits for review beside a label that keeps it from review, the notice of such a
label is still to come.
-/

namespace PullGate

open PullGate.Compliance (Analyzer)

/-! ## Notices -/

/-- The notice that a label with this name was added or removed, which need not be one of the
gate's. -/
inductive Notice where
  | labeled (name : String)
  | unlabeled (name : String)
  deriving DecidableEq, Repr

namespace Notice

/-- The name of the label. -/
def name : Notice → String
  | labeled name | unlabeled name => name

/-- What happened to the label. -/
def action : Notice → Action
  | labeled _ => .labeled
  | unlabeled _ => .unlabeled

end Notice

/-- The notices that an effect gives rise to: of the labels that were not there and are added, and
of a label that was there and is removed. -/
def Effect.notices (labels : LabelSet) : Effect → Multiset Notice
  | addLabels _ ls => (ls.dedup.filter fun l => !labels.has l).map fun l => Notice.labeled l.name
  | removeLabel _ l => if labels.has l then {.unlabeled l.name} else 0
  | _ => 0

/-! ## Steps -/

/-- Where a pull request stands: its labels, whether it is a draft, and the notices to come. -/
structure Standing where
  labels : LabelSet
  draft : Bool
  pending : Multiset Notice

namespace Standing

/-- What an effect changes. -/
def take (s : Standing) (e : Effect) : Standing where
  labels := e.applyTo s.labels
  draft := s.draft
  pending := s.pending + e.notices s.labels

/-- What several effects change, one after another. -/
def takeAll (s : Standing) (es : List Effect) : Standing := es.foldl take s

end Standing

/-- What happens to a pull request besides changes of labels: it is opened without changes
requested, pushed to, made ready, or reviewed. -/
inductive Event.Occasion : Event → Prop
  | opened {e : PullRequestEvent} (haction : e.action = .opened)
      (hchanges : e.pr.labels.has .changesRequested = false) : Occasion (.pullRequest e)
  | synchronize {e : PullRequestEvent} (haction : e.action = .synchronize) :
      Occasion (.pullRequest e)
  | readyForReview {e : PullRequestEvent} (haction : e.action = .readyForReview) :
      Occasion (.pullRequest e)
  | submitted {e : ReviewEvent} (haction : e.action = .submitted) : Occasion (.review e)

/-- An event is handled without a failure, with these effects. The delivery shows the pull request
as it stands. -/
inductive Standing.Handles (s : Standing) (event : Event) : List Effect → Prop
  | mk {σ : Type} (host : Host σ) (state : σ) (analyzer : Analyzer) (policy : Policy)
      (hlabels : event.pr.labels = s.labels) (hdraft : event.pr.draft = s.draft) {d : Handling}
      (hok : ((dispatch analyzer policy event).run host state).1.result = .ok d) :
      Handles s event ((dispatch analyzer policy event).run host state).1.effects

/-- What can happen to a pull request. -/
inductive Standing.Step (s : Standing) : Standing → Prop
  /-- Something besides a change of a label happens, and is handled. -/
  | occasion {event : Event} {es : List Effect} (hoccasion : event.Occasion)
      (hhandles : s.Handles event es) : Step s (s.takeAll es)
  /-- One of the notices comes, and is handled. -/
  | notice {n : Notice} {pending : Multiset Notice} {event : PullRequestEvent} {es : List Effect}
      (hpending : s.pending = n ::ₘ pending) (haction : event.action = n.action)
      (hname : event.label = some n.name)
      (hhandles : ({ s with pending } : Standing).Handles (.pullRequest event) es) :
      Step s (({ s with pending } : Standing).takeAll es)
  /-- Someone adds a label, but not `awaiting review`. -/
  | label {pr : PrNumber} {l : Label} (hl : l ≠ .awaitingReview) :
      Step s (s.take (.addLabels pr [l]))
  /-- Someone removes a label, but not the mark. -/
  | unlabel {pr : PrNumber} {l : Label} (hl : l ≠ .invalid) : Step s (s.take (.removeLabel pr l))
  /-- Someone adds or removes a label that is not one of the gate's. -/
  | other {n : Notice} (hother : Label.ofName? n.name = none) :
      Step s { s with pending := n ::ₘ s.pending }
  /-- Someone makes the pull request a draft, or makes it ready. -/
  | draft (draft : Bool) : Step s { s with draft }

/-- What can become of a pull request in any number of steps. -/
abbrev Standing.Reaches : Standing → Standing → Prop := Relation.ReflTransGen Standing.Step

/-! ## What effects do to a standing -/

namespace Standing

/-- Effects that are taken one by one change the labels as they do together. -/
@[simp] theorem labels_takeAll (s : Standing) (es : List Effect) :
    (s.takeAll es).labels = Effect.applyAll es s.labels := by
  induction es generalizing s with
  | nil => rfl
  | cons e es ih => exact ih (s.take e)

/-- No notice is lost. -/
theorem pending_le_takeAll (s : Standing) (es : List Effect) :
    s.pending ≤ (s.takeAll es).pending := by
  induction es generalizing s with
  | nil => exact le_rfl
  | cons e es ih => exact (Multiset.le_add_right _ _).trans (ih (s.take e))

/-- A label that an effect adds is announced if it was not there. -/
theorem labeled_mem_notices {labels : LabelSet} {e : Effect} {l : Label} (hadds : e.Adds l)
    (hold : labels.has l = false) : Notice.labeled l.name ∈ e.notices labels := by
  cases e with
  | addLabels pr ls =>
    refine List.mem_map.2 ⟨l, List.mem_filter.2 ⟨List.mem_dedup.2 hadds, ?_⟩, rfl⟩
    rw [hold]
    rfl
  | _ => exact hadds.elim

/-- A label that is new after some effects is announced. -/
theorem labeled_mem_pending {s : Standing} {es : List Effect} {l : Label}
    (hold : s.labels.has l = false) (hnew : (s.takeAll es).labels.has l = true) :
    Notice.labeled l.name ∈ (s.takeAll es).pending := by
  induction es generalizing s with
  | nil => exact absurd (hold.symm.trans hnew) Bool.false_ne_true
  | cons e es ih =>
    -- the label is announced with the first effect after which it is there
    rcases hnext : (s.take e).labels.has l with _ | _
    · exact ih hnext hnew
    · have hnotice : Notice.labeled l.name ∈ (s.take e).pending :=
        Multiset.mem_add.2 (.inr (labeled_mem_notices (Effect.adds_of_has_applyTo hold hnext) hold))
      exact Multiset.mem_of_le (pending_le_takeAll _ es) hnotice

/-! ## The invariant -/

/-- The pull request waits for review beside a label that keeps it from review, and was not turned
away. -/
structure Conflicted (s : Standing) : Prop where
  awaits : s.labels.has .awaitingReview = true
  blocked : s.labels.blocksReview = true
  valid : s.labels.has .invalid = false

/-- The notice of a label that keeps the pull request from review is still to come. -/
def Warned (s : Standing) : Prop :=
  ∃ l : Label, l.blocksReview = true ∧ Notice.labeled l.name ∈ s.pending

/-- A pull request that waits beside a label that keeps it from review has a notice to come. -/
def Watched (s : Standing) : Prop := s.Conflicted → s.Warned

/-- More pending notices warn as well. -/
theorem Warned.mono {s t : Standing} (h : s.Warned) (hpending : s.pending ≤ t.pending) :
    t.Warned := by
  obtain ⟨l, hl, hmem⟩ := h
  exact ⟨l, hl, Multiset.mem_of_le hpending hmem⟩

/-- Effects that never take the mark away, and bring `awaiting review` only where nothing keeps the
pull request from review, make a conflict only with a notice to come. -/
theorem conflicted_or_warned_of_takeAll {s : Standing} {es : List Effect}
    (hmark : ∀ e ∈ es, ¬ e.Removes .invalid)
    (hbegins : ∀ e ∈ es, e.Adds .awaitingReview → (s.takeAll es).labels.blocksReview = false)
    (h : (s.takeAll es).Conflicted) : s.Conflicted ∨ (s.takeAll es).Warned := by
  have hvalid : s.labels.has .invalid = false := by
    refine Bool.eq_false_iff.2 fun hinvalid => ?_
    have hstill := Effect.has_applyAll_of_has hmark hinvalid
    rw [← labels_takeAll] at hstill
    exact absurd (hstill.symm.trans h.valid) (by decide)
  have hawaits : s.labels.has .awaitingReview = true := by
    rcases hold : s.labels.has .awaitingReview with _ | _
    · have hnew := h.awaits
      rw [labels_takeAll] at hnew
      obtain ⟨e, he, hadds⟩ := Effect.exists_adds_of_has_applyAll hold hnew
      exact absurd (h.blocked.symm.trans (hbegins e he hadds)) (by decide)
    · rfl
  -- the label in the way is new, and announced, or was in the way before
  obtain ⟨l, hl, hblocks⟩ := LabelSet.blocksReview_iff.1 h.blocked
  rcases hold : s.labels.has l with _ | _
  · exact .inr ⟨l, hblocks, labeled_mem_pending hold hl⟩
  · exact .inl ⟨hawaits, LabelSet.blocksReview_iff.2 ⟨l, hold, hblocks⟩, hvalid⟩

/-- Such effects keep a pull request watched. -/
theorem Watched.takeAll {s : Standing} {es : List Effect} (hs : s.Watched)
    (hmark : ∀ e ∈ es, ¬ e.Removes .invalid)
    (hbegins : ∀ e ∈ es, e.Adds .awaitingReview → (s.takeAll es).labels.blocksReview = false) :
    (s.takeAll es).Watched := by
  intro h
  rcases conflicted_or_warned_of_takeAll hmark hbegins h with hconflicted | hwarned
  · exact (hs hconflicted).mono (pending_le_takeAll s es)
  · exact hwarned

/-! ## Events -/

/-- No event that is handled takes the mark away. -/
theorem Handles.not_removes_invalid {s : Standing} {event : Event} {es : List Effect}
    (h : s.Handles event es) : ∀ e ∈ es, ¬ e.Removes .invalid := by
  obtain ⟨host, state, analyzer, policy, -, -, -⟩ := h
  rw [Program.effects_run]
  exact not_removes_invalid_of_plays (Program.plays_run host _ state)

/-- An event brings `awaiting review` only where nothing keeps the pull request from review, unless
it opens a pull request with changes requested. -/
theorem Handles.blocksReview_eq_false {s : Standing} {event : Event} {es : List Effect}
    (h : s.Handles event es)
    (hopened : ∀ e, event = .pullRequest e → e.action = .opened →
      e.pr.labels.has .changesRequested = false) :
    ∀ e ∈ es, e.Adds .awaitingReview → (s.takeAll es).labels.blocksReview = false := by
  obtain ⟨host, state, analyzer, policy, hlabels, -, -⟩ := h
  intro e he hadds
  rw [labels_takeAll, ← hlabels]
  rw [Program.effects_run] at he ⊢
  have hbegins := beginsWaiting_of_plays (Program.plays_run host _ state) he hadds
  rw [hbegins.blocksReview_eq]
  refine Bool.eq_false_iff.2 fun hchanges => ?_
  obtain ⟨event, rfl, haction⟩ := hbegins.opened hchanges
  exact absurd (hchanges.symm.trans (hopened event rfl haction)) (by decide)

/-- On notice of a label that keeps the pull request from review, `awaiting review` goes. -/
theorem Handles.not_awaits_of_labeled {s : Standing} {event : PullRequestEvent} {es : List Effect}
    {l : Label} (h : s.Handles (.pullRequest event) es) (hvalid : s.labels.has .invalid = false)
    (haction : event.action = .labeled) (hname : event.label = some l.name)
    (hl : l.blocksReview = true) : (s.takeAll es).labels.has .awaitingReview = false := by
  obtain ⟨host, state, analyzer, policy, hlabels, -, hok⟩ := h
  have hone : (Event.pullRequest event).handlers = [.manualLabel] := by
    rw [Event.handlers, haction]
    rfl
  have hplays := Program.plays_run host (dispatch analyzer policy (.pullRequest event)) state
  rw [hok] at hplays
  obtain ⟨reads, ws, hall, hreads, hasks⟩ := exists_asks_of_plays_ok hone hplays
  have hpr : event.pr.labels = s.labels := hlabels
  have hws : ws = Upkeep.removeIfThere event.pr .awaitingReview := by
    rw [hasks.eq_manualLabel]
    simp [Upkeep.manualLabel, Snapshot.isSettled, LabelSet.isTerminal_eq, hpr, hvalid, haction,
      hname, hl]
  rw [labels_takeAll, Program.effects_run, hall, Effect.applyAll_append,
    Effect.applyAll_of_reads hreads, hws, ← hpr, Upkeep.removeIfThere]
  split
  · simp [Upkeep.remove, Effect.applyTo]
  · rename_i hnot
    exact Bool.eq_false_iff.2 hnot

/-! ## Runs -/

/-- Occasions keep a pull request watched. -/
theorem Watched.occasion {s : Standing} {event : Event} {es : List Effect} (hs : s.Watched)
    (hoccasion : event.Occasion) (hhandles : s.Handles event es) : (s.takeAll es).Watched := by
  refine hs.takeAll hhandles.not_removes_invalid (hhandles.blocksReview_eq_false ?_)
  rintro e rfl haction
  cases hoccasion with
  | opened _ hchanges => exact hchanges
  | synchronize hother => exact absurd (haction.symm.trans hother) (by decide)
  | readyForReview hother => exact absurd (haction.symm.trans hother) (by decide)

/-- The notice that comes is handled: if it was the one that the conflict was waiting for, the conflict
is over, and otherwise that one is still to come. -/
theorem Watched.notice {s : Standing} {n : Notice} {pending : Multiset Notice} {event : PullRequestEvent}
    {es : List Effect} (hs : s.Watched) (hpending : s.pending = n ::ₘ pending)
    (haction : event.action = n.action) (hname : event.label = some n.name)
    (hhandles : ({ s with pending } : Standing).Handles (.pullRequest event) es) :
    (({ s with pending } : Standing).takeAll es).Watched := by
  have hopened : ∀ e, Event.pullRequest event = .pullRequest e → e.action = .opened →
      e.pr.labels.has .changesRequested = false := by
    rintro e ⟨⟩ hopened
    rw [haction] at hopened
    cases n <;> cases hopened
  intro h
  rcases conflicted_or_warned_of_takeAll hhandles.not_removes_invalid
    (hhandles.blocksReview_eq_false hopened) h with hconflicted | hwarned
  · obtain ⟨l, hl, hmem⟩ := hs ⟨hconflicted.awaits, hconflicted.blocked, hconflicted.valid⟩
    rw [hpending] at hmem
    rcases Multiset.mem_cons.1 hmem with rfl | hmem
    · have hgone := hhandles.not_awaits_of_labeled hconflicted.valid haction hname hl
      exact absurd (h.awaits.symm.trans hgone) (by decide)
    · exact Warned.mono ⟨l, hl, hmem⟩ (pending_le_takeAll _ es)
  · exact hwarned

/-- What someone does to labels keeps a pull request watched, unless it adds `awaiting review` or takes
the mark away. -/
theorem Watched.take {s : Standing} {e : Effect} (hs : s.Watched) (hmark : ¬ e.Removes .invalid)
    (hadds : ¬ e.Adds .awaitingReview) : (s.take e).Watched := by
  suffices hall : (s.takeAll [e]).Watched from hall
  refine hs.takeAll (fun e' he => ?_) (fun e' he h => ?_)
  · rwa [List.mem_singleton.1 he]
  · rw [List.mem_singleton.1 he] at h
    exact absurd h hadds

/-- Every step keeps a pull request watched. -/
theorem Step.watched {s t : Standing} (h : s.Step t) (hs : s.Watched) : t.Watched := by
  cases h with
  | occasion hoccasion hhandles => exact hs.occasion hoccasion hhandles
  | notice hpending haction hname hhandles => exact hs.notice hpending haction hname hhandles
  | label hl =>
    refine hs.take id fun hadds => ?_
    rw [Effect.adds_addLabels, List.mem_singleton] at hadds
    exact hl hadds.symm
  | unlabel hl => exact hs.take hl id
  | other _ =>
    intro h
    exact (hs ⟨h.awaits, h.blocked, h.valid⟩).mono (Multiset.le_cons_self _ _)
  | draft =>
    intro h
    exact (hs ⟨h.awaits, h.blocked, h.valid⟩).mono le_rfl

/-- Any number of steps keeps a pull request watched. -/
theorem Reaches.watched {s t : Standing} (h : s.Reaches t) (hs : s.Watched) : t.Watched := by
  induction h with
  | refl => exact hs
  | tail _ hstep ih => exact hstep.watched ih

/-- **A pull request that waits beside a label that keeps it from review is watched.** If it does
not start in such a conflict, then at every point of every run, as long as it is in one and was not
turned away, the notice of a label that keeps it from review is still to come. When no notice is to
come, there is no conflict. -/
theorem exists_notice_of_conflict {start now : Standing} (hrun : start.Reaches now)
    (hstart : ¬ (start.labels.has .awaitingReview = true ∧ start.labels.blocksReview = true)) :
    (now.labels.has .awaitingReview = true → now.labels.blocksReview = true →
      now.labels.has .invalid = false →
        ∃ l : Label, l.blocksReview = true ∧ Notice.labeled l.name ∈ now.pending) ∧
    (now.pending = 0 → now.labels.has .invalid = false →
      ¬ (now.labels.has .awaitingReview = true ∧ now.labels.blocksReview = true)) := by
  have hwatched : now.Watched := by
    refine Reaches.watched hrun ?_
    intro h
    exact absurd ⟨h.awaits, h.blocked⟩ hstart
  constructor
  · intro hawaits hblocked hvalid
    exact hwatched ⟨hawaits, hblocked, hvalid⟩
  · rintro hnone hvalid ⟨hawaits, hblocked⟩
    obtain ⟨l, -, hmem⟩ := hwatched ⟨hawaits, hblocked, hvalid⟩
    rw [hnone] at hmem
    exact Multiset.notMem_zero _ hmem

/-- A pull request is opened and begins to wait, and someone says that tests are required: it is in
a conflict, and there is a notice to come. -/
theorem exists_notice_of_conflict_opened :
    let start : Standing := ⟨∅, false, 0⟩
    let now := (start.takeAll [.listChangedFiles ⟨1⟩, .addLabels ⟨1⟩ [.awaitingReview]]).take
      (.addLabels ⟨1⟩ [.requireTests])
    start.Reaches now ∧
      ¬ (start.labels.has .awaitingReview = true ∧ start.labels.blocksReview = true) ∧
      now.Conflicted ∧
      ∃ l : Label, l.blocksReview = true ∧ Notice.labeled l.name ∈ now.pending := by
  intro start now
  have hopened : start.Handles (.pullRequest (.byOwner .opened none ∅))
      [.listChangedFiles ⟨1⟩, .addLabels ⟨1⟩ [.awaitingReview]] :=
    .mk Host.bare () (fun _ => .ok []) .standard rfl rfl rfl
  have hrun : start.Reaches now :=
    (Relation.ReflTransGen.single (Step.occasion (.opened rfl rfl) hopened)).tail
      (Step.label (by decide))
  have hstart : ¬ (start.labels.has .awaitingReview = true ∧ start.labels.blocksReview = true) := by
    decide
  exact ⟨hrun, hstart, ⟨rfl, rfl, rfl⟩, (exists_notice_of_conflict hrun hstart).1 rfl rfl rfl⟩

end Standing

end PullGate
