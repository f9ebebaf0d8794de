import PullGate.Proofs.Footprint
/-!
# Deliveries in a row

Nothing is kept between deliveries but the labels of the pull request: each delivery shows those
that the deliveries before it left. `Delivery.after` is one delivery, and `deliver` is any number of
them, with failures among them. The mark of pull requests that were turned away never goes, and once
it is there, the pull request is left alone for good.
-/

namespace PullGate

open PullGate.Compliance (Analyzer)

/-- One delivery: what happened, how it is judged, and who answers. -/
structure Delivery where
  event : Event
  policy : Policy
  analyzer : Analyzer
  State : Type
  host : Host State
  state : State
  /-- Whether an effect that was reported as failed has happened nevertheless. -/
  happened : Bool

namespace Delivery

/-- The record of the delivery, if the pull request has these labels. -/
def trace (d : Delivery) (labels : LabelSet) : Trace Handling :=
  ((dispatch d.analyzer d.policy (d.event.withLabels labels)).run d.host d.state).1

/-- The effects that have happened: all that were asked for, but for one that failed. -/
def effects (d : Delivery) (labels : LabelSet) : List Effect :=
  match (d.trace labels).result with
  | .error (.call _ _) =>
    if d.happened then (d.trace labels).effects else (d.trace labels).effects.dropLast
  | _ => (d.trace labels).effects

/-- The labels that the delivery leaves. -/
def after (d : Delivery) (labels : LabelSet) : LabelSet :=
  Effect.applyAll (d.effects labels) labels

end Delivery

/-- The labels that several deliveries leave, one after another. -/
def deliver (ds : List Delivery) (labels : LabelSet) : LabelSet :=
  ds.foldl (fun labels d => d.after labels) labels

@[simp] theorem deliver_cons (d : Delivery) (ds : List Delivery) (labels : LabelSet) :
    deliver (d :: ds) labels = deliver ds (d.after labels) := rfl

/-- Deliveries after others start with the labels that those left. -/
theorem deliver_append (ds es : List Delivery) (labels : LabelSet) :
    deliver (ds ++ es) labels = deliver es (deliver ds labels) :=
  List.foldl_append

/-! ## One delivery -/

/-- A delivery shows the labels that the pull request has. -/
@[simp] theorem Event.labels_withLabels (event : Event) (labels : LabelSet) :
    (event.withLabels labels).pr.labels = labels := by
  cases event <;> rfl

namespace Delivery

variable (d : Delivery) {labels : LabelSet}

/-- The record of a delivery is that of a run of all handlers. -/
theorem exists_plays (labels : LabelSet) : ∃ xs : Transcript,
    (dispatch d.analyzer d.policy (d.event.withLabels labels)).Plays xs (d.trace labels).result ∧
      (d.trace labels).effects = xs.effects :=
  ⟨_, Program.plays_run d.host _ d.state, Program.effects_run _ _ _⟩

/-- No delivery makes the mark go. -/
theorem not_removes_invalid : ∀ e ∈ (d.trace labels).effects, ¬ e.Removes .invalid := by
  obtain ⟨xs, hplays, heffects⟩ := d.exists_plays labels
  rw [heffects]
  exact not_removes_invalid_of_plays hplays

/-- A pull request that has the mark is left alone. -/
theorem trace_of_invalid (h : labels.has .invalid = true) :
    ∃ result, d.trace labels = ⟨[], .ok result⟩ := by
  have hsettled : (d.event.withLabels labels).pr.isSettled = true := by
    rw [Snapshot.isSettled, Event.labels_withLabels, LabelSet.isTerminal_eq, h]
  obtain ⟨result, hdone⟩ := dispatch_of_settled hsettled
  refine ⟨result, ?_⟩
  rw [trace, hdone]
  rfl

/-- A delivery for a pull request that was turned away changes no label. -/
theorem after_of_invalid (h : labels.has .invalid = true) : d.after labels = labels := by
  obtain ⟨result, htrace⟩ := d.trace_of_invalid h
  simp only [after, effects, htrace, Effect.applyAll_nil]

end Delivery

/-! ## Any number of deliveries -/

/-- Once the mark is there, no labels change any more. -/
theorem deliver_of_invalid (ds : List Delivery) {labels : LabelSet}
    (h : labels.has .invalid = true) : deliver ds labels = labels := by
  induction ds with
  | nil => rfl
  | cons d ds ih => rw [deliver_cons, d.after_of_invalid h, ih]

/-- **Turned away for good.** No delivery ever asks for the mark to be removed. From the first point
at which the mark is there, every delivery asks for nothing at all, comes to its end without a
failure, and leaves the labels as they were at that point. -/
theorem turned_away_for_good (ds : List Delivery) (labels : LabelSet) :
    (∀ before d after, ds = before ++ d :: after →
      ∀ n, .removeLabel n .invalid ∉ (d.trace (deliver before labels)).effects) ∧
    (∀ before between d after, ds = before ++ between ++ d :: after →
      (deliver before labels).has .invalid = true →
        (d.trace (deliver (before ++ between) labels)).effects = [] ∧
        (∃ result, (d.trace (deliver (before ++ between) labels)).result = .ok result) ∧
        deliver (before ++ between ++ [d]) labels = deliver before labels) := by
  constructor
  · intro before d after _ n hmem
    exact d.not_removes_invalid _ hmem rfl
  · intro before between d after _ hmarked
    -- between the first point with the mark and this delivery nothing has changed
    have hsame : deliver (before ++ between) labels = deliver before labels := by
      rw [deliver_append, deliver_of_invalid between hmarked]
    obtain ⟨result, htrace⟩ := d.trace_of_invalid hmarked
    rw [hsame, htrace]
    refine ⟨rfl, ⟨result, rfl⟩, ?_⟩
    rw [deliver_append, hsame, deliver_of_invalid [d] hmarked]

end PullGate
