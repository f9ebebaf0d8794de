import PullGate.Gate
import PullGate.Upkeep
/-!
# Dispatch

Which handlers an event is for, and what they do, one after another.
-/

namespace PullGate

open PullGate.Compliance (Analyzer)

/-- What takes care of an event. -/
inductive Handler where
  | gateKeeper
  | failingChecks
  | manualLabel
  | reviewState
  deriving DecidableEq, Repr

/-- The name of the handler. -/
def Handler.name : Handler → String
  | gateKeeper => "gate_keeper"
  | failingChecks => "failing_checks"
  | manualLabel => "manual_label"
  | reviewState => "review_state"

/-- The handlers for what happened to a pull request, in their order. -/
def Action.handlers : Action → List Handler
  | opened | synchronize => [.gateKeeper]
  | readyForReview => [.failingChecks, .gateKeeper]
  | labeled | unlabeled => [.manualLabel]
  | _ => []

/-- The handlers for what happened to a review, in their order. -/
def ReviewAction.handlers : ReviewAction → List Handler
  | submitted => [.reviewState]
  | _ => []

/-- The handlers for an event, in their order. -/
def Event.handlers : Event → List Handler
  | pullRequest e => e.action.handlers
  | review e => e.action.handlers

/-- What was done with an event. -/
inductive Handling where
  /-- There is no handler for it. -/
  | ignored
  /-- All its handlers came to their ends. -/
  | handled
  deriving DecidableEq, Repr

section

variable (analyzer : Analyzer) (policy : Policy)

/-- A handler's program for an event. A handler for another kind of event does nothing. -/
def Handler.program : Handler → Event → Program Unit
  | gateKeeper, .pullRequest e => do
    let _ ← Gate.run analyzer policy e
  | failingChecks, .pullRequest e => Upkeep.checks e
  | manualLabel, .pullRequest e => Program.performAll (Upkeep.manualLabel e)
  | reviewState, .review e => Program.performAll (Upkeep.review e)
  | _, _ => return ()

/-- Handlers one after another. -/
def runHandlers (event : Event) : List Handler → Program Unit
  | [] => return ()
  | h :: rest => do
    h.program analyzer policy event
    runHandlers event rest

/-- All that is done for an event. -/
def dispatch (event : Event) : Program Handling :=
  match event.handlers with
  | [] => return .ignored
  | handlers => do
    runHandlers analyzer policy event handlers
    return .handled

end

end PullGate
