import Mathlib.Data.Finset.Card
import Mathlib.Logic.Function.Basic
import Mathlib.Logic.Relation
import PullGate.Proofs.AwaitingReview
import PullGate.Proofs.Gate.OtherNumbers
/-!
# The cap on open pull requests

An author opens pull requests, and each opening is handled on its own: it searches for the author's
open pull requests, and closes its own one if there are too many others. Searches and closings of
different openings come in any order, so each may be decided on what is no longer so. `Openings` are
the pull requests of one author, `Step` is what can happen to them, and `Bounded` is what every step
preserves: all that are open, but for as many as the cap allows, are still held up at the cap
(`Held`). When all openings have been handled, none is held up any more.
-/

namespace PullGate

open PullGate.Compliance (Analyzer)

/-! ## Programs that close a pull request before they end -/

namespace Program

variable {α β : Type}

/-- The program does not come to an end without having closed the pull request. -/
def MustClose (n : PrNumber) : Program α → Prop
  | done _ => False
  | mismatch _ _ => True
  | call e next => e = .closePr n ∨ ∀ r, (next r).MustClose n

/-- A program that must close something does so whatever comes after it. -/
theorem MustClose.bind {n : PrNumber} {p : Program α} (h : p.MustClose n) (f : α → Program β) :
    (p.bind f).MustClose n := by
  induction p with
  | done a => exact h.elim
  | mismatch e r => trivial
  | call e next ih => exact h.imp_right fun hnext r => ih r (hnext r)

/-- Writes among which the closing is must close. -/
theorem mustClose_performAll {n : PrNumber} {ws : List Effect} (h : .closePr n ∈ ws) :
    (performAll ws).MustClose n := by
  induction ws with
  | nil => cases h
  | cons w ws ih =>
    rcases List.mem_cons.1 h with hw | h
    · exact .inl hw.symm
    · exact .inr fun _ => ih h

end Program

/-! ## The handling of an opening -/

section

variable {analyzer : Analyzer} {policy : Policy} {event : PullRequestEvent}

/-- An opening is judged, and then what follows is written. -/
theorem dispatch_of_opened (haction : event.action = .opened) :
    dispatch analyzer policy (.pullRequest event) =
      (Gate.judge analyzer policy event).bind fun v =>
        (Program.performAll (v.writes policy event)).bind fun _ => .done .handled := by
  have hhandlers : (Event.pullRequest event).handlers = [.gateKeeper] := by
    rw [Event.handlers, haction]
    rfl
  have hone : runHandlers analyzer policy (.pullRequest event) [.gateKeeper] =
      Handler.gateKeeper.program analyzer policy (.pullRequest event) := Program.bind_done _
  rw [dispatch_eq_runHandlers, Event.handling, hhandlers, hone, Handler.program_eq_turn,
    Handler.turn, Program.bind_assoc, Program.bind_assoc]
  rfl

/-- A pull request that is turned away is closed before the end. -/
theorem mustClose_of_turnAway {α : Type} (r : Gate.Rejection) (f : Unit → Program α) :
    ((Program.performAll (Gate.Verdict.writes policy event (.turnAway r))).bind f).MustClose
      event.pr.number := by
  have hclose : .closePr event.pr.number ∈ Gate.Verdict.writes policy event (.turnAway r) :=
    Gate.Rejection.mem_effects.2 (.inr (.inr (.inl rfl)))
  exact (Program.mustClose_performAll hclose).bind f

end

/-! ## Openings -/

/-- The pull requests of an author: which of them are open, and how far the handling of each opening
has come. A handling that failed does not go on. -/
structure Openings where
  live : Finset PrNumber
  progress : PrNumber → Option (Except Failure (Program Handling))

/-- The pull requests that stay open when an effect takes place. -/
def Effect.leaveOpen (live : Finset PrNumber) : Effect → Finset PrNumber
  | closePr n => live.erase n
  | _ => live

/-- No effect opens a pull request. -/
theorem Effect.leaveOpen_subset (e : Effect) (live : Finset PrNumber) : e.leaveOpen live ⊆ live := by
  cases e with
  | closePr n => exact Finset.erase_subset n live
  | _ => exact Finset.Subset.refl live

namespace Openings

/-- The author has no pull requests yet. -/
def start : Openings := ⟨∅, fun _ => none⟩

/-- The handling of an opening comes to this point. -/
def goOn (s : Openings) (n : PrNumber) (p : Except Failure (Program Handling))
    (live : Finset PrNumber) : Openings :=
  ⟨live, Function.update s.progress n (some p)⟩

/-- Every handling has come to its end without a failure. -/
def AllHandled (s : Openings) : Prop :=
  ∀ n p, s.progress n = some p → ∃ handling, p = .ok (.done handling)

section

variable (policy : Policy) (author : String)

/-- What the handling of an opening is answered is so: a search for the author's open pull requests
names those that are open now, in any order and any number of times. It may or may not name the one
that was opened. -/
def IsSo (s : Openings) (n : PrNumber) : Effect → Response → Prop
  | .searchOpenPrs a, .openPrs search =>
    a = author → ∀ m, m ≠ n → (m ∈ search.numbers ↔ m ∈ s.live)
  | _, _ => True

/-- What can happen. -/
inductive Step (s : Openings) : Openings → Prop
  /-- The author, who is not privileged, opens a pull request with a new number. -/
  | opened {e : PullRequestEvent} (analyzer : Analyzer) (haction : e.action = .opened)
      (hauthor : e.pr.author = author) (hplain : e.pr.isPrivileged = false)
      (hvalid : e.pr.labels.has .invalid = false) (hnew : s.progress e.pr.number = none) :
      Step s (s.goOn e.pr.number (.ok (dispatch analyzer policy (.pullRequest e)))
        (insert e.pr.number s.live))
  /-- What a handling asks for takes place, and is answered. -/
  | answered {n : PrNumber} {e : Effect} {next : Response → Program Handling} (r : Response)
      (hcall : s.progress n = some (.ok (.call e next))) (hso : s.IsSo author n e r) :
      Step s (s.goOn n (.ok (next r)) (e.leaveOpen s.live))
  /-- What a handling asks for fails, and may have taken place nevertheless. -/
  | failed {n : PrNumber} {e : Effect} {next : Response → Program Handling} (m : String)
      {live : Finset PrNumber} (hcall : s.progress n = some (.ok (.call e next)))
      (hlive : live = s.live ∨ live = e.leaveOpen s.live) :
      Step s (s.goOn n (.error (.call e m)) live)
  /-- Someone closes a pull request. -/
  | closed (n : PrNumber) : Step s { s with live := s.live.erase n }

/-- What can become of an author's pull requests in any number of steps. -/
abbrev Reaches : Openings → Openings → Prop := Relation.ReflTransGen (Step policy author)

/-! ### The invariant -/

/-- The handling of an opening is held up at the cap: it has failed, it will close its pull request,
or it has still to search, and will close its pull request unless the search is in its favour. -/
inductive Held (n : PrNumber) : Except Failure (Program Handling) → Prop
  | failed (f : Failure) : Held n (.error f)
  | closing {p : Program Handling} (h : p.MustClose n) : Held n (.ok p)
  | asking {pr : Snapshot} {next : Response → Program Handling} (hnumber : pr.number = n)
      (h : ∀ r, (∀ search, r = .openPrs search → Gate.checkOpenPrs policy pr search ≠ none) →
        (next r).MustClose n) :
      Held n (.ok (.call (.searchOpenPrs author) next))

/-- All pull requests that are open, but for as many as the cap allows, are held up. -/
def Bounded (s : Openings) : Prop :=
  ∃ passed : Finset PrNumber, passed.card ≤ policy.maxOpenPullRequests.toNat ∧
    ∀ n ∈ s.live, n ∈ passed ∨ ∃ p, s.progress n = some p ∧ Held policy author n p

end

variable {policy : Policy} {author : String}

/-- A handling that has come to its end is not held up. -/
theorem not_held_done (n : PrNumber) (handling : Handling) :
    ¬ Held policy author n (.ok (.done handling)) := by
  intro h
  cases h with
  | closing h => exact h

/-- An opening is held up at first. -/
theorem held_of_opened {e : PullRequestEvent} (analyzer : Analyzer) (haction : e.action = .opened)
    (hauthor : e.pr.author = author) (hplain : e.pr.isPrivileged = false)
    (hvalid : e.pr.labels.has .invalid = false) (hcap : policy.maxOpenPullRequests ≠ 0) :
    Held policy author e.pr.number (.ok (dispatch analyzer policy (.pullRequest e))) := by
  have hsettled : e.pr.isSettled = false := by
    rw [Snapshot.isSettled, LabelSet.isTerminal_eq, hvalid]
  have hasks : Gate.asksAuthor e = true := by simp [Gate.asksAuthor, haction, hplain]
  rw [dispatch_of_opened haction, Gate.judge, hsettled, if_neg Bool.false_ne_true, if_pos hasks]
  rcases Gate.checkShape policy e.pr with _ | r
  · rw [Gate.judgeCap, if_pos ⟨hasks, hcap⟩, hauthor]
    refine .asking rfl fun r hr => ?_
    cases r with
    | openPrs search =>
      obtain ⟨r, hmany⟩ := Option.ne_none_iff_exists'.1 (hr search rfl)
      simp only [Program.bind, hmany]
      exact mustClose_of_turnAway r _
    | _ => trivial
  · exact .closing (mustClose_of_turnAway r _)

/-- A search in whose favour the cap decides leaves no more open than the cap allows. -/
theorem card_live_le_of_search {s : Openings} {pr : Snapshot} {search : OpenSearch}
    (hfound : ∀ m, m ≠ pr.number → (m ∈ search.numbers ↔ m ∈ s.live))
    (hpassed : Gate.checkOpenPrs policy pr search = none) :
    s.live.card ≤ policy.maxOpenPullRequests.toNat := by
  have hothers : (search.numbers.toFinset.erase pr.number).card < policy.maxOpenPullRequests.toNat := by
    by_contra hmany
    have hfails := Gate.isSome_checkOpenPrs.2 (Nat.le_of_not_lt hmany)
    rw [hpassed] at hfails
    cases hfails
  have hsub : s.live.erase pr.number ⊆ search.numbers.toFinset.erase pr.number := by
    intro m hm
    obtain ⟨hne, hlive⟩ := Finset.mem_erase.1 hm
    exact Finset.mem_erase.2 ⟨hne, List.mem_toFinset.2 ((hfound m hne).2 hlive)⟩
  have hcard : (s.live.erase pr.number).card ≤ (search.numbers.toFinset.erase pr.number).card :=
    Finset.card_le_card hsub
  have herase : s.live.card - 1 ≤ (s.live.erase pr.number).card := Finset.pred_card_le_card_erase
  omega

/-- One handling goes on, and the pull requests stay bounded, if what is open besides it was open
before, and it is held up unless it was let through or is closed. -/
theorem Bounded.goOn {s : Openings} {passed live : Finset PrNumber} {n : PrNumber}
    {p : Except Failure (Program Handling)}
    (hcard : passed.card ≤ policy.maxOpenPullRequests.toNat)
    (hothers : ∀ m ∈ live, m ≠ n →
      m ∈ passed ∨ ∃ q, s.progress m = some q ∧ Held policy author m q)
    (hself : n ∈ live → n ∈ passed ∨ Held policy author n p) :
    (s.goOn n p live).Bounded policy author := by
  refine ⟨passed, hcard, fun m hm => ?_⟩
  by_cases hmn : m = n
  · subst hmn
    exact (hself hm).imp_right fun hheld => ⟨p, Function.update_self .., hheld⟩
  · have hsame : (s.goOn n p live).progress m = s.progress m := Function.update_of_ne hmn ..
    rw [hsame]
    exact hothers m hm hmn

/-- Whatever its call is answered, an opening that is held up stays so unless it is let through, and it
is let through only by a search in whose favour the cap decides. -/
theorem Held.answered {s : Openings} {n : PrNumber} {e : Effect} {next : Response → Program Handling}
    {r : Response} (hheld : Held policy author n (.ok (.call e next))) (hso : s.IsSo author n e r)
    (hlive : n ∈ e.leaveOpen s.live) :
    Held policy author n (.ok (next r)) ∨ s.live.card ≤ policy.maxOpenPullRequests.toNat := by
  cases hheld with
  | closing hclose =>
    rcases hclose with rfl | hclose
    · exact absurd rfl (Finset.ne_of_mem_erase hlive)
    · exact .inl (.closing (hclose r))
  | @asking pr _ hnumber hclose =>
    by_cases hmany : ∀ search, r = .openPrs search → Gate.checkOpenPrs policy pr search ≠ none
    · exact .inl (.closing (hclose r hmany))
    · simp only [not_forall, not_not] at hmany
      obtain ⟨search, rfl, hfavour⟩ := hmany
      have hfound := hso rfl
      rw [← hnumber] at hfound
      exact .inr (card_live_le_of_search hfound hfavour)

/-- Every step keeps the pull requests bounded. -/
theorem Step.bounded {s t : Openings} (h : s.Step policy author t)
    (hcap : policy.maxOpenPullRequests ≠ 0) (hs : s.Bounded policy author) :
    t.Bounded policy author := by
  obtain ⟨passed, hcard, hheld⟩ := hs
  cases h with
  | opened analyzer haction hauthor hplain hvalid hnew =>
    refine Bounded.goOn hcard (fun m hm hne => ?_) fun _ => ?_
    · exact hheld m (Finset.mem_of_mem_insert_of_ne hm hne)
    · exact .inr (held_of_opened analyzer haction hauthor hplain hvalid hcap)
  | @answered n e next r hcall hso =>
    -- an answer moves one number on, so that the others stay as they were, if still open
    have hothers (m : PrNumber) (hm : m ∈ e.leaveOpen s.live) (_ : m ≠ n) :=
      hheld m (e.leaveOpen_subset s.live hm)
    by_cases hlive : n ∈ e.leaveOpen s.live
    · rcases hheld n (e.leaveOpen_subset s.live hlive) with hpassed | ⟨p, hp, hheldn⟩
      · exact Bounded.goOn hcard hothers fun _ => .inl hpassed
      · obtain rfl : p = .ok (.call e next) := Option.some.inj (hp.symm.trans hcall)
        rcases hheldn.answered hso hlive with hheldn | hfits
        · exact Bounded.goOn hcard hothers fun _ => .inr hheldn
        · -- all that are open fit under the cap, and are let through from here on
          exact Bounded.goOn hfits (fun m hm _ => .inl (e.leaveOpen_subset s.live hm))
            fun hn => .inl (e.leaveOpen_subset s.live hn)
    · exact Bounded.goOn hcard hothers fun hn => absurd hn hlive
  | @failed n e next m live hcall hlive =>
    refine Bounded.goOn hcard (fun k hk _ => hheld k ?_) fun _ => .inr (.failed _)
    rcases hlive with rfl | rfl
    · exact hk
    · exact e.leaveOpen_subset s.live hk
  | closed n => exact ⟨passed, hcard, fun m hm => hheld m (Finset.mem_of_mem_erase hm)⟩

/-- The bound holds along every run. -/
theorem Reaches.bounded {s t : Openings} (h : s.Reaches policy author t)
    (hcap : policy.maxOpenPullRequests ≠ 0) (hs : s.Bounded policy author) :
    t.Bounded policy author := by
  induction h with
  | refl => exact hs
  | tail _ hstep ih => exact hstep.bounded hcap ih

/-- **The cap holds in the end.** An author who is not privileged opens any number of pull requests;
whatever the order in which their handlings search and close, and whatever is closed besides, once
all of these have come to their ends without a failure, no more of the author's pull requests are
open than the cap allows. -/
theorem card_live_le (hcap : policy.maxOpenPullRequests ≠ 0) {s : Openings}
    (hrun : start.Reaches policy author s) (hdone : s.AllHandled) :
    s.live.card ≤ policy.maxOpenPullRequests.toNat := by
  have hstart : start.Bounded policy author :=
    ⟨∅, Nat.zero_le _, fun n hn => absurd hn (Finset.notMem_empty n)⟩
  obtain ⟨passed, hcard, hheld⟩ := Reaches.bounded hrun hcap hstart
  have hsub : s.live ⊆ passed := by
    intro n hn
    rcases hheld n hn with hpassed | ⟨p, hp, hheldn⟩
    · exact hpassed
    · obtain ⟨handling, rfl⟩ := hdone n p hp
      exact absurd hheldn (not_held_done n handling)
  exact (Finset.card_le_card hsub).trans hcard

/-! ### Openings that nothing happens besides -/

/-- A dispatch that goes on is where it has got to. -/
theorem progress_goOn (s : Openings) (n : PrNumber) (p : Except Failure (Program Handling))
    (live : Finset PrNumber) : (s.goOn n p live).progress n = some p :=
  Function.update_self ..

/-- Of two steps of one dispatch the later one counts. -/
theorem goOn_goOn (s : Openings) (n : PrNumber) (p q : Except Failure (Program Handling))
    (live live' : Finset PrNumber) : (s.goOn n p live).goOn n q live' = s.goOn n q live' := by
  simp only [goOn, Function.update_idem]

/-- An opening is handled up to its search. -/
theorem reaches_search {s : Openings} {e : PullRequestEvent} (analyzer : Analyzer)
    (haction : e.action = .opened) (hauthor : e.pr.author = author)
    (hplain : e.pr.isPrivileged = false) (hvalid : e.pr.labels.has .invalid = false)
    (hnew : s.progress e.pr.number = none) {next : Response → Program Handling}
    (hcall : dispatch analyzer policy (.pullRequest e) = .call (.searchOpenPrs author) next)
    {search : OpenSearch}
    (hfound : ∀ m, m ≠ e.pr.number → (m ∈ search.numbers ↔ m ∈ s.live)) :
    s.Reaches policy author
      (s.goOn e.pr.number (.ok (next (.openPrs search))) (insert e.pr.number s.live)) := by
  let asking := s.goOn e.pr.number (.ok (.call (.searchOpenPrs author) next))
    (insert e.pr.number s.live)
  have hopened : s.Step policy author asking := by
    simp only [asking, ← hcall]
    exact .opened analyzer haction hauthor hplain hvalid hnew
  -- the search may find the new pull request or miss it: either way it is right about the others
  have hso : asking.IsSo author e.pr.number (.searchOpenPrs author) (.openPrs search) := by
    intro _ m hm
    simp [asking, goOn, hfound m hm, hm]
  have hanswered : asking.Step policy author
      (asking.goOn e.pr.number (.ok (next (.openPrs search))) (insert e.pr.number s.live)) :=
    .answered (.openPrs search) (progress_goOn ..) hso
  rw [goOn_goOn] at hanswered
  exact (Relation.ReflTransGen.single hopened).tail hanswered

/-- Writes in a row take place one after another. -/
theorem reaches_performAll (s : Openings) (n : PrNumber) (ws : List Effect) (handling : Handling)
    (live : Finset PrNumber) :
    (s.goOn n (.ok ((Program.performAll ws).bind fun _ => .done handling)) live).Reaches policy author
      (s.goOn n (.ok (.done handling)) (ws.foldl Effect.leaveOpen live)) := by
  induction ws generalizing live with
  | nil => exact .refl
  | cons w ws ih =>
    let asking := s.goOn n (.ok ((Program.performAll (w :: ws)).bind fun _ => .done handling)) live
    have hso : asking.IsSo author n w .commentPosted := by cases w <;> trivial
    have hanswered : asking.Step policy author (asking.goOn n
        (.ok ((Program.performAll ws).bind fun _ => .done handling)) (w.leaveOpen live)) :=
      .answered .commentPosted (progress_goOn ..) hso
    rw [goOn_goOn] at hanswered
    exact .head hanswered (ih _)

/-- Someone new opens a draft with this number. -/
def draftByNewcomer (n : UInt64) : PullRequestEvent :=
  let e := PullRequestEvent.byOwner .opened none ∅
  { e with
    pr := { e.pr with
      number := ⟨n⟩, body := "[x]", author := "newcomer", association := .firstTimer, draft := true } }

/-- A newcomer opens a pull request, which is let through, and then another one, which is closed: one
may be open, and one is. -/
theorem card_live_le_second_closed :
    ∃ s : Openings, start.Reaches .standard "newcomer" s ∧ s.AllHandled ∧
      s.progress ⟨2⟩ = some (.ok (.done .handled)) ∧ s.live = {⟨1⟩} ∧
      s.live.card ≤ Policy.standard.maxOpenPullRequests.toNat := by
  have hpassed : Gate.checkOpenPrs .standard (draftByNewcomer 1).pr ⟨0, []⟩ = none := by
    decide +kernel
  have hmany : Gate.checkOpenPrs .standard (draftByNewcomer 2).pr ⟨1, [⟨1⟩]⟩ =
      some (.tooManyOpenPrs [⟨1⟩]) := by
    decide +kernel
  let one := start.goOn ⟨1⟩ (.ok (.done .handled)) {⟨1⟩}
  let two := one.goOn ⟨2⟩ (.ok (.done .handled)) {⟨1⟩}
  have hone : start.Reaches .standard "newcomer" one := by
    obtain ⟨next, hcall, hlet⟩ : ∃ next,
        dispatch (fun _ => .ok []) .standard (.pullRequest (draftByNewcomer 1)) =
          .call (.searchOpenPrs "newcomer") next ∧ next (.openPrs ⟨0, []⟩) = .done .handled := by
      refine ⟨_, rfl, ?_⟩
      simp only [Program.bind, hpassed]
      rfl
    have hsearch : start.Reaches .standard "newcomer" _ :=
      @reaches_search _ _ start _ _ rfl rfl rfl rfl rfl _ hcall ⟨0, []⟩ (by simp [start])
    rwa [hlet] at hsearch
  have htwo : one.Reaches .standard "newcomer" two := by
    let closing := Gate.Rejection.effects .standard (draftByNewcomer 2).pr (.tooManyOpenPrs [⟨1⟩])
    obtain ⟨next, hcall, hclose⟩ : ∃ next,
        dispatch (fun _ => .ok []) .standard (.pullRequest (draftByNewcomer 2)) =
          .call (.searchOpenPrs "newcomer") next ∧
        next (.openPrs ⟨1, [⟨1⟩]⟩) = (Program.performAll closing).bind fun _ => .done .handled := by
      refine ⟨_, rfl, ?_⟩
      simp only [Program.bind, hmany]
      rfl
    have hsearch : one.Reaches .standard "newcomer" _ :=
      @reaches_search _ _ one _ _ rfl rfl rfl rfl rfl _ hcall ⟨1, [⟨1⟩]⟩ (by simp [one, goOn])
    rw [hclose] at hsearch
    have hlive : closing.foldl Effect.leaveOpen (insert ⟨2⟩ one.live) = {⟨1⟩} := by decide
    have hwrites := @reaches_performAll .standard "newcomer" one ⟨2⟩ closing .handled
      (insert ⟨2⟩ one.live)
    rw [hlive] at hwrites
    exact hsearch.trans hwrites
  have hrun : start.Reaches .standard "newcomer" two := hone.trans htwo
  have hdone : two.AllHandled := by
    intro n p hp
    by_cases htwo : n = ⟨2⟩
    · obtain rfl := htwo
      cases hp
      exact ⟨_, rfl⟩
    by_cases hone : n = ⟨1⟩
    · obtain rfl := hone
      cases hp
      exact ⟨_, rfl⟩
    · simp [two, one, goOn, start, htwo, hone] at hp
  exact ⟨two, hrun, hdone, rfl, rfl, card_live_le (by decide) hrun hdone⟩

end Openings

end PullGate
