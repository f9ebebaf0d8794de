import PullGate.Proofs.Gate.Verdict
import PullGate.Proofs.LabelChange
/-!
# How the gate ends

What a run of the gate has done by its end, for every policy, analyzer and host. A run that turns a
pull request away has asked for exactly the four steps of turning away, in their order and after all
reads, and gives the reason of the first check that applies and fails. A run that ends otherwise
closes nothing.
-/

namespace PullGate

namespace Effect

/-- The effect closes a pull request. -/
def isClose : Effect → Bool
  | closePr _ => true
  | _ => false

/-- The effect takes reviewers from a pull request. -/
def isUnassign : Effect → Bool
  | unassignReviewers _ _ => true
  | _ => false

theorem isClose_eq_false_of_read {e : Effect} (h : e.isWrite = false) : e.isClose = false := by
  cases e <;> first | rfl | cases h

end Effect

namespace Gate

open PullGate.Compliance (Analyzer Report)

variable {analyzer : Analyzer} {policy : Policy} {event : PullRequestEvent}

/-! ## The writes of a verdict -/

/-- Turning away, written out. -/
theorem Rejection.effects_eq (r : Rejection) (pr : Snapshot) :
    r.effects policy pr =
      [.postComment pr.number (r.comment policy pr)] ++
      (match r with
        | .tooManyOpenPrs _ => []
        | _ => [.addLabels pr.number [.invalid]]) ++
      [.closePr pr.number] ++
      (if pr.reviewers = [] then [] else [.unassignReviewers pr.number pr.reviewers]) := by
  have hreviewers : pr.reviewers.isEmpty = true ↔ pr.reviewers = [] := List.isEmpty_iff
  cases r <;> simp only [effects, marksInvalid, hreviewers, if_true, Bool.false_eq_true, if_false]

/-- The steps of turning away. -/
theorem Rejection.mem_effects {r : Rejection} {pr : Snapshot} {e : Effect} :
    e ∈ r.effects policy pr ↔
      e = .postComment pr.number (r.comment policy pr) ∨
      (r.marksInvalid = true ∧ e = .addLabels pr.number [.invalid]) ∨
      e = .closePr pr.number ∨
      (pr.reviewers ≠ [] ∧ e = .unassignReviewers pr.number pr.reviewers) := by
  have hreviewers : pr.reviewers.isEmpty = true ↔ pr.reviewers = [] := List.isEmpty_iff
  by_cases hmarks : r.marksInvalid = true <;> by_cases hnone : pr.reviewers = [] <;>
    simp [effects, hreviewers, hmarks, hnone]

/-- What a report asks for is a comment, an addition of requirements, or a removal of one. -/
theorem mem_reportEffects {report : Report} {e : Effect} (h : e ∈ reportEffects event report) :
    (∃ body, e = .postComment event.pr.number body) ∨
      (∃ ls, e = .addLabels event.pr.number ls ∧ ∀ l ∈ ls, l.isRequirement = true) ∨
      ∃ l, e = .removeLabel event.pr.number l ∧ l.isRequirement = true := by
  rcases List.mem_append.1 h with h | h
  · split at h
    · exact .inl ⟨_, List.mem_singleton.1 h⟩
    · cases h
  · rcases Plan.mem_effects h with rfl | ⟨l, hl, rfl⟩
    · exact .inr (.inl ⟨_, rfl, fun l hl => (Plan.mem_toAdd.1 hl).1⟩)
    · exact .inr (.inr ⟨l, rfl, (Plan.mem_toRemove.1 hl).1⟩)

/-- By default only new pull requests of which nothing is required are put to await review. -/
theorem mem_defaultEffects {requirements : LabelSet} {e : Effect}
    (h : e ∈ defaultEffects event requirements) :
    event.action = .opened ∧ requirements = ∅ ∧
      e = .addLabels event.pr.number [.awaitingReview] := by
  unfold defaultEffects at h
  split at h
  · rename_i hcond
    exact ⟨hcond.1, LabelSet.isEmpty_iff.1 hcond.2.1, List.mem_singleton.1 h⟩
  · cases h

/-- A verdict that does not turn away neither closes nor marks. -/
theorem Verdict.mem_writes_of_completed {v : Verdict} {ls : LabelSet}
    (hv : v.outcome = .completed ls) {e : Effect} (h : e ∈ v.writes policy event) :
    e.isClose = false ∧ e.isUnassign = false ∧ ¬ e.Adds .invalid := by
  cases v with
  | analyzed report =>
    rcases List.mem_append.1 h with h | h
    · rcases mem_reportEffects h with ⟨body, rfl⟩ | ⟨ks, rfl, hks⟩ | ⟨l, rfl, _⟩
      · exact ⟨rfl, rfl, id⟩
      · exact ⟨rfl, rfl, fun hmem => absurd (hks .invalid hmem) (by decide)⟩
      · exact ⟨rfl, rfl, id⟩
    · obtain ⟨-, -, rfl⟩ := mem_defaultEffects h
      exact ⟨rfl, rfl, by simp⟩
  | unasked => cases h
  | _ => cases hv

/-- A verdict closes the pull request once or not at all. -/
theorem Verdict.countP_isClose_writes (v : Verdict) :
    (v.writes policy event).countP (·.isClose) ≤ 1 := by
  cases v with
  | turnAway r =>
    rw [writes, Rejection.effects_eq]
    cases r <;> simp only [List.countP_append] <;> split <;> simp [Effect.isClose]
  | analyzed report =>
    have hnone : (writes policy event (.analyzed report)).countP (·.isClose) = 0 := by
      refine List.countP_eq_zero.2 fun e he => ?_
      simp [(mem_writes_of_completed (v := .analyzed report) rfl he).1]
    omega
  | _ => exact Nat.zero_le 1

/-! ## Runs -/

/-- A run of the gate fails while it reads, or it has a verdict, and records the writes of the
verdict after its reads: all of them, or up to the first that fails. -/
theorem verdict_of_plays_run {xs : Transcript} {res : Except Failure Outcome}
    (h : (run analyzer policy event).Plays xs res) :
    (∀ e ∈ xs.effects, e.isWrite = false) ∨
      ∃ v ys done, (judge analyzer policy event).Plays ys (.ok v) ∧
        (∀ e ∈ ys.effects, e.isWrite = false) ∧ xs.effects = ys.effects ++ done ∧
        done <+: v.writes policy event := by
  rw [run_eq_judge] at h
  rcases h.of_bind with ⟨e, hjudge, -⟩ | ⟨ys, v, zs, hjudge, hcarry, rfl⟩
  · exact .inl (hjudge.isWrite_eq_false ofReads_judge.reads)
  · refine .inr ⟨v, ys, zs.effects, hjudge, hjudge.isWrite_eq_false ofReads_judge.reads,
      Transcript.effects_append ys zs, ?_⟩
    rcases Program.Plays.of_bind hcarry with ⟨e, hwrites, -⟩ | ⟨us, _, vs, hwrites, hend, rfl⟩
    · exact hwrites.performAll.1
    · obtain ⟨rfl, -⟩ := Program.plays_done_iff.1 hend
      rw [List.append_nil]
      exact hwrites.performAll.1

/-- A run of the gate that comes to its end ends as its verdict says, and has recorded all the
writes of the verdict after its reads. -/
theorem verdict_of_plays_run_ok {xs : Transcript} {o : Outcome}
    (h : (run analyzer policy event).Plays xs (.ok o)) :
    ∃ v ys, (judge analyzer policy event).Plays ys (.ok v) ∧ ys ⊆ xs ∧
      (∀ e ∈ ys.effects, e.isWrite = false) ∧ xs.effects = ys.effects ++ v.writes policy event ∧
      o = v.outcome := by
  rw [run_eq_judge] at h
  obtain ⟨ys, v, zs, hjudge, hcarry, rfl⟩ := h.of_bind_ok
  obtain ⟨us, _, vs, hwrites, hend, rfl⟩ := Program.Plays.of_bind_ok hcarry
  obtain ⟨rfl, ho⟩ := Program.plays_done_iff.1 hend
  cases ho
  have hreads := hjudge.isWrite_eq_false ofReads_judge.reads
  refine ⟨v, ys, hjudge, List.subset_append_left _ _, hreads, ?_, rfl⟩
  rcases hwrites.performAll.2 with hall | ⟨_, _, hfail⟩
  · rw [List.append_nil, Transcript.effects_append, hall]
  · cases hfail

/-- Reads close nothing, however many there are. -/
theorem countP_isClose_of_reads {es : List Effect} (h : ∀ e ∈ es, e.isWrite = false) :
    es.countP (·.isClose) = 0 := by
  refine List.countP_eq_zero.2 fun e he => ?_
  simp [Effect.isClose_eq_false_of_read (h e he)]

/-- However a run goes, it closes the pull request at most once. -/
theorem countP_isClose_le_one {xs : Transcript} {res : Except Failure Outcome}
    (h : (run analyzer policy event).Plays xs res) : xs.effects.countP (·.isClose) ≤ 1 := by
  rcases verdict_of_plays_run h with hreads | ⟨v, ys, done, -, hreads, hdone, hstart⟩
  · rw [countP_isClose_of_reads hreads]
    exact Nat.zero_le 1
  · calc xs.effects.countP (·.isClose)
        = done.countP (·.isClose) := by
          rw [hdone, List.countP_append, countP_isClose_of_reads hreads, Nat.zero_add]
      _ ≤ (v.writes policy event).countP (·.isClose) := hstart.sublist.countP_le
      _ ≤ 1 := v.countP_isClose_writes

/-- Only the last check finds files without extensions. -/
theorem applies_extensions_of_firstFault {xs : Transcript} {paths : List String}
    {cs : List Check} (h : Check.FirstFault policy event xs (.extensionlessFiles paths) cs) :
    Check.applies policy event .extensions = true := by
  generalize hr : Rejection.extensionlessFiles paths = r at h
  induction h with
  | @here c _ happlies hfinds =>
    cases c with
    | shape =>
      simp only [Check.Finds, checkShape, ← hr] at hfinds
      split at hfinds
      · cases hfinds
      · split at hfinds <;> cases hfinds
    | openPrs =>
      obtain ⟨search, -, hfound⟩ := hfinds
      simp only [checkOpenPrs, ← hr] at hfound
      split at hfound <;> cases hfound
    | extensions => exact happlies
  | later _ _ ih => exact ih

/-- A run that turns the pull request away has a first check that failed, and has asked for the four
steps of turning away after its reads, and for nothing else. -/
theorem turnAway_of_plays_run {xs : Transcript} {r : Rejection}
    (h : (run analyzer policy event).Plays xs (.ok (.rejected r))) :
    (∃ reads, (∀ e ∈ reads, e.isWrite = false) ∧
      xs.effects = reads ++ r.effects policy event.pr) ∧
    Check.FirstFault policy event xs r Check.all := by
  obtain ⟨v, ys, hjudge, hys, hreads, hall, hv⟩ := verdict_of_plays_run_ok h
  cases v with
  | turnAway r' =>
    cases hv
    refine ⟨⟨ys.effects, hreads, hall⟩, ?_⟩
    rcases judged_of_plays hjudge with ⟨-, hsettled, -⟩ | ⟨-, hjudged⟩
    · cases hsettled
    · cases hjudged with
      | turnAway hfault => exact hfault.mono hys
  | _ => cases hv

/-- A run that leaves the pull request alone only reads. -/
theorem isWrite_eq_false_of_plays_run {xs : Transcript} {o : Outcome}
    (h : (run analyzer policy event).Plays xs (.ok o))
    (ho : o = .alreadyInvalid ∨ o = .skippedDraft) : ∀ e ∈ xs.effects, e.isWrite = false := by
  obtain ⟨v, ys, -, -, hreads, hall, rfl⟩ := verdict_of_plays_run_ok h
  have hnothing : v.writes policy event = [] := by
    cases v with
    | settled | draft | unasked => rfl
    | turnAway | analyzed => rcases ho with ho | ho <;> cases ho
  rw [hall, hnothing, List.append_nil]
  exact hreads

/-- A run that completes neither closes nor marks. -/
theorem not_turnAway_of_plays_run {xs : Transcript} {requirements : LabelSet}
    (h : (run analyzer policy event).Plays xs (.ok (.completed requirements))) :
    ∀ e ∈ xs.effects, e.isClose = false ∧ e.isUnassign = false ∧ ¬ e.Adds .invalid := by
  obtain ⟨v, ys, -, -, hreads, hall, hv⟩ := verdict_of_plays_run_ok h
  intro e he
  rw [hall] at he
  rcases List.mem_append.1 he with he | he
  · have hread := hreads e he
    cases e <;> first | exact ⟨rfl, rfl, id⟩ | cases hread
  · exact Verdict.mem_writes_of_completed hv.symm he

/-- **How a run of the gate ends.** A pull request is closed at most once. If it is turned away,
then what was changed is exactly this: the comment with the reason, the mark (unless there were too
many pull requests), the closing, and the release of the reviewers, if there are any; nothing is
asked for afterwards; and the reason is that of the first check that applies and fails. A pull
request that was turned away before, or is a draft, is not changed. A run that completes does not
close, release or mark. -/
theorem run_endings {σ : Type} (analyzer : Analyzer) (policy : Policy) (event : PullRequestEvent)
    (host : Host σ) (s : σ) :
    let t := ((run analyzer policy event).run host s).1
    let answered := (run analyzer policy event).transcript host s
    t.effects.countP (·.isClose) ≤ 1 ∧
    (∀ r, t.result = .ok (.rejected r) →
      (∃ reads, (∀ e ∈ reads, e.isWrite = false) ∧
        t.effects = reads ++
          ([.postComment event.pr.number (r.comment policy event.pr)] ++
          (match r with
            | .tooManyOpenPrs _ => []
            | _ => [.addLabels event.pr.number [.invalid]]) ++
          [.closePr event.pr.number] ++
          (if event.pr.reviewers = [] then []
            else [.unassignReviewers event.pr.number event.pr.reviewers]))) ∧
      Check.FirstFault policy event answered r Check.all ∧
      (event.pr.draft = true → ∀ paths, r ≠ .extensionlessFiles paths)) ∧
    (t.result = .ok .alreadyInvalid ∨ t.result = .ok .skippedDraft →
      ∀ e ∈ t.effects, e.isWrite = false) ∧
    (∀ requirements, t.result = .ok (.completed requirements) →
      ∀ e ∈ t.effects, e.isClose = false ∧ e.isUnassign = false ∧ ¬ e.Adds .invalid) := by
  intro t answered
  have heffects : t.effects = answered.effects := Program.effects_run host _ s
  have hplays : (run analyzer policy event).Plays answered t.result := Program.plays_run host _ s
  rw [heffects]
  refine ⟨countP_isClose_le_one hplays, fun r hr => ?_, fun h => ?_, fun requirements hr => ?_⟩
  · rw [hr] at hplays
    obtain ⟨⟨reads, hreads, hall⟩, hfault⟩ := turnAway_of_plays_run hplays
    rw [Rejection.effects_eq] at hall
    refine ⟨⟨reads, hreads, hall⟩, hfault, ?_⟩
    rintro hdraft paths rfl
    have happlies := applies_extensions_of_firstFault hfault
    simp [Check.applies, hdraft] at happlies
  · rcases h with h | h
    · rw [h] at hplays
      exact isWrite_eq_false_of_plays_run hplays (.inl rfl)
    · rw [h] at hplays
      exact isWrite_eq_false_of_plays_run hplays (.inr rfl)
  · rw [hr] at hplays
    exact not_turnAway_of_plays_run hplays

end Gate

end PullGate
