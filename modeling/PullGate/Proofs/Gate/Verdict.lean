import PullGate.Gate
import PullGate.Proofs.Transcript
/-!
# Verdicts of the gate

The gate judges before it acts. `judge` is the part of it that reads: it comes to a `Verdict`, and
changes nothing. What follows from a verdict is a list of writes. `run_eq_judge` says that the gate
is the one after the other, and `judged_of_plays` says once and for all which verdicts there are,
what must have been answered for each, and what the checks before it found.
-/

namespace PullGate.Gate

open PullGate.Compliance (Analyzer Report)

/-! ## Verdicts -/

/-- What the gate comes to by reading. -/
inductive Verdict where
  /-- The pull request was turned away before. -/
  | settled
  /-- A check failed. -/
  | turnAway (r : Rejection)
  /-- The pull request is a draft. -/
  | draft
  /-- What happened asks for nothing. -/
  | unasked
  /-- No check failed, and this was found in the sources. -/
  | analyzed (report : Report)

section

variable (analyzer : Analyzer) (policy : Policy) (event : PullRequestEvent)

/-- The label that a new pull request gets if nothing is required of it. -/
def defaultEffects (requirements : LabelSet) : List Effect :=
  if event.action = .opened ∧ requirements.isEmpty ∧ ¬ event.pr.labels.has .awaitingReview then
    [.addLabels event.pr.number [.awaitingReview]]
  else []

namespace Verdict

/-- How a run with the verdict ends. -/
def outcome : Verdict → Outcome
  | settled => .alreadyInvalid
  | turnAway r => .rejected r
  | draft => .skippedDraft
  | unasked => .completed ∅
  | analyzed report => .completed report.requirements

/-- What a run with the verdict asks to be changed. -/
def writes : Verdict → List Effect
  | turnAway r => r.effects policy event.pr
  | analyzed report => reportEffects event report ++ defaultEffects event report.requirements
  | _ => []

/-- The part of the gate that writes. -/
def carryOut (v : Verdict) : Program Outcome :=
  (Program.performAll (v.writes policy event)).bind fun _ => .done v.outcome

end Verdict

/-! ## The part of the gate that reads -/

/-- What the changed files come to. -/
def judgeFiles : Program Verdict :=
  (Program.changedFiles event.pr.number).bind fun files =>
    match if event.action = .readyForReview then none else checkExtensions policy files with
    | some r => .done (.turnAway r)
    | none =>
      (analyzeFiles analyzer event (Compliance.sources policy files)
        (.empty (Compliance.hasTestFile policy files))).bind fun report => .done (.analyzed report)

/-- What a pull request comes to whose author nothing is held against. -/
def judgeDraft : Program Verdict :=
  match event.action with
  | .opened | .synchronize =>
    if event.pr.draft then .done .draft else judgeFiles analyzer policy event
  | .readyForReview => judgeFiles analyzer policy event
  | _ => .done .unasked

/-- What a pull request comes to whose description is as it should be. -/
def judgeCap : Program Verdict :=
  if asksAuthor event ∧ policy.maxOpenPullRequests ≠ 0 then
    (Program.openPrs event.pr.author).bind fun search =>
      match checkOpenPrs policy event.pr search with
      | some r => .done (.turnAway r)
      | none => judgeDraft analyzer policy event
  else judgeDraft analyzer policy event

/-- What a pull request comes to. -/
def judge : Program Verdict :=
  if event.pr.isSettled then .done .settled
  else match if asksAuthor event then checkShape policy event.pr else none with
  | some r => .done (.turnAway r)
  | none => judgeCap analyzer policy event

/-! ## The gate judges and then carries out -/

/-- The default label is the carrying out of its effects. -/
theorem defaultLabel_eq (requirements : LabelSet) :
    defaultLabel event requirements = Program.performAll (defaultEffects event requirements) := by
  unfold defaultLabel defaultEffects
  split <;> rfl

/-- The steps on the files are to judge and then to carry out the verdict. -/
theorem filesGate_eq : filesGate analyzer policy event =
    (judgeFiles analyzer policy event).bind (Verdict.carryOut policy event) := by
  simp only [filesGate, judgeFiles, Program.bind_eq, Program.bind_assoc]
  congr 1
  funext files
  rcases if event.action = .readyForReview then none else checkExtensions policy files with _ | r
  · simp only [comply, Program.bind_eq, Program.pure_eq, Program.bind_assoc, Program.bind]
    congr 1
    funext report
    simp only [Verdict.carryOut, Verdict.writes, Verdict.outcome, Program.performAll_append,
      Program.bind_assoc, defaultLabel_eq]
  · rfl

theorem draftGate_eq : draftGate analyzer policy event =
    (judgeDraft analyzer policy event).bind (Verdict.carryOut policy event) := by
  unfold draftGate judgeDraft
  rw [filesGate_eq]
  rcases event.action <;> cases event.pr.draft <;> rfl

theorem capGate_eq : capGate analyzer policy event =
    (judgeCap analyzer policy event).bind (Verdict.carryOut policy event) := by
  unfold capGate judgeCap
  rw [draftGate_eq]
  split
  · simp only [Program.bind_eq, Program.bind_assoc]
    congr 1
    funext search
    rcases checkOpenPrs policy event.pr search with _ | r <;> rfl
  · rfl

/-- The gate reads until it has a verdict, and then carries it out. -/
theorem run_eq_judge : run analyzer policy event =
    (judge analyzer policy event).bind (Verdict.carryOut policy event) := by
  unfold run judge shapeGate
  rw [capGate_eq]
  split
  · rfl
  · rcases if asksAuthor event then checkShape policy event.pr else none with _ | r <;> rfl

end

/-! ## What the checks find -/

/-- A check that can turn a pull request away. -/
inductive Check where
  | shape
  | openPrs
  | extensions
  deriving DecidableEq

namespace Check

/-- All checks, in their order. -/
def all : List Check := [shape, openPrs, extensions]

variable (policy : Policy) (event : PullRequestEvent)

/-- Whether a check is made: the first two of new pull requests by authors who are not privileged,
the second only if there is a limit, and the last of new commits that are not a draft's. -/
def applies : Check → Bool
  | shape => asksAuthor event
  | openPrs => asksAuthor event && policy.maxOpenPullRequests != 0
  | extensions => (event.action = .opened || event.action = .synchronize) && !event.pr.draft

/-- What a check finds by what was answered, if it needs an answer. -/
def Finds (xs : Transcript) : Check → Option Rejection → Prop
  | shape, found => checkShape policy event.pr = found
  | openPrs, found => ∃ search, (.searchOpenPrs event.pr.author, .ok (.openPrs search)) ∈ xs ∧
      checkOpenPrs policy event.pr search = found
  | extensions, found => ∃ files,
      (.listChangedFiles event.pr.number, .ok (.changedFiles files)) ∈ xs ∧
      checkExtensions policy files = found

/-- Of some checks, the first that applies and fails finds this. -/
inductive FirstFault (xs : Transcript) (r : Rejection) : List Check → Prop
  | here {c : Check} {cs : List Check} (happlies : c.applies policy event = true)
      (hfinds : c.Finds policy event xs (some r)) : FirstFault xs r (c :: cs)
  | later {c : Check} {cs : List Check}
      (hpassed : c.applies policy event = true → c.Finds policy event xs none)
      (h : FirstFault xs r cs) : FirstFault xs r (c :: cs)

/-- Of some checks, none that applies fails. -/
def Passed (xs : Transcript) (cs : List Check) : Prop :=
  ∀ c ∈ cs, c.applies policy event = true → c.Finds policy event xs none

variable {policy event}

/-- What a check finds in the answers it still finds when there are more. -/
theorem Finds.mono {xs ys : Transcript} (hsub : xs ⊆ ys) {c : Check} {found : Option Rejection}
    (h : c.Finds policy event xs found) : c.Finds policy event ys found := by
  cases c with
  | shape => exact h
  | openPrs =>
    obtain ⟨search, hmem, hfound⟩ := h
    exact ⟨search, hsub hmem, hfound⟩
  | extensions =>
    obtain ⟨files, hmem, hfound⟩ := h
    exact ⟨files, hsub hmem, hfound⟩

/-- The first fault stays the first when there are more answers. -/
theorem FirstFault.mono {xs ys : Transcript} (hsub : xs ⊆ ys) {r : Rejection} {cs : List Check}
    (h : FirstFault policy event xs r cs) : FirstFault policy event ys r cs := by
  induction h with
  | here happlies hfinds => exact .here happlies (hfinds.mono hsub)
  | later hpassed _ ih => exact .later (fun happlies => (hpassed happlies).mono hsub) ih

/-- Only a check that applies fails. -/
theorem FirstFault.exists_applies {xs : Transcript} {r : Rejection} {cs : List Check}
    (h : FirstFault policy event xs r cs) : ∃ c : Check, c.applies policy event = true := by
  induction h with
  | here happlies _ => exact ⟨_, happlies⟩
  | later _ _ ih => exact ih

/-- If none of the later checks fails and the first does not either, none fails. -/
theorem Passed.cons {xs : Transcript} {c : Check} {cs : List Check}
    (hc : c.applies policy event = true → c.Finds policy event xs none)
    (h : Passed policy event xs cs) : Passed policy event xs (c :: cs) := by
  intro d hd
  rcases List.mem_cons.1 hd with rfl | hd
  · exact hc
  · exact h d hd

end Check

/-! ## Which verdicts there are -/

section

variable (analyzer : Analyzer) (policy : Policy) (event : PullRequestEvent)

/-- The verdicts on a pull request that was not turned away before, as far as some checks decide
them, and what was answered until then. -/
inductive Judged (cs : List Check) (xs : Transcript) : Verdict → Prop
  /-- A check fails, and those before it did not. -/
  | turnAway {r : Rejection} (hfault : Check.FirstFault policy event xs r cs) :
      Judged cs xs (.turnAway r)
  /-- New commits are a draft's. -/
  | draft (hpassed : Check.Passed policy event xs cs)
      (haction : event.action = .opened ∨ event.action = .synchronize)
      (hdraft : event.pr.draft = true) : Judged cs xs .draft
  /-- There are no new commits, and no draft became ready. -/
  | unasked (hopened : event.action ≠ .opened) (hsynchronize : event.action ≠ .synchronize)
      (hready : event.action ≠ .readyForReview) : Judged cs xs .unasked
  /-- No check fails, and the sources are analysed. -/
  | analyzed {files : List FileChange} {ys : Transcript} {report : Report}
      (hpassed : Check.Passed policy event xs cs)
      (haction : (event.action = .opened ∨ event.action = .synchronize) ∧ event.pr.draft = false ∨
        event.action = .readyForReview)
      (hfiles : (.listChangedFiles event.pr.number, .ok (.changedFiles files)) ∈ xs)
      (hreport : (analyzeFiles analyzer event (Compliance.sources policy files)
        (.empty (Compliance.hasTestFile policy files))).Plays ys (.ok report))
      (hys : ys ⊆ xs) : Judged cs xs (.analyzed report)

end

variable {analyzer : Analyzer} {policy : Policy} {event : PullRequestEvent}

/-- One check more that does not fail changes no verdict, and neither do earlier answers. -/
theorem Judged.cons {c : Check} {cs : List Check} {xs ys : Transcript} {v : Verdict}
    (hsub : xs ⊆ ys) (hc : c.applies policy event = true → c.Finds policy event ys none)
    (h : Judged analyzer policy event cs xs v) : Judged analyzer policy event (c :: cs) ys v := by
  have passed (hp : Check.Passed policy event xs cs) : Check.Passed policy event ys (c :: cs) :=
    .cons hc fun d hd happlies => (hp d hd happlies).mono hsub
  cases h with
  | turnAway hfault => exact .turnAway (.later hc (hfault.mono hsub))
  | draft hpassed haction hdraft => exact .draft (passed hpassed) haction hdraft
  | unasked hopened hsynchronize hready => exact .unasked hopened hsynchronize hready
  | analyzed hpassed haction hfiles hreport hys =>
    exact .analyzed (passed hpassed) haction (hsub hfiles) hreport (List.Subset.trans hys hsub)

/-- What is judged on the files is decided by the check of extensions. -/
theorem judged_of_plays_judgeFiles {xs : Transcript} {v : Verdict}
    (haction : (event.action = .opened ∨ event.action = .synchronize) ∧ event.pr.draft = false ∨
      event.action = .readyForReview)
    (h : (judgeFiles analyzer policy event).Plays xs (.ok v)) :
    Judged analyzer policy event [.extensions] xs v := by
  obtain ⟨ys, files, zs, hys, hrest, rfl⟩ := h.of_bind_ok
  have hfiles : (.listChangedFiles event.pr.number, .ok (.changedFiles files)) ∈ ys ++ zs := by
    rw [hys.changedFiles]
    exact List.mem_cons_self
  -- when a draft is made ready its changed files are analyzed at once, and their names are not
  -- checked
  by_cases hready : event.action = .readyForReview
  · have hpassed : Check.Passed policy event (ys ++ zs) [.extensions] := by
      intro c hc happlies
      obtain rfl := List.mem_singleton.1 hc
      simp [Check.applies, hready] at happlies
    rw [if_pos hready] at hrest
    obtain ⟨us, report, vs, hus, hv, rfl⟩ := hrest.of_bind_ok
    obtain ⟨rfl, hv⟩ := Program.plays_done_iff.1 hv
    cases hv
    exact .analyzed hpassed haction hfiles hus (by simp)
  · rw [if_neg hready] at hrest
    have happlies : Check.applies policy event .extensions = true := by
      simp only [hready, or_false] at haction
      simpa [Check.applies] using haction
    rcases hfound : checkExtensions policy files with _ | r
    · rw [hfound] at hrest
      obtain ⟨us, report, vs, hus, hv, rfl⟩ := hrest.of_bind_ok
      obtain ⟨rfl, hv⟩ := Program.plays_done_iff.1 hv
      cases hv
      refine .analyzed ?_ haction hfiles hus (by simp)
      intro c hc _
      obtain rfl := List.mem_singleton.1 hc
      exact ⟨files, hfiles, hfound⟩
    · rw [hfound] at hrest
      obtain ⟨rfl, hv⟩ := Program.plays_done_iff.1 hrest
      cases hv
      exact .turnAway (.here happlies ⟨files, hfiles, hfound⟩)

/-- What is judged from the look at drafts on is decided by the same check. -/
theorem judged_of_plays_judgeDraft {xs : Transcript} {v : Verdict}
    (h : (judgeDraft analyzer policy event).Plays xs (.ok v)) :
    Judged analyzer policy event [.extensions] xs v := by
  -- commits that came with the opening or later are judged alike
  have judged_of_commits (haction : event.action = .opened ∨ event.action = .synchronize)
      (h : (if event.pr.draft then .done .draft
        else judgeFiles analyzer policy event).Plays xs (.ok v)) :
      Judged analyzer policy event [.extensions] xs v := by
    rcases hdraft : event.pr.draft with _ | _
    · rw [hdraft] at h
      exact judged_of_plays_judgeFiles (.inl ⟨haction, hdraft⟩) h
    · rw [hdraft] at h
      obtain ⟨rfl, hv⟩ := Program.plays_done_iff.1 h
      cases hv
      refine .draft ?_ haction hdraft
      intro c hc happlies
      obtain rfl := List.mem_singleton.1 hc
      simp [Check.applies, hdraft] at happlies
  have judged_of_other (hopened : event.action ≠ .opened)
      (hsynchronize : event.action ≠ .synchronize) (hready : event.action ≠ .readyForReview)
      (h : (Program.done Verdict.unasked).Plays xs (.ok v)) :
      Judged analyzer policy event [.extensions] xs v := by
    obtain ⟨rfl, hv⟩ := Program.plays_done_iff.1 h
    cases hv
    exact .unasked hopened hsynchronize hready
  unfold judgeDraft at h
  cases haction : event.action <;> rw [haction] at h
  case opened => exact judged_of_commits (.inl haction) h
  case synchronize => exact judged_of_commits (.inr haction) h
  case readyForReview => exact judged_of_plays_judgeFiles (.inr haction) h
  all_goals exact judged_of_other (by simp [haction]) (by simp [haction]) (by simp [haction]) h

/-- What is judged from the look at other pull requests on is decided by this check and that of
extensions. -/
theorem judged_of_plays_judgeCap {xs : Transcript} {v : Verdict}
    (h : (judgeCap analyzer policy event).Plays xs (.ok v)) :
    Judged analyzer policy event [.openPrs, .extensions] xs v := by
  unfold judgeCap at h
  by_cases hasks : asksAuthor event ∧ policy.maxOpenPullRequests ≠ 0
  · rw [if_pos hasks] at h
    have happlies : Check.applies policy event .openPrs = true := by
      simpa [Check.applies] using hasks
    obtain ⟨ys, search, zs, hys, hrest, rfl⟩ := h.of_bind_ok
    have hsearch : (.searchOpenPrs event.pr.author, .ok (.openPrs search)) ∈ ys ++ zs := by
      rw [hys.openPrs]
      exact List.mem_cons_self
    rcases hfound : checkOpenPrs policy event.pr search with _ | r
    · rw [hfound] at hrest
      exact (judged_of_plays_judgeDraft hrest).cons (List.subset_append_right ys zs)
        fun _ => ⟨search, hsearch, hfound⟩
    · rw [hfound] at hrest
      obtain ⟨rfl, hv⟩ := Program.plays_done_iff.1 hrest
      cases hv
      exact .turnAway (.here happlies ⟨search, hsearch, hfound⟩)
  -- no search is made, and the check does not apply either
  · rw [if_neg hasks] at h
    refine (judged_of_plays_judgeDraft h).cons (List.Subset.refl xs) fun happlies => ?_
    exact absurd (by simpa [Check.applies] using happlies) hasks

/-- **The verdicts of the gate.** A pull request that was turned away before is left alone at once,
and of every other the checks decide. -/
theorem judged_of_plays {xs : Transcript} {v : Verdict}
    (h : (judge analyzer policy event).Plays xs (.ok v)) :
    event.pr.isSettled = true ∧ v = .settled ∧ xs = [] ∨
      event.pr.isSettled = false ∧ Judged analyzer policy event Check.all xs v := by
  unfold judge at h
  rcases hsettled : event.pr.isSettled with _ | _
  · rw [hsettled] at h
    refine .inr ⟨rfl, ?_⟩
    by_cases hasks : asksAuthor event = true
    · rw [if_pos hasks] at h
      rcases hfound : checkShape policy event.pr with _ | r
      · rw [hfound] at h
        exact (judged_of_plays_judgeCap h).cons (List.Subset.refl xs) fun _ => hfound
      · rw [hfound] at h
        obtain ⟨rfl, hv⟩ := Program.plays_done_iff.1 h
        cases hv
        exact .turnAway (.here hasks hfound)
    -- the author is not asked, and the cap applies to no one who is not asked
    · rw [if_neg hasks] at h
      exact (judged_of_plays_judgeCap h).cons (List.Subset.refl xs) fun happlies =>
        absurd happlies hasks
  · rw [hsettled] at h
    obtain ⟨rfl, hv⟩ := Program.plays_done_iff.1 h
    cases hv
    exact .inl ⟨rfl, rfl, rfl⟩

/-! ## Judging is reading -/

/-- The analysis of files only reads. -/
theorem ofReads_analyzeFiles (files : List FileChange) (report : Report) :
    (analyzeFiles analyzer event files report).OfReads := by
  induction files generalizing report with
  | nil => exact .done report
  | cons f files ih => exact .bind (.fileContent _ _) fun _ => ih _

/-- To judge on the files only reads. -/
theorem ofReads_judgeFiles : (judgeFiles analyzer policy event).OfReads := by
  refine .bind (.changedFiles _) fun files => ?_
  split
  · exact .done _
  · exact .bind (ofReads_analyzeFiles _ _) fun _ => .done _

theorem ofReads_judgeDraft : (judgeDraft analyzer policy event).OfReads := by
  unfold judgeDraft
  split
  case h_1 | h_2 =>
    split
    · exact .done _
    · exact ofReads_judgeFiles
  case h_3 => exact ofReads_judgeFiles
  case h_4 => exact .done _

theorem ofReads_judgeCap : (judgeCap analyzer policy event).OfReads := by
  unfold judgeCap
  split
  · refine .bind (.openPrs _) fun search => ?_
    split
    · exact .done _
    · exact ofReads_judgeDraft
  · exact ofReads_judgeDraft

/-- All that the gate asks for before it has a verdict is a read. -/
theorem ofReads_judge : (judge analyzer policy event).OfReads := by
  unfold judge
  split
  · exact .done _
  · split
    · exact .done _
    · exact ofReads_judgeCap

end PullGate.Gate
