import PullGate.Proofs.Duplicate
/-!
# What the gate passes over

Some of what the gate is told makes no difference to it. An event's addresses, its repository and its
installation are only passed on. Of a search for open pull requests the numbers count and not their
total; and of an author who is not asked for anything, neither the search nor the description counts,
nor what the policy says about them. Two runs that differ in these alone record the same effects and
end alike (`gate_unconcerned`).

The argument has two halves. A program overlooks a difference between answers if it goes on alike
after both (`Program.Overlooks`), and then two hosts with this difference give the same run. A
difference between events or policies is not even in the program (`Gate.run_congr`).
-/

namespace PullGate

open PullGate.Compliance (Analyzer)

/-! ## Hosts that answer alike -/

/-- Which two answers to an effect are alike. -/
abbrev Likeness := Effect → Except String Response → Except String Response → Prop

section

variable {σ τ α β : Type} {like : Likeness}

/-- Two hosts answer alike wherever their states belong together, and such states lead to such
states. -/
structure Host.Alike (like : Likeness) (host : Host σ) (host' : Host τ)
    (paired : σ → τ → Prop) : Prop where
  answer : ∀ s t e, paired s t → like e (host.answer s e).1 (host'.answer t e).1
  next : ∀ s t e, paired s t → paired (host.answer s e).2 (host'.answer t e).2

namespace Program

/-- A program that goes on in the same way after answers that are alike. -/
inductive Overlooks (like : Likeness) : Program α → Prop
  | done (a : α) : Overlooks like (.done a)
  | mismatch (e : Effect) (r : Response) : Overlooks like (.mismatch e r)
  | call {e : Effect} {next : Response → Program α}
      (hlike : ∀ a b, like e a b →
        a = b ∨ ∃ r r', a = .ok r ∧ b = .ok r' ∧ next r = next r')
      (h : ∀ r, Overlooks like (next r)) : Overlooks like (.call e next)

theorem Overlooks.bind {p : Program α} {f : α → Program β} (hp : p.Overlooks like)
    (hf : ∀ a, (f a).Overlooks like) : (p.bind f).Overlooks like := by
  induction hp with
  | done a => exact hf a
  | mismatch e r => exact .mismatch e r
  | call hlike _ ih =>
    refine .call (fun a b hab => ?_) ih
    rcases hlike a b hab with heq | ⟨r, r', ha, hb, hsame⟩
    · exact .inl heq
    · exact .inr ⟨r, r', ha, hb, by rw [hsame]⟩

/-- **Two runs.** Hosts that answer alike give the same run of a program that overlooks the
difference. -/
theorem Overlooks.run_eq {p : Program α} (hp : p.Overlooks like) {host : Host σ} {host' : Host τ}
    {paired : σ → τ → Prop} (hhosts : Host.Alike like host host' paired) {s : σ} {t : τ}
    (hst : paired s t) : (p.run host s).1 = (p.run host' t).1 := by
  induction hp generalizing s t with
  | done a => rfl
  | mismatch e r => rfl
  | @call e next hlike _ ih =>
    have hanswer := hhosts.answer s t e hst
    have hnext := hhosts.next s t e hst
    rcases hs : host.answer s e with ⟨a, s'⟩
    rcases ht : host'.answer t e with ⟨b, t'⟩
    rw [hs, ht] at hanswer hnext
    rcases hlike a b hanswer with rfl | ⟨r, r', rfl, rfl, hsame⟩
    · cases a with
      | error m => simp only [run, hs, ht]
      | ok r => simp only [run, hs, ht, ih r hnext]
    · have hrest := ih r' hnext
      rw [← hsame] at hrest
      simp only [run, hs, ht, ← hsame, hrest]

end Program

end

/-! ## Searches -/

/-- Answers to a search are alike if they name the same pull requests, or in any case if searches do
not count. To everything else the answer is the same. -/
def Likeness.ofSearches (counts : Prop) : Likeness
  | .searchOpenPrs _, a, b => counts →
    a = b ∨ ∃ total total' numbers,
      a = .ok (.openPrs ⟨total, numbers⟩) ∧ b = .ok (.openPrs ⟨total', numbers⟩)
  | _, a, b => a = b

namespace Program

variable {α : Type} {counts : Prop}

/-- Writes overlook what searches count. -/
theorem overlooks_performAll {ws : List Effect} (h : ∀ w ∈ ws, w.isWrite = true) :
    (performAll ws).Overlooks (.ofSearches counts) := by
  induction ws with
  | nil => exact .done ()
  | cons w ws ih =>
    have hw := h w List.mem_cons_self
    have hrest := ih fun v hv => h v (List.mem_cons_of_mem w hv)
    refine .call (fun a b hab => .inl ?_) fun _ => hrest
    cases w <;> first | exact hab | cases hw

theorem overlooks_changedFiles (pr : PrNumber) :
    (changedFiles pr).Overlooks (.ofSearches counts) := by
  refine .call (fun a b hab => .inl hab) fun r => ?_
  cases r <;> first | exact .done _ | exact .mismatch _ _

theorem overlooks_fileContent (path : String) (reference : Commit) :
    (fileContent path reference).Overlooks (.ofSearches counts) := by
  refine .call (fun a b hab => .inl hab) fun r => ?_
  cases r <;> first | exact .done _ | exact .mismatch _ _

/-- After a search whose total is not looked at, its numbers decide. -/
theorem overlooks_openPrs_bind (hcounts : counts) {author : String} {f : OpenSearch → Program α}
    (htotal : ∀ total total' numbers, f ⟨total, numbers⟩ = f ⟨total', numbers⟩)
    (hf : ∀ search, (f search).Overlooks (.ofSearches counts)) :
    ((openPrs author).bind f).Overlooks (.ofSearches counts) := by
  refine .call (fun a b hab => ?_) fun r => ?_
  · rcases hab hcounts with heq | ⟨total, total', numbers, ha, hb⟩
    · exact .inl heq
    · exact .inr ⟨_, _, ha, hb, htotal total total' numbers⟩
  · cases r <;> first | exact hf _ | exact .mismatch _ _

end Program

namespace Gate

variable {counts : Prop} {analyzer : Analyzer} {policy : Policy} {event : PullRequestEvent}

theorem overlooks_carryOut (v : Verdict) :
    (v.carryOut policy event).Overlooks (.ofSearches counts) :=
  (Program.overlooks_performAll v.isWrite_eq_true).bind fun _ => .done _

theorem overlooks_analyzeFiles (files : List FileChange) (report : Compliance.Report) :
    (analyzeFiles analyzer event files report).Overlooks (.ofSearches counts) := by
  induction files generalizing report with
  | nil => exact .done report
  | cons f files ih => exact (Program.overlooks_fileContent _ _).bind fun _ => ih _

theorem overlooks_judgeFiles :
    (judgeFiles analyzer policy event).Overlooks (.ofSearches counts) := by
  refine (Program.overlooks_changedFiles _).bind fun files => ?_
  split
  · exact .done _
  · exact (overlooks_analyzeFiles _ _).bind fun _ => .done _

theorem overlooks_judgeDraft :
    (judgeDraft analyzer policy event).Overlooks (.ofSearches counts) := by
  unfold judgeDraft
  split
  case h_1 | h_2 =>
    split
    · exact .done _
    · exact overlooks_judgeFiles
  case h_3 => exact overlooks_judgeFiles
  case h_4 => exact .done _

/-- The gate looks at a search only where its author is asked, and there at the numbers alone. -/
theorem overlooks_run :
    (run analyzer policy event).Overlooks (.ofSearches (asksAuthor event = true)) := by
  have hcap : (judgeCap analyzer policy event).Overlooks
      (.ofSearches (asksAuthor event = true)) := by
    unfold judgeCap
    split
    · rename_i hasks
      refine Program.overlooks_openPrs_bind hasks.1 (fun total total' numbers => rfl) fun search => ?_
      split
      · exact .done _
      · exact overlooks_judgeDraft
    · exact overlooks_judgeDraft
  rw [run_eq_judge]
  refine Program.Overlooks.bind ?_ overlooks_carryOut
  unfold judge
  split
  · exact .done _
  · split
    · exact .done _
    · exact hcap

end Gate

/-! ## Events and policies -/

/-- Something happened for which the gate asks the author: a pull request was opened by someone who is
not privileged. -/
structure PullRequestEvent.ByStranger (e : PullRequestEvent) : Prop where
  opened : e.action = .opened
  association : e.pr.association.isPrivileged = false

/-- Two events differ at most in addresses, repository and installation, and in their descriptions if
the author is not asked. -/
structure PullRequestEvent.Alike (e e' : PullRequestEvent) : Prop where
  action : e'.action = e.action
  label : e'.label = e.label
  number : e'.pr.number = e.pr.number
  author : e'.pr.author = e.pr.author
  association : e'.pr.association = e.pr.association
  labels : e'.pr.labels = e.pr.labels
  draft : e'.pr.draft = e.pr.draft
  reviewers : e'.pr.reviewers = e.pr.reviewers
  head : e'.pr.head = e.pr.head
  body : e.ByStranger → e'.pr.body = e.pr.body

/-- Two policies differ at most in what they say about authors, and in nothing if authors are
asked. -/
structure Policy.Alike (asked : Prop) (p p' : Policy) : Prop where
  sourceExtension : p'.sourceExtension = p.sourceExtension
  ignoredDirs : p'.ignoredDirs = p.ignoredDirs
  extensionlessDirs : p'.extensionlessDirs = p.extensionlessDirs
  allowedNames : p'.allowedNames = p.allowedNames
  refusedNames : p'.refusedNames = p.refusedNames
  maxOpenPullRequests : asked → p'.maxOpenPullRequests = p.maxOpenPullRequests
  checklistMarker : asked → p'.checklistMarker = p.checklistMarker

/-- The author is asked exactly for new pull requests of strangers. -/
theorem PullRequestEvent.asksAuthor_iff (e : PullRequestEvent) :
    Gate.asksAuthor e = true ↔ e.ByStranger := by
  rw [Gate.asksAuthor, Bool.and_eq_true, decide_eq_true_eq, Bool.not_eq_true']
  constructor
  · rintro ⟨hopened, hprivileged⟩
    exact ⟨hopened, hprivileged⟩
  · rintro ⟨hopened, hprivileged⟩
    exact ⟨hopened, hprivileged⟩

namespace Gate

variable {analyzer : Analyzer} {p p' : Policy} {e e' : PullRequestEvent}

/-- Events that are alike ask the author alike. -/
theorem asksAuthor_congr (he : e.Alike e') : asksAuthor e' = asksAuthor e := by
  unfold asksAuthor Snapshot.isPrivileged
  rw [he.action, he.association]

/-- For events that are alike files are analysed alike. -/
theorem analyzeFiles_congr (he : e.Alike e') (files : List FileChange)
    (report : Compliance.Report) :
    analyzeFiles analyzer e' files report = analyzeFiles analyzer e files report := by
  induction files generalizing report with
  | nil => rfl
  | cons f files ih =>
    unfold analyzeFiles
    rw [he.head]
    congr 1
    funext text
    exact ih _

/-- A report has the same effects for them. -/
theorem reportEffects_congr (he : e.Alike e') (report : Compliance.Report) :
    reportEffects e' report = reportEffects e report := by
  unfold reportEffects
  rw [he.action, he.labels, he.number, he.author]

theorem defaultLabel_congr (he : e.Alike e') (requirements : LabelSet) :
    defaultLabel e' requirements = defaultLabel e requirements := by
  unfold defaultLabel
  rw [he.action, he.labels, he.number]

/-- The gate brings labels to what is required in the same way. -/
theorem comply_congr {asked : Prop} (hp : p.Alike asked p') (he : e.Alike e')
    (files : List FileChange) : comply analyzer p' e' files = comply analyzer p e files := by
  have hsource (path : String) : Compliance.isSource p' path = Compliance.isSource p path := by
    unfold Compliance.isSource
    rw [hp.sourceExtension]
  have hsources : Compliance.sources p' files = Compliance.sources p files := by
    have hanalyzed : Compliance.isAnalyzed p' = Compliance.isAnalyzed p := by
      funext f
      unfold Compliance.isAnalyzed
      rw [hsource, hp.ignoredDirs]
    rw [Compliance.sources, hanalyzed, Compliance.sources]
  have htests : Compliance.hasTestFile p' files = Compliance.hasTestFile p files := by
    have hbrings : Compliance.bringsTest p' = Compliance.bringsTest p := by
      funext f
      unfold Compliance.bringsTest
      rw [hsource]
    rw [Compliance.hasTestFile, hbrings, Compliance.hasTestFile]
  unfold comply
  simp only [hsources, htests, analyzeFiles_congr he, reportEffects_congr he]

/-- The reasons that say something about the author name their bounds, so they are given alike by
policies with the same bounds; the other reason names only the author and the files. -/
theorem reject_congr {asked : Prop} (hp : p.Alike asked p') (he : e.Alike e') {r : Rejection}
    (hr : asked ∨ ∃ paths, r = .extensionlessFiles paths) : reject p' e' r = reject p e r := by
  have hcomment : r.comment p' e'.pr = r.comment p e.pr := by
    rcases hr with hasked | ⟨paths, rfl⟩
    · unfold Rejection.comment
      rw [hp.maxOpenPullRequests hasked, hp.checklistMarker hasked, he.author]
    · unfold Rejection.comment
      rw [he.author]
  unfold reject Rejection.effects
  rw [hcomment, he.number, he.reviewers]

/-- The steps on the files are the same. -/
theorem filesGate_congr {asked : Prop} (hp : p.Alike asked p') (he : e.Alike e') :
    filesGate analyzer p' e' = filesGate analyzer p e := by
  have hlacks : Compliance.lacksExtension p' = Compliance.lacksExtension p := by
    funext f
    unfold Compliance.lacksExtension
    rw [hp.extensionlessDirs]
  have hextensions (files : List FileChange) : checkExtensions p' files = checkExtensions p files := by
    unfold checkExtensions Compliance.extensionless
    rw [hlacks]
  unfold filesGate
  rw [he.number, he.action]
  congr 1
  funext files
  rw [hextensions, comply_congr hp he]
  -- only the check of extensions turns away here
  rcases hfound : if e.action = .readyForReview then none else checkExtensions p files with _ | r
  · simp only [defaultLabel_congr he]
  · refine reject_congr hp he (.inr ?_)
    split at hfound
    · cases hfound
    · unfold checkExtensions at hfound
      split at hfound
      · cases hfound
      · cases hfound
        exact ⟨_, rfl⟩

theorem draftGate_congr {asked : Prop} (hp : p.Alike asked p') (he : e.Alike e') :
    draftGate analyzer p' e' = draftGate analyzer p e := by
  unfold draftGate
  rw [he.action, he.draft, filesGate_congr hp he]

theorem capGate_congr (hp : p.Alike e.ByStranger p') (he : e.Alike e') :
    capGate analyzer p' e' = capGate analyzer p e := by
  unfold capGate
  rw [asksAuthor_congr he, draftGate_congr hp he]
  by_cases hasks : asksAuthor e = true
  · have hstranger := e.asksAuthor_iff.1 hasks
    have hcap := hp.maxOpenPullRequests hstranger
    have hopen (search : OpenSearch) :
        checkOpenPrs p' e'.pr search = checkOpenPrs p e.pr search := by
      unfold checkOpenPrs otherNumbers
      rw [hcap, he.number]
    simp only [hcap, he.author, hopen, reject_congr hp he (.inl hstranger)]
  · simp only [hasks, Bool.false_eq_true, false_and, if_false]

/-- Events and policies that are alike have the same program. -/
theorem run_congr (hp : p.Alike e.ByStranger p') (he : e.Alike e') :
    run analyzer p' e' = run analyzer p e := by
  unfold run shapeGate Snapshot.isSettled
  rw [he.labels, asksAuthor_congr he, capGate_congr hp he]
  by_cases hasks : asksAuthor e = true
  · have hstranger := e.asksAuthor_iff.1 hasks
    have hshape : checkShape p' e'.pr = checkShape p e.pr := by
      unfold checkShape isTicked
      rw [he.body hstranger, hp.checklistMarker hstranger]
    simp only [hasks, if_true, hshape, reject_congr hp he (.inl hstranger)]
  · simp only [hasks, Bool.false_eq_true, if_false]

end Gate

/-! ## Runs -/

/-- A review by someone who is not privileged asks for nothing. -/
theorem dispatch_review_of_unprivileged {analyzer : Analyzer} {policy : Policy} {event : ReviewEvent}
    (h : event.review.association.isPrivileged = false) :
    dispatch analyzer policy (.review event) = .done (Event.review event).handling := by
  have hnothing : Upkeep.review event = [] := by
    unfold Upkeep.review
    rw [if_neg]
    rintro ⟨-, -, hprivileged⟩
    rw [h] at hprivileged
    cases hprivileged
  have hprogram : Handler.reviewState.program analyzer policy (.review event) = .done () :=
    congrArg Program.performAll hnothing
  have hhandlers : runHandlers analyzer policy (.review event) event.action.handlers = .done () := by
    cases event.action with
    | submitted =>
      show (Handler.reviewState.program analyzer policy (.review event)).bind _ = .done ()
      rw [hprogram]
      rfl
    | dismissed => rfl
    | edited => rfl
  rw [dispatch_eq_runHandlers, show (Event.review event).handlers = event.action.handlers from rfl,
    hhandlers]
  rfl

/-- **What makes no difference.** Take two events and policies that are alike, and two hosts that
differ in their answers to searches: in the totals, and if the author is not asked, in any way. The
two runs of the gate record the same effects and end alike. A review by someone who is not
privileged records no effects, whatever else it says and whatever the host is like. -/
theorem gate_unconcerned {σ τ : Type} (analyzer : Analyzer) {policy policy' : Policy}
    {event event' : PullRequestEvent} (hpolicies : policy.Alike event.ByStranger policy')
    (hevents : event.Alike event') {host : Host σ} {host' : Host τ} {paired : σ → τ → Prop}
    (hhosts : Host.Alike (.ofSearches event.ByStranger) host host' paired) {s : σ} {t : τ}
    (hst : paired s t) :
    ((Gate.run analyzer policy event).run host s).1.effects =
        ((Gate.run analyzer policy' event').run host' t).1.effects ∧
      ((Gate.run analyzer policy event).run host s).1.result =
        ((Gate.run analyzer policy' event').run host' t).1.result ∧
      ∀ (review : ReviewEvent) {ρ : Type} (any : Host ρ) (r : ρ),
        review.review.association.isPrivileged = false →
        ((dispatch analyzer policy (.review review)).run any r).1.effects = [] ∧
        ∃ d, ((dispatch analyzer policy (.review review)).run any r).1.result = .ok d := by
  have hoverlooks := @Gate.overlooks_run analyzer policy event
  rw [event.asksAuthor_iff] at hoverlooks
  have hruns := hoverlooks.run_eq hhosts hst
  -- events and policies that are alike give one program; only the hosts are left to compare
  rw [Gate.run_congr hpolicies hevents]
  refine ⟨by rw [hruns], by rw [hruns], ?_⟩
  intro review ρ any r hreview
  rw [dispatch_review_of_unprivileged hreview]
  exact ⟨rfl, _, rfl⟩

/-- A newcomer who has another open pull request is turned away from any repository, however many the
search counts. An owner's pull request is not, whatever the limit and the description, and though
searches fail. -/
theorem gate_unconcerned_newcomer_owner :
    let run (policy : Policy) (event : PullRequestEvent) :=
      (Gate.run (fun _ => .ok []) policy event).run
    let found (total : UInt64) : Effect → Response
      | .searchOpenPrs _ => .openPrs ⟨total, [⟨2⟩]⟩
      | e => Host.plainReply [] e
    let down : Host Unit := ⟨fun _ e => match e with
      | .searchOpenPrs _ => (.error "down", ())
      | e => (.ok (Host.plainReply [] e), ())⟩
    let moved (body : String) (e : PullRequestEvent) : PullRequestEvent :=
      { e with
        repository := ⟨"octo", "fork"⟩, installation := some ⟨7⟩
        pr := { e.pr with url := "/pulls/1", htmlUrl := "/1", body } }
    let newcomer := PullRequestEvent.byNewcomer "[x]"
    let owner := PullRequestEvent.byOwner .opened none ∅
    let lenient : Policy := { Policy.standard with maxOpenPullRequests := 0, checklistMarker := "" }
    ((run .standard newcomer (.steady (found 1)) ()).1.effects.map (·.operation) =
        ["search_open_prs", "post_comment", "close_pr", "unassign_reviewers"] ∧
      (run .standard newcomer (.steady (found 1)) ()).1.effects =
        (run .standard (moved "[x]" newcomer) (.steady (found 9)) ()).1.effects) ∧
    (run .standard owner (.steady (found 1)) ()).1.effects =
        (run lenient (moved "text" owner) down ()).1.effects := by
  intro run found down moved newcomer owner lenient
  have hstrict : Policy.standard.Alike newcomer.ByStranger .standard :=
    ⟨rfl, rfl, rfl, rfl, rfl, fun _ => rfl, fun _ => rfl⟩
  have hnewcomer : newcomer.Alike (moved "[x]" newcomer) :=
    ⟨rfl, rfl, rfl, rfl, rfl, rfl, rfl, rfl, rfl, fun _ => rfl⟩
  have htotals : Host.Alike (.ofSearches newcomer.ByStranger) (.steady (found 1))
      (.steady (found 9)) fun _ _ => True := by
    refine ⟨fun _ _ e _ => ?_, fun _ _ _ _ => trivial⟩
    cases e with
    | searchOpenPrs author => exact fun _ => .inr ⟨1, 9, [⟨2⟩], rfl, rfl⟩
    | _ => rfl
  have hasked : ¬ owner.ByStranger := fun h => absurd h.association (by decide)
  have hlenient : Policy.standard.Alike owner.ByStranger lenient :=
    ⟨rfl, rfl, rfl, rfl, rfl, fun h => absurd h hasked, fun h => absurd h hasked⟩
  have howner : owner.Alike (moved "text" owner) :=
    ⟨rfl, rfl, rfl, rfl, rfl, rfl, rfl, rfl, rfl, fun h => absurd h hasked⟩
  have hdown : Host.Alike (.ofSearches owner.ByStranger) (.steady (found 1)) down
      fun _ _ => True := by
    refine ⟨fun _ _ e _ => ?_, fun _ _ _ _ => trivial⟩
    cases e with
    | searchOpenPrs author => exact fun h => absurd h hasked
    | _ => rfl
  exact ⟨⟨by decide +kernel, (gate_unconcerned _ hstrict hnewcomer htotals trivial).1⟩,
    (gate_unconcerned _ hlenient howner hdown trivial).1⟩

end PullGate
