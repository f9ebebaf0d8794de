import PullGate.Proofs.Json.Variants
import PullGate.Proofs.Json.Yielding
import PullGate.Wire.Forms
/-!
# Documents

The kinds of data that are passed on as texts: effects and their answers, settings, snapshots, events,
labels, violations and runs of checks. `read_written` says that each is read as what was written, and
that writing what was read loses nothing of it.
-/

namespace PullGate

open PullGate.Json (Branches Fields Form Shape depthLimit)

/-- The numbers of a place fit 64 bits. -/
def Text.Location.Fits (l : Location) : Prop := l.line < UInt64.size ∧ l.column < UInt64.size

namespace Wire

/-! ## Parts -/

section

variable (d : Nat)

theorem keeps_label (l : Label) : label.Keeps d l := Label.ofName?_name l

theorem keeps_action (a : Action) : action.Keeps d a := Action.ofName?_name a

theorem keeps_reviewAction (a : ReviewAction) : reviewAction.Keeps d a := ReviewAction.ofName?_name a

theorem keeps_association (a : Association) : association.Keeps d a := by
  have hfind : Association.all.find? (fun b => b.name = a.name) = some a := by cases a <;> decide
  exact hfind

theorem keeps_reviewState (s : ReviewState) : reviewState.Keeps d s := by
  have hfind : ReviewState.all.find? (fun b => b.name = s.name) = some s := by cases s <;> decide
  exact hfind

theorem keeps_fileStatus (s : FileStatus) : fileStatus.Keeps d s := by
  have hfind : FileStatus.all.find? (fun b => b.name = s.name) = some s := by cases s <;> decide
  exact hfind

theorem keeps_rule (r : Compliance.Rule) : rule.Keeps d r := by
  have hfind : Compliance.Rule.all.find? (fun b => b.name = r.name) = some r := by cases r <;> decide
  exact hfind

theorem keeps_prNumber (n : PrNumber) : prNumber.Keeps d n := ⟨trivial, rfl⟩

theorem keeps_commit (c : Commit) : commit.Keeps d c := ⟨trivial, rfl⟩

theorem keeps_labels (s : LabelSet) : labels.Keeps (d + 1) s :=
  ⟨⟨Nat.succ_pos d, fun l _ => keeps_label d l⟩, LabelSet.ofList_toList s⟩

theorem keeps_texts (ts : List String) : texts.Keeps (d + 1) ts :=
  ⟨Nat.succ_pos d, fun _ _ => trivial⟩

theorem keeps_repository (r : Repository) : repository.Keeps (d + 1) r :=
  ⟨⟨Nat.succ_pos d, by decide, trivial, trivial, trivial⟩, rfl⟩

theorem keeps_review (r : Review) : review.Keeps (d + 1) r :=
  ⟨⟨Nat.succ_pos d, by decide, keeps_reviewState d r.state, keeps_association d r.association, trivial,
    trivial⟩, rfl⟩

theorem keeps_snapshot (p : Snapshot) : snapshot.Keeps (d + 2) p :=
  ⟨⟨Nat.succ_pos _, by decide, keeps_prNumber _ p.number, trivial, trivial, trivial, trivial,
    keeps_association _ p.association, keeps_labels d p.labels, trivial, keeps_texts d p.reviewers,
    keeps_commit _ p.head, trivial⟩, rfl⟩

theorem keeps_installation (i : Option Installation) : (Shape.optional installation).Keeps d i := by
  rintro i rfl
  exact ⟨⟨trivial, rfl⟩, nofun⟩

theorem keeps_optionalText (t : Option String) : (Shape.optional .text).Keeps d t := by
  rintro t rfl
  exact ⟨trivial, nofun⟩

theorem keeps_pullRequestEvent (e : PullRequestEvent) : pullRequestEvent.Keeps (d + 3) e :=
  ⟨⟨Nat.succ_pos _, by decide, keeps_repository _ e.repository, keeps_action _ e.action,
    keeps_snapshot d e.pr, keeps_installation _ e.installation, keeps_optionalText _ e.label, trivial⟩,
    rfl⟩

theorem keeps_reviewEvent (e : ReviewEvent) : reviewEvent.Keeps (d + 3) e :=
  ⟨⟨Nat.succ_pos _, by decide, keeps_repository _ e.repository, keeps_reviewAction _ e.action,
    keeps_review _ e.review, keeps_snapshot d e.pr, keeps_installation _ e.installation, trivial⟩, rfl⟩

theorem keeps_fileChange (f : FileChange) : fileChange.Keeps (d + 1) f :=
  ⟨⟨Nat.succ_pos d, by decide, trivial, trivial, keeps_fileStatus d f.status, trivial⟩, rfl⟩

theorem keeps_checkRun (r : CheckRun) : checkRun.Keeps (d + 1) r :=
  ⟨⟨Nat.succ_pos d, by decide, trivial, keeps_optionalText d r.conclusion, trivial⟩, rfl⟩

theorem keeps_openSearch (s : OpenSearch) : openSearch.Keeps (d + 2) s :=
  ⟨⟨Nat.succ_pos _, by decide, trivial, ⟨Nat.succ_pos d, fun n _ => keeps_prNumber d n⟩, trivial⟩, rfl⟩

theorem keeps_policy (p : Policy) : policy.Keeps (d + 2) p :=
  ⟨⟨Nat.succ_pos _, by decide, trivial, trivial, trivial, keeps_texts d p.ignoredDirs,
    keeps_texts d p.extensionlessDirs, keeps_texts d p.allowedNames, keeps_texts d p.refusedNames,
    trivial⟩, rfl⟩

end

/-! ## Places -/

/-- Places are written so that they are read back, if their numbers have 64 bits. -/
theorem keeps_location (d : Nat) {l : Text.Location} (h : l.Fits) :
    location.Keeps (d + 1) l := by
  refine ⟨⟨Nat.succ_pos d, by decide, trivial, trivial, trivial⟩, ?_⟩
  simp only [UInt64.toNat_ofNat_of_lt' h.1, UInt64.toNat_ofNat_of_lt' h.2]

theorem keeps_violation (d : Nat) {v : Compliance.Violation} (h : v.location.Fits) :
    violation.Keeps (d + 2) v :=
  ⟨⟨Nat.succ_pos _, by decide, keeps_rule _ v.rule, keeps_location d h, trivial, trivial⟩, rfl⟩

/-- Places that are read have numbers of 64 bits. -/
theorem fits_of_yields {l : Text.Location} (h : location.Yields l) : l.Fits := by
  obtain ⟨⟨line, column, _⟩, -, rfl⟩ := h
  exact ⟨line.toNat_lt, column.toNat_lt⟩

theorem fits_of_yields_violation {v : Compliance.Violation} (h : violation.Yields v) :
    v.location.Fits := by
  obtain ⟨⟨r, l, m, _⟩, ⟨-, hl, -⟩, rfl⟩ := h
  rcases hl with hl | hl | hl
  · exact fits_of_yields hl
  · cases hl
  · cases hl

/-! ## Variants -/

/-- Events of both kinds are written so that they are read back. -/
theorem keeps_event (d : Nat) (e : Event) : event.Keeps (d + 4) e := by
  refine ⟨Nat.succ_pos _, by decide, ?_⟩
  cases e with
  | pullRequest e => exact ⟨keeps_pullRequestEvent d e, rfl, by simp [pullRequestEvent, Shape.absent]⟩
  | review e => exact ⟨keeps_reviewEvent d e, rfl, by simp [reviewEvent, Shape.absent]⟩

theorem keeps_effect (d : Nat) (e : Effect) : effect.Keeps (d + 2) e := by
  refine ⟨by decide, ?_, ?_⟩
  · cases e <;>
      simp [effectBranches, Branches.Keeps, Shape.Keeps, Fields.Keeps, Fields.names, Shape.absent,
        keeps_prNumber, keeps_commit, keeps_label, keeps_texts]
  · -- each variant is a record, and none of its members is called like the variant's name
    cases e <;> exact ⟨_, _, _, rfl, by simp [Fields.map_fst_write, Fields.names]⟩

theorem keeps_response (d : Nat) (r : Response) : response.Keeps (d + 3) r := by
  refine ⟨Nat.succ_pos _, by decide, by decide, ?_⟩
  cases r with
  | changedFiles fs =>
    exact ⟨⟨Nat.succ_pos _, fun f _ => keeps_fileChange d f⟩, rfl, by simp [Shape.absent]⟩
  | fileContent t => exact ⟨trivial, rfl, by simp [Shape.absent]⟩
  | openPrs s => exact ⟨keeps_openSearch d s, rfl, by simp [openSearch, Shape.absent]⟩
  | checkRuns rs => exact ⟨⟨Nat.succ_pos _, fun r _ => keeps_checkRun d r⟩, rfl, by simp [Shape.absent]⟩
  | _ => exact ⟨trivial, rfl, fun _ _ => rfl⟩

/-! ## Documents -/

/-- A kind of data that is passed on as a text. -/
inductive Document where
  | effect
  | response
  | policy
  | snapshot
  | event
  | labels
  | violation
  | checkRun
  deriving DecidableEq, Repr

namespace Document

/-- What a document of the kind tells. -/
def Data : Document → Type
  | effect => Effect
  | response => Response
  | policy => Policy
  | snapshot => Snapshot
  | event => Event
  | labels => LabelSet
  | violation => Compliance.Violation
  | checkRun => CheckRun

/-- How documents of the kind look. -/
def form : (k : Document) → Form k.Data
  | effect => Wire.effect
  | response => Wire.response
  | policy => .plain Wire.policy
  | snapshot => .plain Wire.snapshot
  | event => Wire.event
  | labels => .plain Wire.labels
  | violation => .plain Wire.violation
  | checkRun => .plain Wire.checkRun

/-- All numbers in the data fit 64 bits. Only places have numbers of any size. -/
def Fits : (k : Document) → k.Data → Prop
  | violation, v => v.location.Fits
  | _, _ => True

/-- Every document that fits is written so that it is read back. -/
theorem keeps : ∀ (k : Document) {a : k.Data}, k.Fits a → k.form.Keeps (depthLimit - 1) a
  | effect, _, _ => keeps_effect _ _
  | response, _, _ => keeps_response _ _
  | policy, _, _ => keeps_policy _ _
  | snapshot, _, _ => keeps_snapshot _ _
  | event, _, _ => keeps_event _ _
  | labels, _, _ => keeps_labels _ _
  | violation, _, h => keeps_violation _ h
  | checkRun, _, _ => keeps_checkRun _ _

/-- Every document that is read fits. -/
theorem fits_of_ofBytes : ∀ (k : Document) {bytes : List UInt8} {a : k.Data},
    k.form.ofBytes bytes = .ok a → k.Fits a
  | violation, _, _, h => fits_of_yields_violation (Shape.yields_of_ofBytes (s := Wire.violation) h)
  | effect, _, _, _ | response, _, _, _ | policy, _, _, _ | snapshot, _, _, _ | event, _, _, _
  | labels, _, _, _ | checkRun, _, _, _ => trivial

/-- **Documents are read as they were written.** Of every kind of document: the text that is written for
any data, as long as its numbers fit 64 bits, is read as this data, and whatever is read from a text has
such numbers, so that writing it and reading it once more comes to the same data. -/
theorem read_written (k : Document) :
    (∀ a : k.Data, k.Fits a → k.form.ofBytes (k.form.write a).bytes = .ok a) ∧
      ∀ bytes (a : k.Data), k.form.ofBytes bytes = .ok a →
        k.Fits a ∧ k.form.ofBytes (k.form.write a).bytes = .ok a := by
  have hwritten (a : k.Data) (h : k.Fits a) : k.form.ofBytes (k.form.write a).bytes = .ok a :=
    Form.ofBytes_write (by decide) (k.keeps h)
  refine ⟨hwritten, fun bytes a hread => ?_⟩
  have hfits := k.fits_of_ofBytes hread
  exact ⟨hfits, hwritten a hfits⟩

/-- A violation in the third line is such data. -/
theorem read_written_violation :
    let v : Compliance.Violation := ⟨.nonDescriptiveName, ⟨3, 7⟩, "a name of one letter"⟩
    let bytes := (Document.violation.form.write v).bytes
    Document.violation.Fits v ∧ Document.violation.form.ofBytes bytes = .ok v := by
  intro v bytes
  have hfits : Document.violation.Fits v := ⟨by decide, by decide⟩
  have hread := (read_written .violation).1 v hfits
  exact (read_written .violation).2 bytes v hread

end Document

end Wire

end PullGate
