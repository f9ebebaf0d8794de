import PullGate.Proofs.Client.Conversation
import PullGate.Proofs.Client.Message
/-!
# Replies that are misread

A success whose body is not of the right shape has no status to report, but one is looked for in the
message, and the message quotes the body. `misread_iff` says when something is found that is not there.
-/

namespace PullGate.Client

open Text (holds toSmall)

/-! ## Suspicious quotes -/

/-- The text has the word for a status in it, with a digit behind it. -/
def NamesStatus (text : String) : Prop :=
  ∃ d ∈ List.range 10, "status: ".toList ++ [Nat.digitChar d] <:+: text.toList

instance (text : String) : Decidable (NamesStatus text) :=
  inferInstanceAs (Decidable (∃ d ∈ List.range 10, _))

/-- Nothing in these texts can be taken for a status, or for a failure of the network. -/
structure Unsuspicious (quotes : List String) : Prop where
  plain : ∀ q ∈ quotes, ∀ status ∈ plainStatuses, holds q (toString status) = false
  notFound : ¬ ((∃ q ∈ quotes, holds q "404" = true) ∧
    ∃ q ∈ quotes, holds (toSmall q) "not found" = true)
  network : ∀ q ∈ quotes, mentions networkWords q = false

theorem exists_digitChar {c : Char} (hc : c.isDigit = true) : ∃ d ∈ List.range 10, Nat.digitChar d = c := by
  have hbounds : 48 ≤ c.toNat ∧ c.toNat ≤ 57 := by
    simpa [Char.isDigit, UInt32.le_iff_toNat_le] using hc
  obtain ⟨d, hd⟩ : ∃ d, c.toNat = 48 + d := ⟨c.toNat - 48, by omega⟩
  refine ⟨d, List.mem_range.2 (by omega), Char.toNat_inj.1 ?_⟩
  have hdigit : ∀ d < 10, (Nat.digitChar d).toNat = 48 + d := by decide
  rw [hdigit d (by omega), hd]

/-- A text in which a status is found under its name has one there. -/
theorem namesStatus_of_namedStatus? {text : String} {status : Nat}
    (h : namedStatus? text = some status) : NamesStatus text := by
  unfold namedStatus? at h
  split at h
  · rename_i rest hrest
    cases hdigits : rest.takeWhile Char.isDigit with
    | nil =>
      rw [hdigits] at h
      cases h
    | cons c digits =>
      have hread : c :: digits <+: rest := hdigits ▸ List.takeWhile_prefix _
      have hfront : [c] <+: rest := (List.prefix_append [c] digits).trans hread
      -- one digit behind the word is enough, whatever number it begins
      have hc : c.isDigit = true := by
        have hall := List.all_takeWhile (p := Char.isDigit) (l := rest)
        rw [hdigits, List.all_cons, Bool.and_eq_true] at hall
        exact hall.1
      obtain ⟨d, hd, rfl⟩ := exists_digitChar hc
      exact ⟨d, hd, ((List.prefix_append_right_inj _).2 hfront).isInfix.trans
        (Text.suffix_of_afterFirst? hrest).isInfix⟩
  · cases h

section

variable {f : Fault} {words : List String}

/-- The message of a fault holds a status exactly if something quoted does. -/
theorem holds_message_iff_of_mem (hf : f.SaidWith words) (hwords : Harmless words) {n : String}
    (hn : n.toList ∈ statusMarks) : holds f.message n = true ↔ ∃ q ∈ f.quotes, holds q n = true := by
  simp only [holds, Text.occursIn_iff]
  exact infix_message_iff_of_mem_statusMarks hf hwords hn

/-- The message holds a telling word, in small letters, exactly if something quoted does. -/
theorem holds_small_message_iff_of_mem (hf : f.SaidWith words) (hwords : Harmless words) {n : String}
    (hn : n.toList ∈ smallMarks) :
    holds (toSmall f.message) n = true ↔ ∃ q ∈ f.quotes, holds (toSmall q) n = true := by
  simp only [holds, Text.occursIn_iff]
  exact infix_small_message_iff_of_mem_smallMarks hf hwords hn

/-- If nothing that is quoted names a status, the message names none. -/
theorem namedStatus?_message (hf : f.SaidWith words) (hwords : Harmless words)
    (hnamed : ∀ q ∈ f.quotes, ¬ NamesStatus q) : namedStatus? f.message = none := by
  rw [Option.eq_none_iff_forall_ne_some]
  intro status hstatus
  obtain ⟨d, hd, hmark⟩ := namesStatus_of_namedStatus? hstatus
  have hmem : "status: ".toList ++ [Nat.digitChar d] ∈ statusMarks :=
    List.mem_append_right _ (List.mem_map.2 ⟨d, hd, rfl⟩)
  obtain ⟨q, hq, hmark⟩ := (infix_message_iff_of_mem_statusMarks hf hwords hmem).1 hmark
  exact hnamed q hq ⟨d, hd, hmark⟩

/-- The message speaks of the network exactly if something quoted does. -/
theorem mentions_message_iff (hf : f.SaidWith words) (hwords : Harmless words) :
    mentions networkWords f.message = true ↔ ∃ q ∈ f.quotes, mentions networkWords q = true := by
  simp only [mentions, List.any_eq_true]
  constructor
  · rintro ⟨n, hn, hholds⟩
    obtain ⟨q, hq, hholds⟩ := (holds_small_message_iff_of_mem hf hwords
      (List.mem_map_of_mem (List.mem_cons_of_mem _ hn))).1 hholds
    exact ⟨q, hq, n, hn, hholds⟩
  · rintro ⟨q, hq, n, hn, hholds⟩
    exact ⟨n, hn, (holds_small_message_iff_of_mem hf hwords
      (List.mem_map_of_mem (List.mem_cons_of_mem _ hn))).2 ⟨q, hq, hholds⟩⟩

/-- The status of a fault that lies in a body is looked for in the message. -/
theorem Fault.status?_of_saidWith (hf : f.SaidWith words) : f.status? = statusIn? f.message := by
  cases f with
  | refused => exact hf.elim
  | _ => rfl

/-- A text that names no status tells of none if it holds neither a plain one nor `404` with its
words. -/
theorem statusIn?_eq_none_iff {text : String} (hnamed : namedStatus? text = none) :
    statusIn? text = none ↔ ¬ (holds text "404" = true ∧ holds (toSmall text) "not found" = true) ∧
      ∀ status ∈ plainStatuses, holds text (toString status) = false := by
  rw [statusIn?, hnamed]
  simp only [Bool.and_eq_true]
  split
  · simp_all
  · simp_all [List.find?_eq_none]

/-- A fault in a body tells of nothing exactly if its quotes are not suspicious. -/
theorem unsuspicious_iff (hf : f.SaidWith words) (hwords : Harmless words)
    (hnamed : ∀ q ∈ f.quotes, ¬ NamesStatus q) :
    f.status? = none ∧ f.isTransient = false ↔ Unsuspicious f.quotes := by
  have hplain (status : Nat) (hs : status ∈ plainStatuses) :
      holds f.message (toString status) = false ↔ ∀ q ∈ f.quotes, holds q (toString status) = false := by
    have hmark : (toString status).toList ∈ statusMarks := List.mem_append_left _
      (List.mem_map.2 ⟨status, List.mem_cons_of_mem _ hs, String.toList_ofList.symm⟩)
    rw [← Bool.not_eq_true, holds_message_iff_of_mem hf hwords hmark]
    simp
  have hnetwork : mentions networkWords f.message = false ↔
      ∀ q ∈ f.quotes, mentions networkWords q = false := by
    rw [← Bool.not_eq_true, mentions_message_iff hf hwords]
    simp
  -- a status is looked for in three ways, and no quote names one by the word for it
  have hstatus : f.status? = none ↔ ¬ ((∃ q ∈ f.quotes, holds q "404" = true) ∧
      ∃ q ∈ f.quotes, holds (toSmall q) "not found" = true) ∧
      ∀ status ∈ plainStatuses, ∀ q ∈ f.quotes, holds q (toString status) = false := by
    have h404 : "404".toList ∈ statusMarks :=
      List.mem_append_left _ (List.mem_map.2 ⟨404, List.mem_cons_self, by decide⟩)
    rw [Fault.status?_of_saidWith hf, statusIn?_eq_none_iff (namedStatus?_message hf hwords hnamed),
      holds_message_iff_of_mem hf hwords h404,
      holds_small_message_iff_of_mem hf hwords List.mem_cons_self]
    exact and_congr_right fun _ => forall₂_congr hplain
  -- only a fault without a status is judged by the words of its message
  have htransient (h : f.status? = none) : f.isTransient = mentions networkWords f.message := by
    rw [Fault.isTransient, h]
  constructor
  · rintro ⟨hno, hpermanent⟩
    rw [htransient hno, hnetwork] at hpermanent
    obtain ⟨hnotFound, hquotes⟩ := hstatus.1 hno
    exact ⟨fun q hq status hs => hquotes status hs q hq, hnotFound, hpermanent⟩
  · rintro ⟨hquotes, hnotFound, hpermanent⟩
    have hno := hstatus.2 ⟨hnotFound, fun status hs q hq => hquotes q hq status hs⟩
    rw [htransient hno, hnetwork]
    exact ⟨hno, hpermanent⟩

end

/-! ## Words for replies -/

open Json (Shape)

/-- The words for what is wrong with the body of a reply to an effect. -/
def expectedWords : Effect → List String
  | .listChangedFiles _ => filesPage.words
  | .getFileContent .. => (Shape.list content).words
  | .searchOpenPrs _ => searchPage.words
  | .listCheckRuns _ => runsPage.words
  | .postComment .. => comment.words
  | .addLabels .. => (Shape.list label).words
  | .removeLabel .. | .closePr _ | .unassignReviewers .. => Shape.any.words

/-- Nothing that a call expects holds a status or speaks of limits or the network. -/
theorem harmless_expectedWords (e : Effect) : Harmless (expectedWords e) := by
  have hfiles : Harmless filesPage.words := by decide +kernel
  have hcontents : Harmless (Shape.list content).words := by decide +kernel
  have hsearch : Harmless searchPage.words := by decide +kernel
  have hruns : Harmless runsPage.words := by decide +kernel
  have hcomment : Harmless comment.words := by decide +kernel
  have hlabels : Harmless (Shape.list label).words := by decide +kernel
  have hany : Harmless Shape.any.words := by decide +kernel
  cases e <;> assumption

/-- A body that is not read is spoken of in the words of its shape. -/
theorem saidWith_of_bodyOf {α : Type} {s : Shape α} {bytes : List UInt8} {f : Fault}
    (h : (bodyOf s bytes).map (fun _ => ()) = .error f) : f.SaidWith s.words := by
  unfold bodyOf at h
  cases hfront : s.ofFront bytes with
  | ok a =>
    rw [hfront] at h
    cases h
  | error e =>
    rw [hfront] at h
    cases h
    exact Shape.words_of_ofFront hfront

/-- Links of contents that are not read are spoken of in the words of a list of contents. -/
theorem words_of_contentsOf {tree : Json.Value} {c : Json.Cause} (h : contentsOf tree = .error c) :
    c.words ⊆ (Shape.list content).words := by
  unfold contentsOf at h
  split at h
  · exact (Shape.list content).refuses_decode _ _ h
  · have hone := content.refuses_decode tree.settled
    cases hdecode : content.decode tree.settled with
    | ok a =>
      rw [hdecode] at h
      cases h
    | error c' =>
      rw [hdecode] at h
      cases h
      exact List.Subset.trans (hone _ hdecode) (List.subset_cons_self _ _)

/-- Contents that are not read are spoken of in the words of a list of contents. -/
theorem saidWith_of_contentText {bytes : List UInt8} {f : Fault}
    (h : (contentText bytes).map (fun _ => ()) = .error f) :
    f.SaidWith (Shape.list content).words := by
  unfold contentText at h
  split at h
  · rename_i e htree
    cases h
    exact List.Subset.trans (Shape.words_of_ofBytes htree) (List.nil_subset _)
  · split at h
    · rename_i cause hcause
      cases h
      exact words_of_contentsOf hcause
    all_goals cases h

/-- What is wrong with the body of a reply is said with words for replies of its kind. -/
theorem saidWith_of_expected {e : Effect} {bytes : List UInt8} {f : Fault}
    (h : expected e bytes = .error f) : f.SaidWith (expectedWords e) := by
  cases e with
  | getFileContent => exact saidWith_of_contentText h
  | _ => exact saidWith_of_bodyOf h

/-! ## Replies that are not what was expected -/

section

variable {τ : Type} {repository : Repository} {e : Effect} {transport : Transport τ} {t : τ}
  {reply : Reply} {f : Fault}

/-- **Replies of another shape.** A call that hears a success whose body is not what was expected ends
with this fault, unless it is the removal of a label and the fault looks as if there were no such label.
As long as nothing that the message quotes names a status by the word for it, the fault is reported as
what it is, without a status and not to be tried again, exactly if the quotes are not suspicious. -/
theorem misread_iff
    (hheard : .ok reply ∈ (call repository e).heard transport t)
    (hstatus : 200 ≤ reply.status ∧ reply.status < 300) (hbody : expected e reply.body = .error f)
    (hnamed : ∀ q ∈ f.quotes, ¬ NamesStatus q) :
    let result := ((call repository e).run transport t).1.2
    result = verdict e f ∧
      (result = .error f ∧ f.status? = none ∧ f.isTransient = false ↔ Unsuspicious f.quotes) := by
  have hread : reply.read (expected e) = .error f := by
    rw [Reply.read, if_pos (by simpa using hstatus), hbody]
  obtain ⟨hresult, -⟩ := (call_givesUp repository e).ends transport hheard hread
  have hiff := unsuspicious_iff (saidWith_of_expected hbody) (harmless_expectedWords e) hnamed
  refine ⟨hresult, fun h => hiff.1 h.2, fun h => ⟨?_, hiff.2 h⟩⟩
  rw [hresult]
  exact verdict_eq_error (.inl (by simp [Fault.isNotFound, (hiff.2 h).1]))

end

/-! ## A host that says nothing -/

/-- The reply to the request that closes a pull request is heard. -/
theorem heard_closePr (reply : Reply) :
    .ok reply ∈ (call ⟨"octo", "algorithms"⟩ (.closePr ⟨7⟩)).heard (.steady reply) () := by
  have hsent : address? (inRepository ⟨"octo", "algorithms"⟩ ("/pulls/" ++ numberPart ⟨7⟩)) =
      some "/repos/octo/algorithms/pulls/7" := by decide +kernel
  rw [call, heard_mapOk, closePr, heard_mapOk, heard_ask _ _ hsent]
  exact List.mem_singleton_self _

/-- A success with a single letter for its body is reported as what it is. -/
theorem misread_iff_letter :
    let f : Fault := .misshapen ⟨.expectedValue, some ⟨1, 1⟩, []⟩
    ((call ⟨"octo", "algorithms"⟩ (.closePr ⟨7⟩)).run (.steady ⟨200, [0x78]⟩) ()).1.2 = .error f ∧
      f.status? = none ∧ f.isTransient = false := by
  intro f
  have hquotes : f.quotes = ["", "1", "1"] := by decide +kernel
  have hunsuspicious : Unsuspicious f.quotes := by
    rw [hquotes]
    exact ⟨by decide +kernel, by decide +kernel, by decide +kernel⟩
  have hnamed : ∀ q ∈ f.quotes, ¬ NamesStatus q := by
    rw [hquotes]
    decide +kernel
  exact ((misread_iff (heard_closePr ⟨200, [0x78]⟩) ⟨by decide, by decide⟩ rfl hnamed).2.2
    hunsuspicious)

/-- Where the letter stands behind so many blanks that its column looks like a status, this status is
reported, and the call is to be tried again. -/
theorem misread_column :
    ∃ f, ((call ⟨"octo", "algorithms"⟩ (.closePr ⟨7⟩)).run
        (.steady ⟨200, List.replicate 502 0x20 ++ [0x78]⟩) ()).1.2 = .error f ∧
      f.status? = some 503 ∧ f.isTransient = true := by
  have hbody : (match expected (.closePr ⟨7⟩) (List.replicate 502 0x20 ++ [0x78]) with
      | .error f => f.status? == some 503 && f.isTransient
      | .ok () => false) = true := by decide +kernel
  cases hexpected : expected (.closePr ⟨7⟩) (List.replicate 502 0x20 ++ [0x78]) with
  | ok a =>
    rw [hexpected] at hbody
    cases hbody
  | error f =>
    rw [hexpected] at hbody
    have hread : (⟨200, List.replicate 502 0x20 ++ [0x78]⟩ : Reply).read (expected (.closePr ⟨7⟩)) =
        .error f := hexpected
    obtain ⟨hresult, -⟩ := (call_givesUp _ _).ends _ (heard_closePr _) hread
    exact ⟨f, hresult, by simpa using hbody⟩

end PullGate.Client
