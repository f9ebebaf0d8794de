import PullGate.Proofs.Noninterference
import PullGate.Proofs.Text.Letters
import PullGate.Proofs.Webhook.Report
/-!
# Who is privileged

A delivery says in a text what an author is to the repository, and texts are compared in capital
letters. Only three words in small and capital letters of ASCII make someone privileged, whatever other
characters have these letters for capitals (`isPrivileged_ofText_iff`). So it is for these words alone
that a payload lets its author off the checks on authors, or lets a review change labels
(`privilege_is_spelled`).
-/

namespace PullGate

open PullGate.Compliance (Analyzer)

/-! ## Texts of associations -/

namespace Association

/-- The words that make someone privileged. -/
def privilegedNames : List String := ["OWNER", "MEMBER", "COLLABORATOR"]

/-- The text is one of the words that make someone privileged, each letter small or capital. -/
def TellsPrivilege (text : String) : Prop :=
  ∃ word ∈ privilegedNames, text.toList.map Char.toUpper = word.toList

instance (text : String) : Decidable (TellsPrivilege text) :=
  inferInstanceAs (Decidable (∃ word ∈ privilegedNames, text.toList.map Char.toUpper = word.toList))

/-- The three words hold none of the letters that other characters become. -/
theorem isUnmistakable_of_mem {word : String} (h : word ∈ privilegedNames) :
    Text.isUnmistakable word = true := by
  have hall : ∀ w ∈ privilegedNames, Text.isUnmistakable w = true := by decide
  exact hall word h

/-- A text is looked at in capital letters only. -/
theorem isPrivileged_ofText_iff_toCapitals {text : String} :
    (ofText text).isPrivileged = true ↔ Text.toCapitals text ∈ privilegedNames := by
  unfold ofText
  constructor
  · intro h
    rcases hfound : all.find? (fun a => a.name = Text.toCapitals text) with _ | a
    · rw [hfound] at h
      cases h
    · have hname : a.name = Text.toCapitals text := by simpa using List.find?_some hfound
      rw [hfound] at h
      rw [← hname]
      cases a with
      | owner | member | collaborator => decide
      | _ => cases h
  · intro h
    simp only [privilegedNames, List.mem_cons, List.not_mem_nil, or_false] at h
    rcases h with h | h | h <;> rw [h] <;> decide

/-- Someone is privileged exactly by one of the three words in small and capital letters. -/
theorem isPrivileged_ofText_iff {text : String} :
    (ofText text).isPrivileged = true ↔ TellsPrivilege text := by
  rw [isPrivileged_ofText_iff_toCapitals]
  constructor
  · intro h
    exact ⟨_, h, (Text.toCapitals_eq_iff (isUnmistakable_of_mem h)).1 rfl⟩
  · rintro ⟨word, hword, h⟩
    rw [(Text.toCapitals_eq_iff (isUnmistakable_of_mem hword)).2 h]
    exact hword

/-- No other character stands in a text that makes someone privileged. -/
theorem TellsPrivilege.ascii {text : String} (h : TellsPrivilege text) :
    ∀ c ∈ text.toList, c.toNat < 0x80 := by
  obtain ⟨word, hword, h⟩ := h
  exact Text.ascii_of_toCapitals (isUnmistakable_of_mem hword)
    ((Text.toCapitals_eq_iff (isUnmistakable_of_mem hword)).2 h)

end Association

/-! ## Payloads -/

namespace Webhook

/-- An event about a pull request is read from a payload that holds its snapshot. -/
theorem exists_of_parsePullRequest {payload : List UInt8} {e : PullRequestEvent}
    (h : parsePullRequest payload = .ok (some e)) :
    ∃ d, pullRequestPayload.ofBytes payload = .ok d ∧ e.pr = d.pr.snapshot := by
  obtain ⟨_, _, d, -, -, hd, hevent⟩ := exists_payload_of_parsePullRequest h
  obtain ⟨-, _, -, rfl⟩ := d.exists_of_event hevent
  exact ⟨d, hd, rfl⟩

/-- An event about a review is read from a payload that holds the review. -/
theorem exists_of_parseReview {payload : List UInt8} {e : ReviewEvent}
    (h : parseReview payload = .ok (some e)) :
    ∃ d, reviewPayload.ofBytes payload = .ok d ∧
      e.review.association = .ofText d.review.association := by
  obtain ⟨_, _, d, -, -, hd, hevent⟩ := exists_payload_of_parseReview h
  obtain ⟨_, -, _, -, rfl⟩ := d.exists_of_event hevent
  exact ⟨d, hd, rfl⟩

end Webhook

/-! ## What privilege is for -/

section

variable {analyzer : Analyzer} {policy : Policy} {event : PullRequestEvent}

/-- The author of a new pull request is asked first for a description, and then, unless there is no
limit, for few other pull requests. -/
theorem Gate.run_of_asked (hsettled : event.pr.isSettled = false) (hasks : asksAuthor event = true) :
    run analyzer policy event =
      match checkShape policy event.pr with
      | some r => reject policy event r
      | none =>
        if policy.maxOpenPullRequests = 0 then draftGate analyzer policy event
        else (Program.openPrs event.pr.author).bind fun search =>
          match checkOpenPrs policy event.pr search with
          | some r => reject policy event r
          | none => draftGate analyzer policy event := by
  unfold run shapeGate capGate
  rw [hsettled, hasks]
  split
  · contradiction
  · rw [if_pos rfl]
    rcases checkShape policy event.pr with _ | r
    · by_cases hlimit : policy.maxOpenPullRequests = 0
      · simp [hlimit]
      · simp only [hlimit, ne_eq, not_false_eq_true, and_self, if_true, if_false]
        rfl
    · rfl

/-- An author who is not asked is let off both checks. -/
theorem Gate.run_of_exempt (hsettled : event.pr.isSettled = false)
    (hasks : asksAuthor event = false) :
    run analyzer policy event = draftGate analyzer policy event := by
  unfold run shapeGate capGate
  rw [hsettled, hasks]
  simp

/-- An author is asked unless the text about a new pull request tells of privilege. -/
theorem Gate.asksAuthor_eq {d : Webhook.PullRequestPayload} (hpr : event.pr = d.pr.snapshot)
    (hopened : event.action = .opened) :
    asksAuthor event = !decide (Association.TellsPrivilege d.pr.association) := by
  have hassociation : event.pr.association = .ofText d.pr.association := by rw [hpr]; rfl
  rw [asksAuthor, Snapshot.isPrivileged, hassociation, hopened]
  by_cases h : Association.TellsPrivilege d.pr.association
  · rw [Association.isPrivileged_ofText_iff.2 h]
    simp [h]
  · rw [Bool.eq_false_iff.2 fun hp => h (Association.isPrivileged_ofText_iff.1 hp)]
    simp [h]

end

/-- **What privilege hangs on.** A text makes someone privileged exactly if it is one of the words for
owners, members and collaborators in small and capital letters, so that no character beyond ASCII is in
it. By its payload's text about the author, and by nothing else of it, a new pull request that was not
turned away before is let off the checks on authors, or else must pass them both; and a review whose
payload has no such text about the reviewer asks for nothing. -/
theorem privilege_is_spelled :
    (∀ text, (Association.ofText text).isPrivileged = true ↔ Association.TellsPrivilege text) ∧
    (∀ text, Association.TellsPrivilege text → ∀ c ∈ text.toList, c.toNat < 0x80) ∧
    (∀ type payload event, Webhook.parse type payload = .ok (some (.pullRequest event)) →
      ∃ d, Webhook.pullRequestPayload.ofBytes payload = .ok d ∧
        (event.action = .opened → event.pr.isSettled = false → ∀ analyzer policy,
          Gate.run analyzer policy event =
            if Association.TellsPrivilege d.pr.association then Gate.draftGate analyzer policy event
            else match Gate.checkShape policy event.pr with
            | some r => Gate.reject policy event r
            | none =>
              if policy.maxOpenPullRequests = 0 then Gate.draftGate analyzer policy event
              else (Program.openPrs event.pr.author).bind fun search =>
                match Gate.checkOpenPrs policy event.pr search with
                | some r => Gate.reject policy event r
                | none => Gate.draftGate analyzer policy event)) ∧
    (∀ type payload event, Webhook.parse type payload = .ok (some (.review event)) →
      ∃ d, Webhook.reviewPayload.ofBytes payload = .ok d ∧
        (¬ Association.TellsPrivilege d.review.association → ∀ analyzer policy,
          dispatch analyzer policy (.review event) = .done (Event.review event).handling)) := by
  refine ⟨fun text => Association.isPrivileged_ofText_iff, fun text h => h.ascii, ?_, ?_⟩
  · intro type payload event h
    obtain ⟨e, heq, hread⟩ | ⟨e, heq, -⟩ := Webhook.parsed_of_parse h
    · cases heq
      obtain ⟨d, hd, hpr⟩ := Webhook.exists_of_parsePullRequest hread
      refine ⟨d, hd, ?_⟩
      intro hopened hsettled analyzer policy
      have hasks := Gate.asksAuthor_eq hpr hopened
      by_cases htext : Association.TellsPrivilege d.pr.association
      · rw [if_pos htext]
        rw [decide_eq_true htext] at hasks
        exact Gate.run_of_exempt hsettled hasks
      · rw [if_neg htext]
        rw [decide_eq_false htext] at hasks
        exact Gate.run_of_asked hsettled hasks
    · cases heq
  · intro type payload event h
    obtain ⟨e, heq, -⟩ | ⟨e, heq, hread⟩ := Webhook.parsed_of_parse h
    · cases heq
    · cases heq
      obtain ⟨d, hd, hassociation⟩ := Webhook.exists_of_parseReview hread
      refine ⟨d, hd, ?_⟩
      intro htext analyzer policy
      refine dispatch_review_of_unprivileged ?_
      rw [hassociation]
      exact Bool.eq_false_iff.2 fun hp => htext (Association.isPrivileged_ofText_iff.1 hp)

/-- A collaborator in mixed letters is one. A newcomer's payload without a description is turned away,
and an outsider's approval asks for nothing. -/
theorem privilege_is_spelled_outsiders :
    let newcomer := PullRequestEvent.byNewcomer ""
    let approval : ReviewEvent :=
      ⟨newcomer.repository, .submitted, ⟨.approved, .contributor, "eve"⟩, newcomer.pr, none⟩
    let analyzer : Analyzer := fun _ => .ok []
    (Association.TellsPrivilege "coLLaborator" ∧ ∀ c ∈ "coLLaborator".toList, c.toNat < 0x80) ∧
    (Webhook.parse "pull_request" newcomer.payload.bytes = .ok (some (.pullRequest newcomer)) ∧
      Gate.run analyzer .standard newcomer = Gate.reject .standard newcomer .emptyBody) ∧
    (Webhook.parse "pull_request_review" (approval.payload "APPROVED").bytes =
        .ok (some (.review approval)) ∧
      dispatch analyzer .standard (.review approval) = .done .handled) := by
  intro newcomer approval analyzer
  have hrepository : newcomer.repository.Proper := ⟨by decide, by decide, by decide, by decide⟩
  have hnewcomer : (Event.pullRequest newcomer).Reportable := by
    refine ⟨hrepository, fun p hp haction => ?_⟩
    cases hp
    cases haction
  have happroval : (Event.review approval).Reportable := ⟨hrepository, fun p hp => nomatch hp⟩
  have hopening : Json.SpellsWhole newcomer.payload.bytes newcomer.payload :=
    (Json.Value.spells_bytes (Webhook.isExact_payload (.pullRequest newcomer) ReviewState.name)).whole
  have hreview : Json.SpellsWhole (approval.payload "APPROVED").bytes (approval.payload "APPROVED") :=
    (Json.Value.spells_bytes
      (Webhook.isExact_payload (.review approval) ReviewState.capitalName)).whole
  have hread : Webhook.parse "pull_request" newcomer.payload.bytes =
      .ok (some (.pullRequest newcomer)) := by
    simp [Webhook.parse, Webhook.parsePullRequest_payload hnewcomer hopening]
  have hstate : approval.review.state.IsSpelled "APPROVED" := by decide
  have hread' : Webhook.parse "pull_request_review" (approval.payload "APPROVED").bytes =
      .ok (some (.review approval)) := by
    simp [Webhook.parse, Webhook.parseReview_payload happroval hstate hreview]
  obtain ⟨-, hascii, hgate, hupkeep⟩ := privilege_is_spelled
  have htext : Association.TellsPrivilege "coLLaborator" := by decide
  refine ⟨⟨htext, hascii _ htext⟩, ⟨hread, ?_⟩, hread', ?_⟩
  · obtain ⟨d, hd, hrun⟩ := hgate _ _ _ hread
    have hholds := Json.Shape.ofBytes_of_decode hopening
      (Webhook.depth_payload (.pullRequest newcomer) ReviewState.name)
      (Webhook.decode_pullRequestPayload newcomer)
    cases hd.symm.trans hholds
    have hplain : ¬ Association.TellsPrivilege (Webhook.rawEvent newcomer).pr.association := by decide
    rw [hrun rfl (by decide), if_neg hplain]
    rfl
  · obtain ⟨d, hd, hnothing⟩ := hupkeep _ _ _ hread'
    have hholds := Json.Shape.ofBytes_of_decode hreview
      (Webhook.depth_payload (.review approval) ReviewState.capitalName)
      (Webhook.decode_reviewPayload approval "APPROVED")
    cases hd.symm.trans hholds
    exact hnothing (by decide) analyzer .standard

end PullGate
