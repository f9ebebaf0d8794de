import PullGate.Proofs.Client.Misreading
/-!
# Replies that refuse

A refusal says in its body why the call was refused, and then its status is reported. A body that says
nothing of the kind hides the status (`refusal_told`): of the reply, only what its body looks like is
left in the message.
-/

namespace PullGate.Client

section

variable {τ : Type} {repository : Repository} {e : Effect} {transport : Transport τ} {t : τ}
  {reply : Reply}

/-- A refusal without words passes if its status is about limits or about the host itself. -/
theorem isTransient_refused_iff {status : Nat} (h : status < 600) :
    (Fault.refused status).isTransient = true ↔ status = 429 ∨ 500 ≤ status := by
  have hlimit : mentions limitWords (Fault.refused status).message = false := by
    change mentions limitWords "GitHub" = false
    decide
  simp only [Fault.isTransient, Fault.status?]
  split
  · simp_all
  · split
    · rw [hlimit]
      simp_all
    · simp_all

/-- What a call comes to that hears a refusal. -/
theorem result_of_refusal (hheard : .ok reply ∈ (call repository e).heard transport t)
    (hstatus : 400 ≤ reply.status) :
    ((call repository e).run transport t).1.2 = verdict e (match refusal.ofBytes reply.body with
      | .ok _ => .refused reply.status
      | .error error => .unread error) := by
  have hrefused : ¬ (200 ≤ reply.status ∧ reply.status < 300) := by omega
  refine ((call_givesUp repository e).ends transport hheard ?_).1
  rw [Reply.read, if_neg (by simpa using hrefused)]
  cases refusal.ofBytes reply.body <;> rfl

/-- **Refusals.** A call that hears a refusal ends with it. If the body says in the host's way why the
call was refused, the status is reported, the call is to be tried again exactly if there were too many
or the host failed, and a label that is not there counts as removed. If it does not, the status is not
looked at: as long as nothing that the message quotes names a status by the word for it, a fault without
a status that is not to be tried again is reported exactly if the quotes are not suspicious. -/
theorem refusal_told (hheard : .ok reply ∈ (call repository e).heard transport t)
    (hstatus : 400 ≤ reply.status ∧ reply.status < 600) :
    let result := ((call repository e).run transport t).1.2
    (∀ words, refusal.ofBytes reply.body = .ok words →
      (∀ pr l, e = .removeLabel pr l → reply.status = 404 → result = .ok .labelRemoved) ∧
      (¬ (reply.status = 404 ∧ ∃ pr l, e = .removeLabel pr l) →
        ∃ f, result = .error f ∧ f.status? = some reply.status ∧
          (f.isTransient = true ↔ reply.status = 429 ∨ 500 ≤ reply.status))) ∧
    ∀ error, refusal.ofBytes reply.body = .error error →
      (∀ q ∈ error.quotes, ¬ NamesStatus q) →
        ((∃ f, result = .error f ∧ f.status? = none ∧ f.isTransient = false) ↔
          Unsuspicious error.quotes) := by
  have hresult := result_of_refusal hheard hstatus.1
  constructor
  · intro words hwords
    rw [hwords] at hresult
    rw [hresult]
    refine ⟨?_, fun hother => ⟨_, verdict_eq_error ?_, rfl, isTransient_refused_iff hstatus.2⟩⟩
    · rintro pr l rfl h404
      rw [h404]
      rfl
    · by_cases h404 : reply.status = 404
      · exact .inr fun pr l hremove => hother ⟨h404, pr, l, hremove⟩
      · exact .inl (by simp [Fault.isNotFound, Fault.status?, h404])
  · intro error herror hnamed
    rw [herror] at hresult
    have hwords : Harmless refusal.words := by decide
    have hiff := unsuspicious_iff (f := .unread error) (Json.Shape.words_of_ofBytes herror) hwords hnamed
    rw [hresult]
    constructor
    · rintro ⟨f, hf, hnone⟩
      obtain rfl := eq_of_verdict_eq_error hf
      exact hiff.1 hnone
    · intro hunsuspicious
      have hnone := hiff.2 hunsuspicious
      exact ⟨_, verdict_eq_error (.inl (by simp [Fault.isNotFound, hnone.1])), hnone⟩

end

/-! ## A host that is out of order -/

/-- A host that says that it is out of order is asked again. -/
theorem refusal_told_bad_gateway :
    ∃ f, ((call ⟨"octo", "algorithms"⟩ (.closePr ⟨7⟩)).run
        (.steady ⟨502, (refusal.write "Bad Gateway").bytes⟩) ()).1.2 = .error f ∧
      f.status? = some 502 ∧ f.isTransient = true := by
  have hwords : refusal.ofBytes (refusal.write "Bad Gateway").bytes = .ok "Bad Gateway" :=
    Json.Shape.ofBytes_write (d := 1) (by decide)
      ⟨⟨by decide, by decide, nofun, nofun, trivial, trivial⟩, rfl⟩
  obtain ⟨f, hresult, hknown, htransient⟩ := ((refusal_told
    (heard_closePr ⟨502, (refusal.write "Bad Gateway").bytes⟩) ⟨by decide, by decide⟩).1 _ hwords).2
      (by simp)
  exact ⟨f, hresult, hknown, htransient.2 (.inr (by decide))⟩

/-- A host that is so much out of order that it answers with a page of its own is not asked again, and
nothing is said of its status. Nor does a label count as removed that is not there, if nothing but this
status says so. -/
theorem refusal_of_no_words :
    (∃ f, ((call ⟨"octo", "algorithms"⟩ (.closePr ⟨7⟩)).run
        (.steady ⟨502, "<html>Bad gateway</html>".toUTF8.data.toList⟩) ()).1.2 = .error f ∧
      f.status? = none ∧ f.isTransient = false) ∧
    ∃ f, ((call ⟨"octo", "algorithms"⟩ (.removeLabel ⟨7⟩ .invalid)).run
        (.steady ⟨404, []⟩) ()).1.2 = .error f ∧ f.status? = none := by
  have hremove : .ok ⟨404, []⟩ ∈ (call ⟨"octo", "algorithms"⟩ (.removeLabel ⟨7⟩ .invalid)).heard
      (.steady ⟨404, []⟩) () := by
    have hsent : address? (inRepository ⟨"octo", "algorithms"⟩ ("/issues/" ++ numberPart ⟨7⟩ ++
        "/labels/" ++ Text.Percent.pathPart Label.invalid.name)) =
        some "/repos/octo/algorithms/issues/7/labels/invalid" := by decide
    rw [call, heard_mapOk, removeLabel, Exchange.heard_map, heard_ask _ _ hsent]
    exact List.mem_singleton_self _
  constructor
  · have hpage : refusal.ofBytes "<html>Bad gateway</html>".toUTF8.data.toList =
        .error ⟨.expectedValue, some ⟨1, 1⟩, []⟩ := rfl
    refine ⟨.unread ⟨.expectedValue, some ⟨1, 1⟩, []⟩, ?_, by decide, by decide⟩
    rw [result_of_refusal (heard_closePr _) (by decide)]
    simp only [hpage]
    rfl
  · have hnothing : refusal.ofBytes [] = .error ⟨.endInValue, some ⟨1, 0⟩, []⟩ := rfl
    have hnone : (Fault.unread ⟨.endInValue, some ⟨1, 0⟩, []⟩).status? = none := by decide
    refine ⟨_, ?_, hnone⟩
    rw [result_of_refusal hremove (by decide)]
    simp only [hnothing]
    exact verdict_eq_error (.inl (by simp [Fault.isNotFound, hnone]))

end PullGate.Client
