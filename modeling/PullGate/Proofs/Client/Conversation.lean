import PullGate.Proofs.Client.Paging
/-!
# What is heard

The replies that are heard in a conversation, and what becomes of a conversation in which one of them
cannot be read. `call_givesUp` says of the call for any effect that it gives up there: it ends at once,
with what was wrong with this reply. Only the removal of a label takes it for a success to be told that
there is no such label.
-/

namespace PullGate.Client

/-! ## Conversations that give up -/

section

variable {α β τ : Type}

/-- What is heard while a conversation is held, in order: one answer to every request. -/
def Exchange.heard (transport : Transport τ) : Exchange α → τ → List (Except String Reply)
  | done _, _ => []
  | send request next, t =>
    let (reply, t) := transport.send t request
    reply :: (next reply).heard transport t

/-- Two changes of what a conversation comes to are one. -/
theorem Exchange.map_map {γ : Type} (f : α → β) (g : β → γ) (x : Exchange α) :
    (x.map f).map g = x.map (g ∘ f) := by
  induction x with
  | done a => rfl
  | send request next ih => exact congrArg (send request) (funext ih)

/-- A conversation ends where a reply cannot be read; its result is what `verdict` makes of the fault.
-/
inductive GivesUp (read : Reply → Except Fault Unit) (verdict : Fault → Except Fault α) :
    Call α → Prop
  | done (result : Except Fault α) : GivesUp read verdict (.done result)
  | send {request : Request} {next : Except String Reply → Call α}
      (unread : ∀ reply f, read reply = .error f → next (.ok reply) = .done (verdict f))
      (more : ∀ answer, GivesUp read verdict (next answer)) :
      GivesUp read verdict (.send request next)

variable {read : Reply → Except Fault Unit}

/-- What cannot be read is the last that is heard, and settles the result. -/
theorem GivesUp.ends {verdict : Fault → Except Fault α} {c : Call α} (h : GivesUp read verdict c)
    (transport : Transport τ) {t : τ} {reply : Reply} {f : Fault}
    (hheard : .ok reply ∈ c.heard transport t) (hread : read reply = .error f) :
    (c.run transport t).1.2 = verdict f ∧ ∃ before, c.heard transport t = before ++ [.ok reply] := by
  induction h generalizing t with
  | done result => cases hheard
  | @send request next unread more ih =>
    rcases hsend : transport.send t request with ⟨answer, t'⟩
    rw [Exchange.heard, hsend, List.mem_cons] at hheard
    simp only [Exchange.run, Exchange.heard, hsend]
    rcases hheard with rfl | hlater
    · rw [unread reply f hread]
      exact ⟨rfl, [], rfl⟩
    · obtain ⟨hresult, before, hbefore⟩ := ih answer hlater
      exact ⟨hresult, answer :: before, by rw [hbefore, List.cons_append]⟩

/-- Two conversations one after the other give up if the second one does nothing after a fault. -/
theorem GivesUp.bind {c : Call α} {f : Except Fault α → Call β} (hc : GivesUp read .error c)
    (herror : ∀ e, f (.error e) = .done (.error e))
    (hf : ∀ result, GivesUp read .error (f result)) : GivesUp read .error (c.bind f) := by
  induction hc with
  | done result => exact hf result
  | send unread more ih =>
    refine .send (fun reply e hread => ?_) ih
    rw [unread reply e hread]
    exact herror e

/-- A call whose result is changed gives up as before. -/
theorem GivesUp.mapOk {c : Call α} (hc : GivesUp read .error c) (f : α → β) :
    GivesUp read .error (c.mapOk f) :=
  hc.bind (fun _ => rfl) fun _ => .done _

/-- The result of a conversation that gave up may be made into something else. -/
theorem GivesUp.map {c : Call α} (hc : GivesUp read .error c) {verdict : Fault → Except Fault β}
    {g : Except Fault α → Except Fault β} (hg : ∀ e, g (.error e) = verdict e) :
    GivesUp read verdict (Exchange.map g c) := by
  induction hc with
  | done result => exact .done _
  | send unread more ih =>
    refine .send (fun reply e hread => ?_) ih
    rw [unread reply e hread, ← hg e]
    rfl

end

/-! ## Calls -/

section

variable {α ρ : Type}

/-- Whether a reply can be read does not hang on what is made of its body. -/
theorem Reply.read_map {β : Type} (reply : Reply) (body : List UInt8 → Except Fault α) (g : α → β) :
    (reply.read fun bytes => (body bytes).map g) = (reply.read body).map g := by
  simp only [read]
  split
  · rfl
  · split <;> rfl

/-- A single request: the reply to it is the result. -/
theorem givesUp_ask (method : Method) (address : String) (body : Option Json.Value)
    (read : List UInt8 → Except Fault α) :
    GivesUp (·.read fun bytes => (read bytes).map fun _ => ()) .error
      (ask method address body read) := by
  rw [ask]
  split
  · exact .done _
  · refine .send (fun reply f hread => ?_) fun answer => ?_
    · rw [Reply.read_map] at hread
      cases hresult : reply.read read with
      | ok a =>
        rw [hresult] at hread
        cases hread
      | error e =>
        rw [hresult] at hread
        obtain rfl := Except.error.inj hread
        simp only [hresult]
    · cases answer <;> exact .done _

/-- The reply to a single request is what its result is read from. -/
theorem run_ask {τ : Type} {transport : Transport τ} {t : τ} {method : Method} {address : String}
    {body : Option Json.Value} {read : List UInt8 → Except Fault α} {reply : Reply}
    (hheard : .ok reply ∈ (ask method address body read).heard transport t) :
    ((ask method address body read).run transport t).1.2 = reply.read read := by
  simp only [ask] at hheard ⊢
  split at hheard
  · cases hheard
  · rename_i sent hsent
    rcases hsend : transport.send t ⟨method, sent, body⟩ with ⟨answer, t'⟩
    cases answer with
    | error text => simp [Exchange.heard, hsend] at hheard
    | ok reply' =>
      obtain rfl : reply = reply' := by simpa [Exchange.heard, hsend] using hheard
      simp [Exchange.run, hsend]

/-- What is heard after a single request that can be sent. -/
theorem heard_ask {τ : Type} (transport : Transport τ) (t : τ) {method : Method}
    {address sent : String} (hsent : address? address = some sent) (body : Option Json.Value)
    (read : List UInt8 → Except Fault α) :
    (ask method address body read).heard transport t =
      [(transport.send t ⟨method, sent, body⟩).1] := by
  simp only [ask, hsent, Exchange.heard]
  cases (transport.send t ⟨method, sent, body⟩).1 <;> rfl

/-- A host that replies to every request in the same way. -/
def Transport.steady (reply : Reply) : Transport Unit := ⟨fun _ _ => (.ok reply, ())⟩

/-- What is heard does not hang on what is made of it. -/
theorem Exchange.heard_map {τ β : Type} (transport : Transport τ) (f : α → β) (x : Exchange α) (t : τ) :
    (x.map f).heard transport t = x.heard transport t := by
  induction x generalizing t with
  | done result => rfl
  | send request next ih =>
    exact congrArg (_ :: ·) (ih (transport.send t request).1 (transport.send t request).2)

/-- What is heard in a call does not hang on what is made of its result. -/
theorem heard_mapOk {τ β : Type} (transport : Transport τ) (f : α → β) (c : Call α) (t : τ) :
    (c.mapOk f).heard transport t = c.heard transport t :=
  Exchange.heard_map transport _ c t

/-- Pages are read up to one that cannot be read. -/
theorem givesUp_pages {read : Reply → Except Fault Unit} {page : Nat → Call ρ} (size : ρ → Nat)
    (hpage : ∀ n, GivesUp read .error (page n)) (n left : Nat) :
    GivesUp read .error (pages page size n left) := by
  induction left generalizing n with
  | zero => exact .done _
  | succ left ih =>
    refine (hpage n).bind (fun _ => rfl) fun result => ?_
    cases result with
    | error f => exact .done _
    | ok p =>
      dsimp only
      split
      · exact .done _
      · exact (ih (n + 1)).mapOk _

end

/-- What the body of a reply to an effect should be, if the reply is a success. -/
def expected : Effect → List UInt8 → Except Fault Unit
  | .listChangedFiles _, bytes => (bodyOf filesPage bytes).map fun _ => ()
  | .getFileContent .., bytes => (contentText bytes).map fun _ => ()
  | .searchOpenPrs _, bytes => (bodyOf searchPage bytes).map fun _ => ()
  | .listCheckRuns _, bytes => (bodyOf runsPage bytes).map fun _ => ()
  | .postComment .., bytes => (bodyOf comment bytes).map fun _ => ()
  | .addLabels .., bytes => (bodyOf (.list label) bytes).map fun _ => ()
  | .removeLabel .., bytes | .closePr _, bytes | .unassignReviewers .., bytes =>
    (bodyOf .any bytes).map fun _ => ()

/-- What an effect comes to whose call failed. A label that is not there counts as removed. -/
def verdict : Effect → Fault → Except Fault Response
  | .removeLabel .., f => if f.isNotFound then .ok .labelRemoved else .error f
  | _, f => .error f

/-- An effect whose call fails fails with it, unless it is the removal of a label that is not there. -/
theorem verdict_eq_error {e : Effect} {f : Fault}
    (h : f.isNotFound = false ∨ ∀ pr l, e ≠ .removeLabel pr l) :
    verdict e f = .error f := by
  cases e with
  | removeLabel pr l =>
    rw [verdict, h.resolve_right fun hne => hne pr l rfl]
    rfl
  | _ => rfl

/-- A fault that is reported is the one that there was. -/
theorem eq_of_verdict_eq_error {e : Effect} {f g : Fault} (h : verdict e f = .error g) : f = g := by
  cases e with
  | removeLabel pr l =>
    rw [verdict] at h
    split at h <;> cases h
    rfl
  | _ =>
    cases h
    rfl

/-- The call for an effect gives up at the first reply that it cannot read. -/
theorem call_givesUp (repository : Repository) (e : Effect) :
    GivesUp (·.read (expected e)) (verdict e) (call repository e) := by
  cases e with
  | listChangedFiles pr | searchOpenPrs author | listCheckRuns commit =>
    exact ((givesUp_pages _ (fun _ => givesUp_ask _ _ _ _) _ _).mapOk _).mapOk _
  | getFileContent path reference | postComment pr body => exact (givesUp_ask _ _ _ _).mapOk _
  | addLabels pr labels | closePr pr | unassignReviewers pr reviewers =>
    exact ((givesUp_ask _ _ _ _).mapOk _).mapOk _
  | removeLabel pr l =>
    rw [call, removeLabel, Call.mapOk, Exchange.map_map]
    refine (givesUp_ask _ _ _ _).map fun f => ?_
    simp only [Function.comp, verdict]
    split <;> rfl

end PullGate.Client
