import PullGate.Client.Call
import PullGate.Proofs.Ascending
import PullGate.Proofs.Wire.Documents
/-!
# Listings in pages

A listing is read page by page. `listings_read_in_pages` says of the three calls that read one: they
ask for the pages from the first to the one that is not full, for each once and for no other, and come
to all that is listed; and if a page cannot be read, the call fails as this page did, and asks for no
page after it.

What the pages come to is said by `askPages`, which asks for pages whatever is answered. So nothing is
assumed of what carries the requests, and it may hang on a state. The induction is in `run_pages`.
-/

namespace PullGate.Client

open PullGate.Json (Shape)

/-! ## Pages of a list -/

section

variable {α : Type} (items : List α)

/-- What stands on a page of a list, if pages are full as long as there is something to list. -/
def onPage (page : Nat) : List α := (items.drop (pageSize * (page - 1))).take pageSize

/-- How many pages there are up to the first that is not full. -/
def pageCount : Nat := items.length / pageSize + 1

/-- A page is full, or has what the pages before have left. -/
theorem length_onPage (page : Nat) :
    (onPage items (page + 1)).length = min pageSize (items.length - pageSize * page) := by
  rw [onPage, List.length_take, List.length_drop, Nat.add_sub_cancel]

/-- Pages before the last are full. -/
theorem length_onPage_of_lt {page : Nat} (h : page + 1 < pageCount items) :
    (onPage items (page + 1)).length = pageSize := by
  have hfull : pageSize * (page + 1) ≤ items.length := by
    have hle : page + 1 ≤ items.length / pageSize := Nat.lt_succ_iff.1 h
    calc pageSize * (page + 1) ≤ pageSize * (items.length / pageSize) := Nat.mul_le_mul_left _ hle
      _ ≤ items.length := Nat.mul_div_le _ _
  rw [length_onPage, Nat.min_eq_left]
  rw [Nat.mul_succ] at hfull
  omega

/-- The last page is not full. -/
theorem length_onPage_pageCount : (onPage items (pageCount items)).length < pageSize := by
  have hpos : 0 < pageSize := by decide
  have hrest := Nat.mod_lt items.length hpos
  have hdiv := Nat.div_add_mod items.length pageSize
  rw [pageCount, length_onPage]
  omega

/-- The first pages are the front of the list. -/
theorem flatMap_onPage (count : Nat) :
    (List.range' 1 count).flatMap (onPage items) = items.take (pageSize * count) := by
  induction count with
  | zero => rfl
  | succ count ih =>
    rw [List.range'_1_concat, List.flatMap_append, ih, List.flatMap_singleton, onPage,
      Nat.add_sub_cancel_left, Nat.mul_succ, List.take_add]

/-- Every item stands on one page up to the last, and they stand there in order. -/
theorem flatMap_onPage_pageCount :
    (List.range' 1 (pageCount items)).flatMap (onPage items) = items := by
  rw [flatMap_onPage, List.take_of_length_le]
  have hpos : 0 < pageSize := by decide
  have hrest := Nat.mod_lt items.length hpos
  have hdiv := Nat.div_add_mod items.length pageSize
  rw [pageCount, Nat.mul_succ]
  omega

end

/-! ## Asking for pages -/

section

variable {α β ρ τ : Type}

/-- To change a result twice is to change it once. -/
theorem mapOk_mapOk {γ : Type} (f : α → β) (g : β → γ) (c : Call α) :
    (c.mapOk f).mapOk g = c.mapOk (g ∘ f) := by
  induction c with
  | done result =>
    cases result <;> rfl
  | send request next ih => exact congrArg (Exchange.send request) (funext ih)

/-- A change of a call's result leaves its requests as they are. -/
theorem run_mapOk (transport : Transport τ) (f : α → β) (c : Call α) (t : τ) :
    (c.mapOk f).run transport t =
      let ((requests, result), t') := c.run transport t
      ((requests, result.map f), t') := by
  rw [Call.mapOk, Exchange.map, Exchange.run_bind]
  simp only [Exchange.run, List.append_nil]

/-- Asks for pages one after another: the requests, what each page comes to, and the state after. -/
def askPages (transport : Transport τ) (read : Nat → Call ρ) :
    List Nat → τ → (List Request × List (Except Fault ρ)) × τ
  | [], t => (([], []), t)
  | page :: rest, t =>
    let ((before, answer), t) := (read page).run transport t
    let ((after, answers), t) := askPages transport read rest t
    ((before ++ after, answer :: answers), t)

/-- Pages are asked for one after another. -/
theorem askPages_cons {transport : Transport τ} {read : Nat → Call ρ} {page : Nat}
    {rest : List Nat} {t t₁ t₂ : τ} {before after : List Request} {answer : Except Fault ρ}
    {answers : List (Except Fault ρ)} (hpage : (read page).run transport t = ((before, answer), t₁))
    (hrest : askPages transport read rest t₁ = ((after, answers), t₂)) :
    askPages transport read (page :: rest) t = ((before ++ after, answer :: answers), t₂) := by
  simp only [askPages, hpage, hrest]

/-- Pages are read up to the first that is not full, or that cannot be read. -/
theorem run_pages (transport : Transport τ) (read : Nat → Call ρ) (size : ρ → Nat) {full : List ρ}
    {last : Except Fault ρ} (hfull : ∀ p ∈ full, pageSize ≤ size p)
    (hlast : ∀ p, last = .ok p → size p < pageSize) {page left : Nat} {t t' : τ}
    {requests : List Request} (hleft : full.length < left)
    (hasked : askPages transport read (List.range' page (full.length + 1)) t =
      ((requests, full.map .ok ++ [last]), t')) :
    (pages read size page left).run transport t =
      ((requests, last.map fun p => full ++ [p]), t') := by
  -- along the full pages, which each lead to the next page
  induction full generalizing page left t requests with
  | nil =>
    obtain ⟨left, rfl⟩ := Nat.exists_eq_succ_of_ne_zero (Nat.ne_zero_of_lt hleft)
    rcases hpage : (read page).run transport t with ⟨⟨before, answer⟩, t₁⟩
    have hone : askPages transport read [page] t = ((before ++ [], [answer]), t₁) :=
      askPages_cons hpage rfl
    obtain ⟨⟨rfl, hanswer⟩, rfl⟩ : (before ++ [] = requests ∧ [answer] = [last]) ∧ t₁ = t' := by
      simpa only [Prod.mk.injEq, List.map_nil, List.nil_append] using hone.symm.trans hasked
    obtain rfl : answer = last := List.singleton_inj.1 hanswer
    rw [pages, Exchange.run_bind, hpage]
    rcases answer with f | p
    · simp only [Exchange.run, List.append_nil, Except.map]
    · simp only [if_pos (hlast p rfl), Exchange.run, List.append_nil, Except.map, List.nil_append]
  | cons p full ih =>
    obtain ⟨left, rfl⟩ := Nat.exists_eq_succ_of_ne_zero (Nat.ne_zero_of_lt hleft)
    rcases hpage : (read page).run transport t with ⟨⟨before, answer⟩, t₁⟩
    rcases hrest : askPages transport read (List.range' (page + 1) (full.length + 1)) t₁ with
      ⟨⟨after, answers⟩, t₂⟩
    rw [List.length_cons, List.range'_succ, askPages_cons hpage hrest] at hasked
    simp only [List.map_cons, List.cons_append, Prod.mk.injEq, List.cons.injEq] at hasked
    obtain ⟨⟨rfl, rfl, rfl⟩, rfl⟩ := hasked
    have hnext := ih (fun q hq => hfull q (List.mem_cons_of_mem p hq))
      (Nat.lt_of_succ_lt_succ hleft) hrest
    have hmore : ¬ size p < pageSize := Nat.not_lt.2 (hfull p List.mem_cons_self)
    rw [pages, Exchange.run_bind, hpage]
    simp only [if_neg hmore, run_mapOk, hnext]
    cases last <;> rfl

/-- A call reads a listing. If the pages of a listing are shown up to the first that is not full, the
call asks for these and comes to all that is listed, and to what the last page says besides. And if a
page after full ones cannot be read, the call asks for it and for those before, and fails as it did. -/
structure ReadsPages (c : Call β) (read : Nat → Call ρ) (items : ρ → List α)
    (result : List α → ρ → β) : Prop where
  whole : ∀ {τ : Type} (transport : Transport τ) (t t' : τ) (requests : List Request)
    (listed : List α) (shown : Nat → ρ), pageCount listed ≤ pageLimit →
    (∀ page, items (shown page) = onPage listed page) →
    askPages transport read (List.range' 1 (pageCount listed)) t =
      ((requests, (List.range' 1 (pageCount listed)).map fun page => .ok (shown page)), t') →
    c.run transport t = ((requests, .ok (result listed (shown (pageCount listed)))), t')
  broken : ∀ {τ : Type} (transport : Transport τ) (t t' : τ) (requests : List Request)
    (full : List ρ) (fault : Fault), full.length + 1 ≤ pageLimit →
    (∀ p ∈ full, pageSize ≤ (items p).length) →
    askPages transport read (List.range' 1 (full.length + 1)) t =
      ((requests, full.map .ok ++ [.error fault]), t') →
    c.run transport t = ((requests, .error fault), t')

/-- A call that goes through the pages, and then puts together what they show. -/
theorem readsPages_of_pages {c : Call β} {read : Nat → Call ρ} {items : ρ → List α}
    {result : List α → ρ → β} (join : List ρ → β)
    (hc : c = (pages read (fun p => (items p).length) 1 pageLimit).mapOk join)
    (hjoin : ∀ (full : List ρ) (last : ρ),
      join (full ++ [last]) = result ((full ++ [last]).flatMap items) last) :
    ReadsPages c read items result := by
  constructor
  · intro τ transport t t' requests listed shown hpages hshown hasked
    have hconcat : List.range' 1 (pageCount listed) =
        List.range' 1 (listed.length / pageSize) ++ [pageCount listed] := by
      rw [pageCount, List.range'_1_concat, Nat.add_comm 1]
    -- the pages before the last are the full ones of `run_pages`
    let full := (List.range' 1 (listed.length / pageSize)).map shown
    have hlength : full.length = listed.length / pageSize := by
      rw [List.length_map, List.length_range']
    have hfull : ∀ p ∈ full, pageSize ≤ (items p).length := by
      intro p hp
      obtain ⟨page, hpage, rfl⟩ := List.mem_map.1 hp
      obtain ⟨hpos, hlt⟩ := List.mem_range'_1.1 hpage
      obtain ⟨page, rfl⟩ := Nat.exists_eq_succ_of_ne_zero (Nat.ne_zero_of_lt hpos)
      have hearlier : page + 1 < pageCount listed := by
        rw [pageCount]
        omega
      rw [hshown]
      exact Nat.le_of_eq (length_onPage_of_lt listed hearlier).symm
    have hlast (p : ρ) (hp : Except.ok (shown (pageCount listed)) = (.ok p : Except Fault ρ)) :
        (items p).length < pageSize := by
      cases hp
      rw [hshown]
      exact length_onPage_pageCount listed
    have hleft : full.length < pageLimit := by
      rw [hlength]
      exact hpages
    have hanswers : askPages transport read (List.range' 1 (full.length + 1)) t =
        ((requests, full.map .ok ++ [.ok (shown (pageCount listed))]), t') := by
      rw [hlength, ← pageCount, hasked, hconcat]
      simp only [full, List.map_append, List.map_map, List.map_singleton, Function.comp_def]
    have hall : (full ++ [shown (pageCount listed)]).flatMap items = listed := by
      rw [← List.map_singleton, ← List.map_append, ← hconcat, List.flatMap_map]
      simp only [hshown]
      exact flatMap_onPage_pageCount listed
    rw [hc, run_mapOk, run_pages transport read _ hfull hlast hleft hanswers]
    simp only [Except.map, hjoin, hall]
  · intro τ transport t t' requests full fault hpages hfull hasked
    have hlast (p : ρ) (hp : Except.error fault = .ok p) : (items p).length < pageSize := nomatch hp
    rw [hc, run_mapOk, run_pages transport read _ hfull hlast hpages hasked]
    rfl

end

/-! ## The three listings -/

section

variable {ρ τ : Type}

/-- How a page of a listing is asked for. -/
def pageCall (address query : String) (s : Shape ρ) (page : Nat) : Call ρ :=
  ask .get (withQuery address (query ++ pageQuery page)) none (bodyOf s)

/-- The request for a page of a listing, if it can be sent. -/
def pageRequest? (address query : String) (page : Nat) : Option Request :=
  (address? (withQuery address (query ++ pageQuery page))).map fun sent => ⟨.get, sent, none⟩

/-- For every page there is one request, and it names this page. -/
theorem requests_askPages (transport : Transport τ) (address query : String) (s : Shape ρ)
    (wanted : List Nat) (t : τ) :
    (askPages transport (pageCall address query s) wanted t).1.1 =
      wanted.filterMap (pageRequest? address query) := by
  induction wanted generalizing t with
  | nil => rfl
  | cons page wanted ih =>
    simp only [askPages, ih]
    rcases hsent : address? (withQuery address (query ++ pageQuery page)) with _ | sent
    · rw [List.filterMap_cons_none (by rw [pageRequest?, hsent]; rfl)]
      simp only [pageCall, ask, hsent, Exchange.run, List.nil_append]
    · rw [List.filterMap_cons_some (by rw [pageRequest?, hsent]; rfl)]
      simp only [pageCall, ask, hsent, Exchange.run]
      rcases (transport.send t ⟨.get, sent, none⟩).1 <;> rfl

/-- The numbers of pull requests in order. -/
def ascending (numbers : List PrNumber) : List PrNumber :=
  numbers.mergeSort fun a b => a.value ≤ b.value

theorem pairwise_ascending (numbers : List PrNumber) :
    (ascending numbers).Pairwise fun a b => a.value ≤ b.value :=
  PrNumber.pairwise_le_mergeSort numbers

/-- **Listings in pages.** The calls for changed files, for runs of checks and for open pull requests
each read a listing in pages. Changed files and runs of checks are answered as they are listed. Of pull
requests all numbers that are listed are answered in ascending order, each as often as it is listed, with
the total of the last page. For every page one request is sent, or none if its address cannot be sent. -/
theorem listings_read_in_pages (repository : Repository) :
    (∀ pr, ReadsPages (call repository (.listChangedFiles pr))
      (pageCall (inRepository repository ("/pulls/" ++ numberPart pr ++ "/files")) "" filesPage)
      (fun files => files) fun files _ => .changedFiles files) ∧
    (∀ commit, ReadsPages (call repository (.listCheckRuns commit))
      (pageCall (inRepository repository ("/commits/" ++ commit.name ++ "/check-runs")) "" runsPage)
      (fun runs => runs) fun runs _ => .checkRuns runs) ∧
    (∀ author, ReadsPages (call repository (.searchOpenPrs author))
      (pageCall "/search/issues" ("q=" ++ Text.Percent.queryValue (searchText repository author) ++ "&")
        searchPage)
      (·.numbers) fun numbers last => .openPrs ⟨last.total, ascending numbers⟩) ∧
    (∀ numbers, (ascending numbers).Perm numbers ∧
      (ascending numbers).Pairwise fun a b => a.value ≤ b.value) ∧
    ∀ {ρ τ : Type} (transport : Transport τ) (address query : String) (s : Shape ρ)
      (wanted : List Nat) (t : τ),
      (askPages transport (pageCall address query s) wanted t).1.1 =
        wanted.filterMap (pageRequest? address query) := by
  refine ⟨fun pr => ?_, fun commit => ?_, fun author => ?_, fun numbers => ?_, requests_askPages⟩
  · refine readsPages_of_pages (Response.changedFiles ∘ List.flatten)
      (mapOk_mapOk _ _ _) fun full last => ?_
    rw [Function.comp, List.flatMap_id']
  · refine readsPages_of_pages (Response.checkRuns ∘ List.flatten)
      (mapOk_mapOk _ _ _) fun full last => ?_
    rw [Function.comp, List.flatMap_id']
  · refine readsPages_of_pages (Response.openPrs ∘ joinSearch)
      (mapOk_mapOk _ _ _) fun full last => ?_
    rw [Function.comp, joinSearch, List.getLast?_concat]
    rfl
  · exact ⟨List.mergeSort_perm _ _, pairwise_ascending numbers⟩

end

/-- The text that is written for an element which the shape keeps is a body of the shape. -/
theorem bodyOf_write {α : Type} {s : Shape α} {d : Nat} {a : α} (hd : d < Json.depthLimit)
    (h : s.Keeps d a) : bodyOf s (s.write a).bytes = .ok a := by
  have hread := Shape.reads (s.write a).bytes.length s
    (Nat.lt_of_le_of_lt (s.depth_write_le h) hd) (s.decode_write h) [] (s.write a).bytes []
    Json.blanks_nil (Json.Value.spells_bytes (s.isExact_write h)) (Nat.le_refl _) Json.closed_nil
  rw [List.nil_append, List.append_nil] at hread
  rw [bodyOf, Shape.ofFront, hread]
  rfl

/-- What a page comes to that is replied to. -/
theorem run_pageCall {ρ τ : Type} {transport : Transport τ} {address query sent : String} {s : Shape ρ}
    {page : Nat} {reply : Reply} {t t' : τ}
    (hsent : address? (withQuery address (query ++ pageQuery page)) = some sent)
    (hreply : transport.send t ⟨.get, sent, none⟩ = (.ok reply, t')) :
    (pageCall address query s page).run transport t =
      (([⟨.get, sent, none⟩], reply.read (bodyOf s)), t') := by
  simp only [pageCall, ask, hsent, Exchange.run, hreply]

/-- A hundred files are two pages. If the second cannot be had, the files of the first are not either. -/
theorem listings_read_in_pages_hundred :
    let files : List FileChange := List.replicate 100 ⟨"sum.py", "", .added⟩
    let first : Request := ⟨.get, "/repos/octo/algorithms/pulls/1/files?per_page=100&page=1", none⟩
    let second : Request := ⟨.get, "/repos/octo/algorithms/pulls/1/files?per_page=100&page=2", none⟩
    let carrier : Reply → Transport Unit := fun reply => ⟨fun _ request =>
      (.ok (if request.address = first.address then ⟨200, (filesPage.write files).bytes⟩ else reply), ())⟩
    let answered := fun reply : Reply =>
      ((call ⟨"octo", "algorithms"⟩ (.listChangedFiles ⟨1⟩)).run (carrier reply) ()).1
    answered ⟨200, (filesPage.write []).bytes⟩ = ([first, second], .ok (.changedFiles files)) ∧
      answered ⟨502, (refusal.write "Bad Gateway").bytes⟩ = ([first, second], .error (.refused 502)) := by
  intro files first second carrier answered
  have hfirst : address? (withQuery (inRepository ⟨"octo", "algorithms"⟩
      ("/pulls/" ++ numberPart ⟨1⟩ ++ "/files")) ("" ++ pageQuery 1)) = some first.address := by
    decide
  have hsecond : address? (withQuery (inRepository ⟨"octo", "algorithms"⟩
      ("/pulls/" ++ numberPart ⟨1⟩ ++ "/files")) ("" ++ pageQuery 2)) = some second.address := by
    decide
  have hreplied (reply : Reply) : (carrier reply).send () first =
      (.ok ⟨200, (filesPage.write files).bytes⟩, ()) := by
    simp only [carrier, if_pos]
  have hreplied' (reply : Reply) : (carrier reply).send () second = (.ok reply, ()) := by
    have hother : second.address ≠ first.address := by decide
    simp only [carrier, if_neg hother]
  have hkeeps (fs : List FileChange) : filesPage.Keeps 2 fs :=
    ⟨by decide, fun f _ => ⟨⟨by decide, by decide, trivial, Wire.keeps_fileStatus 1 f.status, trivial,
      trivial⟩, rfl⟩⟩
  have hbody (fs : List FileChange) :
      (⟨200, (filesPage.write fs).bytes⟩ : Reply).read (bodyOf filesPage) = .ok fs :=
    bodyOf_write (by decide) (hkeeps fs)
  have hrefused : (⟨502, (refusal.write "Bad Gateway").bytes⟩ : Reply).read (bodyOf filesPage) =
      .error (.refused 502) := by
    have hwords : refusal.ofBytes (refusal.write "Bad Gateway").bytes = .ok "Bad Gateway" :=
      Shape.ofBytes_write (d := 1) (by decide) ⟨⟨by decide, by decide, nofun, nofun, trivial, trivial⟩, rfl⟩
    simp only [Reply.read, hwords]
    rfl
  have hasked (reply : Reply) (answer : Except Fault (List FileChange))
      (hanswer : reply.read (bodyOf filesPage) = answer) :
      askPages (carrier reply) (pageCall (inRepository ⟨"octo", "algorithms"⟩
        ("/pulls/" ++ numberPart ⟨1⟩ ++ "/files")) "" filesPage) [1, 2] () =
          (([first, second], [.ok files, answer]), ()) := by
    have hpage := run_pageCall (s := filesPage) hsecond (hreplied' reply)
    rw [hanswer] at hpage
    have hpage' := run_pageCall (s := filesPage) hfirst (hreplied reply)
    rw [hbody] at hpage'
    exact askPages_cons hpage' (askPages_cons hpage rfl)
  obtain ⟨hfiles, -⟩ := listings_read_in_pages ⟨"octo", "algorithms"⟩
  constructor
  · have hcount : pageCount files = 2 := by decide
    have hone : onPage files 1 = files := by decide
    have htwo : onPage files 2 = [] := by decide
    refine congrArg Prod.fst ((hfiles ⟨1⟩).whole _ () () _ files (onPage files) (by decide)
      (fun _ => rfl) ?_)
    rw [hcount, List.range'_succ, List.range'_one, List.map_cons, List.map_singleton, hone, htwo]
    exact hasked _ _ (hbody [])
  · exact congrArg Prod.fst ((hfiles ⟨1⟩).broken _ () () _ [files] _ (by decide)
      (by simp [files, pageSize]) (hasked _ _ hrefused))

end PullGate.Client
