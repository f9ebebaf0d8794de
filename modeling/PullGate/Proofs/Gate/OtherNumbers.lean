import Mathlib.Data.Finset.Card
import PullGate.Gate
import PullGate.Proofs.Ascending
/-!
# An author's other pull requests

What the check of the other open pull requests makes of a search. Of the numbers that were found only
those of other pull requests count, each once: the check fails exactly if there are as many of them as
the cap (`checkOpenPrs_counts`). In which order they were found, how often, whether the pull request
itself was among them, and the total that the search reports, make no difference.
-/

namespace PullGate.Gate

variable {policy : Policy} {pr : Snapshot} {search search' : OpenSearch}

/-- The others are the numbers found but for the pull request's own. -/
theorem mem_otherNumbers {n : PrNumber} :
    n ∈ otherNumbers pr search ↔ n ∈ search.numbers ∧ n ≠ pr.number := by
  simp [otherNumbers, mem_eraseReps]

/-- The numbers come in ascending order, and each comes once. -/
theorem pairwise_otherNumbers :
    (otherNumbers pr search).Pairwise fun a b => a.value < b.value :=
  PrNumber.pairwise_lt_eraseReps (PrNumber.pairwise_le_mergeSort _)

/-- As a set, the others are what was found without the pull request itself. -/
theorem toFinset_otherNumbers :
    (otherNumbers pr search).toFinset = search.numbers.toFinset.erase pr.number := by
  ext n
  rw [List.mem_toFinset, mem_otherNumbers, Finset.mem_erase, List.mem_toFinset, and_comm]

/-- Each of the others counts once. -/
theorem length_otherNumbers :
    (otherNumbers pr search).length = (search.numbers.toFinset.erase pr.number).card := by
  rw [← toFinset_otherNumbers,
    List.toFinset_card_of_nodup (PrNumber.nodup_of_pairwise_lt pairwise_otherNumbers)]

/-- Searches that find the same other pull requests come to the same list. -/
theorem otherNumbers_congr
    (h : ∀ n, n ≠ pr.number → (n ∈ search'.numbers ↔ n ∈ search.numbers)) :
    otherNumbers pr search' = otherNumbers pr search := by
  refine PrNumber.eq_of_mem_iff pairwise_otherNumbers pairwise_otherNumbers fun n => ?_
  rw [mem_otherNumbers, mem_otherNumbers, and_congr_left_iff]
  exact h n

/-- The check fails exactly if there are as many different others as allowed, or more. -/
theorem isSome_checkOpenPrs :
    (checkOpenPrs policy pr search).isSome = true ↔
      policy.maxOpenPullRequests.toNat ≤ (search.numbers.toFinset.erase pr.number).card := by
  rw [← length_otherNumbers, checkOpenPrs]
  by_cases h : policy.maxOpenPullRequests.toNat ≤ (otherNumbers pr search).length <;> simp [h]

/-- If it fails, it names all the others. -/
theorem eq_of_checkOpenPrs {r : Rejection} (h : checkOpenPrs policy pr search = some r) :
    r = .tooManyOpenPrs (otherNumbers pr search) := by
  unfold checkOpenPrs at h
  dsimp only at h
  split at h
  · exact (Option.some.inj h).symm
  · cases h

/-- **The check of the other open pull requests.** It fails exactly if the different numbers that were
found, without the pull request's own, are at least as many as the cap, and then it names them all in
strictly ascending order. Searches that find the same other numbers are not told apart, in whatever
order and however often they find them, whether or not they find the pull request's own, and whatever
their totals. To find more numbers, or to lower the cap, makes no failure a success. -/
theorem checkOpenPrs_counts (policy : Policy) (pr : Snapshot) (search : OpenSearch) :
    ((checkOpenPrs policy pr search).isSome = true ↔
      policy.maxOpenPullRequests.toNat ≤ (search.numbers.toFinset.erase pr.number).card) ∧
    (∀ r, checkOpenPrs policy pr search = some r →
      ∃ others, r = .tooManyOpenPrs others ∧ (others.Pairwise fun a b => a.value < b.value) ∧
        ∀ n, n ∈ others ↔ n ∈ search.numbers ∧ n ≠ pr.number) ∧
    (∀ search', (∀ n, n ≠ pr.number → (n ∈ search'.numbers ↔ n ∈ search.numbers)) →
      checkOpenPrs policy pr search' = checkOpenPrs policy pr search) ∧
    (∀ policy' search', policy'.maxOpenPullRequests ≤ policy.maxOpenPullRequests →
      (∀ n ∈ search.numbers, n ≠ pr.number → n ∈ search'.numbers) →
      (checkOpenPrs policy pr search).isSome = true →
        (checkOpenPrs policy' pr search').isSome = true) := by
  refine ⟨isSome_checkOpenPrs, ?_, ?_, ?_⟩
  · intro r hr
    exact ⟨_, eq_of_checkOpenPrs hr, pairwise_otherNumbers, fun n => mem_otherNumbers⟩
  · intro search' hsame
    unfold checkOpenPrs
    rw [otherNumbers_congr hsame]
  · intro policy' search' hcap hmore hfails
    rw [isSome_checkOpenPrs] at hfails ⊢
    -- other numbers that were found are found again, so that there are no fewer of them
    have hsub : search.numbers.toFinset.erase pr.number ⊆
        search'.numbers.toFinset.erase pr.number := by
      intro n hn
      obtain ⟨hne, hfound⟩ := Finset.mem_erase.1 hn
      exact Finset.mem_erase.2
        ⟨hne, List.mem_toFinset.2 (hmore n (List.mem_toFinset.1 hfound) hne)⟩
    calc policy'.maxOpenPullRequests.toNat
        ≤ policy.maxOpenPullRequests.toNat := UInt64.le_iff_toNat_le.1 hcap
      _ ≤ (search.numbers.toFinset.erase pr.number).card := hfails
      _ ≤ (search'.numbers.toFinset.erase pr.number).card := Finset.card_le_card hsub

/-- Of a search that finds the pull request itself between two others, one of them twice, the two are
named; and so they are if they are found alone, with another total. -/
theorem checkOpenPrs_counts_two :
    let policy : Policy := { Policy.standard with maxOpenPullRequests := 2 }
    let pr : Snapshot := ⟨⟨42⟩, "", "", "", "newcomer", .none, ∅, false, [], ⟨"0000000"⟩⟩
    let search : OpenSearch := ⟨4, [⟨7⟩, ⟨42⟩, ⟨3⟩, ⟨7⟩]⟩
    let fewer : OpenSearch := ⟨9, [⟨3⟩, ⟨7⟩]⟩
    checkOpenPrs policy pr search = some (.tooManyOpenPrs [⟨3⟩, ⟨7⟩]) ∧
      checkOpenPrs policy pr fewer = some (.tooManyOpenPrs [⟨3⟩, ⟨7⟩]) ∧
      (checkOpenPrs .standard pr fewer).isSome = true := by
  intro policy pr search fewer
  obtain ⟨hiff, hlist, hsame, hmore⟩ := checkOpenPrs_counts policy pr search
  have hfails : (checkOpenPrs policy pr search).isSome = true := hiff.2 (by decide)
  obtain ⟨r, hr⟩ := Option.isSome_iff_exists.1 hfails
  obtain ⟨others, rfl, hascending, hmem⟩ := hlist r hr
  have hothers : others = [⟨3⟩, ⟨7⟩] := by
    refine PrNumber.eq_of_mem_iff hascending (by decide) fun n => ?_
    rw [hmem n]
    simp only [search, pr]
    grind
  rw [hothers] at hr
  have hfewer : checkOpenPrs policy pr fewer = checkOpenPrs policy pr search := by
    refine hsame fewer fun n hn => ?_
    simp only [search, fewer, pr] at hn ⊢
    grind
  refine ⟨hr, hfewer.trans hr, hmore .standard fewer (by decide) ?_ hfails⟩
  intro n hn hne
  simp only [search, fewer, pr] at hn hne ⊢
  grind

end PullGate.Gate
