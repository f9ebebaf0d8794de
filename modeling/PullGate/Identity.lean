/-!
# Identities

Numbers of pull requests and of installations, commits, and repositories. A repository is written as
its owner and its name with a slash between.
-/

namespace PullGate

/-- The number of a pull request in its repository. -/
structure PrNumber where
  value : UInt64
  deriving DecidableEq, Repr, Inhabited

/-- The number as it is written for people. -/
def PrNumber.render (n : PrNumber) : String := s!"#{n.value.toNat}"

/-- The number of an installation. -/
structure Installation where
  value : UInt64
  deriving DecidableEq, Repr, Inhabited

/-- The number of the installation as it is written. -/
def Installation.render (i : Installation) : String := s!"{i.value.toNat}"

/-! ## Commits -/

/-- The name of a commit. -/
structure Commit where
  name : String
  deriving DecidableEq, Repr, Inhabited

/-- The characters that take exactly `n` bytes at the front of a text, if some do. -/
def frontOfBytes? : Nat → List Char → Option (List Char)
  | 0, _ => some []
  | _ + 1, [] => none
  | n + 1, c :: rest =>
    if c.utf8Size ≤ n + 1 then (frontOfBytes? (n + 1 - c.utf8Size) rest).map (c :: ·) else none

/-- The first seven bytes of the name, or the whole name if it cannot be cut there. -/
def Commit.short (c : Commit) : String :=
  match frontOfBytes? 7 c.name.toList with
  | some front => String.ofList front
  | none => c.name

/-! ## Repositories -/

/-- A repository. -/
structure Repository where
  owner : String
  name : String
  deriving DecidableEq, Repr, Inhabited

namespace Repository

/-- The owner and the name with a slash between. -/
def fullName (r : Repository) : String := r.owner ++ "/" ++ r.name

/-- The repository that a text names: there is exactly one slash, with text on both sides. -/
def ofFullName? (text : String) : Option Repository :=
  let owner := text.toList.takeWhile (· ≠ '/')
  match text.toList.dropWhile (· ≠ '/') with
  | [] => none
  | _ :: name =>
    if owner.isEmpty || name.isEmpty || name.contains '/' then none
    else some ⟨String.ofList owner, String.ofList name⟩

/-- The owner and the name are there, and no slash is in them. -/
structure Proper (r : Repository) : Prop where
  owner_ne : r.owner ≠ ""
  name_ne : r.name ≠ ""
  owner_no_slash : '/' ∉ r.owner.toList
  name_no_slash : '/' ∉ r.name.toList

/-- The full name of a repository stands for it. -/
theorem Proper.ofFullName?_fullName {r : Repository} (h : r.Proper) :
    ofFullName? r.fullName = some r := by
  have howner : ∀ c ∈ r.owner.toList, decide (c ≠ '/') = true := by
    intro c hc
    rw [decide_eq_true_eq]
    rintro rfl
    exact h.owner_no_slash hc
  have hfull : r.fullName.toList = r.owner.toList ++ '/' :: r.name.toList := by
    simp [fullName]
  have htake : r.fullName.toList.takeWhile (fun c => decide (c ≠ '/')) = r.owner.toList := by
    rw [hfull, List.takeWhile_append_of_pos howner]
    simp
  have hdrop : r.fullName.toList.dropWhile (fun c => decide (c ≠ '/')) = '/' :: r.name.toList := by
    rw [hfull, List.dropWhile_append_of_pos howner]
    simp
  have howner_ne : r.owner.toList ≠ [] := fun he => h.owner_ne (String.toList_eq_nil_iff.1 he)
  have hname_ne : r.name.toList ≠ [] := fun he => h.name_ne (String.toList_eq_nil_iff.1 he)
  simp only [ofFullName?, htake, hdrop]
  rw [if_neg (by simp [howner_ne, hname_ne, h.name_no_slash]), String.ofList_toList,
    String.ofList_toList]

/-- A text stands for a repository just if it is the repository's full name. -/
theorem ofFullName?_eq_some_iff {text : String} {r : Repository} :
    ofFullName? text = some r ↔ r.Proper ∧ r.fullName = text := by
  constructor
  · intro h
    have howner : '/' ∉ text.toList.takeWhile (· ≠ '/') := fun hmem => by
      simpa using List.all_eq_true.1 List.all_takeWhile _ hmem
    -- the text is cut at its first slash: none stands in front, and one begins the rest
    have hstop := List.head?_dropWhile_not (· ≠ '/') text.toList
    have hjoin := List.takeWhile_append_dropWhile (p := (· ≠ '/')) (l := text.toList)
    unfold ofFullName? at h
    dsimp only at h
    split at h
    · cases h
    · next c name hdrop =>
      split at h
      · cases h
      · next hparts =>
        cases h
        rw [hdrop] at hstop hjoin
        obtain rfl : c = '/' := by simpa using hstop
        simp only [Bool.or_eq_true, List.isEmpty_iff, List.contains_iff_mem, not_or] at hparts
        obtain ⟨⟨howner_ne, hname_ne⟩, hname⟩ := hparts
        refine ⟨⟨?_, ?_, ?_, ?_⟩, String.toList_inj.1 ?_⟩
        · simpa using howner_ne
        · simpa using hname_ne
        · simpa using howner
        · simpa using hname
        · simpa [fullName] using hjoin
  · rintro ⟨hproper, rfl⟩
    exact hproper.ofFullName?_fullName

end Repository

end PullGate
