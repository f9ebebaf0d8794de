import PullGate.Compliance.Files
import PullGate.Proofs.Paths
/-!
# Files without an extension

Which changed files are listed for lacking an extension, told from the names that their paths are made
of. `extensionless_listed` says that they are the stray ones, each as often as it is changed, except for
a file at the top that has the name of a directory in which extensions may be missing: such a file is
passed over as if it were in that directory. No listed file is analysed.
-/

namespace PullGate.Compliance

/-- A changed file whose path is made of names. -/
structure NamedChange where
  path : Path.Plain
  contentsUrl : String
  status : FileStatus

namespace NamedChange

/-- The change as a listing shows it. -/
def change (f : NamedChange) : FileChange := ⟨f.path.text, f.contentsUrl, f.status⟩

/-- The file is there, has no extension, and is in no directory where that is allowed. -/
def IsStray (policy : Policy) (f : NamedChange) : Prop :=
  f.status ≠ .removed ∧ ¬ f.path.HasExtension ∧ ¬ f.path.IsUnder policy.extensionlessDirs

instance (policy : Policy) : DecidablePred (IsStray policy) :=
  fun _ => inferInstanceAs (Decidable (_ ∧ _))

/-- The file is at the top and has the name of a directory where extensions may be missing. -/
def IsNamesake (policy : Policy) (f : NamedChange) : Prop :=
  f.path.parts.length = 1 ∧ f.path.first ∈ policy.extensionlessDirs

instance (policy : Policy) : DecidablePred (IsNamesake policy) :=
  fun _ => inferInstanceAs (Decidable (_ ∧ _))

variable {policy : Policy} (f : NamedChange)

/-- The first name of a path is one of the directories' in either of two ways. -/
theorem first_mem_iff :
    f.path.first ∈ policy.extensionlessDirs ↔
      f.path.IsUnder policy.extensionlessDirs ∨ f.IsNamesake policy := by
  have hlength : 2 ≤ f.path.parts.length ∨ f.path.parts.length = 1 := by
    have hpos := List.length_pos_of_ne_nil f.path.ne_nil
    omega
  rw [Path.Plain.IsUnder, IsNamesake, ← or_and_right, and_iff_right hlength]

/-- A named file lacks an extension where it is a stray one and no namesake of a directory. -/
theorem lacksExtension_change_iff :
    lacksExtension policy f.change = true ↔ f.IsStray policy ∧ ¬ f.IsNamesake policy := by
  simp only [lacksExtension, Bool.and_eq_true, decide_eq_true_eq, Option.isNone_iff_eq_none,
    Bool.not_eq_true', ← Bool.not_eq_true]
  simp only [change, Path.extension?_text_eq_none_iff, Path.isUnderAny_text, List.contains_iff_mem,
    first_mem_iff, not_or, IsStray, and_assoc]

end NamedChange

variable (policy : Policy)

/-- The paths that are listed are those of the strays that are no namesakes. -/
theorem extensionless_map_change (files : List NamedChange) :
    extensionless policy (files.map NamedChange.change) =
      (files.filter fun f => f.IsStray policy ∧ ¬ f.IsNamesake policy).map (·.path.text) := by
  rw [extensionless, List.filter_map, List.map_map]
  refine congrArg (List.map _) (List.filter_congr fun f _ => ?_)
  rw [Bool.eq_iff_iff, Function.comp_apply, f.lacksExtension_change_iff, decide_eq_true_eq]

/-- A listed path has no extension. -/
theorem extension?_of_mem_extensionless {policy : Policy} {files : List FileChange} {path : String}
    (h : path ∈ extensionless policy files) : Path.extension? path = none := by
  obtain ⟨f, hf, rfl⟩ := List.mem_map.1 h
  have hlacks := (List.mem_filter.1 hf).2
  simp only [lacksExtension, Bool.and_eq_true, Option.isNone_iff_eq_none] at hlacks
  exact hlacks.1.2

/-- What is analysed has an extension, and is not listed. -/
theorem not_mem_extensionless_of_mem_sources {policy : Policy} {files : List FileChange}
    {f : FileChange} (h : f ∈ sources policy files) : f.path ∉ extensionless policy files := by
  intro hlisted
  have hanalyzed := (List.mem_filter.1 h).2
  simp only [isAnalyzed, isSource, Bool.and_eq_true, decide_eq_true_eq] at hanalyzed
  rw [extension?_of_mem_extensionless hlisted] at hanalyzed
  cases hanalyzed.1.1.1.2

/-- **Files that lack an extension.** Of files whose paths are made of names those are listed, in their
order and each as often as it is changed, that are stray and have no directory's name at the top. So all
stray files are listed just if none of them is such a namesake. What is listed is never analysed. -/
theorem extensionless_listed (files : List NamedChange) :
    extensionless policy (files.map NamedChange.change) =
      (files.filter fun f => f.IsStray policy ∧ ¬ f.IsNamesake policy).map (·.path.text) ∧
    (extensionless policy (files.map NamedChange.change) =
        (files.filter fun f => f.IsStray policy).map (·.path.text) ↔
      ∀ f ∈ files, f.IsStray policy → ¬ f.IsNamesake policy) ∧
    ∀ f ∈ sources policy (files.map NamedChange.change),
      f.path ∉ extensionless policy (files.map NamedChange.change) := by
  refine ⟨extensionless_map_change policy files, ⟨fun h f hf hstray hname => ?_, fun h => ?_⟩,
    fun f hf => not_mem_extensionless_of_mem_sources hf⟩
  · rw [extensionless_map_change] at h
    -- the listed files are some of the stray ones, and as many, so they are all of them
    have hsub : (files.filter fun f => f.IsStray policy ∧ ¬ f.IsNamesake policy).Sublist
        (files.filter fun f => f.IsStray policy) := by
      refine List.monotone_filter_right files fun f hf => ?_
      simp only [Bool.decide_and, Bool.and_eq_true, decide_eq_true_eq] at hf ⊢
      exact hf.1
    have hlength := congrArg List.length h
    rw [List.length_map, List.length_map] at hlength
    have hmem : f ∈ files.filter fun f => f.IsStray policy :=
      List.mem_filter.2 ⟨hf, decide_eq_true hstray⟩
    rw [← hsub.eq_of_length hlength] at hmem
    exact (of_decide_eq_true (List.mem_filter.1 hmem).2).2 hname
  · rw [extensionless_map_change]
    refine congrArg (List.map _) (List.filter_congr fun f hf => ?_)
    exact decide_eq_decide.2 ⟨And.left, fun hstray => ⟨hstray, h f hf hstray⟩⟩

/-- Changed files of which three are stray, one of them twice. -/
def makefiles : List NamedChange := [
  ⟨⟨["Makefile"], by decide, by decide⟩, "", .added⟩,
  ⟨⟨[".github", "CODEOWNERS"], by decide, by decide⟩, "", .modified⟩,
  ⟨⟨["docs", ".keep"], by decide, by decide⟩, "", .copied⟩,
  ⟨⟨["old_script"], by decide, by decide⟩, "", .removed⟩,
  ⟨⟨["src", ".github", "build"], by decide, by decide⟩, "", .added⟩,
  ⟨⟨["maths", "prime.py"], by decide, by decide⟩, "", .added⟩,
  ⟨⟨["Makefile"], by decide, by decide⟩, "", .renamed⟩]

/-- The stray ones are listed, and none of them has the name of a directory. -/
theorem extensionless_listed_makefiles :
    (∀ f ∈ makefiles, f.IsStray .standard → ¬ f.IsNamesake .standard) ∧
    extensionless .standard (makefiles.map NamedChange.change) =
      ["Makefile", "docs/.keep", "src/.github/build", "Makefile"] :=
  have hnamesake : ∀ f ∈ makefiles, f.IsStray .standard → ¬ f.IsNamesake .standard := by decide
  have hstray : (makefiles.filter fun f => f.IsStray .standard).map (·.path.text) =
      ["Makefile", "docs/.keep", "src/.github/build", "Makefile"] := by decide
  ⟨hnamesake, ((extensionless_listed .standard makefiles).2.1.2 hnamesake).trans hstray⟩

/-- A file at the top with the name of the directory is stray, and is not listed. -/
theorem namesake_not_listed :
    let f : NamedChange := ⟨⟨[".github"], by decide, by decide⟩, "", .added⟩
    f.IsStray .standard ∧ f.path.text = ".github" ∧
      extensionless .standard [f.change] = [] := by
  decide

end PullGate.Compliance
