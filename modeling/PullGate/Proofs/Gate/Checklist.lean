import PullGate.Gate
import PullGate.Proofs.Text.Sigmas
/-!
# Checklist markers in descriptions

Whether a description that holds the text of a ticked checklist counts as ticked. Both texts are
compared in small letters, and these may hang on what stands around them: `marker_shown` says which
markers count in every description that holds them, and in which descriptions a marker counts.
-/

namespace PullGate.Gate

open PullGate.Text (KeepsSigmas Steady)

variable {policy : Policy}

/-- A marker is found where it keeps its small letters among what is around it. -/
theorem isTicked_of_keepsSigmas {before after : String}
    (h : KeepsSigmas before.toList.reverse after.toList policy.checklistMarker.toList) :
    isTicked policy (before ++ policy.checklistMarker ++ after) = true :=
  Text.holds_toSmall_of_keepsSigmas h

/-- A marker whose small letters do not hang on their neighbours is found anywhere. -/
theorem isTicked_of_steady (h : Steady policy.checklistMarker.toList) (before after : String) :
    isTicked policy (before ++ policy.checklistMarker ++ after) = true :=
  isTicked_of_keepsSigmas (h.keepsSigmas _ _)

/-- The standard marker counts wherever it stands. -/
theorem isTicked_standard (before after : String) :
    isTicked .standard (before ++ Policy.standard.checklistMarker ++ after) = true :=
  isTicked_of_steady (Text.steady_of_not_mem (by decide)) before after

/-- A description that counts as ticked is not turned away for its checklist. -/
theorem checkShape_ne_of_isTicked {pr : Snapshot} (h : isTicked policy pr.body = true) :
    checkShape policy pr ≠ some .checklistNotTicked := by
  unfold checkShape
  rw [h]
  split <;> exact nofun

/-- A description that does not count as ticked is turned away, unless for being empty. -/
theorem checkShape_of_not_isTicked {pr : Snapshot} (hblank : Text.isBlank pr.body = false)
    (h : isTicked policy pr.body = false) : checkShape policy pr = some .checklistNotTicked := by
  unfold checkShape
  rw [hblank, h]
  rfl

/-- A text with an `a` in it is not blank. -/
theorem isBlank_eq_false_of_mem {text : String} (h : 'a' ∈ text.toList) :
    Text.isBlank text = false := by
  rw [Text.isBlank, List.all_eq_false]
  exact ⟨'a', h, by decide⟩

/-- **Markers in descriptions.** A description that holds the marker counts as ticked, and is not
turned away for its checklist, if each capital sigma of the marker ends a word in the description just
if it does in the marker alone. So it is with every description exactly for the markers whose sigmas
do not hang on what is around them; for these alone the check of the description never fails so. -/
theorem marker_shown (policy : Policy) :
    (∀ before after, KeepsSigmas before.toList.reverse after.toList policy.checklistMarker.toList →
      isTicked policy (before ++ policy.checklistMarker ++ after) = true ∧
      ∀ pr : Snapshot, pr.body = before ++ policy.checklistMarker ++ after →
        checkShape policy pr ≠ some .checklistNotTicked) ∧
    ((∀ before after, isTicked policy (before ++ policy.checklistMarker ++ after) = true) ↔
      Steady policy.checklistMarker.toList) ∧
    ((∀ (before after : String) (pr : Snapshot), pr.body = before ++ policy.checklistMarker ++ after →
        checkShape policy pr ≠ some .checklistNotTicked) ↔
      Steady policy.checklistMarker.toList) := by
  have hsteady := fun h : ¬ Steady policy.checklistMarker.toList =>
    Text.not_holds_toSmall_of_not_steady h
  refine ⟨?_, ⟨?_, isTicked_of_steady⟩, ⟨?_, ?_⟩⟩
  · intro before after h
    have hticked := isTicked_of_keepsSigmas h
    refine ⟨hticked, fun pr hbody => checkShape_ne_of_isTicked ?_⟩
    rw [hbody]
    exact hticked
  · intro h
    by_contra hnot
    rcases hsteady hnot with hhidden | hhidden
    · exact absurd (h "a" "") (Bool.eq_false_iff.1 hhidden)
    · exact absurd (h "" "a") (Bool.eq_false_iff.1 hhidden)
  · intro h
    by_contra hnot
    -- The `a` that hides the marker also keeps the description from being blank.
    let showing (body : String) : Snapshot :=
      ⟨⟨1⟩, "", "", body, "", .none, ∅, false, [], ⟨""⟩⟩
    rcases hsteady hnot with hhidden | hhidden
    · refine h "a" "" (showing _) rfl (checkShape_of_not_isTicked ?_ hhidden)
      exact isBlank_eq_false_of_mem (by simp [showing])
    · refine h "" "a" (showing _) rfl (checkShape_of_not_isTicked ?_ hhidden)
      exact isBlank_eq_false_of_mem (by simp [showing])
  · intro h before after pr hbody
    refine checkShape_ne_of_isTicked ?_
    rw [hbody]
    exact isTicked_of_steady h before after

/-- A sigma for a marker counts inside a word. -/
theorem marker_shown_within_word :
    let policy := { Policy.standard with checklistMarker := "Σ" }
    KeepsSigmas "a".toList.reverse "a".toList "Σ".toList ∧
    isTicked policy ("a" ++ "Σ" ++ "a") = true ∧
    checkShape policy ⟨⟨1⟩, "", "", "aΣa", "", .none, ∅, false, [], ⟨""⟩⟩ ≠
      some .checklistNotTicked :=
  have hkeeps : KeepsSigmas "a".toList.reverse "a".toList "Σ".toList := by decide
  have hshown := (marker_shown { Policy.standard with checklistMarker := "Σ" }).1 "a" "a" hkeeps
  ⟨hkeeps, hshown.1, hshown.2 _ rfl⟩

/-- It does not count at the end of one, where its small letter is another than the marker's. -/
theorem marker_overlooked_at_end :
    let policy := { Policy.standard with checklistMarker := "Σ" }
    isTicked policy ("a" ++ "Σ" ++ "") = false ∧
    checkShape policy ⟨⟨1⟩, "", "", "a" ++ "Σ" ++ "", "", .none, ∅, false, [], ⟨""⟩⟩ =
      some .checklistNotTicked := by
  decide

end PullGate.Gate
