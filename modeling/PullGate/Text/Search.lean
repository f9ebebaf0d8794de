/-!
# Finding one text in another

Whether a text occurs in another, and what follows its first occurrence. `occursIn_iff` says that
`occursIn` finds exactly the texts that stand somewhere in the other without a gap.
-/

namespace PullGate.Text

/-- Whether the first text stands somewhere in the second. -/
def occursIn (needle : List Char) : List Char → Bool
  | [] => needle.isEmpty
  | c :: rest => needle.isPrefixOf (c :: rest) || occursIn needle rest

/-- What is looked for is found if it stands somewhere in the characters, in one stretch. -/
theorem occursIn_iff {needle hay : List Char} : occursIn needle hay = true ↔ needle <:+: hay := by
  induction hay with
  | nil => simp [occursIn, List.isEmpty_iff]
  | cons c rest ih => simp [occursIn, List.infix_cons_iff, ih]

/-- Whether one text stands somewhere in another. -/
def holds (hay needle : String) : Bool := occursIn needle.toList hay.toList

/-- A text holds another if it is it with something before and something after. -/
theorem holds_iff {hay needle : String} :
    holds hay needle = true ↔ ∃ before after, hay.toList = before ++ needle.toList ++ after := by
  simp only [holds, occursIn_iff]
  exact ⟨fun ⟨a, b, h⟩ => ⟨a, b, h.symm⟩, fun ⟨a, b, h⟩ => ⟨a, b, h.symm⟩⟩

/-- What follows the first text's first occurrence in the second. -/
def afterFirst? (needle : List Char) : List Char → Option (List Char)
  | [] => if needle.isEmpty then some [] else none
  | c :: rest =>
    if needle.isPrefixOf (c :: rest) then some ((c :: rest).drop needle.length)
    else afterFirst? needle rest

end PullGate.Text
