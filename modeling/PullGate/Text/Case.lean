import PullGate.Text.CaseTable
/-!
# Letter case

Texts in small and in capital letters, by the full mappings of Unicode: one character may become
several, and a capital sigma at the end of a word becomes the final small one.
-/

namespace PullGate.Text

/-- The image of a character under runs. -/
def imageInRuns (runs : List CaseRun) (n : Nat) : Option Nat :=
  runs.findSome? fun r =>
    if r.first ≤ n && n ≤ r.last && (n - r.first) % r.stride == 0 then some (r.image + (n - r.first))
    else none

/-- The characters that a character beyond ASCII is mapped to. -/
def caseImage (runs : List CaseRun) (sequences : List (Nat × List Nat)) (c : Char) : List Char :=
  match sequences.find? fun s => s.1 == c.toNat with
  | some (_, cs) => cs.map Char.ofNat
  | none => match imageInRuns runs c.toNat with
    | some n => [Char.ofNat n]
    | none => [c]

/-- The capital form of a character. -/
def capital (c : Char) : List Char :=
  if c.toNat < 0x80 then [c.toUpper] else caseImage capitalRuns capitalSequences c

/-- The small form of a character that stands alone. -/
def small (c : Char) : List Char :=
  if c.toNat < 0x80 then [c.toLower] else caseImage smallRuns smallSequences c

/-- Whether a character is a letter with case. -/
def isCased (c : Char) : Bool := if c.toNat < 0x80 then c.isAlpha else casedRanges.has c

/-- Whether a character is passed over when the end of a word is looked for. -/
def isCaseIgnorable (c : Char) : Bool :=
  if c.toNat < 0x80 then ['\'', '.', ':', '^', '\x60'].contains c else caseIgnorableRanges.has c

/-- Whether the first character that counts is a letter with case. -/
def meetsCased (cs : List Char) : Bool :=
  match cs.dropWhile isCaseIgnorable with
  | c :: _ => isCased c
  | [] => false

/-- The small forms of a text's characters; `before` are the characters in front, last first. -/
def smallFrom (before : List Char) : List Char → List Char
  | [] => []
  | c :: rest =>
    (if c = 'Σ' then [if meetsCased before && !meetsCased rest then 'ς' else 'σ'] else small c) ++
      smallFrom (c :: before) rest

/-- A text in capital letters. -/
def toCapitals (s : String) : String := String.ofList (s.toList.flatMap capital)

/-- A text in small letters. -/
def toSmall (s : String) : String := String.ofList (smallFrom [] s.toList)

theorem capital_ascii {c : Char} (h : c.toNat < 0x80) : capital c = [c.toUpper] := by
  simp [capital, h]

theorem small_ascii {c : Char} (h : c.toNat < 0x80) : small c = [c.toLower] := by
  simp [small, h]

/-- A text is in capitals character by character. -/
theorem toList_toCapitals (s : String) : (toCapitals s).toList = s.toList.flatMap capital := by
  simp [toCapitals]

end PullGate.Text
