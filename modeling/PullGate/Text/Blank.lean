import PullGate.Text.CharClass
/-!
# Blank texts

The characters with the property `White_Space` of Unicode, and texts of nothing else.
-/

namespace PullGate.Text

/-- The characters with the property `White_Space`. -/
def blankRanges : Ranges := [
  (0x9, 0xd), (0x20, 0x20), (0x85, 0x85), (0xa0, 0xa0), (0x1680, 0x1680), (0x2000, 0x200a),
  (0x2028, 0x2029), (0x202f, 0x202f), (0x205f, 0x205f), (0x3000, 0x3000)]

/-- Whether a text has no characters but blanks. -/
def isBlank (s : String) : Bool := s.toList.all blankRanges.has

/-- The text without characters is blank. -/
theorem isBlank_empty : isBlank "" = true := by rfl

end PullGate.Text
