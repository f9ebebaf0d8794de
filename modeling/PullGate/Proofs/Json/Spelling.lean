import PullGate.Json.Read
import PullGate.Json.Write
/-!
# Spellings

Which bytes are a JSON text of a value: with blanks between the parts or without, and with any character
of a text as itself or escaped. What is written for a value is one of its spellings
(`Value.spells_bytes`), and every one is read as the value (`Shape.reads`).
-/

namespace PullGate.Json

/-! ## Parts -/

/-- Nothing but blanks. -/
def Blanks (bytes : List UInt8) : Prop := ∀ b ∈ bytes, isBlank b = true

theorem blanks_nil : Blanks [] := nofun

/-- The decimal digits of a number. -/
def digits (n : Nat) : List UInt8 := (Nat.toDigits 10 n).map byte

/-- Bytes that are read as a float if nothing follows. -/
inductive SpellsFloat : List UInt8 → Float → Prop
  | positive {b : UInt8} {bytes : List UInt8} {f : Float} (digit : Decimal.isDigit b = true)
      (read : readNumber true (b :: bytes) = .ok (.float f, [])) : SpellsFloat (b :: bytes) f
  | negative {bytes : List UInt8} {f : Float} (read : readNumber false bytes = .ok (.float f, [])) :
      SpellsFloat (0x2d :: bytes) f

/-- Numbers. -/
inductive SpellsNumber : List UInt8 → Number → Prop
  | natural (n : UInt64) : SpellsNumber (digits n.toNat) (.natural n)
  | negative {n : Nat} (positive : 0 < n) (le : n ≤ Nat.pow 2 63) :
      SpellsNumber (0x2d :: digits n) (.negative n)
  | float {bytes : List UInt8} {f : Float} (h : SpellsFloat bytes f) : SpellsNumber bytes (.float f)

/-- Characters between quotation marks. -/
inductive SpellsChars : List UInt8 → List Char → Prop
  | nil : SpellsChars [] []
  /-- A character as itself. -/
  | plain {c : Char} {bytes : List UInt8} {cs : List Char}
      (h : c ≠ '"' ∧ c ≠ '\\' ∧ 0x20 ≤ c.toNat) (more : SpellsChars bytes cs) :
      SpellsChars (Text.Utf8.encodeChar c ++ bytes) (c :: cs)
  /-- A backslash and one byte. -/
  | short {e b : UInt8} {bytes : List UInt8} {cs : List Char} (h : escaped? e = some b)
      (more : SpellsChars bytes cs) : SpellsChars (0x5c :: e :: bytes) (Char.ofNat b.toNat :: cs)
  /-- Four hexadecimal digits. -/
  | hex {a b c d : UInt8} {n : Nat} {bytes : List UInt8} {cs : List Char}
      (h : hexValue? a b c d = some n) (alone : isLeading n = false ∧ isTrailing n = false)
      (more : SpellsChars bytes cs) :
      SpellsChars (0x5c :: 0x75 :: a :: b :: c :: d :: bytes) (Char.ofNat n :: cs)
  /-- Two halves of a pair. -/
  | pair {a b c d a' b' c' d' : UInt8} {n m : Nat} {bytes : List UInt8} {cs : List Char}
      (h : hexValue? a b c d = some n) (leading : isLeading n = true)
      (h' : hexValue? a' b' c' d' = some m) (trailing : isTrailing m = true)
      (more : SpellsChars bytes cs) :
      SpellsChars
        (0x5c :: 0x75 :: a :: b :: c :: d :: 0x5c :: 0x75 :: a' :: b' :: c' :: d' :: bytes)
        (Char.ofNat (0x10000 + (n - 0xd800) * 0x400 + (m - 0xdc00)) :: cs)

/-- What stands before an item or a member: a comma, unless it is the first. -/
inductive Gap : Bool → List UInt8 → Prop
  | first {ws : List UInt8} (blanks : Blanks ws) : Gap true ws
  | later {ws ws' : List UInt8} (blanks : Blanks ws) (blanks' : Blanks ws') :
      Gap false (ws ++ 0x2c :: ws')

/-- A key with the colon after it, from the opening mark on. -/
inductive SpellsKey : List UInt8 → String → Prop
  | mk {bytes ws ws' : List UInt8} {key : String} (chars : SpellsChars bytes key.toList)
      (blanks : Blanks ws) (blanks' : Blanks ws') :
      SpellsKey (0x22 :: bytes ++ 0x22 :: ws ++ 0x3a :: ws') key

/-! ## Values -/

mutual

/-- The bytes are a JSON text of the value, without blanks in front or behind. -/
inductive Spells : List UInt8 → Value → Prop
  | null : Spells [0x6e, 0x75, 0x6c, 0x6c] .null
  | yes : Spells [0x74, 0x72, 0x75, 0x65] (.flag true)
  | no : Spells [0x66, 0x61, 0x6c, 0x73, 0x65] (.flag false)
  | number {bytes : List UInt8} {n : Number} (h : SpellsNumber bytes n) : Spells bytes (.number n)
  | text {bytes : List UInt8} {s : String} (chars : SpellsChars bytes s.toList) :
      Spells (0x22 :: bytes ++ [0x22]) (.text s)
  | list {bytes ws : List UInt8} {items : List Value} (spells : SpellsItems true bytes items)
      (blanks : Blanks ws) : Spells (0x5b :: bytes ++ ws ++ [0x5d]) (.list items)
  | object {bytes ws : List UInt8} {members : List (String × Value)}
      (spells : SpellsMembers true bytes members) (blanks : Blanks ws) :
      Spells (0x7b :: bytes ++ ws ++ [0x7d]) (.object members)

/-- The bytes are items of a list, from the first on or from a later one. -/
inductive SpellsItems : Bool → List UInt8 → List Value → Prop
  | nil {first : Bool} : SpellsItems first [] []
  | cons {first : Bool} {gap bytes more : List UInt8} {v : Value} {items : List Value}
      (hgap : Gap first gap) (item : Spells bytes v) (rest : SpellsItems false more items) :
      SpellsItems first (gap ++ bytes ++ more) (v :: items)

/-- The bytes are members of an object, from the first on or from a later one. -/
inductive SpellsMembers : Bool → List UInt8 → List (String × Value) → Prop
  | nil {first : Bool} : SpellsMembers first [] []
  | cons {first : Bool} {gap key bytes more : List UInt8} {name : String} {v : Value}
      {members : List (String × Value)} (hgap : Gap first gap) (hkey : SpellsKey key name)
      (value : Spells bytes v) (rest : SpellsMembers false more members) :
      SpellsMembers first (gap ++ key ++ bytes ++ more) ((name, v) :: members)

end

/-- The bytes are a whole JSON text of the value, with blanks around it or without. -/
def SpellsWhole (bytes : List UInt8) (v : Value) : Prop :=
  ∃ ws spelling ws', Blanks ws ∧ Spells spelling v ∧ Blanks ws' ∧ bytes = ws ++ (spelling ++ ws')

theorem Spells.whole {bytes : List UInt8} {v : Value} (h : Spells bytes v) : SpellsWhole bytes v :=
  ⟨[], bytes, [], blanks_nil, h, blanks_nil, (List.append_nil bytes).symm⟩

end PullGate.Json
