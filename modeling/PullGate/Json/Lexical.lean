import PullGate.Decimal.Natural
import PullGate.Json.Error
import PullGate.Text.Hex
import PullGate.Text.Utf8
/-!
# The parts of JSON texts

Blanks, words, texts and numbers, each read from the front of bytes. Texts and numbers are read or
passed over; passing over checks less.
-/

namespace PullGate.Json

/-! ## Bytes -/

/-- The byte of a character of ASCII. -/
def byte (c : Char) : UInt8 := UInt8.ofNat c.toNat

/-- Whether a byte may stand between parts. -/
def isBlank (b : UInt8) : Bool := b = 0x20 || b = 0x0a || b = 0x09 || b = 0x0d

/-- What follows blanks. -/
def skipBlanks : List UInt8 → List UInt8
  | [] => []
  | b :: rest => if isBlank b then skipBlanks rest else b :: rest

/-- What follows the rest of a word. -/
def readWord : List Char → List UInt8 → Except Failure (List UInt8)
  | [], rest => .ok rest
  | _ :: _, [] => .error (.here .endInValue [])
  | c :: word, b :: rest =>
    if b = byte c then readWord word rest else .error (.here .expectedIdent rest)

/-! ## Texts -/

/-- The value of four hexadecimal digits. -/
def hexValue? (a b c d : UInt8) : Option Nat := do
  let a ← Text.Hex.value? (Char.ofNat a.toNat)
  let b ← Text.Hex.value? (Char.ofNat b.toNat)
  let c ← Text.Hex.value? (Char.ofNat c.toNat)
  let d ← Text.Hex.value? (Char.ofNat d.toNat)
  return ((a * 16 + b) * 16 + c) * 16 + d

/-- The byte that a byte after a backslash stands for. -/
def escaped? (b : UInt8) : Option UInt8 :=
  if b = 0x22 then some 0x22
  else if b = 0x5c then some 0x5c
  else if b = 0x2f then some 0x2f
  else if b = 0x62 then some 0x08
  else if b = 0x66 then some 0x0c
  else if b = 0x6e then some 0x0a
  else if b = 0x72 then some 0x0d
  else if b = 0x74 then some 0x09
  else none

/-- Whether a number is the first half of a pair. -/
def isLeading (n : Nat) : Bool := 0xd800 ≤ n && n ≤ 0xdbff

/-- Whether a number is the second half of a pair. -/
def isTrailing (n : Nat) : Bool := 0xdc00 ≤ n && n ≤ 0xdfff

/-- Puts the bytes of a character in front of bytes that are kept last first. -/
def pushChar (n : Nat) (read : List UInt8) : List UInt8 :=
  (Text.Utf8.encodeChar (Char.ofNat n)).reverse ++ read

/-- The bytes of a text up to its closing mark; `read` are those in front, last first. -/
def readBytes : List UInt8 → List UInt8 → Result (List UInt8)
  | [], _ => .error (.here .endInText [])
  | b :: rest, read =>
    if b = 0x22 then .ok (read.reverse, rest)
    else if b = 0x5c then
      match rest with
      | [] => .error (.here .endInText [])
      | e :: rest =>
        match escaped? e with
        | some c => readBytes rest (c :: read)
        | none =>
          if e = 0x75 then
            match rest with
            | a :: b :: c :: d :: rest =>
              match hexValue? a b c d with
              | none => .error (.here .invalidEscape rest)
              | some n =>
                if isTrailing n then .error (.here .loneSurrogate rest)
                else if !isLeading n then readBytes rest (pushChar n read)
                else match rest with
                | [] => .error (.here .endInText [])
                | x :: rest =>
                  if x ≠ 0x5c then .error (.here .escapeEnd rest)
                  else match rest with
                  | [] => .error (.here .endInText [])
                  | y :: rest =>
                    if y ≠ 0x75 then .error (.here .escapeEnd rest)
                    else match rest with
                    | a :: b :: c :: d :: rest =>
                      match hexValue? a b c d with
                      | none => .error (.here .invalidEscape rest)
                      | some m =>
                        if isTrailing m then
                          readBytes rest
                            (pushChar (0x10000 + (n - 0xd800) * 0x400 + (m - 0xdc00)) read)
                        else .error (.here .loneSurrogate rest)
                    | _ => .error (.here .endInText [])
            | _ => .error (.here .endInText [])
          else .error (.here .invalidEscape rest)
    else if b.toNat < 0x20 then .error (.here .controlCharacter rest)
    else readBytes rest (b :: read)

/-- The text up to its closing mark. Bytes that are no characters are reported at the first of them. -/
def readText (bytes : List UInt8) : Result String :=
  match readBytes bytes [] with
  | .error f => .error f
  | .ok (read, rest) =>
    match Text.Utf8.decode? read with
    | none => .error (.at_ .invalidCodePoint (bytes.drop (Text.Utf8.soundLength bytes)))
    | some cs => .ok (String.ofList cs, rest)

/-- Passes over a text up to its closing mark. -/
def skipText : List UInt8 → Except Failure (List UInt8)
  | [] => .error (.here .endInText [])
  | b :: rest =>
    if b = 0x22 then .ok rest
    else if b = 0x5c then
      match rest with
      | [] => .error (.here .endInText [])
      | e :: rest =>
        if (escaped? e).isSome then skipText rest
        else if e = 0x75 then
          match rest with
          | a :: b :: c :: d :: rest =>
            if (hexValue? a b c d).isSome then skipText rest
            else .error (.here .invalidEscape rest)
          | _ => .error (.here .endInText [])
        else .error (.here .invalidEscape rest)
    else if b.toNat < 0x20 then .error (.here .controlCharacter (b :: rest))
    else skipText rest

/-- A text ends at its closing mark. -/
theorem skipText_mark (rest : List UInt8) : skipText (0x22 :: rest) = .ok rest := by
  rw [skipText.eq_def]
  simp

/-- A short escape is passed over. -/
theorem skipText_short {e : UInt8} (h : (escaped? e).isSome = true) (rest : List UInt8) :
    skipText (0x5c :: e :: rest) = skipText rest := by
  rw [skipText.eq_def]
  simp [h]

/-- An escape in hexadecimal digits is passed over, whatever unit it stands for. -/
theorem skipText_hex {a b c d : UInt8} (h : (hexValue? a b c d).isSome = true) (rest : List UInt8) :
    skipText (0x5c :: 0x75 :: a :: b :: c :: d :: rest) = skipText rest := by
  rw [skipText.eq_def]
  simp [h, show escaped? 0x75 = none by decide]

theorem skipText_cons {b : UInt8} (hmark : ¬ b = 0x22) (hback : ¬ b = 0x5c)
    (hcontrol : ¬ b.toNat < 0x20) (rest : List UInt8) : skipText (b :: rest) = skipText rest := by
  rw [skipText.eq_def]
  simp [hmark, hback, hcontrol]

/-- What is read as a text is passed over as one. -/
theorem skipText_of_readBytes {bytes read text rest : List UInt8}
    (h : readBytes bytes read = .ok (text, rest)) : skipText bytes = .ok rest := by
  fun_induction readBytes bytes read with
  | case2 =>
    cases h
    exact skipText_mark _
  | case4 read e bytes c he _ ih => rw [skipText_short (by simp [he]), ih h]
  | case7 read a b c d bytes n hn _ _ _ _ ih => rw [skipText_hex (by simp [hn]), ih h]
  | case13 read a b c d n hn _ _ x hx y hy a' b' c' d' bytes m hm _ _ _ ih =>
    -- two halves of a pair are passed over one by one
    obtain rfl := Decidable.not_not.1 hx
    obtain rfl := Decidable.not_not.1 hy
    rw [skipText_hex (by simp [hn]), skipText_hex (by simp [hm]), ih h]
  | case19 b bytes read hmark hback hcontrol ih => rw [skipText_cons hmark hback hcontrol, ih h]
  | _ => cases h

/-! ## Numbers -/

open PullGate.Decimal (isDigit readUpTo skipDigits)

/-- The greatest number without a sign. -/
def greatestNatural : Nat := Nat.pow 2 64 - 1

/-- The greatest exponent that is told apart. -/
def greatestExponent : Nat := Nat.pow 2 31 - 1

/-- A power of ten that a float can be multiplied with. -/
def powerOfTen (n : Nat) : Float := Float.ofScientific 1 false n

/-- A float divided by a power of ten, in steps that do not overflow. -/
def divideByPower : Nat → Float → Nat → Float
  | 0, f, _ => f
  | fuel + 1, f, n =>
    if n ≤ 308 then f / powerOfTen n
    else if f == 0 then f
    else divideByPower fuel (f / powerOfTen 308) (n - 308)

/-- The number with these digits and this power of ten, if it is not too great. -/
def makeFloat (positive : Bool) (significand : Nat) (power : Int) (rest : List UInt8) :
    Result Number :=
  let f := (UInt64.ofNat significand).toFloat
  let signed (f : Float) := Number.float (if positive then f else -f)
  if 0 ≤ power then
    if 308 < power then
      if f == 0 then .ok (signed f, rest) else .error (.here .numberOutOfRange rest)
    else
      let g := f * powerOfTen power.toNat
      if g.isInf then .error (.here .numberOutOfRange rest) else .ok (signed g, rest)
  else .ok (signed (divideByPower (power.natAbs / 308 + 1) f power.natAbs), rest)

/-- Whether an exponent grows, and what follows its sign. -/
def exponentSign : List UInt8 → Bool × List UInt8
  | [] => (true, [])
  | b :: rest =>
    if b = 0x2b then (true, rest) else if b = 0x2d then (false, rest) else (true, b :: rest)

/-- Reads an exponent, after its sign. -/
def readExponentDigits (positive : Bool) (significand : Nat) (power : Int) (grows : Bool)
    (bytes : List UInt8) : Result Number :=
  match bytes with
  | [] => .error (.here .endInValue [])
  | b :: rest =>
    if !isDigit b then .error (.here .invalidNumber rest)
    else
      let (e, rest) := readUpTo greatestExponent (Decimal.digitValue b) rest
      match rest with
      | d :: more =>
        if isDigit d then
          -- the exponent is beyond all bounds
          if significand ≠ 0 ∧ grows then .error (.here .numberOutOfRange more)
          else .ok (.float (if positive then 0 else -0), skipDigits more)
        else makeFloat positive significand (if grows then power + e else power - e) rest
      | [] => makeFloat positive significand (if grows then power + e else power - e) rest

/-- Reads an exponent, after its letter. -/
def readExponent (positive : Bool) (significand : Nat) (power : Int) (bytes : List UInt8) :
    Result Number :=
  readExponentDigits positive significand power (exponentSign bytes).1 (exponentSign bytes).2

/-- Reads what follows the digits of a fraction. -/
def afterFraction (positive : Bool) (significand : Nat) (power : Int) (rest : List UInt8) :
    Result Number :=
  match rest with
  | b :: more =>
    if b = 0x65 || b = 0x45 then readExponent positive significand power more
    else makeFloat positive significand power rest
  | [] => makeFloat positive significand power rest

/-- Reads a fraction, after its point. Digits that go beyond 64 bits do not count. -/
def readFraction (positive : Bool) (significand : Nat) (power : Int) (bytes : List UInt8) :
    Result Number :=
  match bytes with
  | [] => .error (.here .endInValue [])
  | b :: _ =>
    if !isDigit b then .error (.at_ .invalidNumber bytes)
    else
      let (s, rest) := readUpTo greatestNatural significand bytes
      let counted := bytes.length - rest.length
      afterFraction positive s (power - counted) (skipDigits rest)

/-- The number with these digits alone. -/
def wholeNumber (positive : Bool) (n : Nat) : Number :=
  if positive then .natural (UInt64.ofNat n)
  else if n = 0 ∨ Nat.pow 2 63 < n then .float (-(UInt64.ofNat n).toFloat)
  else .negative n

/-- Reads what follows the digits of a number. -/
def afterDigits (positive : Bool) (n : Nat) (rest : List UInt8) : Result Number :=
  match rest with
  | b :: more =>
    if b = 0x2e then readFraction positive n 0 more
    else if b = 0x65 || b = 0x45 then readExponent positive n 0 more
    else .ok (wholeNumber positive n, rest)
  | [] => .ok (wholeNumber positive n, rest)

/-- Reads a number, after its sign. -/
def readNumber (positive : Bool) (bytes : List UInt8) : Result Number :=
  match bytes with
  | [] => .error (.here .endInValue [])
  | b :: rest =>
    if b = 0x30 then
      match rest with
      | d :: _ => if isDigit d then .error (.at_ .invalidNumber rest) else afterDigits positive 0 rest
      | [] => afterDigits positive 0 rest
    else if !isDigit b then .error (.here .invalidNumber rest)
    else
      let (n, rest) := readUpTo greatestNatural (Decimal.digitValue b) rest
      match rest with
      | d :: _ =>
        if !isDigit d then afterDigits positive n rest
        else
          -- digits beyond 64 bits count as powers of ten
          let after := skipDigits rest
          let power := rest.length - after.length
          match after with
          | b :: more =>
            if b = 0x2e then readFraction positive n power more
            else afterFraction positive n power after
          | [] => afterFraction positive n power after
      | [] => afterDigits positive n rest

/-- Passes over an exponent, after its letter. -/
def skipExponent (bytes : List UInt8) : Except Failure (List UInt8) :=
  match (exponentSign bytes).2 with
  | [] => .error (.here .invalidNumber [])
  | b :: rest => if isDigit b then .ok (skipDigits rest) else .error (.here .invalidNumber rest)

/-- Passes over an exponent, if there is one. -/
def skipOptionalExponent : List UInt8 → Except Failure (List UInt8)
  | [] => .ok []
  | b :: rest => if b = 0x65 || b = 0x45 then skipExponent rest else .ok (b :: rest)

/-- Passes over what follows the digits of a number. -/
def skipAfterDigits (rest : List UInt8) : Except Failure (List UInt8) :=
  match rest with
  | [] => .ok []
  | b :: more =>
    if b = 0x2e then
      match more with
      | [] => .error (.at_ .invalidNumber [])
      | d :: _ =>
        if isDigit d then skipOptionalExponent (skipDigits more)
        else .error (.at_ .invalidNumber more)
    else skipOptionalExponent rest

/-- Passes over a number, after its sign. -/
def skipNumber (bytes : List UInt8) : Except Failure (List UInt8) :=
  match bytes with
  | [] => .error (.here .invalidNumber [])
  | b :: rest =>
    if b = 0x30 then
      match rest with
      | d :: _ =>
        if isDigit d then .error (.at_ .invalidNumber rest) else skipAfterDigits rest
      | [] => .ok []
    else if isDigit b then skipAfterDigits (skipDigits rest)
    else .error (.here .invalidNumber rest)

end PullGate.Json
