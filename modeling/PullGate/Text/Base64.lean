/-!
# Base64

Bytes as characters of six bits each, with padding at the end. Reading is strict: the padding must
be there, and the bits that stand for nothing must be zero.
-/

namespace PullGate.Text.Base64

/-- The value of a character that stands for six bits. -/
def value? (b : UInt8) : Option Nat :=
  let n := b.toNat
  if 0x41 ≤ n && n ≤ 0x5a then some (n - 0x41)
  else if 0x61 ≤ n && n ≤ 0x7a then some (n - 0x61 + 26)
  else if 0x30 ≤ n && n ≤ 0x39 then some (n - 0x30 + 52)
  else if n = 0x2b then some 62
  else if n = 0x2f then some 63
  else none

/-- The character for six bits. -/
def symbol (n : Nat) : UInt8 :=
  if n < 26 then UInt8.ofNat (0x41 + n)
  else if n < 52 then UInt8.ofNat (0x61 + (n - 26))
  else if n < 62 then UInt8.ofNat (0x30 + (n - 52))
  else if n = 62 then 0x2b
  else 0x2f

/-- The character that pads the last group. -/
def pad : UInt8 := 0x3d

/-- The characters for bytes. -/
def encode : List UInt8 → List UInt8
  | [] => []
  | [a] => [symbol (a.toNat / 4), symbol (a.toNat % 4 * 16), pad, pad]
  | [a, b] =>
    [symbol (a.toNat / 4), symbol (a.toNat % 4 * 16 + b.toNat / 16), symbol (b.toNat % 16 * 4), pad]
  | a :: b :: c :: rest =>
    symbol (a.toNat / 4) :: symbol (a.toNat % 4 * 16 + b.toNat / 16) ::
      symbol (b.toNat % 16 * 4 + c.toNat / 64) :: symbol (c.toNat % 64) :: encode rest

/-- The bytes that characters stand for. -/
def decode? : List UInt8 → Option (List UInt8)
  | [] => some []
  | [a, b, c, d] => do
    let x ← value? a
    let y ← value? b
    let first := UInt8.ofNat (x * 4 + y / 16)
    if c = pad then if d = pad ∧ y % 16 = 0 then return [first] else none
    else
      let z ← value? c
      let second := UInt8.ofNat (y % 16 * 16 + z / 4)
      if d = pad then if z % 4 = 0 then return [first, second] else none
      else
        let w ← value? d
        return [first, second, UInt8.ofNat (z % 4 * 64 + w)]
  | a :: b :: c :: d :: rest => do
    let x ← value? a
    let y ← value? b
    let z ← value? c
    let w ← value? d
    let bytes ← decode? rest
    return UInt8.ofNat (x * 4 + y / 16) :: UInt8.ofNat (y % 16 * 16 + z / 4) ::
      UInt8.ofNat (z % 4 * 64 + w) :: bytes
  | _ => none

theorem value?_symbol {n : Nat} (h : n < 64) : value? (symbol n) = some n := by
  have : ∀ m, m < 64 → value? (symbol m) = some m := by decide
  exact this n h

theorem symbol_ne_pad {n : Nat} (h : n < 64) : symbol n ≠ pad := by
  have : ∀ m, m < 64 → symbol m ≠ pad := by decide
  exact this n h

private theorem ofNat_of_eq {n : Nat} {b : UInt8} (h : n = b.toNat) : UInt8.ofNat n = b := by
  rw [h, UInt8.ofNat_toNat]

/-- Four characters that stand for three bytes. -/
private theorem decode?_group (a b c : UInt8) {tail : List UInt8} {bytes : List UInt8}
    (htail : decode? tail = some bytes) :
    decode? (symbol (a.toNat / 4) :: symbol (a.toNat % 4 * 16 + b.toNat / 16) ::
      symbol (b.toNat % 16 * 4 + c.toNat / 64) :: symbol (c.toNat % 64) :: tail) =
        some (a :: b :: c :: bytes) := by
  have ha := a.toNat_lt
  have hb := b.toNat_lt
  have hc := c.toNat_lt
  have e1 := value?_symbol (show a.toNat / 4 < 64 by omega)
  have e2 := value?_symbol (show a.toNat % 4 * 16 + b.toNat / 16 < 64 by omega)
  have e3 := value?_symbol (show b.toNat % 16 * 4 + c.toNat / 64 < 64 by omega)
  have e4 := value?_symbol (show c.toNat % 64 < 64 by omega)
  have b1 := ofNat_of_eq
    (show a.toNat / 4 * 4 + (a.toNat % 4 * 16 + b.toNat / 16) / 16 = a.toNat by omega)
  have b2 := ofNat_of_eq (show (a.toNat % 4 * 16 + b.toNat / 16) % 16 * 16 +
    (b.toNat % 16 * 4 + c.toNat / 64) / 4 = b.toNat by omega)
  have b3 := ofNat_of_eq
    (show (b.toNat % 16 * 4 + c.toNat / 64) % 4 * 64 + c.toNat % 64 = c.toNat by omega)
  cases tail with
  | nil =>
    -- the last group might be padded, and is not
    rw [decode?, Option.some.injEq] at htail
    subst htail
    simp only [decode?, e1, e2, e3, e4, b1, b2, b3, Option.bind_eq_bind, Option.bind_some,
      symbol_ne_pad (show b.toNat % 16 * 4 + c.toNat / 64 < 64 by omega),
      symbol_ne_pad (show c.toNat % 64 < 64 by omega), if_false, Option.pure_def]
  | cons t ts =>
    simp only [decode?, e1, e2, e3, e4, b1, b2, b3, htail, Option.bind_eq_bind, Option.bind_some,
      Option.pure_def]

/-- Reading undoes writing. -/
theorem decode?_encode (bytes : List UInt8) : decode? (encode bytes) = some bytes := by
  fun_induction encode bytes with
  | case1 => rfl
  -- the groups at the end, with one byte and with two: the bits left over are zero
  | case2 a =>
    have ha := a.toNat_lt
    simp only [decode?, value?_symbol (show a.toNat / 4 < 64 by omega),
      value?_symbol (show a.toNat % 4 * 16 < 64 by omega), Option.bind_eq_bind, Option.bind_some,
      if_true, Option.pure_def, show a.toNat % 4 * 16 % 16 = 0 by omega, and_self,
      ofNat_of_eq (show a.toNat / 4 * 4 + a.toNat % 4 * 16 / 16 = a.toNat by omega)]
  | case3 a b =>
    have ha := a.toNat_lt
    have hb := b.toNat_lt
    simp only [decode?, value?_symbol (show a.toNat / 4 < 64 by omega),
      value?_symbol (show a.toNat % 4 * 16 + b.toNat / 16 < 64 by omega),
      value?_symbol (show b.toNat % 16 * 4 < 64 by omega),
      symbol_ne_pad (show b.toNat % 16 * 4 < 64 by omega), Option.bind_eq_bind, Option.bind_some,
      if_true, if_false, Option.pure_def, show b.toNat % 16 * 4 % 4 = 0 by omega,
      ofNat_of_eq (show a.toNat / 4 * 4 + (a.toNat % 4 * 16 + b.toNat / 16) / 16 = a.toNat by omega),
      ofNat_of_eq (show (a.toNat % 4 * 16 + b.toNat / 16) % 16 * 16 + b.toNat % 16 * 4 / 4 =
        b.toNat by omega)]
  | case4 a b c rest ih => exact decode?_group a b c ih

end PullGate.Text.Base64
