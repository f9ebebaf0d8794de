/-!
# Shortest decimals

The fewest decimal digits that single out a binary floating point number, and how a number is written
with them. A number is `significand * 2 ^ exponent`; the decimals that are read as it fill the
interval halfway to its neighbours, ends included if the significand is even.
-/

namespace PullGate.Decimal

/-- A positive binary floating point number and the interval that is read as it, all as multiples of
one unit: `2 ^ exponent`. -/
structure Interval where
  low : Nat
  value : Nat
  high : Nat
  exponent : Int
  /-- Whether the ends are read as the number, too. -/
  closed : Bool
  deriving Repr

/-- The interval of the positive number with these 64 bits. -/
def Interval.ofBits (bits : Nat) : Interval :=
  let fraction := bits % Nat.pow 2 52
  let scale : Nat := bits / Nat.pow 2 52 % Nat.pow 2 11
  let significand := if scale = 0 then fraction else fraction + Nat.pow 2 52
  let exponent : Int := Int.ofNat (max scale 1) - 1075
  -- below a power of two the neighbours are closer
  let low := if fraction = 0 ∧ 1 < scale then 4 * significand - 1 else 4 * significand - 2
  ⟨low, 4 * significand, 4 * significand + 2, exponent - 2, significand % 2 = 0⟩

/-- A decimal: `digits * 10 ^ power`. -/
structure Numeral where
  digits : Nat
  power : Int
  deriving DecidableEq, Repr

/-- `n * 2 ^ e * 10 ^ p` as a fraction. -/
def scaled (n : Nat) (e p : Int) : Nat × Nat :=
  (n * Nat.pow 2 e.toNat * Nat.pow 10 p.toNat, Nat.pow 2 (-e).toNat * Nat.pow 10 (-p).toNat)

/-- Whether `digits * 10 ^ power` lies in the interval. -/
def Interval.holds (i : Interval) (d : Numeral) : Bool :=
  -- compare digits with the ends divided by the power of ten
  let (low, unit) := scaled i.low i.exponent (-d.power)
  let (high, _) := scaled i.high i.exponent (-d.power)
  let x := d.digits * unit
  if i.closed then low ≤ x && x ≤ high else low < x && x < high

/-- The decimals with a given power of ten next to the number, if they lie in the interval: the nearer
one, and of two that are as near the even one. -/
def Interval.nearest? (i : Interval) (power : Int) : Option Numeral :=
  let (value, unit) := scaled i.value i.exponent (-power)
  let below : Numeral := ⟨value / unit, power⟩
  let above : Numeral := ⟨value / unit + 1, power⟩
  let twice := 2 * (value % unit)
  let preferBelow := twice < unit || (twice == unit && below.digits % 2 == 0)
  let candidates := if preferBelow then [below, above] else [above, below]
  candidates.find? fun d => d.digits ≠ 0 && i.holds d

/-- The greatest power of ten that is not above the number. -/
def Interval.magnitude (i : Interval) : Int :=
  -- a first guess from the number of bits, never too small by more than one
  let bits : Int := (Nat.log2 i.value : Int) + i.exponent
  let guess := bits * 30103 / 100000 - 1
  let isAbove (p : Int) : Bool := let (v, unit) := scaled i.value i.exponent (-p); v < unit
  if isAbove (guess + 1) then guess else if isAbove (guess + 2) then guess + 1 else guess + 2

/-- The decimal with the fewest digits that is read as the number. -/
def Interval.shortest (i : Interval) : Numeral :=
  let m := i.magnitude
  let found := (List.range 17).findSome? fun (k : Nat) => i.nearest? (m - k)
  found.getD ⟨0, 0⟩

/-- A decimal without zeros at its end. -/
def Numeral.trimmed (d : Numeral) : Numeral :=
  go 20 d
where
  /-- Takes away at most this many zeros. -/
  go : Nat → Numeral → Numeral
    | 0, d => d
    | n + 1, d => if d.digits ≠ 0 ∧ d.digits % 10 = 0 then go n ⟨d.digits / 10, d.power + 1⟩ else d

/-! ## Writing -/

/-- How decimals are written: from which to which number of digits before the point the number is
written out, and the exponent otherwise. -/
structure Layout where
  /-- The least number of digits before the point that is written out; zeros after the point count
  as negative. -/
  least : Int
  /-- The greatest number of digits before the point that is written out. -/
  greatest : Int
  /-- The least number of digits in an exponent. -/
  exponentDigits : Nat

/-- A decimal as text: a number without a fraction has a zero after its point. -/
def Numeral.render (layout : Layout) (d : Numeral) : String :=
  let digits := Nat.toDigits 10 d.digits
  let count : Int := digits.length
  let point := count + d.power
  if layout.least ≤ point ∧ point ≤ layout.greatest then
    if point ≤ 0 then
      "0." ++ String.ofList (List.replicate (-point).toNat '0' ++ digits)
    else if count ≤ point then
      String.ofList (digits ++ List.replicate (point - count).toNat '0') ++ ".0"
    else
      String.ofList (digits.take point.toNat) ++ "." ++ String.ofList (digits.drop point.toNat)
  else
    let exponent := point - 1
    let sign := if exponent < 0 then "-" else "+"
    let tail := Nat.toDigits 10 exponent.natAbs
    let pad := List.replicate (layout.exponentDigits - tail.length) '0'
    let fraction := match digits with
      | first :: second :: rest => String.ofList (first :: '.' :: second :: rest)
      | short => String.ofList short
    fraction ++ "e" ++ sign ++ String.ofList (pad ++ tail)

/-- A floating point number as text. -/
def renderFloat (layout : Layout) (f : Float) : String :=
  let bits := f.toBits.toNat
  let sign := if Nat.pow 2 63 ≤ bits then "-" else ""
  let positive := bits % Nat.pow 2 63
  if positive = 0 then sign ++ "0.0"
  else sign ++ (Interval.ofBits positive).shortest.trimmed.render layout

end PullGate.Decimal
