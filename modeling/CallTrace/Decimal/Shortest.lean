/-!
# Shortest decimals

The decimal numeral of a binary64 value has as few digits as possible such that it
reads back as the same value; among those it is the one closest to the value, and
of two equally close ones the even one.

A finite value is `significand * 2 ^ exponent`.  The reals that round to it form an
interval between the halfway points to its neighbours, ends included exactly when
the significand is even.  The search tries the grids of one, two, … seventeen
significant digits in exact arithmetic and tests the two grid points next to the
value.
-/

namespace CallTrace.Decimal

/-- A finite binary64 value without its sign, `significand * 2 ^ exponent`. -/
structure Binary where
  significand : Nat
  exponent : Int
  /-- Below a power of two the next smaller value is half as far away. -/
  narrowBelow : Bool
deriving DecidableEq, Repr

/-- The weight of the leading bit of a normal value, which is not stored. -/
def hiddenBit : Nat := 0x10000000000000

/-- The finite value of a bit pattern; the sign bit is ignored. -/
def Binary.ofBits (bits : UInt64) : Binary :=
  let field : Nat := bits.toNat / hiddenBit % 0x800
  let fraction : Nat := bits.toNat % hiddenBit
  if field = 0 then ⟨fraction, -1074, false⟩
  else ⟨hiddenBit + fraction, (field : Int) - 1075, fraction == 0 && decide (1 < field)⟩

/-- The number `digits * 10 ^ exponent`. -/
structure Scaled where
  digits : Nat
  exponent : Int
deriving DecidableEq, Repr

/-- The value of `n * base ^ e` as a fraction. -/
def fraction (n base : Nat) (e : Int) : Nat × Nat :=
  (n * Nat.pow base e.toNat, Nat.pow base (-e).toNat)

/-- Compares two fractions. -/
def compareFractions (a b : Nat × Nat) : Ordering :=
  compare (a.1 * b.2) (b.1 * a.2)

/-- Whether a decimal lies among the reals that round to the value. -/
def Binary.readsBack (x : Binary) (d : Scaled) : Bool :=
  let low := fraction (if x.narrowBelow then 4 * x.significand - 1 else 4 * x.significand - 2)
    2 (x.exponent - 2)
  let high := fraction (4 * x.significand + 2) 2 (x.exponent - 2)
  let decimal := fraction d.digits 10 d.exponent
  let ends := x.significand % 2 == 0
  let above := compareFractions decimal low
  let below := compareFractions decimal high
  (above == .gt || (ends && above == .eq)) && (below == .lt || (ends && below == .eq))

/-- The least `k` with `value < 10 ^ k`, for a positive fraction. -/
def magnitude (value : Nat × Nat) : Int :=
  if value.2 ≤ value.1 then ((Nat.toDigits 10 (value.1 / value.2)).length : Int)
  else
    let places := (Nat.toDigits 10 (value.2 / value.1)).length
    if value.2 ≤ value.1 * Nat.pow 10 (places - 1) then 2 - (places : Int) else 1 - (places : Int)

/-- The decimal with the given exponent that reads back as the value and is closest to
    it, if there is one. -/
def Binary.onGrid (x : Binary) (e : Int) : Option Scaled :=
  let value := fraction x.significand 2 x.exponent
  let grid := fraction 1 10 e
  let numerator := value.1 * grid.2
  let denominator := value.2 * grid.1
  let floor := numerator / denominator
  let lower : Scaled := ⟨floor, e⟩
  let upper : Scaled := ⟨floor + 1, e⟩
  match x.readsBack lower, x.readsBack upper with
  | true, true =>
    match compare (2 * numerator) ((2 * floor + 1) * denominator) with
    | .lt => some lower
    | .gt => some upper
    | .eq => some (if floor % 2 = 0 then lower else upper)
  | true, false => some lower
  | false, true => some upper
  | false, false => none

/-- Moves trailing zeros of the digits into the exponent; `fuel` bounds their number. -/
def Scaled.strip : Nat → Scaled → Scaled
  | 0, d => d
  | fuel + 1, d =>
    if d.digits % 10 = 0 ∧ d.digits ≠ 0 then Scaled.strip fuel ⟨d.digits / 10, d.exponent + 1⟩
    else d

/-- The shortest decimal that reads back as a positive value. -/
def Binary.shortest (x : Binary) : Scaled :=
  let value := fraction x.significand 2 x.exponent
  let k := magnitude value
  let grids := (List.range 17).map fun (n : Nat) => k - 1 - (n : Int)
  ((grids.findSome? x.onGrid).getD ⟨value.1 / value.2, 0⟩).strip 20

/-- How decimals are laid out. -/
structure Layout where
  /-- Least exponent of the leading digit that is written positionally. -/
  plainFrom : Int
  /-- Greatest exponent of the leading digit that is written positionally. -/
  plainTo : Int
deriving DecidableEq, Repr

/-- A positive decimal in writing.  Whole numbers keep a zero after the point when
    written positionally; otherwise one digit stands before the point, and the exponent
    always has a sign. -/
def Layout.write (format : Layout) (d : Scaled) : List Char :=
  let digits := Nat.toDigits 10 d.digits
  let lead : Int := d.exponent + digits.length - 1
  if format.plainFrom ≤ lead ∧ lead ≤ format.plainTo then
    if 0 ≤ d.exponent then
      digits ++ List.replicate d.exponent.toNat '0' ++ ['.', '0']
    else if 0 ≤ lead then
      digits.take (lead.toNat + 1) ++ '.' :: digits.drop (lead.toNat + 1)
    else
      '0' :: '.' :: List.replicate ((-lead).toNat - 1) '0' ++ digits
  else
    let mantissa := match digits with
      | [only] => [only]
      | first :: rest => first :: '.' :: rest
      | [] => []
    mantissa ++ 'e' :: (if lead < 0 then '-' else '+') :: Nat.toDigits 10 lead.natAbs

/-- A finite binary64 value in writing, the sign of zero included. -/
def Layout.ofFloat (format : Layout) (x : Float) : String :=
  let bits := x.toBits
  let value := Binary.ofBits bits
  let magnitude := if value.significand = 0 then ['0', '.', '0'] else format.write value.shortest
  String.ofList (if bits < 0x8000000000000000 then magnitude else '-' :: magnitude)

end CallTrace.Decimal
