import SessionScript.Binary64

/-!
# The fewest decimal digits that read back

Every finite number other than zero has an interval of reals that round to it. `shortest` looks for
the coarsest decimal grid that has a point in that interval, and takes the point nearest to the
number. Seventeen digits always suffice. All comparisons are between natural numbers.
-/

namespace SessionScript

/-- A positive decimal number `digits * 10 ^ exponent`. -/
structure Decimal where
  /-- The digits, read as one natural number. -/
  digits : Nat
  /-- The power of ten that the last digit stands for. -/
  exponent : Int
  deriving DecidableEq

namespace Decimal

/-- How many decimal digits a natural number is written with. -/
def digitCount (n : Nat) : Nat := (Nat.toDigits 10 n).length

/-- The exponent `p` with `10 ^ p ≤ num / den < 10 ^ (p + 1)`. -/
def leadingExponent (num den : Nat) : Int :=
  if den ≤ num then (digitCount (num / den) : Int) - 1
  else
    let places := digitCount (den / num)
    if num * Nat.pow 10 (places - 1) = den then 1 - (places : Int) else -(places : Int)

/-- The reals that round to a number, over one common denominator. -/
structure Interval where
  /-- The number itself. -/
  value : Nat
  /-- The midpoint towards zero. -/
  low : Nat
  /-- The midpoint away from zero. -/
  high : Nat
  /-- The common denominator of the three. -/
  denominator : Nat
  /-- Whether the two midpoints themselves round to the number. -/
  closed : Bool

/-- The interval of a finite number. Below a power of two the neighbour is half as far away. -/
def Interval.of (x : Binary64) : Interval :=
  let m := x.significand
  let q := x.exponent - 2
  let up := Nat.pow 2 q.toNat
  let below := if m = Binary64.hiddenBit && -1074 < x.exponent then 1 else 2
  { value := 4 * m * up
    low := (4 * m - below) * up
    high := (4 * m + 2) * up
    denominator := Nat.pow 2 (-q).toNat
    closed := m % 2 = 0 }

/-- Does `point` lie in the interval, when the interval's ends are multiplied by `factor`? -/
def Interval.holds (i : Interval) (point factor : Nat) : Bool :=
  if i.closed then i.low * factor ≤ point && point ≤ i.high * factor
  else i.low * factor < point && point < i.high * factor

/-- The grid point with spacing `10 ^ k` that reads back, if there is one: of the two neighbours of
the number the nearer one, and the lower one when both are as near. -/
def Interval.onGrid (i : Interval) (k : Int) : Option Nat :=
  let factor := Nat.pow 10 (-k).toNat
  let spacing := i.denominator * Nat.pow 10 k.toNat
  let floor := i.value * factor / spacing
  let lowHit := i.holds (floor * spacing) factor && floor ≠ 0
  let highHit := i.holds ((floor + 1) * spacing) factor
  let twice := 2 * (i.value * factor % spacing)
  match lowHit, highHit with
  | true, true =>
    if twice < spacing then some floor
    else if spacing < twice then some (floor + 1)
    else some (floor + floor % 2)
  | true, false => some floor
  | false, true => some (floor + 1)
  | false, false => none

/-- The first grid of at most `fuel` further digits on which the interval has a point. -/
def Interval.search (i : Interval) (top : Int) : (fuel count : Nat) → Decimal
  | 0, _ => ⟨i.value / i.denominator, 0⟩
  | fuel + 1, count =>
    let k := top - count
    match i.onGrid k with
    | some digits => ⟨digits, k⟩
    | none => i.search top fuel (count + 1)

/-- Drop up to `fuel` zeros at the end, each raising the exponent by one. -/
def trim : (fuel : Nat) → Decimal → Decimal
  | 0, d => d
  | fuel + 1, d =>
    if d.digits ≠ 0 ∧ d.digits % 10 = 0 then trim fuel ⟨d.digits / 10, d.exponent + 1⟩ else d

/-- The shortest decimal that reads back as the absolute value of a finite number; of the shortest
ones the nearest. Zero is written with the digit zero. -/
def shortest (x : Binary64) : Decimal :=
  if x.isZero then ⟨0, 0⟩ else
  let i := Interval.of x
  trim 20 (i.search (leadingExponent i.value i.denominator) 17 0)

end Decimal

end SessionScript
