import Patchbay.Number.Basic

/-! The shortest decimal that reads back as a given number, found on the decimal grids of one digit,
two digits and so on by exact arithmetic. -/

namespace Patchbay

/-- The decimal `digits * 10 ^ exponent`. -/
structure Decimal where
  digits : Nat
  exponent : Int
deriving DecidableEq

/-- Where to go from the middle between two grid points. -/
inductive Tie where
  | toEven
  | up
deriving DecidableEq

namespace Number

/-- The least significand of full length, two to the 52nd. -/
def leadingBit : Nat := 0x10000000000000

/-- The significand `m` of a finite number whose absolute value is `m * 2 ^ scale`. -/
def significand (x : Number) : Nat :=
  if x.magnitude < leadingBit then x.magnitude else x.magnitude % leadingBit + leadingBit

/-- The binary exponent that goes with the significand. -/
def scale (x : Number) : Int :=
  if x.magnitude < leadingBit then -1074 else (x.magnitude / leadingBit : Nat) - 1075

/-- The reals that round to a number, and the number itself, over a common denominator. The ends
belong to the interval when `closed`. -/
structure Interval where
  low : Nat
  middle : Nat
  high : Nat
  denominator : Nat
  closed : Bool

/-- The interval of a finite number's absolute value. Below a power of two the gap is half as
wide. -/
def interval (x : Number) : Interval :=
  let m := 4 * x.significand
  let below := if x.significand = leadingBit ∧ x.scale > -1074 then 1 else 2
  let factor := Nat.pow 2 (x.scale - 2).toNat
  { low := (m - below) * factor
    middle := m * factor
    high := (m + 2) * factor
    denominator := Nat.pow 2 (2 - x.scale).toNat
    closed := x.significand % 2 = 0 }

namespace Interval

/-- Whether the point `p` on the grid of step `g`, both over the denominator, is inside. -/
def holds (i : Interval) (p : Nat) : Bool :=
  if i.closed then i.low ≤ p && p ≤ i.high else i.low < p && p < i.high

/-- All quantities multiplied by `n`. -/
def times (i : Interval) (n : Nat) : Interval :=
  { i with low := i.low * n, middle := i.middle * n, high := i.high * n }

/-- The point of the grid `10 ^ place` inside the interval that is nearest to the middle. -/
def onGrid? (i : Interval) (tie : Tie) (place : Int) : Option Nat :=
  let j := i.times (Nat.pow 10 (-place).toNat)
  let step := Nat.pow 10 place.toNat * j.denominator
  let d := j.middle / step
  match j.holds (d * step), j.holds ((d + 1) * step) with
  | false, false => none
  | true, false => some d
  | false, true => some (d + 1)
  | true, true =>
    let toLower := j.middle - d * step
    let toUpper := (d + 1) * step - j.middle
    if toLower < toUpper then some d
    else if toUpper < toLower then some (d + 1)
    else match tie with
      | .up => some (d + 1)
      | .toEven => some (if d % 2 = 0 then d else d + 1)

/-- The number of digits before the decimal point; zero or less when leading zeros follow it. The
first argument bounds the search among the latter. -/
def leading (i : Interval) : Nat → Int
  | 0 => 0
  | fuel + 1 =>
    if i.middle ≥ i.denominator then ((Nat.toDigits 10 (i.middle / i.denominator)).length : Nat)
    else (i.times 10).leading fuel - 1

/-- The first grid with a point inside, tried from `count` digits on. -/
def search (i : Interval) (tie : Tie) (lead : Int) (count : Nat) : Nat → Decimal
  | 0 => ⟨i.middle / i.denominator, 0⟩
  | fuel + 1 =>
    match i.onGrid? tie (lead - count) with
    | some d => ⟨d, lead - count⟩
    | none => i.search tie lead (count + 1) fuel

end Interval

/-- The same decimal without trailing zeros among its digits; the last argument bounds their
number. -/
def trimZeros (d : Decimal) : Nat → Decimal
  | 0 => d
  | fuel + 1 =>
    if d.digits ≠ 0 ∧ d.digits % 10 = 0 then trimZeros ⟨d.digits / 10, d.exponent + 1⟩ fuel else d

/-- The decimal with the fewest digits that rounds to the absolute value of a finite number, and of
those the nearest. Seventeen digits always suffice. -/
def shortest (tie : Tie) (x : Number) : Decimal :=
  if x.magnitude = 0 then ⟨0, 0⟩
  else
    let i := x.interval
    trimZeros (i.search tie (i.leading 400) 1 17) 20

end Number

end Patchbay
