import Patchbay.Number.Text

/-! The numbers of JSON documents: integers of 64 bits stay exact, all else becomes a number. -/

namespace Patchbay.Json

/-- A number as a document holds it. -/
inductive Numeral where
  | whole (value : Int)
  | real (value : Number)
deriving DecidableEq

/-- A number as a document spells it, with its digits as numbers below ten. -/
structure Spelling where
  negative : Bool
  whole : List Nat
  fraction : Option (List Nat) := none
  exponent : Option (Bool × List Nat) := none

namespace Numeral

/-- The number that a numeral stands for. -/
def toNumber : Numeral → Number
  | whole value => .ofInt value
  | real value => value

/-- Whether a numeral is an unsigned integer of 32 bits, and which. -/
def toUInt32? : Numeral → Option UInt32
  | whole value => if 0 ≤ value ∧ value < 0x100000000 then some (UInt32.ofNat value.toNat) else none
  | real _ => none

/-- The canonical spelling; numbers that are not finite have none and are never in documents. -/
def text : Numeral → String
  | whole value => toString value
  | real value => value.finiteText .document

end Numeral

namespace Spelling

/-- Puts digits behind `n` as long as the result has 64 bits, and gives the digits left over. -/
def gather (n : Nat) : List Nat → Nat × List Nat
  | [] => (n, [])
  | d :: rest =>
    if 10 * n + d < 0x10000000000000000 then gather (10 * n + d) rest else (n, d :: rest)

/-- The nearest number to a power of ten. -/
def power (n : Nat) : Float := OfScientific.ofScientific 1 false n

/-- A value scaled by a power of ten in one rounded step, or several for the smallest values. It may
grow beyond all numbers, and is refused where the power does. -/
def scaled (x : Float) (exponent : Int) : Option Float :=
  if 308 < exponent then if x == 0 then some x else none
  else if 0 ≤ exponent then some (x * power exponent.toNat)
  else if -308 ≤ exponent then some (x / power (-exponent).toNat)
  else if x == 0 then some x
  else scaled (x / power 308) (exponent + 308)
termination_by (-exponent).toNat
decreasing_by omega

def natural (digits : List Nat) : Nat := digits.foldl (fun n d => 10 * n + d) 0

/-- The numeral of a spelling, unless it is out of range. Digits that do not fit into 64 bits count
as zeros before the point and are dropped behind it. Minus zero is no integer. -/
def numeral? (s : Spelling) : Option Numeral :=
  let (significand, dropped) := gather 0 s.whole
  if dropped = [] ∧ s.fraction = none ∧ s.exponent = none then
    if !s.negative then some (.whole significand)
    else if significand = 0 ∨ Number.signBit < significand then
      some (.real (Number.ofInt significand).neg)
    else some (.whole (-significand))
  else
    let (significand, unused) := gather significand (s.fraction.getD [])
    let places : Int := (s.fraction.getD []).length - unused.length
    let shift : Int := match s.exponent with
      | none => 0
      | some (negative, digits) => if negative then -(natural digits : Int) else natural digits
    let x? :=
      (scaled (Float.ofNat significand) (dropped.length - places + shift)).map Number.ofFloat
    (x?.filter Number.isFinite).map fun x => .real (if s.negative then x.neg else x)

end Spelling

end Patchbay.Json
