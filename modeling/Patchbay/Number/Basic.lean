/-! Numbers: the 64-bit binary floating-point values, told apart by their bits, with the comparison
of arithmetic and the total order of all bit patterns. -/

namespace Patchbay

/-- A binary64 value. Zeros of both signs and all NaNs are different numbers. -/
structure Number where
  bits : UInt64
deriving DecidableEq

namespace Number

def ofFloat (x : Float) : Number := ⟨x.toBits⟩

def zero : Number := ⟨0⟩

def infinity : Number := ⟨0x7ff0000000000000⟩

def nan : Number := ⟨0x7ff8000000000000⟩

instance : Inhabited Number := ⟨zero⟩

/-- The highest of the bits, two to the 63rd. -/
def signBit : Nat := 0x8000000000000000

/-- Whether the sign bit is set. -/
def isNegative (x : Number) : Bool := x.bits.toNat / signBit = 1

/-- The bits below the sign, which grow with the absolute value. -/
def magnitude (x : Number) : Nat := x.bits.toNat % signBit

/-- The same number with the sign bit flipped. -/
def neg (x : Number) : Number := ⟨x.bits ^^^ 0x8000000000000000⟩

/-- The quotient of `n` by two to the `k`, to the nearest integer and from the middle to the even
one. -/
def roundShift (n k : Nat) : Nat :=
  let quotient := n >>> k
  let twice := 2 * (n % (1 <<< k))
  if 1 <<< k < twice ∨ twice = 1 <<< k ∧ quotient % 2 = 1 then quotient + 1 else quotient

/-- The significand of a natural number: its highest bit is moved to place 52. -/
def significandOf (n : Nat) : Nat :=
  if n.log2 ≤ 52 then n <<< (52 - n.log2) else roundShift n (n.log2 - 52)

/-- The nearest number to a natural number; of two, the one with an even significand. The highest
bit of the significand counts for the exponent, as does a carry beyond it. -/
def ofNat (n : Nat) : Number :=
  if n = 0 then zero
  else ⟨.ofNat (min (((n.log2 + 1022) <<< 52) + significandOf n) infinity.bits.toNat)⟩

/-- The nearest number to an integer. -/
def ofInt (n : Int) : Number := if n < 0 then (ofNat n.natAbs).neg else ofNat n.natAbs

def isNaN (x : Number) : Bool := infinity.magnitude < x.magnitude

def isInfinite (x : Number) : Bool := x.magnitude = infinity.magnitude

def isFinite (x : Number) : Bool := x.magnitude < infinity.magnitude

/-- Equality of arithmetic: zeros are equal, and a NaN equals nothing. -/
def agrees (x y : Number) : Bool :=
  !x.isNaN && (x = y || (x.magnitude = 0 && y.magnitude = 0))

/-- The place of a number in the total order of bit patterns: negative NaNs come first, then
negative infinity, the negative numbers, the two zeros, the positive numbers, positive infinity
and the positive NaNs. -/
def rank (x : Number) : Int :=
  if x.isNegative then -(x.magnitude : Int) - 1 else x.magnitude

end Number

end Patchbay
