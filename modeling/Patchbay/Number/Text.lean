import Patchbay.Number.Shortest

/-! Numbers as text: positional or with an exponent, as a style decides. -/

namespace Patchbay

/-- The choices of a number format. The exponent is that of the leading digit. -/
structure NumberStyle where
  positional : Int → Bool
  wholeFraction : Bool
  tie : Tie

namespace NumberStyle

/-- Documents write numbers positionally from 0.00001 up to 16 digits before the point, always with
a fraction, and otherwise with a signed exponent. -/
def document : NumberStyle := ⟨fun e => -5 ≤ e && e < 16, true, .toEven⟩

/-- Messages write numbers positionally, and whole numbers without a fraction. -/
def plain : NumberStyle := ⟨fun _ => true, false, .up⟩

end NumberStyle

namespace Number

/-- The digits of a decimal around its point. -/
def positionalText (wholeFraction : Bool) (d : Decimal) : List Char :=
  let digits := Nat.toDigits 10 d.digits
  if 0 ≤ d.exponent then
    digits ++ List.replicate d.exponent.toNat '0' ++ if wholeFraction then ['.', '0'] else []
  else
    let places := (-d.exponent).toNat
    let padded := List.replicate (places + 1 - digits.length) '0' ++ digits
    padded.take (padded.length - places) ++ '.' :: padded.drop (padded.length - places)

/-- One digit, a point before any further digits, and the exponent with its sign. -/
def exponentText (exponent : Int) (d : Decimal) : List Char :=
  let mantissa := match Nat.toDigits 10 d.digits with
    | first :: second :: rest => first :: '.' :: second :: rest
    | short => short
  mantissa ++ 'e' :: (if exponent < 0 then '-' else '+') :: Nat.toDigits 10 exponent.natAbs

/-- A finite number in a style. -/
def finiteText (style : NumberStyle) (x : Number) : String :=
  let d := x.shortest style.tie
  let exponent := d.exponent + (Nat.toDigits 10 d.digits).length - 1
  let body := if d.digits = 0 ∨ style.positional exponent then
      positionalText style.wholeFraction d
    else exponentText exponent d
  String.ofList (if x.isNegative then '-' :: body else body)

/-- A number as messages show it. -/
def display (x : Number) : String :=
  if x.isNaN then "NaN"
  else if x.isInfinite then if x.isNegative then "-inf" else "inf"
  else x.finiteText .plain

end Number

end Patchbay
