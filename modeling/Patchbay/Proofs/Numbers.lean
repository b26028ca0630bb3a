import Mathlib.Algebra.Group.Nat.Defs
import Patchbay.Number.Shortest

/-! The total order of numbers. Finite numbers are in the order of their values, in which zero with
a minus sign comes right before zero; the infinities lie around them, and NaNs come first or
last. -/

namespace Patchbay.Number

variable {x y : Number}

theorem magnitude_neg (x : Number) : x.neg.magnitude = x.magnitude := by
  have hsign : (0x8000000000000000 : UInt64).toNat = 2 ^ 63 := rfl
  rw [magnitude, magnitude, neg, UInt64.toNat_xor, hsign, show signBit = 2 ^ 63 from rfl,
    Nat.xor_mod_two_pow, Nat.mod_self, Nat.xor_zero]

theorem toNat_bits (x : Number) :
    x.bits.toNat = (if x.isNegative then signBit else 0) + x.magnitude := by
  have := x.bits.toNat_lt
  have sign : x.isNegative = true ↔ x.bits.toNat / signBit = 1 := decide_eq_true_iff
  simp only [magnitude, signBit] at sign ⊢
  by_cases h : x.isNegative = true
  · have := sign.1 h
    rw [if_pos h]
    omega
  · have := mt sign.2 h
    rw [if_neg h]
    omega

/-! ### Signs and magnitudes -/

/-- Different numbers have different places in the total order. -/
theorem rank_inj : x.rank = y.rank ↔ x = y := by
  refine ⟨fun h => ?_, fun h => by rw [h]⟩
  have hx := toNat_bits x
  have hy := toNat_bits y
  cases x; cases y
  congr 1
  apply UInt64.toNat_inj.1
  simp only [rank] at h
  grind

theorem rank_lt_of_signs (hx : x.isNegative = true) (hy : y.isNegative = false) :
    x.rank < y.rank := by
  simp only [rank, hx, hy, if_true, Bool.false_eq_true, if_false]
  omega

/-- Of numbers without a minus sign the one with the smaller magnitude comes first. -/
theorem rank_lt_iff_of_positive (hx : x.isNegative = false) (hy : y.isNegative = false) :
    x.rank < y.rank ↔ x.magnitude < y.magnitude := by
  simp only [rank, hx, hy, Bool.false_eq_true, if_false]
  omega

/-- Of numbers with a minus sign the one with the larger magnitude comes first. -/
theorem rank_lt_iff_of_negative (hx : x.isNegative = true) (hy : y.isNegative = true) :
    x.rank < y.rank ↔ y.magnitude < x.magnitude := by
  simp only [rank, hx, hy, if_true]
  omega

theorem rank_of_zero (h : x.magnitude = 0) : x.rank = if x.isNegative then -1 else 0 := by
  rw [rank, h]
  rfl

/-- There is no place between the two zeros. -/
theorem rank_neg_zero : zero.neg.rank + 1 = zero.rank := by decide

/-! ### Numbers that are not finite -/

/-- NaNs come first if they have a minus sign, and last otherwise. -/
theorem rank_lt_of_isNaN (hx : x.isNaN = true) (hnegative : x.isNegative = true)
    (hy : y.isNaN = false) : x.rank < y.rank := by
  simp only [isNaN, decide_eq_true_eq, decide_eq_false_iff_not] at hx hy
  cases hsign : y.isNegative with
  | false => exact rank_lt_of_signs hnegative hsign
  | true => exact (rank_lt_iff_of_negative hnegative hsign).2 (by omega)

theorem lt_rank_of_isNaN (hx : x.isNaN = true) (hpositive : x.isNegative = false)
    (hy : y.isNaN = false) : y.rank < x.rank := by
  simp only [isNaN, decide_eq_true_eq, decide_eq_false_iff_not] at hx hy
  cases hsign : y.isNegative with
  | false => exact (rank_lt_iff_of_positive hsign hpositive).2 (by omega)
  | true => exact rank_lt_of_signs hsign hpositive

/-- Finite numbers lie between the infinities. -/
theorem rank_lt_infinity (h : x.isFinite = true) :
    infinity.neg.rank < x.rank ∧ x.rank < infinity.rank := by
  have hpositive : infinity.isNegative = false := by decide
  have hnegative : infinity.neg.isNegative = true := by decide
  have hless : x.magnitude < infinity.magnitude := decide_eq_true_iff.1 h
  cases hsign : x.isNegative with
  | false =>
    exact ⟨rank_lt_of_signs hnegative hsign, (rank_lt_iff_of_positive hsign hpositive).2 hless⟩
  | true =>
    refine ⟨(rank_lt_iff_of_negative hnegative hsign).2 ?_, rank_lt_of_signs hsign hpositive⟩
    rwa [magnitude_neg]

/-! ### Values -/

/-- The absolute value of a finite number as a multiple of the least one above zero, two to the
-1074th. -/
def units (x : Number) : Nat := x.significand * 2 ^ (x.scale + 1074).toNat

/-- The value of a finite number as a multiple of the least one above zero. -/
def value (x : Number) : Int := if x.isNegative then -(x.units : Int) else x.units

theorem units_of_lt (h : x.magnitude < leadingBit) : x.units = x.magnitude := by
  simp [units, significand, scale, h]

theorem units_of_le (h : leadingBit ≤ x.magnitude) :
    x.units = (x.magnitude % leadingBit + leadingBit) * 2 ^ (x.magnitude / leadingBit - 1) := by
  have hexponent : ((x.magnitude / leadingBit : Nat) - 1075 + 1074 : Int).toNat =
      x.magnitude / leadingBit - 1 := by omega
  rw [units, significand, scale, if_neg (Nat.not_lt.2 h), if_neg (Nat.not_lt.2 h), hexponent]

theorem units_lt (x : Number) : x.units < leadingBit * 2 ^ (x.magnitude / leadingBit) := by
  have hleading : 0 < leadingBit := by decide
  by_cases h : x.magnitude < leadingBit
  · rw [units_of_lt h, Nat.div_eq_of_lt h, Nat.pow_zero, Nat.mul_one]
    exact h
  · have hle := Nat.not_lt.1 h
    obtain ⟨e, he⟩ := Nat.exists_eq_add_of_le' (Nat.div_pos hle hleading)
    have hfraction := Nat.mod_lt x.magnitude hleading
    rw [units_of_le hle, he, Nat.add_sub_cancel, Nat.pow_succ, Nat.mul_comm (2 ^ e),
      ← Nat.mul_assoc]
    exact Nat.mul_lt_mul_of_pos_right (by omega) (Nat.two_pow_pos e)

theorem units_lt_of_magnitude_lt (h : x.magnitude < y.magnitude) : x.units < y.units := by
  have hleading : 0 < leadingBit := by decide
  have hdiv := Nat.div_le_div_right (c := leadingBit) (Nat.le_of_lt h)
  by_cases hy : y.magnitude < leadingBit
  · rwa [units_of_lt hy, units_of_lt (Nat.lt_trans h hy)]
  have hy := Nat.not_lt.1 hy
  rw [units_of_le hy]
  rcases Nat.lt_or_eq_of_le hdiv with hexponent | hexponent
  · -- a number of a smaller exponent is below the least one of the larger exponent
    have hpow : 2 ^ (x.magnitude / leadingBit) ≤ 2 ^ (y.magnitude / leadingBit - 1) :=
      Nat.pow_le_pow_right (by decide) (by omega)
    calc x.units
      _ < leadingBit * 2 ^ (x.magnitude / leadingBit) := units_lt x
      _ ≤ leadingBit * 2 ^ (y.magnitude / leadingBit - 1) := Nat.mul_le_mul_left _ hpow
      _ ≤ _ := Nat.mul_le_mul_right _ (Nat.le_add_left _ _)
  · have hx : leadingBit ≤ x.magnitude := by
      have := Nat.div_pos hy hleading
      exact (Nat.div_pos_iff.1 (hexponent ▸ this)).2
    have hfraction : x.magnitude % leadingBit < y.magnitude % leadingBit := by
      have hxmod := Nat.div_add_mod x.magnitude leadingBit
      have hymod := Nat.div_add_mod y.magnitude leadingBit
      rw [hexponent] at hxmod
      omega
    rw [units_of_le hx, hexponent]
    exact Nat.mul_lt_mul_of_pos_right (Nat.add_lt_add_right hfraction _) (Nat.two_pow_pos _)

theorem units_lt_iff : x.units < y.units ↔ x.magnitude < y.magnitude := by
  refine ⟨fun h => ?_, units_lt_of_magnitude_lt⟩
  rcases Nat.lt_trichotomy x.magnitude y.magnitude with hlt | heq | hgt
  · exact hlt
  · have hsame : x.units = y.units := by simp only [units, significand, scale, heq]
    omega
  · have := units_lt_of_magnitude_lt hgt
    omega

theorem magnitude_eq_of_units_eq (h : x.units = y.units) : x.magnitude = y.magnitude := by
  have hless := @units_lt_iff x y
  have hmore := @units_lt_iff y x
  omega

theorem rank_lt_of_value_lt (h : x.value < y.value) : x.rank < y.rank := by
  unfold value at h
  cases hx : x.isNegative <;> cases hy : y.isNegative <;>
    simp only [hx, hy, if_true, Bool.false_eq_true, if_false] at h
  · exact (rank_lt_iff_of_positive hx hy).2 (units_lt_iff.1 (by omega))
  · omega
  · exact rank_lt_of_signs hx hy
  · exact (rank_lt_iff_of_negative hx hy).2 (units_lt_iff.1 (by omega))

/-- Different numbers of one value are zeros. -/
theorem eq_or_zeros_of_value_eq (h : x.value = y.value) :
    x = y ∨ x.magnitude = 0 ∧ y.magnitude = 0 := by
  unfold value at h
  by_cases hsign : x.isNegative = y.isNegative
  · have hunits : x.units = y.units := by
      rw [hsign] at h
      split at h <;> omega
    exact .inl (rank_inj.1 (by rw [rank, rank, hsign, magnitude_eq_of_units_eq hunits]))
  · have hzero : x.units = zero.units ∧ y.units = zero.units := by
      rw [show zero.units = 0 by decide]
      grind
    exact .inr ⟨magnitude_eq_of_units_eq hzero.1, magnitude_eq_of_units_eq hzero.2⟩

/-- Numbers are in the order of their values, and zero with a minus sign comes before zero. -/
theorem rank_lt_iff : x.rank < y.rank ↔ x.value < y.value ∨ x = zero.neg ∧ y = zero := by
  constructor
  · intro h
    rcases Int.lt_trichotomy x.value y.value with hlt | heq | hgt
    · exact .inl hlt
    · rcases eq_or_zeros_of_value_eq heq with rfl | ⟨hx, hy⟩
      · omega
      · have hx := rank_of_zero hx
        have hy := rank_of_zero hy
        have hplaces : x.rank = zero.neg.rank ∧ y.rank = zero.rank := by
          rw [show zero.neg.rank = -1 by decide, show zero.rank = 0 by decide]
          split at hx <;> split at hy <;> omega
        exact .inr ⟨rank_inj.1 hplaces.1, rank_inj.1 hplaces.2⟩
    · have := rank_lt_of_value_lt hgt
      omega
  · rintro (hlt | ⟨rfl, rfl⟩)
    · exact rank_lt_of_value_lt hlt
    · have := rank_neg_zero
      omega

end Patchbay.Number
