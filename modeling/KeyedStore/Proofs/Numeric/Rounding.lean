import KeyedStore.Numeric.Binary64
import Mathlib.Algebra.Order.Field.Power
import Mathlib.Algebra.Order.Field.Rat
import Mathlib.Tactic.Positivity
import Mathlib.Tactic.Ring

/-!
# Rounding

A quotient is rounded by its value alone, not by the numerator and denominator that it is given by,
and a value of the format is rounded to itself.
-/
namespace KeyedStore

theorem roundQuotient_mul (num den : Nat) {m : Nat} (hm : 0 < m) :
    roundQuotient (num * m) (den * m) = roundQuotient num den := by
  have hlt (a b : Nat) : 2 * (a * m) < b * m ↔ 2 * a < b := by
    rw [← Nat.mul_assoc, Nat.mul_lt_mul_right hm]
  have hgt (a b : Nat) : b * m < 2 * (a * m) ↔ b < 2 * a := by
    rw [← Nat.mul_assoc, Nat.mul_lt_mul_right hm]
  unfold roundQuotient
  simp only [Nat.mul_div_mul_right _ _ hm, Nat.mul_mod_mul_right, hlt, hgt]

/-- A whole quotient is rounded to itself. -/
theorem roundQuotient_mul_self (n : Nat) {den : Nat} (hden : 0 < den) :
    roundQuotient (n * den) den = n := by
  simp [roundQuotient, Nat.mul_div_cancel _ hden, hden]

/-- A power of two with an integer exponent is a quotient of powers of two. -/
theorem two_zpow_eq (g : Int) : (2 : ℚ) ^ g = 2 ^ g.toNat / 2 ^ (-g).toNat := by
  rcases Int.le_total 0 g with h | h
  · have hneg : (-g).toNat = 0 := by omega
    rw [hneg, pow_zero, div_one, ← zpow_natCast, Int.toNat_of_nonneg h]
  · have hpos : g.toNat = 0 := by omega
    rw [hpos, pow_zero, one_div, ← zpow_natCast, Int.toNat_of_nonneg (by omega), zpow_neg, inv_inv]

section Logarithm

variable {num den : Nat} {g : Int}

/-- The comparison of a quotient with a power of two, in natural numbers. -/
theorem two_zpow_le_iff (hden : 0 < den) :
    (2 : ℚ) ^ g ≤ num / den ↔ den * 2 ^ g.toNat ≤ num * 2 ^ (-g).toNat := by
  have hd : (0 : ℚ) < den := by exact_mod_cast hden
  rw [two_zpow_eq, div_le_div_iff₀ (by positivity) hd]
  rw [mul_comm]
  exact_mod_cast Iff.rfl

theorem two_pow_log2_le (hnum : 0 < num) : (2 : ℚ) ^ (num.log2 : Int) ≤ num := by
  rw [zpow_natCast]
  exact_mod_cast Nat.log2_self_le hnum.ne'

theorem lt_two_pow_log2 (num : Nat) : (num : ℚ) < 2 ^ ((num.log2 : Int) + 1) := by
  rw [← Nat.cast_succ, zpow_natCast]
  exact_mod_cast Nat.lt_log2_self

/-- A quotient lies between two powers of two next to each other. -/
theorem floorLog2_spec (hnum : 0 < num) (hden : 0 < den) :
    (2 : ℚ) ^ floorLog2 num den ≤ num / den ∧ (num : ℚ) / den < 2 ^ (floorLog2 num den + 1) := by
  have hd : (0 : ℚ) < den := by exact_mod_cast hden
  have hlow : (2 : ℚ) ^ ((num.log2 : Int) - den.log2 - 1) ≤ num / den := by
    rw [le_div_iff₀ hd]
    calc (2 : ℚ) ^ ((num.log2 : Int) - den.log2 - 1) * den
        ≤ 2 ^ ((num.log2 : Int) - den.log2 - 1) * 2 ^ ((den.log2 : Int) + 1) :=
          mul_le_mul_of_nonneg_left (lt_two_pow_log2 den).le (by positivity)
      _ = 2 ^ (num.log2 : Int) := by
          rw [← zpow_add₀ (by norm_num)]
          congr 1
          omega
      _ ≤ num := two_pow_log2_le hnum
  have hhigh : (num : ℚ) / den < 2 ^ ((num.log2 : Int) - den.log2 + 1) := by
    rw [div_lt_iff₀ hd]
    calc (num : ℚ) < 2 ^ ((num.log2 : Int) + 1) := lt_two_pow_log2 num
      _ = 2 ^ ((num.log2 : Int) - den.log2 + 1) * 2 ^ (den.log2 : Int) := by
          rw [← zpow_add₀ (by norm_num)]
          congr 1
          omega
      _ ≤ 2 ^ ((num.log2 : Int) - den.log2 + 1) * den :=
          mul_le_mul_of_nonneg_left (two_pow_log2_le hden) (by positivity)
  unfold floorLog2
  simp only [Nat.pow_eq]
  split
  case isTrue h => exact ⟨(two_zpow_le_iff hden).2 h, hhigh⟩
  case isFalse h =>
    have hless := lt_of_not_ge fun hle => h ((two_zpow_le_iff hden).1 hle)
    exact ⟨hlow, by rwa [sub_add_cancel]⟩

/-- Only one power of two is next below a quotient. -/
theorem floorLog2_eq (hnum : 0 < num) (hden : 0 < den) (hlow : (2 : ℚ) ^ g ≤ num / den)
    (hhigh : (num : ℚ) / den < 2 ^ (g + 1)) : floorLog2 num den = g := by
  obtain ⟨hlow', hhigh'⟩ := floorLog2_spec hnum hden
  have hle := (zpow_lt_zpow_iff_right₀ (by norm_num)).1 (hlow.trans_lt hhigh')
  have hge := (zpow_lt_zpow_iff_right₀ (by norm_num)).1 (hlow'.trans_lt hhigh)
  omega

end Logarithm

namespace Binary64

/-- The common factor of a quotient does not matter. -/
theorem ofRatio_mul (negative : Bool) (num : Nat) {den m : Nat} (hden : 0 < den) (hm : 0 < m) :
    ofRatio negative (num * m) (den * m) = ofRatio negative num den := by
  rcases Nat.eq_zero_or_pos num with rfl | hnum
  · simp [ofRatio]
  · have hfactor : ((num * m : Nat) : ℚ) / (den * m : Nat) = num / den := by
      have hmne : (m : ℚ) ≠ 0 := by exact_mod_cast hm.ne'
      push_cast
      exact mul_div_mul_right _ _ hmne
    obtain ⟨hlow, hhigh⟩ := floorLog2_spec hnum hden
    have hlog : floorLog2 (num * m) (den * m) = floorLog2 num den :=
      floorLog2_eq (Nat.mul_pos hnum hm) (Nat.mul_pos hden hm) (hfactor ▸ hlow) (hfactor ▸ hhigh)
    have hne : num * m ≠ 0 := (Nat.mul_pos hnum hm).ne'
    unfold ofRatio
    rw [if_neg hne, if_neg hnum.ne', hlog]
    simp only [Nat.mul_right_comm _ m, roundQuotient_mul _ _ hm]

/-- Equal quotients are rounded alike. -/
theorem ofRatio_congr (negative : Bool) {num den num' den' : Nat} (hden : 0 < den)
    (hden' : 0 < den') (h : num * den' = num' * den) :
    ofRatio negative num den = ofRatio negative num' den' := by
  rw [← ofRatio_mul negative num hden hden', h, Nat.mul_comm den, ofRatio_mul _ _ hden' hden]

variable {x : Binary64}

theorem denominator_pos (x : Binary64) : 0 < x.denominator := Nat.pow_pos (by decide)

/-- A finite value is its significand in units. -/
theorem ratio_eq (x : Binary64) :
    (x.numerator : ℚ) / x.denominator = x.significand * 2 ^ x.unitExponent := by
  unfold numerator denominator
  rw [two_zpow_eq]
  push_cast [Nat.pow_eq]
  exact mul_div_assoc _ _ _

theorem magnitude_eq (x : Binary64) :
    (max (x.magnitude / 2 ^ 52) 1 - 1) * 2 ^ 52 + x.significand = x.magnitude := by
  unfold significand
  simp only [Nat.pow_eq]
  split <;> omega

theorem significand_lt (x : Binary64) : x.significand < 2 ^ 53 := by
  unfold significand
  simp only [Nat.pow_eq]
  split <;> omega

/-- The leading bit of a significand is missing only below the least exponent. -/
theorem floorLog2_ratio (h : 0 < x.significand) :
    max (floorLog2 x.numerator x.denominator + 1023) 1 = x.unitExponent + 1075 := by
  have hnum : 0 < x.numerator := Nat.mul_pos h (Nat.pow_pos (by decide))
  have hunit : (0 : ℚ) < 2 ^ x.unitExponent := by positivity
  have hhigh : (x.numerator : ℚ) / x.denominator < 2 ^ (52 + x.unitExponent + 1) := by
    rw [ratio_eq, show (52 : Int) + x.unitExponent + 1 = 53 + x.unitExponent by ring,
      zpow_add₀ (by norm_num)]
    refine mul_lt_mul_of_pos_right ?_ hunit
    exact_mod_cast x.significand_lt
  obtain ⟨hlow', hhigh'⟩ := floorLog2_spec hnum x.denominator_pos
  rcases Nat.eq_zero_or_pos (x.magnitude / 2 ^ 52) with hzero | hpos
  · -- A value without the leading bit is less than the least one with it.
    have hleast : x.unitExponent = -1074 := by
      simp only [unitExponent, Nat.pow_eq]
      omega
    have hsmall : x.significand < 2 ^ 52 := by
      simp only [significand, Nat.pow_eq, hzero, if_true]
      omega
    have hless : (x.numerator : ℚ) / x.denominator < 2 ^ (52 + x.unitExponent) := by
      rw [ratio_eq, zpow_add₀ (by norm_num)]
      refine mul_lt_mul_of_pos_right ?_ hunit
      exact_mod_cast hsmall
    have hle := (zpow_lt_zpow_iff_right₀ (by norm_num)).1 (hlow'.trans_lt hless)
    omega
  · have hunitExponent : x.unitExponent = (x.magnitude / 2 ^ 52 : Nat) - 1075 := by
      simp only [unitExponent, Nat.pow_eq]
      omega
    have hleading : 2 ^ 52 ≤ x.significand := by
      simp only [significand, Nat.pow_eq]
      split <;> omega
    have hlow : (2 : ℚ) ^ (52 + x.unitExponent) ≤ x.numerator / x.denominator := by
      rw [ratio_eq, zpow_add₀ (by norm_num)]
      refine mul_le_mul_of_nonneg_right ?_ hunit.le
      exact_mod_cast hleading
    rw [floorLog2_eq hnum x.denominator_pos hlow hhigh]
    omega

/-- A finite value is rounded to itself. -/
theorem ofRatio_self (h : x.isFinite) : ofRatio x.negative x.numerator x.denominator = x := by
  have hmagnitude := x.magnitude_eq
  have hfinite : x.magnitude < infinityMagnitude := by simpa [isFinite] using h
  rcases Nat.eq_zero_or_pos x.significand with hzero | hpos
  · have hnum : x.numerator = 0 := by rw [numerator, hzero, Nat.zero_mul]
    have hnone : x.magnitude = 0 := by
      have hsignificand := hzero
      simp only [significand, Nat.pow_eq] at hsignificand
      split at hsignificand <;> omega
    obtain ⟨negative, magnitude, hlt⟩ := x
    subst hnone
    simp [ofRatio, hnum, zero]
  · have hne : x.numerator ≠ 0 := (Nat.mul_pos hpos (Nat.pow_pos (by decide))).ne'
    have hscaled : roundQuotient (x.numerator * Nat.pow 2 (-x.unitExponent).toNat)
        (x.denominator * Nat.pow 2 x.unitExponent.toNat) = x.significand := by
      rw [numerator, denominator, Nat.mul_assoc, Nat.mul_comm (Nat.pow 2 (-x.unitExponent).toNat)]
      exact roundQuotient_mul_self _
        (Nat.mul_pos (Nat.pow_pos (by decide)) (Nat.pow_pos (by decide)))
    have hexponent : (x.unitExponent + 1075 - 1).toNat = max (x.magnitude / 2 ^ 52) 1 - 1 := by
      simp only [unitExponent, Nat.pow_eq]
      omega
    unfold ofRatio
    rw [if_neg hne, floorLog2_ratio hpos]
    simp only [Int.add_sub_cancel, hscaled, hexponent]
    obtain ⟨negative, magnitude, hlt⟩ := x
    simp only [ofMagnitude, mk.injEq, true_and]
    rw [Nat.pow_eq, hmagnitude]
    exact Nat.min_eq_left hfinite.le

/-- A positive integer of at most fifty-three bits is not rounded: its leading bit gives the
exponent, and the others are the fraction. -/
theorem magnitude_ofRatio_one (negative : Bool) {m : Nat} (hpos : 0 < m) (hm : m < 2 ^ 53) :
    2 ^ 52 ≤ m * 2 ^ (52 - m.log2) ∧ m * 2 ^ (52 - m.log2) < 2 ^ 53 ∧
      (ofRatio negative m 1).magnitude = (m.log2 + 1022) * 2 ^ 52 + m * 2 ^ (52 - m.log2) := by
  have hlow : 2 ^ m.log2 ≤ m := Nat.log2_self_le hpos.ne'
  have hhigh : m < 2 ^ (m.log2 + 1) := Nat.lt_log2_self
  have hlog : m.log2 ≤ 52 := by
    have hlt : m.log2 < 53 := (Nat.pow_lt_pow_iff_right (by decide)).1 (hlow.trans_lt hm)
    omega
  have hscaledLow : 2 ^ 52 ≤ m * 2 ^ (52 - m.log2) :=
    calc 2 ^ 52 = 2 ^ m.log2 * 2 ^ (52 - m.log2) := by rw [← Nat.pow_add, Nat.add_sub_cancel' hlog]
      _ ≤ m * 2 ^ (52 - m.log2) := Nat.mul_le_mul_right _ hlow
  have hscaledHigh : m * 2 ^ (52 - m.log2) < 2 ^ 53 :=
    calc m * 2 ^ (52 - m.log2) < 2 ^ (m.log2 + 1) * 2 ^ (52 - m.log2) :=
          Nat.mul_lt_mul_of_pos_right hhigh (Nat.pow_pos (by decide))
      _ = 2 ^ 53 := by
          rw [← Nat.pow_add]
          congr 1
          omega
  refine ⟨hscaledLow, hscaledHigh, ?_⟩
  have hfloor : floorLog2 m 1 = m.log2 := by
    refine floorLog2_eq hpos (by decide) ?_ ?_
    · simpa using two_pow_log2_le hpos
    · simpa using lt_two_pow_log2 m
  have hexponent : max ((m.log2 : Int) + 1023) 1 = (m.log2 : Int) + 1023 := by omega
  have hunit : ((m.log2 : Int) + 1023 - 1075).toNat = 0 := by omega
  have hunitNeg : (-((m.log2 : Int) + 1023 - 1075)).toNat = 52 - m.log2 := by omega
  have hbase : ((m.log2 : Int) + 1023 - 1).toNat = m.log2 + 1022 := by omega
  have hwhole : roundQuotient (m * 2 ^ (52 - m.log2)) (1 * 2 ^ 0) = m * 2 ^ (52 - m.log2) := by
    simpa using roundQuotient_mul_self (m * 2 ^ (52 - m.log2)) Nat.one_pos
  have hfinite : (m.log2 + 1022) * 2 ^ 52 + m * 2 ^ (52 - m.log2) ≤ infinityMagnitude := by
    unfold infinityMagnitude
    rw [Nat.pow_eq]
    omega
  unfold ofRatio
  simp only [if_neg hpos.ne', hfloor, hexponent, hunit, hunitNeg, hbase, Nat.pow_eq, hwhole,
    ofMagnitude]
  exact Nat.min_eq_left hfinite

/-- Integers of at most fifty-three bits are told apart as floating point values. -/
theorem ofInt_inj {n m : Int} (hn : n.natAbs < 2 ^ 53) (hm : m.natAbs < 2 ^ 53)
    (h : ofInt n = ofInt m) : n = m := by
  have hsign (k : Int) : (ofInt k).negative = decide (k < 0) := by
    unfold ofInt ofRatio
    split <;> rfl
  have hnegative : decide (n < 0) = decide (m < 0) := by rw [← hsign n, ← hsign m, h]
  have hzero (k : Int) (hk : k.natAbs = 0) : (ofInt k).magnitude = 0 := by
    simp [ofInt, ofRatio, hk, zero]
  have hmagnitude : (ofInt n).magnitude = (ofInt m).magnitude := by rw [h]
  have habs : n.natAbs = m.natAbs := by
    rcases Nat.eq_zero_or_pos n.natAbs with hn0 | hnpos
    · rcases Nat.eq_zero_or_pos m.natAbs with hm0 | hmpos
      · rw [hn0, hm0]
      · obtain ⟨hlow, -, hvalue⟩ := magnitude_ofRatio_one (decide (m < 0)) hmpos hm
        rw [hzero n hn0, ofInt, hvalue] at hmagnitude
        omega
    · obtain ⟨hlow, hhigh, hvalue⟩ := magnitude_ofRatio_one (decide (n < 0)) hnpos hn
      rcases Nat.eq_zero_or_pos m.natAbs with hm0 | hmpos
      · rw [hzero m hm0, ofInt, hvalue] at hmagnitude
        omega
      · obtain ⟨hlow', hhigh', hvalue'⟩ := magnitude_ofRatio_one (decide (m < 0)) hmpos hm
        rw [ofInt, ofInt, hvalue, hvalue'] at hmagnitude
        -- The exponents agree, for the significands have their leading bits in one place.
        have hlog : n.natAbs.log2 = m.natAbs.log2 := by omega
        rw [hlog] at hmagnitude
        exact Nat.eq_of_mul_eq_mul_right (Nat.pow_pos (by decide : 0 < 2))
          (Nat.add_left_cancel hmagnitude)
  have hiff : n < 0 ↔ m < 0 := by simpa using hnegative
  omega
end Binary64

end KeyedStore
