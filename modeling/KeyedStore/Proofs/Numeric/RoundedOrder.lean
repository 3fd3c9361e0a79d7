import KeyedStore.Proofs.Numeric.Rounding

/-!
# Rounding and order

Rounding is monotone: of two quotients or integers, the greater one is not rounded to less.
-/
namespace KeyedStore

/-- Of quotients with one denominator, the greater one is not rounded to less. -/
theorem roundQuotient_mono_left {a b den : Nat} (h : a ≤ b) :
    roundQuotient a den ≤ roundQuotient b den := by
  have hdiv : a / den ≤ b / den := Nat.div_le_div_right h
  have hround (n : Nat) : n / den ≤ roundQuotient n den ∧ roundQuotient n den ≤ n / den + 1 := by
    unfold roundQuotient
    simp only
    split
    · omega
    · split <;> omega
  rcases Nat.lt_or_ge (a / den) (b / den) with hlt | hge
  · have hlow := (hround b).1
    have hhigh := (hround a).2
    omega
  · -- With one integral part, the remainders decide.
    have heq : a / den = b / den := Nat.le_antisymm hdiv hge
    have hmod : a % den ≤ b % den := by
      have ha := Nat.div_add_mod a den
      have hb := Nat.div_add_mod b den
      rw [heq] at ha
      omega
    unfold roundQuotient
    simp only [heq]
    split
    · split
      · exact Nat.le_refl _
      · split <;> omega
    · split
      · rw [if_neg (by omega), if_pos (by omega)]
      · rw [if_neg (by omega)]
        split <;> omega

section Quotients

variable {num den num' den' : Nat}

/-- The greater quotient is not rounded to less. -/
theorem roundQuotient_mono (hden : 0 < den) (hden' : 0 < den')
    (h : (num : ℚ) / den ≤ num' / den') : roundQuotient num den ≤ roundQuotient num' den' := by
  have hcross : num * den' ≤ num' * den := by
    rw [div_le_div_iff₀ (by exact_mod_cast hden) (by exact_mod_cast hden')] at h
    exact_mod_cast h
  calc roundQuotient num den = roundQuotient (num * den') (den * den') :=
        (roundQuotient_mul num den hden').symm
    _ ≤ roundQuotient (num' * den) (den * den') := roundQuotient_mono_left hcross
    _ = roundQuotient num' den' := by rw [Nat.mul_comm den, roundQuotient_mul num' den' hden]

theorem floorLog2_mono (hnum : 0 < num) (hden : 0 < den) (hnum' : 0 < num') (hden' : 0 < den')
    (h : (num : ℚ) / den ≤ num' / den') : floorLog2 num den ≤ floorLog2 num' den' := by
  have hlow := (floorLog2_spec hnum hden).1
  have hhigh := (floorLog2_spec hnum' hden').2
  have hlt := (zpow_lt_zpow_iff_right₀ (by norm_num)).1 ((hlow.trans h).trans_lt hhigh)
  omega

/-- A quotient in units of a power of two. -/
theorem ratio_units (num den : Nat) (unit : Int) :
    ((num * Nat.pow 2 (-unit).toNat : Nat) : ℚ) / (den * Nat.pow 2 unit.toNat : Nat) =
      num / den * 2 ^ (-unit) := by
  rw [two_zpow_eq, neg_neg]
  push_cast [Nat.pow_eq]
  exact mul_div_mul_comm _ _ _ _

theorem units_pos (hden : 0 < den) (unit : Int) : 0 < den * Nat.pow 2 unit.toNat :=
  Nat.mul_pos hden (Nat.pow_pos (by decide))

/-- A significand has at most fifty-three bits, or it is the least number of one more. -/
theorem roundQuotient_units_le (hnum : 0 < num) (hden : 0 < den) (unit : Int)
    (h : floorLog2 num den ≤ unit + 52) :
    roundQuotient (num * Nat.pow 2 (-unit).toNat) (den * Nat.pow 2 unit.toNat) ≤ 2 ^ 53 := by
  refine Nat.le_trans (roundQuotient_mono (units_pos hden unit) Nat.one_pos ?_)
    (show roundQuotient (2 ^ 53) 1 ≤ 2 ^ 53 by decide)
  rw [ratio_units]
  calc (num : ℚ) / den * 2 ^ (-unit)
      ≤ 2 ^ (floorLog2 num den + 1) * 2 ^ (-unit) :=
        mul_le_mul_of_nonneg_right (floorLog2_spec hnum hden).2.le (by positivity)
    _ = 2 ^ (floorLog2 num den + 1 + -unit) := (zpow_add₀ (by norm_num) _ _).symm
    _ ≤ 2 ^ (53 : Int) := zpow_le_zpow_right₀ (by norm_num) (by omega)
    _ = (2 ^ 53 : Nat) / (1 : Nat) := by norm_num

/-- A significand in the units of its leading bit has that bit. -/
theorem le_roundQuotient_units (hnum : 0 < num) (hden : 0 < den) (unit : Int)
    (h : floorLog2 num den = unit + 52) :
    2 ^ 52 ≤ roundQuotient (num * Nat.pow 2 (-unit).toNat) (den * Nat.pow 2 unit.toNat) := by
  refine Nat.le_trans (show 2 ^ 52 ≤ roundQuotient (2 ^ 52) 1 by decide)
    (roundQuotient_mono Nat.one_pos (units_pos hden unit) ?_)
  rw [ratio_units]
  calc ((2 ^ 52 : Nat) : ℚ) / (1 : Nat) = 2 ^ (52 : Int) := by norm_num
    _ = 2 ^ (floorLog2 num den + -unit) := by
        congr 1
        omega
    _ = 2 ^ floorLog2 num den * 2 ^ (-unit) := zpow_add₀ (by norm_num) _ _
    _ ≤ num / den * 2 ^ (-unit) :=
        mul_le_mul_of_nonneg_right (floorLog2_spec hnum hden).1 (by positivity)

end Quotients

namespace Binary64

section Quotients

variable {num den num' den' : Nat} (negative negative' : Bool)

/-- The greater quotient has no smaller magnitude. -/
theorem magnitude_ofRatio_mono (hden : 0 < den) (hden' : 0 < den')
    (h : (num : ℚ) / den ≤ num' / den') :
    (ofRatio negative num den).magnitude ≤ (ofRatio negative' num' den').magnitude := by
  rcases Nat.eq_zero_or_pos num with rfl | hnum
  · simp [ofRatio, zero]
  have hd : (0 : ℚ) < den := by exact_mod_cast hden
  have hd' : (0 : ℚ) < den' := by exact_mod_cast hden'
  have hnum' : 0 < num' := by
    have hpos : (0 : ℚ) < num' / den' := (div_pos (by exact_mod_cast hnum) hd).trans_le h
    exact_mod_cast (div_pos_iff_of_pos_right hd').1 hpos
  have hlog := floorLog2_mono hnum hden hnum' hden' h
  unfold ofRatio
  rw [if_neg hnum.ne', if_neg hnum'.ne']
  simp only [ofMagnitude]
  refine min_le_min_right _ ?_
  generalize hexponent : max (floorLog2 num den + 1023) 1 = exponent
  generalize hexponent' : max (floorLog2 num' den' + 1023) 1 = exponent'
  rcases lt_or_ge exponent exponent' with hlt | hge
  · -- The next exponent stands for as much as the greatest significand adds.
    have hscaled := roundQuotient_units_le hnum hden (exponent - 1075) (by omega)
    have hscaled' := le_roundQuotient_units hnum' hden' (exponent' - 1075) (by omega)
    have hexponents : (exponent - 1).toNat + 1 ≤ (exponent' - 1).toNat := by omega
    simp only [Nat.pow_eq] at hscaled hscaled' ⊢
    omega
  · obtain rfl : exponent = exponent' := by omega
    refine Nat.add_le_add_left (roundQuotient_mono (units_pos hden _) (units_pos hden' _) ?_) _
    rw [ratio_units, ratio_units]
    exact mul_le_mul_of_nonneg_right h (by positivity)

end Quotients

theorem negative_ofInt (n : Int) : (ofInt n).negative = decide (n < 0) := by
  unfold ofInt ofRatio
  split <;> rfl

/-- The greater integer is not rounded to less. -/
theorem totalKey_ofInt_mono {m n : Int} (h : m ≤ n) : (ofInt m).totalKey ≤ (ofInt n).totalKey := by
  have hmagnitude {a b : Nat} (hab : a ≤ b) (negative negative' : Bool) :
      (ofRatio negative a 1).magnitude ≤ (ofRatio negative' b 1).magnitude := by
    refine magnitude_ofRatio_mono negative negative' Nat.one_pos Nat.one_pos ?_
    simpa using hab
  unfold totalKey
  simp only [negative_ofInt, decide_eq_true_eq]
  split
  case isTrue hm =>
    split
    case isTrue hn =>
      have hle := hmagnitude (show n.natAbs ≤ m.natAbs by omega) (decide (n < 0)) (decide (m < 0))
      unfold ofInt
      omega
    case isFalse hn => omega
  case isFalse hm =>
    have hle := hmagnitude (show m.natAbs ≤ n.natAbs by omega) (decide (m < 0)) (decide (n < 0))
    rw [if_neg (by omega)]
    unfold ofInt
    omega

end Binary64

end KeyedStore
