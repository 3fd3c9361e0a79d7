import KeyedStore.Proofs.Numeric.Digits
import KeyedStore.Proofs.Numeric.Rounding
import Mathlib.Data.List.TakeWhile

/-!
# Decimal text

A finite value is read back from the text of its shortest decimal. The text is read as a decimal of
the same value, with more or fewer zeros at its end, and the nearest value to a decimal depends on
its value alone.
-/
namespace KeyedStore

namespace Binary64

/-- Zeros at the end of a coefficient do not matter. -/
theorem ofDecimal_mul_pow (negative : Bool) (coefficient k : Nat) (exponent : Int) :
    ofDecimal ⟨negative, coefficient * 10 ^ k, exponent - k⟩ =
      ofDecimal ⟨negative, coefficient, exponent⟩ := by
  rcases Nat.eq_zero_or_pos coefficient with rfl | hpos
  · simp [ofDecimal]
  · have hne : coefficient * 10 ^ k ≠ 0 := (Nat.mul_pos hpos (Nat.pow_pos (by decide))).ne'
    have hlength : (naturalDigits (coefficient * 10 ^ k)).length =
        (naturalDigits coefficient).length + k := by
      rw [naturalDigits_mul_pow hpos, List.length_append, List.length_replicate]
    have hratio : ofRatio negative (coefficient * 10 ^ k * Nat.pow 10 (exponent - k).toNat)
        (Nat.pow 10 (-(exponent - k)).toNat) =
          ofRatio negative (coefficient * Nat.pow 10 exponent.toNat)
            (Nat.pow 10 (-exponent).toNat) := by
      refine ofRatio_congr negative (Nat.pow_pos (by decide)) (Nat.pow_pos (by decide)) ?_
      have hpowers : k + (exponent - k).toNat + (-exponent).toNat =
          exponent.toNat + (-(exponent - k)).toNat := by omega
      simp only [Nat.pow_eq, Nat.mul_assoc, ← Nat.pow_add]
      rw [hpowers]
    have hscale : exponent - k + ((naturalDigits coefficient).length + k : Nat) =
        exponent + (naturalDigits coefficient).length := by omega
    unfold ofDecimal
    simp only [hlength, hscale, hne, hpos.ne', hratio]

variable {x : Binary64}

section Scale

variable {significand : Nat}

/-- Three binary digits take no more than one decimal digit. -/
theorem mul_two_pow_lt (h : significand < 2 ^ 53) (exponent : Nat) :
    significand * 2 ^ exponent < 10 ^ (16 + (exponent + 2) / 3) :=
  calc significand * 2 ^ exponent < 2 ^ 53 * 2 ^ exponent :=
        Nat.mul_lt_mul_of_pos_right h (Nat.pow_pos (by decide))
    _ ≤ 2 ^ 53 * 2 ^ (3 * ((exponent + 2) / 3)) :=
        Nat.mul_le_mul_left _ (Nat.pow_le_pow_right (by decide) (by omega))
    _ = 2 ^ 53 * (2 ^ 3) ^ ((exponent + 2) / 3) := by rw [Nat.pow_mul]
    _ ≤ 10 ^ 16 * 10 ^ ((exponent + 2) / 3) :=
        Nat.mul_le_mul (by decide) (Nat.pow_le_pow_left (by decide) _)
    _ = 10 ^ (16 + (exponent + 2) / 3) := (Nat.pow_add 10 16 _).symm

/-- Two binary digits make less than one factor of five. -/
theorem ten_pow_le_mul_five_pow (h : 0 < significand) {k : Nat} (hk : k ≤ 1074) :
    10 ^ (k - 401) ≤ significand * 5 ^ k :=
  calc 10 ^ (k - 401) = 2 ^ (k - 401) * 5 ^ (k - 401) := Nat.mul_pow 2 5 _
    _ ≤ 2 ^ (2 * ((k - 400) / 2)) * 5 ^ (k - 401) :=
        Nat.mul_le_mul_right _ (Nat.pow_le_pow_right (by decide) (by omega))
    _ = (2 ^ 2) ^ ((k - 400) / 2) * 5 ^ (k - 401) := by rw [Nat.pow_mul]
    _ ≤ 5 ^ ((k - 400) / 2) * 5 ^ (k - 401) :=
        Nat.mul_le_mul_right _ (Nat.pow_le_pow_left (by decide) _)
    _ = 5 ^ ((k - 400) / 2 + (k - 401)) := (Nat.pow_add 5 _ _).symm
    _ ≤ 5 ^ k := Nat.pow_le_pow_right (by decide) (by omega)
    _ ≤ significand * 5 ^ k := Nat.le_mul_of_pos_left _ h

theorem mul_five_pow_lt (h : significand < 2 ^ 53) (k : Nat) :
    significand * 5 ^ k < 10 ^ (k + 400) :=
  calc significand * 5 ^ k < 2 ^ 53 * 5 ^ k :=
        Nat.mul_lt_mul_of_pos_right h (Nat.pow_pos (by decide))
    _ ≤ 10 ^ 400 * 10 ^ k :=
        Nat.mul_le_mul (by decide +kernel) (Nat.pow_le_pow_left (by decide) k)
    _ = 10 ^ (k + 400) := by rw [← Nat.pow_add, Nat.add_comm]

end Scale

/-- The exact decimal of a value has no more digits than are computed with. -/
theorem exactDecimal_scale (hx : x.isFinite) (h : 0 < x.significand) :
    -400 ≤ x.exactDecimal.exponent + (naturalDigits x.exactDecimal.coefficient).length ∧
      x.exactDecimal.exponent + (naturalDigits x.exactDecimal.coefficient).length ≤ 400 := by
  have hfinite : x.magnitude < infinityMagnitude := of_decide_eq_true hx
  have hunit : -1074 ≤ x.unitExponent ∧ x.unitExponent ≤ 971 := by
    simp only [unitExponent, infinityMagnitude, Nat.pow_eq] at hfinite ⊢
    omega
  have hsignificand := x.significand_lt
  unfold exactDecimal
  split
  case isTrue hwhole =>
    have hlt : x.numerator < _ := mul_two_pow_lt hsignificand x.unitExponent.toNat
    have hlength := (length_naturalDigits_le_iff (by omega)).2 hlt
    constructor <;> simp only <;> omega
  case isFalse hfraction =>
    obtain ⟨k, hk⟩ : ∃ k : Nat, x.unitExponent = -k := ⟨(-x.unitExponent).toNat, by omega⟩
    simp only [hk, Int.neg_neg, Int.toNat_natCast, Nat.pow_eq]
    constructor
    · by_cases hsmall : k ≤ 401
      · have hpos := List.length_pos_iff.2 (naturalDigits_ne_nil (x.significand * 5 ^ k))
        omega
      · have hle := ten_pow_le_mul_five_pow h (k := k) (by omega)
        have hlength := mt (length_naturalDigits_le_iff (by omega)).1 (Nat.not_lt.2 hle)
        omega
    · have hlength :=
        (length_naturalDigits_le_iff (by omega)).2 (mul_five_pow_lt hsignificand k)
      omega

/-- The exact decimal of a finite value is read back. -/
theorem ofDecimal_exactDecimal (hx : x.isFinite) : ofDecimal x.exactDecimal = x := by
  have hnegative : x.exactDecimal.negative = x.negative := by
    unfold exactDecimal
    split <;> rfl
  rcases Nat.eq_zero_or_pos x.significand with hzero | hpos
  · have hcoefficient : x.exactDecimal.coefficient = 0 := by
      unfold exactDecimal numerator
      split <;> simp [hzero]
    have hself := ofRatio_self hx
    rw [numerator, hzero, Nat.zero_mul, ofRatio, if_pos rfl] at hself
    simp [ofDecimal, hcoefficient, hnegative, hself]
  · have hratio : ofRatio x.negative
        (x.exactDecimal.coefficient * Nat.pow 10 x.exactDecimal.exponent.toNat)
        (Nat.pow 10 (-x.exactDecimal.exponent).toNat) = x := by
      refine Eq.trans ?_ (ofRatio_self hx)
      refine ofRatio_congr _ (Nat.pow_pos (by decide)) x.denominator_pos ?_
      unfold exactDecimal
      split
      case isTrue hwhole =>
        have hnone : (-x.unitExponent).toNat = 0 := by omega
        simp [denominator, hnone]
      case isFalse hfraction =>
        have hnone : x.unitExponent.toNat = 0 := by omega
        have hten : 10 ^ (-x.unitExponent).toNat =
            2 ^ (-x.unitExponent).toNat * 5 ^ (-x.unitExponent).toNat := Nat.mul_pow 2 5 _
        simp only [denominator, numerator, hnone, Nat.pow_eq, Nat.pow_zero, Nat.mul_one, hten]
        ring
    have hne : x.exactDecimal.coefficient ≠ 0 := by
      unfold exactDecimal numerator
      split
      · exact (Nat.mul_pos hpos (Nat.pow_pos (by decide))).ne'
      · exact (Nat.mul_pos hpos (Nat.pow_pos (by decide))).ne'
    obtain ⟨hleast, hgreatest⟩ := exactDecimal_scale hx hpos
    unfold ofDecimal
    simp only [hne, decide_false, Bool.false_or, decide_eq_true_eq, hnegative, hratio]
    rw [if_neg (by omega), if_neg (by omega)]

/-- What is found on a grid reads back. -/
theorem ofDecimal_of_nearestOnGrid {exponent : Int} {d : Decimal}
    (h : x.nearestOnGrid? exponent = some d) : ofDecimal d = x := by
  obtain ⟨coefficient, -, hread⟩ := List.exists_of_findSome?_eq_some h
  simp only at hread
  split at hread
  case isTrue heq =>
    cases hread
    exact heq
  case isFalse => cases hread

/-- The shortest decimal of a finite value is read back. -/
theorem ofDecimal_shortest (hx : x.isFinite) : ofDecimal x.shortest = x := by
  have hcases (found : Option Decimal) (h : ∀ d, found = some d → ofDecimal d = x) :
      ofDecimal (found.getD x.exactDecimal) = x := by
    cases found with
    | none => exact ofDecimal_exactDecimal hx
    | some d => exact h d rfl
  refine hcases _ fun d hfound => ?_
  obtain ⟨n, -, hgrid⟩ := List.exists_of_findSome?_eq_some hfound
  exact ofDecimal_of_nearestOnGrid hgrid

end Binary64

namespace Decimal

section Reading

variable {whole fraction rest : List Char}

theorem takeWhile_isDigit_append (hwhole : ∀ c ∈ whole, c.isDigit)
    (hrest : ∀ c, rest.head? = some c → c.isDigit = false) :
    (whole ++ rest).takeWhile Char.isDigit = whole ∧
      (whole ++ rest).dropWhile Char.isDigit = rest := by
  have hstop : rest.takeWhile Char.isDigit = [] ∧ rest.dropWhile Char.isDigit = rest := by
    cases rest with
    | nil => exact ⟨rfl, rfl⟩
    | cons c rest => simp [hrest c rfl]
  rw [List.takeWhile_append_of_pos hwhole, List.dropWhile_append_of_pos hwhole, hstop.1, hstop.2]
  exact ⟨List.append_nil _, rfl⟩

theorem isDigit_of_head?_append (hne : whole ≠ []) (hwhole : ∀ c ∈ whole, c.isDigit) {c : Char}
    (h : (whole ++ rest).head? = some c) : c.isDigit := by
  rw [List.head?_append_of_ne_nil _ hne] at h
  exact hwhole c (List.mem_of_mem_head? h)

/-- A numeral with a point is read by its digits on both sides. -/
theorem read?_signed_point (negative : Bool) (hne : whole ≠ [])
    (hwhole : ∀ c ∈ whole, c.isDigit) (hfraction : ∀ c ∈ fraction, c.isDigit)
    (hrest : ∀ c, rest.head? = some c → c.isDigit = false) :
    read? (signed negative (whole ++ '.' :: (fraction ++ rest))) =
      (readExponent? rest).map fun exponent =>
        ⟨negative, digitsValue (whole ++ fraction), exponent - fraction.length⟩ := by
  have hpoint : ∀ c, ('.' :: (fraction ++ rest)).head? = some c → c.isDigit = false := by
    rintro c ⟨⟩
    decide
  obtain ⟨htake, hdrop⟩ := takeWhile_isDigit_append hwhole hpoint
  obtain ⟨htake', hdrop'⟩ := takeWhile_isDigit_append hfraction hrest
  have hempty : whole.isEmpty = false := List.isEmpty_eq_false_iff.2 hne
  unfold read?
  rw [splitSign_signed fun c hc => isDigit_of_head?_append hne hwhole hc]
  simp [htake, hdrop, htake', hdrop', hempty]

/-- A numeral without a point is read by its digits. -/
theorem read?_signed (negative : Bool) (hne : whole ≠ []) (hwhole : ∀ c ∈ whole, c.isDigit)
    (hrest : ∀ c, rest.head? = some c → c.isDigit = false ∧ c ≠ '.') :
    read? (signed negative (whole ++ rest)) =
      (readExponent? rest).map fun exponent => ⟨negative, digitsValue whole, exponent⟩ := by
  obtain ⟨htake, hdrop⟩ := takeWhile_isDigit_append hwhole fun c hc => (hrest c hc).1
  have hempty : whole.isEmpty = false := List.isEmpty_eq_false_iff.2 hne
  unfold read?
  rw [splitSign_signed fun c hc => isDigit_of_head?_append hne hwhole hc]
  simp only [htake, hdrop]
  split
  · exact absurd rfl (hrest '.' rfl).2
  · simp [hempty]

theorem readExponent?_natural (exponent : Int) :
    readExponent? ('e' :: (if exponent < 0 then '-' else '+') :: naturalDigits exponent.natAbs) =
      some exponent := by
  unfold readExponent? readInteger?
  by_cases h : exponent < 0
  · have habs : -(exponent.natAbs : Int) = exponent := by omega
    simp only [h, if_true, splitSign, isDigits_naturalDigits, digitsValue_naturalDigits, habs,
      beq_self_eq_true, Bool.true_or]
  · have habs : (exponent.natAbs : Int) = exponent := by omega
    simp only [h, if_false, splitSign, isDigits_naturalDigits, digitsValue_naturalDigits, habs,
      beq_self_eq_true, Bool.true_or, if_true, Bool.false_eq_true]

end Reading

/-- Whether a text is a numeral with a point or an exponent for digits of which the first has an
exponent, up to zeros at their end. -/
structure IsNumeral (text digits : List Char) (exponent : Int) : Prop where
  head : ∀ c, text.head? = some c → c.isDigit
  isReal : isDigits text = false
  chars : ∀ c ∈ text, c.isDigit ∨ c ∈ ['.', 'e', '+', '-']
  /-- A dash is part of an exponent, and a numeral with an exponent does not start with two
  digits. -/
  dash : '-' ∈ text → ∀ first second rest, text = first :: second :: rest → second.isDigit = false
  reads : ∀ negative, ∃ k : Nat, read? (signed negative text) =
    some ⟨negative, digitsValue digits * 10 ^ k, exponent + 1 - digits.length - k⟩

variable {digits : List Char} {exponent : Int}

theorem isDigits_eq_false_of_mem {text : List Char} {c : Char} (hmem : c ∈ text)
    (hc : c.isDigit = false) : isDigits text = false := by
  have hall : text.all Char.isDigit = false :=
    List.all_eq_false.2 ⟨c, hmem, by simp [hc]⟩
  simp [isDigits, hall]

theorem isNumeral_point (whole fraction : List Char) (hne : whole ≠ [])
    (hwhole : ∀ c ∈ whole, c.isDigit) (hfraction : ∀ c ∈ fraction, c.isDigit) {k : Nat}
    (hvalue : digitsValue (whole ++ fraction) = digitsValue digits * 10 ^ k)
    (hexponent : exponent + 1 - digits.length - k = -fraction.length) :
    IsNumeral (whole ++ '.' :: fraction) digits exponent where
  head c hc := isDigit_of_head?_append hne hwhole hc
  isReal := isDigits_eq_false_of_mem (c := '.') (by simp) (by decide)
  chars c hc := by
    rcases List.mem_append.1 hc with hc | hc
    · exact .inl (hwhole c hc)
    · rcases List.mem_cons.1 hc with rfl | hc
      · exact .inr (by decide)
      · exact .inl (hfraction c hc)
  dash hdash := by
    have hdigit : '-' ∈ whole ∨ '-' ∈ fraction := by simpa using hdash
    exact absurd (hdigit.elim (hwhole '-') (hfraction '-')) (by decide)
  reads negative := by
    have hend : ∀ c, ([] : List Char).head? = some c → c.isDigit = false := nofun
    have hread := read?_signed_point negative hne hwhole hfraction hend
    rw [List.append_nil, hvalue] at hread
    exact ⟨k, by simp [hread, hexponent, readExponent?]⟩

/-- Positional text is a numeral. -/
theorem isNumeral_positional (hne : digits ≠ []) (hdigits : ∀ c ∈ digits, c.isDigit) :
    IsNumeral (positional digits exponent) digits exponent := by
  have hzero (n : Nat) : ∀ c ∈ List.replicate n '0', c.isDigit := by
    intro c hc
    rw [List.eq_of_mem_replicate hc]
    decide
  have hten {n : Nat} (digits : List Char) :
      digitsValue (digits ++ List.replicate n '0') = digitsValue digits * 10 ^ n := by
    rw [digitsValue_append, digitsValue_replicate_zero, List.length_replicate, Nat.add_zero]
  unfold positional
  split
  case isTrue hneg =>
    refine isNumeral_point ['0'] _ (k := 0) (by simp) (hzero 1) ?_ ?_ ?_
    · exact fun c hc => (List.mem_append.1 hc).elim (hzero _ c) (hdigits c)
    · show digitsValue (List.replicate ((-exponent - 1).toNat + 1) '0' ++ digits) = _
      rw [digitsValue_append, digitsValue_replicate_zero]
      simp
    · simp
      omega
  case isFalse hpos =>
    have htake : ∀ c ∈ digits.take (exponent.toNat + 1) ++
        List.replicate (exponent.toNat + 1 - digits.length) '0', c.isDigit := fun c hc =>
      (List.mem_append.1 hc).elim (fun hc => hdigits c (List.mem_of_mem_take hc)) (hzero _ c)
    have hsome : digits.take (exponent.toNat + 1) ++
        List.replicate (exponent.toNat + 1 - digits.length) '0' ≠ [] := by
      simp [hne]
    simp only
    split
    case h_1 hdrop =>
      -- All digits stand before the point, so zeros follow on both sides of it.
      have hwhole : digits.take (exponent.toNat + 1) = digits :=
        List.take_of_length_le (List.drop_eq_nil_iff.1 hdrop)
      rw [hwhole] at hsome htake ⊢
      refine isNumeral_point _ ['0'] (k := exponent.toNat + 1 - digits.length + 1) hsome htake
        (hzero 1) ?_ ?_
      · rw [List.append_assoc, ← List.replicate_succ']
        exact hten digits
      · have hlength := List.drop_eq_nil_iff.1 hdrop
        simp
        omega
    case h_2 fraction hdrop =>
      have hlength : exponent.toNat + 1 < digits.length :=
        Nat.lt_of_not_le fun hle => hdrop (List.drop_eq_nil_iff.2 hle)
      have hnone : exponent.toNat + 1 - digits.length = 0 := by omega
      refine isNumeral_point _ _ (k := 0) hsome htake ?_ ?_ ?_
      · exact fun c hc => hdigits c (List.mem_of_mem_drop hc)
      · rw [hnone, List.replicate_zero, List.append_nil, List.take_append_drop]
        simp
      · simp
        omega

/-- The characters of an exponent part. -/
theorem chars_exponentPart (exponent : Int) : ∀ c ∈ 'e' :: (if exponent < 0 then '-' else '+') ::
    naturalDigits exponent.natAbs, c.isDigit ∨ c ∈ ['.', 'e', '+', '-'] := by
  intro c hc
  rcases List.mem_cons.1 hc with rfl | hc
  · exact .inr (by decide)
  · rcases List.mem_cons.1 hc with rfl | hc
    · exact .inr (by split <;> decide)
    · exact .inl (isDigit_of_mem_naturalDigits hc)

/-- Text with an exponent part is a numeral. -/
theorem isNumeral_exponential (hne : digits ≠ []) (hdigits : ∀ c ∈ digits, c.isDigit) :
    IsNumeral (exponential digits exponent) digits exponent := by
  have hletter : ∀ c, ('e' :: (if exponent < 0 then '-' else '+') ::
      naturalDigits exponent.natAbs).head? = some c → c.isDigit = false ∧ c ≠ '.' := by
    rintro c ⟨⟩
    decide
  have hsuffix := chars_exponentPart exponent
  obtain ⟨first, rest, rfl⟩ := List.exists_cons_of_ne_nil hne
  have hfirst : ∀ c ∈ [first], c.isDigit := by simpa using hdigits first List.mem_cons_self
  have hhead : ∀ {text : List Char} (c : Char), (first :: text).head? = some c → c.isDigit := by
    rintro text c ⟨⟩
    exact hdigits first List.mem_cons_self
  unfold exponential
  cases rest with
  | nil =>
    refine ⟨hhead, isDigits_eq_false_of_mem (c := 'e') (by simp) (by decide),
      List.forall_mem_cons.2 ⟨.inl (hfirst first (by simp)), hsuffix⟩, ?_, fun negative => ⟨0, ?_⟩⟩
    · rintro - _ _ _ ⟨⟩
      rfl
    · simp only
      rw [read?_signed negative (by simp) hfirst hletter, readExponent?_natural]
      simp
  | cons second rest =>
    have hrest : ∀ c ∈ second :: rest, c.isDigit := fun c hc => hdigits c (.tail _ hc)
    refine ⟨hhead, isDigits_eq_false_of_mem (c := 'e') (by simp) (by decide), fun c hc => ?_, ?_,
      fun negative => ⟨0, ?_⟩⟩
    · rcases List.mem_append.1 hc with hc | hc
      · rcases List.mem_cons.1 hc with rfl | hc
        · exact .inl (hfirst c (by simp))
        · rcases List.mem_cons.1 hc with rfl | hc
          · exact .inr (by decide)
          · exact .inl (hrest c hc)
      · exact hsuffix c hc
    · rintro - _ _ _ ⟨⟩
      rfl
    · have hread := read?_signed_point negative (by simp) hfirst hrest fun c hc => (hletter c hc).1
      rw [readExponent?_natural] at hread
      refine hread.trans ?_
      simp

/-- The significant digits of a decimal: without the zeros at the end, with the exponent of the
first. -/
theorem scientific_spec {d : Decimal} (h : d.coefficient ≠ 0) :
    ∃ z : Nat, d.scientific.1 ≠ [] ∧ (∀ c ∈ d.scientific.1, c.isDigit) ∧
      d.coefficient = digitsValue d.scientific.1 * 10 ^ z ∧
      d.exponent = d.scientific.2 + 1 - d.scientific.1.length - z := by
  let digits := naturalDigits d.coefficient
  let zeros := digits.reverse.takeWhile (· == '0')
  have hsplit : d.scientific.1 ++ List.replicate zeros.length '0' = digits := by
    have hzeros : zeros = List.replicate zeros.length '0' :=
      List.eq_replicate_of_mem fun c hc => by simpa using List.mem_takeWhile_imp hc
    rw [← List.reverse_inj, List.reverse_append, List.reverse_replicate, ← hzeros]
    exact (List.reverse_reverse _).symm ▸ List.takeWhile_append_dropWhile
  have hvalue : d.coefficient = digitsValue d.scientific.1 * 10 ^ zeros.length :=
    calc d.coefficient = digitsValue digits := (digitsValue_naturalDigits _).symm
      _ = digitsValue (d.scientific.1 ++ List.replicate zeros.length '0') := by rw [hsplit]
      _ = _ := by
        rw [digitsValue_append, digitsValue_replicate_zero, List.length_replicate, Nat.add_zero]
  refine ⟨zeros.length, fun hnil => h ?_, fun c hc => ?_, hvalue, ?_⟩
  · rw [hvalue, hnil]
    exact Nat.zero_mul _
  · exact isDigit_of_mem_naturalDigits (hsplit ▸ List.mem_append_left _ hc)
  · have hlength := congrArg List.length hsplit
    have hfirst : d.scientific.2 = d.exponent + digits.length - 1 := rfl
    rw [List.length_append, List.length_replicate] at hlength
    omega

end Decimal

namespace Binary64

open Decimal

variable {text digits : List Char} {exponent : Int}

/-- A text that starts with a digit is no word. -/
theorem read?_signed_of_head (h : ∀ c, text.head? = some c → c.isDigit) (negative : Bool) :
    read? (signed negative text) = (Decimal.read? (signed negative text)).map ofDecimal := by
  have hhead : ∀ c, text.head? = some c → c.toLower ≠ 'i' ∧ c.toLower ≠ 'n' := by
    intro c hc
    have hdigit := h c hc
    rw [toLower_of_isDigit hdigit]
    constructor <;> rintro rfl <;> exact absurd hdigit (by decide)
  have hword (word : List Char) (hword : word.head? = some 'i' ∨ word.head? = some 'n') :
      String.ofList (text.map Char.toLower) ≠ String.ofList word := by
    intro heq
    rw [String.ofList_inj] at heq
    rw [← heq, List.head?_map] at hword
    rcases hword with hc | hc
    · obtain ⟨c, hc, hlower⟩ := Option.map_eq_some_iff.1 hc
      exact (hhead c hc).1 hlower
    · obtain ⟨c, hc, hlower⟩ := Option.map_eq_some_iff.1 hc
      exact (hhead c hc).2 hlower
  unfold read?
  rw [splitSign_signed h]
  simp only
  split
  case h_1 heq => exact absurd heq (hword "inf".toList (.inl rfl))
  case h_2 heq => exact absurd heq (hword "infinity".toList (.inl rfl))
  case h_3 heq => exact absurd heq (hword "nan".toList (.inr rfl))
  case h_4 => rfl

/-- Zeros at the end of the digits of a numeral do not matter. -/
theorem read?_of_isNumeral (h : IsNumeral text digits exponent) (negative : Bool) :
    read? (signed negative text) = some (ofDecimal ⟨negative, digitsValue digits,
      exponent + 1 - digits.length⟩) := by
  obtain ⟨k, hread⟩ := h.reads negative
  rw [read?_signed_of_head h.head, hread, Option.map_some, ofDecimal_mul_pow]

/-- The text of an integer is read as the nearest value to the integer. -/
theorem read?_integerText {n : Int} (h : n.natAbs < 10 ^ 20) :
    read? (integerText n) = some (ofInt n) := by
  have hhead : ∀ c, (naturalDigits n.natAbs).head? = some c → c.isDigit :=
    fun c hc => isDigit_of_head?_naturalDigits hc
  have hdigits : ∀ c ∈ naturalDigits n.natAbs, c.isDigit :=
    fun c hc => isDigit_of_mem_naturalDigits hc
  have hlength : (naturalDigits n.natAbs).length ≤ 20 :=
    (length_naturalDigits_le_iff (by decide)).2 h
  have hdecimal : Decimal.read? (integerText n) = some ⟨decide (n < 0), n.natAbs, 0⟩ := by
    have hread : Decimal.read? (signed (decide (n < 0)) (naturalDigits n.natAbs ++ [])) =
        some ⟨decide (n < 0), digitsValue (naturalDigits n.natAbs), 0⟩ :=
      Decimal.read?_signed (decide (n < 0)) (naturalDigits_ne_nil n.natAbs) hdigits nofun
    rwa [List.append_nil, digitsValue_naturalDigits] at hread
  rw [integerText, read?_signed_of_head hhead, ← integerText, hdecimal, Option.map_some]
  congr 1
  unfold ofDecimal ofInt
  simp only [Int.zero_add]
  by_cases hzero : n.natAbs = 0
  · simp [hzero, ofRatio]
  · have hlow : ¬((naturalDigits n.natAbs).length : Int) < -400 := by omega
    have hhigh : ¬(400 : Int) < (naturalDigits n.natAbs).length := by omega
    simp [hzero, hlow, hhigh]

/-- The text of a decimal is a numeral that stands for its value. -/
theorem exists_isNumeral_render (layout : Layout) (d : Decimal) : ∃ text digits exponent,
    d.render layout = signed d.negative text ∧ IsNumeral text digits exponent ∧
      ofDecimal ⟨d.negative, digitsValue digits, exponent + 1 - digits.length⟩ = ofDecimal d := by
  by_cases hzero : d.coefficient = 0
  · refine ⟨['0', '.', '0'], ['0'], 0, if_pos hzero, ?_, ?_⟩
    · exact @isNumeral_positional ['0'] 0 (by simp) (by simp)
    · have hvalue : digitsValue ['0'] = 0 := digitsValue_replicate_zero 1
      simp [ofDecimal, hzero, hvalue]
  · obtain ⟨z, hne, hdigits, hvalue, hexponent⟩ := scientific_spec hzero
    have hsame : ofDecimal ⟨d.negative, digitsValue d.scientific.1,
        d.scientific.2 + 1 - d.scientific.1.length⟩ = ofDecimal d := by
      rw [← ofDecimal_mul_pow _ _ z, ← hvalue, ← hexponent]
    unfold render
    rw [if_neg hzero]
    by_cases hplain : layout.leastPlain ≤ d.scientific.2 && d.scientific.2 ≤ layout.greatestPlain
    · exact ⟨_, _, _, by simp only [hplain, if_true], isNumeral_positional hne hdigits, hsame⟩
    · exact ⟨_, _, _, by simp only [hplain]; rfl, isNumeral_exponential hne hdigits, hsame⟩

/-- A finite value is read back from the text of its shortest decimal. -/
theorem read?_render_shortest {x : Binary64} (hx : x.isFinite) (layout : Layout) :
    read? (x.shortest.render layout) = some x := by
  obtain ⟨text, digits, exponent, hrender, hnumeral, hsame⟩ :=
    exists_isNumeral_render layout x.shortest
  rw [hrender, read?_of_isNumeral hnumeral, hsame, ofDecimal_shortest hx]

end Binary64

end KeyedStore
