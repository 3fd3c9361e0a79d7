import KeyedStore.Json.Number
import Mathlib.Algebra.Group.Nat.Defs

/-!
# Digits

The digits of a natural number stand for that number, and appending digits is counting in powers of
ten. So the text of an integer is read back as the integer.
-/
namespace KeyedStore

theorem digitsValue_eq (digits : List Char) : digitsValue digits = Nat.ofDigitChars 10 digits 0 :=
  rfl

@[simp]
theorem digitsValue_naturalDigits (n : Nat) : digitsValue (naturalDigits n) = n :=
  Nat.ofDigitChars_ten_toDigits

theorem digitsValue_append (a b : List Char) :
    digitsValue (a ++ b) = digitsValue a * 10 ^ b.length + digitsValue b := by
  rw [digitsValue_eq, Nat.ofDigitChars_append, Nat.ofDigitChars_eq_ofDigitChars_zero, Nat.mul_comm]
  rfl

theorem digitsValue_replicate_zero (n : Nat) : digitsValue (List.replicate n '0') = 0 := by
  rw [digitsValue_eq, Nat.ofDigitChars_replicate_zero, Nat.mul_zero]

theorem isDigit_of_mem_naturalDigits {n : Nat} {c : Char} (h : c ∈ naturalDigits n) : c.isDigit :=
  Nat.isDigit_of_mem_toDigits (by decide) (by decide) h

theorem naturalDigits_ne_nil (n : Nat) : naturalDigits n ≠ [] := Nat.toDigits_ne_nil

/-- A number is below a power of ten if it has no more digits. -/
theorem length_naturalDigits_le_iff {n k : Nat} (h : 0 < k) :
    (naturalDigits n).length ≤ k ↔ n < 10 ^ k :=
  Nat.length_toDigits_le_iff (by decide) h

/-- Each factor of ten is one more zero. -/
theorem naturalDigits_mul_pow {n : Nat} (h : 0 < n) (k : Nat) :
    naturalDigits (n * 10 ^ k) = naturalDigits n ++ List.replicate k '0' := by
  induction k with
  | zero => simp
  | succ k ih =>
    have hpos : 0 < n * 10 ^ k := Nat.mul_pos h (Nat.pow_pos (by decide))
    have hlast : naturalDigits (10 * (n * 10 ^ k) + 0) = naturalDigits (n * 10 ^ k) ++ ['0'] :=
      (Nat.toDigits_append_toDigits (by decide) hpos (by decide)).symm
    have hfactor : n * 10 ^ (k + 1) = 10 * (n * 10 ^ k) + 0 := by
      rw [Nat.pow_succ, ← Nat.mul_assoc, Nat.mul_comm, Nat.add_zero]
    rw [hfactor, hlast, ih, List.append_assoc, List.replicate_succ']

theorem toLower_of_isDigit {c : Char} (h : c.isDigit) : c.toLower = c := by
  unfold Char.toLower
  refine dif_neg fun hupper => ?_
  simp only [Char.isDigit, Bool.and_eq_true, decide_eq_true_eq] at h
  exact absurd (UInt32.le_trans hupper.1 h.2) (by decide)

section Signs

variable {negative : Bool} {text : List Char}

/-- A sign that is written is read off. -/
theorem splitSign_signed (h : ∀ c, text.head? = some c → c.isDigit) :
    splitSign (Decimal.signed negative text) = (negative, text) := by
  cases negative with
  | true => rfl
  | false =>
    unfold Decimal.signed splitSign
    simp only [Bool.false_eq_true, if_false]
    split
    · exact absurd (h '-' rfl) (by decide)
    · exact absurd (h '+' rfl) (by decide)
    · rfl

theorem isDigit_of_head?_naturalDigits {n : Nat} {c : Char}
    (h : (naturalDigits n).head? = some c) : c.isDigit :=
  isDigit_of_mem_naturalDigits (List.mem_of_mem_head? h)

theorem isDigits_naturalDigits (n : Nat) : isDigits (naturalDigits n) := by
  have hne : (naturalDigits n).isEmpty = false :=
    List.isEmpty_eq_false_iff.2 (naturalDigits_ne_nil n)
  simpa [isDigits, hne] using fun c hc => isDigit_of_mem_naturalDigits hc

end Signs

section Integers

variable {n : Int}

theorem readInteger?_integerText (n : Int) : readInteger? (integerText n) = some n := by
  unfold readInteger? integerText
  rw [splitSign_signed fun c hc => isDigit_of_head?_naturalDigits hc]
  simp only [isDigits_naturalDigits, if_true, digitsValue_naturalDigits, decide_eq_true_eq]
  congr 1
  split <;> omega

/-- The text of an integer is read back if it is of the signed 64-bit range, and else not. -/
theorem readInt64?_integerText (n : Int) : readInt64? (integerText n) =
    if -Nat.pow 2 63 ≤ n ∧ n < Nat.pow 2 63 then some n else none := by
  rw [readInt64?, readInteger?_integerText, Option.filter_some]
  simp

theorem readNatBelow?_integerText (hn : 0 ≤ n) {bound : Nat} (hbound : n < bound) :
    readNatBelow? bound (integerText n) = some n.toNat := by
  have hsign : decide (n < 0) = false := by simpa using hn
  have hvalue : n.natAbs = n.toNat := by omega
  unfold readNatBelow? integerText
  rw [hsign, hvalue]
  have hplus : ∀ rest, Decimal.signed false (naturalDigits n.toNat) ≠ '+' :: rest := by
    intro rest heq
    have hhead : (naturalDigits n.toNat).head? = some '+' := by
      rw [show naturalDigits n.toNat = '+' :: rest from heq]
      rfl
    exact absurd (isDigit_of_head?_naturalDigits hhead) (by decide)
  split
  · rename_i rest heq
    exact absurd heq (hplus rest)
  · have hlt : n.toNat < bound := by omega
    simp [Decimal.signed, isDigits_naturalDigits, hlt]

end Integers

end KeyedStore
