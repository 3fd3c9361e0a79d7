import Mathlib.Algebra.Group.Nat.Defs
import Mathlib.Tactic.SplitIfs

/-!
# Order of texts by bytes

Texts are ordered by code points, and the bytes of their UTF-8 forms in the same way. A code point is
written to the base 64: its first byte holds the leading digit and a mark that grows with the number
of bytes, so of two code points the smaller one has the first smaller byte.
-/
namespace KeyedStore

open Std

/-- How a code point is written: the number of its continuation bytes, and the mark of its first
byte. -/
inductive IsWrittenWith (code : Nat) : (count mark : Nat) → Prop
  | one (h : code < 128) : IsWrittenWith code 0 0
  | two (h : 128 ≤ code) (h' : code < 2048) : IsWrittenWith code 1 192
  | three (h : 2048 ≤ code) (h' : code < 65536) : IsWrittenWith code 2 224
  | four (h : 65536 ≤ code) (h' : code < 1114112) : IsWrittenWith code 3 240

/-- The continuation bytes of a code point: its lowest digits to the base 64, each with a mark. -/
def continuationBytes : Nat → Nat → List UInt8
  | 0, _ => []
  | count + 1, code => .ofNat (code / 64 ^ count % 64 + 128) :: continuationBytes count code

section CodePoints

variable {m n count count' mark mark' : Nat} {c d : Char} {rest rest' : List UInt8}

theorem compare_ofNat (hm : m < 256) (hn : n < 256) :
    compare (UInt8.ofNat m) (UInt8.ofNat n) = compare m n := by
  change compareOfLessAndEq (UInt8.ofNat m) (UInt8.ofNat n) = compareOfLessAndEq m n
  simp only [compareOfLessAndEq, UInt8.lt_iff_toNat_lt, ← UInt8.toNat_inj,
    UInt8.toNat_ofNat_of_lt' hm, UInt8.toNat_ofNat_of_lt' hn]

/-- Digits of two numbers are in the order of what they stand for. -/
theorem compare_continuationBytes (h : m % 64 ^ count < n % 64 ^ count) :
    compare (continuationBytes count m ++ rest) (continuationBytes count n ++ rest') = .lt := by
  induction count with
  | zero => simp [Nat.mod_one] at h
  | succ count ih =>
    rw [Nat.mod_pow_succ, Nat.mod_pow_succ] at h
    have hm : m / 64 ^ count % 64 < 64 := Nat.mod_lt _ (by decide)
    have hn : n / 64 ^ count % 64 < 64 := Nat.mod_lt _ (by decide)
    simp only [continuationBytes, List.cons_append, List.compare_cons_cons]
    rw [compare_ofNat (by omega) (by omega)]
    rcases Nat.lt_trichotomy (m / 64 ^ count % 64) (n / 64 ^ count % 64) with hlt | heq | hgt
    · rw [Nat.compare_eq_lt.2 (by omega), Ordering.lt_then]
    · rw [heq] at h ⊢
      rw [compare_self, Ordering.eq_then]
      exact ih (Nat.lt_of_add_lt_add_right h)
    · have hrest : n % 64 ^ count < 64 ^ count := Nat.mod_lt _ (Nat.pow_pos (by decide))
      have hscaled := Nat.mul_le_mul_left (64 ^ count) (Nat.succ_le_of_lt hgt)
      rw [Nat.mul_succ] at hscaled
      omega

theorem exists_isWrittenWith (c : Char) :
    ∃ count mark, IsWrittenWith c.toNat count mark ∧ String.utf8EncodeChar c =
      .ofNat (c.toNat / 64 ^ count + mark) :: continuationBytes count c.toNat := by
  have hbound : c.toNat < 1114112 := by
    have hvalid := c.valid
    simp only [UInt32.isValidChar, Nat.isValidChar, Char.toNat_val] at hvalid
    omega
  simp only [String.utf8EncodeChar, Char.toNat_val]
  split_ifs with hone htwo hthree
  · exact ⟨0, 0, .one (by omega), by simp [continuationBytes]⟩
  · refine ⟨1, 192, .two (by omega) (by omega), ?_⟩
    rw [Nat.mod_eq_of_lt (a := c.toNat / 64) (by omega)]
    simp [continuationBytes]
  · refine ⟨2, 224, .three (by omega) (by omega), ?_⟩
    rw [Nat.mod_eq_of_lt (a := c.toNat / 4096) (by omega)]
    simp [continuationBytes]
  · refine ⟨3, 240, .four (by omega) hbound, ?_⟩
    rw [Nat.mod_eq_of_lt (a := c.toNat / 262144) (by omega)]
    simp [continuationBytes]

namespace IsWrittenWith

theorem lead_lt (h : IsWrittenWith n count mark) : n / 64 ^ count + mark < 256 := by
  cases h <;> simp only [Nat.pow_zero, Nat.reducePow] <;> omega

/-- The first bytes of two code points tell them apart, or the digits after them do. -/
theorem lead_lt_or (hm : IsWrittenWith m count mark) (hn : IsWrittenWith n count' mark')
    (h : m < n) : m / 64 ^ count + mark < n / 64 ^ count' + mark' ∨
      count = count' ∧ m / 64 ^ count + mark = n / 64 ^ count' + mark' ∧
        m % 64 ^ count < n % 64 ^ count := by
  cases hm <;> cases hn <;> simp only [Nat.pow_zero, Nat.reducePow, true_and] <;> omega

end IsWrittenWith

/-- The bytes of a smaller code point come first, whatever follows. -/
theorem compare_utf8EncodeChar (h : c < d) :
    compare (String.utf8EncodeChar c ++ rest) (String.utf8EncodeChar d ++ rest') = .lt := by
  obtain ⟨count, mark, hwritten, hc⟩ := exists_isWrittenWith c
  obtain ⟨count', mark', hwritten', hd⟩ := exists_isWrittenWith d
  rw [hc, hd, List.cons_append, List.cons_append, List.compare_cons_cons,
    compare_ofNat hwritten.lead_lt hwritten'.lead_lt]
  rcases hwritten.lead_lt_or hwritten' (UInt32.lt_iff_toNat_lt.1 h) with
    hlead | ⟨rfl, hlead, hdigits⟩
  · rw [Nat.compare_eq_lt.2 hlead, Ordering.lt_then]
  · rw [hlead, compare_self, Ordering.eq_then]
    exact compare_continuationBytes hdigits

end CodePoints

section Texts

theorem compare_append_left (bytes : List UInt8) {rest rest' : List UInt8} :
    compare (bytes ++ rest) (bytes ++ rest') = compare rest rest' := by
  induction bytes with
  | nil => rfl
  | cons byte bytes ih =>
    rw [List.cons_append, List.cons_append, List.compare_cons_cons, compare_self,
      Ordering.eq_then, ih]

/-- The bytes of a smaller text come first. -/
theorem compare_flatMap_utf8EncodeChar {chars others : List Char} (h : chars < others) :
    compare (chars.flatMap String.utf8EncodeChar) (others.flatMap String.utf8EncodeChar) = .lt := by
  induction chars generalizing others with
  | nil =>
    cases others with
    | nil => exact absurd h (List.lt_irrefl _)
    | cons d others =>
      obtain ⟨byte, bytes, heq⟩ := List.exists_cons_of_ne_nil (String.utf8EncodeChar_ne_nil (c := d))
      simp [heq]
  | cons c chars ih =>
    cases others with
    | nil => exact absurd h (List.not_lt_nil _)
    | cons d others =>
      rw [List.flatMap_cons, List.flatMap_cons]
      rcases List.cons_lt_cons_iff.1 h with hlt | ⟨rfl, hlt⟩
      · exact compare_utf8EncodeChar hlt
      · rw [compare_append_left]
        exact ih hlt

theorem toList_toUTF8 (text : String) :
    text.toUTF8.data.toList = text.toList.flatMap String.utf8EncodeChar := by
  have htext : text.toUTF8 = text.toList.utf8Encode := by
    rw [String.toUTF8_eq_toByteArray, ← String.toByteArray_ofList, String.ofList_toList]
  rw [htext, List.utf8Encode, List.toList_data_toByteArray]

/-- Texts are in the order of their bytes. -/
theorem compare_toUTF8 (a b : String) :
    compare a.toUTF8.data.toList b.toUTF8.data.toList = compare a b := by
  rw [toList_toUTF8, toList_toUTF8]
  change _ = compareOfLessAndEq a b
  unfold compareOfLessAndEq
  split_ifs with hlt heq
  · exact compare_flatMap_utf8EncodeChar hlt
  · rw [heq, compare_self]
  · have hgt : b < a := Std.lt_of_le_of_ne (String.not_lt.1 hlt) (Ne.symm heq)
    exact OrientedCmp.gt_of_lt (compare_flatMap_utf8EncodeChar hgt)

end Texts

end KeyedStore
