import KeyedStore.Memory.KeyHash
import KeyedStore.Proofs.Memory.KeyOrder
import KeyedStore.Proofs.Text.ByteOrder

/-!
# Hashes and order of key values

Key values feed the same to a hasher exactly if they are the same key. Values of different types
differ in the first byte; texts and binaries feed their content, in whose order they are; numbers
feed the bits of a floating point value, which tell apart what the total order of these values does.
-/
namespace KeyedStore

open Std

namespace Binary64

variable {x y : Binary64}

theorem toNat_bits (x : Binary64) :
    x.bits.toNat = x.negative.toNat * Nat.pow 2 63 + x.magnitude := by
  have hmagnitude := x.magnitude_lt
  have hsign := x.negative.toNat_le
  refine UInt64.toNat_ofNat_of_lt' ?_
  simp only [Nat.pow_eq, Nat.reducePow, UInt64.size] at *
  omega

/-- The bits tell all values apart, also those that are no numbers and the two zeros. -/
theorem bits_inj : x.bits = y.bits ↔ x = y := by
  refine ⟨fun h => ?_, fun h => h ▸ rfl⟩
  have hbits := congrArg UInt64.toNat h
  rw [toNat_bits, toNat_bits] at hbits
  obtain ⟨negative, magnitude, hx⟩ := x
  obtain ⟨negative', magnitude', hy⟩ := y
  cases negative <;> cases negative' <;> simp at hbits hx hy ⊢ <;> omega

end Binary64

section Words

variable {m n count : Nat} {layout : ByteOrder} {word other : UInt64}

theorem eq_of_lowBytes_eq (hm : m < 256 ^ count) (hn : n < 256 ^ count)
    (h : lowBytes count m = lowBytes count n) : m = n := by
  induction count generalizing m n with
  | zero => omega
  | succ count ih =>
    obtain ⟨hbyte, hrest⟩ := List.cons.inj h
    rw [Nat.pow_succ] at hm hn
    have hquotient : m / 256 = n / 256 := ih (by omega) (by omega) hrest
    have hremainder : m % 256 = n % 256 := by
      simpa using congrArg UInt8.toNat hbyte
    omega

theorem ByteOrder.bytes_inj : layout.bytes word = layout.bytes other ↔ word = other := by
  refine ⟨fun h => ?_, fun h => h ▸ rfl⟩
  have hlow : lowBytes 8 word.toNat = lowBytes 8 other.toNat := by
    cases layout with
    | littleEndian => exact h
    | bigEndian => exact List.reverse_inj.1 h
  exact UInt64.toNat_inj.1 (eq_of_lowBytes_eq word.toNat_lt other.toNat_lt hlow)

end Words

namespace KeyValue

variable {a b : KeyValue} {layout : ByteOrder}

/-- Values that are the same key are equal, or spellings of one number. -/
theorem same_cases (h : a.same b) :
    a = b ∨ ∃ text other, a = number text ∧ b = number other ∧ numeral text = numeral other := by
  have heq : a.order b = .eq := same_iff.1 h
  cases a <;> cases b <;> simp_all [order, rank, Binary64.totalCompare_eq_eq_iff]

/-- Values that are the same key leave every hasher in the same state. -/
theorem feed_congr {σ : Type} (hasher : Hasher σ) (state : σ) (h : a.same b) :
    a.feed hasher state = b.feed hasher state := by
  rcases same_cases h with rfl | ⟨text, other, rfl, rfl, hnumeral⟩
  · rfl
  · simp only [feed, rank, hnumeral]

theorem cases_of_rank_eq (h : a.rank = b.rank) :
    (∃ text other, a = string text ∧ b = string other) ∨
      (∃ text other, a = number text ∧ b = number other) ∨
        (∃ bytes others, a = binary bytes ∧ b = binary others) ∨ a = sentinel ∧ b = sentinel := by
  cases a <;> cases b <;> simp_all [rank]

theorem order_of_rank_ne (h : a.rank ≠ b.rank) : a.order b = compare a.rank b.rank := by
  cases a <;> cases b <;> first
    | rfl
    | exact absurd rfl h

theorem exists_fedBytes_eq_cons (layout : ByteOrder) (a : KeyValue) :
    ∃ content, a.fedBytes layout = .ofNat a.rank :: content := by
  cases a <;> exact ⟨_, rfl⟩

/-- Values of different types are in the order of their first bytes. -/
theorem compare_fedBytes_of_rank_ne (h : a.rank ≠ b.rank) :
    compare (a.fedBytes layout) (b.fedBytes layout) = compare a.rank b.rank := by
  have hrank (value : KeyValue) : value.rank < 256 := by cases value <;> simp [rank]
  obtain ⟨content, ha⟩ := exists_fedBytes_eq_cons layout a
  obtain ⟨content', hb⟩ := exists_fedBytes_eq_cons layout b
  rw [ha, hb, List.compare_cons_cons, compare_ofNat (hrank a) (hrank b)]
  cases hcompare : compare a.rank b.rank with
  | lt => rfl
  | eq => exact absurd (Nat.compare_eq_eq.1 hcompare) h
  | gt => rfl

/-- Values that are not both numbers are in the order of the bytes that they feed. -/
theorem order_eq_compare_fedBytes (h : ¬∃ text other, a = number text ∧ b = number other) :
    a.order b = compare (a.fedBytes layout) (b.fedBytes layout) := by
  by_cases hrank : a.rank = b.rank
  · have hcons (byte : UInt8) (bytes others : List UInt8) :
        compare (byte :: bytes) (byte :: others) = compare bytes others :=
      compare_append_left [byte]
    rcases cases_of_rank_eq hrank with
      ⟨text, other, rfl, rfl⟩ | hnumbers | ⟨bytes, others, rfl, rfl⟩ | ⟨rfl, rfl⟩
    · exact (compare_toUTF8 text other).symm.trans (hcons ..).symm
    · exact absurd hnumbers h
    · exact (hcons 2 bytes others).symm
    · rfl
  · rw [order_of_rank_ne hrank, compare_fedBytes_of_rank_ne hrank]

/-- The hash and the order tell the same values apart. -/
theorem same_iff_fedBytes_eq : a.same b ↔ a.fedBytes layout = b.fedBytes layout := by
  refine ⟨feed_congr _ _, fun h => same_iff.2 ?_⟩
  change a.order b = .eq
  by_cases hnumbers : ∃ text other, a = number text ∧ b = number other
  · obtain ⟨text, other, rfl, rfl⟩ := hnumbers
    have hbits : (numeral text).bits = (numeral other).bits :=
      ByteOrder.bytes_inj.1 (List.cons.inj h).2
    exact Binary64.totalCompare_eq_eq_iff.2 (Binary64.bits_inj.1 hbits)
  · rw [order_eq_compare_fedBytes hnumbers, h, compare_self]

/-- Texts that are no numerals are one key, and the two zeros are two. -/
example : (number "five").same (number "NaN") ∧ ¬(number "0").same (number "-0") := by
  decide +kernel

end KeyValue

end KeyedStore
