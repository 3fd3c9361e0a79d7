import KeyedStore.Memory.KeyValue

/-!
# Hashes of key values

What a key value feeds to the hasher of a hash map: the place of its type, then its content. A
number feeds the bits of its floating point value and not its text, so that spellings of one value
feed the same.
-/
namespace KeyedStore

/-- The bits of a value, the sign above the magnitude. -/
def Binary64.bits (x : Binary64) : UInt64 :=
  .ofNat (x.negative.toNat * Nat.pow 2 63 + x.magnitude)

/-- How a machine lays out the bytes of a word. -/
inductive ByteOrder where
  | littleEndian
  | bigEndian
  deriving DecidableEq

/-- The lowest bytes of a number, the least significant first. -/
def lowBytes : Nat → Nat → List UInt8
  | 0, _ => []
  | count + 1, n => .ofNat n :: lowBytes count (n / 256)

/-- The bytes of a word. -/
def ByteOrder.bytes (layout : ByteOrder) (word : UInt64) : List UInt8 :=
  match layout with
  | littleEndian => lowBytes 8 word.toNat
  | bigEndian => (lowBytes 8 word.toNat).reverse

/-- A hasher with states of a type: what becomes of a state when it is fed. -/
structure Hasher (σ : Type) where
  writeByte : σ → UInt8 → σ
  writeWord : σ → UInt64 → σ
  writeBytes : σ → List UInt8 → σ

/-- The hasher whose state is all that it was fed. -/
def Hasher.record (layout : ByteOrder) : Hasher (List UInt8) where
  writeByte fed byte := fed ++ [byte]
  writeWord fed word := fed ++ layout.bytes word
  writeBytes fed bytes := fed ++ bytes

namespace KeyValue

/-- Feeds a key value to a hasher. -/
def feed {σ : Type} (hasher : Hasher σ) (state : σ) (value : KeyValue) : σ :=
  let typed := hasher.writeByte state (.ofNat value.rank)
  match value with
  | string text => hasher.writeBytes typed text.toUTF8.data.toList
  | number text => hasher.writeWord typed (numeral text).bits
  | binary bytes => hasher.writeBytes typed bytes
  | sentinel => typed

/-- All bytes that a key value feeds to a hasher. -/
def fedBytes (layout : ByteOrder) (value : KeyValue) : List UInt8 :=
  value.feed (.record layout) []

end KeyValue

end KeyedStore
