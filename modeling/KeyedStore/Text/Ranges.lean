/-!
# Character ranges

A property of characters is a table of the ranges of code points that have it, in ascending order.
-/
namespace KeyedStore.Text

/-- Ranges of code points, both ends included. -/
abbrev Ranges := List (Nat × Nat)

/-- Whether a character lies in one of the ranges. -/
def Ranges.has (table : Ranges) (c : Char) : Bool :=
  table.any fun range => range.1 ≤ c.toNat && c.toNat ≤ range.2

end KeyedStore.Text
