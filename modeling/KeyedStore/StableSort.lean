/-!
# Stable sorting

Sorting by insertion: each element in turn is put after the last one it is not less than.
-/
namespace KeyedStore

/-- Puts an element into a list in descending order, before the first one it is not less than. -/
def insertDescending {α : Type} (less : α → α → Bool) (x : α) : List α → List α
  | [] => [x]
  | y :: rest => if less x y then y :: insertDescending less x rest else x :: y :: rest

/-- Sorts a list in ascending order and keeps the order of elements that are not less than one
another. -/
def stableSort {α : Type} (less : α → α → Bool) (xs : List α) : List α :=
  (xs.foldl (fun sorted x => insertDescending less x sorted) []).reverse

theorem insertDescending_perm {α : Type} (less : α → α → Bool) (x : α) (xs : List α) :
    (insertDescending less x xs).Perm (x :: xs) := by
  induction xs with
  | nil => exact .refl _
  | cons y rest ih =>
    unfold insertDescending
    split
    · exact (ih.cons y).trans (.swap x y rest)
    · exact .refl _

theorem foldl_insertDescending_perm {α : Type} (less : α → α → Bool) (xs sorted : List α) :
    (xs.foldl (fun sorted x => insertDescending less x sorted) sorted).Perm (xs ++ sorted) := by
  induction xs generalizing sorted with
  | nil => exact .refl _
  | cons x rest ih =>
    exact (ih _).trans (((insertDescending_perm less x sorted).append_left rest).trans
      List.perm_middle)

/-- Sorting loses and adds nothing. -/
theorem stableSort_perm {α : Type} (less : α → α → Bool) (xs : List α) :
    (stableSort less xs).Perm xs := by
  simpa [stableSort] using
    (List.reverse_perm _).trans (foldl_insertDescending_perm less xs [])

end KeyedStore
