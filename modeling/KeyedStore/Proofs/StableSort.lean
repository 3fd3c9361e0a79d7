import KeyedStore.StableSort
import Mathlib.Data.List.Basic

/-!
# Sorted lists

Sorting by a comparison gives an ascending list in which equal members keep their order, provided
that the comparison is transitive on the members. Sorting by keys gives a list that is strictly
ascending where no two keys are the same.
-/
namespace KeyedStore

open Std

variable {α κ : Type}

/-- Whether a comparison is transitive on the members of a list. -/
def IsTransOn (cmp : α → α → Ordering) (xs : List α) : Prop :=
  ∀ a ∈ xs, ∀ b ∈ xs, ∀ c ∈ xs, (cmp a b).isLE → (cmp b c).isLE → (cmp a c).isLE

theorem IsTransOn.mono {cmp : α → α → Ordering} {xs ys : List α} (h : IsTransOn cmp ys)
    (hsubset : xs ⊆ ys) : IsTransOn cmp xs :=
  fun a ha b hb c hc => h a (hsubset ha) b (hsubset hb) c (hsubset hc)

theorem isTransOn (cmp : α → α → Ordering) [TransCmp cmp] (xs : List α) : IsTransOn cmp xs :=
  fun _ _ _ _ _ _ => TransCmp.isLE_trans

/-- A comparison in which a second one decides between equal members is transitive if both are. -/
theorem IsTransOn.then {cmp cmp' : α → α → Ordering} [OrientedCmp cmp] {xs : List α}
    (h : IsTransOn cmp xs) (h' : IsTransOn cmp' xs) :
    IsTransOn (fun a b => (cmp a b).then (cmp' a b)) xs := by
  have hle (o o' : Ordering) : (o.then o').isLE ↔ o = .lt ∨ o = .eq ∧ o'.isLE := by
    cases o <;> simp
  intro a ha b hb c hc hab hbc
  rw [hle] at hab hbc ⊢
  have hisLE {x y : α} (hxy : cmp x y = .lt ∨ cmp x y = .eq ∧ (cmp' x y).isLE) :
      (cmp x y).isLE := by
    obtain hlt | ⟨heq, -⟩ := hxy <;> simp [*]
  have hac := h a ha b hb c hc (hisLE hab) (hisLE hbc)
  cases hcompare : cmp a c with
  | lt => exact .inl rfl
  | gt => simp [hcompare] at hac
  | eq =>
    -- What lies between equal members is equal to them.
    have hca : (cmp c a).isLE := by simp [OrientedCmp.eq_symm hcompare]
    have hba := h b hb c hc a ha (hisLE hbc) hca
    have hcb := h c hc a ha b hb hca (hisLE hab)
    have heq {x y : α} (hyx : (cmp y x).isLE)
        (hxy : cmp x y = .lt ∨ cmp x y = .eq ∧ (cmp' x y).isLE) : (cmp' x y).isLE := by
      obtain hlt | ⟨-, hle⟩ := hxy
      · simp [OrientedCmp.gt_of_lt hlt] at hyx
      · exact hle
    exact .inr ⟨rfl, h' a ha b hb c hc (heq hba hab) (heq hcb hbc)⟩

section Ascending

variable {cmp : α → α → Ordering} [OrientedCmp cmp] {xs : List α}

theorem pairwise_insertDescending {x : α} (htrans : IsTransOn cmp (x :: xs))
    (h : xs.Pairwise fun a b => (cmp b a).isLE) :
    (insertDescending (fun a b => (cmp a b).isLT) x xs).Pairwise fun a b => (cmp b a).isLE := by
  induction xs with
  | nil => simp [insertDescending]
  | cons y rest ih =>
    obtain ⟨hfirst, hrest⟩ := List.pairwise_cons.1 h
    unfold insertDescending
    split
    case isTrue hless =>
      refine List.pairwise_cons.2 ⟨?_, ih (htrans.mono (by simp)) hrest⟩
      intro z hz
      rcases List.mem_cons.1 ((insertDescending_perm _ x rest).mem_iff.1 hz) with rfl | hz
      · simp_all
      · exact hfirst z hz
    case isFalse hless =>
      have hxy : (cmp y x).isLE := by
        cases hcompare : cmp x y with
        | lt => simp [hcompare] at hless
        | eq => simp [OrientedCmp.eq_symm hcompare]
        | gt => simp [OrientedCmp.lt_of_gt hcompare]
      refine List.pairwise_cons.2 ⟨?_, h⟩
      intro z hz
      rcases List.mem_cons.1 hz with rfl | hz
      · exact hxy
      · exact htrans z (by simp [hz]) y (by simp) x (by simp) (hfirst z hz) hxy

/-- A sorted list is ascending. -/
theorem pairwise_stableSort (htrans : IsTransOn cmp xs) :
    (stableSort (fun a b => (cmp a b).isLT) xs).Pairwise fun a b => (cmp a b).isLE := by
  have hfold (pending sorted : List α) (htrans : IsTransOn cmp (pending ++ sorted))
      (h : sorted.Pairwise fun a b => (cmp b a).isLE) :
      (pending.foldl (fun sorted x => insertDescending (fun a b => (cmp a b).isLT) x sorted)
        sorted).Pairwise fun a b => (cmp b a).isLE := by
    induction pending generalizing sorted with
    | nil => exact h
    | cons x rest ih =>
      refine ih _ (htrans.mono fun y hy => ?_)
        (pairwise_insertDescending (htrans.mono (by simp)) h)
      have hmem := (insertDescending_perm (fun a b => (cmp a b).isLT) x sorted).mem_iff (a := y)
      simp only [List.mem_append, hmem, List.mem_cons] at hy ⊢
      grind
  exact List.pairwise_reverse.2 (hfold xs [] (by simpa using htrans) .nil)

end Ascending

section Stable

variable {less : α → α → Bool} {p : α → Bool} {x : α} {xs : List α}

/-- An element is put in front of all those that it is not less than. -/
theorem filter_insertDescending (hless : p x → ∀ y ∈ xs, p y → less x y = false) :
    (insertDescending less x xs).filter p = (x :: xs).filter p := by
  induction xs with
  | nil => rfl
  | cons y rest ih =>
    have hrest := ih fun hx z hz => hless hx z (List.mem_cons_of_mem y hz)
    unfold insertDescending
    split
    case isTrue hxy =>
      -- Here the element is put behind another one, so not both of them are filtered for.
      have hnot : ¬(p x ∧ p y) := by
        rintro ⟨hx, hy⟩
        simp [hless hx y List.mem_cons_self hy] at hxy
      rw [List.filter_cons, hrest]
      cases hx : p x <;> cases hy : p y <;> simp_all
    case isFalse => rfl

/-- Elements none of which is less than another one keep their order. -/
theorem filter_stableSort (hless : ∀ a ∈ xs, ∀ b ∈ xs, p a → p b → less a b = false) :
    (stableSort less xs).filter p = xs.filter p := by
  have hfold (pending sorted : List α)
      (h : ∀ a ∈ pending ++ sorted, ∀ b ∈ pending ++ sorted, p a → p b → less a b = false) :
      (pending.foldl (fun sorted x => insertDescending less x sorted) sorted).filter p =
        (pending.filter p).reverse ++ sorted.filter p := by
    induction pending generalizing sorted with
    | nil => rfl
    | cons x rest ih =>
      have hmem (y : α) : y ∈ rest ++ insertDescending less x sorted ↔ y ∈ x :: rest ++ sorted := by
        simp only [List.mem_append, (insertDescending_perm less x sorted).mem_iff, List.mem_cons]
        grind
      have hinsert : (insertDescending less x sorted).filter p = (x :: sorted).filter p :=
        filter_insertDescending fun hx y hy => h x (by simp) y (by simp [hy]) hx
      rw [List.foldl_cons, ih _ fun a ha b hb => h a ((hmem a).1 ha) b ((hmem b).1 hb), hinsert]
      cases hx : p x <;> simp [hx]
  have hall := hfold xs [] (by simpa using hless)
  rw [stableSort, List.filter_reverse, hall]
  simp

end Stable

/-- Keys that are not the same are sorted strictly. -/
theorem pairwise_lt_stableSort [Ord κ] [TransOrd κ] (key : α → κ) {xs : List α}
    (h : xs.Pairwise fun a b => compare (key a) (key b) ≠ .eq) :
    (stableSort (fun a b => (compare (key a) (key b)).isLT) xs).Pairwise
      fun a b => compare (key a) (key b) = .lt := by
  have hne := (stableSort_perm (fun a b => (compare (key a) (key b)).isLT) xs).symm.pairwise h
    fun hab hba => hab (OrientedCmp.eq_symm hba)
  have hle := pairwise_stableSort (isTransOn (compareOn key) xs)
  refine List.Pairwise.imp₂ ?_ hle hne
  intro a b hle hne
  unfold compareOn at hle
  cases hcompare : compare (key a) (key b) <;> simp_all

end KeyedStore
