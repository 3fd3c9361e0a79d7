/-!
# Computations that may fail

A sequence of computations succeeds if all of them do, and fails as the first one that does not.
-/
namespace KeyedStore

variable {ε α β : Type} {x : Except ε α} {f : α → Except ε β}

@[simp]
theorem ok_bind (a : α) (f : α → Except ε β) : (Except.ok a >>= f) = f a := rfl

@[simp]
theorem error_bind (e : ε) (f : α → Except ε β) : (Except.error e >>= f) = .error e := rfl

theorem bind_eq_ok_iff {b : β} : x >>= f = .ok b ↔ ∃ a, x = .ok a ∧ f a = .ok b := by
  cases x <;> simp

theorem map_eq_ok_iff {g : α → β} {b : β} : g <$> x = .ok b ↔ ∃ a, x = .ok a ∧ g a = b := by
  cases x <;> simp [Functor.map, Except.map]

theorem map_eq_error_iff {g : α → β} {e : ε} : x.map g = .error e ↔ x = .error e := by
  constructor <;> intro h <;> cases x <;> cases h <;> rfl

theorem mapError_eq_ok_iff {ε' : Type} {g : ε → ε'} {a : α} :
    x.mapError g = .ok a ↔ x = .ok a := by
  constructor <;> intro h <;> cases x <;> cases h <;> rfl

theorem toOption_eq_some_iff {a : α} : x.toOption = some a ↔ x = .ok a := by
  constructor <;> intro h <;> cases x <;> cases h <;> rfl

/-- What is true of a result, if there is one, is true of the result that there is. -/
theorem of_all_toOption {p : α → Bool} {a : α} (h : x.toOption.all p) (hx : x = .ok a) : p a := by
  rw [hx] at h
  exact h

/-- Computations for all elements of a list succeed if each of them does. -/
theorem forM_eq_ok_iff {g : α → Except ε Unit} {xs : List α} :
    xs.forM g = .ok () ↔ ∀ x ∈ xs, g x = .ok () := by
  induction xs with
  | nil => exact iff_of_true rfl nofun
  | cons x rest ih =>
    rw [List.forall_mem_cons, ← ih]
    exact bind_eq_ok_iff.trans ⟨fun ⟨(), h⟩ => h, fun h => ⟨(), h⟩⟩

/-- Results that are not used do not matter. -/
theorem forM_void_eq_ok_iff {xs : List α} :
    (xs.forM fun x => do let _ ← f x) = .ok () ↔ ∀ x ∈ xs, ∃ y, f x = .ok y := by
  rw [forM_eq_ok_iff]
  refine forall_congr' fun x => imp_congr_right fun _ => bind_eq_ok_iff.trans ?_
  exact exists_congr fun y => and_iff_left rfl

theorem filterAuxM_eq_ok {p : α → Except ε Bool} {xs before after : List α}
    (h : xs.filterAuxM p before = .ok after) :
    after = (xs.filter fun x => (p x).toOption = some true).reverse ++ before := by
  induction xs generalizing before with
  | nil =>
    cases h
    rfl
  | cons x rest ih =>
    obtain ⟨b, hb, h⟩ := bind_eq_ok_iff.1 h
    rw [ih h]
    cases b <;> simp [hb, Except.toOption]

/-- A filter that succeeds keeps what is true. -/
theorem filterM_eq_ok {p : α → Except ε Bool} {xs kept : List α} (h : xs.filterM p = .ok kept) :
    kept = xs.filter fun x => (p x).toOption = some true := by
  obtain ⟨after, hafter, h⟩ := bind_eq_ok_iff.1 h
  cases h
  simp [filterAuxM_eq_ok hafter]

end KeyedStore
