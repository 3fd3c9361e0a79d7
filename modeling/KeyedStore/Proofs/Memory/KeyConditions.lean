import KeyedStore.Memory.KeyCondition
import KeyedStore.Proofs.Except

/-!
# Resolved key conditions

An item is accepted by a key condition if all terms of the expression hold for it and it has the key
attributes. Each term is used once, for the hash value or for the range.
-/
namespace KeyedStore

theorem KeySchema.mem_names {schema : KeySchema} {name : String} : name ∈ schema.names ↔
    name = schema.partition.name ∨ ∃ key, schema.sort = some key ∧ key.name = name := by
  simp [names, attributes]

namespace KeyCondition

variable {schema : KeySchema} {bindings : Bindings} {found after : Found} {item : Item}
  {name : String} {condition : SortCondition} {resolved : KeyCondition} {expr : Expr}

/-- Whether the value of an attribute meets a condition. -/
def meets (name : String) (condition : SortCondition) (item : Item) : Bool :=
  ((item.get? name).bind fun value => (KeyValue.ofAttribute name value).toOption).any
    condition.accepts

theorem contains_of_meets (h : meets name condition item) : item.contains name := by
  unfold meets at h
  unfold OrderedMap.contains
  cases hget : item.get? name with
  | none => simp [hget] at h
  | some value => rfl

/-- Whether a term of a key condition holds for an item. -/
def TermHolds (bindings : Bindings) (item : Item) (term : Expr) : Prop :=
  ∃ name condition, ofTerm bindings term = .ok (name, condition) ∧ meets name condition item

/-- Whether an item meets what has been found among the terms of a key condition. -/
structure Found.Holds (schema : KeySchema) (found : Found) (item : Item) : Prop where
  partition : ∀ value, found.partition = some value →
    meets schema.partition.name (.eq value) item
  sort : ∀ condition key, found.sort = some condition → schema.sort = some key →
    meets key.name condition item

/-- A term that is added is the first equality on the hash or the first condition on the range. -/
theorem Found.add_eq_ok (h : found.add schema name condition = .ok after) :
    (∃ value, condition = .eq value ∧ name = schema.partition.name ∧ found.partition = none ∧
      after = { found with partition := some value }) ∨
    (∃ key, schema.sort = some key ∧ key.name = name ∧ found.sort = none ∧
      after = { found with sort := some condition }) := by
  have hrange (h : (if schema.sort.any (·.name == name) && found.sort.isNone then
      .ok { found with sort := some condition }
      else .error (.validation ("Query key condition not supported on attribute: " ++ name)) :
        Except StoreError Found) = .ok after) :
      ∃ key, schema.sort = some key ∧ key.name = name ∧ found.sort = none ∧
        after = { found with sort := some condition } := by
    split at h
    case isTrue hsort =>
      cases h
      obtain ⟨hname, hnone⟩ := Bool.and_eq_true_iff.1 hsort
      obtain ⟨key, hkey, heq⟩ := (Option.any_eq_true _ _).1 hname
      exact ⟨key, hkey, eq_of_beq heq, Option.isNone_iff_eq_none.1 hnone, rfl⟩
    case isFalse => cases h
  unfold Found.add at h
  cases condition with
  | eq value =>
    simp only at h
    split at h
    case isTrue hpartition =>
      cases h
      exact .inl ⟨value, rfl, hpartition.1, hpartition.2, rfl⟩
    case isFalse => exact .inr (hrange h)
  | lt _ | le _ | gt _ | ge _ | between _ _ | beginsWith _ => exact .inr (hrange h)

theorem Found.holds_add (h : found.add schema name condition = .ok after) :
    after.Holds schema item ↔ found.Holds schema item ∧ meets name condition item := by
  rcases add_eq_ok h with ⟨value, rfl, rfl, hnone, rfl⟩ | ⟨key, hkey, rfl, hnone, rfl⟩
  · constructor
    · intro hholds
      refine ⟨⟨?_, hholds.sort⟩, hholds.partition value rfl⟩
      intro other hother
      simp [hnone] at hother
    · rintro ⟨hholds, hmeets⟩
      refine ⟨?_, hholds.sort⟩
      intro other hother
      cases hother
      exact hmeets
  · constructor
    · intro hholds
      refine ⟨⟨hholds.partition, ?_⟩, hholds.sort condition key rfl hkey⟩
      intro other key' hother
      simp [hnone] at hother
    · rintro ⟨hholds, hmeets⟩
      refine ⟨hholds.partition, ?_⟩
      intro other key' hother hkey'
      cases hother
      obtain rfl : key = key' := by simpa [hkey] using hkey'
      exact hmeets

/-- What is found among terms holds if all of them do. -/
theorem holds_foldlM {terms : List Expr} (item : Item)
    (h : terms.foldlM (addTerm schema bindings) found = .ok after) :
    after.Holds schema item ↔
      found.Holds schema item ∧ ∀ term ∈ terms, TermHolds bindings item term := by
  induction terms generalizing found with
  | nil =>
    cases h
    simp
  | cons term rest ih =>
    rw [List.foldlM_cons] at h
    obtain ⟨next, hadd, h⟩ := bind_eq_ok_iff.1 h
    obtain ⟨⟨name, condition⟩, hterm, hadd⟩ := bind_eq_ok_iff.1 hadd
    have hmeets : TermHolds bindings item term ↔ meets name condition item := by
      constructor
      · rintro ⟨name', condition', hterm', hmeets⟩
        rw [hterm] at hterm'
        cases hterm'
        exact hmeets
      · exact fun hmeets => ⟨name, condition, hterm, hmeets⟩
    rw [ih h, Found.holds_add hadd, List.forall_mem_cons, hmeets, and_assoc]

theorem exists_ofTerm_of_foldlM {terms : List Expr}
    (h : terms.foldlM (addTerm schema bindings) found = .ok after) :
    ∀ term ∈ terms, ∃ result, ofTerm bindings term = .ok result := by
  induction terms generalizing found with
  | nil => simp
  | cons term rest ih =>
    rw [List.foldlM_cons] at h
    obtain ⟨next, hadd, h⟩ := bind_eq_ok_iff.1 h
    obtain ⟨result, hterm, -⟩ := bind_eq_ok_iff.1 hadd
    exact List.forall_mem_cons.2 ⟨⟨result, hterm⟩, ih h⟩

/-- Every part of a key condition is a term. -/
theorem exists_ofTerm_of_resolve (h : resolve schema bindings expr = .ok resolved) :
    ∀ term ∈ expr.conjuncts, ∃ result, ofTerm bindings term = .ok result := by
  obtain ⟨found, hfound, -⟩ := bind_eq_ok_iff.1 h
  exact exists_ofTerm_of_foldlM hfound

theorem same_eq (value other : KeyValue) :
    value.same other = (SortCondition.eq other).accepts value := by
  show (value.order other == .eq) = (value.order other).isEq
  cases value.order other <;> rfl

theorem accepts_eq (resolved : KeyCondition) (schema : KeySchema) (item : Item) :
    resolved.accepts schema item = (meets schema.partition.name (.eq resolved.partition) item &&
      schema.sort.all fun key =>
        match resolved.sort with
        | some condition => meets key.name condition item
        | none => item.contains key.name) := by
  unfold accepts
  simp only [same_eq]
  cases schema.sort <;> cases resolved.sort <;> rfl

/-- An item is accepted if all terms hold for it and it has the key attributes. -/
theorem accepts_iff (h : resolve schema bindings expr = .ok resolved) :
    resolved.accepts schema item ↔ (∀ term ∈ expr.conjuncts, TermHolds bindings item term) ∧
      ∀ name ∈ schema.names, item.contains name := by
  obtain ⟨found, hfound, h⟩ := bind_eq_ok_iff.1 h
  have hempty : Found.Holds schema {} item := ⟨nofun, nofun⟩
  have hterms := (holds_foldlM item hfound).trans (and_iff_right hempty)
  rw [← hterms, accepts_eq]
  cases hpartition : found.partition with
  | none => simp [hpartition] at h
  | some partition =>
    simp only [hpartition] at h
    cases h
    constructor
    · intro haccepts
      obtain ⟨hhash, hrange⟩ := Bool.and_eq_true_iff.1 haccepts
      refine ⟨⟨fun value hvalue => ?_, fun condition key hsort hkey => ?_⟩, ?_⟩
      · obtain rfl : partition = value := by simpa [hpartition] using hvalue
        exact hhash
      · simpa [hkey, hsort] using hrange
      · intro name hname
        rcases KeySchema.mem_names.1 hname with rfl | ⟨key, hkey, rfl⟩
        · exact contains_of_meets hhash
        · cases hsort : found.sort with
          | none => simpa [hkey, hsort] using hrange
          | some condition => exact contains_of_meets (by simpa [hkey, hsort] using hrange)
    · rintro ⟨hholds, hnames⟩
      refine Bool.and_eq_true_iff.2 ⟨hholds.partition partition hpartition, ?_⟩
      apply (Option.all_eq_true _ _).2
      intro key hkey
      cases hsort : found.sort with
      | none => exact hnames key.name (KeySchema.mem_names.2 (.inr ⟨key, hkey, rfl⟩))
      | some condition => exact hholds.sort condition key hsort hkey

end KeyCondition

end KeyedStore
