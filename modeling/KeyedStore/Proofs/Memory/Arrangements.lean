import KeyedStore.Proofs.Memory.TermEvaluation

/-!
# Arrangements of key conditions

The terms of a key condition are an equality on the hash key and at most one condition on the range
key. In which order they stand and how the conjunctions are nested does not matter: one term fills
one place, so two terms can be added in either order.
-/
namespace KeyedStore

variable {schema : KeySchema} {bindings : Bindings} {name : String}

/-- The terms that an expression joins. -/
inductive Expr.Joins : Expr → List Expr → Prop where
  | term {expr : Expr} (h : ∀ left right, expr ≠ .and left right) : Joins expr [expr]
  | and {left right : Expr} {lefts rights : List Expr} (hleft : Joins left lefts)
      (hright : Joins right rights) : Joins (.and left right) (lefts ++ rights)

theorem Expr.joins_conjuncts (expr : Expr) : expr.Joins expr.conjuncts := by
  induction expr with
  | and left right hleft hright => exact .and hleft hright
  | _ => exact .term nofun

theorem Expr.joins_iff {expr : Expr} {terms : List Expr} :
    expr.Joins terms ↔ expr.conjuncts = terms := by
  constructor
  · intro h
    induction h with
    | @term expr hterm =>
      cases expr with
      | and left right => exact absurd rfl (hterm left right)
      | _ => rfl
    | and _ _ hleft hright => rw [conjuncts, hleft, hright]
  · rintro rfl
    exact joins_conjuncts expr

/-- The attribute value that a key value is. -/
def KeyValue.toAttribute? : KeyValue → Option AttributeValue
  | string text => some (.string text)
  | number text => some (.number text)
  | binary bytes => some (.binary bytes)
  | sentinel => none

theorem KeyValue.ofAttribute_eq_ok_iff {value : AttributeValue} {key : KeyValue} :
    ofAttribute name value = .ok key ↔ key.toAttribute? = some value := by
  cases value <;> cases key <;> simp [ofAttribute, toAttribute?, eq_comm]

/-- Whether a placeholder stands for a value that keys are made of. -/
def Bindings.Binds (bindings : Bindings) (placeholder : String) (key : KeyValue) : Prop :=
  ∃ value, key.toAttribute? = some value ∧ bindings.values.get? placeholder = some value

/-- The condition that a comparison to a value is, if it is one on keys. -/
def Comparison.toSort? : Comparison → Option (KeyValue → SortCondition)
  | eq => some .eq
  | lt => some .lt
  | le => some .le
  | gt => some .gt
  | ge => some .ge
  | ne => none

namespace KeyCondition

variable {term : Expr} {condition : SortCondition} {found after : Found} {terms other : List Expr}
  {resolved : KeyCondition} {operand : Operand} {value : KeyValue} {expr : Expr}

/-- Whether a term restricts an attribute to the values that meet a condition. -/
inductive Restricts (bindings : Bindings) : Expr → String → SortCondition → Prop where
  | compare {path placeholder name : String} {op : Comparison} {value : KeyValue}
      {condition : KeyValue → SortCondition} (hpath : bindings.resolve path = .ok name)
      (hvalue : bindings.Binds placeholder value) (hop : op.toSort? = some condition) :
      Restricts bindings (.compare (.path path) op (.value placeholder)) name (condition value)
  | between {path first last name : String} {low high : KeyValue}
      (hpath : bindings.resolve path = .ok name) (hlow : bindings.Binds first low)
      (hhigh : bindings.Binds last high) (hordered : compare low high ≠ .gt) :
      Restricts bindings (.between (.path path) (.value first) (.value last)) name
        (.between low high)
  | beginsWith {path placeholder name text : String} (hpath : bindings.resolve path = .ok name)
      (hvalue : bindings.Binds placeholder (.string text)) :
      Restricts bindings (.call .beginsWith [.path path, .value placeholder]) name
        (.beginsWith text)

theorem keyPath_eq_ok_iff : keyPath bindings operand = .ok name ↔
    ∃ path, operand = .path path ∧ bindings.resolve path = .ok name := by
  refine ⟨exists_path_of_keyPath, ?_⟩
  rintro ⟨path, rfl, hresolve⟩
  exact mapError_eq_ok_iff.2 hresolve

theorem keyValue_eq_ok_iff : keyValue bindings name operand = .ok value ↔
    ∃ placeholder, operand = .value placeholder ∧ bindings.Binds placeholder value := by
  constructor
  · intro h
    obtain ⟨bound, hbound, hoperand⟩ := operand_of_keyValue h
    have hget := hoperand []
    cases operand with
    | path path =>
      obtain ⟨attr, -, hnone⟩ := bind_eq_ok_iff.1 hget
      cases hnone
    | value placeholder =>
      refine ⟨placeholder, rfl, bound, KeyValue.ofAttribute_eq_ok_iff.1 hbound, ?_⟩
      cases hvalue : bindings.values.get? placeholder <;> simp [Bindings.operand, hvalue] at hget
      rw [hget]
  · rintro ⟨placeholder, rfl, bound, hbound, hget⟩
    have hoperand : (bindings.operand [] (.value placeholder)).mapError
        ExpressionError.toStoreError = .ok (some bound) := by
      simp [Bindings.operand, hget, Except.mapError]
    refine bind_eq_ok_iff.2 ⟨some bound, hoperand, mapError_eq_ok_iff.2 ?_⟩
    exact KeyValue.ofAttribute_eq_ok_iff.2 hbound

/-- What a term restricts is read off it, if it restricts an attribute at all. -/
theorem ofTerm_eq_ok_iff :
    ofTerm bindings term = .ok (name, condition) ↔ Restricts bindings term name condition := by
  constructor
  · intro h
    unfold ofTerm at h
    split at h
    case h_1 left op right =>
      simp only [bind_eq_ok_iff, keyPath_eq_ok_iff, keyValue_eq_ok_iff] at h
      obtain ⟨attr, ⟨path, rfl, hpath⟩, value, ⟨placeholder, rfl, hvalue⟩, h⟩ := h
      cases op with
      | ne => cases h
      | eq | lt | le | gt | ge =>
        cases h
        exact .compare hpath hvalue rfl
    case h_2 tested first last =>
      simp only [bind_eq_ok_iff, keyPath_eq_ok_iff, keyValue_eq_ok_iff] at h
      obtain ⟨attr, ⟨path, rfl, hpath⟩, low, ⟨lowest, rfl, hlow⟩, high, ⟨highest, rfl, hhigh⟩,
        h⟩ := h
      split at h
      case isTrue => cases h
      case isFalse hordered =>
        cases h
        exact .between hpath hlow hhigh hordered
    case h_3 target start =>
      simp only [bind_eq_ok_iff, keyPath_eq_ok_iff, keyValue_eq_ok_iff] at h
      obtain ⟨attr, ⟨path, rfl, hpath⟩, value, ⟨placeholder, rfl, hvalue⟩, h⟩ := h
      cases value with
      | string text =>
        cases h
        exact .beginsWith hpath hvalue
      | number _ | binary _ | sentinel => cases h
    case h_4 => cases h
  · have hleft {path name : String} (hpath : bindings.resolve path = .ok name) :
        keyPath bindings (.path path) = .ok name := keyPath_eq_ok_iff.2 ⟨path, rfl, hpath⟩
    have hright {placeholder : String} {value : KeyValue} (name : String)
        (hvalue : bindings.Binds placeholder value) :
        keyValue bindings name (.value placeholder) = .ok value :=
      keyValue_eq_ok_iff.2 ⟨placeholder, rfl, hvalue⟩
    intro h
    cases h with
    | @compare path placeholder _ op value condition hpath hvalue hop =>
      simp only [ofTerm, hleft hpath, hright name hvalue, ok_bind]
      cases op <;> cases hop <;> rfl
    | between hpath hlow hhigh hordered =>
      simp only [ofTerm, hleft hpath, hright name hlow, hright name hhigh, ok_bind, hordered,
        if_false]
    | beginsWith hpath hvalue => simp only [ofTerm, hleft hpath, hright name hvalue, ok_bind]

/-- A term that can be added is an equality on the hash, if there is none yet, or a condition on the
range, if there is none yet. -/
theorem addTerm_eq_ok_iff
    (hne : ∀ key, schema.sort = some key → key.name ≠ schema.partition.name) :
    addTerm schema bindings found term = .ok after ↔
      (∃ value, Restricts bindings term schema.partition.name (.eq value) ∧
        found.partition = none ∧ after = { found with partition := some value }) ∨
      ∃ key condition, schema.sort = some key ∧ Restricts bindings term key.name condition ∧
        found.sort = none ∧ after = { found with sort := some condition } := by
  simp only [← ofTerm_eq_ok_iff]
  constructor
  · intro h
    obtain ⟨⟨name, condition⟩, hterm, hadd⟩ := bind_eq_ok_iff.1 h
    rcases Found.add_eq_ok hadd with ⟨value, rfl, rfl, hfree⟩ | ⟨key, hkey, rfl, hfree⟩
    · exact .inl ⟨value, hterm, hfree⟩
    · exact .inr ⟨key, condition, hkey, hterm, hfree⟩
  · rintro (⟨value, hterm, hfree, rfl⟩ | ⟨key, condition, hkey, hterm, hfree, rfl⟩)
    · simp [addTerm, hterm, Found.add, hfree]
    · cases condition <;> simp [addTerm, hterm, Found.add, hkey, hfree, hne key hkey]

/-- Two terms can be added in either order. -/
theorem addTerm_comm (hne : ∀ key, schema.sort = some key → key.name ≠ schema.partition.name)
    {first second : Expr} {between : Found}
    (hfirst : addTerm schema bindings found first = .ok between)
    (hsecond : addTerm schema bindings between second = .ok after) :
    ∃ between', addTerm schema bindings found second = .ok between' ∧
      addTerm schema bindings between' first = .ok after := by
  simp only [addTerm_eq_ok_iff hne] at hfirst hsecond ⊢
  rcases hfirst with ⟨value, hhash, hfree, rfl⟩ | ⟨key, condition, hkey, hrange, hfree, rfl⟩ <;>
    rcases hsecond with ⟨value', hhash', hfree', rfl⟩ |
      ⟨key', condition', hkey', hrange', hfree', rfl⟩
  · cases hfree'
  · exact ⟨_, .inr ⟨key', condition', hkey', hrange', hfree', rfl⟩, .inl ⟨value, hhash, hfree, rfl⟩⟩
  · exact ⟨_, .inl ⟨value', hhash', hfree', rfl⟩, .inr ⟨key, condition, hkey, hrange, hfree, rfl⟩⟩
  · cases hfree'

/-- What is found among terms does not depend on their order. -/
theorem foldlM_addTerm_perm
    (hne : ∀ key, schema.sort = some key → key.name ≠ schema.partition.name)
    (hperm : terms.Perm other) (h : terms.foldlM (addTerm schema bindings) found = .ok after) :
    other.foldlM (addTerm schema bindings) found = .ok after := by
  induction hperm generalizing found with
  | nil => exact h
  | cons term _ ih =>
    rw [List.foldlM_cons] at h ⊢
    obtain ⟨next, hadd, h⟩ := bind_eq_ok_iff.1 h
    exact bind_eq_ok_iff.2 ⟨next, hadd, ih h⟩
  | swap first second rest =>
    simp only [List.foldlM_cons] at h ⊢
    obtain ⟨between, hsecond, h⟩ := bind_eq_ok_iff.1 h
    obtain ⟨next, hfirst, h⟩ := bind_eq_ok_iff.1 h
    obtain ⟨between', hfirst, hsecond⟩ := addTerm_comm hne hsecond hfirst
    exact bind_eq_ok_iff.2 ⟨between', hfirst, bind_eq_ok_iff.2 ⟨next, hsecond, h⟩⟩
  | trans _ _ ih ih' => exact ih' (ih h)

/-- A key condition whose first term is the equality on the hash. -/
inductive IsArranged (schema : KeySchema) (bindings : Bindings) :
    List Expr → KeyCondition → Prop where
  | hash {equality : Expr} {value : KeyValue}
      (hhash : Restricts bindings equality schema.partition.name (.eq value)) :
      IsArranged schema bindings [equality] ⟨value, none⟩
  | range {equality term : Expr} {value : KeyValue} {key : KeyAttribute}
      {condition : SortCondition}
      (hhash : Restricts bindings equality schema.partition.name (.eq value))
      (hkey : schema.sort = some key) (hrange : Restricts bindings term key.name condition) :
      IsArranged schema bindings [equality, term] ⟨value, some condition⟩

/-- Whether terms make a key condition when they are put in order. -/
def IsRecognized (schema : KeySchema) (bindings : Bindings) (terms : List Expr)
    (resolved : KeyCondition) : Prop :=
  ∃ arranged, terms.Perm arranged ∧ IsArranged schema bindings arranged resolved

/-- Terms in order are taken as they stand. -/
theorem IsArranged.foldlM_addTerm
    (hne : ∀ key, schema.sort = some key → key.name ≠ schema.partition.name)
    (h : IsArranged schema bindings terms resolved) :
    terms.foldlM (addTerm schema bindings) {} =
      .ok { partition := some resolved.partition, sort := resolved.sort } := by
  have hpartition {equality : Expr} {value : KeyValue}
      (hhash : Restricts bindings equality schema.partition.name (.eq value)) :
      addTerm schema bindings {} equality = .ok { partition := some value } :=
    (addTerm_eq_ok_iff hne).2 (.inl ⟨value, hhash, rfl, rfl⟩)
  cases h with
  | hash hhash => simp [hpartition hhash, pure, Except.pure]
  | @range _ term value key condition hhash hkey hrange =>
    have hsort : addTerm schema bindings { partition := some value } term =
        .ok { partition := some value, sort := some condition } :=
      (addTerm_eq_ok_iff hne).2 (.inr ⟨key, condition, hkey, hrange, rfl, rfl⟩)
    simp [hpartition hhash, hsort, pure, Except.pure]

/-- Terms that are found to make a key condition are one on the hash and at most one on the range,
as there is no place for a third term. -/
theorem isRecognized_of_foldlM
    (hne : ∀ key, schema.sort = some key → key.name ≠ schema.partition.name)
    (h : terms.foldlM (addTerm schema bindings) {} = .ok found)
    (hvalue : found.partition = some value) :
    IsRecognized schema bindings terms ⟨value, found.sort⟩ := by
  match terms with
  | [] => cases h; cases hvalue
  | [term] =>
    simp only [List.foldlM_cons, List.foldlM_nil, bind_eq_ok_iff, addTerm_eq_ok_iff hne] at h
    obtain ⟨_, ⟨hash, hhash, -, rfl⟩ | ⟨key, condition, hkey, hrange, -, rfl⟩, h⟩ := h
    · cases h
      cases hvalue
      exact ⟨[term], .refl _, .hash hhash⟩
    · cases h
      cases hvalue
  | [first, second] =>
    simp only [List.foldlM_cons, List.foldlM_nil, bind_eq_ok_iff, addTerm_eq_ok_iff hne] at h
    obtain ⟨_, ⟨hash, hhash, -, rfl⟩ | ⟨key, condition, hkey, hrange, -, rfl⟩, _,
      ⟨hash', hhash', hfree, rfl⟩ | ⟨key', condition', hkey', hrange', hfree, rfl⟩, h⟩ := h
    · cases hfree
    · cases h
      cases hvalue
      exact ⟨[first, second], .refl _, .range hhash hkey' hrange'⟩
    · cases h
      cases hvalue
      exact ⟨[second, first], .swap _ _ _, .range hhash' hkey hrange⟩
    · cases hfree
  | first :: second :: third :: rest =>
    simp only [List.foldlM_cons, bind_eq_ok_iff, addTerm_eq_ok_iff hne] at h
    obtain ⟨_, ⟨hash, -, -, rfl⟩ | ⟨key, condition, -, -, -, rfl⟩, _,
      ⟨hash', -, hfree, rfl⟩ | ⟨key', condition', -, -, hfree, rfl⟩, _,
      ⟨hash'', -, hfree', rfl⟩ | ⟨key'', condition'', -, -, hfree', rfl⟩, h⟩ := h <;>
      contradiction

/-- An expression resolves exactly if the terms that it joins make a key condition. -/
theorem resolve_eq_ok_iff
    (hne : ∀ key, schema.sort = some key → key.name ≠ schema.partition.name) :
    resolve schema bindings expr = .ok resolved ↔
      IsRecognized schema bindings expr.conjuncts resolved := by
  constructor
  · intro h
    obtain ⟨found, hfound, h⟩ := bind_eq_ok_iff.1 h
    cases hvalue : found.partition with
    | none => simp [hvalue] at h
    | some value =>
      simp only [hvalue] at h
      cases h
      exact isRecognized_of_foldlM hne hfound hvalue
  · rintro ⟨arranged, hperm, harranged⟩
    exact bind_eq_ok_iff.2
      ⟨_, foldlM_addTerm_perm hne hperm.symm (harranged.foldlM_addTerm hne), rfl⟩

/-- An expression resolves exactly if its terms are, in some order, one equality on the hash key and
at most one condition on the range key, and to what they say. However the same terms are ordered and
joined, they resolve alike. -/
theorem resolve_recognizes
    (hne : ∀ key, schema.sort = some key → key.name ≠ schema.partition.name)
    (bindings : Bindings) (expr : Expr) :
    ∃ terms, expr.Joins terms ∧
      (∀ resolved, resolve schema bindings expr = .ok resolved ↔
        IsRecognized schema bindings terms resolved) ∧
      ∀ other rearranged, other.Joins rearranged → rearranged.Perm terms →
        ∀ resolved, resolve schema bindings other = .ok resolved ↔
          resolve schema bindings expr = .ok resolved := by
  refine ⟨expr.conjuncts, expr.joins_conjuncts, fun resolved => resolve_eq_ok_iff hne, ?_⟩
  intro other rearranged hjoins hperm resolved
  obtain rfl := Expr.joins_iff.1 hjoins
  rw [resolve_eq_ok_iff hne, resolve_eq_ok_iff hne]
  exact exists_congr fun arranged =>
    and_congr_left' ⟨hperm.symm.trans, hperm.trans⟩

def visitKey : KeySchema := ⟨⟨"owner", .string⟩, some ⟨"due", .number⟩⟩

def visitBindings : Bindings where
  names := [("#O", "owner")]
  values := [(":owner", .string "ann"), (":from", .number "3"), (":to", .number "8")]

def ownedBy : Expr := .compare (.path "#O") .eq (.value ":owner")

def dueBetween : Expr := .between (.path "due") (.value ":from") (.value ":to")

/-- The date may come first. -/
theorem resolve_dueBetween :
    (∀ key, visitKey.sort = some key → key.name ≠ visitKey.partition.name) ∧
    resolve visitKey visitBindings (.and dueBetween ownedBy) =
      .ok ⟨.string "ann", some (.between (.number "3") (.number "8"))⟩ := by
  have hne : ∀ key, visitKey.sort = some key → key.name ≠ visitKey.partition.name := by
    rintro _ ⟨⟩
    decide
  obtain ⟨terms, hjoins, hrecognized, -⟩ :=
    resolve_recognizes hne visitBindings (.and dueBetween ownedBy)
  obtain rfl := Expr.joins_iff.1 hjoins
  have hhash : Restricts visitBindings ownedBy "owner" (.eq (.string "ann")) :=
    .compare rfl ⟨_, rfl, rfl⟩ rfl
  have hrange : Restricts visitBindings dueBetween "due" (.between (.number "3") (.number "8")) :=
    .between rfl ⟨_, rfl, rfl⟩ ⟨_, rfl, rfl⟩ (by decide +kernel)
  exact ⟨hne, (hrecognized _).2 ⟨[ownedBy, dueBetween], .swap _ _ _, .range hhash rfl hrange⟩⟩

end KeyCondition

end KeyedStore
