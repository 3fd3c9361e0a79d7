import KeyedStore.Proofs.Plan.Agreement

/-!
# Conditions in keys and in filters

A plan compares some attributes in its key condition and all others in its filter. Each condition of
a filter is used once, so the items of a plan are told by the conditions one by one: a condition in
the key condition holds as keys are compared, all others as values are.
-/
namespace KeyedStore

open KeyCondition

/-- The condition on a key value that a comparison with another one is. -/
def Comparison.sortCondition? (value : KeyValue) : Comparison → Option SortCondition
  | .eq => some (.eq value)
  | .lt => some (.lt value)
  | .le => some (.le value)
  | .gt => some (.gt value)
  | .ge => some (.ge value)
  | .ne => none

namespace Restriction

/-- Whether a restriction holds for an item in the way in which keys are compared. -/
def KeyHolds (schema : Schema) (name : String) (item : Item) : Restriction → Prop
  | compare op json => ∃ value condition,
      KeyValue.ofAttribute name (schema.bound name json) = .ok value ∧
      op.sortCondition? value = some condition ∧ meets name condition item
  | between first last => ∃ low high,
      KeyValue.ofAttribute name (schema.bound name first) = .ok low ∧
      KeyValue.ofAttribute name (schema.bound name last) = .ok high ∧
      meets name (.between low high) item
  | member _ => False

/-- Whether a value of an item, if it can be a key, is comparable for a restriction. -/
def ComparesKeys (schema : Schema) (name : String) (item : Item) (r : Restriction) : Prop :=
  ∀ value key, item.get? name = some value → KeyValue.ofAttribute name value = .ok key →
    r.IsComparable schema name value

variable {schema : Schema} {placeholders : Placeholders} {name attr : String} {r : Restriction}
  {e : Expr} {operand : Operand} {item : Item} {result : String × SortCondition}

theorem IsRendered.head_attribute? (h : r.IsRendered schema placeholders name e) :
    e.operands.head?.bind placeholders.attribute? = some name := by
  cases h with
  | compare hpath | between hpath | member hpath => exact hpath

theorem attribute?_eq_none_of_value? {json : Json} (h : placeholders.value? operand = some json) :
    placeholders.attribute? operand = none := by
  cases operand with
  | path text => cases h
  | value text => rfl

/-- A rendered restriction names its attribute and no other one. -/
theorem IsRendered.eq_of_attribute? (h : r.IsRendered schema placeholders name e)
    (hmem : operand ∈ e.operands) (hattr : placeholders.attribute? operand = some attr) :
    attr = name := by
  have hvalue {json : Json} (hjson : placeholders.value? operand = some json) : attr = name := by
    simp [attribute?_eq_none_of_value? hjson] at hattr
  have hpath (h : placeholders.attribute? operand = some name) : attr = name :=
    Option.some.inj (hattr.symm.trans h)
  cases h with
  | compare hp hv =>
    simp only [Expr.operands, List.mem_cons, List.not_mem_nil, or_false] at hmem
    rcases hmem with rfl | rfl
    · exact hpath hp
    · exact hvalue hv
  | between hp hlow hhigh =>
    simp only [Expr.operands, List.mem_cons, List.not_mem_nil, or_false] at hmem
    rcases hmem with rfl | rfl | rfl
    · exact hpath hp
    · exact hvalue hlow
    · exact hvalue hhigh
  | @member path operands values hp hne hvalues =>
    rcases List.mem_cons.1 hmem with rfl | hmem
    · exact hpath hp
    · have hjson : placeholders.value? operand ∈ (values.map (schema.bind name)).map some :=
        hvalues ▸ List.mem_map_of_mem hmem
      obtain ⟨json, -, hjson⟩ := List.mem_map.1 hjson
      exact hvalue hjson.symm

/-- A rendered restriction that is a term of a key condition holds as keys are compared. -/
theorem IsRendered.termHolds_iff (hsound : placeholders.IsSound)
    (h : r.IsRendered schema placeholders name e)
    (hterm : ofTerm placeholders.bindings e = .ok result) :
    TermHolds placeholders.bindings item e ↔ r.KeyHolds schema name item := by
  have hholds : TermHolds placeholders.bindings item e ↔ meets result.1 result.2 item := by
    constructor
    · rintro ⟨name', condition', hterm', hmeets⟩
      obtain rfl : result = (name', condition') := Except.ok.inj (hterm.symm.trans hterm')
      exact hmeets
    · exact fun hmeets => ⟨result.1, result.2, hterm, hmeets⟩
  rw [hholds]
  cases h with
  | @compare path operand op json hpath hvalue =>
    rw [ofTerm, Placeholders.keyPath_of_attribute? hsound hpath, ok_bind] at hterm
    obtain ⟨value, hkey, hterm⟩ := bind_eq_ok_iff.1 hterm
    have hbound := Placeholders.keyValue_of_value? hvalue hkey
    cases op <;> cases hterm <;> simp [KeyHolds, hbound, Comparison.sortCondition?]
  | @between path low high first last hpath hlow hhigh =>
    rw [ofTerm, Placeholders.keyPath_of_attribute? hsound hpath, ok_bind] at hterm
    obtain ⟨x, hx, hterm⟩ := bind_eq_ok_iff.1 hterm
    obtain ⟨y, hy, hterm⟩ := bind_eq_ok_iff.1 hterm
    split at hterm <;> cases hterm
    have hfirst := Placeholders.keyValue_of_value? hlow hx
    have hlast := Placeholders.keyValue_of_value? hhigh hy
    simp [KeyHolds, hfirst, hlast]
  | member hpath hne hvalues => cases hterm

/-- A value that cannot be a key is in no order. -/
theorem compare?_eq_none_of_ofAttribute {value other : AttributeValue} {error : StorageError}
    (h : KeyValue.ofAttribute name value = .error error) : value.compare? other = none := by
  cases value <;> first | cases h; done | rfl

theorem not_keyHolds_of_ofAttribute {value : AttributeValue} {error : StorageError}
    (hget : item.get? name = some value) (h : KeyValue.ofAttribute name value = .error error) :
    ¬r.KeyHolds schema name item := by
  have hmeets (condition : SortCondition) : ¬meets name condition item := by
    simp [meets, hget, h, Except.toOption]
  cases r with
  | compare op json =>
    rintro ⟨-, condition, -, -, hholds⟩
    exact hmeets condition hholds
  | between first last =>
    rintro ⟨low, high, -, -, hholds⟩
    exact hmeets _ hholds
  | member values => exact id

/-- A value that cannot be a key meets no restriction that orders or bounds values. -/
theorem verdict_ne_true_of_ofAttribute {value : AttributeValue} {error : StorageError}
    (h : KeyValue.ofAttribute name value = .error error)
    (hr : (∃ op json, op ≠ .eq ∧ op ≠ .ne ∧ r = .compare op json) ∨
      ∃ first last, r = .between first last) :
    r.verdict schema name (some value) ≠ .ok true := by
  have hnone (other : AttributeValue) : value.compare? other = none :=
    compare?_eq_none_of_ofAttribute h
  rcases hr with ⟨op, json, heq, hne, rfl⟩ | ⟨first, last, rfl⟩
  · cases op <;> first | contradiction | simp [Restriction.verdict, AttributeValue.satisfies, hnone]
  · unfold Restriction.verdict Bindings.between
    simp only
    split <;> simp [AttributeValue.satisfies, hnone]

/-- A rendered restriction that is a term of a key condition holds as values are compared, if the
value of the item is comparable. -/
theorem IsRendered.keyHolds_iff_verdict (hsound : placeholders.IsSound)
    (h : r.IsRendered schema placeholders name e)
    (hterm : ofTerm placeholders.bindings e = .ok result)
    (hdata : r.ComparesKeys schema name item) :
    r.KeyHolds schema name item ↔ r.verdict schema name (item.get? name) = .ok true := by
  have hmeets (hcomparable : ∀ value, item.get? name = some value →
      r.IsComparable schema name value) :
      r.KeyHolds schema name item ↔ r.verdict schema name (item.get? name) = .ok true := by
    obtain ⟨hname, hmeets⟩ := Placeholders.meets_iff hsound h hterm hcomparable
    rw [← h.termHolds_iff hsound hterm, ← hmeets, ← hname]
    constructor
    · rintro ⟨name', condition', hterm', hholds⟩
      obtain rfl : result = (name', condition') := Except.ok.inj (hterm.symm.trans hterm')
      exact hholds
    · exact fun hholds => ⟨_, _, hterm, hholds⟩
  cases hget : item.get? name with
  | none => exact hget ▸ hmeets (by simp [hget])
  | some value =>
    cases hkey : KeyValue.ofAttribute name value with
    | ok key =>
      refine hget ▸ hmeets fun other hother => ?_
      obtain rfl : value = other := Option.some.inj (hget.symm.trans hother)
      exact hdata value key hget hkey
    | error error =>
      have hnot : ¬r.KeyHolds schema name item := not_keyHolds_of_ofAttribute hget hkey
      cases h with
      | @compare path operand op json hpath hvalue =>
        by_cases heq : op = .eq
        · subst heq
          refine hget ▸ hmeets fun other hother a b hnumber _ => ?_
          obtain rfl : value = other := Option.some.inj (hget.symm.trans hother)
          simp [hnumber, KeyValue.ofAttribute] at hkey
        · have hne : op ≠ .ne := by
            rintro rfl
            rw [ofTerm, Placeholders.keyPath_of_attribute? hsound hpath, ok_bind] at hterm
            obtain ⟨key, -, hterm⟩ := bind_eq_ok_iff.1 hterm
            cases hterm
          exact iff_of_false hnot
            (verdict_ne_true_of_ofAttribute hkey (.inl ⟨op, _, heq, hne, rfl⟩))
      | between =>
        exact iff_of_false hnot (verdict_ne_true_of_ofAttribute hkey (.inr ⟨_, _, rfl⟩))
      | member => cases hterm

end Restriction

namespace Renderings

variable {schema : Schema} {before after : Placeholders} {asked : List (String × Restriction)}
  {exprs : List Expr}

/-- The expressions name the attributes of the restrictions, in order. -/
theorem map_attribute? (h : Renderings schema before asked exprs after) :
    exprs.map (fun e => e.operands.head?.bind after.attribute?) =
      (asked.map (·.1)).map some := by
  have hrendered := h.areRendered
  clear h
  induction hrendered with
  | nil => rfl
  | cons hfirst _ ih => simp only [List.map_cons, ih, hfirst.head_attribute?]

end Renderings

namespace Schema

variable {schema : Schema} {filter : Filter} {selection : Selection} {item : Item}
  {c : String × Condition} {e other : Expr}

/-- How the expressions of a query belong to the conditions of a filter: each of them renders a
condition, each condition is rendered, and no attribute is named by two expressions. -/
structure RendersAll (schema : Schema) (filter : Filter) (selection : Selection) : Prop where
  isSound : selection.placeholders.IsSound
  exists_condition : ∀ e ∈ selection.keyConditions ++ selection.filters, ∃ c ∈ filter.conditions,
    c.2.restriction.IsRendered schema selection.placeholders c.1 e
  exists_rendering : ∀ c ∈ filter.conditions, ∃ e ∈ selection.keyConditions ++ selection.filters,
    c.2.restriction.IsRendered schema selection.placeholders c.1 e
  nodup : ((selection.keyConditions ++ selection.filters).map fun e =>
    e.operands.head?.bind selection.placeholders.attribute?).Nodup

theorem rendersAll_of_compileQuery (hnodup : (filter.conditions.map (·.1)).Nodup)
    (hlist : ∀ c ∈ filter.conditions, ∀ values, c.2 ≠ .list values)
    (h : schema.compileQuery filter = .ok selection) : schema.RendersAll filter selection := by
  obtain ⟨exprs, hrenderings, hperm⟩ := renderings_of_compileQuery hlist h
  refine ⟨hrenderings.isSound, fun e hmem => ?_, fun c hc => ?_, ?_⟩
  · obtain ⟨r, hr, hrendered⟩ := hrenderings.exists_isRendered (hperm.mem_iff.1 hmem)
    obtain ⟨c, hc, rfl⟩ := List.mem_map.1 hr
    exact ⟨c, hc, hrendered⟩
  · obtain ⟨e, he, hrendered⟩ := hrenderings.exists_rendering (List.mem_map_of_mem hc)
    exact ⟨e, hperm.mem_iff.2 he, hrendered⟩
  · refine (hperm.map _).nodup_iff.2 ?_
    have hnames : (filter.conditions.map fun c => (c.1, c.2.restriction)).map (·.1) =
        filter.conditions.map (·.1) := List.map_map
    rw [hrenderings.map_attribute?, hnames]
    exact hnodup.map fun _ _ => Option.some.inj

namespace RendersAll

variable (h : schema.RendersAll filter selection)
include h

/-- A condition on an attribute of the key condition is rendered there. -/
theorem exists_keyCondition (hnodup : (filter.conditions.map (·.1)).Nodup)
    (hc : c ∈ filter.conditions) (hkeyed : selection.IsKeyedBy c.1) :
    ∃ e ∈ selection.keyConditions,
      c.2.restriction.IsRendered schema selection.placeholders c.1 e := by
  obtain ⟨e, he, operand, hoperand, hattribute⟩ := hkeyed
  obtain ⟨c', hc', hrendered⟩ := h.exists_condition e (List.mem_append_left _ he)
  have hname := hrendered.eq_of_attribute? hoperand hattribute
  obtain rfl : c = c' := List.inj_on_of_nodup_map hnodup hc hc' hname
  exact ⟨e, he, hrendered⟩

/-- What is left to the filter is not compared in the key condition. -/
theorem not_isKeyedBy (hnodup : (filter.conditions.map (·.1)).Nodup)
    (hc : c ∈ filter.conditions) (he : e ∈ selection.filters)
    (hrendered : c.2.restriction.IsRendered schema selection.placeholders c.1 e) :
    ¬selection.IsKeyedBy c.1 := by
  intro hkeyed
  obtain ⟨other, hother, hrendered'⟩ := h.exists_keyCondition hnodup hc hkeyed
  have hname := hrendered.head_attribute?.trans hrendered'.head_attribute?.symm
  have heq : e = other := List.inj_on_of_nodup_map h.nodup (List.mem_append_right _ he)
    (List.mem_append_left _ hother) hname
  subst heq
  exact List.disjoint_of_nodup_append h.nodup.of_map hother he

end RendersAll

end Schema

/-- Whether a condition holds for an item in the way in which a selection uses it. -/
def Selection.Holds (selection : Selection) (schema : Schema) (item : Item)
    (c : String × Condition) : Prop :=
  (selection.IsKeyedBy c.1 → c.2.restriction.KeyHolds schema c.1 item) ∧
    (¬selection.IsKeyedBy c.1 → c.2.verdict schema item c.1 = .ok true)

namespace Schema

variable {schema : Schema} {filter : Filter} {selection : Selection} {item : Item}
  {c : String × Condition}

/-- The terms of a key condition hold and the parts of the filter are true where each condition
holds as it is used. -/
theorem RendersAll.terms_iff (h : schema.RendersAll filter selection)
    (hnodup : (filter.conditions.map (·.1)).Nodup)
    (hresolved : ∀ e ∈ selection.keyConditions, ∃ result,
      ofTerm selection.bindings e = .ok result) :
    (∀ e ∈ selection.keyConditions, TermHolds selection.bindings item e) ∧
      (∀ e ∈ selection.filters, selection.bindings.evaluate item e = .ok true) ↔
    ∀ c ∈ filter.conditions, selection.Holds schema item c := by
  have hterm {c : String × Condition} {e : Expr} (he : e ∈ selection.keyConditions)
      (hrendered : c.2.restriction.IsRendered schema selection.placeholders c.1 e) :
      TermHolds selection.bindings item e ↔ c.2.restriction.KeyHolds schema c.1 item := by
    obtain ⟨result, hresult⟩ := hresolved e he
    exact hrendered.termHolds_iff h.isSound hresult
  have hvalue {c : String × Condition} {e : Expr}
      (hrendered : c.2.restriction.IsRendered schema selection.placeholders c.1 e) :
      selection.bindings.evaluate item e = c.2.verdict schema item c.1 := by
    rw [Condition.verdict_eq]
    exact Placeholders.evaluate_of_isRendered h.isSound hrendered
  constructor
  · rintro ⟨hkey, hfilters⟩ c hc
    refine ⟨fun hkeyed => ?_, fun hkeyed => ?_⟩
    · obtain ⟨e, he, hrendered⟩ := h.exists_keyCondition hnodup hc hkeyed
      exact (hterm he hrendered).1 (hkey e he)
    · obtain ⟨e, he, hrendered⟩ := h.exists_rendering c hc
      rcases List.mem_append.1 he with he | he
      · obtain ⟨operand, hoperand, hattribute⟩ := hrendered.exists_attribute?
        exact absurd ⟨e, he, operand, hoperand, hattribute⟩ hkeyed
      · rw [← hvalue hrendered]
        exact hfilters e he
  · intro hholds
    refine ⟨fun e he => ?_, fun e he => ?_⟩
    · obtain ⟨c, hc, hrendered⟩ := h.exists_condition e (List.mem_append_left _ he)
      obtain ⟨operand, hoperand, hattribute⟩ := hrendered.exists_attribute?
      exact (hterm he hrendered).2 ((hholds c hc).1 ⟨e, he, operand, hoperand, hattribute⟩)
    · obtain ⟨c, hc, hrendered⟩ := h.exists_condition e (List.mem_append_right _ he)
      rw [hvalue hrendered]
      exact (hholds c hc).2 (h.not_isKeyedBy hnodup hc he hrendered)

/-- A condition on an attribute of the key condition holds as values are compared, if the value of
the item is comparable. -/
theorem RendersAll.keyHolds_iff_verdict (h : schema.RendersAll filter selection)
    (hnodup : (filter.conditions.map (·.1)).Nodup)
    (hresolved : ∀ e ∈ selection.keyConditions, ∃ result, ofTerm selection.bindings e = .ok result)
    (hc : c ∈ filter.conditions) (hkeyed : selection.IsKeyedBy c.1)
    (hdata : c.2.restriction.ComparesKeys schema c.1 item) :
    c.2.restriction.KeyHolds schema c.1 item ↔ c.2.verdict schema item c.1 = .ok true := by
  obtain ⟨e, he, hrendered⟩ := h.exists_keyCondition hnodup hc hkeyed
  obtain ⟨result, hresult⟩ := hresolved e he
  rw [Condition.verdict_eq]
  exact hrendered.keyHolds_iff_verdict h.isSound hresult hdata

end Schema

section TwoSchemas

variable {schema schema' : Schema} {name : String} {item : Item} {r : Restriction}

theorem Restriction.keyHolds_congr (h : ∀ json, schema.bound name json = schema'.bound name json) :
    r.KeyHolds schema name item ↔ r.KeyHolds schema' name item := by
  cases r <;> simp only [KeyHolds, h]

theorem Restriction.comparesKeys_congr
    (h : ∀ json, schema.bound name json = schema'.bound name json) :
    r.ComparesKeys schema name item ↔ r.ComparesKeys schema' name item := by
  unfold ComparesKeys
  cases r with
  | compare op json => cases op <;> simp only [IsComparable, h]
  | between first last => simp only [IsComparable, h]
  | member values => simp only [IsComparable]

theorem Condition.verdict_congr (h : ∀ json, schema.bound name json = schema'.bound name json)
    (condition : Condition) :
    condition.verdict schema item name = condition.verdict schema' item name := by
  rw [verdict_eq, verdict_eq]
  cases condition.restriction <;> simp only [Restriction.verdict, h]

end TwoSchemas

end KeyedStore
