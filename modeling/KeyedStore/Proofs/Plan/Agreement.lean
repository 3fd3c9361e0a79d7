import KeyedStore.Proofs.Memory.Access
import KeyedStore.Proofs.Plan.Completeness
import KeyedStore.Proofs.Plan.KeyTerms

/-!
# Queries and scans of one filter

What a query selects with its key condition and keeps with its filter are the items that have the
key attributes and for which all conditions hold.
-/
namespace KeyedStore

/-- The placeholders of a selection. -/
def Selection.placeholders (selection : Selection) : Placeholders where
  names := selection.names
  values := selection.values

/-- Whether an attribute is compared in the key condition of a selection. -/
def Selection.IsKeyedBy (selection : Selection) (name : String) : Prop :=
  ∃ e ∈ selection.keyConditions, ∃ operand ∈ e.operands,
    selection.placeholders.attribute? operand = some name

/-- Whether the values of an item are comparable where the key condition of a selection compares
them. -/
def Selection.Suits (selection : Selection) (schema : Schema) (filter : Filter) (item : Item) :
    Prop :=
  ∀ c ∈ filter.conditions, selection.IsKeyedBy c.1 → ∀ value, item.get? c.1 = some value →
    c.2.restriction.IsComparable schema c.1 value

theorem Restriction.IsRendered.exists_attribute? {schema : Schema} {placeholders : Placeholders}
    {name : String} {r : Restriction} {e : Expr} (h : r.IsRendered schema placeholders name e) :
    ∃ operand ∈ e.operands, placeholders.attribute? operand = some name := by
  cases h with
  | compare hpath | between hpath | member hpath => exact ⟨_, List.mem_cons_self, hpath⟩

namespace Schema

variable {schema : Schema} {filter : Filter} {selection : Selection} {item : Item}

/-- A condition that is no bare list asks the same of a sort key as of any other attribute. -/
theorem asked_eq_restriction {c : String × Condition} (h : ∀ values, c.2 ≠ .list values) :
    schema.asked filter c = c.2.restriction := by
  unfold asked
  split
  · obtain ⟨name, condition⟩ := c
    cases condition with
    | equals value | range first last | inSet values => rfl
    | operator op value => cases op <;> rfl
    | list values => exact absurd rfl (h values)
  · rfl

/-- The conditions of a query are rendered as what they ask. -/
theorem renderings_of_compileQuery (hlist : ∀ c ∈ filter.conditions, ∀ values, c.2 ≠ .list values)
    (h : schema.compileQuery filter = .ok selection) : ∃ exprs,
      Renderings schema {} (filter.conditions.map fun c => (c.1, c.2.restriction)) exprs
        selection.placeholders ∧
      (selection.keyConditions ++ selection.filters).Perm exprs := by
  obtain ⟨⟨fragments, after⟩, hrender, h⟩ := bind_eq_ok_iff.1 h
  cases h
  obtain ⟨hrenderings, -⟩ := renderings_renderFragments Placeholders.isSound_empty hrender
  have hasked : (filter.conditions.map fun c => (c.1, schema.asked filter c)) =
      filter.conditions.map fun c => (c.1, c.2.restriction) :=
    List.map_congr_left fun c hmem => by rw [asked_eq_restriction (hlist c hmem)]
  exact ⟨_, hasked ▸ hrenderings, Fragment.select_perm fragments after⟩

/-- A filter that can be compiled for a query can be compiled for a scan. -/
theorem exists_compileScan (hlist : ∀ c ∈ filter.conditions, ∀ values, c.2 ≠ .list values)
    (h : schema.compileQuery filter = .ok selection) :
    ∃ scan, schema.compileScan filter = .ok scan := by
  obtain ⟨exprs, hrenderings, -⟩ := renderings_of_compileQuery hlist h
  have hnone : filter.conditions.find? (fun c => decide c.2.IsEmptySet) = none := by
    refine List.find?_eq_none.2 fun c hmem hempty => ?_
    obtain ⟨e, -, hrendered⟩ := hrenderings.exists_rendering (List.mem_map_of_mem hmem)
    have hmember : c.2.restriction = .member [] :=
      Condition.restriction_of_isEmptySet (of_decide_eq_true hempty)
    rw [hmember] at hrendered
    cases hrendered with
    | member hpath hne hvalues => exact hne rfl
  obtain ⟨⟨filters, after⟩, hrender⟩ := exists_renderFilters schema {} hnone
  exact ⟨_, by rw [compileScan, hrender, ok_bind]⟩

/-- Every condition holds if all the expressions that a query sends are true. -/
theorem verdict_iff_of_compileQuery
    (hlist : ∀ c ∈ filter.conditions, ∀ values, c.2 ≠ .list values)
    (h : schema.compileQuery filter = .ok selection) :
    Filter.verdict schema item filter.conditions = .ok true ↔
      ∀ e ∈ selection.keyConditions ++ selection.filters,
        selection.bindings.evaluate item e = .ok true := by
  obtain ⟨exprs, hrenderings, hperm⟩ := renderings_of_compileQuery hlist h
  rw [← hrenderings.evaluateAll item, Bindings.evaluateAll_eq_true_iff]
  exact forall_congr' fun e => by rw [hperm.mem_iff]; rfl

/-- A term of the key condition holds where its expression is true. -/
theorem termHolds_iff_of_compileQuery
    (hlist : ∀ c ∈ filter.conditions, ∀ values, c.2 ≠ .list values)
    (h : schema.compileQuery filter = .ok selection) (hsuits : selection.Suits schema filter item)
    {e : Expr} (hmem : e ∈ selection.keyConditions) {result : String × SortCondition}
    (hterm : KeyCondition.ofTerm selection.bindings e = .ok result) :
    KeyCondition.TermHolds selection.bindings item e ↔
      selection.bindings.evaluate item e = .ok true := by
  obtain ⟨exprs, hrenderings, hperm⟩ := renderings_of_compileQuery hlist h
  obtain ⟨r, hr, hrendered⟩ :=
    hrenderings.exists_isRendered (hperm.mem_iff.1 (List.mem_append_left _ hmem))
  obtain ⟨c, hc, rfl⟩ := List.mem_map.1 hr
  obtain ⟨operand, hoperand, hattribute⟩ := hrendered.exists_attribute?
  have hkeyed : selection.IsKeyedBy c.1 := ⟨e, hmem, operand, hoperand, hattribute⟩
  obtain ⟨hname, hmeets⟩ := Placeholders.meets_iff hrenderings.isSound hrendered hterm
    (hsuits c hc hkeyed)
  have hvalue : selection.bindings.evaluate item e =
      c.2.restriction.verdict schema c.1 (item.get? c.1) :=
    Placeholders.evaluate_of_isRendered hrenderings.isSound hrendered
  rw [hvalue, ← hmeets, ← hname]
  constructor
  · rintro ⟨name, condition, hterm', hholds⟩
    rw [hterm] at hterm'
    cases hterm'
    exact hholds
  · exact fun hholds => ⟨_, _, hterm, hholds⟩

/-- The expressions of a query can be read back from their texts. -/
theorem isLexical_of_compileQuery (hlist : ∀ c ∈ filter.conditions, ∀ values, c.2 ≠ .list values)
    (h : schema.compileQuery filter = .ok selection) :
    ∀ e ∈ selection.keyConditions ++ selection.filters, e.IsLexical ∧ e.level = 3 := by
  obtain ⟨exprs, hrenderings, hperm⟩ := renderings_of_compileQuery hlist h
  exact fun e hmem => hrenderings.isLexical e (hperm.mem_iff.1 hmem)

/-- The key condition of a query is read back as its terms. -/
theorem conjuncts_of_compileQuery (hlist : ∀ c ∈ filter.conditions, ∀ values, c.2 ≠ .list values)
    (h : schema.compileQuery filter = .ok selection) {expr : Expr}
    (hparse : MemoryStore.parseOptional selection.keyCondition = .ok (some expr)) :
    expr.conjuncts = selection.keyConditions := by
  have hterms := Expr.terms_conjunction? fun e hmem =>
    isLexical_of_compileQuery hlist h e (List.mem_append_left _ hmem)
  have htext : (Expr.conjunction? selection.keyConditions).map Expr.print =
      selection.keyCondition := rfl
  rw [htext] at hterms
  cases hkey : selection.keyCondition with
  | none =>
    rw [hkey] at hparse
    cases hparse
  | some text =>
    rw [hkey] at hparse hterms
    obtain ⟨e, he, heq⟩ := map_eq_ok_iff.1 (mapError_eq_ok_iff.1 hparse)
    cases heq
    simpa [Expr.terms, he] using hterms

/-- The filter that a query sends is true where all its parts are. -/
theorem filter_of_compileQuery (item : Item) (hnodup : (filter.conditions.map (·.1)).Nodup)
    (hlist : ∀ c ∈ filter.conditions, ∀ values, c.2 ≠ .list values)
    (h : schema.compileQuery filter = .ok selection) {expr : Option Expr}
    (hparse : MemoryStore.parseOptional selection.filter = .ok expr) :
    expr.all (fun e => (selection.bindings.evaluate item e).toOption = some true) ↔
      ∀ e ∈ selection.filters, selection.bindings.evaluate item e = .ok true := by
  obtain ⟨exprs, hrenderings, hperm⟩ := renderings_of_compileQuery hlist h
  have hsent : selection.filter = (Expr.conjunction? selection.filters).map Expr.print := by
    have hnames : selection.names.length = filter.attributes.length := hrenderings.length_names
    unfold Selection.filter
    split
    case isTrue => rfl
    case isFalse hcount =>
      rcases keepsFilters_of_nodup hnodup h with hnone | hmore
      · rw [hnone]
        rfl
      · omega
  cases hfilters : selection.filters with
  | nil =>
    rw [hsent, hfilters] at hparse
    cases hparse
    simp
  | cons first rest =>
    have hconjunction : Expr.conjunction? selection.filters = some (rest.foldl .and first) := by
      rw [hfilters]
      rfl
    have hlexical := fun e hmem =>
      (isLexical_of_compileQuery hlist h e (List.mem_append_right _ hmem)).1
    have hread := Expr.parse_conjunction? hlexical hconjunction
    rw [hsent, hconjunction] at hparse
    obtain ⟨e, he, rfl⟩ := map_eq_ok_iff.1 (mapError_eq_ok_iff.1 hparse)
    rw [hread] at he
    cases he
    rw [← hfilters, ← Bindings.evaluateAll_eq_true_iff,
      ← Bindings.evaluate_conjunction? hconjunction]
    simp [toOption_eq_some_iff]

variable {name : String} {table : MemoryTable} {pageSize : Nat} {access : Access}

/-- A query selects and keeps the items that have all key attributes, for which all terms of the key
condition hold and on which all parts of the filter are true. -/
theorem matching_iff_terms_of_compileQuery (hnodup : (filter.conditions.map (·.1)).Nodup)
    (hlist : ∀ c ∈ filter.conditions, ∀ values, c.2 ≠ .list values)
    (h : schema.compileQuery filter = .ok selection)
    (haccess : (PageRequest.query (selection.toQuery name)).access table pageSize = .ok access) :
    ∃ keys, table.keySchemaFor selection.index = .ok keys ∧
      (∀ e ∈ selection.keyConditions, ∃ result,
        KeyCondition.ofTerm selection.bindings e = .ok result) ∧
      ∀ item, (item ∈ access.matching table ∧ access.keeps item ↔
        item ∈ table.storage.allItems ∧ (∀ attr ∈ keys.names, item.contains attr) ∧
        (∀ e ∈ selection.keyConditions, KeyCondition.TermHolds selection.bindings item e) ∧
        ∀ e ∈ selection.filters, selection.bindings.evaluate item e = .ok true) := by
  obtain ⟨limit, keys, keyExpr, expr, condition, -, hkeys, hkeyExpr, hexpr, hcondition, rfl⟩ :=
    PageRequest.access_query_eq_ok_iff.1 haccess
  have hterms := conjuncts_of_compileQuery hlist h hkeyExpr
  have hresolved := KeyCondition.exists_ofTerm_of_resolve hcondition
  rw [hterms] at hresolved
  refine ⟨keys, hkeys, hresolved, fun item => ?_⟩
  have hmatching : item ∈ (Access.ofQuery table (selection.toQuery name) limit keys expr
      condition).matching table ↔ item ∈ table.storage.allItems ∧ condition.accepts keys item :=
    List.mem_filter
  have hkeeps : (Access.ofQuery table (selection.toQuery name) limit keys expr condition).keeps
      item ↔ ∀ e ∈ selection.filters, selection.bindings.evaluate item e = .ok true :=
    filter_of_compileQuery item hnodup hlist h hexpr
  rw [hmatching, hkeeps, KeyCondition.accepts_iff hcondition, hterms]
  tauto

/-- A scan selects and keeps the items for which all conditions hold. -/
theorem matching_iff_of_compileScan (h : schema.compileScan filter = .ok selection)
    (haccess : (PageRequest.scan (selection.toScan name)).access table pageSize = .ok access)
    (item : Item) : item ∈ access.matching table ∧ access.keeps item ↔
      item ∈ table.storage.allItems ∧ Filter.verdict schema item filter.conditions = .ok true := by
  obtain ⟨limit, index, expr, -, hindex, hexpr, rfl⟩ :=
    PageRequest.access_scan_eq_ok_iff.1 haccess
  have hnone : (selection.toScan name).index = none := by
    obtain ⟨fragments, -, h⟩ := bind_eq_ok_iff.1 h
    cases h
    rfl
  rw [hnone] at hindex
  cases hindex
  have hall : (Access.ofScan table (selection.toScan name) limit none expr).matching table =
      table.storage.allItems := List.filter_eq_self.2 fun _ _ => rfl
  rw [hall]
  refine and_congr_right fun _ => ?_
  by_cases hempty : filter.conditions = []
  · rw [compileScan, hempty] at h
    cases h
    cases hexpr
    rw [hempty]
    exact iff_of_true rfl rfl
  · obtain ⟨text, e, htext, hparse, heval⟩ := exists_filter_of_compileScan h hempty
    have hread : MemoryStore.parseOptional (selection.toScan name).filter = .ok (some e) := by
      rw [show (selection.toScan name).filter = some text from htext]
      simp only [MemoryStore.parseOptional, hparse]
      rfl
    obtain rfl : expr = some e := Except.ok.inj (hexpr.symm.trans hread)
    rw [← heval item]
    exact decide_eq_true_iff.trans toOption_eq_some_iff

/-- A query selects and keeps the items that have all key attributes and for which all conditions
hold. -/
theorem matching_iff_of_compileQuery (hnodup : (filter.conditions.map (·.1)).Nodup)
    (hlist : ∀ c ∈ filter.conditions, ∀ values, c.2 ≠ .list values)
    (h : schema.compileQuery filter = .ok selection)
    (haccess : (PageRequest.query (selection.toQuery name)).access table pageSize = .ok access) :
    ∃ keys, table.keySchemaFor selection.index = .ok keys ∧
      ∀ item, (item ∈ table.storage.allItems → selection.Suits schema filter item) →
        (item ∈ access.matching table ∧ access.keeps item ↔
          item ∈ table.storage.allItems ∧ (∀ attr ∈ keys.names, item.contains attr) ∧
            Filter.verdict schema item filter.conditions = .ok true) := by
  obtain ⟨keys, hkeys, hresolved, hmatching⟩ :=
    matching_iff_terms_of_compileQuery hnodup hlist h haccess
  refine ⟨keys, hkeys, fun item hsuits => (hmatching item).trans ?_⟩
  rw [verdict_iff_of_compileQuery hlist h, List.forall_mem_append]
  refine and_congr_right fun hmem => and_congr_right fun _ => and_congr_left fun _ => ?_
  refine forall₂_congr fun e he => ?_
  obtain ⟨result, hresult⟩ := hresolved e he
  exact termHolds_iff_of_compileQuery hlist h (hsuits hmem) he hresult

end Schema

end KeyedStore
