import KeyedStore.Expression.Evaluation
import KeyedStore.Proofs.Plan.Rendering

/-!
# Meaning of compiled filters

`Condition.verdict` says without any expression what a condition finds of an item, and
`Filter.verdict` asks the conditions one after the other until one does not hold. The filter that
`Schema.compileScan` writes is read back as an expression with the same value for every item.
-/
namespace KeyedStore

/-- The value that a filter compares an attribute with. -/
def Schema.bound (schema : Schema) (name : String) (json : Json) : AttributeValue :=
  (schema.bind name json).toAttribute

/-- What a condition on an attribute finds of an item. An attribute that is absent equals nothing
and has no order. -/
def Condition.verdict (schema : Schema) (item : Item) (name : String) :
    Condition → Except ExpressionError Bool
  | equals value | operator .eq value =>
    .ok ((item.get? name).any fun attr => attr.equals (schema.bound name value))
  | operator .neq value =>
    .ok ((item.get? name).all fun attr => !attr.equals (schema.bound name value))
  | operator .lt value =>
    .ok ((item.get? name).any fun attr => (attr.compare? (schema.bound name value)).any (·.isLT))
  | operator .lte value =>
    .ok ((item.get? name).any fun attr => (attr.compare? (schema.bound name value)).any (·.isLE))
  | operator .gt value =>
    .ok ((item.get? name).any fun attr => (attr.compare? (schema.bound name value)).any (·.isGT))
  | operator .gte value =>
    .ok ((item.get? name).any fun attr => (attr.compare? (schema.bound name value)).any (·.isGE))
  | range first last =>
    let low := schema.bound name first
    let high := schema.bound name last
    match item.get? name with
    | none => .ok false
    | some attr =>
      if low.compare? high = some .gt then
        .error (.invalidOperand "BETWEEN"
          ("lower bound " ++ low.display ++ " is greater than upper bound " ++ high.display))
      else .ok ((attr.compare? low).any (·.isGE) && (attr.compare? high).any (·.isLE))
  | inSet values | list values =>
    .ok ((item.get? name).any fun attr => values.any fun v => attr.equals (schema.bound name v))

/-- What conditions find of an item, in order; the first that does not hold ends the search. -/
def Filter.verdict (schema : Schema) (item : Item) :
    List (String × Condition) → Except ExpressionError Bool
  | [] => .ok true
  | (name, condition) :: rest => do
    if ← condition.verdict schema item name then verdict schema item rest else .ok false

/-- What a restriction finds of the value of its attribute. -/
def Restriction.verdict (schema : Schema) (name : String) (attr : Option AttributeValue) :
    Restriction → Except ExpressionError Bool
  | compare op value =>
    match attr with
    | some attr => .ok (attr.satisfies op (schema.bound name value))
    | none => .ok (op == .ne)
  | between first last =>
    match attr with
    | some attr => Bindings.between attr (schema.bound name first) (schema.bound name last)
    | none => .ok false
  | member values =>
    .ok (attr.any fun attr => values.any fun v => attr.equals (schema.bound name v))

theorem Condition.verdict_eq (schema : Schema) (item : Item) (name : String)
    (condition : Condition) :
    condition.verdict schema item name =
      condition.restriction.verdict schema name (item.get? name) := by
  cases condition with
  | equals value => cases h : item.get? name <;> simp [verdict, restriction, Restriction.verdict,
      h, AttributeValue.satisfies]
  | operator op value => cases op <;> cases h : item.get? name <;> simp [verdict, restriction,
      Operator.comparison, Restriction.verdict, h, AttributeValue.satisfies]
  | range first last => cases h : item.get? name <;> simp [verdict, restriction,
      Restriction.verdict, h, AttributeValue.satisfies, Bindings.between]
  | inSet values | list values => rfl

/-- What the placeholders of an expression stand for. -/
def Placeholders.bindings (placeholders : Placeholders) : Bindings where
  names := placeholders.names
  values := OrderedMap.mapValues Json.toAttribute placeholders.values

namespace Placeholders

variable {placeholders : Placeholders} {schema : Schema} {item : Item} {name : String}

theorem exists_resolve_of_attribute? (hsound : placeholders.IsSound) {operand : Operand}
    (h : placeholders.attribute? operand = some name) :
    ∃ text, operand = .path text ∧ placeholders.bindings.resolve text = .ok name := by
  cases operand with
  | value text => simp [attribute?] at h
  | path text =>
    have hkey : text ∈ placeholders.names.keys :=
      List.mem_map.2 ⟨_, OrderedMap.mem_of_get?_eq_some h, rfl⟩
    obtain ⟨word, htext, -⟩ := hsound.names_marked text hkey
    have hname : placeholders.bindings.names.get? text = some name := h
    exact ⟨text, rfl, by simp only [Bindings.resolve, htext, List.head?_cons, if_true, hname]⟩

theorem operand_of_attribute? (hsound : placeholders.IsSound) {operand : Operand}
    (h : placeholders.attribute? operand = some name) :
    placeholders.bindings.operand item operand = .ok (item.get? name) := by
  obtain ⟨text, rfl, hresolve⟩ := exists_resolve_of_attribute? hsound h
  simp only [Bindings.operand, hresolve]
  rfl

theorem operand_of_value? {operand : Operand} {json : Json}
    (h : placeholders.value? operand = some json) :
    placeholders.bindings.operand item operand = .ok (some json.toAttribute) := by
  cases operand with
  | path text => simp [value?] at h
  | value text =>
    have hvalue : placeholders.bindings.values.get? text = some json.toAttribute := by
      rw [bindings, OrderedMap.get?_mapValues,
        show placeholders.values.get? text = some json from h]
      rfl
    simp only [Bindings.operand, hvalue]

theorem member_of_map_value? {operands : List Operand} {values : List Json}
    (attr : AttributeValue)
    (h : operands.map placeholders.value? = (values.map (schema.bind name)).map some) :
    placeholders.bindings.member item attr operands =
      .ok (values.any fun v => attr.equals (schema.bound name v)) := by
  induction operands generalizing values with
  | nil =>
    obtain rfl : values = [] := by simpa using h
    rfl
  | cons operand operands ih =>
    cases values with
    | nil => simp at h
    | cons value values =>
      obtain ⟨hfirst, hrest⟩ := List.cons.inj h
      rw [Bindings.member, operand_of_value? hfirst, ok_bind, ih hrest]
      by_cases heq : attr.equals (schema.bind name value).toAttribute <;>
        simp [heq, Schema.bound]

/-- A rendered restriction has the value that it finds. -/
theorem evaluate_of_isRendered (hsound : placeholders.IsSound) {r : Restriction} {e : Expr}
    (h : r.IsRendered schema placeholders name e) :
    placeholders.bindings.evaluate item e = r.verdict schema name (item.get? name) := by
  cases h with
  | compare hpath hvalue =>
    simp only [Bindings.evaluate, operand_of_attribute? hsound hpath, operand_of_value? hvalue,
      ok_bind, Restriction.verdict]
    cases item.get? name <;> rfl
  | between hpath hlow hhigh =>
    simp only [Bindings.evaluate, operand_of_attribute? hsound hpath, operand_of_value? hlow,
      operand_of_value? hhigh, ok_bind, Restriction.verdict]
    cases item.get? name <;> rfl
  | member hpath hne hvalues =>
    simp only [Bindings.evaluate, operand_of_attribute? hsound hpath, ok_bind, Restriction.verdict]
    cases item.get? name with
    | none => rfl
    | some attr => exact member_of_map_value? attr hvalues

end Placeholders

namespace Bindings

variable {bindings : Bindings} {item : Item}

/-- The value of a list of conditions; the first that does not hold ends the search. -/
def evaluateAll (bindings : Bindings) (item : Item) : List Expr → Except ExpressionError Bool
  | [] => .ok true
  | e :: rest => do if ← bindings.evaluate item e then evaluateAll bindings item rest else .ok false

theorem evaluateAll_eq_true_iff {exprs : List Expr} :
    bindings.evaluateAll item exprs = .ok true ↔
      ∀ e ∈ exprs, bindings.evaluate item e = .ok true := by
  induction exprs with
  | nil => simp [evaluateAll]
  | cons e rest ih =>
    rw [List.forall_mem_cons, ← ih, evaluateAll]
    cases h : bindings.evaluate item e with
    | error error => simp
    | ok b => cases b <;> simp

/-- A conjunction that is grouped from the left is evaluated from the left. -/
theorem evaluate_foldl_and (first : Expr) (rest : List Expr) :
    bindings.evaluate item (rest.foldl .and first) = bindings.evaluateAll item (first :: rest) := by
  induction rest generalizing first with
  | nil =>
    cases h : bindings.evaluate item first with
    | error e => simp [evaluateAll, h]
    | ok b => cases b <;> simp [evaluateAll, h]
  | cons second rest ih =>
    rw [List.foldl_cons, ih]
    cases h : bindings.evaluate item first with
    | error e => simp [evaluateAll, evaluate, h]
    | ok b => cases b <;> simp [evaluateAll, evaluate, h]

theorem evaluate_conjunction? {exprs : List Expr} {e : Expr}
    (h : Expr.conjunction? exprs = some e) :
    bindings.evaluate item e = bindings.evaluateAll item exprs := by
  cases exprs with
  | nil => cases h
  | cons first rest =>
    cases h
    exact evaluate_foldl_and first rest

end Bindings

/-- Rendered filters have the values that their conditions find. -/
theorem Renderings.evaluateAll {schema : Schema} {before after : Placeholders}
    {conditions : List (String × Condition)} {exprs : List Expr}
    (h : Renderings schema before (conditions.map fun c => (c.1, c.2.restriction)) exprs after)
    (item : Item) :
    after.bindings.evaluateAll item exprs = Filter.verdict schema item conditions := by
  obtain ⟨hsound, -, hrendered, -, -⟩ := h
  rw [List.forall₂_map_left_iff] at hrendered
  induction hrendered with
  | nil => rfl
  | @cons condition e conditions exprs hfirst _ ih =>
    rw [Bindings.evaluateAll, Filter.verdict, Placeholders.evaluate_of_isRendered hsound hfirst, ih,
      Condition.verdict_eq]

/-- All conditions hold if each of them does. -/
theorem Filter.verdict_eq_true_iff {schema : Schema} {item : Item}
    {conditions : List (String × Condition)} :
    Filter.verdict schema item conditions = .ok true ↔
      ∀ c ∈ conditions, c.2.verdict schema item c.1 = .ok true := by
  induction conditions with
  | nil => simp [Filter.verdict]
  | cons c rest ih =>
    rw [List.forall_mem_cons, ← ih, Filter.verdict]
    cases h : c.2.verdict schema item c.1 with
    | error error => simp
    | ok b => cases b <;> simp

/-- The placeholders that a filter is evaluated with. -/
def Selection.bindings (selection : Selection) : Bindings where
  names := selection.names
  values := selection.attributeValues

/-- The filter of a scan is true where all conditions hold. -/
theorem Schema.exists_filter_of_compileScan {schema : Schema} {filter : Filter} {scan : Selection}
    (h : schema.compileScan filter = .ok scan) (hne : filter.conditions ≠ []) :
    ∃ text e, scan.filter = some text ∧ Expr.parse text = .ok e ∧
      ∀ item, scan.bindings.evaluate item e = Filter.verdict schema item filter.conditions := by
  obtain ⟨⟨exprs, after⟩, hrender, h⟩ := bind_eq_ok_iff.1 h
  cases h
  have h := renderings_renderFilters Placeholders.isSound_empty hrender
  obtain ⟨condition, conditions, hconditions⟩ := List.exists_cons_of_ne_nil hne
  obtain ⟨first, rest, rfl⟩ : ∃ first rest, exprs = first :: rest :=
    List.exists_cons_of_length_pos (by simp [← h.areRendered.length_eq, hconditions])
  have hnamed : condition.1 ∈ after.names.values :=
    (h.attributes _).2 (.inl (by simp [hconditions]))
  have hnames : 0 < after.names.length := by
    simpa [OrderedMap.values] using List.length_pos_of_mem hnamed
  have hparse := Expr.parse_conjunction? (fun e hmem => (h.isLexical e hmem).1)
    (show Expr.conjunction? (first :: rest) = _ from rfl)
  refine ⟨_, _, ?_, hparse, fun item => ?_⟩
  · simp [Selection.filter, Selection.keyConditions, Expr.conjunction?, hnames]
  · rw [← h.evaluateAll item]
    exact Bindings.evaluate_foldl_and first rest

/-- A filter compiled for a scan means what its conditions say. It cannot be compiled if one of them
is a set without members, and the first such attribute is named. -/
theorem Schema.compileScan_verdict (schema : Schema) (filter : Filter) :
    match filter.conditions.find? (fun c => decide c.2.IsEmptySet) with
    | some (name, _) => schema.compileScan filter = .error (.emptySet name)
    | none => ∃ selection, schema.compileScan filter = .ok selection ∧
        (selection.filter = none ↔ filter.conditions = []) ∧
        ∀ text, selection.filter = some text → ∃ e, Expr.parse text = .ok e ∧
          ∀ item, selection.bindings.evaluate item e =
            Filter.verdict schema item filter.conditions := by
  split
  · rename_i name condition hfind
    rw [compileScan, renderFilters_of_find? hfind, error_bind]
  · rename_i hfind
    obtain ⟨⟨exprs, after⟩, hrender⟩ :=
      exists_renderFilters schema {} hfind
    have hscan : schema.compileScan filter =
        .ok { filters := exprs, names := after.names, values := after.values } := by
      rw [compileScan, hrender, ok_bind]
    refine ⟨_, hscan, ?_⟩
    cases hconditions : filter.conditions with
    | nil =>
      have h := renderings_renderFilters Placeholders.isSound_empty hrender
      obtain rfl : exprs = [] := List.length_eq_zero_iff.1 <| by
        simpa [hconditions] using h.areRendered.length_eq.symm
      simp [Selection.filter, Expr.conjunction?]
    | cons condition conditions =>
      obtain ⟨text, e, htext, hparse, heval⟩ :=
        exists_filter_of_compileScan hscan (by simp [hconditions])
      refine ⟨by simp [htext], ?_⟩
      intro other hother
      obtain rfl : text = other := by simpa [htext] using hother
      exact ⟨e, hparse, fun item => by rw [heval, hconditions]⟩

end KeyedStore
