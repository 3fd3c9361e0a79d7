import KeyedStore.Plan.Compile
import KeyedStore.Proofs.Except
import KeyedStore.Proofs.Expression.Parsing
import KeyedStore.Proofs.Plan.Placeholders
import Mathlib.Data.List.Forall2

/-!
# Rendered conditions

What a condition asks of its attribute is a `Restriction`. `Restriction.IsRendered` says of an
expression that it asks the same in terms of placeholders. Each rendering function adds placeholders
that no other condition uses, so an expression goes on to say what it said when it was rendered.
-/
namespace KeyedStore

/-- What is asked of the value of an attribute. -/
inductive Restriction where
  | compare (op : Comparison) (value : Json)
  | between (first last : Json)
  | member (values : List Json)

namespace Condition

/-- What a condition asks when it is applied after the read. -/
def restriction : Condition → Restriction
  | equals value => .compare .eq value
  | operator op value => .compare op.comparison value
  | range first last => .between first last
  | inSet values | list values => .member values

/-- What a condition asks of a sort key, if it can be part of a key condition. -/
def sortRestriction? : Condition → Option Restriction
  | equals value => some (.compare .eq value)
  | operator .neq _ => none
  | operator op value => some (.compare op.comparison value)
  | range first last | list [first, last] => some (.between first last)
  | list _ | inSet _ => none

/-- Whether a condition is a set without members. -/
def IsEmptySet : Condition → Prop
  | inSet values | list values => values = []
  | _ => False

theorem restriction_of_isEmptySet {condition : Condition} (h : condition.IsEmptySet) :
    condition.restriction = .member [] := by
  cases condition with
  | inSet values | list values => exact congrArg Restriction.member h
  | equals _ | operator _ _ | range _ _ => cases h

instance : DecidablePred IsEmptySet
  | inSet values | list values => decidable_of_iff (values.isEmpty = true) List.isEmpty_iff
  | equals _ | operator .. | range .. => .isFalse id

end Condition

/-- The operands of an expression. -/
def Expr.operands : Expr → List Operand
  | compare left _ right => [left, right]
  | between value low high => [value, low, high]
  | member value list => value :: list
  | and left right | or left right => left.operands ++ right.operands
  | not inner => inner.operands
  | call _ arguments => arguments

namespace Placeholders

/-- The attribute that an operand stands for. -/
def attribute? (placeholders : Placeholders) : Operand → Option String
  | .path text => placeholders.names.get? text
  | .value _ => none

/-- The value that an operand stands for. -/
def value? (placeholders : Placeholders) : Operand → Option Json
  | .path _ => none
  | .value text => placeholders.values.get? text

theorem Extends.attribute? {before after : Placeholders} (h : before.Extends after)
    {operand : Operand} {attr : String} (hbefore : before.attribute? operand = some attr) :
    after.attribute? operand = some attr := by
  cases operand with
  | path text => exact h.names _ _ hbefore
  | value text => simp [Placeholders.attribute?] at hbefore

theorem Extends.value? {before after : Placeholders} (h : before.Extends after)
    {operand : Operand} {json : Json} (hbefore : before.value? operand = some json) :
    after.value? operand = some json := by
  cases operand with
  | path text => simp [Placeholders.value?] at hbefore
  | value text => exact h.values _ _ hbefore

theorem Extends.map_value? {before after : Placeholders} (h : before.Extends after)
    {operands : List Operand} {jsons : List Json}
    (hbefore : operands.map before.value? = jsons.map some) :
    operands.map after.value? = jsons.map some := by
  induction operands generalizing jsons with
  | nil => simpa using hbefore
  | cons operand operands ih =>
    cases jsons with
    | nil => simp at hbefore
    | cons json jsons =>
      obtain ⟨hfirst, hrest⟩ := List.cons.inj hbefore
      exact congrArg₂ List.cons (h.value? hfirst) (ih hrest)

theorem IsSound.isLexical_of_attribute? {placeholders : Placeholders} (h : placeholders.IsSound)
    {operand : Operand} {attr : String} (hop : placeholders.attribute? operand = some attr) :
    operand.IsLexical := by
  cases operand with
  | path text =>
    have hmem := OrderedMap.mem_of_get?_eq_some hop
    exact (h.names_marked text (List.mem_map.2 ⟨_, hmem, rfl⟩)).isLexical_path
  | value text => simp [attribute?] at hop

theorem IsSound.isLexical_of_value? {placeholders : Placeholders} (h : placeholders.IsSound)
    {operand : Operand} {json : Json} (hop : placeholders.value? operand = some json) :
    operand.IsLexical := by
  cases operand with
  | path text => simp [value?] at hop
  | value text =>
    have hmem := OrderedMap.mem_of_get?_eq_some hop
    exact (h.values_marked text (List.mem_map.2 ⟨_, hmem, rfl⟩)).isLexical_value

theorem IsSound.isLexical_of_map_value? {placeholders : Placeholders} (h : placeholders.IsSound)
    {operands : List Operand} {jsons : List Json}
    (hops : operands.map placeholders.value? = jsons.map some) {operand : Operand}
    (hmem : operand ∈ operands) : operand.IsLexical := by
  have hvalue : placeholders.value? operand ∈ jsons.map some := hops ▸ List.mem_map_of_mem hmem
  obtain ⟨json, -, hjson⟩ := List.mem_map.1 hvalue
  exact h.isLexical_of_value? hjson.symm

end Placeholders

/-- Whether an expression asks for a restriction of an attribute in terms of placeholders. -/
inductive Restriction.IsRendered (schema : Schema) (placeholders : Placeholders) (name : String) :
    Restriction → Expr → Prop
  | compare {path operand : Operand} {op : Comparison} {value : Json}
      (hpath : placeholders.attribute? path = some name)
      (hvalue : placeholders.value? operand = some (schema.bind name value)) :
      IsRendered schema placeholders name (.compare op value) (.compare path op operand)
  | between {path low high : Operand} {first last : Json}
      (hpath : placeholders.attribute? path = some name)
      (hlow : placeholders.value? low = some (schema.bind name first))
      (hhigh : placeholders.value? high = some (schema.bind name last)) :
      IsRendered schema placeholders name (.between first last) (.between path low high)
  | member {path : Operand} {operands : List Operand} {values : List Json}
      (hpath : placeholders.attribute? path = some name) (hne : values ≠ [])
      (hvalues : operands.map placeholders.value? = (values.map (schema.bind name)).map some) :
      IsRendered schema placeholders name (.member values) (.member path operands)

namespace Restriction.IsRendered

variable {schema : Schema} {before after : Placeholders} {name : String} {r : Restriction}
  {e : Expr}

theorem mono (h : r.IsRendered schema before name e) (hext : before.Extends after) :
    r.IsRendered schema after name e := by
  cases h with
  | compare hpath hvalue => exact .compare (hext.attribute? hpath) (hext.value? hvalue)
  | between hpath hlow hhigh =>
    exact .between (hext.attribute? hpath) (hext.value? hlow) (hext.value? hhigh)
  | member hpath hne hvalues => exact .member (hext.attribute? hpath) hne (hext.map_value? hvalues)

theorem level_eq (h : r.IsRendered schema before name e) : e.level = 3 := by
  cases h <;> rfl

/-- A rendered condition can be read back from its text. -/
theorem isLexical (h : r.IsRendered schema before name e) (hsound : before.IsSound) :
    e.IsLexical := by
  cases h with
  | compare hpath hvalue =>
    exact ⟨hsound.isLexical_of_attribute? hpath, hsound.isLexical_of_value? hvalue⟩
  | between hpath hlow hhigh =>
    exact ⟨hsound.isLexical_of_attribute? hpath, hsound.isLexical_of_value? hlow,
      hsound.isLexical_of_value? hhigh⟩
  | member hpath hne hvalues =>
    refine ⟨hsound.isLexical_of_attribute? hpath, ?_, fun _ hmem =>
      hsound.isLexical_of_map_value? hvalues hmem⟩
    rintro rfl
    simp [hne] at hvalues

end Restriction.IsRendered

/-- Whether allocating operands for values leads from some placeholders to others. -/
structure Binds (before : Placeholders) (operands : List Operand) (jsons : List Json)
    (after : Placeholders) : Prop where
  isSound : before.IsSound → after.IsSound
  ext : before.Extends after
  names : after.names = before.names
  values : operands.map after.value? = jsons.map some
  /-- No placeholder is bound but those of the operands. -/
  covered : ∀ text ∈ after.values.keys, .value text ∈ operands ∨ text ∈ before.values.keys

theorem Binds.nil (placeholders : Placeholders) : Binds placeholders [] [] placeholders where
  isSound := id
  ext := .refl _
  names := rfl
  values := rfl
  covered _ h := .inr h

theorem Binds.append {a b c : Placeholders} {first second : List Operand} {js ks : List Json}
    (hfirst : Binds a first js b) (hsecond : Binds b second ks c) :
    Binds a (first ++ second) (js ++ ks) c where
  isSound h := hsecond.isSound (hfirst.isSound h)
  ext := hfirst.ext.trans hsecond.ext
  names := hsecond.names.trans hfirst.names
  values := by
    rw [List.map_append, List.map_append, hsecond.ext.map_value? hfirst.values, hsecond.values]
  covered text h := by
    rcases hsecond.covered text h with h | h
    · exact .inl (List.mem_append_right _ h)
    · exact (hfirst.covered text h).imp_left (List.mem_append_left _)

namespace Schema

theorem binds_bindValue (schema : Schema) (placeholders : Placeholders) (name : String)
    {suffix : String} (hsuffix : ∀ c ∈ suffix.toList, Token.isWordChar c) (value : Json) :
    Binds placeholders [(schema.bindValue placeholders name suffix value).1]
      [schema.bind name value] (schema.bindValue placeholders name suffix value).2 where
  isSound h := h.value hsuffix
  ext := Placeholders.extends_value hsuffix
  names := Placeholders.names_value hsuffix
  values := congrArg (fun json => [json]) (Placeholders.get?_value hsuffix)
  covered text h := by simpa [bindValue] using (Placeholders.mem_keys_value hsuffix).1 h

theorem isWordChar_of_mem_numberedSuffix {n : Nat} :
    ∀ c ∈ (s!"_{n}" : String).toList, Token.isWordChar c := by
  intro c hc
  have hcases : c = '_' ∨ c ∈ Nat.toDigits 10 n := by
    simpa [show toString "_" = "_" from rfl] using hc
  rcases hcases with rfl | hc
  · rfl
  · exact Placeholders.isWordChar_of_mem_toDigits hc

theorem binds_bindMembers (schema : Schema) (placeholders : Placeholders) (name : String)
    (values : List Json) (n : Nat) :
    Binds placeholders (schema.bindMembers name placeholders n values).1
      (values.map (schema.bind name)) (schema.bindMembers name placeholders n values).2 := by
  induction values generalizing placeholders n with
  | nil => exact .nil _
  | cons value rest ih =>
    have hfirst := binds_bindValue schema placeholders name
      (isWordChar_of_mem_numberedSuffix (n := n)) value
    exact hfirst.append (ih _ (n + 1))

end Schema

/-- Whether an expression is the rendering of a restriction, given the placeholders before and
after. -/
structure Rendering (schema : Schema) (before : Placeholders) (name : String) (r : Restriction)
    (e : Expr) (after : Placeholders) : Prop where
  isSound : after.IsSound
  ext : before.Extends after
  isRendered : r.IsRendered schema after name e
  attributes : ∀ attr, attr ∈ after.names.values ↔ attr = name ∨ attr ∈ before.names.values
  /-- No placeholder is bound but those of the expression. -/
  covered : ∀ text ∈ after.values.keys, .value text ∈ e.operands ∨ text ∈ before.values.keys

namespace Schema

variable {schema : Schema} {placeholders : Placeholders} {name : String}

/-- A rendering names its attribute first and binds its values then. -/
theorem rendering_of_binds {operands : List Operand} {jsons : List Json} {after : Placeholders}
    {r : Restriction} {e : Expr} (hsound : placeholders.IsSound)
    (h : Binds (placeholders.name name).2 operands jsons after)
    (hrendered : after.attribute? (.path (placeholders.name name).1) = some name →
      r.IsRendered schema after name e)
    (hoperands : operands ⊆ e.operands) : Rendering schema placeholders name r e after where
  isSound := h.isSound hsound.name
  ext := Placeholders.extends_name.trans h.ext
  isRendered := hrendered (h.ext.names _ _ hsound.get?_name)
  attributes attr := by rw [h.names, Placeholders.mem_attributes_name]
  covered text htext := by
    rw [← Placeholders.values_name placeholders name]
    exact (h.covered text htext).imp_left (hoperands ·)

theorem rendering_renderCompare (hsound : placeholders.IsSound) (op : Comparison) (value : Json) :
    Rendering schema placeholders name (.compare op value)
      (schema.renderCompare placeholders name op value).1
      (schema.renderCompare placeholders name op value).2 := by
  have hbinds := binds_bindValue schema (placeholders.name name).2 name
    (show ∀ c ∈ "".toList, Token.isWordChar c by simp) value
  have hvalue := hbinds.values
  simp only [List.map_cons, List.map_nil, List.cons.injEq, and_true] at hvalue
  refine rendering_of_binds hsound hbinds (fun hpath => .compare hpath hvalue) ?_
  simp [renderCompare, Expr.operands]

theorem rendering_renderBetween (hsound : placeholders.IsSound) (first last : Json) :
    Rendering schema placeholders name (.between first last)
      (schema.renderBetween placeholders name first last).1
      (schema.renderBetween placeholders name first last).2 := by
  have hlow := binds_bindValue schema (placeholders.name name).2 name
    (show ∀ c ∈ "_start".toList, Token.isWordChar c from List.all_eq_true.1 rfl) first
  have hbinds := hlow.append (binds_bindValue schema _ name
    (show ∀ c ∈ "_end".toList, Token.isWordChar c from List.all_eq_true.1 rfl) last)
  have hvalues := hbinds.values
  simp only [List.map_cons, List.map_nil, List.singleton_append, List.cons.injEq,
    and_true] at hvalues
  refine rendering_of_binds hsound hbinds (fun hpath => .between hpath hvalues.1 hvalues.2) ?_
  simp [renderBetween, Expr.operands]

theorem rendering_renderMember (hsound : placeholders.IsSound) {values : List Json} {e : Expr}
    {after : Placeholders} (h : schema.renderMember placeholders name values = .ok (e, after)) :
    Rendering schema placeholders name (.member values) e after := by
  rw [renderMember] at h
  split at h
  · cases h
  · rename_i hne
    have hbinds := binds_bindMembers schema (placeholders.name name).2 name values 0
    cases h
    refine rendering_of_binds hsound hbinds ?_ (List.subset_cons_self _ _)
    intro hpath
    exact .member hpath (by simpa using hne) hbinds.values

/-- A condition applied after the read is rendered as what it asks. -/
theorem rendering_renderFilter (hsound : placeholders.IsSound) {condition : Condition} {e : Expr}
    {after : Placeholders}
    (h : schema.renderFilter placeholders name condition = .ok (e, after)) :
    Rendering schema placeholders name condition.restriction e after := by
  cases condition with
  | equals value =>
    cases h
    exact rendering_renderCompare hsound .eq value
  | operator op value =>
    cases h
    exact rendering_renderCompare hsound op.comparison value
  | range first last =>
    cases h
    exact rendering_renderBetween hsound first last
  | inSet values => exact rendering_renderMember hsound h
  | list values => exact rendering_renderMember hsound h

/-- The only conditions that cannot be rendered are sets without members. -/
theorem renderFilter_of_isEmptySet {condition : Condition} (h : condition.IsEmptySet) :
    schema.renderFilter placeholders name condition = .error (.emptySet name) := by
  cases condition with
  | inSet values | list values =>
    obtain rfl : values = [] := h
    rfl
  | equals value | operator op value | range first last => cases h

theorem exists_renderFilter (schema : Schema) (placeholders : Placeholders) (name : String)
    {condition : Condition} (h : ¬ condition.IsEmptySet) :
    ∃ result, schema.renderFilter placeholders name condition = .ok result := by
  cases condition with
  | inSet values | list values =>
    have hne : values.isEmpty = false := by simpa [Condition.IsEmptySet] using h
    simp [renderFilter, renderMember, hne]
  | equals value | operator op value | range first last => exact ⟨_, rfl⟩

/-- A condition on a sort key is rendered as what it asks of one. -/
theorem rendering_renderSortKey? (hsound : placeholders.IsSound) {condition : Condition} {e : Expr}
    {after : Placeholders}
    (h : schema.renderSortKey? placeholders name condition = some (e, after)) :
    ∃ r, condition.sortRestriction? = some r ∧ Rendering schema placeholders name r e after := by
  unfold renderSortKey? at h
  split at h
  · cases h
    exact ⟨_, rfl, rendering_renderCompare hsound _ _⟩
  · cases h
  · rename_i op value hop
    cases h
    exact ⟨_, by cases op <;> simp_all [Condition.sortRestriction?],
      rendering_renderCompare hsound _ _⟩
  · cases h
    exact ⟨_, rfl, rendering_renderBetween hsound _ _⟩
  · cases h
    exact ⟨_, rfl, rendering_renderBetween hsound _ _⟩
  · cases h
  · cases h

end Schema

/-- Whether expressions are the renderings of restrictions of attributes, one each and in order,
given the placeholders before and after. -/
structure Renderings (schema : Schema) (before : Placeholders) (asked : List (String × Restriction))
    (exprs : List Expr) (after : Placeholders) : Prop where
  isSound : after.IsSound
  ext : before.Extends after
  areRendered : List.Forall₂ (fun r e => r.2.IsRendered schema after r.1 e) asked exprs
  attributes : ∀ attr, attr ∈ after.names.values ↔
    attr ∈ asked.map (·.1) ∨ attr ∈ before.names.values
  /-- No placeholder is bound but those of the expressions. -/
  covered : ∀ text ∈ after.values.keys,
    (∃ e ∈ exprs, .value text ∈ e.operands) ∨ text ∈ before.values.keys

namespace Renderings

variable {schema : Schema} {before after : Placeholders} {asked : List (String × Restriction)}
  {exprs : List Expr}

theorem nil (hsound : before.IsSound) : Renderings schema before [] [] before where
  isSound := hsound
  ext := .refl _
  areRendered := .nil
  attributes := by simp
  covered _ h := .inr h

theorem cons {name : String} {r : Restriction} {e : Expr} {between : Placeholders}
    (hfirst : Rendering schema before name r e between)
    (hrest : Renderings schema between asked exprs after) :
    Renderings schema before ((name, r) :: asked) (e :: exprs) after where
  isSound := hrest.isSound
  ext := hfirst.ext.trans hrest.ext
  areRendered := .cons (hfirst.isRendered.mono hrest.ext) hrest.areRendered
  attributes attr := by
    rw [hrest.attributes, hfirst.attributes, List.map_cons, List.mem_cons]
    exact or_left_comm.trans or_assoc.symm
  covered text htext := by
    rcases hrest.covered text htext with ⟨other, hmem, hother⟩ | htext
    · exact .inl ⟨other, List.mem_cons_of_mem _ hmem, hother⟩
    · exact (hfirst.covered text htext).imp_left fun hop => ⟨e, List.mem_cons_self, hop⟩

theorem exists_isRendered (h : Renderings schema before asked exprs after) {e : Expr}
    (hmem : e ∈ exprs) : ∃ r ∈ asked, r.2.IsRendered schema after r.1 e := by
  have hrendered := h.areRendered
  clear h
  induction hrendered with
  | nil => cases hmem
  | @cons r first asked exprs hfirst _ ih =>
    rcases List.mem_cons.1 hmem with rfl | hmem
    · exact ⟨r, List.mem_cons_self, hfirst⟩
    · obtain ⟨other, hother, hrendered⟩ := ih hmem
      exact ⟨other, List.mem_cons_of_mem _ hother, hrendered⟩

theorem exists_rendering (h : Renderings schema before asked exprs after)
    {r : String × Restriction} (hmem : r ∈ asked) :
    ∃ e ∈ exprs, r.2.IsRendered schema after r.1 e := by
  have hrendered := h.areRendered
  clear h
  induction hrendered with
  | nil => cases hmem
  | @cons first e asked exprs hfirst _ ih =>
    rcases List.mem_cons.1 hmem with rfl | hmem
    · exact ⟨e, List.mem_cons_self, hfirst⟩
    · obtain ⟨other, hother, hrendered⟩ := ih hmem
      exact ⟨other, List.mem_cons_of_mem _ hother, hrendered⟩

/-- Rendered conditions can be read back from their texts, without parentheses. -/
theorem isLexical (h : Renderings schema before asked exprs after) :
    ∀ e ∈ exprs, e.IsLexical ∧ e.level = 3 := by
  intro e hmem
  obtain ⟨r, -, hrendered⟩ := h.exists_isRendered hmem
  exact ⟨hrendered.isLexical h.isSound, hrendered.level_eq⟩

end Renderings

/-- The renderings of conditions that are applied after the read. -/
theorem Schema.renderings_renderFilters {schema : Schema} {before after : Placeholders}
    (hsound : before.IsSound) {conditions : List (String × Condition)} {exprs : List Expr}
    (h : schema.renderFilters before conditions = .ok (exprs, after)) :
    Renderings schema before (conditions.map fun c => (c.1, c.2.restriction)) exprs after := by
  induction conditions generalizing before exprs with
  | nil =>
    cases h
    exact .nil hsound
  | cons condition rest ih =>
    obtain ⟨name, condition⟩ := condition
    rw [renderFilters] at h
    obtain ⟨⟨e, between⟩, hfirst, h⟩ := bind_eq_ok_iff.1 h
    obtain ⟨⟨others, last⟩, hrest, h⟩ := bind_eq_ok_iff.1 h
    cases h
    have hrendering := rendering_renderFilter hsound hfirst
    exact .cons hrendering (ih hrendering.isSound hrest)

/-- Conditions cannot be rendered if one of them is a set without members; the first one is
blamed. -/
theorem Schema.renderFilters_of_find? {schema : Schema} {before : Placeholders}
    {conditions : List (String × Condition)} {name : String} {condition : Condition}
    (h : conditions.find? (fun c => decide c.2.IsEmptySet) = some (name, condition)) :
    schema.renderFilters before conditions = .error (.emptySet name) := by
  induction conditions generalizing before with
  | nil => simp at h
  | cons first rest ih =>
    obtain ⟨attr, first⟩ := first
    rw [renderFilters]
    by_cases hempty : first.IsEmptySet
    · obtain ⟨rfl, rfl⟩ : attr = name ∧ first = condition := by simpa [hempty] using h
      rw [renderFilter_of_isEmptySet hempty]
      rfl
    · obtain ⟨⟨e, after⟩, hfirst⟩ :=
        exists_renderFilter schema before attr hempty
      have hrest : schema.renderFilters after rest = .error (.emptySet name) :=
        ih (by simpa [hempty] using h)
      simp only [hfirst, ok_bind, hrest, error_bind]

theorem Schema.exists_renderFilters (schema : Schema) (before : Placeholders)
    {conditions : List (String × Condition)}
    (h : conditions.find? (fun c => decide c.2.IsEmptySet) = none) :
    ∃ result, schema.renderFilters before conditions = .ok result := by
  induction conditions generalizing before with
  | nil => exact ⟨_, rfl⟩
  | cons first rest ih =>
    obtain ⟨attr, first⟩ := first
    have hall := List.find?_eq_none.1 h
    have hempty : ¬ first.IsEmptySet := by simpa using hall _ List.mem_cons_self
    have hnone := List.find?_eq_none.2 fun c hc => hall c (List.mem_cons_of_mem _ hc)
    obtain ⟨⟨e, after⟩, hfirst⟩ :=
      exists_renderFilter schema before attr hempty
    obtain ⟨result, hrest⟩ := ih after hnone
    refine ⟨(e :: result.1, result.2), ?_⟩
    simp only [renderFilters, hfirst, ok_bind, hrest]

end KeyedStore
