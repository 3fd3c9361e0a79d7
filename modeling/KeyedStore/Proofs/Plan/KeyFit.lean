import KeyedStore.Proofs.Plan.Agreement
import KeyedStore.Proofs.Plan.KeyRoles

/-!
# Queries fit the provisioned table

The conditions that a query selects are on the keys of one index, or of the table, and the table of
the schema has that index with those keys. So the key condition can be resolved, unless a value in
it cannot be a key or the ends of a range are in the wrong order.
-/
namespace KeyedStore

open KeyCondition

/-- The key value that a text or a number is. -/
def AttributeValue.textOrNumber? : AttributeValue → Option KeyValue
  | .string text => some (.string text)
  | .number text => some (.number text)
  | _ => none

namespace Selection

/-- The key value of the text or number that is bound to an operand. -/
def keyValue? (selection : Selection) : Operand → Option KeyValue
  | .value text => (selection.attributeValues.get? text).bind AttributeValue.textOrNumber?
  | .path _ => none

/-- Whether the operands of a term of the key condition are texts or numbers, and the ends of a
range in order. -/
def HasKeyOperands (selection : Selection) : Expr → Prop
  | .compare _ _ operand => (selection.keyValue? operand).isSome
  | .between _ low high => ∃ x y, selection.keyValue? low = some x ∧
      selection.keyValue? high = some y ∧ compare x y ≠ .gt
  | _ => False

variable {selection : Selection} {schema : Schema} {name : String} {operand : Operand}
  {json : Json} {value : KeyValue}

/-- A value is accepted as a key if it is a text or a number. -/
theorem keyValue_eq_ok_iff (hvalue : selection.placeholders.value? operand = some json) :
    keyValue selection.bindings name operand = .ok value ↔
      selection.keyValue? operand = some value := by
  have hoperand : selection.bindings.operand [] operand = .ok (some json.toAttribute) :=
    Placeholders.operand_of_value? hvalue
  have hbound : selection.keyValue? operand = json.toAttribute.textOrNumber? := by
    cases operand with
    | path text => cases hvalue
    | value text =>
      have hget : selection.values.get? text = some json := hvalue
      rw [keyValue?, attributeValues, OrderedMap.get?_mapValues, hget]
      rfl
  rw [hbound]
  unfold keyValue
  rw [hoperand]
  cases json <;> simp [Json.toAttribute, AttributeValue.textOrNumber?, KeyValue.ofAttribute,
    Except.mapError]

/-- Whether an expression is a term of a key condition that restricts an attribute. -/
inductive IsKeyTerm (selection : Selection) (name : String) : Expr → Prop
  | compare {path operand : Operand} {op : Comparison} {json : Json}
      (hpath : selection.placeholders.attribute? path = some name)
      (hvalue : selection.placeholders.value? operand = some json) (hop : op ≠ .ne) :
      IsKeyTerm selection name (.compare path op operand)
  | between {path low high : Operand} {first last : Json}
      (hpath : selection.placeholders.attribute? path = some name)
      (hlow : selection.placeholders.value? low = some first)
      (hhigh : selection.placeholders.value? high = some last) :
      IsKeyTerm selection name (.between path low high)

namespace IsKeyTerm

variable {e : Expr}

theorem exists_attribute? (h : selection.IsKeyTerm name e) :
    ∃ path, e.operands.head? = some path ∧ selection.placeholders.attribute? path = some name := by
  cases h with
  | compare hpath | between hpath => exact ⟨_, rfl, hpath⟩

/-- A term is accepted if its operands can be keys. -/
theorem exists_ofTerm_iff (hsound : selection.placeholders.IsSound)
    (h : selection.IsKeyTerm name e) :
    (∃ result, ofTerm selection.bindings e = .ok result) ↔ selection.HasKeyOperands e := by
  cases h with
  | @compare path operand op json hpath hvalue hop =>
    have hname : keyPath selection.bindings path = .ok name :=
      Placeholders.keyPath_of_attribute? hsound hpath
    have hkey (value : KeyValue) : keyValue selection.bindings name operand = .ok value ↔
        selection.keyValue? operand = some value := keyValue_eq_ok_iff hvalue
    rw [HasKeyOperands, Option.isSome_iff_exists, ofTerm, hname, ok_bind]
    constructor
    · rintro ⟨result, hterm⟩
      obtain ⟨value, hvalue, -⟩ := bind_eq_ok_iff.1 hterm
      exact ⟨value, (hkey value).1 hvalue⟩
    · rintro ⟨value, hvalue⟩
      rw [(hkey value).2 hvalue, ok_bind]
      cases op <;> first | exact ⟨_, rfl⟩ | exact absurd rfl hop
  | @between path low high first last hpath hlow hhigh =>
    have hname : keyPath selection.bindings path = .ok name :=
      Placeholders.keyPath_of_attribute? hsound hpath
    rw [HasKeyOperands, ofTerm, hname, ok_bind]
    constructor
    · rintro ⟨result, hterm⟩
      obtain ⟨x, hx, hterm⟩ := bind_eq_ok_iff.1 hterm
      obtain ⟨y, hy, hterm⟩ := bind_eq_ok_iff.1 hterm
      refine ⟨x, y, (keyValue_eq_ok_iff hlow).1 hx, (keyValue_eq_ok_iff hhigh).1 hy, ?_⟩
      intro horder
      rw [if_pos horder] at hterm
      cases hterm
    · rintro ⟨x, y, hx, hy, horder⟩
      rw [(keyValue_eq_ok_iff hlow).2 hx, ok_bind, (keyValue_eq_ok_iff hhigh).2 hy, ok_bind,
        if_neg horder]
      exact ⟨_, rfl⟩

/-- A term restricts its attribute, an equality by a value. -/
theorem ofTerm_eq_ok (hsound : selection.placeholders.IsSound) (h : selection.IsKeyTerm name e)
    {result : String × SortCondition} (hterm : ofTerm selection.bindings e = .ok result) :
    result.1 = name ∧
      ∀ path operand, e = .compare path .eq operand → ∃ value, result.2 = .eq value := by
  cases h with
  | @compare path operand op json hpath hvalue hop =>
    have hname : keyPath selection.bindings path = .ok name :=
      Placeholders.keyPath_of_attribute? hsound hpath
    rw [ofTerm, hname, ok_bind] at hterm
    obtain ⟨value, -, hterm⟩ := bind_eq_ok_iff.1 hterm
    cases op <;> cases hterm <;> refine ⟨rfl, fun _ _ heq => ?_⟩ <;> cases heq
    exact ⟨value, rfl⟩
  | @between path low high first last hpath hlow hhigh =>
    have hname : keyPath selection.bindings path = .ok name :=
      Placeholders.keyPath_of_attribute? hsound hpath
    rw [ofTerm, hname, ok_bind] at hterm
    obtain ⟨x, -, hterm⟩ := bind_eq_ok_iff.1 hterm
    obtain ⟨y, -, hterm⟩ := bind_eq_ok_iff.1 hterm
    split at hterm <;> cases hterm
    refine ⟨rfl, fun _ _ heq => ?_⟩
    cases heq

end IsKeyTerm

/-- An equality on the hash key and at most one term on the range key are resolved if their operands
can be keys. -/
theorem exists_resolve_iff {keys : KeySchema} {path : Operand} {range : Option Expr} {expr : Expr}
    (hsound : selection.placeholders.IsSound)
    (hhash : selection.IsKeyTerm keys.partition.name (.compare path .eq operand))
    (hrange : ∀ e, range = some e → ∃ sort, keys.sort = some sort ∧
      selection.IsKeyTerm sort.name e)
    (hterms : expr.conjuncts = .compare path .eq operand :: range.toList) :
    (∃ condition, resolve keys selection.bindings expr = .ok condition) ↔
      ∀ e ∈ expr.conjuncts, selection.HasKeyOperands e := by
  constructor
  · rintro ⟨condition, hresolve⟩ e hmem
    obtain ⟨result, hterm⟩ := exists_ofTerm_of_resolve hresolve e hmem
    rw [hterms] at hmem
    rcases List.mem_cons.1 hmem with rfl | hmem
    · exact (hhash.exists_ofTerm_iff hsound).1 ⟨result, hterm⟩
    · obtain ⟨sort, -, hsort⟩ := hrange e (by simpa using hmem)
      exact (hsort.exists_ofTerm_iff hsound).1 ⟨result, hterm⟩
  · intro hops
    rw [hterms, List.forall_mem_cons] at hops
    obtain ⟨⟨name, condition⟩, hterm⟩ := (hhash.exists_ofTerm_iff hsound).2 hops.1
    obtain ⟨rfl, hvalue⟩ := hhash.ofTerm_eq_ok hsound hterm
    obtain ⟨value, rfl⟩ := hvalue path operand rfl
    have hfirst : addTerm keys selection.bindings {} (.compare path .eq operand) =
        .ok { partition := some value } := by
      rw [addTerm, hterm, ok_bind]
      simp [Found.add]
    unfold resolve
    rw [hterms, List.foldlM_cons, hfirst, ok_bind]
    cases range with
    | none => exact ⟨_, rfl⟩
    | some e =>
      obtain ⟨sort, hkeys, hsort⟩ := hrange e rfl
      obtain ⟨⟨name, condition⟩, hterm⟩ :=
        (hsort.exists_ofTerm_iff hsound).2 (hops.2 e List.mem_cons_self)
      obtain ⟨rfl, -⟩ := hsort.ofTerm_eq_ok hsound hterm
      have hsecond : addTerm keys selection.bindings { partition := some value } e =
          .ok { partition := some value, sort := some condition } := by
        rw [addTerm, hterm, ok_bind]
        cases condition <;> simp [Found.add, hkeys]
      rw [Option.toList_some, List.foldlM_cons, hsecond, ok_bind]
      exact ⟨_, rfl⟩

end Selection

namespace Schema

variable {schema : Schema} {filter : Filter} {selection : Selection} {name : String} {e : Expr}

theorem isKeyTerm_of_isRendered {r : Restriction}
    (h : r.IsRendered schema selection.placeholders name e)
    (hr : (∃ op value, op ≠ .ne ∧ r = .compare op value) ∨ ∃ first last, r = .between first last) :
    selection.IsKeyTerm name e := by
  cases h with
  | compare hpath hvalue =>
    rcases hr with ⟨op, value, hop, heq⟩ | ⟨first, last, heq⟩ <;> cases heq
    exact .compare hpath hvalue hop
  | between hpath hlow hhigh => exact .between hpath hlow hhigh
  | member => rcases hr with ⟨op, value, hop, heq⟩ | ⟨first, last, heq⟩ <;> cases heq

/-- Each fragment is the rendering of a condition and has its slot. -/
theorem exists_condition_of_getElem? {fragments : List Fragment} {after : Placeholders}
    (hrender : schema.renderFragments filter {} filter.conditions = .ok (fragments, after))
    {i : Nat}
    {fragment : Fragment} (hget : fragments[i]? = some fragment) :
    ∃ c ∈ filter.conditions, schema.slot filter c = fragment.slot ∧
      (schema.asked filter c).IsRendered schema after c.1 fragment.condition := by
  obtain ⟨hrenderings, hslots⟩ := renderings_renderFragments Placeholders.isSound_empty hrender
  obtain ⟨hi, rfl⟩ := List.getElem?_eq_some_iff.1 hget
  have hlength : fragments.length = filter.conditions.length := by
    simpa using congrArg List.length hslots
  have hc : i < filter.conditions.length := hlength ▸ hi
  refine ⟨filter.conditions[i], List.getElem_mem hc, ?_, ?_⟩
  · have hslot := congrArg (·[i]?) hslots
    simpa [hi, hc] using hslot.symm
  · have hrendered := (List.forall₂_iff_get.1 hrenderings.areRendered).2 i (by simpa using hc)
      (by simpa using hi)
    simpa using hrendered

section Selected

variable {fragments : List Fragment} {after : Placeholders}

/-- The condition that selects the partition is an equality on the hash key of what is read. -/
theorem exists_hashTerm (hsound : schema.HasSoundIndexes)
    (hrender : schema.renderFragments filter {} filter.conditions = .ok (fragments, after))
    (hhash : (Fragment.select fragments after).hashCondition.isSome) :
    (∀ index, Fragment.indexAt fragments (Fragment.hashPlace fragments) = some index →
      index ∈ schema.indexes) ∧
    ∃ path operand, (Fragment.select fragments after).hashCondition =
        some (.compare path .eq operand) ∧
      (Fragment.select fragments after).IsKeyTerm (schema.readKey
        (Fragment.indexAt fragments (Fragment.hashPlace fragments))).partition.name
          (.compare path .eq operand) := by
  obtain ⟨e, he⟩ := Option.isSome_iff_exists.1 hhash
  rw [he]
  rw [Fragment.hashCondition_select] at he
  obtain ⟨fragment, hfragment, rfl⟩ := Option.map_eq_some_iff.1 he
  obtain ⟨place, hplace, hget⟩ := Option.bind_eq_some_iff.1 hfragment
  obtain ⟨found, hash, hfound, hslot⟩ := Fragment.slot_of_hashPlace hplace
  obtain rfl : fragment = found := by simpa [hget] using hfound
  have hindex : Fragment.indexAt fragments (Fragment.hashPlace fragments) = hash := by
    simp [Fragment.indexAt, hplace, hget, hslot]
  obtain ⟨c, -, hc, hrendered⟩ := exists_condition_of_getElem? hrender hget
  obtain ⟨hrole, value, hasked⟩ := asked_of_slot_hash (hc.trans hslot)
  obtain ⟨hmem, hname⟩ := readKey_of_role_hash hsound hrole
  rw [hindex, hname]
  refine ⟨hmem, ?_⟩
  rw [hasked] at hrendered
  have hterm : (Fragment.select fragments after).IsKeyTerm c.1 fragment.condition :=
    isKeyTerm_of_isRendered hrendered (.inl ⟨.eq, value, nofun, rfl⟩)
  generalize fragment.condition = e at hrendered hterm ⊢
  cases hrendered with
  | compare hpath hvalue => exact ⟨_, _, rfl, hterm⟩

/-- The condition that narrows the partition is on a sort key that fits it. -/
theorem exists_rangeTerm
    (hrender : schema.renderFragments filter {} filter.conditions = .ok (fragments, after))
    {place : Nat} (hplace : Fragment.narrowPlace fragments = some place) :
    ∃ e, ∃ c ∈ filter.conditions,
      (Fragment.select fragments after).rangeCondition = some e ∧
      schema.slot filter c =
        .range (Fragment.indexAt fragments (Fragment.narrowPlace fragments)) ∧
      Fragment.fits (Fragment.indexAt fragments (Fragment.hashPlace fragments))
        (Fragment.indexAt fragments (Fragment.narrowPlace fragments)) ∧
      (Fragment.select fragments after).IsKeyTerm c.1 e := by
  obtain ⟨fragment, range, hget, hslot, hfits⟩ := Fragment.slot_of_narrowPlace hplace
  have hindex : Fragment.indexAt fragments (Fragment.narrowPlace fragments) = range := by
    simp [Fragment.indexAt, hplace, hget, hslot]
  obtain ⟨c, hmem, hc, hrendered⟩ := exists_condition_of_getElem? hrender hget
  obtain ⟨-, hasked⟩ := asked_of_slot_range (hc.trans hslot)
  have hcondition : (Fragment.select fragments after).rangeCondition =
      some fragment.condition := by
    simp [Fragment.rangeCondition_select, Fragment.conditionAt, hplace, hget]
  rw [hindex]
  exact ⟨_, c, hmem, hcondition, hc.trans hslot, hfits, isKeyTerm_of_isRendered hrendered hasked⟩

/-- A partition that is not narrowed has no condition on the range key of what is read. -/
theorem slot_ne_range_of_narrowPlace
    (hrender : schema.renderFragments filter {} filter.conditions = .ok (fragments, after))
    (hhash : (Fragment.select fragments after).hashCondition.isSome)
    (hplace : Fragment.narrowPlace fragments = none) {c : String × Condition}
    (hc : c ∈ filter.conditions) :
    schema.slot filter c ≠ .range (Fragment.indexAt fragments (Fragment.hashPlace fragments)) := by
  obtain ⟨-, hslots⟩ := renderings_renderFragments Placeholders.isSound_empty hrender
  have hmem : schema.slot filter c ∈ fragments.map (·.slot) := hslots ▸ List.mem_map_of_mem hc
  obtain ⟨fragment, hfragment, hslot⟩ := List.mem_map.1 hmem
  have hnone : Fragment.rangePlace (Fragment.indexAt fragments (Fragment.hashPlace fragments))
      fragments = none := by
    rw [Fragment.hashCondition_select] at hhash
    unfold Fragment.narrowPlace at hplace
    cases hfound : Fragment.hashPlace fragments with
    | none => simp [hfound, Fragment.conditionAt] at hhash
    | some i => simpa [hfound] using hplace
  intro heq
  refine Fragment.not_fits_of_rangePlace hnone hfragment (hslot.trans heq) ?_
  cases Fragment.indexAt fragments (Fragment.hashPlace fragments) <;> simp [Fragment.fits]

end Selected

/-- A query reads the table or one of its indexes. It selects a partition of that, and narrows it if
some condition is on the range key of that. -/
theorem exists_target_of_compileQuery (hsound : schema.HasSoundIndexes)
    (h : schema.compileQuery filter = .ok selection) (hhash : selection.hashCondition.isSome) :
    ∃ target, (∀ index, target = some index → index ∈ schema.indexes) ∧
      selection.index = target.map (·.name) ∧
      (∃ path operand, selection.hashCondition = some (.compare path .eq operand) ∧
        selection.IsKeyTerm (schema.readKey target).partition.name (.compare path .eq operand)) ∧
      (∀ e, selection.rangeCondition = some e → ∃ c ∈ filter.conditions,
        schema.slot filter c = .range target ∧ selection.IsKeyTerm c.1 e) ∧
      (selection.rangeCondition = none → ∀ c ∈ filter.conditions,
        schema.slot filter c ≠ .range target) := by
  obtain ⟨⟨fragments, after⟩, hrender, h⟩ := bind_eq_ok_iff.1 h
  cases h
  obtain ⟨hmem, path, operand, hcondition, hterm⟩ := exists_hashTerm hsound hrender hhash
  have hindex : (Fragment.select fragments after).index =
      ((Fragment.indexAt fragments (Fragment.hashPlace fragments)).or
        (Fragment.indexAt fragments (Fragment.narrowPlace fragments))).map (·.name) := rfl
  cases hplace : Fragment.narrowPlace fragments with
  | none =>
    have hnone : Fragment.indexAt fragments (Fragment.narrowPlace fragments) = none := by
      rw [hplace]
      rfl
    rw [hnone, Option.or_none] at hindex
    refine ⟨_, hmem, hindex, ⟨path, operand, hcondition, hterm⟩, fun e he => ?_,
      fun _ c hc => slot_ne_range_of_narrowPlace hrender hhash hplace hc⟩
    rw [Fragment.rangeCondition_select, hplace] at he
    cases he
  | some place =>
    obtain ⟨e, c, hc, he, hslot, hfits, hrange⟩ := exists_rangeTerm hrender hplace
    obtain ⟨hrole, -⟩ := asked_of_slot_range hslot
    rw [or_eq_of_fits hsound hmem hrole hfits] at hindex
    refine ⟨_, (sort_readKey_of_role hsound hrole).1, hindex, ⟨path, operand, hcondition, ?_⟩,
      fun other hother => ?_, fun hnone => ?_⟩
    · exact partition_readKey_of_fits hsound hmem hrole hfits ▸ hterm
    · obtain rfl : e = other := by simpa [he] using hother
      exact ⟨c, hc, hslot, hrange⟩
    · rw [he] at hnone
      cases hnone

/-- The conditions that a query selects are on the keys by which it reads. -/
theorem isKeyTerm_of_compileQuery (hsound : schema.HasSoundIndexes)
    (h : schema.compileQuery filter = .ok selection) (hhash : selection.hashCondition.isSome) :
    ∃ target, (∀ index, target = some index → index ∈ schema.indexes) ∧
      selection.index = target.map (·.name) ∧
      (∃ path operand, selection.hashCondition = some (.compare path .eq operand) ∧
        selection.IsKeyTerm (schema.readKey target).partition.name (.compare path .eq operand)) ∧
      ∀ e, selection.rangeCondition = some e → ∃ sort, (schema.readKey target).sort = some sort ∧
        selection.IsKeyTerm sort.name e := by
  obtain ⟨target, hmem, hindex, hterm, hrange, -⟩ := exists_target_of_compileQuery hsound h hhash
  refine ⟨target, hmem, hindex, hterm, fun e he => ?_⟩
  obtain ⟨c, -, hslot, hkey⟩ := hrange e he
  exact ⟨_, (sort_readKey_of_role hsound (asked_of_slot_range hslot).1).2, hkey⟩

end Schema

/-- Whether a query reads a table by keys that the table has. -/
structure Selection.Fits (selection : Selection) (definition : ModelDefinition) (schema : Schema)
    (table : MemoryTable) (keys : KeySchema) : Prop where
  keySchemaFor : table.keySchemaFor selection.index = .ok keys
  /-- The keys are those of the table or of the index that is selected. -/
  names : selection.index = none ∧ keys.names = schema.hashKey :: schema.rangeKey.toList ∨
    ∃ index ∈ schema.indexes, selection.index = some index.name ∧ keys.names = index.keyAttributes
  types : ∀ key ∈ keys.attributes, key.type = definition.keyType key.name
  hash : ∃ path operand, selection.hashCondition = some (.compare path .eq operand) ∧
    selection.placeholders.attribute? path = some keys.partition.name
  range : ∀ e, selection.rangeCondition = some e → ∃ sort path, keys.sort = some sort ∧
    e.operands.head? = some path ∧ selection.placeholders.attribute? path = some sort.name
  /-- The text of the key condition can be read, and resolved if its operands can be keys. -/
  resolves : ∃ expr, selection.keyCondition.map Expr.parse = some (.ok expr) ∧
    ((∃ condition, KeyCondition.resolve keys selection.bindings expr = .ok condition) ↔
      ∀ e ∈ selection.keyConditions, selection.HasKeyOperands e)

namespace Schema

variable {schema : Schema} {filter : Filter} {selection : Selection}

theorem names_readKey (schema : Schema) (target : Option Index) : (schema.readKey target).names =
    match target with
    | none => schema.hashKey :: schema.rangeKey.toList
    | some index => index.keyAttributes := by
  cases target with
  | none => cases hrange : schema.rangeKey <;>
      simp [readKey, keySchema, KeySchema.names, KeySchema.attributes, hrange]
  | some index => cases hrange : index.rangeKey <;>
      simp [readKey, keySchema, KeySchema.names, KeySchema.attributes, Index.keyAttributes, hrange]

theorem type_readKey {target : Option Index} {key : KeyAttribute}
    (hmem : key ∈ (schema.readKey target).attributes) : key.type = schema.scalarType key.name := by
  have hkey (hash : String) (range : Option String)
      (hmem : key ∈ (schema.keySchema hash range).attributes) :
      key.type = schema.scalarType key.name := by
    rcases List.mem_cons.1 hmem with rfl | hmem
    · rfl
    · cases range with
      | none => cases hmem
      | some name =>
        obtain rfl := List.mem_singleton.1 hmem
        rfl
  cases target <;> exact hkey _ _ hmem

/-- The key condition of a query is read back from its text as its terms. -/
theorem exists_parse_keyCondition (h : schema.compileQuery filter = .ok selection)
    (hhash : selection.hashCondition.isSome) : selection.placeholders.IsSound ∧
      ∃ expr, selection.keyCondition.map Expr.parse = some (.ok expr) ∧
        expr.conjuncts = selection.keyConditions := by
  obtain ⟨⟨fragments, after⟩, hrender, h⟩ := bind_eq_ok_iff.1 h
  cases h
  obtain ⟨hrenderings, -⟩ := renderings_renderFragments Placeholders.isSound_empty hrender
  have hlexical : ∀ e ∈ (Fragment.select fragments after).keyConditions,
      e.IsLexical ∧ e.level = 3 := fun e hmem => hrenderings.isLexical e
    ((Fragment.select_perm fragments after).mem_iff.1 (List.mem_append_left _ hmem))
  refine ⟨hrenderings.isSound, ?_⟩
  have hterms := Expr.terms_conjunction? hlexical
  obtain ⟨first, hfirst⟩ := Option.isSome_iff_exists.1 hhash
  have hkeys : (Fragment.select fragments after).keyConditions =
      first :: (Fragment.select fragments after).rangeCondition.toList := by
    rw [Selection.keyConditions, hfirst]
    rfl
  unfold Selection.keyCondition
  rw [hkeys] at hterms hlexical ⊢
  have hparse := Expr.parse_conjunction? (fun e hmem => (hlexical e hmem).1)
    (show Expr.conjunction? (first :: _) = some _ from rfl)
  refine ⟨_, congrArg some hparse, ?_⟩
  simpa only [Expr.terms, Expr.conjunction?, Option.map_some, hparse] using hterms

/-- Every query that is planned for a model fits the table that is provisioned for it. -/
theorem fits_provisioned {registry after : Registry} {definition : ModelDefinition}
    (hdefine : registry.define definition = .ok (schema, after))
    (hplan : schema.plan filter = .ok (.query selection)) (polls : Nat) :
    ∃ table keys, MemoryTable.ofRequest schema.createTable polls = .ok table ∧
      selection.Fits definition schema table keys := by
  have hresolve := Registry.resolve_of_define hdefine
  have hsound := ModelDefinition.hasSoundIndexes_of_resolve hresolve
  obtain ⟨hquery, hhash⟩ := compileQuery_of_plan hplan
  obtain ⟨target, htarget, hindex, ⟨path, operand, hcondition, hterm⟩, hrange⟩ :=
    isKeyTerm_of_compileQuery hsound hquery hhash
  obtain ⟨hplaceholders, expr, hparse, hconjuncts⟩ := exists_parse_keyCondition hquery hhash
  have hkeys : selection.keyConditions =
      .compare path .eq operand :: selection.rangeCondition.toList := by
    rw [Selection.keyConditions, hcondition]
    rfl
  refine ⟨schema.provisioned polls, schema.readKey target, ofRequest_createTable schema polls,
    ?_, ?_, fun key hmem => ?_, ?_, fun e he => ?_, expr, hparse, ?_⟩
  · rw [hindex, keySchemaFor_provisioned hsound htarget]
  · rw [names_readKey, hindex]
    cases target with
    | none => exact .inl ⟨rfl, rfl⟩
    | some index => exact .inr ⟨index, htarget index rfl, rfl, rfl⟩
  · rw [type_readKey hmem, ModelDefinition.scalarType_of_resolve hresolve]
  · obtain ⟨other, hother, hattribute⟩ := hterm.exists_attribute?
    cases hother
    exact ⟨path, operand, hcondition, hattribute⟩
  · obtain ⟨sort, hsort, hterm⟩ := hrange e he
    obtain ⟨other, hother, hattribute⟩ := hterm.exists_attribute?
    exact ⟨sort, other, hsort, hother, hattribute⟩
  · rw [← hconjuncts]
    exact Selection.exists_resolve_iff hplaceholders hterm hrange (hconjuncts.trans hkeys)

/-- The properties of bookings, with an index of those of a guest by room. -/
def bookingProperties : Json := .obj [
  ("guest", .obj [("type", .str "String"), ("keyType", .str "hash")]),
  ("day", .obj [("type", .str "Date"), ("keyType", .str "range")]),
  ("id", .obj [("type", .str "String"), ("keyType", .str "pk")]),
  ("room", .obj [("type", .str "Number"), ("index", .obj [("local", .obj [])])])]

def bookings : Schema where
  name := "Booking"
  tableName := "Booking"
  hashKey := "guest"
  rangeKey := some "day"
  compositeKey := some "id"
  separator := defaultSeparator
  generatesHash := false
  types := [("day", .date), ("guest", .string), ("id", .string), ("room", .number)]
  localIndexes := [("room", {
    name := "roomLocalIndex"
    kind := .localIndex
    hashKey := "guest"
    rangeKey := some "room"
    projection := .keysOnly
    throughput := none })]
  globalIndexes := []
  settings := {}

def floors : Filter where
  conditions := [("guest", .equals (.str "ann")), ("room", .range (.ofInt 100) (.ofInt 299))]

def floorSelection : Selection where
  index := some "roomLocalIndex"
  hashCondition := some (.compare (.path "#G") .eq (.value ":guest"))
  rangeCondition := some (.between (.path "#R") (.value ":room_start") (.value ":room_end"))
  names := [("#G", "guest"), ("#R", "room")]
  values := [(":guest", .str "ann"), (":room_end", .ofInt 299), (":room_start", .ofInt 100)]

/-- Bookings on some floors are read from the index by room. -/
theorem fits_floors : ∃ definition,
    ModelDefinition.ofJson "Booking" bookingProperties .null = .ok definition ∧
    Registry.define [] definition = .ok (bookings, [("Booking", bookings)]) ∧
    bookings.plan floors = .ok (.query floorSelection) ∧
    ∃ table keys, MemoryTable.ofRequest bookings.createTable 0 = .ok table ∧
      floorSelection.Fits definition bookings table keys := by
  obtain ⟨definition, hread, hdefine⟩ := bind_eq_ok_iff.1 (show (do
    let definition ← ModelDefinition.ofJson "Booking" bookingProperties .null
    Registry.define [] definition) = .ok (bookings, [("Booking", bookings)]) from rfl)
  have hplan : bookings.plan floors = .ok (.query floorSelection) := rfl
  exact ⟨definition, hread, hdefine, hplan, fits_provisioned hdefine hplan 0⟩

end Schema

end KeyedStore
