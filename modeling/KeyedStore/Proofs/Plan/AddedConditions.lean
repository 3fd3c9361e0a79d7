import KeyedStore.Proofs.Plan.KeyFit
import KeyedStore.Proofs.Plan.KeyedConditions

/-!
# Added conditions

Whether a condition goes into the key condition of a query depends on what the query reads and on
the role of the attribute, and a bare list is understood by that role, too. A role depends on the
other conditions in one way only: the range key of a global index is one if the hash key of the
index is restricted as well.
-/
namespace KeyedStore

theorem Filter.isSome_condition?_iff {filter : Filter} {name : String} :
    (filter.condition? name).isSome ↔ name ∈ filter.conditions.map (·.1) := by
  simp [condition?]

namespace Schema

variable {schema : Schema} {filter other : Filter} {selection selection' : Selection}
  {c added : String × Condition} {name : String}

/-- The last global index with a range key of which a filter restricts the hash key. -/
def rangedIndex? (schema : Schema) (filter : Filter) (name : String) : Option Index :=
  schema.globalIndexes.values.reverse.find? fun index =>
    index.rangeKey = some name && (filter.condition? index.hashKey).isSome

/-- The role of an attribute is the same in all filters, or that of a range key of the global index
that is used by it, if there is one. -/
theorem role_eq_or (schema : Schema) (name : String) :
    (∃ role, ∀ filter, schema.role filter name = role) ∨
      ∀ filter, schema.role filter name = match schema.rangedIndex? filter name with
        | some index => .range (some index)
        | none => .plain := by
  unfold role
  by_cases hhash : name = schema.hashKey
  · exact .inl ⟨.hash none, fun _ => if_pos hhash⟩
  · by_cases hrange : schema.rangeKey = some name
    · exact .inl ⟨.range none, fun _ => by rw [if_neg hhash, if_pos hrange]⟩
    · simp only [if_neg hhash, if_neg hrange]
      cases schema.globalIndexes.get? name with
      | some index => exact .inl ⟨.hash (some index), fun _ => rfl⟩
      | none =>
        cases schema.localIndexes.get? name with
        | some index => exact .inl ⟨.range (some index), fun _ => rfl⟩
        | none => exact .inr fun _ => rfl

theorem rangedIndex?_eq_some_iff {index : Index} :
    schema.rangedIndex? filter name = some index ↔
      (index.rangeKey = some name ∧ (filter.condition? index.hashKey).isSome) ∧
        ∃ before after, schema.globalIndexes.values.reverse = before ++ index :: after ∧
          ∀ last ∈ before, last.rangeKey = some name →
            (filter.condition? last.hashKey).isSome = false := by
  unfold rangedIndex?
  rw [List.find?_eq_some_iff_append]
  simp [imp_iff_not_or]

/-- The role of a range key of global indexes depends on which of their hash keys are restricted. -/
theorem role_congr (h : ∀ index ∈ schema.globalIndexes.values, index.rangeKey = some name →
    (filter.condition? index.hashKey).isSome = (other.condition? index.hashKey).isSome) :
    schema.role filter name = schema.role other name := by
  rcases schema.role_eq_or name with ⟨role, hrole⟩ | hrole
  · rw [hrole, hrole]
  · have hranged : (schema.globalIndexes.values.reverse.filter fun index =>
          index.rangeKey = some name && (filter.condition? index.hashKey).isSome) =
        schema.globalIndexes.values.reverse.filter fun index =>
          index.rangeKey = some name && (other.condition? index.hashKey).isSome := by
      refine List.filter_congr fun index hmem => ?_
      by_cases hrange : index.rangeKey = some name
      · rw [h index (List.mem_reverse.1 hmem) hrange]
      · simp [hrange]
    rw [hrole, hrole, rangedIndex?, rangedIndex?, ← List.head?_filter, ← List.head?_filter, hranged]

section MoreConditions

variable (h : ∀ attr, (filter.condition? attr).isSome → (other.condition? attr).isSome)
include h

/-- A range key stays one if more attributes are restricted. -/
theorem exists_role_range {target : Option Index}
    (hrange : schema.role filter name = .range target) :
    ∃ target', schema.role other name = .range target' := by
  rcases schema.role_eq_or name with ⟨role, hrole⟩ | hrole
  · exact ⟨target, (hrole other).trans ((hrole filter).symm.trans hrange)⟩
  · rw [hrole] at hrange ⊢
    cases hfound : schema.rangedIndex? filter name with
    | none => simp [hfound] at hrange
    | some index =>
      obtain ⟨⟨hname, hhash⟩, before, after, hindexes, -⟩ := rangedIndex?_eq_some_iff.1 hfound
      have hsome : (schema.rangedIndex? other name).isSome := by
        refine List.find?_isSome.2 ⟨index, by simp [hindexes], ?_⟩
        simp [hname, h _ hhash]
      obtain ⟨index', hfound'⟩ := Option.isSome_iff_exists.1 hsome
      exact ⟨some index', by rw [hfound']⟩

/-- A range key is that of the same index if fewer attributes are restricted, as long as the hash
key of the index is. -/
theorem role_eq_of_role_range {target : Option Index}
    (hrange : schema.role other name = .range target)
    (htarget : ∀ index, target = some index → (filter.condition? index.hashKey).isSome) :
    schema.role filter name = .range target := by
  rcases schema.role_eq_or name with ⟨role, hrole⟩ | hrole
  · exact (hrole filter).trans ((hrole other).symm.trans hrange)
  · rw [hrole] at hrange ⊢
    cases hfound : schema.rangedIndex? other name with
    | none => simp [hfound] at hrange
    | some index =>
      simp only [hfound, AttributeRole.range.injEq] at hrange
      subst hrange
      obtain ⟨⟨hname, -⟩, before, after, hindexes, hlast⟩ := rangedIndex?_eq_some_iff.1 hfound
      have hfound' : schema.rangedIndex? filter name = some index := by
        refine rangedIndex?_eq_some_iff.2
          ⟨⟨hname, htarget index rfl⟩, before, after, hindexes, fun last hmem hrange => ?_⟩
        have hnone := hlast last hmem hrange
        exact Bool.eq_false_iff.2 fun hsome => by simp [h _ hsome] at hnone
      rw [hfound']

end MoreConditions

/-- Whether some global index has two attributes as its hash key and its range key. -/
def HasGlobalIndex (schema : Schema) (hash range : String) : Prop :=
  ∃ index ∈ schema.globalIndexes.values, index.hashKey = hash ∧ index.rangeKey = some range

theorem isSome_of_added (hadded : other.conditions.Perm (added :: filter.conditions))
    (h : (filter.condition? name).isSome) : (other.condition? name).isSome := by
  rw [Filter.isSome_condition?_iff] at h ⊢
  exact (hadded.map _).mem_iff.2 (List.mem_cons_of_mem _ h)

/-- A condition that is added leaves all attributes their roles but the range keys of global indexes
by its own attribute. -/
theorem role_of_added (hadded : other.conditions.Perm (added :: filter.conditions))
    (hfree : ¬schema.HasGlobalIndex added.1 name) :
    schema.role other name = schema.role filter name := by
  refine role_congr fun index hmem hrange => ?_
  have hne : index.hashKey ≠ added.1 := fun heq => hfree ⟨index, hmem, heq, hrange⟩
  rw [Bool.eq_iff_iff, Filter.isSome_condition?_iff, Filter.isSome_condition?_iff,
    (hadded.map _).mem_iff, List.map_cons, List.mem_cons, or_iff_right hne]

/-- What a query understands by a condition: a bare list is a range if it has two members and its
attribute is a range key, and a set otherwise. -/
def settle (schema : Schema) (filter : Filter) (c : String × Condition) : Condition :=
  match c.2 with
  | .list values =>
    match schema.role filter c.1, values with
    | .range _, [first, last] => .range first last
    | _, _ => .inSet values
  | condition => condition

/-- A condition is understood in the same way with an added one, if it is no bare list of two that
is a set without that. -/
theorem settle_of_added (hadded : other.conditions.Perm (added :: filter.conditions))
    (hset : ∀ first last, c.2 = .list [first, last] →
      schema.settle filter c ≠ .inSet [first, last]) :
    schema.settle other c = schema.settle filter c := by
  obtain ⟨name, condition⟩ := c
  cases condition with
  | equals value | operator op value | range first last | inSet values => rfl
  | list values =>
    rcases values with - | ⟨first, - | ⟨last, - | ⟨third, rest⟩⟩⟩
    case cons.cons.nil =>
      cases hrole : schema.role filter name with
      | plain | hash index => exact absurd (by simp [settle, hrole]) (hset first last rfl)
      | range index =>
        obtain ⟨index', hrole'⟩ := exists_role_range (fun _ => isSome_of_added hadded) hrole
        simp [settle, hrole, hrole']
    all_goals simp [settle]

/-- A filter without bare lists, which a query understands in the same way. -/
def settled (schema : Schema) (filter : Filter) : Filter :=
  { filter with conditions := filter.conditions.map fun c => (c.1, schema.settle filter c) }

theorem map_fst_settled (schema : Schema) (filter : Filter) :
    (schema.settled filter).conditions.map (·.1) = filter.conditions.map (·.1) := by
  simp [settled]

theorem forall_mem_settled {p : String × Condition → Prop} :
    (∀ c ∈ (schema.settled filter).conditions, p c) ↔
      ∀ c ∈ filter.conditions, p (c.1, schema.settle filter c) :=
  List.forall_mem_map

theorem settle_ne_list (schema : Schema) (filter : Filter) (c : String × Condition)
    (values : List Json) : schema.settle filter c ≠ .list values := by
  obtain ⟨name, condition⟩ := c
  cases condition with
  | list members =>
    unfold settle
    dsimp only
    split <;> nofun
  | equals value | operator op value | range first last | inSet values => nofun

theorem settle_congr (h : schema.role filter c.1 = schema.role other c.1) :
    schema.settle filter c = schema.settle other c := by
  unfold settle
  rw [h]

theorem slot_congr (h : schema.role filter c.1 = schema.role other c.1) :
    schema.slot filter c = schema.slot other c := by
  unfold slot
  rw [h]

/-- A bare list is rendered as what is understood by it. -/
theorem renderFragment_settle (placeholders : Placeholders) (c : String × Condition) :
    schema.renderFragment filter placeholders c.1 (schema.settle filter c) =
      schema.renderFragment filter placeholders c.1 c.2 := by
  obtain ⟨name, condition⟩ := c
  cases condition with
  | equals value | operator op value | range first last | inSet values => rfl
  | list values =>
    unfold renderFragment settle
    cases hrole : schema.role filter name with
    | plain | hash index => rfl
    | range index => rcases values with - | ⟨first, - | ⟨last, - | ⟨third, rest⟩⟩⟩ <;> rfl

theorem renderFragments_settle (placeholders : Placeholders)
    (conditions : List (String × Condition)) :
    schema.renderFragments filter placeholders
        (conditions.map fun c => (c.1, schema.settle filter c)) =
      schema.renderFragments filter placeholders conditions := by
  induction conditions generalizing placeholders with
  | nil => rfl
  | cons c rest ih => simp only [List.map_cons, renderFragments, renderFragment_settle, ih]

/-- A query is the same if its bare lists are replaced by what it understands by them. -/
theorem compileQuery_settled (schema : Schema) (filter : Filter) :
    schema.compileQuery (schema.settled filter) = schema.compileQuery filter := by
  have hrole : schema.role (schema.settled filter) = schema.role filter := by
    funext name
    refine role_congr fun index _ _ => ?_
    rw [Bool.eq_iff_iff, Filter.isSome_condition?_iff, Filter.isSome_condition?_iff,
      map_fst_settled]
  unfold compileQuery
  rw [renderFragments_congr hrole, settled, renderFragments_settle]

theorem plan_settled (h : schema.plan filter = .ok (.query selection)) :
    schema.plan (schema.settled filter) = .ok (.query selection) := by
  obtain ⟨hquery, hhash⟩ := compileQuery_of_plan h
  rw [plan, compileQuery_settled, hquery, ok_bind, if_pos hhash]

theorem nodup_settled (hnodup : (filter.conditions.map (·.1)).Nodup) :
    ((schema.settled filter).conditions.map (·.1)).Nodup := by
  rwa [map_fst_settled]

/-- A condition is part of the key condition if it is on the hash key of what the query reads, or if
it can narrow that by its range key. -/
theorem isKeyedBy_iff_of_compileQuery (hsound : schema.HasSoundIndexes)
    (hnodup : (filter.conditions.map (·.1)).Nodup) (h : schema.compileQuery filter = .ok selection)
    (hhash : selection.hashCondition.isSome) :
    ∃ target, (∀ index, target = some index → index ∈ schema.indexes) ∧
      selection.index = target.map (·.name) ∧
      (filter.condition? (schema.readKey target).partition.name).isSome ∧
      ∀ c ∈ filter.conditions, (selection.IsKeyedBy c.1 ↔
        c.1 = (schema.readKey target).partition.name ∨ schema.slot filter c = .range target) := by
  obtain ⟨target, htarget, hindex, ⟨path, operand, hcondition, hterm⟩, hrange, hnone⟩ :=
    exists_target_of_compileQuery hsound h hhash
  have hrenders : schema.RendersAll (schema.settled filter) selection :=
    rendersAll_of_compileQuery (nodup_settled hnodup)
      (forall_mem_settled.2 fun c _ => settle_ne_list schema filter c)
      ((compileQuery_settled schema filter).trans h)
  -- A term of the key condition names the attribute of one condition.
  have hnames {e : Expr} {attr : String} (he : e ∈ selection.keyConditions)
      (hkey : selection.IsKeyTerm attr e) : attr ∈ filter.conditions.map (·.1) ∧
        ∀ operand ∈ e.operands, ∀ attr',
          selection.placeholders.attribute? operand = some attr' → attr' = attr := by
    obtain ⟨c, hc, hrendered⟩ := hrenders.exists_condition e (List.mem_append_left _ he)
    obtain ⟨head, hhead, hfirst⟩ := hkey.exists_attribute?
    have hname := hrendered.eq_of_attribute? (List.mem_of_mem_head? hhead) hfirst
    refine ⟨?_, fun operand hoperand attr' hattr => ?_⟩
    · rw [hname, ← map_fst_settled schema]
      exact List.mem_map_of_mem hc
    · rw [hname, hrendered.eq_of_attribute? hoperand hattr]
  have hfirst : .compare path .eq operand ∈ selection.keyConditions :=
    List.mem_append_left _ (Option.mem_toList.2 hcondition)
  refine ⟨target, htarget, hindex, Filter.isSome_condition?_iff.2 (hnames hfirst hterm).1,
    fun c hc => ⟨?_, ?_⟩⟩
  · rintro ⟨e, he, operand', hoperand, hattr⟩
    rcases List.mem_append.1 he with hmem | hmem
    · rw [hcondition] at hmem
      obtain rfl := List.mem_singleton.1 hmem
      exact .inl ((hnames he hterm).2 operand' hoperand _ hattr)
    · obtain ⟨c', hc', hslot, hkey⟩ := hrange e (Option.mem_toList.1 hmem)
      have heq : c = c' := List.inj_on_of_nodup_map hnodup hc hc'
        ((hnames he hkey).2 operand' hoperand _ hattr)
      exact .inr (heq ▸ hslot)
  · rintro (hname | hslot)
    · obtain ⟨head, hhead, hattr⟩ := hterm.exists_attribute?
      exact ⟨_, hfirst, head, List.mem_of_mem_head? hhead, hname ▸ hattr⟩
    · cases hfound : selection.rangeCondition with
      | none => exact absurd hslot (hnone hfound c hc)
      | some e =>
        -- Both conditions are on the range key of what is read.
        obtain ⟨c', -, hslot', hkey⟩ := hrange e hfound
        obtain ⟨-, hsort⟩ := sort_readKey_of_role hsound (asked_of_slot_range hslot).1
        obtain ⟨-, hsort'⟩ := sort_readKey_of_role hsound (asked_of_slot_range hslot').1
        have hname : c'.1 = c.1 :=
          congrArg KeyAttribute.name (Option.some.inj (hsort'.symm.trans hsort))
        obtain ⟨head, hhead, hattr⟩ := hkey.exists_attribute?
        exact ⟨e, List.mem_append_right _ (Option.mem_toList.2 hfound), head,
          List.mem_of_mem_head? hhead, hname ▸ hattr⟩

/-- Indexes are told by their names. -/
theorem eq_of_map_name_eq (hsound : schema.HasSoundIndexes) {target target' : Option Index}
    (htarget : ∀ index, target = some index → index ∈ schema.indexes)
    (htarget' : ∀ index, target' = some index → index ∈ schema.indexes)
    (h : target.map (·.name) = target'.map (·.name)) : target = target' := by
  obtain ⟨names, hindexes⟩ := hsound
  cases target with
  | none => exact (Option.map_eq_none_iff.1 h.symm).symm
  | some index =>
    obtain ⟨index', rfl, hname⟩ := Option.map_eq_some_iff.1 h.symm
    rw [List.inj_on_of_nodup_map hindexes.nodup (htarget index rfl) (htarget' index' rfl)
      hname.symm]

section TwoQueries

variable (hsound : schema.HasSoundIndexes) (hnodup : (filter.conditions.map (·.1)).Nodup)
  (hnodup' : (other.conditions.map (·.1)).Nodup)
  (hadded : other.conditions.Perm (added :: filter.conditions))
  (h : schema.plan filter = .ok (.query selection))
  (h' : schema.plan other = .ok (.query selection')) (hindex : selection.index = selection'.index)
include hsound hnodup hnodup' hadded h h' hindex

/-- Two queries of the same index put conditions into their key conditions by the same keys. -/
theorem isKeyedBy_iff_of_added : ∃ target,
    (filter.condition? (schema.readKey target).partition.name).isSome ∧
    ∀ c ∈ filter.conditions,
      (selection.IsKeyedBy c.1 ↔
        c.1 = (schema.readKey target).partition.name ∨ schema.slot filter c = .range target) ∧
      (selection'.IsKeyedBy c.1 ↔
        c.1 = (schema.readKey target).partition.name ∨ schema.slot other c = .range target) := by
  obtain ⟨hquery, hhash⟩ := compileQuery_of_plan h
  obtain ⟨hquery', hhash'⟩ := compileQuery_of_plan h'
  obtain ⟨target, htarget, hname, hpartition, hkeyed⟩ :=
    isKeyedBy_iff_of_compileQuery hsound hnodup hquery hhash
  obtain ⟨target', htarget', hname', -, hkeyed'⟩ :=
    isKeyedBy_iff_of_compileQuery hsound hnodup' hquery' hhash'
  obtain rfl := eq_of_map_name_eq hsound htarget htarget'
    (hname.symm.trans (hindex.trans hname'))
  exact ⟨target, hpartition, fun c hc =>
    ⟨hkeyed c hc, hkeyed' c (hadded.mem_iff.2 (List.mem_cons_of_mem _ hc))⟩⟩

/-- A condition is in the key condition with an added one or without, if its attribute has the same
role. -/
theorem isKeyedBy_congr (hc : c ∈ filter.conditions)
    (hrole : schema.role filter c.1 = schema.role other c.1) :
    selection.IsKeyedBy c.1 ↔ selection'.IsKeyedBy c.1 := by
  obtain ⟨target, -, hkeyed⟩ :=
    isKeyedBy_iff_of_added hsound hnodup hnodup' hadded h h' hindex
  rw [(hkeyed c hc).1, (hkeyed c hc).2, slot_congr hrole]

/-- A condition that is in the key condition with an added one is there without it, too. -/
theorem isKeyedBy_of_added (hc : c ∈ filter.conditions) (hkeyed' : selection'.IsKeyedBy c.1) :
    selection.IsKeyedBy c.1 := by
  obtain ⟨target, hpartition, hkeyed⟩ :=
    isKeyedBy_iff_of_added hsound hnodup hnodup' hadded h h' hindex
  refine (hkeyed c hc).1.2 (((hkeyed c hc).2.1 hkeyed').imp_right fun hslot => ?_)
  obtain ⟨hrole', -⟩ := asked_of_slot_range hslot
  have hrole : schema.role filter c.1 = .range target :=
    role_eq_of_role_range (fun _ => isSome_of_added hadded) hrole' fun index heq => by
      subst heq
      exact hpartition
  exact (slot_congr (hrole.trans hrole'.symm)).trans hslot

/-- A condition that holds with an added one holds without it. If its attribute is the range key of
a global index by the added attribute, it must not be a bare list that is a set without the added
condition, and the value of the item must be comparable where it is compared as a key. -/
theorem holds_of_added {item : Item} (hc : c ∈ filter.conditions)
    (hset : schema.HasGlobalIndex added.1 c.1 → ∀ first last, c.2 = .list [first, last] →
      schema.settle filter c ≠ .inSet [first, last])
    (hkey : schema.HasGlobalIndex added.1 c.1 → selection.IsKeyedBy c.1 →
      ((schema.settle filter c).restriction.KeyHolds schema c.1 item ↔
        (schema.settle filter c).verdict schema item c.1 = .ok true))
    (hholds : selection'.Holds schema item (c.1, schema.settle other c)) :
    selection.Holds schema item (c.1, schema.settle filter c) := by
  by_cases hranged : schema.HasGlobalIndex added.1 c.1
  · rw [settle_of_added hadded (hset hranged)] at hholds
    have hkeyed : selection'.IsKeyedBy c.1 → selection.IsKeyedBy c.1 :=
      isKeyedBy_of_added hsound hnodup hnodup' hadded h h' hindex hc
    refine ⟨fun hown => ?_, fun hown => hholds.2 fun hkeyed' => hown (hkeyed hkeyed')⟩
    by_cases hkeyed' : selection'.IsKeyedBy c.1
    · exact hholds.1 hkeyed'
    · exact (hkey hranged hown).2 (hholds.2 hkeyed')
  · have hrole := (role_of_added hadded hranged).symm
    unfold Selection.Holds
    rw [isKeyedBy_congr hsound hnodup hnodup' hadded h h' hindex hc hrole, settle_congr hrole]
    exact hholds

end TwoQueries

end Schema

end KeyedStore
