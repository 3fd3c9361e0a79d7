import KeyedStore.Memory.KeyCondition
import KeyedStore.Proofs.Model.KeyClaims
import KeyedStore.Proofs.Plan.Selecting
import Mathlib.Data.List.Dedup
import Mathlib.Data.List.Perm.Basic

/-!
# Completeness of compiled filters

`Selection.terms` are the conditions that a request carries, read back from its two texts. A request
is complete if they are the renderings of the conditions of its filter, one each. A scan is always
complete. A query leaves its filter out unless it names more attributes than its key condition has
parts, so it loses conditions where several of them share an attribute.
-/
namespace KeyedStore

namespace Expr

/-- The parts of the condition that a text is read as. -/
def terms (text : Option String) : List Expr :=
  match text.map parse with
  | some (.ok e) => e.conjuncts
  | _ => []

theorem conjuncts_of_level_eq {e : Expr} (h : e.level = 3) : e.conjuncts = [e] := by
  cases e <;> first | rfl | simp [level] at h

theorem conjuncts_foldl_and (first : Expr) {rest : List Expr} (h : ∀ e ∈ rest, e.level = 3) :
    (rest.foldl and first).conjuncts = first.conjuncts ++ rest := by
  induction rest generalizing first with
  | nil => simp
  | cons second rest ih =>
    rw [List.foldl_cons, ih _ fun e hmem => h e (List.mem_cons_of_mem _ hmem), conjuncts,
      conjuncts_of_level_eq (h second List.mem_cons_self), List.append_assoc, List.singleton_append]

/-- A printed conjunction is read back as its parts. -/
theorem terms_conjunction? {exprs : List Expr} (h : ∀ e ∈ exprs, e.IsLexical ∧ e.level = 3) :
    terms ((conjunction? exprs).map print) = exprs := by
  cases exprs with
  | nil => rfl
  | cons first rest =>
    have hparse : parse (rest.foldl and first).print = .ok (rest.foldl and first) :=
      parse_conjunction? (fun e hmem => (h e hmem).1) rfl
    have hconjuncts := conjuncts_foldl_and first fun e hmem =>
      (h e (List.mem_cons_of_mem _ hmem)).2
    rw [conjuncts_of_level_eq (h first List.mem_cons_self).2] at hconjuncts
    simp only [terms, conjunction?, Option.map_some, hparse, hconjuncts, List.singleton_append]

end Expr

/-- Whether a condition may be written as a restriction, in a key condition or in a filter. -/
def Condition.Asks (condition : Condition) (r : Restriction) : Prop :=
  r = condition.restriction ∨ condition.sortRestriction? = some r

/-- The attributes that a filter restricts. -/
def Filter.attributes (filter : Filter) : List String := (filter.conditions.map (·.1)).dedup

namespace Selection

/-- The conditions that a request carries, in its key condition and in its filter. -/
def terms (selection : Selection) : List Expr :=
  Expr.terms selection.keyCondition ++ Expr.terms selection.filter

/-- Whether a request carries each condition of a filter exactly once, and binds no value that it
does not use. -/
structure IsComplete (schema : Schema) (filter : Filter) (selection : Selection) : Prop where
  rendered : ∃ conditions, conditions.Perm filter.conditions ∧
    List.Forall₂ (fun c e => ∃ r, Condition.Asks c.2 r ∧
      r.IsRendered schema ⟨selection.names, selection.values⟩ c.1 e) conditions selection.terms
  used : ∀ text ∈ selection.values.keys, ∃ e ∈ selection.terms, .value text ∈ e.operands

theorem IsComplete.length_terms {schema : Schema} {filter : Filter} {selection : Selection}
    (h : selection.IsComplete schema filter) :
    selection.terms.length = filter.conditions.length := by
  obtain ⟨conditions, hperm, hrendered⟩ := h.rendered
  rw [← hrendered.length_eq, hperm.length_eq]

end Selection

theorem Condition.asks_asked (schema : Schema) (filter : Filter) (c : String × Condition) :
    c.2.Asks (schema.asked filter c) := by
  unfold Schema.asked
  split
  · cases hsort : c.2.sortRestriction? with
    | none => exact .inl rfl
    | some r => exact .inr hsort
  · exact .inl rfl

namespace Renderings

variable {schema : Schema} {filter : Filter} {after : Placeholders} {exprs : List Expr}
  {ask : String × Condition → Restriction}

/-- The attributes that are named are those of the conditions, each once. -/
theorem length_names
    (h : Renderings schema {} (filter.conditions.map fun c => (c.1, ask c)) exprs after) :
    after.names.length = filter.attributes.length := by
  have hperm : after.names.values.Perm filter.attributes := by
    refine (List.perm_ext_iff_of_nodup h.isSound.attributes_nodup (List.nodup_dedup _)).2
      fun attr => ?_
    rw [h.attributes, List.mem_dedup]
    simp [OrderedMap.values]
  simpa [OrderedMap.values] using hperm.length_eq

/-- A request whose parts are the rendered conditions in any order is complete if it has no filters,
or is not told to leave them out. -/
theorem isComplete_iff {selection : Selection}
    (h : Renderings schema {} (filter.conditions.map fun c => (c.1, ask c)) exprs after)
    (hask : ∀ c : String × Condition, c.2.Asks (ask c)) (hnames : selection.names = after.names)
    (hvalues : selection.values = after.values)
    (hperm : (selection.keyConditions ++ selection.filters).Perm exprs) :
    selection.IsComplete schema filter ↔
      selection.filters = [] ∨ selection.keyConditions.length < filter.attributes.length := by
  have hlength : exprs.length = filter.conditions.length := by
    simpa using h.areRendered.length_eq.symm
  have hlexical (e : Expr) (hmem : e ∈ selection.keyConditions ++ selection.filters) :
      e.IsLexical ∧ e.level = 3 := h.isLexical e (hperm.mem_iff.1 hmem)
  have hkeys : Expr.terms selection.keyCondition = selection.keyConditions :=
    Expr.terms_conjunction? fun e hmem => hlexical e (List.mem_append_left _ hmem)
  have hfilters : Expr.terms ((Expr.conjunction? selection.filters).map Expr.print) =
      selection.filters :=
    Expr.terms_conjunction? fun e hmem => hlexical e (List.mem_append_right _ hmem)
  rw [← h.length_names, ← hnames]
  constructor
  · intro hcomplete
    by_cases hcount : selection.keyConditions.length < selection.names.length
    · exact .inr hcount
    · -- The filter is left out, so only an empty one loses nothing.
      have hterms := hcomplete.length_terms
      rw [← hlength, ← hperm.length_eq, Selection.terms, hkeys, Selection.filter, if_neg hcount]
        at hterms
      exact .inl (List.length_eq_zero_iff.1 (by simpa [Expr.terms] using hterms))
  · intro hkept
    have hterms : selection.terms = selection.keyConditions ++ selection.filters := by
      rw [Selection.terms, hkeys, Selection.filter]
      split
      · rw [hfilters]
      · rename_i hcount
        simp [hkept.resolve_right hcount, Expr.terms]
    refine ⟨?_, fun text htext => ?_⟩
    · have hrendered : List.Forall₂ (fun c e => ∃ r, Condition.Asks c.2 r ∧
          r.IsRendered schema ⟨selection.names, selection.values⟩ c.1 e)
          filter.conditions exprs := by
        rw [hnames, hvalues]
        exact (List.forall₂_map_left_iff.1 h.areRendered).imp fun c e he => ⟨ask c, hask c, he⟩
      have hcomp : Relation.Comp (List.Forall₂ _) List.Perm filter.conditions selection.terms :=
        ⟨exprs, hrendered, hterms ▸ hperm.symm⟩
      rw [List.forall₂_comp_perm_eq_perm_comp_forall₂] at hcomp
      obtain ⟨conditions, hconditions, hrendered⟩ := hcomp
      exact ⟨conditions, hconditions.symm, hrendered⟩
    · rw [hvalues] at htext
      rcases h.covered text htext with ⟨e, hmem, hop⟩ | hempty
      · exact ⟨e, hterms ▸ hperm.mem_iff.2 hmem, hop⟩
      · simp [OrderedMap.keys] at hempty

end Renderings

namespace Schema

variable {schema : Schema} {filter : Filter} {selection : Selection}

/-- A scan carries all conditions of its filter. -/
theorem isComplete_of_compileScan (h : schema.compileScan filter = .ok selection) :
    selection.IsComplete schema filter := by
  obtain ⟨⟨exprs, after⟩, hrender, h⟩ := bind_eq_ok_iff.1 h
  cases h
  have hrenderings := renderings_renderFilters Placeholders.isSound_empty hrender
  refine (hrenderings.isComplete_iff (fun c => .inl rfl) rfl rfl (.refl _)).2 ?_
  cases hconditions : filter.conditions with
  | nil =>
    have hlength := hrenderings.areRendered.length_eq
    exact .inl (List.length_eq_zero_iff.1 (by simpa [hconditions] using hlength.symm))
  | cons condition conditions =>
    refine .inr (List.length_pos_of_mem (a := condition.1) ?_)
    simp [Filter.attributes, hconditions]

/-- The parts of a query are the conditions of its filter. -/
theorem length_of_compileQuery (h : schema.compileQuery filter = .ok selection) :
    selection.keyConditions.length + selection.filters.length = filter.conditions.length := by
  obtain ⟨⟨fragments, after⟩, hrender, h⟩ := bind_eq_ok_iff.1 h
  cases h
  obtain ⟨hrenderings, -⟩ := renderings_renderFragments Placeholders.isSound_empty hrender
  have hlength := hrenderings.areRendered.length_eq
  rw [← List.length_append, (Fragment.select_perm fragments after).length_eq]
  simpa using hlength.symm

/-- A query carries all conditions of its filter if none is left over from its key condition, or if
the filter has more attributes than the key condition has parts. -/
theorem isComplete_iff_of_compileQuery (h : schema.compileQuery filter = .ok selection) :
    selection.IsComplete schema filter ↔
      selection.filters = [] ∨ selection.keyConditions.length < filter.attributes.length := by
  obtain ⟨⟨fragments, after⟩, hrender, h⟩ := bind_eq_ok_iff.1 h
  cases h
  obtain ⟨hrenderings, -⟩ := renderings_renderFragments Placeholders.isSound_empty hrender
  exact hrenderings.isComplete_iff (Condition.asks_asked schema filter) rfl rfl
    (Fragment.select_perm fragments after)

/-- A query sends its filter if the conditions restrict no attribute twice. -/
theorem keepsFilters_of_nodup (hnodup : (filter.conditions.map (·.1)).Nodup)
    (h : schema.compileQuery filter = .ok selection) :
    selection.filters = [] ∨ selection.keyConditions.length < filter.attributes.length := by
  have hlength := length_of_compileQuery h
  have hattributes : filter.attributes.length = filter.conditions.length := by
    rw [Filter.attributes, List.dedup_eq_self.2 hnodup, List.length_map]
  rcases Nat.eq_zero_or_pos selection.filters.length with hzero | hpos
  · exact .inl (List.length_eq_zero_iff.1 hzero)
  · exact .inr (by omega)

/-- A query carries all conditions of a filter that restricts no attribute twice. -/
theorem isComplete_of_nodup (hnodup : (filter.conditions.map (·.1)).Nodup)
    (h : schema.compileQuery filter = .ok selection) : selection.IsComplete schema filter :=
  (isComplete_iff_of_compileQuery h).2 (keepsFilters_of_nodup hnodup h)

/-- No condition is lost in a scan, nor in a query of a filter that restricts no attribute twice. In
any other query conditions are lost exactly if some are left over from the key condition and the
filter has no more attributes than the key condition has parts. -/
theorem isComplete_of_compile (schema : Schema) (filter : Filter) :
    (∀ scan, schema.compileScan filter = .ok scan → scan.IsComplete schema filter) ∧
      ∀ query, schema.compileQuery filter = .ok query →
        (query.IsComplete schema filter ↔
          query.filters = [] ∨ query.keyConditions.length < filter.attributes.length) ∧
        ((filter.conditions.map (·.1)).Nodup → query.IsComplete schema filter) :=
  ⟨fun _ hscan => isComplete_of_compileScan hscan, fun _ hquery =>
    ⟨isComplete_iff_of_compileQuery hquery, fun hnodup => isComplete_of_nodup hnodup hquery⟩⟩

/-- Of two conditions on the hash key of an accepted model, only one is sent. -/
theorem exists_not_isComplete :
    let filter := (Filter.withEqual {} "customerId" (.str "a")).withEqual "customerId" (.str "b")
    (∃ definition, ModelDefinition.ofJson "Order" orderProperties .null = .ok definition ∧
      Registry.define [] definition = .ok (orders, [("Order", orders)])) ∧
    ∃ query, orders.compileQuery filter = .ok query ∧ ¬ query.IsComplete orders filter := by
  refine ⟨exists_orders, {
    hashCondition := some (.compare (.path "#C") .eq (.value ":customerId"))
    filters := [.compare (.path "#C") .eq (.value ":customerId1")]
    names := [("#C", "customerId")]
    values := [(":customerId", .str "a"), (":customerId1", .str "b")] }, rfl, ?_⟩
  rw [isComplete_iff_of_compileQuery rfl]
  decide

/-- Conditions on the hash key and on another attribute are both sent. -/
theorem isComplete_of_two_attributes :
    let filter := (Filter.withEqual {} "customerId" (.str "a")).withEqual "status" (.str "b")
    ∃ query, orders.compileQuery filter = .ok query ∧ query.IsComplete orders filter := by
  refine ⟨{
    hashCondition := some (.compare (.path "#C") .eq (.value ":customerId"))
    filters := [.compare (.path "#S") .eq (.value ":status")]
    names := [("#C", "customerId"), ("#S", "status")]
    values := [(":customerId", .str "a"), (":status", .str "b")] }, rfl, ?_⟩
  exact ((isComplete_of_compile orders _).2 _ rfl).2 (by decide)

end Schema

end KeyedStore
