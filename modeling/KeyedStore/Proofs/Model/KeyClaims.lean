import KeyedStore.Proofs.Json.DistinctKeys
import KeyedStore.Proofs.Model.Provisioning

/-!
# Claimed keys

The key roles that the properties of a model claim. A range key comes with a hash key and with an
identifier made of both; the three are different attributes, and hash and range are scalars.
-/
namespace KeyedStore

namespace Property

variable {model name : String} {json : Json} {property : Property}

/-- A declared property has the name that it is declared under, and a key attribute is scalar. -/
theorem ofJson_eq_ok (h : ofJson model name json = .ok property) : property.name = name ∧
    (property.role = some .hash ∨ property.role = some .range → property.type.scalar?.isSome) := by
  unfold ofJson at h
  split at h
  case h_1 =>
    cases h
    exact ⟨rfl, nofun⟩
  case h_2 declaration =>
    obtain ⟨role, -, h⟩ := bind_eq_ok_iff.1 h
    split at h
    case isTrue => cases h
    case isFalse hkey =>
      obtain ⟨⟨localIndex, globalIndex⟩, -, h⟩ := bind_eq_ok_iff.1 h
      cases h
      refine ⟨rfl, fun hrole => ?_⟩
      rw [Option.isSome_iff_ne_none]
      exact fun hnone => hkey ⟨hrole, hnone⟩
  case h_3 => cases h

/-- Properties are declared under their names, in the same order. -/
theorem allOfJson_eq_ok {declarations : Record} {properties : List Property}
    (h : allOfJson model (.obj declarations) = .ok properties) :
    properties.map (·.name) = declarations.map (·.1) ∧ ∀ property ∈ properties,
      property.role = some .hash ∨ property.role = some .range → property.type.scalar?.isSome := by
  rw [allOfJson] at h
  induction declarations generalizing properties with
  | nil =>
    cases h
    exact ⟨rfl, by simp⟩
  | cons entry rest ih =>
    rw [List.mapM_cons] at h
    obtain ⟨first, hfirst, h⟩ := bind_eq_ok_iff.1 h
    obtain ⟨others, hothers, h⟩ := bind_eq_ok_iff.1 h
    obtain rfl : first :: others = properties := Except.ok.inj h
    have hdeclared : ofJson model entry.1 entry.2 = .ok first := hfirst
    obtain ⟨hname, hscalar⟩ := ofJson_eq_ok hdeclared
    obtain ⟨hnames, hscalars⟩ := ih hothers
    exact ⟨by rw [List.map_cons, List.map_cons, hname, hnames],
      List.forall_mem_cons.2 ⟨hscalar, hscalars⟩⟩

end Property

namespace ModelDefinition

/-- Whether each property is declared once, and key attributes as scalars. -/
structure IsProper (definition : ModelDefinition) : Prop where
  nodup : (definition.properties.map (·.name)).Nodup
  scalar : ∀ property ∈ definition.properties,
    property.role = some .hash ∨ property.role = some .range → property.type.scalar?.isSome

variable {definition : ModelDefinition} {name : String}

/-- What is declared by the entries of an object is declared once. -/
theorem isProper_of_ofJson {properties settings : Json} (hdistinct : properties.HasDistinctKeys)
    (h : ofJson name properties settings = .ok definition) : definition.IsProper := by
  obtain ⟨declared, hdeclared, h⟩ := bind_eq_ok_iff.1 h
  obtain ⟨decoded, -, h⟩ := bind_eq_ok_iff.1 h
  cases h
  cases properties with
  | obj declarations =>
    obtain ⟨hnames, hscalar⟩ := Property.allOfJson_eq_ok hdeclared
    refine ⟨?_, hscalar⟩
    rw [hnames]
    exact hdistinct.isProper.distinct
  | null | bool _ | num _ | str _ | arr _ => cases hdeclared

/-- A property that is declared once has its type. -/
theorem declaredType?_of_mem (hnodup : (definition.properties.map (·.name)).Nodup)
    {property : Property} (hmem : property ∈ definition.properties) :
    definition.declaredType? property.name = some property.type := by
  have hreverse : (definition.properties.reverse.map (·.name)).Nodup := by
    rw [List.map_reverse, List.nodup_reverse]
    exact hnodup
  have hfind := find?_eq_some_of_nodup hreverse (List.mem_reverse.2 hmem)
  rw [ModelDefinition.declaredType?, hfind]
  rfl

theorem declaredType?_eq_some_iff (hnodup : (definition.properties.map (·.name)).Nodup)
    {type : PropertyType} : definition.declaredType? name = some type ↔
      ∃ property ∈ definition.properties, property.name = name ∧ property.type = type := by
  constructor
  · intro h
    obtain ⟨property, hfind, rfl⟩ := Option.map_eq_some_iff.1 h
    exact ⟨property, List.mem_reverse.1 (List.mem_of_find?_eq_some hfind),
      by simpa using List.find?_some hfind, rfl⟩
  · rintro ⟨property, hmem, rfl, rfl⟩
    exact declaredType?_of_mem hnodup hmem

end ModelDefinition

namespace KeyClaims

/-- Whether each role is claimed by one of the properties. -/
structure IsClaimed (properties : List Property) (claims : KeyClaims) : Prop where
  hash : ∀ name, claims.hash = some name →
    ∃ property ∈ properties, property.name = name ∧ property.role = some .hash
  range : ∀ name, claims.range = some name →
    ∃ property ∈ properties, property.name = name ∧ property.role = some .range
  primary : ∀ name, claims.primary = some name → name = idAttribute ∧
    ∃ property ∈ properties, property.name = name ∧ property.role = some .primary
  /-- Only the identifier is generated. -/
  uuid : claims.uuid = true → claims.hash = some idAttribute

variable {model : String} {claims after : KeyClaims} {properties : List Property}
  {property : Property}

theorem claim_eq_ok {role : String} {taken : Option String} {name : String}
    {claimed : Option String} (h : claim model role taken name = .ok claimed) :
    claimed = some name := by
  unfold claim at h
  split at h <;> cases h
  rfl

theorem IsClaimed.add (h : claims.IsClaimed properties) (hmem : property ∈ properties)
    (hadd : KeyClaims.add model claims property = .ok after) : after.IsClaimed properties := by
  unfold KeyClaims.add at hadd
  split at hadd
  case h_1 =>
    cases hadd
    exact h
  case h_2 hrole =>
    split at hadd
    case isTrue => cases hadd
    case isFalse huuid =>
      obtain ⟨hash, hclaim, hadd⟩ := bind_eq_ok_iff.1 hadd
      obtain rfl := claim_eq_ok hclaim
      cases hadd
      refine ⟨?_, h.range, h.primary, fun hgenerated => ?_⟩
      · rintro name ⟨⟩
        exact ⟨property, hmem, rfl, hrole⟩
      · simpa [show property.uuid = true from hgenerated] using huuid
  case h_3 hrole =>
    obtain ⟨range, hclaim, hadd⟩ := bind_eq_ok_iff.1 hadd
    obtain rfl := claim_eq_ok hclaim
    cases hadd
    refine ⟨h.hash, ?_, h.primary, h.uuid⟩
    rintro name ⟨⟩
    exact ⟨property, hmem, rfl, hrole⟩
  case h_4 hrole =>
    split at hadd
    case isTrue => cases hadd
    case isFalse hname =>
      obtain ⟨primary, hclaim, hadd⟩ := bind_eq_ok_iff.1 hadd
      obtain rfl := claim_eq_ok hclaim
      cases hadd
      refine ⟨h.hash, h.range, ?_, h.uuid⟩
      rintro name ⟨⟩
      exact ⟨by simpa using hname, property, hmem, rfl, hrole⟩

theorem IsClaimed.foldlM (h : claims.IsClaimed properties) {others : List Property}
    (hsub : ∀ property ∈ others, property ∈ properties)
    (hfold : others.foldlM (KeyClaims.add model) claims = .ok after) :
    after.IsClaimed properties := by
  induction others generalizing claims with
  | nil =>
    cases hfold
    exact h
  | cons property rest ih =>
    rw [List.foldlM_cons] at hfold
    obtain ⟨next, hadd, hfold⟩ := bind_eq_ok_iff.1 hfold
    obtain ⟨hproperty, hrest⟩ := List.forall_mem_cons.1 hsub
    exact ih (h.add hproperty hadd) hrest hfold

/-- A range key is claimed together with a hash key and a primary key, or none of the last two
without the other. -/
theorem ofProperties_eq_ok (h : ofProperties model properties = .ok claims) :
    claims.IsClaimed properties ∧ ((claims.range = none ∧ claims.primary = none) ∨
      ∃ hash range primary, claims.hash = some hash ∧ claims.range = some range ∧
        claims.primary = some primary) := by
  obtain ⟨claimed, hfold, hcheck⟩ := bind_eq_ok_iff.1 h
  have hempty : IsClaimed properties {} := ⟨nofun, nofun, nofun, nofun⟩
  have hclaimed := hempty.foldlM (fun _ hmem => hmem) hfold
  unfold check at hcheck
  split at hcheck <;> cases hcheck
  refine ⟨hclaimed, ?_⟩
  cases hhash : claims.hash <;> cases hrange : claims.range <;>
    cases hprimary : claims.primary <;> simp_all

end KeyClaims

namespace ModelDefinition

variable {definition : ModelDefinition} {schema : Schema}

/-- Hash, range and identifier are different attributes if no two properties have one name. -/
theorem nodup_keys (hnodup : (definition.properties.map (·.name)).Nodup)
    (hresolve : definition.resolve = .ok schema) :
    (schema.hashKey :: schema.rangeKey.toList ++ schema.compositeKey.toList).Nodup := by
  obtain ⟨claims, indexes, hclaims, -, rfl⟩ := resolve_eq_ok hresolve
  obtain ⟨hclaimed, ⟨hrange, hprimary⟩ | ⟨hash, range, primary, hhash, hrange, hprimary⟩⟩ :=
    KeyClaims.ofProperties_eq_ok hclaims
  · simp [hrange, hprimary]
  · obtain ⟨hashProperty, hmemHash, rfl, hroleHash⟩ := hclaimed.hash hash hhash
    obtain ⟨rangeProperty, hmemRange, rfl, hroleRange⟩ := hclaimed.range range hrange
    obtain ⟨-, idProperty, hmemId, rfl, hroleId⟩ := hclaimed.primary primary hprimary
    -- Names differ because the properties have different roles.
    have hne {a b : Property} (ha : a ∈ definition.properties) (hb : b ∈ definition.properties)
        (hrole : a.role ≠ b.role) : a.name ≠ b.name := fun hname =>
      hrole (congrArg Property.role (List.inj_on_of_nodup_map hnodup ha hb hname))
    have hresolved : (resolveHash claims definition.properties).1 = hashProperty.name := by
      simp [resolveHash, hhash]
    simp [hresolved, hrange, hprimary,
      hne hmemHash hmemRange (by simp [hroleHash, hroleRange]),
      hne hmemHash hmemId (by simp [hroleHash, hroleId]),
      hne hmemRange hmemId (by simp [hroleRange, hroleId])]

end ModelDefinition

/-- Whether a schema identifies records by a hash and a range, which are different scalars with an
identifier beside them. -/
structure Schema.JoinsKeys (schema : Schema) (range : String) : Prop where
  rangeKey : schema.rangeKey = some range
  compositeKey : schema.compositeKey = some idAttribute
  generatesHash : schema.generatesHash = false
  hash_ne_range : schema.hashKey ≠ range
  hash_ne_id : schema.hashKey ≠ idAttribute
  range_ne_id : range ≠ idAttribute
  hashType : ∃ type, schema.type? schema.hashKey = some type ∧ type.scalar?.isSome
  rangeType : ∃ type, schema.type? range = some type ∧ type.scalar?.isSome

/-- A model of which every property is declared once has a hash key only, or it joins hash and
range. -/
theorem ModelDefinition.IsProper.schema_cases {definition : ModelDefinition} {schema : Schema}
    (h : definition.IsProper) (hresolve : definition.resolve = .ok schema) :
    (schema.rangeKey = none ∧ schema.compositeKey = none) ∨ ∃ range, schema.JoinsKeys range := by
  have hkeys := ModelDefinition.nodup_keys h.nodup hresolve
  obtain ⟨claims, indexes, hclaims, -, rfl⟩ := resolve_eq_ok hresolve
  obtain ⟨hclaimed, hnone | ⟨hash, range, primary, hhash, hrange, hprimary⟩⟩ :=
    KeyClaims.ofProperties_eq_ok hclaims
  · exact .inl hnone
  · obtain ⟨hashProperty, hmemHash, rfl, hroleHash⟩ := hclaimed.hash hash hhash
    obtain ⟨rangeProperty, hmemRange, rfl, hroleRange⟩ := hclaimed.range range hrange
    obtain ⟨rfl, -⟩ := hclaimed.primary primary hprimary
    have hresolved : resolveHash claims definition.properties = (hashProperty.name, claims.uuid,
        OrderedMap.ofList (definition.properties.map fun p => (p.name, p.type))) := by
      simp [resolveHash, hhash]
    simp only [hresolved, hrange, hprimary, Option.toList_some, List.cons_append, List.nil_append,
      List.nodup_cons, List.mem_cons, not_or, List.not_mem_nil, or_false] at hkeys
    obtain ⟨⟨hne, hid⟩, hrangeId, -⟩ := hkeys
    have htype {property : Property} (hmem : property ∈ definition.properties) :
        (OrderedMap.ofList (definition.properties.map fun p => (p.name, p.type))).get?
          property.name = some property.type :=
      (definition.get?_declared _).trans (declaredType?_of_mem h.nodup hmem)
    refine .inr ⟨rangeProperty.name, hrange, hprimary, ?_, ?_, ?_, hrangeId, ?_, ?_⟩
    · simp only [hresolved]
      cases huuid : claims.uuid with
      | false => rfl
      | true => exact absurd (hclaimed.uuid huuid) (by simpa [hhash] using hid)
    · simpa only [hresolved] using hne
    · simpa only [hresolved] using hid
    · simp only [Schema.type?, hresolved]
      exact ⟨_, htype hmemHash, h.scalar _ hmemHash (.inl hroleHash)⟩
    · exact ⟨_, by simpa only [Schema.type?, hresolved] using htype hmemRange,
        h.scalar _ hmemRange (.inr hroleRange)⟩

/-- The properties of orders, each known by its customer and its number. -/
def orderProperties : Json := .obj [
  ("customerId", .obj [("type", .str "String"), ("keyType", .str "hash")]),
  ("orderId", .obj [("type", .str "Number"), ("keyType", .str "range")]),
  ("id", .obj [("type", .str "String"), ("keyType", .str "pk")])]

def orders : Schema where
  name := "Order"
  tableName := "Order"
  hashKey := "customerId"
  rangeKey := some "orderId"
  compositeKey := some "id"
  separator := defaultSeparator
  generatesHash := false
  types := [("customerId", .string), ("id", .string), ("orderId", .number)]
  localIndexes := []
  globalIndexes := []
  settings := {}

theorem hasDistinctKeys_orderProperties : orderProperties.HasDistinctKeys := by
  refine .obj (by decide) ?_
  simp only [List.forall_mem_cons]
  refine ⟨.obj (by decide) ?_, .obj (by decide) ?_, .obj (by decide) ?_, nofun⟩ <;>
    · simp only [List.forall_mem_cons]
      exact ⟨.str _, .str _, nofun⟩

theorem exists_orders : ∃ definition,
    ModelDefinition.ofJson "Order" orderProperties .null = .ok definition ∧
      Registry.define [] definition = .ok (orders, [("Order", orders)]) :=
  bind_eq_ok_iff.1 (show (do
    let definition ← ModelDefinition.ofJson "Order" orderProperties .null
    Registry.define [] definition) = .ok (orders, [("Order", orders)]) from rfl)

end KeyedStore
