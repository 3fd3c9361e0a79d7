import KeyedStore.Proofs.Model.KeyClaims

/-!
# Accepted definitions

A model is registered if its name is free and its definition is well-formed, and only then. What
makes a definition well-formed is said of its properties alone, without the order in which they are
looked at.
-/
namespace KeyedStore

namespace Property

/-- Whether a property has a name that its role allows: an identifier made of hash and range and a
hash that is generated have the reserved name. -/
def HasRoleName (property : Property) : Prop :=
  (property.role = some .primary → property.name = idAttribute) ∧
    (property.role = some .hash → property.uuid → property.name = idAttribute)

/-- The name of the local index of a property, if it has one. -/
def localName? (property : Property) : Option String :=
  property.localIndex.map fun declared => declared.name.getD (property.name ++ "LocalIndex")

/-- The name of the global index of a property, if it has one. -/
def globalName? (property : Property) : Option String :=
  property.globalIndex.map fun declared => declared.name.getD (property.name ++ "GlobalIndex")

/-- The names of the indexes of a property. -/
def indexNames (property : Property) : List String :=
  property.localName?.toList ++ property.globalName?.toList

/-- Whether the range key of the global index of a property, if there is one, is a scalar. -/
def RangesOver (property : Property) (types : OrderedMap String PropertyType) : Prop :=
  ∀ declared, property.globalIndex = some declared → ∀ range, declared.rangeKey = some range →
    ((types.get? range).bind PropertyType.scalar?).isSome

end Property

/-- The names of the properties that claim a role. -/
def claimants (properties : List Property) (role : KeyRole) : List String :=
  (properties.filter (·.role = some role)).map (·.name)

namespace ModelDefinition

/-- Whether the identifier is added to the properties as hash key. -/
def AddsIdentifier (definition : ModelDefinition) : Prop :=
  claimants definition.properties .hash = [] ∧
    ∀ property ∈ definition.properties, property.name ≠ idAttribute

/-- Whether the properties of a definition make a model. -/
structure IsWellFormed (definition : ModelDefinition) : Prop where
  claimed_once : ∀ role, (claimants definition.properties role).length ≤ 1
  named : ∀ property ∈ definition.properties, property.HasRoleName
  range_iff_primary : claimants definition.properties .range = [] ↔
    claimants definition.properties .primary = []
  hash_of_range : claimants definition.properties .range ≠ [] →
    claimants definition.properties .hash ≠ []
  nodup_indexNames : (definition.properties.flatMap Property.indexNames).Nodup
  /-- The range key of a global index is a declared scalar or the identifier that is added. -/
  ranges : ∀ property ∈ definition.properties,
    ∀ declared, property.globalIndex = some declared → ∀ range, declared.rangeKey = some range →
    (∃ other ∈ definition.properties, other.name = range ∧ other.type.scalar?.isSome) ∨
      range = idAttribute ∧ definition.AddsIdentifier

end ModelDefinition

namespace KeyClaims

variable {model : String} {claims after : KeyClaims} {property : Property}
  {properties : List Property}

/-- The property that has claimed a role. -/
def key? (claims : KeyClaims) : KeyRole → Option String
  | .hash => claims.hash
  | .range => claims.range
  | .primary => claims.primary

/-- What has been claimed after a property has claimed its role. -/
def take (claims : KeyClaims) (property : Property) : KeyClaims :=
  match property.role with
  | none => claims
  | some .hash => { claims with hash := some property.name, uuid := property.uuid }
  | some .range => { claims with range := some property.name }
  | some .primary =>
    { claims with primary := some property.name, separator := property.separator }

/-- A property can claim a role that is free, under a name that the role allows. -/
theorem add_eq_ok_iff : add model claims property = .ok after ↔ property.HasRoleName ∧
    (∀ role, property.role = some role → claims.key? role = none) ∧
    claims.take property = after := by
  unfold add Property.HasRoleName take
  cases hrole : property.role with
  | none => simp
  | some role =>
    simp only [Option.some.injEq, forall_eq']
    cases role with
    | hash =>
      cases huuid : property.uuid <;> by_cases hid : property.name = idAttribute <;>
        cases hhash : claims.hash <;> simp [claim, key?, hid, hhash]
    | range => cases hrange : claims.range <;> simp [claim, key?, hrange]
    | primary =>
      by_cases hid : property.name = idAttribute <;> cases hprimary : claims.primary <;>
        simp [claim, key?, hid, hprimary]

theorem claimants_cons (role : KeyRole) : claimants (property :: properties) role =
    (if property.role = some role then [property.name] else []) ++ claimants properties role := by
  unfold claimants
  split <;> simp_all

/-- What is claimed is what was claimed before or what the property claims. -/
theorem toList_key?_take (role : KeyRole)
    (hfree : ∀ role, property.role = some role → claims.key? role = none) :
    ((claims.take property).key? role).toList = (claims.key? role).toList ++
      if property.role = some role then [property.name] else [] := by
  unfold take
  cases hrole : property.role with
  | none => simp
  | some claimed =>
    have hnone := hfree claimed hrole
    cases claimed <;> cases role <;> simp_all [key?]

/-- Properties can claim their roles if no role is claimed twice, and their names are allowed. -/
theorem exists_foldlM_iff : (∃ after, properties.foldlM (add model) claims = .ok after) ↔
    (∀ property ∈ properties, property.HasRoleName) ∧
      ∀ role, ((claims.key? role).toList ++ claimants properties role).length ≤ 1 := by
  induction properties generalizing claims with
  | nil => exact iff_of_true ⟨claims, rfl⟩ (by simp [claimants, Option.length_toList_le])
  | cons property rest ih =>
    have hstep : (∃ after, (property :: rest).foldlM (add model) claims = .ok after) ↔
        ∃ next, add model claims property = .ok next ∧
          ∃ after, rest.foldlM (add model) next = .ok after := by
      simp only [List.foldlM_cons, bind_eq_ok_iff]
      exact exists_comm.trans (exists_congr fun next => exists_and_left)
    simp only [hstep, add_eq_ok_iff, ih, List.forall_mem_cons, claimants_cons]
    constructor
    · rintro ⟨_, ⟨hname, hfree, rfl⟩, hnames, honce⟩
      refine ⟨⟨hname, hnames⟩, fun role => ?_⟩
      simpa [toList_key?_take role hfree] using honce role
    · rintro ⟨⟨hname, hnames⟩, honce⟩
      have hfree (role : KeyRole) (hrole : property.role = some role) :
          claims.key? role = none := by
        have hle := honce role
        cases hkey : claims.key? role with
        | none => rfl
        | some name => simp [hkey, hrole] at hle
      refine ⟨_, ⟨hname, hfree, rfl⟩, hnames, fun role => ?_⟩
      simpa [toList_key?_take role hfree] using honce role

/-- What has been claimed in the end. -/
theorem toList_key?_of_foldlM (h : properties.foldlM (add model) claims = .ok after)
    (role : KeyRole) :
    (after.key? role).toList = (claims.key? role).toList ++ claimants properties role := by
  induction properties generalizing claims with
  | nil =>
    cases h
    simp [claimants]
  | cons property rest ih =>
    rw [List.foldlM_cons] at h
    obtain ⟨next, hadd, h⟩ := bind_eq_ok_iff.1 h
    obtain ⟨-, hfree, rfl⟩ := add_eq_ok_iff.1 hadd
    rw [ih h, toList_key?_take role hfree, claimants_cons, List.append_assoc]

theorem check_eq_ok_iff : check model claims = .ok after ↔
    (claims.range = none ↔ claims.primary = none) ∧
      (claims.range ≠ none → claims.hash ≠ none) ∧ claims = after := by
  unfold check
  cases hhash : claims.hash <;> cases hrange : claims.range <;>
    cases hprimary : claims.primary <;> simp [eq_comm]

/-- Each role is claimed by the properties that have it. -/
theorem toList_key?_of_ofProperties (h : ofProperties model properties = .ok claims)
    (role : KeyRole) : (claims.key? role).toList = claimants properties role := by
  obtain ⟨found, hfold, hcheck⟩ := bind_eq_ok_iff.1 h
  obtain ⟨-, -, rfl⟩ := check_eq_ok_iff.1 hcheck
  rw [toList_key?_of_foldlM hfold]
  cases role <;> rfl

/-- Key roles are claimed as they should be if each is claimed once, under names that they allow,
and a range comes with a hash and with an identifier made of both. -/
theorem exists_ofProperties_iff : (∃ claims, ofProperties model properties = .ok claims) ↔
    (∀ property ∈ properties, property.HasRoleName) ∧
    (∀ role, (claimants properties role).length ≤ 1) ∧
    (claimants properties .range = [] ↔ claimants properties .primary = []) ∧
    (claimants properties .range ≠ [] → claimants properties .hash ≠ []) := by
  have hempty : (∀ role, ((KeyClaims.key? {} role).toList ++
      claimants properties role).length ≤ 1) ↔
        ∀ role, (claimants properties role).length ≤ 1 := by
    refine forall_congr' fun role => ?_
    cases role <;> rfl
  have hkey {found : KeyClaims} (hfold : properties.foldlM (add model) {} = .ok found)
      (role : KeyRole) : claimants properties role = [] ↔ found.key? role = none := by
    rw [← Option.toList_eq_nil_iff, toList_key?_of_foldlM hfold]
    cases role <;> rfl
  have hclaimed : (∃ found, properties.foldlM (add model) {} = .ok found) ↔ _ := exists_foldlM_iff
  rw [← hempty, ← and_assoc, ← hclaimed]
  constructor
  · rintro ⟨claims, h⟩
    obtain ⟨found, hfold, hcheck⟩ := bind_eq_ok_iff.1 h
    obtain ⟨hboth, hhash, rfl⟩ := check_eq_ok_iff.1 hcheck
    simp only [Ne, hkey hfold]
    exact ⟨⟨found, hfold⟩, hboth, hhash⟩
  · rintro ⟨⟨found, hfold⟩, hvalid⟩
    simp only [Ne, hkey hfold] at hvalid
    exact ⟨found, bind_eq_ok_iff.2 ⟨found, hfold,
      check_eq_ok_iff.2 ⟨hvalid.1, hvalid.2, rfl⟩⟩⟩

end KeyClaims

namespace IndexTable

variable {model hashKey : String} {table after : IndexTable} {property : Property}
  {properties : List Property} {types : OrderedMap String PropertyType}

/-- A local index can be added if its name is free, which it takes. -/
theorem exists_addLocal_iff {names : List String} :
    (∃ after, addLocal model hashKey table property = .ok after ∧ after.names = names) ↔
      (∀ name, property.localName? = some name → name ∉ table.names) ∧
        table.names ++ property.localName?.toList = names := by
  unfold addLocal Property.localName? take
  cases property.localIndex with
  | none => simp
  | some declared =>
    by_cases hfree : declared.name.getD (property.name ++ "LocalIndex") ∈ table.names <;>
      simp [hfree]

/-- A global index can be added if its name is free, which it takes, and its range key is a
scalar. -/
theorem exists_addGlobal_iff {names : List String} :
    (∃ after, addGlobal model types table property = .ok after ∧ after.names = names) ↔
      property.RangesOver types ∧
      (∀ name, property.globalName? = some name → name ∉ table.names) ∧
        table.names ++ property.globalName?.toList = names := by
  unfold addGlobal Property.globalName? Property.RangesOver
  cases property.globalIndex with
  | none => simp
  | some declared =>
    simp only [Option.some.injEq, forall_eq', Option.map_some, Option.toList_some]
    cases declared.rangeKey with
    | none =>
      by_cases hfree : declared.name.getD (property.name ++ "GlobalIndex") ∈ table.names <;>
        simp [take, hfree]
    | some range =>
      cases hscalar : ((types.get? range).bind PropertyType.scalar?) with
      | none => simp [throw, throwThe, MonadExceptOf.throw, hscalar]
      | some scalar =>
        by_cases hfree : declared.name.getD (property.name ++ "GlobalIndex") ∈ table.names <;>
          simp [take, hfree, hscalar]

theorem nodup_append_toList {names : List String} {name? : Option String} :
    (names ++ name?.toList).Nodup ↔ names.Nodup ∧ ∀ name, name? = some name → name ∉ names := by
  cases name? with
  | none => simp
  | some name =>
    rw [Option.toList_some, (List.perm_append_singleton name names).nodup_iff, List.nodup_cons]
    simp [and_comm]

/-- The indexes of a property can be added if their names are free and different. -/
theorem exists_addIndexes_iff {names : List String} (hnodup : table.names.Nodup) :
    (∃ after, (addLocal model hashKey table property >>= fun between =>
      addGlobal model types between property) = .ok after ∧ after.names = names) ↔
      property.RangesOver types ∧ (table.names ++ property.indexNames).Nodup ∧
        table.names ++ property.indexNames = names := by
  rw [Property.indexNames, ← List.append_assoc, nodup_append_toList, nodup_append_toList,
    and_iff_right hnodup]
  constructor
  · rintro ⟨after, h, rfl⟩
    obtain ⟨between, hlocal, hglobal⟩ := bind_eq_ok_iff.1 h
    obtain ⟨hfree, hnames⟩ := exists_addLocal_iff.1 ⟨between, hlocal, rfl⟩
    obtain ⟨hranges, hfree', hnames'⟩ := exists_addGlobal_iff.1 ⟨after, hglobal, rfl⟩
    rw [← hnames] at hfree' hnames'
    exact ⟨hranges, ⟨hfree, hfree'⟩, hnames'⟩
  · rintro ⟨hranges, ⟨hfree, hfree'⟩, rfl⟩
    obtain ⟨between, hlocal, hnames⟩ := exists_addLocal_iff.2 ⟨hfree, rfl⟩
    rw [← hnames] at hfree'
    obtain ⟨after, hglobal, hnames'⟩ := exists_addGlobal_iff.2 ⟨hranges, hfree', rfl⟩
    exact ⟨after, bind_eq_ok_iff.2 ⟨between, hlocal, hglobal⟩, by rw [hnames', hnames]⟩

/-- The indexes of properties can be added if their names are free and different. -/
theorem exists_foldlM_iff (hnodup : table.names.Nodup) :
    (∃ after, properties.foldlM (fun table property => do
      addGlobal model types (← addLocal model hashKey table property) property) table =
        .ok after) ↔
      (∀ property ∈ properties, property.RangesOver types) ∧
        (table.names ++ properties.flatMap Property.indexNames).Nodup := by
  induction properties generalizing table with
  | nil => exact iff_of_true ⟨table, rfl⟩ (by simpa using hnodup)
  | cons property rest ih =>
    simp only [List.foldlM_cons, List.forall_mem_cons, List.flatMap_cons]
    constructor
    · rintro ⟨after, h⟩
      obtain ⟨next, hstep, h⟩ := bind_eq_ok_iff.1 h
      obtain ⟨hrange, hnext, hnames⟩ :=
        (exists_addIndexes_iff hnodup).1 ⟨next, hstep, rfl⟩
      rw [hnames] at hnext
      obtain ⟨hranges, hall⟩ := (ih hnext).1 ⟨after, h⟩
      rw [← hnames, List.append_assoc] at hall
      exact ⟨⟨hrange, hranges⟩, hall⟩
    · rintro ⟨⟨hrange, hranges⟩, hall⟩
      rw [← List.append_assoc] at hall
      have hfirst := (List.nodup_append.1 hall).1
      obtain ⟨next, hstep, hnames⟩ := (exists_addIndexes_iff hnodup).2 ⟨hrange, hfirst, rfl⟩
      rw [← hnames] at hfirst hall
      obtain ⟨after, h⟩ := (ih hfirst).2 ⟨hranges, hall⟩
      exact ⟨after, bind_eq_ok_iff.2 ⟨next, hstep, h⟩⟩

end IndexTable

namespace ModelDefinition

variable {definition : ModelDefinition} {schema : Schema} {claims : KeyClaims}

/-- An attribute has a scalar type if it is declared with one or is the identifier that is
added. -/
theorem isSome_scalar?_iff (hnodup : (definition.properties.map (·.name)).Nodup)
    (hclaims : KeyClaims.ofProperties definition.name definition.properties = .ok claims)
    (name : String) :
    (((resolveHash claims definition.properties).2.2.get? name).bind
      PropertyType.scalar?).isSome ↔
      (∃ property ∈ definition.properties, property.name = name ∧ property.type.scalar?.isSome) ∨
        name = idAttribute ∧ definition.AddsIdentifier := by
  have hdeclared (name : String) : ((definition.declaredType? name).bind
      PropertyType.scalar?).isSome ↔ ∃ property ∈ definition.properties, property.name = name ∧
        property.type.scalar?.isSome := by
    simp only [Option.isSome_iff_exists, Option.bind_eq_some_iff, declaredType?_eq_some_iff hnodup]
    constructor
    · rintro ⟨scalar, type, ⟨property, hmem, hname, rfl⟩, hscalar⟩
      exact ⟨property, hmem, hname, scalar, hscalar⟩
    · rintro ⟨property, hmem, hname, scalar, hscalar⟩
      exact ⟨scalar, property.type, ⟨property, hmem, hname, rfl⟩, hscalar⟩
  have hclaimed : claimants definition.properties .hash = [] ↔ claims.hash = none := by
    rw [← KeyClaims.toList_key?_of_ofProperties hclaims .hash]
    exact Option.toList_eq_nil_iff
  have hfree : (∀ property ∈ definition.properties, property.name ≠ idAttribute) ↔
      definition.declaredType? idAttribute = none := by
    rw [Option.eq_none_iff_forall_ne_some]
    simp only [Ne, declaredType?_eq_some_iff hnodup, not_exists, not_and]
    exact ⟨fun h type property hmem hname _ => h property hmem hname,
      fun h property hmem hname => h _ property hmem hname rfl⟩
  rw [AddsIdentifier, hclaimed, hfree, ← hdeclared]
  unfold resolveHash
  cases claims.hash with
  | some hash => simp [get?_declared]
  | none =>
    simp only [OrderedMap.contains, get?_declared]
    cases hid : definition.declaredType? idAttribute with
    | some type => simp [get?_declared]
    | none =>
      simp only [Option.isSome_none, Bool.false_eq_true, if_false, OrderedMap.get?_insert,
        get?_declared, Std.LawfulEqCmp.compare_eq_iff_eq]
      by_cases hname : name = idAttribute
      · simp [hname, PropertyType.scalar?]
      · simp [hname]

/-- A definition resolves exactly if it is well-formed. -/
theorem exists_resolve_iff (hnodup : (definition.properties.map (·.name)).Nodup) :
    (∃ schema, definition.resolve = .ok schema) ↔ definition.IsWellFormed := by
  have hindexed {claims : KeyClaims}
      (hclaims : KeyClaims.ofProperties definition.name definition.properties = .ok claims) :
      (∃ indexes, IndexTable.ofProperties definition.name
        (resolveHash claims definition.properties).1 (resolveHash claims definition.properties).2.2
        definition.properties = .ok indexes) ↔
      (∀ property ∈ definition.properties,
        ∀ declared, property.globalIndex = some declared →
        ∀ range, declared.rangeKey = some range →
          (∃ other ∈ definition.properties, other.name = range ∧ other.type.scalar?.isSome) ∨
            range = idAttribute ∧ definition.AddsIdentifier) ∧
      (definition.properties.flatMap Property.indexNames).Nodup := by
    refine (IndexTable.exists_foldlM_iff List.nodup_nil).trans ?_
    simp only [Property.RangesOver, isSome_scalar?_iff hnodup hclaims, List.nil_append]
  constructor
  · rintro ⟨schema, h⟩
    obtain ⟨claims, indexes, hclaims, hindexes, -⟩ := resolve_eq_ok h
    obtain ⟨hnamed, honce, hboth, hhash⟩ := KeyClaims.exists_ofProperties_iff.1 ⟨claims, hclaims⟩
    obtain ⟨hranges, hindexNames⟩ := (hindexed hclaims).1 ⟨indexes, hindexes⟩
    exact ⟨honce, hnamed, hboth, hhash, hindexNames, hranges⟩
  · intro h
    obtain ⟨claims, hclaims⟩ : ∃ claims,
        KeyClaims.ofProperties definition.name definition.properties = .ok claims :=
      KeyClaims.exists_ofProperties_iff.2
        ⟨h.named, h.claimed_once, h.range_iff_primary, h.hash_of_range⟩
    obtain ⟨indexes, hindexes⟩ := (hindexed hclaims).2 ⟨h.ranges, h.nodup_indexNames⟩
    exact ⟨_, bind_eq_ok_iff.2 ⟨claims, hclaims, bind_eq_ok_iff.2 ⟨indexes, hindexes, rfl⟩⟩⟩

end ModelDefinition

/-- Whether a schema has the keys that the properties of a definition claim, and keys and indexes
fit together. -/
structure Schema.IsConsistent (schema : Schema) (definition : ModelDefinition) : Prop where
  hashKey_eq : schema.hashKey = (claimants definition.properties .hash).headD idAttribute
  rangeKey_eq : schema.rangeKey.toList = claimants definition.properties .range
  compositeKey_eq : schema.compositeKey = schema.rangeKey.map fun _ => idAttribute
  nodup_keys : (schema.hashKey :: schema.rangeKey.toList ++ schema.compositeKey.toList).Nodup
  isSome_hashType : (schema.type? schema.hashKey).isSome
  nodup_indexNames : (schema.indexes.map (·.name)).Nodup
  localHash : ∀ index ∈ schema.localIndexes.values, index.hashKey = schema.hashKey
  /-- Global indexes stand under the attributes that declare them. -/
  globalHash : ∀ name index, (name, index) ∈ schema.globalIndexes → index.hashKey = name

namespace ModelDefinition

variable {definition : ModelDefinition} {schema : Schema}

/-- The keys of a schema are those that are claimed, and the identifier where no hash is. -/
theorem keys_of_resolve (h : definition.resolve = .ok schema) :
    schema.hashKey = (claimants definition.properties .hash).headD idAttribute ∧
    schema.rangeKey.toList = claimants definition.properties .range ∧
    schema.compositeKey = schema.rangeKey.map fun _ => idAttribute := by
  obtain ⟨claims, indexes, hclaims, -, rfl⟩ := resolve_eq_ok h
  have hkey := KeyClaims.toList_key?_of_ofProperties hclaims
  refine ⟨?_, hkey .range, ?_⟩
  · rw [← hkey .hash]
    unfold resolveHash KeyClaims.key?
    cases claims.hash with
    | some hash => rfl
    | none =>
      simp only
      split <;> rfl
  · obtain ⟨hclaimed, ⟨hrange, hprimary⟩ | ⟨hash, range, primary, -, hrange, hprimary⟩⟩ :=
      KeyClaims.ofProperties_eq_ok hclaims
    · simp [hrange, hprimary]
    · obtain ⟨rfl, -⟩ := hclaimed.primary primary hprimary
      simp [hrange, hprimary]

/-- The hash key is declared or is the identifier that is added. -/
theorem isSome_hashType (hnodup : (definition.properties.map (·.name)).Nodup)
    (h : definition.resolve = .ok schema) : (schema.type? schema.hashKey).isSome := by
  obtain ⟨claims, indexes, hclaims, -, rfl⟩ := resolve_eq_ok h
  obtain ⟨hclaimed, -⟩ := KeyClaims.ofProperties_eq_ok hclaims
  unfold Schema.type? resolveHash
  cases hhash : claims.hash with
  | some hash =>
    obtain ⟨property, hmem, rfl, -⟩ := hclaimed.hash hash hhash
    simp [get?_declared, declaredType?_of_mem hnodup hmem]
  | none =>
    simp only
    split
    case isTrue hid => exact hid
    case isFalse => simp

theorem isConsistent_of_resolve (hnodup : (definition.properties.map (·.name)).Nodup)
    (h : definition.resolve = .ok schema) : schema.IsConsistent definition := by
  obtain ⟨names, hsound⟩ := hasSoundIndexes_of_resolve h
  obtain ⟨hhash, hrange, hcomposite⟩ := keys_of_resolve h
  refine ⟨hhash, hrange, hcomposite, nodup_keys hnodup h, isSome_hashType hnodup h, hsound.nodup,
    fun index hmem => ?_, fun name index hmem => (hsound.isGlobal name index hmem).2⟩
  obtain ⟨⟨name, index⟩, hentry, rfl⟩ := List.mem_map.1 hmem
  exact (hsound.isLocal name index hentry).2.1

end ModelDefinition

namespace Registry

variable {registry after : Registry} {definition : ModelDefinition} {schema : Schema}

/-- The registry that a caller holds after a definition. One that is refused has changed nothing, for
`Registry.define` puts a schema in only when all checks are done. -/
def afterDefine (registry : Registry) (definition : ModelDefinition) : Registry :=
  match registry.define definition with
  | .ok (_, after) => after
  | .error _ => registry

/-- The step: a definition fills its name if that is free and the definition resolves. -/
theorem get?_afterDefine (registry : Registry) (definition : ModelDefinition) (name : String) :
    (registry.afterDefine definition).get? name = (registry.get? name).or
      (if name = definition.name then definition.resolve.toOption else none) := by
  cases hdefine : registry.define definition with
  | ok result =>
    obtain ⟨schema, after⟩ := result
    obtain ⟨hfree, hresolve, hafter⟩ := define_eq_ok_iff.1 hdefine
    rw [afterDefine, hdefine, ← hafter, OrderedMap.get?_insert, hresolve]
    by_cases hname : name = definition.name <;> simp [hname, hfree, Except.toOption]
  | error error =>
    rw [afterDefine, hdefine]
    by_cases hname : name = definition.name
    · subst hname
      cases hget : registry.get? definition.name with
      | some schema => rfl
      | none =>
        cases hresolve : definition.resolve with
        | ok schema => cases hdefine.symm.trans (define_eq_ok_iff.2 ⟨hget, hresolve, rfl⟩)
        | error _ => simp [Except.toOption]
    · simp [hname]

/-- The run: after any definitions, those that are refused among them, a name has the schema of the
first one under it that resolves. -/
theorem get?_foldl_afterDefine (registry : Registry) (definitions : List ModelDefinition)
    (name : String) : (definitions.foldl afterDefine registry).get? name =
      (registry.get? name).or (definitions.findSome? fun definition =>
        if name = definition.name then definition.resolve.toOption else none) := by
  induction definitions generalizing registry with
  | nil => simp
  | cons definition rest ih =>
    rw [List.foldl_cons, ih, get?_afterDefine, Option.or_assoc, List.findSome?_cons]
    cases if name = definition.name then definition.resolve.toOption else none <;> rfl

/-- A model is registered exactly if its name is free and its definition is well-formed. It is the
only one that is added then, with keys and indexes that fit together; otherwise none is. -/
theorem define_accepts_iff (registry : Registry) {definition : ModelDefinition}
    (hnodup : (definition.properties.map (·.name)).Nodup) :
    ((∃ schema after, registry.define definition = .ok (schema, after)) ↔
      registry.get? definition.name = none ∧ definition.IsWellFormed) ∧
    (∀ error, registry.define definition = .error error →
      registry.afterDefine definition = registry) ∧
    ∀ schema after, registry.define definition = .ok (schema, after) →
      registry.afterDefine definition = after ∧
      after.Perm ((definition.name, schema) :: registry) ∧
      schema.name = definition.name ∧ schema.IsConsistent definition := by
  refine ⟨?_, fun error h => ?_, fun schema after h => ?_⟩
  · rw [← ModelDefinition.exists_resolve_iff hnodup]
    simp only [define_eq_ok_iff]
    exact ⟨fun ⟨schema, _, hfree, hresolve, _⟩ => ⟨hfree, schema, hresolve⟩,
      fun ⟨hfree, schema, hresolve⟩ => ⟨schema, _, hfree, hresolve, rfl⟩⟩
  · rw [afterDefine, h]
  · obtain ⟨hfree, hresolve, hafter⟩ := define_eq_ok_iff.1 h
    refine ⟨by rw [afterDefine, h], ?_, ModelDefinition.name_of_resolve hresolve,
      ModelDefinition.isConsistent_of_resolve hnodup hresolve⟩
    rw [← hafter]
    exact OrderedMap.insert_perm schema hfree

/-- The definition of bookings: a room and a day identify one, and rooms are found by guest. -/
def bookings : ModelDefinition where
  name := "Booking"
  properties := [
    { name := "room", type := .string, role := some .hash },
    { name := "day", type := .date, role := some .range },
    { name := "id", type := .string, role := some .primary },
    { name := "guest", type := .string, localIndex := some ⟨none, .keysOnly⟩,
      globalIndex := some ⟨none, some "day", .all, ⟨5, 10⟩⟩ }]

theorem bookings_accepted : (bookings.properties.map (·.name)).Nodup ∧
    bookings.IsWellFormed ∧
    ∃ schema after, define [] bookings = .ok (schema, after) ∧ schema.IsConsistent bookings := by
  have hnodup : (bookings.properties.map (·.name)).Nodup := by decide
  have haccepts := define_accepts_iff [] hnodup
  have hwell := (haccepts.1.1 ⟨_, _, rfl⟩).2
  obtain ⟨schema, after, hdefine⟩ := haccepts.1.2 ⟨rfl, hwell⟩
  exact ⟨hnodup, hwell, schema, after, hdefine, (haccepts.2.2 schema after hdefine).2.2.2⟩

end Registry

end KeyedStore
