import KeyedStore.Proofs.Model.Provisioning
import KeyedStore.Proofs.Plan.Selecting

/-!
# Key roles

What the role of an attribute says of the keys of a schema: the index that it gives access to has
the attribute as hash key or as range key, and a sort key that fits a partition belongs to the same
index.
-/
namespace KeyedStore

namespace Schema

variable {schema : Schema} {filter : Filter} {name : String}

/-- What the role of an attribute says of it. -/
theorem role_cases (schema : Schema) (filter : Filter) (name : String) :
    schema.role filter name = .hash none ∧ name = schema.hashKey ∨
    schema.role filter name = .range none ∧ schema.rangeKey = some name ∨
    (∃ index, schema.role filter name = .hash (some index) ∧
      schema.globalIndexes.get? name = some index) ∨
    (∃ index, schema.role filter name = .range (some index) ∧
      schema.localIndexes.get? name = some index) ∨
    (∃ index, schema.role filter name = .range (some index) ∧
      index ∈ schema.globalIndexes.values ∧ index.rangeKey = some name) ∨
    schema.role filter name = .plain := by
  unfold role
  split
  case isTrue heq => exact .inl ⟨rfl, heq⟩
  case isFalse =>
    split
    case isTrue heq => exact .inr (.inl ⟨rfl, heq⟩)
    case isFalse =>
      cases hglobal : schema.globalIndexes.get? name with
      | some index => exact .inr (.inr (.inl ⟨index, rfl, rfl⟩))
      | none =>
        cases hlocal : schema.localIndexes.get? name with
        | some index => exact .inr (.inr (.inr (.inl ⟨index, rfl, rfl⟩)))
        | none =>
          dsimp only
          split
          case h_1 index hfind =>
            have hmem := List.mem_reverse.1 (List.mem_of_find?_eq_some hfind)
            have hfound := List.find?_some hfind
            have hrange := of_decide_eq_true (Bool.and_eq_true_iff.1 hfound).1
            exact .inr (.inr (.inr (.inr (.inl ⟨index, rfl, hmem, hrange⟩))))
          case h_2 => exact .inr (.inr (.inr (.inr (.inr rfl))))

/-- An attribute selects a partition of the table by its hash key, or of the index that it is the
hash key of. -/
theorem readKey_of_role_hash (hsound : schema.HasSoundIndexes) {target : Option Index}
    (h : schema.role filter name = .hash target) :
    (∀ index, target = some index → index ∈ schema.indexes) ∧
      (schema.readKey target).partition.name = name := by
  obtain ⟨names, hsound⟩ := hsound
  rcases role_cases schema filter name with ⟨hrole, hname⟩ | ⟨hrole, -⟩ | ⟨index, hrole, hget⟩ |
    ⟨index, hrole, -⟩ | ⟨index, hrole, -⟩ | hrole <;> rw [hrole] at h <;> cases h
  · exact ⟨nofun, hname.symm⟩
  · have hmem := OrderedMap.mem_of_get?_eq_some hget
    refine ⟨fun other heq => ?_, (hsound.isGlobal _ _ hmem).2⟩
    cases heq
    exact List.mem_append_right _ (List.mem_map.2 ⟨_, hmem, rfl⟩)

/-- An attribute narrows a partition of the table by its range key, or of an index that it is the
range key of. -/
theorem rangeKey_of_role_range (hsound : schema.HasSoundIndexes) {target : Option Index}
    (h : schema.role filter name = .range target) :
    match target with
    | none => schema.rangeKey = some name
    | some index => index ∈ schema.indexes ∧ index.rangeKey = some name ∧
        (index.kind = .localIndex → index.hashKey = schema.hashKey) := by
  obtain ⟨names, hsound⟩ := hsound
  rcases role_cases schema filter name with ⟨hrole, -⟩ | ⟨hrole, hname⟩ | ⟨index, hrole, -⟩ |
    ⟨index, hrole, hget⟩ | ⟨index, hrole, hmem, hrange⟩ | hrole <;> rw [hrole] at h <;> cases h
  · exact hname
  · have hmem := OrderedMap.mem_of_get?_eq_some hget
    obtain ⟨-, hhash, hrange⟩ := hsound.isLocal _ _ hmem
    exact ⟨List.mem_append_left _ (List.mem_map.2 ⟨_, hmem, rfl⟩), hrange, fun _ => hhash⟩
  · obtain ⟨entry, hentry, rfl⟩ := List.mem_map.1 hmem
    refine ⟨List.mem_append_right _ hmem, hrange, fun hkind => ?_⟩
    have hglobal := (hsound.isGlobal _ _ hentry).1
    simp [hkind] at hglobal

/-- A sort key that fits a partition belongs to what is read. -/
theorem or_eq_of_fits (hsound : schema.HasSoundIndexes) {hash range : Option Index}
    (hhash : ∀ index, hash = some index → index ∈ schema.indexes)
    (hrole : schema.role filter name = .range range) (hfits : Fragment.fits hash range) :
    hash.or range = range := by
  cases hash with
  | none => rfl
  | some index =>
    cases range with
    | none => simp [Fragment.fits] at hfits
    | some other =>
      obtain ⟨hmem, -⟩ := rangeKey_of_role_range hsound hrole
      obtain ⟨names, hindexes⟩ := hsound
      have heq : index = other := List.inj_on_of_nodup_map hindexes.nodup (hhash index rfl) hmem
        (by simpa [Fragment.fits] using hfits)
      rw [heq, Option.some_or]

/-- The attribute of a sort key is the range key of what it belongs to. -/
theorem sort_readKey_of_role (hsound : schema.HasSoundIndexes) {range : Option Index}
    (hrole : schema.role filter name = .range range) :
    (∀ index, range = some index → index ∈ schema.indexes) ∧
      (schema.readKey range).sort = some ⟨name, schema.scalarType name⟩ := by
  have hrange := rangeKey_of_role_range hsound hrole
  cases range with
  | none => exact ⟨nofun, by simp [readKey, keySchema, show schema.rangeKey = _ from hrange]⟩
  | some index =>
    obtain ⟨hmem, hname, -⟩ := hrange
    refine ⟨fun other heq => ?_, by simp [readKey, keySchema, hname]⟩
    cases heq
    exact hmem

/-- A sort key that fits a partition is the range key by which it is read. -/
theorem partition_readKey_of_fits (hsound : schema.HasSoundIndexes) {hash range : Option Index}
    (hhash : ∀ index, hash = some index → index ∈ schema.indexes)
    (hrole : schema.role filter name = .range range) (hfits : Fragment.fits hash range) :
    (schema.readKey range).partition = (schema.readKey hash).partition := by
  have hor := or_eq_of_fits hsound hhash hrole hfits
  cases hash with
  | some index => rw [← hor, Option.some_or]
  | none =>
    cases range with
    | none => rfl
    | some index =>
      obtain ⟨-, -, hshared⟩ := rangeKey_of_role_range hsound hrole
      have hkey : index.hashKey = schema.hashKey := hshared (by simpa [Fragment.fits] using hfits)
      simp [readKey, keySchema, hkey]

variable {c : String × Condition} {target : Option Index}

/-- A condition that selects a partition is an equality on a hash key. -/
theorem asked_of_slot_hash (h : schema.slot filter c = .hash target) :
    schema.role filter c.1 = .hash target ∧
      ∃ value, schema.asked filter c = .compare .eq value := by
  obtain ⟨name, condition⟩ := c
  unfold slot at h
  unfold asked
  cases hrole : schema.role filter name with
  | plain => simp [hrole] at h
  | range index =>
    simp only [hrole] at h
    split at h <;> cases h
  | hash index =>
    cases condition <;> simp only [hrole] at h <;> cases h
    exact ⟨rfl, _, rfl⟩

/-- A condition that narrows a partition is a comparison or a range on a range key. -/
theorem asked_of_slot_range (h : schema.slot filter c = .range target) :
    schema.role filter c.1 = .range target ∧
      ((∃ op value, op ≠ .ne ∧ schema.asked filter c = .compare op value) ∨
        ∃ first last, schema.asked filter c = .between first last) := by
  obtain ⟨name, condition⟩ := c
  unfold slot at h
  unfold asked
  cases hrole : schema.role filter name with
  | plain => simp [hrole] at h
  | hash index => cases condition <;> simp [hrole] at h
  | range index =>
    simp only [hrole] at h
    split at h
    case isFalse => cases h
    case isTrue hsome =>
      cases h
      refine ⟨rfl, ?_⟩
      unfold Condition.sortRestriction? at hsome ⊢
      split at hsome
      · exact .inl ⟨.eq, _, nofun, rfl⟩
      · cases hsome
      · rename_i op value hop
        exact .inl ⟨op.comparison, value, by cases op <;> simp_all [Operator.comparison], rfl⟩
      · exact .inr ⟨_, _, rfl⟩
      · exact .inr ⟨_, _, rfl⟩
      · cases hsome
      · cases hsome

end Schema

end KeyedStore
