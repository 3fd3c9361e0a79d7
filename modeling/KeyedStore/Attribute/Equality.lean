import KeyedStore.Attribute.Value

/-!
# Equality of attribute values

Equality is decided part by part. Maps are lists of entries in key order, so equal maps have equal
entries in the same places.
-/
namespace KeyedStore.AttributeValue

mutual

/-- Whether two values are the same. -/
def beq : AttributeValue → AttributeValue → Bool
  | string a, string b => a == b
  | number a, number b => a == b
  | binary a, binary b => a == b
  | stringSet a, stringSet b => a == b
  | numberSet a, numberSet b => a == b
  | binarySet a, binarySet b => a == b
  | bool a, bool b => a == b
  | null a, null b => a == b
  | list a, list b => beqList a b
  | map a, map b => beqEntries a b
  | _, _ => false

def beqList : List AttributeValue → List AttributeValue → Bool
  | [], [] => true
  | a :: as, b :: bs => beq a b && beqList as bs
  | _, _ => false

def beqEntries : List (String × AttributeValue) → List (String × AttributeValue) → Bool
  | [], [] => true
  | (k, a) :: as, (l, b) :: bs => k == l && beq a b && beqEntries as bs
  | _, _ => false

end

mutual

theorem eq_of_beq : ∀ {a b : AttributeValue}, beq a b = true → a = b
  | list a, b, h => by
    cases b <;> simp only [beq, Bool.false_eq_true] at h
    rw [eq_of_beqList h]
  | map a, b, h => by
    cases b <;> simp only [beq, Bool.false_eq_true] at h
    rw [eq_of_beqEntries h]
  | string a, b, h | number a, b, h | binary a, b, h | stringSet a, b, h | numberSet a, b, h
  | binarySet a, b, h | bool a, b, h | null a, b, h => by
    cases b <;> simp_all [beq]

theorem eq_of_beqList : ∀ {a b : List AttributeValue}, beqList a b = true → a = b
  | [], b, h => by cases b <;> simp_all [beqList]
  | a :: as, b, h => by
    cases b with
    | nil => simp [beqList] at h
    | cons b bs =>
      rw [beqList, Bool.and_eq_true] at h
      rw [eq_of_beq h.1, eq_of_beqList h.2]

theorem eq_of_beqEntries : ∀ {a b : List (String × AttributeValue)}, beqEntries a b = true → a = b
  | [], b, h => by cases b <;> simp_all [beqEntries]
  | (k, a) :: as, b, h => by
    cases b with
    | nil => simp [beqEntries] at h
    | cons b bs =>
      obtain ⟨l, b⟩ := b
      rw [beqEntries, Bool.and_eq_true, Bool.and_eq_true, beq_iff_eq] at h
      rw [h.1.1, eq_of_beq h.1.2, eq_of_beqEntries h.2]

end

mutual

theorem beq_self : ∀ a : AttributeValue, beq a a = true
  | list a => by rw [beq, beqList_self a]
  | map a => by rw [beq, beqEntries_self a]
  | string _ | number _ | binary _ | stringSet _ | numberSet _ | binarySet _ | bool _ | null _ => by
    simp [beq]

theorem beqList_self : ∀ a : List AttributeValue, beqList a a = true
  | [] => rfl
  | a :: as => by rw [beqList, beq_self a, beqList_self as]; rfl

theorem beqEntries_self : ∀ a : List (String × AttributeValue), beqEntries a a = true
  | [] => rfl
  | (k, a) :: as => by rw [beqEntries, beq_self a, beqEntries_self as]; simp

end

instance : DecidableEq AttributeValue := fun a b =>
  if h : beq a b = true then isTrue (eq_of_beq h)
  else isFalse fun heq => h (heq ▸ beq_self a)

end KeyedStore.AttributeValue
