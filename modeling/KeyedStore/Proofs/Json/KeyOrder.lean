import KeyedStore.Proofs.Attribute.RoundTrip
import KeyedStore.Proofs.Json.DistinctKeys
import Mathlib.Data.List.Forall2

/-!
# Order of keys

Objects with the same data hold the same values under the same keys, in any order. Where keys are
distinct, what stands in one of them stands in the other.
-/
namespace KeyedStore

section Related

variable {α β γ : Type} {r : α → β → Prop} {value : Option α} {other : Option β}

theorem eq_none_of_rel (h : Option.Rel r value none) : value = none := by
  cases h
  rfl

theorem eq_none_of_none_rel (h : Option.Rel r none other) : other = none := by
  cases h
  rfl

theorem exists_of_rel_some {b : β} (h : Option.Rel r value (some b)) :
    ∃ a, value = some a ∧ r a b := by
  cases h with
  | some h => exact ⟨_, rfl, h⟩

theorem exists_of_some_rel {a : α} (h : Option.Rel r (some a) other) :
    ∃ b, other = some b ∧ r a b := by
  cases h with
  | some h => exact ⟨_, rfl, h⟩

theorem rel_map_left {f : α → γ} {r' : γ → β → Prop} (h : Option.Rel r value other)
    (hr : ∀ a b, r a b → r' (f a) b) : Option.Rel r' (value.map f) other := by
  cases h with
  | some h => exact .some (hr _ _ h)
  | none => exact .none

end Related

/-- Data with each key once is the same as itself. -/
theorem Json.HasDistinctKeys.same_self {json : Json} (h : json.HasDistinctKeys) :
    json.Same json := by
  induction h with
  | null => exact .null
  | bool b => exact .bool b
  | num n => exact .num n
  | str s => exact .str s
  | arr h ih => exact .arr (List.forall₂_same.2 ih)
  | @obj entries distinct h ih =>
    refine .obj fun key => ?_
    cases hget : Record.get? entries key with
    | none => exact .none
    | some value => exact .some (ih _ ((Record.get?_eq_some_iff distinct).1 hget))

namespace Record

variable {entries others : Record}

/-- The object of a map has a value under each key of the map. -/
theorem get?_map {α : Type} (map : OrderedMap String α) (f : α → Json) (key : String) :
    Record.get? (map.map fun entry => (entry.1, f entry.2)) key = (map.get? key).map f := by
  induction map with
  | nil => rfl
  | cons entry rest ih =>
    obtain ⟨name, value⟩ := entry
    have hcompare : compare key name = .eq ↔ name = key :=
      Std.LawfulEqCmp.compare_eq_iff_eq.trans eq_comm
    by_cases hname : name = key
    · simp [Record.get?, OrderedMap.get?, hname, Std.ReflCmp.compare_self]
    · simpa [Record.get?, OrderedMap.get?, hcompare, hname] using ih

/-- What an object with the same data holds is what the object holds under the same key. -/
theorem exists_same_of_mem
    (h : ∀ key, Option.Rel Json.Same (entries.get? key) (others.get? key))
    (hdistinct : (others.map (·.1)).Nodup) {entry : String × Json} (hmem : entry ∈ others) :
    ∃ written, entries.get? entry.1 = some written ∧ written.Same entry.2 := by
  have hkey := h entry.1
  rw [(get?_eq_some_iff hdistinct).2 hmem] at hkey
  exact exists_of_rel_some hkey

/-- An object with the same data as one of a single key is one of that key. -/
theorem eq_singleton_of_same {tag : String} {payload : Json}
    (h : ∀ key, Option.Rel Json.Same (Record.get? [(tag, payload)] key) (others.get? key))
    (hdistinct : (others.map (·.1)).Nodup) :
    ∃ other, others = [(tag, other)] ∧ payload.Same other := by
  have hwritten {entry : String × Json} (hmem : entry ∈ others) :
      tag = entry.1 ∧ payload.Same entry.2 := by
    obtain ⟨written, hget, hsame⟩ := exists_same_of_mem h hdistinct hmem
    obtain ⟨rfl, rfl⟩ : tag = entry.1 ∧ payload = written := by simpa [get?] using hget
    exact ⟨rfl, hsame⟩
  cases others with
  | nil => simpa [get?] using h tag
  | cons entry rest =>
    obtain ⟨hnew, -⟩ := List.nodup_cons.1 hdistinct
    obtain ⟨rfl, hsame⟩ := hwritten List.mem_cons_self
    refine ⟨entry.2, congrArg _ (List.eq_nil_iff_forall_not_mem.2 fun other hother => ?_), hsame⟩
    have hkey := (hwritten (List.mem_cons_of_mem _ hother)).1
    exact hnew (List.mem_map.2 ⟨other, hother, hkey.symm⟩)

end Record

end KeyedStore
