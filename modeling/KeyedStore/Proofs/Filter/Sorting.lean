import KeyedStore.Filter.Shaping
import KeyedStore.Proofs.Numeric.RoundedOrder
import KeyedStore.Proofs.StableSort

/-!
# Sorting of records

Two integers are compared by value, but by their floating point values when they are compared with a
number that is no integer of the signed 64-bit range. So such a number may be equal to two different
integers. Records without three such numbers in one field are sorted by a total preorder, and those
that are equal keep their order.
-/
namespace KeyedStore

open Std

namespace Json

instance : TransCmp compareText :=
  inferInstanceAs (TransCmp (compareLex
    (compareOn fun s : String => String.ofList (Text.lower s.toList)) compare))

section Numbers

variable {a b c : Number}

theorem toBinary64_of_int64? {i : Int} (h : a.int64? = some i) : a.toBinary64 = .ofInt i := by
  cases a with
  | int n inRange =>
    simp only [Number.int64?] at h
    split at h <;> cases h
    rfl
  | real => cases h

instance : OrientedCmp compareNumbers where
  eq_swap {a b} := by
    unfold compareNumbers Binary64.totalCompare
    cases a.int64? <;> cases b.int64? <;> exact @OrientedCmp.eq_swap Int compare _ _ _

/-- Numbers are in order if their floating point values are, and if they are in order as integers
where both are integers. -/
theorem isLE_compareNumbers_iff : (compareNumbers a b).isLE ↔
    a.toBinary64.totalKey ≤ b.toBinary64.totalKey ∧
      ∀ i j, a.int64? = some i → b.int64? = some j → i ≤ j := by
  unfold compareNumbers Binary64.totalCompare
  split
  case h_1 i j hi hj =>
    rw [Int.isLE_compare, toBinary64_of_int64? hi, toBinary64_of_int64? hj]
    constructor
    · intro hle
      refine ⟨Binary64.totalKey_ofInt_mono hle, fun i' j' hi' hj' => ?_⟩
      cases hi.symm.trans hi'
      cases hj.symm.trans hj'
      exact hle
    · exact fun h => h.2 i j hi hj
  case h_2 hnot =>
    rw [Int.isLE_compare]
    exact ⟨fun hle => ⟨hle, fun i j hi hj => absurd hj (hnot i j hi)⟩, And.left⟩

end Numbers

/-- Whether two different integers have the floating point value of a number between them that is
not compared as an integer. -/
inductive Conflict : Option Json → Option Json → Option Json → Prop
  | numbers {a b c : Number} {i j : Int} (greater : a.int64? = some i) (lesser : c.int64? = some j)
      (lt : j < i) (between : b.int64? = none) (eq_left : a.toBinary64 = b.toBinary64)
      (eq_right : b.toBinary64 = c.toBinary64) :
      Conflict (some (.num a)) (some (.num b)) (some (.num c))

section Values

variable {a b c : Option Json}

instance : OrientedCmp compareForSort where
  eq_swap {a b} := by
    unfold compareForSort
    split
    case h_1 s t => exact @OrientedCmp.eq_swap String compareText _ _ _
    case h_2 n m => exact @OrientedCmp.eq_swap Number compareNumbers _ _ _
    case h_3 v w => exact @OrientedCmp.eq_swap Bool compare _ _ _
    case h_4 hstr hnum hbool =>
      split
      case h_1 s t => exact absurd rfl (hstr t s rfl)
      case h_2 n m => exact absurd rfl (hnum m n rfl)
      case h_3 v w => exact absurd rfl (hbool w v rfl)
      case h_4 => exact @OrientedCmp.eq_swap Nat compare _ _ _

theorem compareForSort_of_rank_lt (h : rank a < rank b) : compareForSort a b = .lt := by
  unfold compareForSort
  split
  case h_4 => exact Nat.compare_eq_lt.2 h
  all_goals simp [rank] at h

theorem rank_le_of_isLE (h : (compareForSort a b).isLE) : rank a ≤ rank b := by
  refine Nat.le_of_not_lt fun hlt => ?_
  have hgt := OrientedCmp.gt_of_lt (compareForSort_of_rank_lt hlt)
  simp [hgt] at h

theorem exists_bool_of_rank (h : rank a = 1) : ∃ v, a = some (.bool v) := by
  unfold rank at h
  split at h <;> simp_all

theorem exists_num_of_rank (h : rank a = 2) : ∃ n, a = some (.num n) := by
  unfold rank at h
  split at h <;> simp_all

theorem exists_str_of_rank (h : rank a = 3) : ∃ s, a = some (.str s) := by
  unfold rank at h
  split at h <;> simp_all

/-- Three numbers out of order are two integers with a number of their floating point value between
them. -/
theorem conflict_of_compareNumbers {a b c : Number} (hab : (compareNumbers a b).isLE)
    (hbc : (compareNumbers b c).isLE) (hac : ¬(compareNumbers a c).isLE) :
    Conflict (some (.num a)) (some (.num b)) (some (.num c)) := by
  obtain ⟨hkeys, hints⟩ := isLE_compareNumbers_iff.1 hab
  obtain ⟨hkeys', hints'⟩ := isLE_compareNumbers_iff.1 hbc
  obtain ⟨i, j, hi, hj, hlt⟩ : ∃ i j, a.int64? = some i ∧ c.int64? = some j ∧ j < i := by
    by_contra hnone
    refine hac (isLE_compareNumbers_iff.2 ⟨hkeys.trans hkeys', fun i j hi hj => ?_⟩)
    exact Int.not_lt.1 fun hlt => hnone ⟨i, j, hi, hj, hlt⟩
  have hback : c.toBinary64.totalKey ≤ a.toBinary64.totalKey := by
    rw [toBinary64_of_int64? hi, toBinary64_of_int64? hj]
    exact Binary64.totalKey_ofInt_mono hlt.le
  refine .numbers hi hj hlt ?_ (Binary64.totalKey_inj.1 (by omega))
    (Binary64.totalKey_inj.1 (by omega))
  -- An integer between them would be in order with both.
  cases hb : b.int64? with
  | none => rfl
  | some k =>
    have hle := hints i k hi hb
    have hle' := hints' k j hb hj
    omega

/-- The order of values is transitive except for numbers in conflict. -/
theorem compareForSort_trans_iff :
    ((compareForSort a b).isLE → (compareForSort b c).isLE → (compareForSort a c).isLE) ↔
      ¬Conflict a b c := by
  constructor
  · rintro htrans ⟨hi, hj, hlt, hb, hleft, hright⟩
    have hle := (isLE_compareNumbers_iff.1 (htrans
      (isLE_compareNumbers_iff.2 ⟨by rw [hleft], by simp [hb]⟩)
      (isLE_compareNumbers_iff.2 ⟨by rw [hright], by simp [hb]⟩))).2 _ _ hi hj
    omega
  · intro hconflict hab hbc
    by_contra hac
    have hrank := rank_le_of_isLE hab
    have hrank' := rank_le_of_isLE hbc
    have hrankac : ¬rank a < rank c := fun hlt => hac (by rw [compareForSort_of_rank_lt hlt]; rfl)
    have hrankb : rank b = rank a := by omega
    unfold compareForSort at hac
    split at hac
    case h_1 s t =>
      obtain ⟨u, rfl⟩ := exists_str_of_rank hrankb
      exact hac (@TransCmp.isLE_trans _ compareText _ _ _ _ hab hbc)
    case h_2 n m =>
      obtain ⟨k, rfl⟩ := exists_num_of_rank hrankb
      exact hconflict (conflict_of_compareNumbers hab hbc hac)
    case h_3 v w =>
      obtain ⟨u, rfl⟩ := exists_bool_of_rank hrankb
      exact hac (@TransCmp.isLE_trans Bool compare _ _ _ _ hab hbc)
    case h_4 =>
      refine hac ?_
      rw [Nat.isLE_compare]
      omega

instance (a b c : Option Json) : Decidable (Conflict a b c) :=
  decidable_of_iff
    ((compareForSort a b).isLE ∧ (compareForSort b c).isLE ∧ ¬(compareForSort a c).isLE) <| by
    have htrans := compareForSort_trans_iff (a := a) (b := b) (c := c)
    grind

end Values

end Json

namespace SortTerm

variable {terms : List SortTerm} {records : List Record} {field : String}

/-- Whether three records are in conflict in a field. -/
def HasConflict (field : String) (records : List Record) : Prop :=
  ∃ a ∈ records, ∃ b ∈ records, ∃ c ∈ records,
    Json.Conflict (a.get? field) (b.get? field) (c.get? field)

instance (field : String) (records : List Record) : Decidable (HasConflict field records) :=
  inferInstanceAs (Decidable (∃ a ∈ records, ∃ b ∈ records, ∃ c ∈ records, _))

instance (term : SortTerm) : OrientedCmp term.compareRecords where
  eq_swap {a b} := by
    have hswap : Json.compareForSort (a.get? term.field) (b.get? term.field) =
      (Json.compareForSort (b.get? term.field) (a.get? term.field)).swap := OrientedCmp.eq_swap
    unfold compareRecords
    simp only
    split <;> rw [hswap]

instance (terms : List SortTerm) : OrientedCmp (compareBy terms) where
  eq_swap {a b} := by
    induction terms with
    | nil => rfl
    | cons term rest ih =>
      show (term.compareRecords a b).then (compareBy rest a b) =
        ((term.compareRecords b a).then (compareBy rest b a)).swap
      rw [Ordering.swap_then, ← OrientedCmp.eq_swap, ← ih]

theorem isTransOn_compareRecords {term : SortTerm} (h : ¬HasConflict term.field records) :
    IsTransOn term.compareRecords records := by
  have hascending : IsTransOn (fun a b => Json.compareForSort (a.get? term.field)
      (b.get? term.field)) records := fun a ha b hb c hc =>
    Json.compareForSort_trans_iff.2 fun hconflict => h ⟨a, ha, b, hb, c, hc, hconflict⟩
  intro a ha b hb c hc
  unfold compareRecords
  cases term.descending with
  | false => exact hascending a ha b hb c hc
  | true =>
    simp only [if_true, ← OrientedCmp.eq_swap]
    exact fun hab hbc => hascending c hc b hb a ha hbc hab

/-- Several fields are compared transitively if each of them is. -/
theorem isTransOn_compareBy (h : ∀ term ∈ terms, ¬HasConflict term.field records) :
    IsTransOn (compareBy terms) records := by
  induction terms with
  | nil => exact fun _ _ _ _ _ _ _ _ => rfl
  | cons term rest ih =>
    exact (isTransOn_compareRecords (h term List.mem_cons_self)).then
      (ih fun other hother => h other (List.mem_cons_of_mem term hother))

/-- Whether records are sorted by fields as by a total preorder, with equal records in the order in
which they were. -/
structure SortsLawfully (terms : List SortTerm) (records : List Record) : Prop where
  swap : ∀ a b, compareBy terms b a = (compareBy terms a b).swap
  trans : IsTransOn (compareBy terms) records
  perm : (sortRecords terms records).Perm records
  ascending : (sortRecords terms records).Pairwise fun a b => (compareBy terms a b).isLE
  stable : ∀ a ∈ records, (sortRecords terms records).filter (compareBy terms a · = .eq) =
    records.filter (compareBy terms a · = .eq)

theorem sortsLawfully_of_isTransOn (htrans : IsTransOn (compareBy terms) records) :
    SortsLawfully terms records where
  swap a b := OrientedCmp.eq_swap
  trans := htrans
  perm := stableSort_perm _ records
  ascending := pairwise_stableSort htrans
  stable a ha := by
    refine filter_stableSort fun b hb c hc hab hac => ?_
    simp only [decide_eq_true_eq] at hab hac
    -- Members that are equal to one record are equal to one another.
    have hle := htrans c hc a ha b hb (by simp [OrientedCmp.eq_symm hac]) (by simp [hab])
    cases hbc : compareBy terms b c with
    | lt => simp [OrientedCmp.gt_of_lt hbc] at hle
    | eq | gt => rfl

/-- Records are sorted by a total preorder, and stably, for every choice of some fields to sort by,
exactly if they are in conflict in none of these fields. -/
theorem sortsLawfully_iff (fields : List String) (records : List Record) :
    (∀ terms : List SortTerm, (∀ term ∈ terms, term.field ∈ fields) →
      SortsLawfully terms records) ↔ ∀ field ∈ fields, ¬HasConflict field records := by
  constructor
  · rintro hlawful field hfield ⟨a, ha, b, hb, c, hc, hconflict⟩
    have htrans := (hlawful [⟨field, false⟩] (by simpa using hfield)).trans a ha b hb c hc
    have hone (x y : Record) : compareBy [⟨field, false⟩] x y =
        Json.compareForSort (x.get? field) (y.get? field) := Ordering.then_eq
    rw [hone, hone, hone] at htrans
    exact Json.compareForSort_trans_iff.1 htrans hconflict
  · intro hnone terms hterms
    exact sortsLawfully_of_isTransOn (isTransOn_compareBy fun term hterm =>
      hnone term.field (hterms term hterm))

def tally (count : Number) : Record := [("count", .num count)]

theorem inRange_halfway :
    -Nat.pow 2 63 ≤ (9007199254740993 : Int) ∧ (9007199254740993 : Int) < Nat.pow 2 64 := by decide

theorem inRange_below :
    -Nat.pow 2 63 ≤ (9007199254740992 : Int) ∧ (9007199254740992 : Int) < Nat.pow 2 64 := by decide

/-- An integer that is no floating point value: halfway between two of them. -/
def halfway : Number := .int 9007199254740993 inRange_halfway

/-- The floating point value next to it, as an integer. -/
def below : Number := .int 9007199254740992 inRange_below

/-- The floating point value next to it, with a fraction. -/
def belowReal : Number := .real (.ofInt 9007199254740992) (by decide +kernel)

/-- Integers beyond fifty-three bits are sorted along with fractions and with records without a
count. -/
theorem sortsLawfully_tallies :
    SortsLawfully [⟨"count", true⟩] [tally halfway, tally below,
      tally (.real (.ofRatio false 1 2) (by decide +kernel)), [], [("count", .str "many")]] :=
  (sortsLawfully_iff ["count"] _).2 (by decide +kernel) _ (by simp)

/-- A number between two integers that is equal to both of them hides that they are out of order. -/
theorem not_sortsLawfully_tallies :
    compareBy [⟨"count", false⟩] (tally halfway) (tally belowReal) = .eq ∧
    compareBy [⟨"count", false⟩] (tally belowReal) (tally below) = .eq ∧
    compareBy [⟨"count", false⟩] (tally halfway) (tally below) = .gt ∧
    sortRecords [⟨"count", false⟩] [tally halfway, tally belowReal, tally below] =
      [tally halfway, tally belowReal, tally below] := by
  exact ⟨by decide +kernel, by decide +kernel, by decide +kernel, rfl⟩

end SortTerm

end KeyedStore
