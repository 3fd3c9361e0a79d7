import KeyedStore.Filter.Basic
import KeyedStore.Model.Schema
import KeyedStore.StableSort
import KeyedStore.Text.LetterCase

/-!
# Shaping of results

Cuts the wanted window out of the records that were read, and sorts what remains.
-/
namespace KeyedStore

namespace Json

/-- The place of a kind of value among the others. What is missing counts as null. -/
def rank : Option Json → Nat
  | none | some .null => 0
  | some (.bool _) => 1
  | some (.num _) => 2
  | some (.str _) => 3
  | some (.arr _) => 4
  | some (.obj _) => 5

/-- The order of texts, in which letter case decides last. -/
def compareText (a b : String) : Ordering :=
  let lower (s : String) := String.ofList (Text.lower s.toList)
  (compare (lower a) (lower b)).then (compare a b)

/-- The order of numbers: of two signed integers by value, of others as floating point values. -/
def compareNumbers (a b : Number) : Ordering :=
  match a.int64?, b.int64? with
  | some a, some b => compare a b
  | _, _ => a.toBinary64.totalCompare b.toBinary64

/-- The order by which records are sorted. Values of different kinds go by kind; lists and objects
are not told apart among themselves. -/
def compareForSort (a b : Option Json) : Ordering :=
  match a, b with
  | some (.str a), some (.str b) => compareText a b
  | some (.num a), some (.num b) => compareNumbers a b
  | some (.bool a), some (.bool b) => compare a b
  | a, b => compare (rank a) (rank b)

end Json

namespace SortTerm

/-- The order of two records by one field. -/
def compareRecords (term : SortTerm) (a b : Record) : Ordering :=
  let order := Json.compareForSort (a.get? term.field) (b.get? term.field)
  if term.descending then order.swap else order

/-- The order of two records by several fields, of which the first that differs decides. -/
def compareBy (terms : List SortTerm) (a b : Record) : Ordering :=
  terms.foldr (fun term rest => (term.compareRecords a b).then rest) .eq

end SortTerm

/-- Sorts records by fields. -/
def sortRecords (terms : List SortTerm) (records : List Record) : List Record :=
  stableSort (fun a b => (SortTerm.compareBy terms a b).isLT) records

/-- The elements from an offset on, up to a limit. -/
def window {α : Type} (offset : Nat) (limit : Option Nat) (xs : List α) : List α :=
  match limit with
  | some limit => (xs.drop offset).take limit
  | none => xs.drop offset

/-- The fields that a filter sorts by: those it names, or the default one of the model. -/
def Filter.sortTerms (filter : Filter) (schema : Schema) : List SortTerm :=
  if filter.order.isEmpty then [⟨schema.defaultSortKey, false⟩] else filter.order

/-- The wanted window of records, sorted. -/
def Filter.shape (filter : Filter) (schema : Schema) (records : List Record) : List Record :=
  sortRecords (filter.sortTerms schema) (window filter.offset filter.limit records)

end KeyedStore
