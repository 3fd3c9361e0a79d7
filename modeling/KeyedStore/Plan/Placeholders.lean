import KeyedStore.Json.Basic
import KeyedStore.OrderedMap

/-!
# Placeholders

Allocates the placeholders of one expression. A name placeholder is a `#` and the first letters of
the attribute name in upper case, as many as are needed to differ from the others; a value
placeholder is a `:`, the attribute name and a suffix. A number is appended where that is not
enough.
-/
namespace KeyedStore

/-- The placeholders given out for names and values. -/
structure Placeholders where
  names : OrderedMap String String := []
  values : OrderedMap String Json := []

namespace Placeholders

/-- The letters, digits and underscores of an attribute name. -/
def sanitize (name : String) : List Char :=
  name.toList.filter fun c => c.isAlphanum || c == '_'

/-- What name placeholders are cut from: the attribute name in upper case. -/
def nameStem (name : String) : List Char :=
  match (sanitize name).map Char.toUpper with
  | [] => ['A']
  | stem => stem

/-- What value placeholders start with: the attribute name. -/
def valueStem (name : String) : List Char :=
  match sanitize name with
  | [] => ['v']
  | stem => stem

/-- The placeholders to be tried for an attribute name, given how many are taken: one more numbered
one than can be taken. -/
def nameCandidates (taken : Nat) (name : String) : List String :=
  let stem := nameStem name
  let cut := (List.range stem.length).map fun n => stem.take (n + 1)
  let numbered := (List.range (taken + 1)).map fun n => stem ++ Nat.toDigits 10 (n + 1)
  (cut ++ numbered).map fun text => String.ofList ('#' :: text)

/-- The placeholders to be tried for a value, given how many are taken. -/
def valueCandidates (taken : Nat) (name suffix : String) : List String :=
  let stem := valueStem name ++ suffix.toList
  let numbered := (List.range (taken + 1)).map fun n => stem ++ Nat.toDigits 10 (n + 1)
  (stem :: numbered).map fun text => String.ofList (':' :: text)

/-- The placeholder of an attribute name, allocated when it is first asked for. -/
def name (placeholders : Placeholders) (attr : String) : String × Placeholders :=
  match placeholders.names.find? (·.2 == attr) with
  | some (placeholder, _) => (placeholder, placeholders)
  | none =>
    let free := (nameCandidates placeholders.names.length attr).find? fun candidate =>
      !placeholders.names.contains candidate
    let placeholder := free.getD ""
    (placeholder, { placeholders with names := placeholders.names.insert placeholder attr })

/-- A new placeholder for a value of an attribute. -/
def value (placeholders : Placeholders) (attr suffix : String) (json : Json) :
    String × Placeholders :=
  let free := (valueCandidates placeholders.values.length attr suffix).find? fun candidate =>
    !placeholders.values.contains candidate
  let placeholder := free.getD ""
  (placeholder, { placeholders with values := placeholders.values.insert placeholder json })

end Placeholders

end KeyedStore
