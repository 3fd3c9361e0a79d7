/-!
# Definition errors

The ways in which the definition of a model can be refused.
-/
namespace KeyedStore

/-- Why a model cannot be defined. -/
inductive DefinitionError where
  | duplicateKey (model role first second : String)
  /-- A generated hash key has another name than the reserved one. -/
  | uuidKeyName (model property : String)
  /-- A composite key has another name than the reserved one. -/
  | primaryKeyName (model property : String)
  | rangeWithoutPrimary (model range : String)
  | primaryWithoutRange (model property : String)
  | rangeWithoutHash (model range : String)
  | duplicateIndexName (model index : String)
  | invalidProperty (model property reason : String)
  | alreadyDefined (model : String)
  deriving DecidableEq

/-- The text of a definition error. -/
def DefinitionError.message : DefinitionError → String
  | duplicateKey model role first second =>
    s!"model {model}: more than one {role} key ({first}, {second})"
  | uuidKeyName model property =>
    s!"model {model}: uuid key must be named `id`, found `{property}`"
  | primaryKeyName model property =>
    s!"model {model}: primary key must be named `id`, found `{property}`"
  | rangeWithoutPrimary model range =>
    s!"model {model}: range key `{range}` requires a composite `id` key (keyType: pk)"
  | primaryWithoutRange model property =>
    s!"model {model}: composite key `{property}` declared without a range key"
  | rangeWithoutHash model range =>
    s!"model {model}: range key `{range}` declared without a hash key"
  | duplicateIndexName model index => s!"model {model}: duplicate index name `{index}`"
  | invalidProperty model property reason =>
    s!"model {model}: invalid property `{property}`: {reason}"
  | alreadyDefined model => s!"model {model} is already defined"

end KeyedStore
