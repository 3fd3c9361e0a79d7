import KeyedStore.Numeric.Decimal
import KeyedStore.Text.Blank

/-!
# Configuration of a store in memory

How many items and table names a page holds, and how long a table takes to become active.
-/
namespace KeyedStore

/-- The variables of an environment. -/
abbrev Environment := List (String × String)

/-- The natural number below a bound that a variable holds, white space around it ignored. -/
def Environment.nat? (environment : Environment) (name : String) (bound : Nat) : Option Nat :=
  (environment.lookup name).bind fun text => readNatBelow? bound (Text.trim text.toList)

/-- The configuration of a store in memory. -/
structure MemoryConfig where
  /-- The most items a page of a query or scan evaluates. -/
  pageSize : Nat := 100
  /-- The most names a page of table names holds. -/
  namesPageSize : Nat := 100
  /-- The number of looks at a new table before it is active. -/
  activationPolls : Nat := 1
  deriving DecidableEq

namespace MemoryConfig

def withPageSize (config : MemoryConfig) (size : Nat) : MemoryConfig :=
  { config with pageSize := max size 1 }

def withNamesPageSize (config : MemoryConfig) (size : Nat) : MemoryConfig :=
  { config with namesPageSize := max size 1 }

def withActivationPolls (config : MemoryConfig) (polls : Nat) : MemoryConfig :=
  { config with activationPolls := polls }

/-- The configuration that an environment asks for. -/
def ofEnvironment (environment : Environment) : MemoryConfig :=
  let standard : MemoryConfig := {}
  { pageSize :=
      max ((environment.nat? "DYNORM_MEMORY_PAGE_SIZE" (Nat.pow 2 64)).getD standard.pageSize) 1
    namesPageSize :=
      max ((environment.nat? "DYNORM_MEMORY_LIST_TABLES_PAGE_SIZE" (Nat.pow 2 64)).getD
        standard.namesPageSize) 1
    activationPolls :=
      (environment.nat? "DYNORM_MEMORY_ACTIVATION_POLLS" (Nat.pow 2 32)).getD
        standard.activationPolls }

end MemoryConfig

end KeyedStore
