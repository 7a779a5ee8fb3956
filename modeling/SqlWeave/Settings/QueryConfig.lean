import SqlWeave.Settings.Source

/-!
# Query configurations

A configuration keeps which of its flags were set explicitly.  `merged` lets the
flags that are set in an override win, so that the last explicit setting counts.
-/

namespace SqlWeave

open Settings

namespace QueryConfig

/-- The effective value of a flag. -/
def isNative (c : QueryConfig) : Bool :=
  c.nativeQuery.getD false

/-- The effective value of a flag. -/
def keepsCasing (c : QueryConfig) : Bool :=
  c.keepCasing.getD false

/-- The flags of `c`, overridden by those that `other` sets. -/
def override (c other : QueryConfig) : QueryConfig where
  nativeQuery := other.nativeQuery.or c.nativeQuery
  keepCasing := other.keepCasing.or c.keepCasing

/-- The names of the flags. -/
def fieldNames : List String :=
  ["native_query", "keep_original_casing"]

/-- A flag that may be set. -/
def flag (options : Options) (name : String) : Check (Option Bool) :=
  Check.field name (options.lookup name) none fun v => do return some (← Coercion.truth v)

/-- The complaint about a key that is no name of a flag. -/
def strangeKey? : Value → Option Complaint
  | .str name => if fieldNames.contains name then none else some ⟨[name], .unknownField⟩
  | key => some ⟨[keyPlace key], .keyType⟩

/-- Checks the flags of a configuration; other entries are refused. -/
def check (entries : List (Value × Value)) : Check QueryConfig := do
  let options := textOptions entries
  let nativeQuery ← flag options "native_query"
  let keepCasing ← flag options "keep_original_casing"
  Check.complain (entries.filterMap fun e => strangeKey? e.1)
  return { nativeQuery, keepCasing }

/-- The configuration with these flags. -/
def ofOptions (options : Options) : Result QueryConfig :=
  Check.run "QueryConfig" (check options.entries)

/-- The configuration that a value overrides `c` to: nothing, another configuration,
or a mapping of flags in either casing. -/
def merged (c : QueryConfig) : Value → Result QueryConfig
  | .null => .ok c
  | .queryConfig other => .ok (c.override other)
  | v => do return c.override (← ofOptions (← normalizeValue v))

end QueryConfig
end SqlWeave
