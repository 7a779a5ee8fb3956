import SqlWeave.Template.Compiled

/-!
# The template cache

Prepared templates are kept, at most `limit` of them, in the order of their last
use.  A template enters the cache when it was prepared without a fault, whether or
not it can be rendered; the least recently used one leaves when there are too many.
-/

namespace SqlWeave.Template

/-- A cache of prepared templates, the least recently used first. -/
structure Cache where
  limit : Nat
  entries : List (String × Compiled) := []

namespace Cache

/-- The cached templates, the least recently used first. -/
def templates (c : Cache) : List String :=
  c.entries.map Prod.fst

/-- The cache with a template as its most recently used one. -/
def touch (c : Cache) (template : String) (compiled : Compiled) : Cache :=
  { c with entries := c.entries.filter (·.1 != template) ++ [(template, compiled)] }

/-- The cache without its least recently used template if it holds too many. -/
def evict (c : Cache) : Cache :=
  if c.limit < c.entries.length then { c with entries := c.entries.tail } else c

/-- The prepared template, from the cache or new. -/
def prepare (c : Cache) (template : String) : Result Compiled × Cache :=
  match c.entries.lookup template with
  | some compiled => (.ok compiled, c.touch template compiled)
  | none =>
    match Template.prepare template with
    | .ok compiled => (.ok compiled, (c.touch template compiled).evict)
    | .error fault => (.error fault, c)

/-- The SQL skeleton of a template under parameters, and the cache afterwards. -/
def compile (c : Cache) (d : Sql.Dialect) (template : String) (params : Value) :
    Result String × Cache :=
  match parameterEntries params with
  | .error fault => (.error fault, c)
  | .ok params =>
    match c.prepare template with
    | (.error fault, c) => (.error fault, c)
    | (.ok compiled, c) => ((compiled.render d params).map String.ofList, c)

end Cache
end SqlWeave.Template
