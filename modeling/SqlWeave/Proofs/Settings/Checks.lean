import SqlWeave.Settings.Database

/-!
# What comes of a check

A check goes on after a complaint, with a default in the place of what it refused.  `Check.Reports`
says which complaints there are and what the result is with these defaults; `Check.Establishes`
says only what is known of the result if there are no complaints, as its postcondition.  Both have
one rule for each way in which checks are put together.

## Main results

* `Reports.bind`, `reports_field`, `Reports.run_eq`: all complaints, and the result of a check of
  which all complaints are known.
* `Establishes.bind`, `establishes_field`: a field that was not refused has its coerced value or
  its default.
* `Establishes.of_run`: what is known of the result of a check without complaints.
-/

namespace SqlWeave.Settings

namespace Check

variable {α β : Type} {check : Check α} {post : α → Prop}

/-! ## All complaints -/

/-- The check results in `a` and adds these complaints to those there are. -/
def Reports (check : Check α) (a : α) (complaints : List Complaint) : Prop :=
  ∀ before, StateT.run check before = (a, before ++ complaints)

theorem reports_pure (a : α) : Reports (pure a) a [] :=
  fun before => by rw [List.append_nil]; rfl

theorem Reports.bind {f : α → Check β} {a : α} {b : β} {complaints others : List Complaint}
    (h : check.Reports a complaints) (hf : (f a).Reports b others) :
    Reports (check >>= f) b (complaints ++ others) := by
  intro before
  rw [StateT.run_bind, h before, ← List.append_assoc]
  exact hf _

theorem reports_complain (complaints : List Complaint) :
    Reports (complain complaints) () complaints :=
  fun _ => rfl

/-- The value of a field; a refused one leaves the default. -/
def taken (value : Option Value) (default : α) (c : Coercion α) : α :=
  (value.bind fun v => (c v).toOption).getD default

/-- The complaint about a field. -/
def refusals (name : String) (value : Option Value) (c : Coercion α) : List Complaint :=
  match value.map c with
  | some (.error refusal) => [⟨[name], refusal⟩]
  | _ => []

theorem reports_field (name : String) (value : Option Value) (default : α) (c : Coercion α) :
    (field name value default c).Reports (taken value default c) (refusals name value c) := by
  unfold field taken refusals
  cases value with
  | none => exact reports_pure default
  | some v =>
    cases hCoerced : c v with
    | ok a =>
      simp only [hCoerced, Option.map_some, Option.bind_some]
      exact reports_pure a
    | error refusal =>
      simp only [hCoerced, Option.map_some, Option.bind_some]
      exact (reports_complain _).bind (reports_pure default)

theorem refusals_eq_nil_iff {name : String} {value : Option Value} {c : Coercion α} :
    refusals name value c = [] ↔ ∀ v, value = some v → ∃ a, c v = .ok a := by
  unfold refusals
  cases value with
  | none => simp
  | some v => cases hCoerced : c v <;> simp [hCoerced]

/-- The result of a check: what it made, or else all complaints. -/
theorem Reports.run_eq {a : α} {complaints : List Complaint} (h : check.Reports a complaints)
    (model : String) :
    check.run model = if complaints.isEmpty then .ok a else .error (.invalid model complaints) := by
  have hState := h []
  rw [List.nil_append] at hState
  rw [Check.run, hState]

/-! ## What follows from none -/

/-- The check adds complaints to those there are, and if it adds none its result is as `post`
says. -/
def Establishes {α : Type} (check : Check α) (post : α → Prop) : Prop :=
  ∀ before, ∃ a more, StateT.run check before = (a, before ++ more) ∧ (more = [] → post a)

theorem Reports.establishes {a : α} {complaints : List Complaint} (h : check.Reports a complaints)
    (hPost : complaints = [] → post a) : check.Establishes post :=
  fun before => ⟨a, complaints, h before, hPost⟩

theorem establishes_pure {a : α} (h : post a) : Establishes (pure a) post :=
  (reports_pure a).establishes fun _ => h

/-- Checks in a row.  The second one runs also when the first one complained, and then its
result says nothing. -/
theorem Establishes.bind {f : α → Check β} {post' : β → Prop} (h : check.Establishes post)
    (hf : ∀ a, (f a).Establishes fun b => post a → post' b) :
    Establishes (check >>= f) post' := by
  intro before
  obtain ⟨a, more, hRun, hMore⟩ := h before
  obtain ⟨b, others, hNext, hOthers⟩ := hf a (before ++ more)
  refine ⟨b, more ++ others, ?_, fun hNone => ?_⟩
  · rw [StateT.run_bind, hRun, ← List.append_assoc]
    exact hNext
  · obtain ⟨hNoneFirst, hNoneNext⟩ := List.append_eq_nil_iff.mp hNone
    exact hOthers hNoneNext (hMore hNoneFirst)

theorem establishes_complain (complaints : List Complaint) :
    Establishes (complain complaints) fun _ => complaints = [] :=
  (reports_complain complaints).establishes id

/-- The value of a field: the default when none is given, else what the given one is coerced
to. -/
def IsTaken {α : Type} (value : Option Value) (default : α) (c : Coercion α) (a : α) : Prop :=
  match value with
  | none => a = default
  | some v => c v = .ok a

/-- A field that is not refused has its coerced value, or its default. -/
theorem establishes_field (name : String) (value : Option Value) (default : α) (c : Coercion α) :
    (field name value default c).Establishes (IsTaken value default c) := by
  refine (reports_field name value default c).establishes fun hNone => ?_
  cases value with
  | none => rfl
  | some v =>
    obtain ⟨a, hCoerced⟩ := refusals_eq_nil_iff.mp hNone v rfl
    rw [IsTaken, taken, Option.bind_some, hCoerced]
    rfl

/-- The result of a check without complaints. -/
theorem Establishes.of_run {model : String} {a : α} (h : check.Establishes post)
    (hRun : check.run model = .ok a) : post a := by
  obtain ⟨b, more, hState, hMore⟩ := h []
  rw [List.nil_append] at hState
  simp only [Check.run, hState] at hRun
  cases more with
  | nil =>
    obtain rfl : b = a := Except.ok.inj hRun
    exact hMore rfl
  | cons complaint rest => cases hRun

end Check

end SqlWeave.Settings

namespace SqlWeave.DatabaseSettings

open Settings Check

variable {α : Type}

/-- A check inside of a field adds complaints, as any other does. -/
theorem establishes_nested (field : String) (check : Check α) :
    (nested field check).Establishes fun _ => True :=
  fun _ => ⟨_, _, rfl, fun _ => trivial⟩

theorem establishes_group (field model : String) (value : Option Value) (default : α)
    (check : List (Value × Value) → Check α) :
    (group field model value default check).Establishes fun _ => True := by
  unfold group
  split
  · exact establishes_pure trivial
  · exact establishes_nested field _
  · exact (establishes_complain _).bind fun _ => establishes_pure fun _ => trivial

theorem establishes_checkQueryConfig (value : Option Value) :
    (checkQueryConfig value).Establishes fun _ => True := by
  unfold checkQueryConfig
  split
  · exact establishes_pure trivial
  · exact establishes_group _ _ _ _ _

end SqlWeave.DatabaseSettings
