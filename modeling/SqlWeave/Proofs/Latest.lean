import Mathlib.Tactic.Common

/-!
# What was set last

Where each change sets something or leaves it as it is, what is found after any number of changes
is what was set last, and what there was before if nothing was set.

## Main results

* `view_foldl`: what is found of a state after changes that keep an invariant.
* `viewOption_foldl`: the same for something that may be missing.
-/

namespace SqlWeave

section

variable {σ α β : Type} {change : σ → α → σ}

/-- What is found after changes: what was set last, or what there was before. -/
theorem view_foldl (keeps : σ → Prop) {view : σ → β} {set? : α → Option β}
    (hKeeps : ∀ s a, keeps s → keeps (change s a))
    (hView : ∀ s a, keeps s → view (change s a) = (set? a).getD (view s)) (changes : List α)
    {s : σ} (hs : keeps s) :
    view (changes.foldl change s) = (changes.filterMap set?).getLast?.getD (view s) := by
  induction changes generalizing s with
  | nil => rfl
  | cons a rest ih =>
    rw [List.foldl_cons, ih (hKeeps s a hs), hView s a hs]
    cases hSet : set? a with
    | none => rw [List.filterMap_cons_none hSet, Option.getD_none]
    | some b =>
      rw [List.filterMap_cons_some hSet, List.getLast?_cons, Option.getD_some, Option.getD_some]

/-- What is found of something that may be missing, and that no change takes away: a change sets it
only where it is there. -/
theorem viewOption_foldl {view : σ → Option β} {set? : α → Option β}
    (hView : ∀ s a, view (change s a) = (set? a).or (view s)) (changes : List α) (s : σ) :
    view (changes.foldl change s) = (changes.filterMap set?).getLast?.or (view s) := by
  have hOr : ∀ x y : Option β, x.or y = (x.map some).getD y := by
    intro x y
    cases x <;> rfl
  have hMap : changes.filterMap (fun a => (set? a).map some) = (changes.filterMap set?).map some :=
    List.map_filterMap.symm
  rw [hOr, ← List.getLast?_map, ← hMap]
  exact view_foldl (fun _ => True) (fun _ _ _ => trivial)
    (fun s a _ => (hView s a).trans (hOr _ _)) changes trivial

end

end SqlWeave
