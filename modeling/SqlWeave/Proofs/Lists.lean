import Mathlib.Data.List.Nodup
import Mathlib.Tactic.Common

/-!
# Lists that are changed in one place

What stands in a list in which one entry was put behind the others, was set or was modified: the
new entry, or what stood there before.

## Main results

* `of_getElem?_set`: what stands in a list in which an entry was set.
* `getElem?_of_concat`, `concat_eq_append_cons`: what stands in a list with an entry behind it.
-/

namespace SqlWeave

variable {α β : Type} {items : List α} {last : α}

theorem of_getElem?_set {i j : Nat} {a b : α} (h : (items.set i a)[j]? = some b) :
    i = j ∧ b = a ∨ i ≠ j ∧ items[j]? = some b := by
  by_cases hSame : i = j
  · subst hSame
    have hLt : i < items.length := by
      have hIn := (List.getElem?_eq_some_iff.mp h).1
      rwa [List.length_set] at hIn
    rw [List.getElem?_set_self hLt, Option.some.injEq] at h
    exact .inl ⟨rfl, h.symm⟩
  · exact .inr ⟨hSame, (List.getElem?_set_ne hSame).symm.trans h⟩

theorem getElem?_of_concat {item : α} {i : Nat} (h : (items ++ [last])[i]? = some item)
    (hNe : i ≠ items.length) : items[i]? = some item := by
  rw [List.getElem?_append] at h
  split at h
  · exact h
  · rw [List.getElem?_singleton, if_neg (by omega)] at h
    cases h

/-- An entry of a list with one more entry is that one, or stood there before. -/
theorem concat_eq_append_cons {before after : List α} {x : α}
    (h : items ++ [last] = before ++ x :: after) :
    before = items ∧ x = last ∧ after = [] ∨
      ∃ rest, after = rest ++ [last] ∧ items = before ++ x :: rest := by
  rcases List.eq_nil_or_concat' after with rfl | ⟨rest, y, rfl⟩
  · obtain ⟨hItems, hLast⟩ := List.append_inj' h rfl
    exact .inl ⟨hItems.symm, (List.cons.inj hLast).1.symm, rfl⟩
  · rw [← List.cons_append, ← List.append_assoc] at h
    obtain ⟨hItems, hLast⟩ := List.append_inj' h rfl
    exact .inr ⟨rest, by rw [hLast], hItems⟩

/-- One more entry, which a function tells from all others. -/
theorem nodup_map_snoc {g : α → β} (h : (items.map g).Nodup) (hNew : ∀ b ∈ items, g b ≠ g last) :
    ((items ++ [last]).map g).Nodup := by
  rw [List.map_append, List.map_singleton, List.nodup_append]
  refine ⟨h, List.nodup_singleton _, fun value hMem other hOther => ?_⟩
  obtain ⟨b, hb, rfl⟩ := List.mem_map.mp hMem
  rw [List.mem_singleton.mp hOther]
  exact hNew b hb

/-- A change of an entry that a function does not see. -/
theorem map_modify_of_eq (g : α → β) {f : α → α} (h : ∀ a, g (f a) = g a) (items : List α)
    (i : Nat) : (items.modify i f).map g = items.map g := by
  refine List.ext_getElem? fun j => ?_
  rw [List.getElem?_map, List.getElem?_map, List.getElem?_modify]
  cases items[j]? with
  | none => rfl
  | some a =>
    by_cases hSame : i = j
    · simp [hSame, h]
    · simp [hSame]

end SqlWeave
