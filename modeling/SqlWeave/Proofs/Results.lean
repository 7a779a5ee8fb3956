import Mathlib.Data.List.Forall2
import Mathlib.Tactic.Common

/-!
# Results

What is known of a result: from which results it was made, or what it yields, be it a value or a
fault.

## Main results

* `ok_of_bind`: what a successful sequence went through.
* `mapM_ok_iff`: which results a list of results is made of.
* `Yields.bind`, `yields_mapM`: what a sequence yields.
-/

namespace SqlWeave

theorem ok_of_bind {ε α β : Type} {x : Except ε α} {f : α → Except ε β} {b : β}
    (h : x >>= f = .ok b) : ∃ a, x = .ok a ∧ f a = .ok b := by
  cases x with
  | error fault => cases h
  | ok a => exact ⟨a, rfl, h⟩

theorem ok_bind {ε α β : Type} (a : α) (f : α → Except ε β) : (Except.ok a >>= f) = f a := rfl

theorem ok_of_mapError {ε δ α : Type} {x : Except ε α} {f : ε → δ} {a : α}
    (h : x.mapError f = .ok a) : x = .ok a := by
  cases x with
  | error fault => cases h
  | ok b =>
    obtain rfl : b = a := Except.ok.inj h
    rfl

/-- Options can be compared where faults cannot. -/
theorem ok_of_toOption {ε α : Type} {r : Except ε α} {a : α} (h : r.toOption = some a) :
    r = .ok a := by
  cases r with
  | error fault => cases h
  | ok b =>
    obtain rfl : b = a := Option.some.inj h
    rfl

/-- A list of results is one result if each of them is one. -/
theorem mapM_ok_iff {ε α β : Type} {f : α → Except ε β} {items : List α} {bs : List β} :
    items.mapM f = .ok bs ↔ List.Forall₂ (fun a b => f a = .ok b) items bs := by
  induction items generalizing bs with
  | nil =>
    rw [List.mapM_nil, List.forall₂_nil_left_iff]
    exact ⟨fun h => (Except.ok.inj h).symm, fun h => congrArg Except.ok h.symm⟩
  | cons a rest ih =>
    rw [List.mapM_cons, List.forall₂_cons_left_iff]
    constructor
    · intro h
      obtain ⟨b, hFirst, hOthers⟩ := ok_of_bind h
      obtain ⟨bs', hRest, hAll⟩ := ok_of_bind hOthers
      exact ⟨b, bs', hFirst, ih.mp hRest, (Except.ok.inj hAll).symm⟩
    · rintro ⟨b, bs', hFirst, hRest, rfl⟩
      rw [hFirst, ok_bind, ih.mpr hRest, ok_bind]
      rfl

/-- What comes of a result: a postcondition if it is one, and what is said of its fault if not. -/
def Yields {ε α : Type} (post : α → Prop) (fails : ε → Prop) : Except ε α → Prop
  | .ok a => post a
  | .error e => fails e

section Yields

variable {ε α β : Type} {post : α → Prop} {fails : ε → Prop} {r : Except ε α}

theorem Yields.bind {post' : β → Prop} {f : α → Except ε β} (h : Yields post fails r)
    (hf : ∀ a, post a → Yields post' fails (f a)) : Yields post' fails (r >>= f) := by
  cases r with
  | ok a => exact hf a h
  | error e => exact h

theorem Yields.mono {post' : α → Prop} {fails' : ε → Prop} (h : Yields post fails r)
    (hPost : ∀ a, post a → post' a) (hFails : ∀ e, fails e → fails' e) : Yields post' fails' r := by
  cases r with
  | ok a => exact hPost a h
  | error e => exact hFails e h

theorem Yields.and_eq (h : Yields post fails r) : Yields (fun a => r = .ok a ∧ post a) fails r := by
  cases r with
  | ok a => exact ⟨rfl, h⟩
  | error e => exact h

theorem Yields.of_ok {a : α} (h : Yields post fails r) (hOk : r = .ok a) : post a := by
  rw [hOk] at h
  exact h

theorem Yields.of_error {e : ε} (h : Yields post fails r) (hError : r = .error e) : fails e := by
  rw [hError] at h
  exact h

/-- A result that cannot fail. -/
theorem Yields.exists_ok (h : Yields post (fun _ => False) r) : ∃ a, r = .ok a ∧ post a := by
  cases r with
  | ok a => exact ⟨a, rfl, h⟩
  | error e => exact h.elim

theorem yields_mapError {δ : Type} {fails' : δ → Prop} {g : ε → δ} (h : Yields post fails r)
    (hFails : ∀ e, fails e → fails' (g e)) : Yields post fails' (r.mapError g) := by
  cases r with
  | ok a => exact h
  | error e => exact hFails e h

theorem yields_mapM {f : α → Except ε β} {post' : β → Prop} {items : List α}
    (h : ∀ a ∈ items, Yields post' fails (f a)) :
    Yields (fun bs => ∀ b ∈ bs, post' b) fails (items.mapM f) := by
  induction items with
  | nil =>
    rw [List.mapM_nil]
    exact fun b hMem => absurd hMem List.not_mem_nil
  | cons a rest ih =>
    rw [List.mapM_cons]
    refine (h a List.mem_cons_self).bind fun b hb => ?_
    refine (ih fun c hMem => h c (List.mem_cons_of_mem _ hMem)).bind fun bs hbs => ?_
    intro c hMem
    rcases List.mem_cons.mp hMem with rfl | hMem
    · exact hb
    · exact hbs c hMem

end Yields

end SqlWeave
