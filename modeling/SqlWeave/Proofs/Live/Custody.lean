import Mathlib.Algebra.Group.Basic
import SqlWeave.Store

/-!
# Custody

Several routines run in turns on one state, and each of them may have something in hand that
the state knows nothing of: a connection that it acquired and has yet to give back.  A custody
says what holds of the state and of all that is in hand, by whatever routine, whenever one
routine waits and others may run; and what a routine may do to the state in a single step.

`Routine.Minds` follows a routine down its tree, beside whatever the others have in hand.  Inside
of a stretch without waits the state may be in any disorder; at each wait the routine says what
it has in hand, and the state is in order again with that and with what the others have.  While
it waits the others may do anything that keeps the order, and each wait may end in any way.

## Main results

* `Routine.minds_bind`: a routine after another one.
* `Action.minds_bind`, `Action.minds_ensuring`, `Action.minds_quietly`: the rules for actions
  that are put together.
* `Action.Balanced` and its rules: actions that end with as much in hand as they start with.
* `minds_call`: the rule for calls to the world outside.
-/

namespace SqlWeave

/-- What the routines that run in turns owe each other. -/
structure Custody (σ ρ : Type) where
  /-- Holds of all that is in hand and of the state whenever others may run. -/
  inv : ρ → σ → Prop
  /-- What a routine may do in a step. -/
  guar : σ → σ → Prop
  guar_refl : ∀ s, guar s s
  guar_trans : ∀ s s' s'', guar s s' → guar s' s'' → guar s s''

section

variable {σ ρ α β : Type} [AddCommMonoid ρ] {c : Custody σ ρ}

namespace Custody

/-- There is order with something in hand, beside what the others have. -/
def With (c : Custody σ ρ) (x : ρ) (others : ρ) (s : σ) : Prop :=
  c.inv (x + others) s

end Custody

namespace Routine

/-- The routine minds its custody from a state on, beside what the others have in hand, and ends
with the postcondition. -/
def Minds (c : Custody σ ρ) (post : α → ρ → σ → Prop) : Routine σ α → ρ → σ → Prop
  | .done a, others, s => post a others s
  | .step change next, others, s => c.guar s (change s) ∧ (next s).Minds c post others (change s)
  | .wait _ next, others, s =>
    ∃ x, c.With x others s ∧
      ∀ others' s' r, c.With x others' s' → (next r).Minds c post others' s'

theorem Minds.mono {post post' : α → ρ → σ → Prop} {routine : Routine σ α} {others : ρ} {s : σ}
    (h : routine.Minds c post others s)
    (hPost : ∀ a others s, post a others s → post' a others s) :
    routine.Minds c post' others s := by
  induction routine generalizing others s with
  | done a => exact hPost a others s h
  | step change next ih => exact ⟨h.1, ih s h.2⟩
  | wait on next ih =>
    obtain ⟨x, hWith, hNext⟩ := h
    exact ⟨x, hWith, fun others' s' r hWith' => ih r (hNext others' s' r hWith')⟩

/-- A routine after another one. -/
theorem minds_bind {post : β → ρ → σ → Prop} {routine : Routine σ α} {f : α → Routine σ β}
    {others : ρ} {s : σ}
    (h : routine.Minds c (fun a others s => (f a).Minds c post others s) others s) :
    (routine.bind f).Minds c post others s := by
  induction routine generalizing others s with
  | done a => exact h
  | step change next ih => exact ⟨h.1, ih s h.2⟩
  | wait on next ih =>
    obtain ⟨x, hWith, hNext⟩ := h
    exact ⟨x, hWith, fun others' s' r hWith' => ih r (hNext others' s' r hWith')⟩

end Routine

namespace Action

variable {P : ρ → σ → Prop} {Q : Result α → ρ → σ → Prop}

/-- From every state with the precondition, the action minds its custody and ends with the
postcondition for its outcome. -/
def Minds (c : Custody σ ρ) (P : ρ → σ → Prop) (a : Action σ α) (Q : Result α → ρ → σ → Prop) :
    Prop :=
  ∀ others s, P others s → Routine.Minds c Q a others s

theorem Minds.mono {P' : ρ → σ → Prop} {Q' : Result α → ρ → σ → Prop} {a : Action σ α}
    (h : Minds c P a Q) (hPre : ∀ others s, P' others s → P others s)
    (hPost : ∀ r others s, Q r others s → Q' r others s) : Minds c P' a Q' :=
  fun others s hs => (h others s (hPre others s hs)).mono hPost

theorem minds_pure {a : α} (h : ∀ others s, P others s → Q (.ok a) others s) :
    Minds c P (pure a) Q := h

theorem minds_throw {f : Fault} (h : ∀ others s, P others s → Q (.error f) others s) :
    Minds c P (throw f) Q := h

theorem minds_ofResult {r : Result α} (h : ∀ others s, P others s → Q r others s) :
    Minds c P (ofResult r) Q := h

/-- An action after another one; a fault of the first one is the outcome. -/
theorem minds_bind {R : Result α → ρ → σ → Prop} {Q : Result β → ρ → σ → Prop} {a : Action σ α}
    {f : α → Action σ β} (ha : Minds c P a R) (hf : ∀ x, Minds c (R (.ok x)) (f x) Q)
    (hFault : ∀ e others s, R (.error e) others s → Q (.error e) others s) :
    Minds c P (a >>= f) Q := by
  intro others s hs
  refine Routine.minds_bind ((ha others s hs).mono fun r others s hr => ?_)
  cases r with
  | ok x => exact hf x others s hr
  | error e => exact hFault e others s hr

theorem minds_map {R : Result α → ρ → σ → Prop} {Q : Result β → ρ → σ → Prop} {a : Action σ α}
    {f : α → β} (ha : Minds c P a R) (h : ∀ r others s, R r others s → Q (r.map f) others s) :
    Minds c P (f <$> a) Q := by
  intro others s hs
  refine Routine.minds_bind ((ha others s hs).mono fun r others s hr => ?_)
  cases r with
  | ok x => exact h (.ok x) others s hr
  | error e => exact h (.error e) others s hr

theorem minds_state_bind {Q : Result β → ρ → σ → Prop} {f : σ → Action σ β}
    (h : ∀ s, (f s).Minds c (fun others s' => P others s' ∧ s' = s) Q) :
    Minds c P (state >>= f) Q :=
  fun others s hs => ⟨c.guar_refl s, h s others s ⟨hs, rfl⟩⟩

/-- A change that is computed from the state. -/
theorem minds_stateful {f : σ → Result α × σ}
    (h : ∀ others s, P others s → c.guar s (f s).2 ∧ Q (f s).1 others (f s).2) :
    Minds c P (stateful f) Q := h

theorem minds_change {f : σ → σ} {Q : Result Unit → ρ → σ → Prop}
    (h : ∀ others s, P others s → c.guar s (f s) ∧ Q (.ok ()) others (f s)) :
    Minds c P (change f) Q := h

theorem minds_change_bind {R : ρ → σ → Prop} {Q : Result β → ρ → σ → Prop} {f : σ → σ}
    {g : Unit → Action σ β}
    (h : ∀ others s, P others s → c.guar s (f s) ∧ R others (f s)) (hg : Minds c R (g ()) Q) :
    Minds c P (change f >>= g) Q :=
  fun others s hs => ⟨(h others s hs).1, hg others (f s) (h others s hs).2⟩

/-- A wait, with something in hand. -/
theorem minds_wait {x : ρ} {on : Awaited} : Minds c (c.With x) (wait on) fun _ => c.With x :=
  fun _ _ hs => ⟨x, hs, fun _ _ _ hs' => hs'⟩

/-- An action whose outcome is looked at. -/
theorem minds_outcome_bind {R : Result α → ρ → σ → Prop} {Q : Result β → ρ → σ → Prop}
    {a : Action σ α} {f : Result α → Action σ β} (ha : Minds c P a R)
    (hf : ∀ r, Minds c (R r) (f r) Q) : Minds c P (a.outcome >>= f) Q := by
  intro others s hs
  refine Routine.minds_bind (Routine.minds_bind ((ha others s hs).mono fun r others s hr => ?_))
  exact hf r others s hr

/-- An action and then another one in any case. -/
theorem minds_ensuring {R : Result α → ρ → σ → Prop} {a : Action σ α} {cleanup : Action σ Unit}
    (ha : Minds c P a R)
    (hCleanup : ∀ r, Minds c (R r) cleanup fun r' => Q (r'.bind fun _ => r)) :
    Minds c P (ensuring a cleanup) Q := by
  refine minds_outcome_bind ha fun r => ?_
  refine minds_bind (hCleanup r) (fun _ => ?_) fun e others s h => h
  exact minds_ofResult fun others s h => h

/-- An action whose failures are dropped ends in the same order. -/
theorem minds_quietly {R : ρ → σ → Prop} {a : Action σ Unit} (ha : Minds c P a fun _ => R) :
    Minds c P (quietly a) fun _ => R := by
  refine minds_outcome_bind ha fun r => ?_
  cases r with
  | ok x => exact minds_pure fun others s h => h
  | error f =>
    show Minds c _ (if f.isFailure = true then _ else _) _
    split
    · exact minds_pure fun others s h => h
    · exact minds_throw fun others s h => h

/-! ### Balance -/

/-- The action has as much in hand at its end as at its start. -/
def Balanced (c : Custody σ ρ) (a : Action σ α) : Prop :=
  ∀ x, Minds c (c.With x) a fun _ => c.With x

theorem balanced_pure {a : α} : Balanced c (pure a) :=
  fun _ => minds_pure fun _ _ hs => hs

theorem balanced_throw {f : Fault} : Balanced c (throw f : Action σ α) :=
  fun _ => minds_throw fun _ _ hs => hs

theorem balanced_ofResult {r : Result α} : Balanced c (ofResult r) :=
  fun _ => minds_ofResult fun _ _ hs => hs

theorem balanced_wait {on : Awaited} : Balanced c (wait on) :=
  fun _ => minds_wait

theorem Balanced.bind {a : Action σ α} {f : α → Action σ β} (ha : Balanced c a)
    (hf : ∀ x, Balanced c (f x)) : Balanced c (a >>= f) :=
  fun x => minds_bind (ha x) (fun y => hf y x) fun _ _ _ hs => hs

theorem Balanced.map {a : Action σ α} {f : α → β} (ha : Balanced c a) : Balanced c (f <$> a) :=
  fun x => minds_map (ha x) fun _ _ _ hs => hs

theorem Balanced.outcome_bind {a : Action σ α} {f : Result α → Action σ β} (ha : Balanced c a)
    (hf : ∀ r, Balanced c (f r)) : Balanced c (a.outcome >>= f) :=
  fun x => minds_outcome_bind (ha x) fun r => hf r x

theorem Balanced.ensuring {a : Action σ α} {cleanup : Action σ Unit} (ha : Balanced c a)
    (hCleanup : Balanced c cleanup) : Balanced c (ensuring a cleanup) :=
  fun x => minds_ensuring (ha x) fun _ => hCleanup x

theorem Balanced.quietly {a : Action σ Unit} (ha : Balanced c a) : Balanced c (quietly a) :=
  fun x => minds_quietly (ha x)

/-- The state may be looked at. -/
theorem balanced_state_bind {f : σ → Action σ β} (h : ∀ s, Balanced c (f s)) :
    Balanced c (state >>= f) :=
  fun x => minds_state_bind fun s => (h s x).mono (fun _ _ hs => hs.1) fun _ _ _ hs => hs

theorem balanced_change {f : σ → σ} (hGuar : ∀ s, c.guar s (f s))
    (hInv : ∀ x s, c.inv x s → c.inv x (f s)) : Balanced c (change f) :=
  fun _ => minds_change fun _ s hs => ⟨hGuar s, hInv _ s hs⟩

end Action

end

open SqlWeave.Action

section Store

variable {ρ α β : Type} [AddCommMonoid ρ] {c : Custody Store ρ} {P : ρ → Store → Prop}

theorem minds_onLive {Q : Result α → ρ → Store → Prop} {f : Live → α × Live}
    (h : ∀ others s, P others s → c.guar s { s with live := (f s.live).2 } ∧
      Q (.ok (f s.live).1) others { s with live := (f s.live).2 }) :
    Minds c P (onLive f) Q := h

/-- A call that leaves the custody in order once it is noted. -/
theorem minds_call {made : Call} {x : ρ}
    (hNote : ∀ others s, P others s → c.guar s (s.onLive (Live.note made)) ∧
      c.With x others (s.onLive (Live.note made))) :
    Minds c P (call made) fun _ => c.With x := by
  have hEnd : ∀ e : Encounter, Minds c (c.With x) (ofResult e.result) fun _ => c.With x :=
    fun e => minds_ofResult fun others s hs => hs
  refine minds_bind (R := fun _ => c.With x) (minds_onLive hNote) (fun e => ?_)
    fun e others s hs => hs
  show Minds c (c.With x) (if (!made.kind.isImmediate) = true then _ else _) _
  split
  · refine minds_bind minds_wait (fun _ => ?_) fun f others s hs => hs
    show Minds c (c.With x) (if e.hangs = true then _ else _) _
    split
    · exact minds_bind minds_wait (fun _ => hEnd e) fun f others s hs => hs
    · exact hEnd e
  · exact hEnd e

/-- A call that returns at once. -/
theorem minds_call_immediate {made : Call} {R : ρ → Store → Prop}
    (hImmediate : made.kind.isImmediate = true)
    (hNote : ∀ others s, P others s → c.guar s (s.onLive (Live.note made)) ∧
      R others (s.onLive (Live.note made))) : Minds c P (call made) fun _ => R := by
  refine minds_bind (R := fun _ => R) (minds_onLive hNote) (fun e => ?_) fun e others s hs => hs
  show Minds c R (if (!made.kind.isImmediate) = true then _ else _) _
  rw [hImmediate]
  exact minds_ofResult fun others s hs => hs

theorem balanced_onLive {f : Live → α × Live}
    (hGuar : ∀ s : Store, c.guar s { s with live := (f s.live).2 })
    (hInv : ∀ x (s : Store), c.inv x s → c.inv x { s with live := (f s.live).2 }) :
    Balanced c (onLive f) :=
  fun _ => minds_onLive fun _ s hs => ⟨hGuar s, hInv _ s hs⟩

theorem balanced_call {made : Call} (hGuar : ∀ s : Store, c.guar s (s.onLive (Live.note made)))
    (hInv : ∀ x (s : Store), c.inv x s → c.inv x (s.onLive (Live.note made))) :
    Balanced c (call made) :=
  fun _ => minds_call fun _ s hs => ⟨hGuar s, hInv _ s hs⟩

end Store

end SqlWeave
