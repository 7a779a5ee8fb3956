import SqlWeave.Store

/-!
# Contracts of routines

A routine runs alone from one wait to the next; while it waits, others run.  A contract
says what holds at each of its waits, what the others may do to the state meanwhile, and
how its waits can end.  `Routine.Keeps` follows a routine down its tree: at each wait the
state is as the contract says, whatever comes the routine goes on, and at its end the
state is as a postcondition says.

`Action.Meets` states this from a precondition on, with one rule for each way in which
actions are put together, so that an operation is specified once and used by its
specification.

## Main results

* `Routine.keeps_bind`: a routine after another one.
* `Action.meets_bind`, `Action.meets_ensuring`, `Action.meets_quietly`: the rules for
  actions that are put together.
* `meets_call`: the rule for calls to the world outside.
-/

namespace SqlWeave

/-- What a routine and those that run beside it owe each other. -/
structure Contract (σ : Type) where
  /-- Holds whenever the routine waits. -/
  rests : σ → Prop
  /-- What the others may do while it waits. -/
  rely : σ → σ → Prop
  /-- How its waits can end, by the state in which it goes on. -/
  comes : σ → Result Value → Prop

namespace Routine

variable {σ α β : Type} {c : Contract σ}

/-- The routine keeps its contract from a state on, waits for no goal, and ends in a state
with the postcondition. -/
def Keeps (c : Contract σ) (post : α → σ → Prop) : Routine σ α → σ → Prop
  | .done a, s => post a s
  | .step change next, s => (next s).Keeps c post (change s)
  | .wait on next, s =>
    (∀ goal, on ≠ .goal goal) ∧ c.rests s ∧
      ∀ s' r, c.rely s s' → c.comes s' r → (next r).Keeps c post s'

theorem Keeps.mono {post post' : α → σ → Prop} {routine : Routine σ α} {s : σ}
    (h : routine.Keeps c post s) (hPost : ∀ a s, post a s → post' a s) :
    routine.Keeps c post' s := by
  induction routine generalizing s with
  | done a => exact hPost a s h
  | step change next ih => exact ih s h
  | wait on next ih =>
    obtain ⟨hOn, hRests, hNext⟩ := h
    exact ⟨hOn, hRests, fun s' r hRely hComes => ih r (hNext s' r hRely hComes)⟩

/-- A routine after another one. -/
theorem keeps_bind {post : β → σ → Prop} {routine : Routine σ α} {f : α → Routine σ β} {s : σ}
    (h : routine.Keeps c (fun a s => (f a).Keeps c post s) s) :
    (routine.bind f).Keeps c post s := by
  induction routine generalizing s with
  | done a => exact h
  | step change next ih => exact ih s h
  | wait on next ih =>
    obtain ⟨hOn, hRests, hNext⟩ := h
    exact ⟨hOn, hRests, fun s' r hRely hComes => ih r (hNext s' r hRely hComes)⟩

end Routine

namespace Action

variable {σ α β : Type} {c : Contract σ} {P : σ → Prop} {Q : Result α → σ → Prop}

/-- From every state with the precondition, the action keeps its contract and ends in a
state with the postcondition for its outcome. -/
def Meets (c : Contract σ) (P : σ → Prop) (a : Action σ α) (Q : Result α → σ → Prop) : Prop :=
  ∀ s, P s → Routine.Keeps c Q a s

theorem Meets.mono {P' : σ → Prop} {Q' : Result α → σ → Prop} {a : Action σ α}
    (h : Meets c P a Q) (hPre : ∀ s, P' s → P s) (hPost : ∀ r s, Q r s → Q' r s) :
    Meets c P' a Q' :=
  fun s hs => (h s (hPre s hs)).mono hPost

theorem meets_pure {a : α} (h : ∀ s, P s → Q (.ok a) s) : Meets c P (pure a) Q := h

theorem meets_throw {f : Fault} (h : ∀ s, P s → Q (.error f) s) : Meets c P (throw f) Q := h

theorem meets_ofResult {r : Result α} (h : ∀ s, P s → Q r s) : Meets c P (ofResult r) Q := h

/-- An action after another one; a fault of the first one is the outcome. -/
theorem meets_bind {R : Result α → σ → Prop} {Q : Result β → σ → Prop} {a : Action σ α}
    {f : α → Action σ β} (ha : Meets c P a R) (hf : ∀ x, Meets c (R (.ok x)) (f x) Q)
    (hFault : ∀ e s, R (.error e) s → Q (.error e) s) : Meets c P (a >>= f) Q := by
  intro s hs
  refine Routine.keeps_bind ((ha s hs).mono fun r s hr => ?_)
  cases r with
  | ok x => exact hf x s hr
  | error e => exact hFault e s hr

/-- An action behind one whose result is known. -/
theorem meets_bind_of_ok {x : α} {R : σ → Prop} {Q : Result β → σ → Prop} {a : Action σ α}
    {f : α → Action σ β} (ha : Meets c P a fun r s => r = .ok x ∧ R s) (hf : Meets c R (f x) Q) :
    Meets c P (a >>= f) Q := by
  refine meets_bind ha (fun found => ?_) ?_
  · rintro s ⟨hEq, hs⟩
    cases hEq
    exact hf s hs
  · rintro e s ⟨hEq, -⟩
    cases hEq

/-- An action that fails, with nothing done behind it. -/
theorem meets_bind_of_error {e : Fault} {Q : Result β → σ → Prop} {a : Action σ α}
    {f : α → Action σ β} (ha : Meets c P a fun r s => r = .error e ∧ P s)
    (hQ : ∀ s, P s → Q (.error e) s) : Meets c P (a >>= f) Q := by
  refine meets_bind ha (fun x => ?_) ?_
  · rintro s ⟨hEq, -⟩
    cases hEq
  · rintro e' s ⟨hEq, hs⟩
    cases hEq
    exact hQ s hs

theorem meets_map {R : Result α → σ → Prop} {Q : Result β → σ → Prop} {a : Action σ α} {f : α → β}
    (ha : Meets c P a R) (h : ∀ r s, R r s → Q (r.map f) s) : Meets c P (f <$> a) Q := by
  intro s hs
  refine Routine.keeps_bind ((ha s hs).mono fun r s hr => ?_)
  cases r with
  | ok x => exact h (.ok x) s hr
  | error e => exact h (.error e) s hr

theorem meets_state_bind {Q : Result β → σ → Prop} {f : σ → Action σ β}
    (h : ∀ s, P s → (f s).Meets c (· = s) Q) : Meets c P (state >>= f) Q :=
  fun s hs => h s hs s rfl

theorem meets_change {f : σ → σ} {Q : Result Unit → σ → Prop} (h : ∀ s, P s → Q (.ok ()) (f s)) :
    Meets c P (change f) Q := h

theorem meets_change_bind {R : σ → Prop} {Q : Result β → σ → Prop} {f : σ → σ}
    {g : Unit → Action σ β} (h : ∀ s, P s → R (f s)) (hg : Meets c R (g ()) Q) :
    Meets c P (change f >>= g) Q :=
  fun s hs => hg (f s) (h s hs)

/-- A wait that is no goal. -/
theorem meets_wait {on : Awaited} {Q : Result Value → σ → Prop} (hOn : ∀ goal, on ≠ .goal goal)
    (hRests : ∀ s, P s → c.rests s)
    (h : ∀ s s' r, P s → c.rely s s' → c.comes s' r → Q r s') : Meets c P (wait on) Q :=
  fun s hs => ⟨hOn, hRests s hs, fun s' r hRely hComes => h s s' r hs hRely hComes⟩

/-- An action whose outcome is looked at. -/
theorem meets_outcome_bind {R : Result α → σ → Prop} {Q : Result β → σ → Prop} {a : Action σ α}
    {f : Result α → Action σ β} (ha : Meets c P a R) (hf : ∀ r, Meets c (R r) (f r) Q) :
    Meets c P (a.outcome >>= f) Q := by
  intro s hs
  refine Routine.keeps_bind (Routine.keeps_bind ((ha s hs).mono fun r s hr => ?_))
  exact hf r s hr

/-- An action and then another one in any case. -/
theorem meets_ensuring {R : Result α → σ → Prop} {a : Action σ α} {cleanup : Action σ Unit}
    (ha : Meets c P a R)
    (hCleanup : ∀ r, Meets c (R r) cleanup fun r' s => Q (r'.bind fun _ => r) s) :
    Meets c P (ensuring a cleanup) Q := by
  refine meets_outcome_bind ha fun r => ?_
  refine meets_bind (hCleanup r) (fun _ => ?_) fun e s h => h
  exact meets_ofResult fun s h => h

/-- An action whose failures are dropped. -/
theorem meets_quietly {R Q : Result Unit → σ → Prop} {a : Action σ Unit} (ha : Meets c P a R)
    (hOk : ∀ s, R (.ok ()) s → Q (.ok ()) s)
    (hFailure : ∀ f s, R (.error f) s → f.isFailure = true → Q (.ok ()) s)
    (hOther : ∀ f s, R (.error f) s → f.isFailure = false → Q (.error f) s) :
    Meets c P (quietly a) Q := by
  refine meets_outcome_bind ha fun r s hr => ?_
  cases r with
  | ok x => exact hOk s hr
  | error f =>
    cases hf : f.isFailure with
    | true =>
      simp only [hf, if_true]
      exact hFailure f s hr hf
    | false =>
      simp only [hf, Bool.false_eq_true, if_false]
      exact hOther f s hr hf

end Action

open SqlWeave.Action

/-- Nothing is waited for. -/
def unwaiting : Contract Store where
  rests := fun _ => False
  rely := fun _ _ => False
  comes := fun _ _ => False

section Store

variable {α β : Type} {c : Contract Store} {P : Store → Prop}

theorem meets_onLive {Q : Result α → Store → Prop} {f : Live → α × Live}
    (h : ∀ s, P s → Q (.ok (f s.live).1) { s with live := (f s.live).2 }) :
    Meets c P (onLive f) Q := h

theorem meets_onLive_bind {R : α → Store → Prop} {Q : Result β → Store → Prop}
    {f : Live → α × Live} {g : α → Action Store β}
    (h : ∀ s, P s → R (f s.live).1 { s with live := (f s.live).2 })
    (hg : ∀ x, Meets c (R x) (g x) Q) : Meets c P (onLive f >>= g) Q :=
  fun s hs => hg _ _ (h s hs)

theorem meets_onMemory {Q : Result α → Store → Prop}
    {f : MemoryBackend → Result α × MemoryBackend}
    (h : ∀ s, P s → Q (f s.memory).1 { s with memory := (f s.memory).2 }) :
    Meets c P (onMemory f) Q := h

/-- A call ends as it does on its own, or as one of its waits does if it waits at all. -/
theorem meets_call (P' : Store → Prop) {made : Call} {Q : Result Encounter → Store → Prop}
    (hNote : ∀ s, P s → P' (s.onLive (Live.note made)))
    (hRests : ∀ s, P' s → c.rests s) (hRely : ∀ s s', P' s → c.rely s s' → P' s')
    (hWait : ∀ f s, made.kind.isImmediate = false → P' s → c.comes s (.error f) → Q (.error f) s)
    (hPost : ∀ s s', P s → P' s' → Q (s.live.forecast.next made.kind).result s') :
    Meets c P (call made) Q := by
  let Noted (e : Encounter) (s' : Store) : Prop :=
    P' s' ∧ ∃ s, P s ∧ e = s.live.forecast.next made.kind
  have hEnd : ∀ e, Meets c (Noted e) (ofResult e.result) Q := by
    rintro e s' ⟨hs', s, hs, rfl⟩
    exact hPost s s' hs hs'
  have hAwait : made.kind.isImmediate = false → ∀ e on, (∀ goal, on ≠ .goal goal) →
      Meets c (Noted e) (Action.wait on) fun r s' =>
        match r with
        | .ok _ => Noted e s'
        | .error f => Q (.error f) s' := by
    intro hTime e on hOn
    refine meets_wait hOn (fun s' hs' => hRests s' hs'.1) fun s' s'' r hs' hStep hComes => ?_
    have hs'' : P' s'' := hRely s' s'' hs'.1 hStep
    cases r with
    | ok _ => exact ⟨hs'', hs'.2⟩
    | error f => exact hWait f s'' hTime hs'' hComes
  refine meets_onLive_bind (R := Noted) (fun s hs => ⟨hNote s hs, s, hs, rfl⟩) fun e => ?_
  show Meets c (Noted e) (if (!made.kind.isImmediate) = true then _ else _) Q
  split
  · rename_i hTime
    rw [Bool.not_eq_true'] at hTime
    refine meets_bind (hAwait hTime e .turn (fun _ => nofun)) (fun _ => ?_) fun f s' h => h
    show Meets c (Noted e) (if e.hangs = true then _ else _) Q
    split
    · exact meets_bind (hAwait hTime e .release (fun _ => nofun)) (fun _ => hEnd e)
        fun f s' h => h
    · exact hEnd e
  · exact hEnd e

end Store

end SqlWeave
