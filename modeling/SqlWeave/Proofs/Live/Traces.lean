import SqlWeave.Proofs.Live.Clients

/-!
# Traces of routines

A routine that makes calls is followed together with the calls that it made itself and what
these met, apart from the calls that others make while it waits.  `Routine.Traces` follows a
routine down its tree: whatever the others do at its waits, it ends with a trace, a result and
a store as a postcondition says.

`Told` and `Fares` are the assertions that operations are specified with: the trace up to here
has a certain first fault, and the result is that of the calls.

## Main results

* `Routine.traces_bind`: a routine after another one.
* `Action.traces_bind`, `Action.traces_ensuring`, `Action.traces_quietly`: the rules for
  actions that are put together.
* `traces_call`, `traces_handBack`: the rules for calls to the world outside.
-/

namespace SqlWeave

/-- Calls with what they met, in order. -/
abbrev Trace : Type :=
  List (Call × Encounter)

/-- The fault of the first call that failed. -/
def Trace.firstFault? (made : Trace) : Option Fault :=
  made.findSome? fun m => m.2.fault

/-- What fails fails with an exception, and every connection can be handed back. -/
def Trace.IsFair (made : Trace) : Prop :=
  ∀ m ∈ made, ∀ f, m.2.fault = some f → f.isFailure = true ∧ m.1.kind ≠ .release

instance : DecidablePred Trace.IsFair := fun made =>
  inferInstanceAs (Decidable (∀ m ∈ made, ∀ f ∈ m.2.fault, f.isFailure = true ∧ m.1.kind ≠ .release))

namespace Trace

variable {made more : Trace}

theorem firstFault?_append (made more : Trace) :
    firstFault? (made ++ more) = (firstFault? made).or (firstFault? more) :=
  List.findSome?_append

theorem firstFault?_concat (made : Trace) (call : Call) (e : Encounter) :
    firstFault? (made ++ [(call, e)]) = (firstFault? made).or e.fault := by
  rw [firstFault?_append]
  congr 1
  cases hFault : e.fault <;> simp [firstFault?, hFault]

theorem IsFair.of_append (h : IsFair (made ++ more)) : IsFair made :=
  fun m hMem => h m (List.mem_append_left more hMem)

theorem IsFair.last {call : Call} {e : Encounter} (h : IsFair (made ++ [(call, e)])) {f : Fault}
    (hFault : e.fault = some f) : f.isFailure = true ∧ call.kind ≠ .release :=
  h (call, e) (by simp) f hFault

end Trace

/-- Every transaction has its checkout. -/
def Store.HasCheckouts (s : Store) : Prop :=
  ∀ (t : Nat) (transaction : Transaction), s.transactions[t]? = some transaction →
    ∃ checkout, s.live.checkouts[transaction.connection]? = some checkout

/-- What may come of a store while a routine waits. -/
structure Store.Elapses (s s' : Store) : Prop where
  persists : s.Persists s'
  checkouts : s.HasCheckouts → s'.HasCheckouts

theorem Store.Elapses.refl (s : Store) : s.Elapses s :=
  ⟨.refl s, id⟩

theorem Store.Elapses.trans {s s' s'' : Store} (h : s.Elapses s') (h' : s'.Elapses s'') :
    s.Elapses s'' :=
  ⟨h.persists.trans _ _ _ h'.persists, fun hCheckouts => h'.checkouts (h.checkouts hCheckouts)⟩

/-- How a wait ends that is not cancelled. -/
def Awaited.Gives : Awaited → Result Value → Prop
  | goal _, _ => True
  | _, r => r = .ok .null

namespace Routine

variable {α β : Type}

/-- From a trace and a store on, the routine ends with the postcondition, whatever the others do
while it waits. -/
def Traces (post : Trace → α → Store → Prop) : Routine Store α → Trace → Store → Prop
  | .done a, made, s => post made a s
  | .step change next, made, s =>
    ∃ calls, (change s).live.log = s.live.log ++ calls ∧
      (change s).live.forecast = s.live.forecast.after calls ∧
      (next s).Traces post (made ++ s.live.forecast.encounters calls) (change s)
  | .wait on next, made, s =>
    ∀ s' r, s.Elapses s' → on.Gives r → (next r).Traces post made s'

theorem Traces.mono {post post' : Trace → α → Store → Prop} {routine : Routine Store α}
    {made : Trace} {s : Store} (h : routine.Traces post made s)
    (hPost : ∀ made a s, post made a s → post' made a s) : routine.Traces post' made s := by
  induction routine generalizing made s with
  | done a => exact hPost made a s h
  | step change next ih =>
    obtain ⟨calls, hLog, hForecast, hNext⟩ := h
    exact ⟨calls, hLog, hForecast, ih s hNext⟩
  | wait on next ih => exact fun s' r hElapses hGives => ih r (h s' r hElapses hGives)

/-- A routine after another one. -/
theorem traces_bind {post : Trace → β → Store → Prop} {routine : Routine Store α}
    {f : α → Routine Store β} {made : Trace} {s : Store}
    (h : routine.Traces (fun made a s => (f a).Traces post made s) made s) :
    (routine.bind f).Traces post made s := by
  induction routine generalizing made s with
  | done a => exact h
  | step change next ih =>
    obtain ⟨calls, hLog, hForecast, hNext⟩ := h
    exact ⟨calls, hLog, hForecast, ih s hNext⟩
  | wait on next ih => exact fun s' r hElapses hGives => ih r (h s' r hElapses hGives)

end Routine

namespace Action

variable {α β : Type} {P : Trace → Store → Prop} {Q : Trace → Result α → Store → Prop}

/-- From every trace and store with the precondition, the action ends with the postcondition. -/
def Traces (P : Trace → Store → Prop) (a : Action Store α)
    (Q : Trace → Result α → Store → Prop) : Prop :=
  ∀ made s, P made s → Routine.Traces Q a made s

theorem Traces.mono {P' : Trace → Store → Prop} {Q' : Trace → Result α → Store → Prop}
    {a : Action Store α} (h : Traces P a Q) (hPre : ∀ made s, P' made s → P made s)
    (hPost : ∀ made r s, Q made r s → Q' made r s) : Traces P' a Q' :=
  fun made s hs => (h made s (hPre made s hs)).mono hPost

theorem traces_pure {a : α} (h : ∀ made s, P made s → Q made (.ok a) s) : Traces P (pure a) Q := h

theorem traces_throw {f : Fault} (h : ∀ made s, P made s → Q made (.error f) s) :
    Traces P (throw f) Q := h

theorem traces_ofResult {r : Result α} (h : ∀ made s, P made s → Q made r s) :
    Traces P (ofResult r) Q := h

/-- An action after another one; a fault of the first one is the outcome. -/
theorem traces_bind {R : Trace → Result α → Store → Prop} {Q : Trace → Result β → Store → Prop}
    {a : Action Store α} {f : α → Action Store β} (ha : Traces P a R)
    (hf : ∀ x, Traces (fun made s => R made (.ok x) s) (f x) Q)
    (hFault : ∀ e made s, R made (.error e) s → Q made (.error e) s) :
    Traces P (a >>= f) Q := by
  intro made s hs
  refine Routine.traces_bind ((ha made s hs).mono fun made r s hr => ?_)
  cases r with
  | ok x => exact hf x made s hr
  | error e => exact hFault e made s hr

/-- A step in which no call is made. -/
theorem traces_silent {f : Store → Result α × Store}
    (hLog : ∀ s, (f s).2.live.log = s.live.log)
    (hForecast : ∀ s, (f s).2.live.forecast = s.live.forecast)
    (h : ∀ made s, P made s → Q made (f s).1 (f s).2) : Traces P (stateful f) Q := by
  intro made s hs
  refine ⟨[], (hLog s).trans (List.append_nil _).symm, hForecast s, ?_⟩
  rw [Forecast.encounters, List.append_nil]
  exact h made s hs

theorem traces_change_bind {R : Trace → Store → Prop} {Q : Trace → Result β → Store → Prop}
    {f : Store → Store} {g : Unit → Action Store β} (hLog : ∀ s, (f s).live.log = s.live.log)
    (hForecast : ∀ s, (f s).live.forecast = s.live.forecast)
    (h : ∀ made s, P made s → R made (f s)) (hg : Traces R (g ()) Q) :
    Traces P (change f >>= g) Q := by
  intro made s hs
  refine ⟨[], (hLog s).trans (List.append_nil _).symm, hForecast s, ?_⟩
  rw [Forecast.encounters, List.append_nil]
  exact hg made (f s) (h made s hs)

theorem traces_state_bind {Q : Trace → Result β → Store → Prop} {f : Store → Action Store β}
    (h : ∀ s, (f s).Traces (fun made s' => P made s' ∧ s' = s) Q) :
    Traces P (state >>= f) Q := by
  intro made s hs
  refine ⟨[], (List.append_nil _).symm, rfl, ?_⟩
  rw [Forecast.encounters, List.append_nil]
  exact h s made s ⟨hs, rfl⟩

theorem traces_wait {on : Awaited} {Q : Trace → Result Value → Store → Prop}
    (h : ∀ made s s' r, P made s → s.Elapses s' → on.Gives r → Q made r s') :
    Traces P (wait on) Q :=
  fun made s hs s' r hElapses hGives => h made s s' r hs hElapses hGives

/-- An action whose outcome is looked at. -/
theorem traces_outcome_bind {R : Trace → Result α → Store → Prop}
    {Q : Trace → Result β → Store → Prop} {a : Action Store α} {f : Result α → Action Store β}
    (ha : Traces P a R) (hf : ∀ r, Traces (fun made s => R made r s) (f r) Q) :
    Traces P (a.outcome >>= f) Q := by
  intro made s hs
  refine Routine.traces_bind (Routine.traces_bind ((ha made s hs).mono fun made r s hr => ?_))
  exact hf r made s hr

/-- An action and then another one in any case. -/
theorem traces_ensuring {R : Trace → Result α → Store → Prop} {a : Action Store α}
    {cleanup : Action Store Unit} (ha : Traces P a R)
    (hCleanup : ∀ r, Traces (fun made s => R made r s) cleanup fun made r' s =>
      Q made (r'.bind fun _ => r) s) : Traces P (ensuring a cleanup) Q := by
  refine traces_outcome_bind ha fun r => ?_
  refine traces_bind (hCleanup r) (fun _ => ?_) fun e made s h => h
  exact traces_ofResult fun made s h => h

end Action

open SqlWeave.Action

/-! ## Assertions -/

section

variable {α β : Type} {T T' : Store → Prop} {G G' : Option Fault → Prop} {x : Option Fault}

/-- What holds of a store whatever is done. -/
def Store.Lasts (T : Store → Prop) : Prop :=
  ∀ s s' : Store, s.Persists s' → T s → T s'

/-- Something holds of the store and, if the calls were fair, of the first fault up to here. -/
def Told (T : Store → Prop) (G : Option Fault → Prop) (made : Trace) (s : Store) : Prop :=
  T s ∧ (made.IsFair → G made.firstFault?)

/-- What the result of a call says about the first fault, if that was `x` before. -/
def CallFate (x : Option Fault) : Result α → Option Fault → Prop
  | .ok _, y => y = x
  | .error f, y => f.isFailure = true ∧ y = x.or (some f)

/-- What a result says about the first fault, if that was `x` before: it is the result of a call,
unless there is no connection. -/
def Fate (x : Option Fault) : Result α → Option Fault → Prop
  | .ok _, y => y = x
  | .error f, y =>
    f.isFailure = true ∧ (y = x.or (some f) ∨ f.isConnection = true ∧ y = x)

/-- The result is that of the calls that were made. -/
def Fares (T : Store → Prop) (x : Option Fault) (made : Trace) (r : Result α) (s : Store) : Prop :=
  Told T (Fate x r) made s

/-- Nothing failed. -/
def Succeeds (T : Store → Prop) (G : Option Fault → Prop) (made : Trace) (r : Result Unit)
    (s : Store) : Prop :=
  Told T G made s ∧ (made.IsFair → r = .ok ())

theorem Told.mono {made : Trace} {s : Store} (h : Told T G made s) (hT : ∀ s, T s → T' s)
    (hG : ∀ y, G y → G' y) : Told T' G' made s :=
  ⟨hT s h.1, fun hFair => hG _ (h.2 hFair)⟩

/-- Calls that are not fair can have any result. -/
theorem Succeeds.of_error {made : Trace} {f : Fault} {s : Store}
    (h : Succeeds T G made (.error f) s) : Told T G' made s := by
  refine ⟨h.1.1, fun hFair => ?_⟩
  cases h.2 hFair

theorem CallFate.fate {r : Result α} {y : Option Fault} (h : CallFate x r y) : Fate x r y := by
  cases r with
  | ok a => exact h
  | error f => exact ⟨h.1, .inl h.2⟩

/-- A first fault stays the first one. -/
theorem Fate.of_some {f : Fault} {r : Result α} {y : Option Fault} (h : Fate (some f) r y) :
    y = some f := by
  cases r with
  | ok a => exact h
  | error e =>
    rcases h.2 with hFirst | ⟨-, hSame⟩
    · exact hFirst
    · exact hSame

theorem Fares.of_error {made : Trace} {f : Fault} {s : Store}
    (h : Fares T x made (.error f : Result α) s) : Fares T x made (.error f : Result β) s := h

theorem fares_of_callFate {P : Trace → Store → Prop} {a : Action Store α}
    (ha : Traces P a fun made r => Told T (CallFate x r) made) : Traces P a (Fares T x) :=
  ha.mono (fun _ _ hs => hs) fun _ _ _ hs => hs.mono (fun _ h => h) fun _ hy => hy.fate

/-- Actions one after another. -/
theorem traces_fares_bind {P : Trace → Store → Prop} {a : Action Store α}
    {f : α → Action Store β} (ha : Traces P a (Fares T x))
    (hf : ∀ y, Traces (Told T (· = x)) (f y) (Fares T x)) : Traces P (a >>= f) (Fares T x) :=
  traces_bind ha hf fun _ _ _ h => h.of_error

/-- An action whose failures are dropped, behind a first fault. -/
theorem traces_quietly {P : Trace → Store → Prop} {a : Action Store Unit} {f : Fault}
    (ha : Traces P a (Fares T (some f))) :
    Traces P (quietly a) (Succeeds T (· = some f)) := by
  refine traces_outcome_bind ha fun r => ?_
  have hTold : ∀ made s, Fares T (some f) made r s → Told T (· = some f) made s :=
    fun made s hs => hs.mono (fun _ h => h) fun _ h => h.of_some
  cases r with
  | ok u => exact traces_pure fun made s hs => ⟨hTold made s hs, fun _ => rfl⟩
  | error e =>
    show Traces _ (if e.isFailure = true then _ else _) _
    split
    · exact traces_pure fun made s hs => ⟨hTold made s hs, fun _ => rfl⟩
    · rename_i hOther
      refine traces_throw fun made s hs => ⟨hTold made s hs, fun hFair => ?_⟩
      exact absurd (hs.2 hFair).1 hOther

/-! ## Calls -/

variable (hT : Store.Lasts T)

include hT

/-- A call is put down with what it met, which gives the result. -/
theorem traces_call (made : Call) :
    Traces (Told T G) (call made) fun trace r s =>
      T s ∧ ∃ (before : Trace) (e : Encounter), trace = before ++ [(made, e)] ∧ r = e.result ∧
        (before.IsFair → G before.firstFault?) := by
  let Noted (e : Encounter) (trace : Trace) (s : Store) : Prop :=
    T s ∧ ∃ before : Trace, trace = before ++ [(made, e)] ∧ (before.IsFair → G before.firstFault?)
  have hEnd : ∀ e, Traces (Noted e) (ofResult e.result) fun trace r s =>
      T s ∧ ∃ (before : Trace) (e : Encounter), trace = before ++ [(made, e)] ∧ r = e.result ∧
        (before.IsFair → G before.firstFault?) := by
    intro e
    refine traces_ofResult ?_
    rintro trace s ⟨hs, before, hTrace, hBefore⟩
    exact ⟨hs, before, e, hTrace, rfl, hBefore⟩
  have hWait : ∀ e on, (∀ r, on.Gives r → r = .ok .null) →
      Traces (Noted e) (Action.wait on) fun trace r s => r = .ok .null ∧ Noted e trace s := by
    intro e on hOn
    refine traces_wait fun trace s s' r hs hElapses hGives => ⟨hOn r hGives, ?_, hs.2⟩
    exact hT s s' hElapses.persists hs.1
  have hNote : Traces (Told T G) (onLive fun l => (l.forecast.next made.kind, l.note made))
      fun trace r s => ∃ e, r = .ok e ∧ Noted e trace s := by
    intro trace s hs
    refine ⟨[made], rfl, rfl, _, rfl, ?_, trace, rfl, hs.2⟩
    exact hT s _ ⟨Live.extends_note s.live made, .refl Checkout.Persists.refl _,
      .refl Transaction.Persists.refl _⟩ hs.1
  refine traces_bind hNote (fun e => ?_) ?_
  · show Traces _ (if (!made.kind.isImmediate) = true then _ else _) _
    have hStart : ∀ trace s, (∃ e', (.ok e : Result Encounter) = .ok e' ∧ Noted e' trace s) →
        Noted e trace s := by
      rintro trace s ⟨_, hEq, hs⟩
      cases hEq
      exact hs
    split
    · refine (traces_bind (hWait e .turn fun r h => h) (fun _ => ?_) ?_).mono hStart fun _ _ _ h => h
      · show Traces _ (if e.hangs = true then _ else _) _
        split
        · refine traces_bind ((hWait e .release fun r h => h).mono (fun _ _ hs => hs.2)
            fun _ _ _ h => h) (fun _ => ?_) ?_
          · exact (hEnd e).mono (fun _ _ hs => hs.2) fun _ _ _ h => h
          · rintro f trace s ⟨hEq, -⟩
            cases hEq
        · exact (hEnd e).mono (fun _ _ hs => hs.2) fun _ _ _ h => h
      · rintro f trace s ⟨hEq, -⟩
        cases hEq
    · exact (hEnd e).mono hStart fun _ _ _ h => h
  · rintro f trace s ⟨e, hEq, -⟩
    cases hEq

/-- The result of a call says what the first fault is. -/
theorem traces_callFate (made : Call) :
    Traces (Told T (· = x)) (call made) fun trace r => Told T (CallFate x r) trace := by
  refine (traces_call hT made).mono (fun _ _ hs => hs) ?_
  rintro _ r s ⟨hs, before, e, rfl, rfl, hBefore⟩
  refine ⟨hs, fun hFair => ?_⟩
  rw [Trace.firstFault?_concat, hBefore hFair.of_append]
  cases hFault : e.fault with
  | none =>
    rw [Encounter.result_eq_ok.mpr ⟨hFault, rfl⟩]
    exact Option.or_none
  | some f =>
    rw [Encounter.result_eq_error.mpr hFault]
    exact ⟨(hFair.last hFault).1, rfl⟩

/-- A call, of whose outcome something is made. -/
theorem traces_callThen (made : Call) (g : Encounter → α) :
    Traces (Told T (· = x)) (do return g (← call made)) fun trace r =>
      Told T (CallFate x r) trace :=
  traces_bind (traces_callFate hT made) (fun _ => traces_pure fun _ _ hs => hs) fun _ _ _ hs => hs

/-- A connection is handed back. -/
theorem traces_handBack (connection : Nat) :
    Traces (Told T G) (Manager.handBack connection) (Succeeds T G) := by
  refine traces_bind (traces_call hT (.release connection)) (fun e => traces_pure ?_) ?_
  · rintro trace s ⟨hs, before, e', rfl, hEq, hBefore⟩
    refine ⟨⟨hs, fun hFair => ?_⟩, fun _ => rfl⟩
    rw [Trace.firstFault?_concat, (Encounter.result_eq_ok.mp hEq.symm).1, Option.or_none]
    exact hBefore hFair.of_append
  · rintro f trace s ⟨hs, before, e', rfl, hEq, -⟩
    have hFault := Encounter.result_eq_error.mp hEq.symm
    have hNone : ¬ Trace.IsFair (before ++ [(.release connection, e')]) :=
      fun hFair => (hFair.last hFault).2 rfl
    exact ⟨⟨hs, fun hFair => absurd hFair hNone⟩, fun hFair => absurd hFair hNone⟩

end

end SqlWeave
