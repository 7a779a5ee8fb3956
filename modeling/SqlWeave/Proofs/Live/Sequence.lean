import SqlWeave.Proofs.Live.Lifetime
import SqlWeave.Proofs.Live.Turns

/-!
# Calls on a transaction, one after another

A caller makes calls on one transaction and awaits each of them before the next one, while
others start whatever they like on other transactions and connections, and things are done in
any order.  A thread that carries out such a call keeps its contract, since nobody else touches
the transaction, and so every call of the sequence has its effect.

## Main results

* `Attending.meanwhile`: whatever happens meanwhile, the thread that carries out a call on a
  transaction keeps its contract.
* `Sequence.effects`: the calls of a sequence have their effects, one after another.
-/

namespace SqlWeave

open SqlWeave.Action

theorem isShared_attended (t : Nat) : (attended t).IsShared where
  refl := .refl t
  trans := fun _ _ _ h h' => h.trans h'
  rests := fun _ _ _ _ => trivial
  comes := fun _ _ => .rfl

/-! ## Effects one after another -/

/-- A call on a transaction that has ended: its outcome, and the calls on the connection. -/
structure Entry where
  call : TransactionCall
  outcome : Result Value
  made : List (Call × Encounter)

/-- The calls on the connection. -/
def madeIn (entries : List Entry) : List (Call × Encounter) :=
  entries.flatMap Entry.made

/-- Calls on a transaction have their effects, one after another. -/
inductive Effects (db : Database) (k : Nat) : Bool → List Entry → Bool → Prop
  | nil {isClosed : Bool} : Effects db k isClosed [] isClosed
  | cons {e : Entry} {entries : List Entry} {isClosed isClosed' isClosed'' : Bool}
      (h : Effect db k e.call isClosed e.outcome e.made isClosed')
      (hRest : Effects db k isClosed' entries isClosed'') :
      Effects db k isClosed (e :: entries) isClosed''

section

variable {db : Database} {k : Nat} {isClosed isClosed' isClosed'' : Bool} {e : Entry}
  {entries more : List Entry}

theorem madeIn_append (e : Entry) : madeIn (entries ++ [e]) = madeIn entries ++ e.made := by
  rw [madeIn, List.flatMap_append, List.flatMap_singleton]
  rfl

theorem Effects.snoc (h : Effects db k isClosed entries isClosed')
    (hEffect : Effect db k e.call isClosed' e.outcome e.made isClosed'') :
    Effects db k isClosed (entries ++ [e]) isClosed'' := by
  induction h with
  | nil => exact .cons hEffect .nil
  | cons hFirst _ ih => exact .cons hFirst (ih hEffect)

theorem Effects.split (h : Effects db k isClosed (entries ++ more) isClosed'') :
    ∃ isClosed', Effects db k isClosed entries isClosed' ∧
      Effects db k isClosed' more isClosed'' := by
  induction entries generalizing isClosed with
  | nil => exact ⟨isClosed, .nil, h⟩
  | cons e rest ih =>
    cases h with
    | cons hFirst hRest =>
      obtain ⟨isClosed', hBefore, hAfter⟩ := ih hRest
      exact ⟨isClosed', .cons hFirst hBefore, hAfter⟩

end

namespace Scheduler

variable {db : Database} {forecast : Forecast} {callers callers' : Callers} {s s' : Scheduler}
  {t u : Nat} {post : Report → Store → Prop}

/-! ## While a call waits -/

/-- What can happen while a thread carries out a call on a transaction: others start operations
that are not about it, any of the things in the queue is done, other callers are cancelled, or
what hangs is let go. -/
inductive Meanwhile (db : Database) (t u : Nat) (callers : Callers) (s : Scheduler) :
    Callers → Scheduler → Prop
  | refl : Meanwhile db t u callers s callers s
  | call {callers' : Callers} {s' : Scheduler} (h : Meanwhile db t u callers s callers' s')
      (o : Operation) (hOther : o.transaction ≠ some t) :
      Meanwhile db t u callers s (Function.update callers' s'.threads.length (some o))
        (s'.spawn (o.routine db)).2
  | fire {callers' : Callers} {s' : Scheduler} (h : Meanwhile db t u callers s callers' s')
      (i : Nat) : Meanwhile db t u callers s callers' (s'.fire i)
  | cancel {callers' : Callers} {s' : Scheduler} (h : Meanwhile db t u callers s callers' s')
      {v : Nat} (hCaller : (callers' v).isSome = true) (hNe : v ≠ u) :
      Meanwhile db t u callers s callers' (s'.cancel v)
  | release {callers' : Callers} {s' : Scheduler} (h : Meanwhile db t u callers s callers' s') :
      Meanwhile db t u callers s callers' s'.release

/-- No call on the transaction is in progress. -/
def IsIdle (callers : Callers) (t : Nat) (s : Scheduler) : Prop :=
  ∀ v, transactionOf callers v = some t → ∃ report, s.threads[v]? = some (.finished report)

/-- A thread carries out the only call on a transaction that is in progress. -/
structure Attending (db : Database) (callers : Callers) (t u : Nat) (post : Report → Store → Prop)
    (s : Scheduler) : Prop where
  governed : ∃ own, Governed db callers own s
  others : ∀ v, v ≠ u → transactionOf callers v = some t →
    ∃ report, s.threads[v]? = some (.finished report)
  attends : ∃ status, s.threads[u]? = some status ∧ status.Attends (attended t) post s.store

/-- A thread that is not about the transaction sets it aside. -/
theorem setsAside_of_step {own : Option Nat} {store store' : Store} (h : store.Step own store')
    (hNe : own ≠ some t) : store.SetsAside t store' :=
  ⟨h.calls, h.spares t (Ne.symm hNe)⟩

/-- One of the things in the queue is done. -/
theorem Attending.fire (h : Attending db callers t u post s)
    (hPost : ∀ report s s', post report s → s.SetsAside t s' → post report s') (i : Nat) :
    Attending db callers t u post (s.fire i) := by
  obtain ⟨own, hGoverned⟩ := h.governed
  obtain ⟨own', hGoverned', hFired⟩ := hGoverned.fire i
  obtain ⟨status, hStatus, hAttends⟩ := h.attends
  refine ⟨⟨own', hGoverned'⟩, fun v hNe hOf => ?_, ?_⟩
  · obtain ⟨report, hReport⟩ := h.others v hNe hOf
    exact ⟨report, report?_fire hReport i⟩
  · by_cases hRunner : s.runner i = some u
    · obtain ⟨status', hThreads, hAttends'⟩ :=
        fire_attends (isShared_attended t) hRunner hStatus hAttends
      have hLt := (List.getElem?_eq_some_iff.mp hStatus).1
      refine ⟨status', ?_, hAttends'⟩
      rw [hThreads]
      exact List.getElem?_set_self hLt
    · refine ⟨status, getElem?_fire hRunner hStatus hAttends.not_isFollowing, ?_⟩
      suffices hAside : s.store.SetsAside t (s.fire i).store from
        hAttends.of_rely (isShared_attended t) hAside fun report _ hs => hPost report _ _ hs hAside
      refine setsAside_of_step hFired.step fun hOwn => ?_
      obtain ⟨v, hRuns, hOf⟩ := Option.bind_eq_some_iff.mp hOwn
      obtain ⟨-, r, go, hReady⟩ := runner_eq_some.mp hRuns
      obtain ⟨report, hReport⟩ := h.others v (fun hEq => hRunner (hEq ▸ hRuns)) hOf
      rw [hReady] at hReport
      cases hReport

/-- Whatever happens meanwhile, a thread that carries out a call on a transaction keeps its
contract. -/
theorem Attending.meanwhile (h : Attending db callers t u post s) (hLive : db.backend = .live)
    (hPost : ∀ report s s', post report s → s.SetsAside t s' → post report s')
    (hMeanwhile : Meanwhile db t u callers s callers' s') :
    Attending db callers' t u post s' := by
  induction hMeanwhile with
  | refl => exact h
  | @call callers' s' _ o hOther ih =>
    obtain ⟨own, hGoverned⟩ := ih.governed
    obtain ⟨status, hStatus, hAttends⟩ := ih.attends
    refine ⟨hGoverned.call hLive o, fun v hNe hOf => ?_, status, ?_, hAttends⟩
    · by_cases hNew : v = s'.threads.length
      · rw [hNew, transactionOf, Function.update_self] at hOf
        exact absurd hOf hOther
      · rw [transactionOf, Function.update_of_ne hNew] at hOf
        obtain ⟨report, hReport⟩ := ih.others v hNe hOf
        have hLt := (List.getElem?_eq_some_iff.mp hReport).1
        exact ⟨report, (List.getElem?_append_left hLt).trans hReport⟩
    · have hLt := (List.getElem?_eq_some_iff.mp hStatus).1
      exact (List.getElem?_append_left hLt).trans hStatus
  | fire _ i ih => exact ih.fire hPost i
  | cancel _ hCaller hNe ih =>
    obtain ⟨own, hGoverned⟩ := ih.governed
    obtain ⟨status, hStatus, hAttends⟩ := ih.attends
    refine ⟨⟨own, hGoverned.cancel _⟩, fun v hOther hOf => ?_, status, ?_, ?_⟩
    · obtain ⟨report, hReport⟩ := ih.others v hOther hOf
      exact ⟨report, report?_cancel hReport _⟩
    · exact (getElem?_cancel hNe).trans hStatus
    · rw [store_cancel]
      exact hAttends
  | release _ ih =>
    obtain ⟨own, hGoverned⟩ := ih.governed
    obtain ⟨status, hStatus, hAttends⟩ := ih.attends
    refine ⟨⟨own, hGoverned.release⟩, fun v hOther hOf => ?_, ?_⟩
    · obtain ⟨report, hReport⟩ := ih.others v hOther hOf
      exact ⟨report, report?_release hReport⟩
    · rw [store_release]
      exact release_attends hStatus hAttends

/-- A call that is made while none is in progress. -/
theorem attending_call {c k : Nat} {isClosed : Bool} {made : List (Call × Encounter)}
    {own : Nat → Hand} (hLive : db.backend = .live) (hFails : forecast.FailsOnly)
    (hGoverned : Governed db callers own s) (hIdle : s.IsIdle callers t)
    (hStands : s.store.Stands forecast t c k isClosed isClosed made) (call : TransactionCall) :
    Attending db (Function.update callers s.threads.length (some (call.operation t))) t
      s.threads.length
      (fun report => Store.Affected db forecast t c k call isClosed made report.outcome)
      (s.spawn ((call.operation t).routine db)).2 := by
  refine ⟨hGoverned.call hLive _, fun v hNe hOf => ?_, _, List.getElem?_concat_length,
    trivial, rfl, fun s' hAside => ?_⟩
  · rw [transactionOf, Function.update_of_ne hNe] at hOf
    obtain ⟨report, hReport⟩ := hIdle v hOf
    have hLt := (List.getElem?_eq_some_iff.mp hReport).1
    exact ⟨report, (List.getElem?_append_left hLt).trans hReport⟩
  · have hMeets := call.meets hFails hLive isClosed s' (hStands.of_spares hAside)
    exact Routine.keeps_bind (hMeets.mono fun _ _ hs => hs)

/-! ## Sequences of calls -/

theorem affected_of_setsAside {c k : Nat} {call : TransactionCall} {wasClosed : Bool}
    {made : List (Call × Encounter)} {r : Result Value} {store store' : Store}
    (h : store.Affected db forecast t c k call wasClosed made r)
    (hAside : store.SetsAside t store') :
    store'.Affected db forecast t c k call wasClosed made r := by
  obtain ⟨more, isClosed, hEffect, hStands⟩ := h
  exact ⟨more, isClosed, hEffect, hStands.of_spares hAside⟩

/-- Calls on a transaction that were made one after another, each in a thread of its own that was
awaited before the next one, and the calls on a connection that were made meanwhile. -/
inductive Sequence (db : Database) (forecast : Forecast) (t k : Nat) (callers : Callers)
    (s : Scheduler) : List Entry → Callers → Scheduler → Prop
  | nil : Sequence db forecast t k callers s [] callers s
  | call {entries : List Entry} {callers' callers'' : Callers} {s' s'' : Scheduler}
      {call : TransactionCall} {report : Report} {made : List (Call × Encounter)}
      (h : Sequence db forecast t k callers s entries callers' s')
      (hMeanwhile : Meanwhile db t s'.threads.length
        (Function.update callers' s'.threads.length (some (call.operation t)))
        (s'.spawn ((call.operation t).routine db)).2 callers'' s'')
      (hReport : s''.threads[s'.threads.length]? = some (.finished report))
      (hMade : madeOn k forecast s''.store.live.log =
        madeOn k forecast s'.store.live.log ++ made) :
      Sequence db forecast t k callers s (entries ++ [⟨call, report.outcome, made⟩]) callers'' s''

/-- The calls of a sequence have their effects, one after another. -/
theorem Sequence.effects {c k : Nat} {isClosed : Bool} {made : List (Call × Encounter)}
    {own : Nat → Hand} {entries : List Entry} (hLive : db.backend = .live)
    (hFails : forecast.FailsOnly) (hGoverned : Governed db callers own s)
    (hIdle : s.IsIdle callers t)
    (hStands : s.store.Stands forecast t c k isClosed isClosed made)
    (h : Sequence db forecast t k callers s entries callers' s') :
    (∃ own', Governed db callers' own' s') ∧ s'.IsIdle callers' t ∧
      ∃ isClosed', Effects db k isClosed entries isClosed' ∧
        s'.store.Stands forecast t c k isClosed' isClosed' (made ++ madeIn entries) := by
  induction h with
  | nil => exact ⟨⟨own, hGoverned⟩, hIdle, isClosed, .nil, (List.append_nil _).symm ▸ hStands⟩
  | @call entries callers' callers'' s' s'' call report more _ hMeanwhile hReport hMade ih =>
    obtain ⟨⟨own', hGoverned'⟩, hIdle', isClosed', hEffects, hStands'⟩ := ih
    have hStart := attending_call hLive hFails hGoverned' hIdle' hStands' call
    have hEnd := hStart.meanwhile hLive
      (fun _ _ _ => affected_of_setsAside) hMeanwhile
    obtain ⟨status, hStatus, hAttends⟩ := hEnd.attends
    rw [hReport] at hStatus
    cases hStatus
    obtain ⟨more', isClosed'', hEffect, hStands''⟩ := hAttends
    obtain rfl : more' = more := by
      rw [hStands''.made_eq, hStands'.made_eq] at hMade
      exact List.append_cancel_left hMade
    refine ⟨hEnd.governed, fun v hOf => ?_, isClosed'', hEffects.snoc hEffect, ?_⟩
    · by_cases hSame : v = s'.threads.length
      · exact ⟨report, hSame ▸ hReport⟩
      · exact hEnd.others v hSame hOf
    · rw [madeIn_append, ← List.append_assoc]
      exact hStands''

end Scheduler

end SqlWeave
