import SqlWeave.Proofs.Live.Interleaving

/-!
# Safety of the connection manager

Whatever the callers do, in whatever order things are done and whatever fails, the manager
carries out one transition at a time, goes round its phases, has a pool when it is connected
and nothing when it is disconnected, and closes every pool at most once and before the
tunnel that the pool stands over.

## Main results

* `Scheduler.Inv.isSafe`: what the invariant says about the manager.
* `Scheduler.manager_isSafe`: every reachable scheduler is safe, and every event moves its
  phase along the cycle if at all.
-/

namespace SqlWeave

open Manager Number

/-- A pool that was obtained and is not closed. -/
def Live.IsOpen (l : Live) (pool : Nat) : Prop :=
  (1 ≤ pool ∧ pool ≤ l.pools) ∧ pool ∉ closedPools l.log

namespace Scheduler

/-- A thread beside the callers that is not finished: a transition. -/
def InFlight (callers : List Nat) (s : Scheduler) (t : Nat) : Prop :=
  t ∉ callers ∧ t < s.threads.length ∧ s.report? t = none

/-- What the manager guarantees between two things that are done. -/
structure IsSafe (callers : List Nat) (s : Scheduler) : Prop where
  one_in_flight : ∀ t u, InFlight callers s t → InFlight callers s u → t = u
  pending_in_flight : ∀ t, s.store.live.manager.pending = some t ↔ InFlight callers s t
  pending_iff : s.store.live.manager.pending.isSome = true ↔
    s.store.live.manager.phase = .connecting ∨ s.store.live.manager.phase = .disconnecting
  pool_of_connected : s.store.live.manager.phase = .connected →
    ∃ pool, s.store.live.manager.pool = some pool
  nothing_of_disconnected : s.store.live.manager.phase = .disconnected →
    s.store.live.manager.pool = none ∧ s.store.live.manager.tunnel = none
  one_open : ∀ pool other, s.store.live.IsOpen pool → s.store.live.IsOpen other → pool = other
  closed_once : (closedPools s.store.live.log).Nodup
  /-- The pool that the manager holds stands over the tunnel that it holds. -/
  stands : ∀ pool tunnel, s.store.live.manager.pool = some pool →
    s.store.live.manager.tunnel = some tunnel → StandsOver s.store.live.log pool tunnel
  /-- If there is to be a tunnel, every pool that was obtained stands over one. -/
  tunneled : s.database.settings.tunnel.isEnabled = true → ∀ pool, 1 ≤ pool →
    pool ≤ s.store.live.pools → ∃ tunnel, StandsOver s.store.live.log pool tunnel
  closed_first : ∀ pool tunnel, StandsOver s.store.live.log pool tunnel →
    ∀ before c after, s.store.live.log = before ++ c :: after →
      c.tunnelClosed = some tunnel → pool ∈ closedPools before

variable {db : Database} {callers : List Nat} {s : Scheduler}

/-- The pending transition is what is in flight. -/
theorem Inv.pending_iff_inFlight (h : Inv db callers s) (t : Nat) :
    s.store.live.manager.pending = some t ↔ InFlight callers s t := by
  constructor
  · intro hPending
    obtain ⟨hCaller, -, status, hStatus, hKeeps⟩ := h.pending t hPending
    refine ⟨hCaller, (List.getElem?_eq_some_iff.mp hStatus).1, ?_⟩
    rw [report?, hStatus]
    cases status with
    | finished report => exact absurd hKeeps id
    | ready r go => rfl
    | hanging go => rfl
    | following u go => rfl
  · rintro ⟨hCaller, hLt, hReport⟩
    refine Classical.byContradiction fun hNot => ?_
    have hStatus : s.threads[t]? = some s.threads[t] := List.getElem?_eq_getElem hLt
    obtain ⟨report, hFinished⟩ := h.others_finished t _ hStatus hCaller hNot
    rw [report?, hStatus, hFinished] at hReport
    cases hReport

/-- What is pending, and what the phase is. -/
theorem Inv.pending_iff_phase (h : Inv db callers s) :
    s.store.live.manager.pending.isSome = true ↔
      s.store.live.manager.phase = .connecting ∨ s.store.live.manager.phase = .disconnecting := by
  cases hPending : s.store.live.manager.pending with
  | none =>
    refine ⟨nofun, fun hPhase => ?_⟩
    rcases h.settled hPending with ⟨hEq, -⟩ | ⟨hEq, -⟩ <;> simp [hEq] at hPhase
  | some t => exact ⟨fun _ => (h.pending t hPending).2.1, fun _ => rfl⟩

/-- In the two phases at rest nothing is pending, so that the manager is settled. -/
theorem Inv.settled_of_phase (h : Inv db callers s)
    (hPhase : s.store.live.manager.phase = .connected ∨
      s.store.live.manager.phase = .disconnected) : IsSettled s.store.live.manager := by
  apply h.settled
  cases hPending : s.store.live.manager.pending with
  | none => rfl
  | some t =>
    have hBusy := (h.pending t hPending).2.1
    rcases hPhase with hEq | hEq <;> simp [hEq] at hBusy

/-- What the invariant says about the manager. -/
theorem Inv.isSafe (h : Inv db callers s) : IsSafe callers s where
  one_in_flight := by
    intro t u ht hu
    have hPending := (h.pending_iff_inFlight t).mpr ht
    rw [(h.pending_iff_inFlight u).mpr hu, Option.some.injEq] at hPending
    exact hPending.symm
  pending_in_flight := h.pending_iff_inFlight
  pending_iff := h.pending_iff_phase
  pool_of_connected := by
    intro hPhase
    rcases h.settled_of_phase (.inl hPhase) with ⟨-, hPool⟩ | ⟨hOther, -⟩
    · exact hPool
    · rw [hPhase] at hOther
      cases hOther
  nothing_of_disconnected := by
    intro hPhase
    rcases h.settled_of_phase (.inr hPhase) with ⟨hOther, -⟩ | ⟨-, hNothing⟩
    · rw [hPhase] at hOther
      cases hOther
    · exact hNothing
  one_open := by
    rintro pool other ⟨⟨hPos, hLe⟩, hOpen⟩ ⟨⟨hPos', hLe'⟩, hOpen'⟩
    have hHeld := (h.books.open_held pool hPos hLe).resolve_left hOpen
    rw [(h.books.open_held other hPos' hLe').resolve_left hOpen', Option.some.injEq] at hHeld
    exact hHeld.symm
  closed_once := h.books.closed_once
  stands := h.books.stands
  tunneled := by
    intro hOn pool hPos hLe
    rw [h.database] at hOn
    exact h.books.tunneled hOn pool ((h.books.used_iff pool).mpr ⟨hPos, hLe⟩)
  closed_first := fun pool tunnel hStands before c after hSplit hClosed =>
    h.books.closed_before_tunnel hStands hSplit hClosed

/-- Every reachable scheduler is safe, and every event moves the phase along its cycle if at
all. -/
theorem manager_isSafe {forecast : Forecast} (hForecast : forecast.FailsOnly)
    (h : Reachable db forecast callers s) :
    IsSafe callers s ∧ ∀ callers' s', Event callers s callers' s' →
      s'.store.live.manager.phase = s.store.live.manager.phase ∨
        s.store.live.manager.phase.Leads s'.store.live.manager.phase := by
  have hInv := h.inv hForecast
  exact ⟨hInv.isSafe, fun callers' s' hEvent => (hInv.event hEvent).2⟩

/-- A database behind a tunnel. -/
def tunneledDatabase : Database where
  settings := {
    host := none
    port := 3306
    database := none
    user := none
    password := none
    connectionLimit := 5
    multipleStatements := false
    timezone := "Z"
    maxExecutionTime := 0
    groupConcatMaxLen := 0
    connectTimeout := Binary64.ofInt 10
    lazyConnect := false
    logLevel := none
    testMode := false
    environment := "test"
    queryConfig := {}
    tunnel := {
      ssh := ⟨some "gate", 22, none, none, none, none⟩
      forward := ⟨"localhost", 3306⟩
      server := ⟨"localhost", 0⟩
      client := [] } }
  backend := .live

/-- Two callers connect, one of them is cancelled, and the connecting goes on to its end. -/
theorem connected_isSafe :
    let start : Scheduler :=
      { database := tunneledDatabase, store := { live := { forecast := fun _ => [] } } }
    let called := ((((start.spawn (routineOf tunneledDatabase.connect)).2.spawn
      (routineOf tunneledDatabase.connect)).2.fire 0).cancel 0).fire 1
    let s := (((((((called.fire 0).fire 0).fire 0).fire 0).fire 0).fire 0).fire 0)
    s.store.live.manager.phase = .connected ∧ IsSafe [0, 1] s := by
  intro start called s
  have hCalled : Reachable tunneledDatabase (fun _ => []) [0, 1] called :=
    .event (.event (.event (.event (.event .start (.call (isCaller_connect rfl)))
      (.call (isCaller_connect rfl))) (.fire 0)) (.cancel (by decide))) (.fire 1)
  have hReachable : Reachable tunneledDatabase (fun _ => []) [0, 1] s :=
    .event (.event (.event (.event (.event (.event (.event hCalled (.fire 0)) (.fire 0)) (.fire 0))
      (.fire 0)) (.fire 0)) (.fire 0)) (.fire 0)
  have hForecast : Forecast.FailsOnly fun _ => [] := by
    intro kind e he
    cases he
  refine ⟨?_, (manager_isSafe hForecast hReachable).1⟩
  decide

end Scheduler

end SqlWeave
