import Mathlib.Logic.Function.Iterate
import SqlWeave.Proofs.Live.Safety

/-!
# Interrupted transitions

Beside the callers the pending transition may be cancelled as well, at any point at which it
waits.  It then takes down what it has set up, or goes on to the end of its taking down, and
leaves a manager that is settled.  The exceptions are the points at which it waits for something
to be closed and has more to do behind that: `Live.IsPerilous`.

## Main results

* `Inv.interrupt`: cancelling a transition where that does no harm preserves the invariant.
* `Scheduler.interrupted_isClean`: whatever is cancelled there and whatever fails, a manager at
  rest is connected, or holds nothing and has closed all that it obtained.
* `Scheduler.interrupted_not_isClean`: a transition that is cancelled where it does harm leaves a
  manager that goes on connecting, or a tunnel that is not closed.
-/

namespace SqlWeave

open Manager

/-- A manager at rest is connected, or it is disconnected, holds nothing and has closed every
pool and tunnel that it obtained. -/
structure Live.IsClean (l : Live) : Prop where
  phase : l.manager.phase = .connected ∨ l.manager.phase = .disconnected
  nothing_held : l.manager.phase = .disconnected → l.manager.pool = none ∧ l.manager.tunnel = none
  pools_closed : l.manager.phase = .disconnected → ∀ pool, 1 ≤ pool → pool ≤ l.pools →
    .poolClose pool ∈ l.log
  tunnels_closed : l.manager.phase = .disconnected → ∀ tunnel, Carries l.log tunnel →
    .listenerClose tunnel ∈ l.log

/-- Calls close the pools that a log closes. -/
theorem mem_closedPools {log : List Call} {pool : Nat} :
    pool ∈ closedPools log ↔ .poolClose pool ∈ log := by
  rw [closedPools, List.mem_filterMap]
  constructor
  · rintro ⟨c, hMem, hClosed⟩
    cases c <;> cases hClosed
    exact hMem
  · exact fun hMem => ⟨_, hMem, rfl⟩

/-- A settled manager whose books are kept is clean. -/
theorem Live.Books.isClean {db : Database} {l : Live} (h : l.Books db)
    (hSettled : IsSettled l.manager) : l.IsClean := by
  have hNothing : l.manager.phase = .disconnected →
      l.manager.pool = none ∧ l.manager.tunnel = none := by
    intro hPhase
    rcases hSettled with ⟨hOther, -⟩ | ⟨-, hNothing⟩
    · rw [hPhase] at hOther
      cases hOther
    · exact hNothing
  refine ⟨hSettled.imp And.left And.left, hNothing, fun hPhase pool hPos hLe => ?_,
    fun hPhase tunnel hCarries => ?_⟩
  · refine mem_closedPools.mp ((h.open_held pool hPos hLe).resolve_right fun hHeld => ?_)
    rw [(hNothing hPhase).1] at hHeld
    cases hHeld
  · refine (h.carries_held tunnel hCarries).resolve_left fun hHeld => ?_
    rw [(hNothing hPhase).2] at hHeld
    cases hHeld

namespace Scheduler

/-- The thread waits somewhere in its routine. -/
def WaitsInside (s : Scheduler) (t : Nat) : Prop :=
  ∃ status, s.threads[t]? = some status ∧
    match status with
    | .ready _ go => ¬ go.IsStarting
    | .hanging _ | .following .. => True
    | .finished _ => False

/-- Something that can happen if the pending transition too may be cancelled where it waits, in
some states. -/
inductive Incident (mayInterrupt : Live → Prop) :
    List Nat → Scheduler → List Nat → Scheduler → Prop
  | event {callers callers' : List Nat} {s s' : Scheduler} (h : Event callers s callers' s') :
      Incident mayInterrupt callers s callers' s'
  | interrupt {callers : List Nat} {s : Scheduler} {t : Nat}
      (hPending : s.store.live.manager.pending = some t) (hWaits : s.WaitsInside t)
      (h : mayInterrupt s.store.live) : Incident mayInterrupt callers s callers (s.cancel t)

/-- The schedulers that come out of any incidents, with the callers that were started. -/
inductive Interrupted (mayInterrupt : Live → Prop) (db : Database) (forecast : Forecast) :
    List Nat → Scheduler → Prop
  | start : Interrupted mayInterrupt db forecast []
      { database := db, store := { live := { forecast } } }
  | incident {callers callers' : List Nat} {s s' : Scheduler}
      (h : Interrupted mayInterrupt db forecast callers s)
      (hIncident : Incident mayInterrupt callers s callers' s') :
      Interrupted mayInterrupt db forecast callers' s'

variable {db : Database} {forecast : Forecast} {callers : List Nat} {s : Scheduler}

/-- The pending transition is cancelled where that does no harm. -/
theorem Inv.interrupt (h : Inv db callers s) {t : Nat}
    (hPending : s.store.live.manager.pending = some t) (hWaits : s.WaitsInside t)
    (hHarmless : ¬ s.store.live.IsPerilous) : Inv db callers (s.cancel t) := by
  obtain ⟨-, -, status, hStatus, hTransition⟩ := h.pending t hPending
  obtain ⟨other, hOther, hInside⟩ := hWaits
  obtain rfl : status = other := Option.some.inj (hStatus.symm.trans hOther)
  have hMay : ∀ {next},
      KeepsTransition db t s.store.live.manager.phase s.store next →
        MaySet db callers s t (.ready (.error .cancelled) (.go next)) :=
    fun hKeeps => .inr ⟨hPending, hKeeps _ (.inr ⟨rfl, hHarmless⟩), .inr hKeeps⟩
  rw [Scheduler.cancel, hStatus]
  cases status with
  | ready r go =>
    cases go with
    | go next => exact h.setStatus (hMay (hTransition.2.resolve_left hInside))
    | retry goal next => exact absurd hTransition id
  | hanging go =>
    cases go with
    | go next => exact h.awaken (hMay hTransition)
    | retry goal next => exact absurd hTransition id
  | following u go => exact absurd hTransition id
  | finished report => exact absurd hTransition id

/-- The invariant holds if transitions are cancelled only where that does no harm. -/
theorem Interrupted.inv (hForecast : forecast.ClosingFailsOnly)
    (h : Interrupted (¬ ·.IsPerilous) db forecast callers s) : Inv db callers s := by
  induction h with
  | start => exact inv_start hForecast
  | incident _ hIncident ih =>
    cases hIncident with
    | event hEvent => exact (ih.event hEvent).1
    | interrupt hPending hWaits hHarmless => exact ih.interrupt hPending hWaits hHarmless

/-- Whatever callers and transitions are cancelled, the latter where that does no harm, in
whatever order things are done and whatever fails, a manager at rest is clean.  All that a
manager holds counts as obtained. -/
theorem interrupted_isClean (hForecast : forecast.ClosingFailsOnly)
    (h : Interrupted (¬ ·.IsPerilous) db forecast callers s) :
    (s.store.live.manager.pending = none → s.store.live.IsClean) ∧
      (∀ pool, s.store.live.manager.pool = some pool → 1 ≤ pool ∧ pool ≤ s.store.live.pools) ∧
      ∀ tunnel, s.store.live.manager.tunnel = some tunnel → Carries s.store.live.log tunnel := by
  have hInv := h.inv hForecast
  exact ⟨fun hNone => hInv.books.isClean (hInv.settled hNone),
    fun pool hHeld => (hInv.books.held_open pool hHeld).1, hInv.books.held_carries⟩

/-! ## Runs -/

theorem Interrupted.iterate {mayInterrupt : Live → Prop}
    (h : Interrupted mayInterrupt db forecast callers s) (n : Nat) :
    Interrupted mayInterrupt db forecast callers ((fire 0)^[n] s) :=
  Function.Iterate.rec _ h (fun _ hs => .incident hs (.event (.fire 0))) n

/-- The thread would go on after a cancelling. -/
def wouldGoOn (s : Scheduler) (t : Nat) : Bool :=
  match s.threads[t]? with
  | some (.ready _ (.go next)) | some (.hanging (.go next)) =>
    match next (.error .cancelled) with
    | .done _ => false
    | _ => true
  | _ => false

/-- A thread that would go on after a cancelling waits in its routine. -/
theorem waitsInside_of_wouldGoOn {t : Nat} (h : s.wouldGoOn t = true) : s.WaitsInside t := by
  unfold wouldGoOn at h
  split at h
  · rename_i r next hStatus
    refine ⟨_, hStatus, ?_⟩
    rintro ⟨routine, hStarting⟩
    cases hStarting
    cases h
  · rename_i next hStatus
    exact ⟨_, hStatus, trivial⟩
  · cases h

theorem not_isPerilous {l : Live}
    (h : (l.log.getLast?.map fun c => c.kind.isClosing) ≠ some true) : ¬ l.IsPerilous := by
  intro hPerilous
  unfold Live.IsPerilous at hPerilous
  split at hPerilous
  · rename_i hLast
    exact h (by rw [hLast]; rfl)
  · rename_i hLast
    exact h (by rw [hLast]; rfl)
  · rename_i hLast
    exact h (by rw [hLast]; rfl)
  · exact hPerilous

/-- A caller who connects. -/
def oneCaller (db : Database) (forecast : Forecast) : Scheduler :=
  (({ database := db, store := { live := { forecast } } } : Scheduler).spawn
    (routineOf db.connect)).2

theorem interrupted_oneCaller {mayInterrupt : Live → Prop} (hLive : db.backend = .live) :
    Interrupted mayInterrupt db forecast [0] (oneCaller db forecast) :=
  .incident .start (.event (.call (isCaller_connect hLive)))

/-- A connecting with a tunnel is cancelled while a pool is made, and takes the tunnel down. -/
theorem interrupted_isClean_tunneled :
    let called := (fire 0)^[4] (oneCaller tunneledDatabase fun _ => [])
    let s := (fire 0)^[8] (called.cancel 1)
    called.store.live.log.map Call.kind = [.sshConnect, .forward, .createPool] ∧
      s.store.live.manager.phase = .disconnected ∧ s.store.live.IsClean := by
  intro called s
  have hCalled : Interrupted (¬ ·.IsPerilous) tunneledDatabase (fun _ => []) [0] called :=
    (interrupted_oneCaller rfl).iterate 4
  have hPending : called.store.live.manager.pending = some 1 := by decide +kernel
  have hWaits : called.WaitsInside 1 := waitsInside_of_wouldGoOn (by decide +kernel)
  have hHarmless : ¬ called.store.live.IsPerilous := not_isPerilous (by decide +kernel)
  have hInterrupted : Interrupted (¬ ·.IsPerilous) tunneledDatabase (fun _ => []) [0] s :=
    (hCalled.incident (.interrupt hPending hWaits hHarmless)).iterate 8
  have hForecast : Forecast.ClosingFailsOnly fun _ => [] := by
    intro kind hClosing e he
    cases he
  have hNone : s.store.live.manager.pending = none := by decide +kernel
  refine ⟨?_, ?_, (interrupted_isClean hForecast hInterrupted).1 hNone⟩
  · decide +kernel
  · decide +kernel

/-- A database without a tunnel. -/
def directDatabase : Database :=
  { tunneledDatabase with
    settings := { tunneledDatabase.settings with
      tunnel := { tunneledDatabase.settings.tunnel with
        ssh := ⟨none, 22, none, none, none, none⟩ } } }

/-- The first connection is refused. -/
def refusal : Forecast
  | .acquire => [{ fault := some (.raised .operational [.str "refused"]) }]
  | _ => []

/-- Where a transition waits for its pool to be closed its cancelling does harm.  After a
connecting that failed the manager goes on connecting with no transition pending; after a
closing it is disconnected and still holds a tunnel that was not closed. -/
theorem interrupted_not_isClean :
    let failing := (fire 0)^[4] (oneCaller directDatabase refusal)
    let failed := (fire 0)^[5] (failing.cancel 1)
    let connected := (fire 0)^[9] (oneCaller tunneledDatabase fun _ => [])
    let closing := (fire 0)^[2] (connected.spawn (routineOf tunneledDatabase.disconnect)).2
    let closed := (fire 0)^[5] (closing.cancel 3)
    (Interrupted (fun _ => True) directDatabase refusal [0] failed ∧
        failed.store.live.manager.pending = none ∧
        failed.store.live.manager.phase = .connecting) ∧
      Interrupted (fun _ => True) tunneledDatabase (fun _ => []) [0, 2] closed ∧
        closed.store.live.manager.pending = none ∧
        closed.store.live.manager.phase = .disconnected ∧
        closed.store.live.manager.tunnel = some 0 ∧
        CallKind.listenerClose ∉ closed.store.live.log.map Call.kind := by
  intro failing failed connected closing closed
  have hFailing : Interrupted (fun _ => True) directDatabase refusal [0] failing :=
    (interrupted_oneCaller rfl).iterate 4
  have hPending : failing.store.live.manager.pending = some 1 := by decide +kernel
  have hWaits : failing.WaitsInside 1 := waitsInside_of_wouldGoOn (by decide +kernel)
  have hConnected : Interrupted (fun _ => True) tunneledDatabase (fun _ => []) [0] connected :=
    (interrupted_oneCaller rfl).iterate 9
  have hDisconnect : (routineOf tunneledDatabase.disconnect).IsCaller := fun _ => trivial
  have hThreads : connected.threads.length = 2 := by decide +kernel
  have hClosing : Interrupted (fun _ => True) tunneledDatabase (fun _ => []) [0, 2] closing := by
    have h := (hConnected.incident (.event (.call hDisconnect))).iterate 2
    rw [hThreads] at h
    exact h
  have hPending' : closing.store.live.manager.pending = some 3 := by decide +kernel
  have hWaits' : closing.WaitsInside 3 := waitsInside_of_wouldGoOn (by decide +kernel)
  refine ⟨⟨(hFailing.incident (.interrupt hPending hWaits trivial)).iterate 5, ?_, ?_⟩,
    (hClosing.incident (.interrupt hPending' hWaits' trivial)).iterate 5, ?_, ?_, ?_, ?_⟩
  all_goals decide +kernel

end Scheduler

end SqlWeave
