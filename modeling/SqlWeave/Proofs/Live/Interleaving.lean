import SqlWeave.Database.Connection
import SqlWeave.Proofs.Live.Transitions
import SqlWeave.Scheduler

/-!
# Interleavings of callers and transitions

Callers ask for a connection or for the end of it as often as they like, in any order, and
may be cancelled at any time.  A scheduler is reachable if it comes out of such events and
of the doing of things in its queue, in any order.

`Scheduler.Inv` is what holds of a reachable scheduler between two things that are done: a
pending transition is the one thread at work beside the callers, and the rest of its routine
keeps its contract; if none is pending the manager is settled.

## Main results

* `Inv.advance_transition`, `Inv.advance_caller`: what a thread does until it waits.
* `Inv.event`: every event preserves the invariant, and moves the phase along its cycle.
* `Reachable.inv`: the invariant holds of every reachable scheduler.
-/

namespace SqlWeave

open Manager

/-! ## Phases -/

/-- The moves of the phase. -/
inductive Phase.Leads : Phase → Phase → Prop
  | begin : Leads .disconnected .connecting
  | established : Leads .connecting .connected
  | failed : Leads .connecting .disconnected
  | close : Leads .connected .disconnecting
  | closed : Leads .disconnecting .disconnected

/-! ## Callers -/

/-- The routine leaves the store alone: all that it does is to wait, for goals too. -/
def Routine.IsCaller {α : Type} : Routine Store α → Prop
  | .done _ => True
  | .step change next => (∀ s, change s = s) ∧ ∀ s, (next s).IsCaller
  | .wait _ next => ∀ r, (next r).IsCaller

/-- Connecting leaves the store to the transition. -/
theorem isCaller_connect {db : Database} (h : db.backend = .live) :
    (Scheduler.routineOf db.connect).IsCaller := by
  rw [Database.connect, Database.onBackend, h]
  exact fun _ => trivial

def Continuation.IsCaller : Continuation → Prop
  | .go next => ∀ r, (next r).IsCaller
  | .retry _ next => ∀ r, (next r).IsCaller

/-- Whatever the thread does next, it does as a caller. -/
def ThreadStatus.IsCaller : ThreadStatus → Prop
  | .ready _ go | .hanging go | .following _ go => go.IsCaller
  | .finished _ => True

/-- How a transition ends: the books are kept, the manager is settled, and the phase has
moved on. -/
def Ended (db : Database) (phase : Phase) (_ : Report) (s : Store) : Prop :=
  s.live.Books db ∧ s.live.manager.pending = none ∧ IsSettled s.live.manager ∧
    phase.Leads s.live.manager.phase

/-- The thread has not begun its routine. -/
def Continuation.IsStarting (go : Continuation) : Prop :=
  ∃ routine, go = Scheduler.starting routine

/-- However the wait ends, the routine keeps the contract of a transition. -/
def KeepsTransition (db : Database) (thread : Nat) (phase : Phase) (s : Store)
    (next : Result Value → Routine Store Report) : Prop :=
  ∀ r, (alone db thread phase).comes s r →
    (next r).Keeps (alone db thread phase) (Ended db phase) s

/-- Whatever the thread does next, it keeps the contract of a transition, also if it is
cancelled once it has begun. -/
def ThreadStatus.IsTransition (db : Database) (thread : Nat) (phase : Phase) (s : Store) :
    ThreadStatus → Prop
  | .ready r (.go next) =>
    (next r).Keeps (alone db thread phase) (Ended db phase) s ∧
      ((Continuation.go next).IsStarting ∨ KeepsTransition db thread phase s next)
  | .hanging (.go next) => KeepsTransition db thread phase s next
  | _ => False

namespace Scheduler

/-- Something that can happen to a scheduler with some callers: a new caller starts, any of
the things in the queue is done, a caller is cancelled, or what hangs is let go. -/
inductive Event : List Nat → Scheduler → List Nat → Scheduler → Prop
  | call {callers : List Nat} {s : Scheduler} {routine : Routine Store Report}
      (h : routine.IsCaller) : Event callers s (callers ++ [s.threads.length]) (s.spawn routine).2
  | fire {callers : List Nat} {s : Scheduler} (i : Nat) : Event callers s callers (s.fire i)
  | cancel {callers : List Nat} {s : Scheduler} {t : Nat} (h : t ∈ callers) :
      Event callers s callers (s.cancel t)
  | release {callers : List Nat} {s : Scheduler} : Event callers s callers s.release

/-- The schedulers that come out of any events, with the callers that were started. -/
inductive Reachable (db : Database) (forecast : Forecast) : List Nat → Scheduler → Prop
  | start : Reachable db forecast [] { database := db, store := { live := { forecast } } }
  | event {callers callers' : List Nat} {s s' : Scheduler} (h : Reachable db forecast callers s)
      (hEvent : Event callers s callers' s') : Reachable db forecast callers' s'

/-- What holds of a scheduler between two things that are done. -/
structure Inv (db : Database) (callers : List Nat) (s : Scheduler) : Prop where
  database : s.database = db
  books : s.store.live.Books db
  settled : s.store.live.manager.pending = none → IsSettled s.store.live.manager
  callers_lt : ∀ t ∈ callers, t < s.threads.length
  callers_keep : ∀ t ∈ callers, ∀ status, s.threads[t]? = some status → status.IsCaller
  others_finished : ∀ t status, s.threads[t]? = some status → t ∉ callers →
    s.store.live.manager.pending ≠ some t → ∃ report, status = .finished report
  pending : ∀ t, s.store.live.manager.pending = some t → t ∉ callers ∧
    (s.store.live.manager.phase = .connecting ∨ s.store.live.manager.phase = .disconnecting) ∧
    ∃ status, s.threads[t]? = some status ∧
      status.IsTransition db t s.store.live.manager.phase s.store

variable {db : Database} {callers : List Nat} {s s' : Scheduler}

/-- The invariant is about the threads and the store. -/
theorem Inv.congr (h : Inv db callers s) (hDatabase : s'.database = s.database)
    (hThreads : s'.threads = s.threads) (hStore : s'.store = s.store) : Inv db callers s' := by
  obtain ⟨database, store, threads, queue, followers, isReleased⟩ := s
  obtain ⟨database', store', threads', queue', followers', isReleased'⟩ := s'
  obtain rfl : database' = database := hDatabase
  obtain rfl : threads' = threads := hThreads
  obtain rfl : store' = store := hStore
  exact ⟨h.database, h.books, h.settled, h.callers_lt, h.callers_keep, h.others_finished, h.pending⟩

/-- What a thread is set to is what a caller or a transition may be set to. -/
def MaySet (db : Database) (callers : List Nat) (s : Scheduler) (t : Nat) (status : ThreadStatus) :
    Prop :=
  t ∈ callers ∧ status.IsCaller ∨
    s.store.live.manager.pending = some t ∧
      status.IsTransition db t s.store.live.manager.phase s.store

/-- A thread that stands in another place. -/
theorem Inv.setStatus (h : Inv db callers s) {t : Nat} {status : ThreadStatus}
    (hStatus : MaySet db callers s t status) : Inv db callers (s.setStatus t status) where
  database := h.database
  books := h.books
  settled := h.settled
  callers_lt := by
    intro u hu
    rw [Scheduler.setStatus, List.length_set]
    exact h.callers_lt u hu
  callers_keep := by
    intro u hu other hOther
    rcases of_getElem?_set hOther with ⟨rfl, rfl⟩ | ⟨-, hOld⟩
    · rcases hStatus with ⟨-, hCaller⟩ | ⟨hPending, -⟩
      · exact hCaller
      · exact absurd hu (h.pending t hPending).1
    · exact h.callers_keep u hu other hOld
  others_finished := by
    intro u other hOther hu hNot
    rcases of_getElem?_set hOther with ⟨rfl, -⟩ | ⟨-, hOld⟩
    · rcases hStatus with ⟨hCaller, -⟩ | ⟨hPending, -⟩
      · exact absurd hCaller hu
      · exact absurd hPending hNot
    · exact h.others_finished u other hOld hu hNot
  pending := by
    intro u hu
    obtain ⟨hCaller, hPhase, old, hOld, hKeeps⟩ := h.pending u hu
    refine ⟨hCaller, hPhase, ?_⟩
    by_cases hEq : t = u
    · subst hEq
      rcases hStatus with ⟨hMem, -⟩ | ⟨-, hTransition⟩
      · exact absurd hMem hCaller
      · exact ⟨status, List.getElem?_set_self (List.getElem?_eq_some_iff.mp hOld).1, hTransition⟩
    · exact ⟨old, (List.getElem?_set_ne hEq).trans hOld, hKeeps⟩

theorem Inv.awaken (h : Inv db callers s) {t : Nat} {r : Result Value} {go : Continuation}
    (hStatus : MaySet db callers s t (.ready r go)) : Inv db callers (s.awaken t r go) :=
  (h.setStatus hStatus).congr rfl rfl rfl

/-! ## Transitions -/

/-- The phase stays, or moves on. -/
def Moves (s s' : Scheduler) : Prop :=
  s'.store.live.manager.phase = s.store.live.manager.phase ∨
    s.store.live.manager.phase.Leads s'.store.live.manager.phase

/-- A transition runs until it waits, keeping its contract, or until it ends. -/
theorem advance_transition {t : Nat} {phase : Phase} {routine : Routine Store Report}
    (h : routine.Keeps (alone db t phase) (Ended db phase) s.store) :
    (s.advance t routine).database = s.database ∧ ∃ status,
      (s.advance t routine).threads = s.threads.set t status ∧
        ((alone db t phase).rests (s.advance t routine).store ∧
            status.IsTransition db t phase (s.advance t routine).store ∨
          ∃ report, status = .finished report ∧
            Ended db phase report (s.advance t routine).store) := by
  induction routine generalizing s with
  | done report => exact ⟨rfl, .finished report, rfl, .inr ⟨report, rfl, h⟩⟩
  | step change next ih => exact ih s.store (s := { s with store := change s.store }) h
  | wait on next ih =>
    obtain ⟨hOn, hRests, hNext⟩ := h
    have hGo : KeepsTransition db t phase s.store next := fun r => hNext s.store r rfl
    have hOk := hGo (.ok .null) (.inl rfl)
    cases on with
    | turn => exact ⟨rfl, .ready (.ok .null) (.go next), rfl, .inl ⟨hRests, hOk, .inr hGo⟩⟩
    | release =>
      rw [advance]
      split
      · exact ih (.ok .null) hOk
      · exact ⟨rfl, .hanging (.go next), rfl, .inl ⟨hRests, hGo⟩⟩
    | goal goal => exact absurd rfl (hOn goal)

/-- The invariant when the pending transition has done something. -/
theorem Inv.of_advance (h : Inv db callers s) {t : Nat} {routine : Routine Store Report}
    (hPending : s.store.live.manager.pending = some t)
    (hKeeps : routine.Keeps (alone db t s.store.live.manager.phase)
      (Ended db s.store.live.manager.phase) s.store) :
    Inv db callers (s.advance t routine) ∧ Moves s (s.advance t routine) := by
  obtain ⟨hDatabase, status, hThreads, hAfter⟩ := advance_transition hKeeps
  obtain ⟨hCaller, hPhase, old, hOld, -⟩ := h.pending t hPending
  have hLt : t < s.threads.length := (List.getElem?_eq_some_iff.mp hOld).1
  generalize s.advance t routine = s' at hDatabase hThreads hAfter
  have hOthers : ∀ u, u ≠ t → s'.threads[u]? = s.threads[u]? := by
    intro u hu
    rw [hThreads, List.getElem?_set_ne (Ne.symm hu)]
  have hSelf : s'.threads[t]? = some status := by
    rw [hThreads, List.getElem?_set_self hLt]
  have hDb : s'.database = db := hDatabase.trans h.database
  have hCallersLt : ∀ u ∈ callers, u < s'.threads.length := by
    intro u hu
    rw [hThreads, List.length_set]
    exact h.callers_lt u hu
  have hCallersKeep : ∀ u ∈ callers, ∀ other, s'.threads[u]? = some other → other.IsCaller := by
    intro u hu other hOther
    rw [hOthers u fun hEq => hCaller (hEq ▸ hu)] at hOther
    exact h.callers_keep u hu other hOther
  have hFinished : ∀ u other, s'.threads[u]? = some other → u ∉ callers → u ≠ t →
      ∃ report, other = .finished report := by
    intro u other hOther hu hNe
    rw [hOthers u hNe] at hOther
    refine h.others_finished u other hOther hu fun hEq => hNe ?_
    exact Option.some.inj (hEq.symm.trans hPending)
  rcases hAfter with ⟨⟨hBooks, hStill, hSame⟩, hTransition⟩ | ⟨report, hReport, hEnded⟩
  · refine ⟨⟨hDb, hBooks, ?_, hCallersLt, hCallersKeep, ?_, ?_⟩, .inl hSame⟩
    · intro hNone
      rw [hNone] at hStill
      cases hStill
    · intro u other hOther hu hNot
      exact hFinished u other hOther hu fun hEq => hNot (hEq ▸ hStill)
    · intro u hu
      obtain rfl : t = u := Option.some.inj (hStill.symm.trans hu)
      rw [hSame]
      exact ⟨hCaller, hPhase, status, hSelf, hTransition⟩
  · obtain ⟨hBooks, hNone, hSettled, hLeads⟩ := hEnded
    refine ⟨⟨hDb, hBooks, fun _ => hSettled, hCallersLt, hCallersKeep, ?_, ?_⟩, .inr hLeads⟩
    · intro u other hOther hu _
      by_cases hEq : u = t
      · subst hEq
        rw [hSelf, Option.some.injEq] at hOther
        exact ⟨report, hOther ▸ hReport⟩
      · exact hFinished u other hOther hu hEq
    · intro u hu
      rw [hNone] at hu
      cases hu

/-! ## Callers -/

/-- A transition is begun when none is pending: a connecting by a caller who wants a connection
that is not there, a disconnecting while there is one. -/
theorem of_pursuit_begin {m : Manager} {goal : Goal} {transition : Transition}
    (h : m.pursuit goal = .begin transition) :
    m.pending = none ∧ (transition = .establish ∧ m.phase ≠ .connected ∨
      transition = .close ∧ m.phase = .connected) := by
  cases goal with
  | connected =>
    simp only [pursuit] at h
    split at h
    · cases h
    · rename_i hPhase
      split at h
      · cases h
      · rename_i hNone
        cases h
        exact ⟨hNone, .inl ⟨rfl, hPhase⟩⟩
  | disconnected =>
    simp only [pursuit] at h
    split at h
    · cases h
    · rename_i hNone
      split at h
      · rename_i hPhase
        cases h
        exact ⟨hNone, .inr ⟨rfl, hPhase⟩⟩
      · cases h

/-- A caller that begins a transition finds the manager settled. -/
theorem pursuit_begin {m : Manager} {goal : Goal} {transition : Transition}
    (h : m.pursuit goal = .begin transition) (hSettled : m.pending = none → IsSettled m) :
    m.pending = none ∧ (transition = .establish ∧ m.phase = .disconnected ∧ m.pool = none ∧
        m.tunnel = none ∨ transition = .close ∧ m.phase = .connected) := by
  obtain ⟨hNone, ⟨rfl, hPhase⟩ | hClose⟩ := of_pursuit_begin h
  · rcases hSettled hNone with ⟨hConnected, -⟩ | hDisconnected
    · exact absurd hConnected hPhase
    · exact ⟨hNone, .inl ⟨rfl, hDisconnected⟩⟩
  · exact ⟨hNone, .inr hClose⟩

/-- A caller that follows a transition follows the pending one. -/
theorem pursuit_follow {m : Manager} {goal : Goal} {t : Nat} {isFinal : Bool}
    (h : m.pursuit goal = .follow t isFinal) : m.pending = some t := by
  cases goal with
  | connected =>
    simp only [pursuit] at h
    split at h
    · cases h
    · split at h
      · rename_i hPending
        cases h
        exact hPending
      · cases h
  | disconnected =>
    simp only [pursuit] at h
    split at h
    · rename_i hPending
      cases h
      exact hPending
    · split at h <;> cases h

/-- The phase of a transition follows the phase in which it is begun, and its routine keeps
the contract from there on. -/
theorem keeps_transition {t : Nat} {transition : Transition} {store : Store}
    (hBooks : store.live.Books db)
    (h : transition = .establish ∧ store.live.manager.phase = .disconnected ∧
        store.live.manager.pool = none ∧ store.live.manager.tunnel = none ∨
      transition = .close ∧ store.live.manager.phase = .connected) :
    (routineOf (transition.action db)).Keeps (alone db t transition.phase)
      (Ended db transition.phase) (store.onManager (Manager.begun transition t)) := by
  have hBegun := books_onManager (f := Manager.begun transition t) (fun _ => rfl) (fun _ => rfl)
    hBooks
  refine Routine.keeps_bind ?_
  rcases h with ⟨rfl, -, hPool, hTunnel⟩ | ⟨rfl, -⟩
  · refine (meets_establish _ ⟨hBegun, ⟨rfl, rfl, hPool⟩, hTunnel⟩).mono fun r s' hs' => ?_
    refine ⟨hs'.1, hs'.2.1, hs'.2.2, ?_⟩
    rcases hs'.2.2 with ⟨hPhase, -⟩ | ⟨hPhase, -⟩
    · rw [hPhase]
      exact .established
    · rw [hPhase]
      exact .failed
  · refine (meets_close _ ⟨hBegun, rfl, rfl⟩).mono fun r s' hs' => ?_
    refine ⟨hs'.1, hs'.2.1, hs'.2.2.2, ?_⟩
    rw [hs'.2.2.1]
    exact .closed

/-- The scheduler in which a thread of its own carries out a transition. -/
def beginning (transition : Transition) (s : Scheduler) : Scheduler :=
  let s' := (s.spawn (routineOf (transition.action s.database))).2
  { s' with store := s'.store.onManager (Manager.begun transition s.threads.length) }

/-- A caller begins a transition. -/
theorem Inv.beginning (h : Inv db callers s) {goal : Goal} {transition : Transition}
    (hBegin : s.store.live.manager.pursuit goal = .begin transition) :
    Inv db callers (s.beginning transition) ∧
      s.store.live.manager.phase.Leads (s.beginning transition).store.live.manager.phase := by
  obtain ⟨hNone, hStart⟩ := pursuit_begin hBegin h.settled
  have hKeeps := keeps_transition (t := s.threads.length) h.books hStart
  rw [← h.database] at hKeeps
  let status : ThreadStatus :=
    .ready (.ok .null) (starting (routineOf (transition.action s.database)))
  have hThreads : (s.beginning transition).threads = s.threads ++ [status] := rfl
  have hPending : (s.beginning transition).store.live.manager.pending = some s.threads.length := rfl
  have hOld : ∀ t other, (s.beginning transition).threads[t]? = some other →
      t ≠ s.threads.length → s.threads[t]? = some other :=
    fun t other hOther hNe => getElem?_of_concat (hThreads ▸ hOther) hNe
  refine ⟨⟨h.database, ?_, ?_, ?_, ?_, ?_, ?_⟩, ?_⟩
  · exact books_onManager (fun _ => rfl) (fun _ => rfl) h.books
  · intro hNoneNow
    rw [hPending] at hNoneNow
    cases hNoneNow
  · intro t ht
    rw [hThreads, List.length_append]
    exact Nat.lt_of_lt_of_le (h.callers_lt t ht) (Nat.le_add_right _ _)
  · intro t ht other hOther
    exact h.callers_keep t ht other (hOld t other hOther (Nat.ne_of_lt (h.callers_lt t ht)))
  · intro t other hOther ht hNot
    refine h.others_finished t other (hOld t other hOther fun hEq => hNot ?_) ht ?_
    · rw [hPending, hEq]
    · rw [hNone]
      exact nofun
  · intro t ht
    obtain rfl : s.threads.length = t := Option.some.inj (hPending.symm.trans ht)
    refine ⟨fun hMem => Nat.lt_irrefl _ (h.callers_lt _ hMem), ?_, status, ?_, ?_⟩
    · rcases hStart with ⟨rfl, -⟩ | ⟨rfl, -⟩
      · exact .inl rfl
      · exact .inr rfl
    · rw [hThreads, List.getElem?_concat_length]
    · rw [← h.database]
      exact ⟨hKeeps, .inl ⟨_, rfl⟩⟩
  · rcases hStart with ⟨rfl, hPhase, -⟩ | ⟨rfl, hPhase⟩
    · rw [hPhase]
      exact .begin
    · rw [hPhase]
      exact .close

/-- What there is to a goal at once: nothing changes, or a transition is begun. -/
theorem Inv.seek_cases (h : Inv db callers s) (goal : Goal) :
    (∃ r, s.seek goal = .inl r) ∨ (∃ t isFinal, s.seek goal = .inr (t, isFinal, s)) ∨
      ∃ transition, s.store.live.manager.pursuit goal = .begin transition ∧
        s.seek goal = .inr (s.threads.length, true, s.beginning transition) := by
  unfold seek
  cases hPursuit : s.store.live.manager.pursuit goal with
  | reached v => exact .inl ⟨.ok v, rfl⟩
  | «begin» transition => exact .inr (.inr ⟨transition, rfl, rfl⟩)
  | follow t isFinal =>
    obtain ⟨-, -, status, hStatus, hKeeps⟩ := h.pending t (pursuit_follow hPursuit)
    have hReport : s.report? t = none := by
      unfold report?
      rw [hStatus]
      cases status with
      | finished report => exact absurd hKeeps id
      | ready r go => rfl
      | hanging go => rfl
      | following u go => rfl
    simp only [hReport]
    exact .inr (.inl ⟨t, isFinal, rfl⟩)

/-- A caller runs until it waits or is done; if it begins a transition, it then waits. -/
theorem Inv.advance_caller (h : Inv db callers s) {t : Nat} (ht : t ∈ callers)
    {routine : Routine Store Report} (hRoutine : routine.IsCaller) :
    Inv db callers (s.advance t routine) ∧ Moves s (s.advance t routine) := by
  induction routine generalizing s with
  | done report =>
    have hMay : MaySet db callers s t (.finished report) := .inl ⟨ht, trivial⟩
    exact ⟨(h.setStatus hMay).congr rfl rfl rfl, .inl rfl⟩
  | step change next ih =>
    have hSame : ({ s with store := change s.store } : Scheduler) = s := by
      rw [hRoutine.1 s.store]
    rw [advance, hSame]
    exact ih s.store h (hRoutine.2 s.store)
  | wait on next ih =>
    have hGo : Continuation.IsCaller (.go next) := hRoutine
    cases on with
    | turn => exact ⟨h.awaken (.inl ⟨ht, hGo⟩), .inl rfl⟩
    | release =>
      rw [advance]
      split
      · exact ih (.ok .null) h (hRoutine (.ok .null))
      · exact ⟨h.setStatus (.inl ⟨ht, hGo⟩), .inl rfl⟩
    | goal goal =>
      have hTowards : ∀ isFinal, Continuation.IsCaller (towards goal isFinal next) := by
        intro isFinal
        cases isFinal <;> exact hRoutine
      have hFollow : ∀ {s' : Scheduler} {target isFinal}, Inv db callers s' →
          Inv db callers (s'.follow t target (towards goal isFinal next)) := by
        intro s' target isFinal h'
        have hMay : MaySet db callers s' t (.following target (towards goal isFinal next)) :=
          .inl ⟨ht, hTowards isFinal⟩
        exact (h'.setStatus hMay).congr rfl rfl rfl
      rw [advance]
      rcases h.seek_cases goal with ⟨r, hSeek⟩ | ⟨u, isFinal, hSeek⟩ | ⟨transition, hBegin, hSeek⟩
      · rw [hSeek]
        exact ih r h (hRoutine r)
      · rw [hSeek]
        exact ⟨hFollow h, .inl rfl⟩
      · rw [hSeek]
        obtain ⟨hInv, hLeads⟩ := h.beginning hBegin
        exact ⟨hFollow hInv, .inr hLeads⟩

/-! ## Events -/

theorem Inv.proceed_caller (h : Inv db callers s) {t : Nat} (ht : t ∈ callers) (r : Result Value)
    {go : Continuation} (hGo : go.IsCaller) :
    Inv db callers (s.proceed t r go) ∧ Moves s (s.proceed t r go) := by
  cases go with
  | go next => exact h.advance_caller ht (hGo r)
  | retry goal next =>
    rw [proceed]
    split
    · have hAgain : Routine.IsCaller (.wait (.goal goal) next : Routine Store Report) := hGo
      exact h.advance_caller ht hAgain
    · exact h.advance_caller ht (hGo r)

/-- Where a thread that is not finished stands. -/
theorem Inv.maySet (h : Inv db callers s) {t : Nat} {status : ThreadStatus}
    (hStatus : s.threads[t]? = some status) (hRuns : ∀ report, status ≠ .finished report) :
    MaySet db callers s t status := by
  by_cases ht : t ∈ callers
  · exact .inl ⟨ht, h.callers_keep t ht status hStatus⟩
  · right
    have hPending : s.store.live.manager.pending = some t := by
      refine Classical.byContradiction fun hNot => ?_
      obtain ⟨report, hReport⟩ := h.others_finished t status hStatus ht hNot
      exact hRuns report hReport
    obtain ⟨-, -, other, hOther, hKeeps⟩ := h.pending t hPending
    rw [hStatus, Option.some.injEq] at hOther
    exact ⟨hPending, hOther ▸ hKeeps⟩

/-- Doing what a handle says. -/
theorem Inv.perform (h : Inv db callers s) (handle : Handle) :
    Inv db callers (s.perform handle) ∧ Moves s (s.perform handle) := by
  cases handle with
  | resume t =>
    rw [Scheduler.perform]
    split
    · rename_i r go hStatus
      rcases h.maySet hStatus nofun with ⟨ht, hCaller⟩ | ⟨hPending, hTransition⟩
      · exact h.proceed_caller ht r hCaller
      · cases go with
        | go next => exact h.of_advance hPending hTransition.1
        | retry goal next => exact absurd hTransition id
    · exact ⟨h, .inl rfl⟩
  | pass t u r =>
    rw [Scheduler.perform]
    split
    · rename_i target go hStatus
      split
      · rcases h.maySet hStatus nofun with ⟨ht, hCaller⟩ | ⟨-, hTransition⟩
        · exact ⟨h.awaken (.inl ⟨ht, hCaller⟩), .inl rfl⟩
        · exact absurd hTransition id
      · exact ⟨h, .inl rfl⟩
    · exact ⟨h, .inl rfl⟩

theorem Inv.fire (h : Inv db callers s) (i : Nat) :
    Inv db callers (s.fire i) ∧ Moves s (s.fire i) := by
  rw [Scheduler.fire]
  split
  · have hRest : Inv db callers { s with queue := s.queue.eraseIdx i } := h.congr rfl rfl rfl
    exact hRest.perform _
  · exact ⟨h, .inl rfl⟩

/-- A caller's wait that ends with a cancellation. -/
theorem Inv.cancel (h : Inv db callers s) {t : Nat} (ht : t ∈ callers) :
    Inv db callers (s.cancel t) := by
  have hKeep := h.callers_keep t ht
  have hMay : ∀ go : Continuation, go.IsCaller →
      MaySet db callers s t (.ready (.error .cancelled) go) :=
    fun go hGo => .inl ⟨ht, hGo⟩
  rw [Scheduler.cancel]
  split
  · rename_i r go hStatus
    exact h.setStatus (hMay go (hKeep _ hStatus))
  · rename_i go hStatus
    exact h.awaken (hMay go (hKeep _ hStatus))
  · rename_i u go hStatus
    exact (h.awaken (hMay go (hKeep _ hStatus))).congr rfl rfl rfl
  · exact h

theorem Inv.letGo (h : Inv db callers s) (t : Nat) : Inv db callers (s.letGo t) := by
  rw [Scheduler.letGo]
  split
  · rename_i go hStatus
    apply h.awaken
    rcases h.maySet hStatus nofun with hCaller | ⟨hPending, hTransition⟩
    · exact .inl hCaller
    · cases go with
      | go next =>
        exact .inr ⟨hPending, hTransition _ (.inl rfl), .inr hTransition⟩
      | retry goal next => exact absurd hTransition id
  · exact h

/-- Letting go leaves the store alone. -/
theorem store_letGo (s : Scheduler) (t : Nat) : (s.letGo t).store = s.store := by
  rw [Scheduler.letGo]
  split <;> rfl

theorem store_release (s : Scheduler) : s.release.store = s.store :=
  release_of_letGo (P := fun s' => s'.store = s.store) rfl fun s' t h => (store_letGo s' t).trans h

theorem Inv.release (h : Inv db callers s) :
    Inv db callers s.release ∧ s.release.store = s.store :=
  ⟨release_of_letGo (h.congr rfl rfl rfl) fun _ t h' => h'.letGo t, store_release s⟩

/-- A new caller. -/
theorem Inv.call (h : Inv db callers s) {routine : Routine Store Report}
    (hRoutine : routine.IsCaller) :
    Inv db (callers ++ [s.threads.length]) (s.spawn routine).2 := by
  let status : ThreadStatus := .ready (.ok .null) (starting routine)
  have hThreads : (s.spawn routine).2.threads = s.threads ++ [status] := rfl
  have hOld : ∀ t other, (s.spawn routine).2.threads[t]? = some other →
      t ≠ s.threads.length → s.threads[t]? = some other :=
    fun t other hOther hNe => getElem?_of_concat (hThreads ▸ hOther) hNe
  refine ⟨h.database, h.books, h.settled, ?_, ?_, ?_, ?_⟩
  · intro t ht
    rw [hThreads, List.length_append]
    rcases List.mem_append.mp ht with hMem | hNew
    · exact Nat.lt_of_lt_of_le (h.callers_lt t hMem) (Nat.le_add_right _ _)
    · rw [List.mem_singleton.mp hNew]
      exact Nat.lt_succ_self _
  · intro t ht other hOther
    by_cases hNew : t = s.threads.length
    · rw [hThreads, hNew, List.getElem?_concat_length, Option.some.injEq] at hOther
      rw [← hOther]
      intro r
      cases r with
      | ok v => exact hRoutine
      | error f => exact trivial
    · have hMem : t ∈ callers := by
        rcases List.mem_append.mp ht with hMem | hLast
        · exact hMem
        · exact absurd (List.mem_singleton.mp hLast) hNew
      exact h.callers_keep t hMem other (hOld t other hOther hNew)
  · intro t other hOther ht hNot
    rw [List.mem_append, not_or, List.mem_singleton] at ht
    exact h.others_finished t other (hOld t other hOther ht.2) ht.1 hNot
  · intro t ht
    obtain ⟨hCaller, hPhase, old, hOther, hKeeps⟩ := h.pending t ht
    have hLt : t < s.threads.length := (List.getElem?_eq_some_iff.mp hOther).1
    refine ⟨?_, hPhase, old, ?_, hKeeps⟩
    · rw [List.mem_append, not_or, List.mem_singleton]
      exact ⟨hCaller, Nat.ne_of_lt hLt⟩
    · rw [hThreads, List.getElem?_append_left hLt, hOther]

/-- Every event preserves the invariant, and moves the phase along its cycle if at all. -/
theorem Inv.event {callers' : List Nat} (h : Inv db callers s)
    (hEvent : Event callers s callers' s') : Inv db callers' s' ∧ Moves s s' := by
  cases hEvent with
  | call hRoutine => exact ⟨h.call hRoutine, .inl rfl⟩
  | fire i => exact h.fire i
  | cancel ht =>
    refine ⟨h.cancel ht, .inl ?_⟩
    rw [Scheduler.cancel]
    split <;> rfl
  | release =>
    obtain ⟨hInv, hStore⟩ := h.release
    exact ⟨hInv, .inl (by rw [hStore])⟩

/-- The invariant holds at the start. -/
theorem inv_start {forecast : Forecast} (h : forecast.ClosingFailsOnly) :
    Inv db [] { database := db, store := { live := { forecast } } } where
  database := rfl
  books := Live.books_new h
  settled := fun _ => .inr ⟨rfl, rfl, rfl⟩
  callers_lt := nofun
  callers_keep := nofun
  others_finished := nofun
  pending := nofun

/-- The invariant holds of every reachable scheduler. -/
theorem Reachable.inv {forecast : Forecast} (hForecast : forecast.FailsOnly)
    (h : Reachable db forecast callers s) : Inv db callers s := by
  induction h with
  | start => exact inv_start hForecast.closing
  | event _ hEvent ih => exact (ih.event hEvent).1

end Scheduler

end SqlWeave
