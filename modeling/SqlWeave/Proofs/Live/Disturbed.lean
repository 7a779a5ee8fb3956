import SqlWeave.Proofs.Live.Managed
import SqlWeave.Proofs.Live.Survey

/-!
# Disturbed runs

Beside the callers any other thread may be cancelled, at any time, also one that carries out a
transition and has not begun to.  Still at most one transition is under way at a time, and its
thread keeps the contract of a survey, under which its waits may be broken off; while none is,
clients are at work or one is begun.

## Main results

* `Calm.disturb`: what comes of a scheduler in which no transition is under way.
* `Crossing.disturb`: what comes of one in which a thread carries out a transition.
-/

namespace SqlWeave

open SqlWeave.Action Manager

/-! ## Threads that wait -/

/-- However the wait of the thread ends, it keeps its contract from there on. -/
def Continuation.Heeds (c : Contract Store) (post : Report → Store → Prop) (s : Store) :
    Continuation → Prop
  | .go next => c.rests s ∧
    ∀ s' r, c.rely s s' → c.comes s' r → (next r).Keeps c post s'
  | .retry .. => False

/-- The thread waits as its contract says, and keeps it from here on. -/
def ThreadStatus.Waits (c : Contract Store) (post : Report → Store → Prop) (s : Store) :
    ThreadStatus → Prop
  | .ready r go => c.comes s r ∧ go.Heeds c post s
  | .hanging go => go.Heeds c post s
  | _ => False

section

variable {start : Live} {R : Trace → Manager → Prop} {mayBreak : Prop}
  {post : Report → Store → Prop} {s s' : Store} {go : Continuation} {status : ThreadStatus}

theorem rests_of_served (h : (survey start R mayBreak).rests s) (hServed : s.Served s') :
    (survey start R mayBreak).rests s' := by
  obtain ⟨made, m, ts, hs, hR⟩ := h
  exact ⟨made, m, ts, hs.of_served hServed, hR⟩

theorem Continuation.Heeds.rests {c : Contract Store} (h : go.Heeds c post s) : c.rests s := by
  cases go with
  | go next => exact h.1
  | retry goal next => exact h.elim

theorem Continuation.Heeds.of_served (h : go.Heeds (survey start R mayBreak) post s)
    (hServed : s.Served s') : go.Heeds (survey start R mayBreak) post s' := by
  cases go with
  | go next => exact ⟨rests_of_served h.1 hServed, fun s'' r hServed' =>
      h.2 s'' r (hServed.trans _ _ _ hServed')⟩
  | retry goal next => exact h

namespace ThreadStatus.Waits

theorem rests {c : Contract Store} (h : status.Waits c post s) : c.rests s := by
  cases status with
  | ready r go => exact h.2.rests
  | hanging go => exact Continuation.Heeds.rests h
  | _ => exact h.elim

theorem not_isFollowing {c : Contract Store} (h : status.Waits c post s) :
    ¬ status.IsFollowing := by
  cases status with
  | following v go => exact h.elim
  | _ => exact id

/-- Clients were at work. -/
theorem of_served (h : status.Waits (survey start R mayBreak) post s) (hServed : s.Served s') :
    status.Waits (survey start R mayBreak) post s' := by
  cases status with
  | ready r go => exact ⟨h.1, h.2.of_served hServed⟩
  | hanging go => exact Continuation.Heeds.of_served h hServed
  | _ => exact h.elim

end ThreadStatus.Waits

end

namespace Scheduler

variable {db : Database} {forecast : Forecast} {callers callers' : Callers} {s s' : Scheduler}
  {a u : Nat}

section

variable {start : Live} {R : Trace → Manager → Prop} {mayBreak : Prop}
  {post : Report → Store → Prop} {status : ThreadStatus}

/-- A thread runs until it waits, keeping its contract, or until it ends. -/
theorem advance_waits {routine : Routine Store Report}
    (h : routine.Keeps (survey start R mayBreak) post s.store) :
    ∃ status, (s.advance u routine).threads = s.threads.set u status ∧
      (status.Waits (survey start R mayBreak) post (s.advance u routine).store ∨
        ∃ report, status = .finished report ∧ post report (s.advance u routine).store) := by
  induction routine generalizing s with
  | done report => exact ⟨.finished report, rfl, .inr ⟨report, rfl, h⟩⟩
  | step change next ih => exact ih s.store (s := { s with store := change s.store }) h
  | wait on next ih =>
    obtain ⟨hOn, hRests, hNext⟩ := h
    cases on with
    | turn => exact ⟨.ready (.ok .null) (.go next), rfl, .inl ⟨.inl rfl, hRests, hNext⟩⟩
    | release =>
      rw [advance]
      split
      · exact ih (.ok .null) (hNext s.store _ (.refl _) (.inl rfl))
      · exact ⟨.hanging (.go next), rfl, .inl ⟨hRests, hNext⟩⟩
    | goal goal => exact absurd rfl (hOn goal)

/-- A thread that goes on. -/
theorem fire_waits {i : Nat} (hRunner : s.runner i = some u) (hStatus : s.threads[u]? = some status)
    (hWaits : status.Waits (survey start R mayBreak) post s.store) :
    ∃ status', (s.fire i).threads = s.threads.set u status' ∧
      (status'.Waits (survey start R mayBreak) post (s.fire i).store ∨
        ∃ report, status' = .finished report ∧ post report (s.fire i).store) := by
  obtain ⟨-, r, go, hReady⟩ := runner_eq_some.mp hRunner
  rw [hStatus] at hReady
  cases hReady
  cases go with
  | go next =>
    obtain ⟨hComes, -, hNext⟩ := hWaits
    rw [fire_of_runner hRunner hStatus]
    exact advance_waits (s := { s with queue := s.queue.eraseIdx i })
      (hNext s.store r (.refl _) hComes)
  | retry goal next => exact hWaits.2.elim

/-- A thread whose wait is broken off. -/
theorem cancel_waits (hBreak : mayBreak) (hStatus : s.threads[u]? = some status)
    (hWaits : status.Waits (survey start R mayBreak) post s.store) :
    ∃ status', (s.cancel u).threads[u]? = some status' ∧
      status'.Waits (survey start R mayBreak) post s.store := by
  have hLt := (List.getElem?_eq_some_iff.mp hStatus).1
  rw [Scheduler.cancel, hStatus]
  cases status with
  | ready r go =>
    exact ⟨.ready (.error .cancelled) go, List.getElem?_set_self hLt, .inr ⟨hBreak, rfl⟩, hWaits.2⟩
  | hanging go =>
    exact ⟨.ready (.error .cancelled) go, List.getElem?_set_self hLt, .inr ⟨hBreak, rfl⟩, hWaits⟩
  | _ => exact hWaits.elim

/-- A thread that is let go if it hangs. -/
theorem release_waits (hStatus : s.threads[u]? = some status)
    (hWaits : status.Waits (survey start R mayBreak) post s.store) :
    ∃ status', s.release.threads[u]? = some status' ∧
      status'.Waits (survey start R mayBreak) post s.store := by
  rcases getElem?_release hStatus with hSame | ⟨go, rfl, hReady⟩
  · exact ⟨status, hSame, hWaits⟩
  · exact ⟨.ready (.ok .null) go, hReady, .inl rfl, hWaits⟩

end

/-! ## Disturbances -/

/-- Something that can happen: a turn, or, if that may be, the cancelling of any thread. -/
inductive Disturbance (mayBreak : Prop) (db : Database) :
    Callers → Scheduler → Callers → Scheduler → Prop
  | turn {callers callers' : Callers} {s s' : Scheduler} (h : Turn db callers s callers' s') :
      Disturbance mayBreak db callers s callers' s'
  | interrupt {callers : Callers} {s : Scheduler} (h : mayBreak) (t : Nat) :
      Disturbance mayBreak db callers s callers (s.cancel t)

/-- The schedulers that come out of any disturbances, with the callers. -/
inductive Disturbed (db : Database) (forecast : Forecast) : Callers → Scheduler → Prop
  | start : Disturbed db forecast (fun _ => none) { database := db, store := { live := { forecast } } }
  | disturb {callers callers' : Callers} {s s' : Scheduler} (h : Disturbed db forecast callers s)
      (hStep : Disturbance True db callers s callers' s') : Disturbed db forecast callers' s'

/-- A transition was begun when none was pending, and is pending since through any disturbances. -/
inductive Flight (mayBreak : Prop) (db : Database) (forecast : Forecast) (a : Nat)
    (before start : Scheduler) : Callers → Scheduler → Prop
  | begun {callers callers' : Callers} (h : Disturbed db forecast callers before)
      (hStep : Disturbance True db callers before callers' start)
      (hNone : before.store.live.manager.pending = none)
      (hPending : start.store.live.manager.pending = some a) :
      Flight mayBreak db forecast a before start callers' start
  | disturb {callers callers' : Callers} {s s' : Scheduler}
      (h : Flight mayBreak db forecast a before start callers s)
      (hStep : Disturbance mayBreak db callers s callers' s')
      (hPending : s'.store.live.manager.pending = some a) :
      Flight mayBreak db forecast a before start callers' s'

/-! ## No transition under way -/

/-- No thread carries out a transition. -/
structure Calm (db : Database) (callers : Callers) (s : Scheduler) : Prop where
  governed : ∃ own, Governed db callers own s
  done : OthersDone callers none s

/-- Clients were at work, and then a transition was begun. -/
structure Begins (db : Database) (callers : Callers) (transition : Transition) (s s' : Scheduler) :
    Prop extends Begun db callers transition s.threads.length s' where
  served : ∃ store, s.store.Served store ∧ store.live.manager.pending = none ∧
    s'.store = store.onManager (Manager.begun transition s.threads.length)

/-- One of the things in the queue is done while no transition is under way. -/
theorem Calm.fire (h : Calm db callers s) (i : Nat) :
    Calm db callers (s.fire i) ∧ s.store.Served (s.fire i).store ∨
      ∃ transition, Begins db callers transition s (s.fire i) := by
  obtain ⟨own, hGoverned⟩ := h.governed
  obtain ⟨own', hGoverned', -⟩ := hGoverned.fire i
  rcases hGoverned.fire_of_done h.done i with
    ⟨hDone, hServed⟩ | ⟨transition, store, hServed, hNone, hStore, hBegun⟩
  · exact .inl ⟨⟨⟨own', hGoverned'⟩, hDone⟩, hServed⟩
  · exact .inr ⟨transition, hBegun, store, hServed, hNone, hStore⟩

theorem Calm.cancel (h : Calm db callers s) (t : Nat) :
    Calm db callers (s.cancel t) ∧ s.store.Served (s.cancel t).store := by
  obtain ⟨own, hGoverned⟩ := h.governed
  refine ⟨⟨⟨own, hGoverned.cancel t⟩, h.done.of_finished (length_cancel s t)
    fun v report _ hReport => report?_cancel hReport t⟩, ?_⟩
  rw [store_cancel]
  exact .refl _

/-- While no transition is under way clients are at work, or one is begun. -/
theorem Calm.disturb {mayBreak : Prop} (hLive : db.backend = .live) (h : Calm db callers s)
    (hStep : Disturbance mayBreak db callers s callers' s') :
    Calm db callers' s' ∧ s.store.Served s'.store ∨
      ∃ transition, Begins db callers' transition s s' := by
  obtain ⟨own, hGoverned⟩ := h.governed
  cases hStep with
  | interrupt _ t => exact .inl (h.cancel t)
  | turn hTurn =>
    cases hTurn with
    | call o =>
      exact .inl ⟨⟨hGoverned.call hLive o, h.done.call o⟩, .refl _⟩
    | fire i => exact h.fire i
    | cancel _ => exact .inl (h.cancel _)
    | release =>
      refine .inl ⟨⟨⟨own, hGoverned.release⟩, h.done.of_finished (length_release s)
        fun v report _ hReport => report?_release hReport⟩, ?_⟩
      rw [store_release]
      exact .refl _

/-! ## A transition under way -/

/-- A thread carries out a transition, under a survey. -/
structure Crossing (db : Database) (callers : Callers) (a : Nat) (c : Contract Store)
    (post : Report → Store → Prop) (s : Scheduler) : Prop extends
    Tended db callers (some a) s where
  no_caller : callers a = none
  waits : ∃ status, s.threads[a]? = some status ∧ status.Waits c post s.store

section

variable {start : Live} {R : Trace → Manager → Prop} {mayBreak : Prop}
  {post : Report → Store → Prop}

theorem Crossing.lt {c : Contract Store} (h : Crossing db callers a c post s) :
    a < s.threads.length := by
  obtain ⟨status, hStatus, -⟩ := h.waits
  exact (List.getElem?_eq_some_iff.mp hStatus).1

theorem Crossing.rests {c : Contract Store} (h : Crossing db callers a c post s) :
    c.rests s.store := by
  obtain ⟨status, -, hWaits⟩ := h.waits
  exact hWaits.rests

/-- The transition has ended. -/
def HasEnded (db : Database) (callers : Callers) (a : Nat) (post : Report → Store → Prop)
    (s : Scheduler) : Prop :=
  Calm db callers s ∧ ∃ report, s.threads[a]? = some (.finished report) ∧ post report s.store

variable (hR : ∀ {made m}, R made m → m.pending = some a)

include hR in
/-- One of the things in the queue is done while a transition is under way. -/
theorem Crossing.fire (h : Crossing db callers a (survey start R mayBreak) post s) (i : Nat) :
    Crossing db callers a (survey start R mayBreak) post (s.fire i) ∨
      HasEnded db callers a post (s.fire i) := by
  obtain ⟨hGoverned, hClients⟩ := h.toTended.fire i
  obtain ⟨status, hStatus, hWaits⟩ := h.waits
  by_cases hRunner : s.runner i = some a
  · obtain ⟨status', hThreads, hEnd⟩ := fire_waits hRunner hStatus hWaits
    have hGet : (s.fire i).threads[a]? = some status' := by
      rw [hThreads]
      exact List.getElem?_set_self h.lt
    have hDone : OthersDone callers (some a) (s.fire i) := h.done.fire hThreads
    rcases hEnd with hWaits' | ⟨report, rfl, hPost⟩
    · obtain ⟨made, m, ts, hs, hRests⟩ := hWaits'.rests
      have hPending : (s.fire i).store.live.manager.pending = some a := by
        rw [hs.manager]
        exact hR hRests
      exact .inl ⟨⟨hGoverned, hPending, hDone⟩, h.no_caller, status', hGet, hWaits'⟩
    · exact .inr ⟨⟨hGoverned, hDone.ended hGet⟩, report, hGet, hPost⟩
  · obtain ⟨hTended, hServed⟩ := hClients hRunner
    exact .inl { hTended with
      no_caller := h.no_caller
      waits := ⟨status, getElem?_fire hRunner hStatus hWaits.not_isFollowing,
        hWaits.of_served hServed⟩ }

/-- A thread is cancelled while a transition is under way, which it carries out only if its waits
may be broken off. -/
theorem Crossing.cancel (h : Crossing db callers a (survey start R mayBreak) post s) {t : Nat}
    (ht : t = a → mayBreak) :
    Crossing db callers a (survey start R mayBreak) post (s.cancel t) := by
  obtain ⟨status, hStatus, hWaits⟩ := h.waits
  refine { h.toTended.cancel t with no_caller := h.no_caller, waits := ?_ }
  rw [store_cancel]
  by_cases hSame : t = a
  · subst hSame
    exact cancel_waits (ht rfl) hStatus hWaits
  · exact ⟨status, (getElem?_cancel hSame).trans hStatus, hWaits⟩

include hR in
/-- Whatever happens, a transition that is under way goes on, or it has ended. -/
theorem Crossing.disturb (hLive : db.backend = .live)
    (h : Crossing db callers a (survey start R mayBreak) post s)
    (hStep : Disturbance mayBreak db callers s callers' s') :
    Crossing db callers' a (survey start R mayBreak) post s' ∨ HasEnded db callers' a post s' := by
  obtain ⟨status, hStatus, hWaits⟩ := h.waits
  cases hStep with
  | interrupt hBreak t => exact .inl (h.cancel fun _ => hBreak)
  | turn hTurn =>
    cases hTurn with
    | call o =>
      exact .inl { h.toTended.call hLive o with
        no_caller := (Function.update_of_ne h.lt.ne _ _).trans h.no_caller
        waits := ⟨status, (List.getElem?_append_left h.lt).trans hStatus, hWaits⟩ }
    | fire i => exact h.fire hR i
    | @cancel t hCaller =>
      refine .inl (h.cancel ?_)
      rintro rfl
      rw [h.no_caller] at hCaller
      cases hCaller
    | release =>
      refine .inl { h.toTended.release with no_caller := h.no_caller, waits := ?_ }
      rw [store_release]
      exact release_waits hStatus hWaits

/-- A transition that was begun is under way, under any survey whose contract it keeps. -/
theorem Begun.crossing {transition : Transition} (h : Begun db callers transition a s)
    (hRests : R [] s.store.live.manager)
    (hMeets : Meets (survey s.store.live R mayBreak)
      (Surveyed s.store.live [] s.store.live.manager s.store.live.tunnels) (transition.action db)
      fun r => post ⟨r, []⟩)
    (hCancelled : mayBreak → ∀ store, (survey s.store.live R mayBreak).rests store →
      post ⟨.error .cancelled, []⟩ store) :
    Crossing db callers a (survey s.store.live R mayBreak) post s where
  toTended := h.toTended
  no_caller := h.no_caller
  waits := by
    have hStart := surveyed_start s.store
    refine ⟨_, h.beginner, .inl rfl, hStart.rests hRests, fun store r hServed hComes => ?_⟩
    have hNow := hStart.of_served hServed
    rcases hComes with rfl | ⟨hBreak, rfl⟩
    · exact Routine.keeps_bind (hMeets store hNow)
    · exact hCancelled hBreak store (hNow.rests hRests)

end

theorem calm_start :
    Calm db (fun _ => none) { database := db, store := { live := { forecast } } } :=
  ⟨⟨_, governed_start⟩, nofun⟩

end Scheduler

end SqlWeave
