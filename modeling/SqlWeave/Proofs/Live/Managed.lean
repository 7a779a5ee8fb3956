import SqlWeave.Proofs.Live.Attempt
import SqlWeave.Proofs.Live.Turns

/-!
# One transition at a time

Whatever callers do, at most one transition is carried out at a time: while one is pending its
thread is the only one beside the callers that has not ended, and it keeps its contract among
them; while none is pending, a turn begins one or leaves the manager as it is.

## Main results

* `Governed.fire_cases`: what comes of the queue when whoever carries out a transition does not run.
* `Resting.turn`, `Transiting.turn`: what a turn makes of either state.
* `Managed.of_course`: the manager is in one of the two throughout every course of turns.
-/

namespace SqlWeave

open SqlWeave.Action Manager

namespace Scheduler

variable {db : Database} {forecast : Forecast} {callers callers' : Callers} {s s' : Scheduler}
  {a : Nat} {phase : Phase} {post : Report → Store → Prop}

/-! ## Transitions -/

/-- The threads that no caller has started have ended, but for one. -/
def OthersDone (callers : Callers) (except : Option Nat) (s : Scheduler) : Prop :=
  ∀ v, v < s.threads.length → callers v = none → some v ≠ except →
    ∃ report, s.threads[v]? = some (.finished report)

/-- What holds of a scheduler whether a transition is pending or not. -/
structure Tended (db : Database) (callers : Callers) (pending : Option Nat) (s : Scheduler) :
    Prop where
  governed : ∃ own, Governed db callers own s
  pending_eq : s.store.live.manager.pending = pending
  done : OthersDone callers pending s

/-- No transition is pending. -/
abbrev Resting (db : Database) (callers : Callers) (s : Scheduler) : Prop :=
  Tended db callers none s

/-- A thread carries out a transition. -/
structure Transiting (db : Database) (callers : Callers) (a : Nat) (phase : Phase)
    (post : Report → Store → Prop) (s : Scheduler) : Prop extends Tended db callers (some a) s where
  phase_eq : s.store.live.manager.phase = phase
  no_caller : callers a = none
  attends : ∃ status, s.threads[a]? = some status ∧
    status.Attends (amongClients a phase) post s.store

theorem Transiting.lt (h : Transiting db callers a phase post s) : a < s.threads.length := by
  obtain ⟨status, hStatus, -⟩ := h.attends
  exact (List.getElem?_eq_some_iff.mp hStatus).1

/-- Threads that have ended stay so when others run, are cancelled or are let go. -/
theorem OthersDone.of_finished {except : Option Nat} (h : OthersDone callers except s)
    (hLength : s'.threads.length = s.threads.length)
    (hFinished : ∀ v report, callers v = none → s.threads[v]? = some (.finished report) →
      s'.threads[v]? = some (.finished report)) : OthersDone callers except s' := by
  intro v hLt hNone hNe
  obtain ⟨report, hReport⟩ := h v (hLength ▸ hLt) hNone hNe
  exact ⟨report, hFinished v report hNone hReport⟩

theorem OthersDone.fire {except : Option Nat} (h : OthersDone callers except s) {i v : Nat}
    {status : ThreadStatus} (hThreads : (s.fire i).threads = s.threads.set v status) :
    OthersDone callers except (s.fire i) :=
  h.of_finished (by rw [hThreads, List.length_set]) fun _ _ _ hReport => report?_fire hReport i

/-- The one thread beside them has ended as well. -/
theorem OthersDone.ended {report : Report} (h : OthersDone callers (some a) s)
    (hReport : s.threads[a]? = some (.finished report)) : OthersDone callers none s := by
  intro v hLt hNone _
  by_cases hSame : v = a
  · exact ⟨report, hSame ▸ hReport⟩
  · exact h v hLt hNone fun hEq => hSame (Option.some.inj hEq)

/-- Whoever runs is a caller, or carries out the pending transition. -/
theorem OthersDone.caller_of_runner {except : Option Nat} (h : OthersDone callers except s)
    {i v : Nat} (hRunner : s.runner i = some v) (hNe : some v ≠ except) :
    ∃ o, callers v = some o := by
  obtain ⟨-, r, go, hReady⟩ := runner_eq_some.mp hRunner
  refine Option.ne_none_iff_exists'.mp fun hNone => ?_
  obtain ⟨report, hReport⟩ := h v (List.getElem?_eq_some_iff.mp hReady).1 hNone hNe
  rw [hReady] at hReport
  cases hReport

theorem OthersDone.call {except : Option Nat} (h : OthersDone callers except s) (o : Operation) :
    OthersDone (Function.update callers s.threads.length (some o)) except
      (s.spawn (o.routine db)).2 := by
  intro v hLt hNone hNe
  have hOld : v ≠ s.threads.length := by
    rintro rfl
    rw [Function.update_self] at hNone
    cases hNone
  rw [Function.update_of_ne hOld] at hNone
  have hLength : (s.spawn (o.routine db)).2.threads.length = s.threads.length + 1 :=
    List.length_append
  obtain ⟨report, hReport⟩ := h v (by omega) hNone hNe
  exact ⟨report, (List.getElem?_append_left
    (List.getElem?_eq_some_iff.mp hReport).1).trans hReport⟩

/-- What is done while nothing runs changes neither the store nor what has ended. -/
theorem Tended.of_still {pending : Option Nat} (h : Tended db callers pending s)
    (hGoverned : ∃ own, Governed db callers own s') (hStore : s'.store = s.store)
    (hLength : s'.threads.length = s.threads.length)
    (hFinished : ∀ v report, callers v = none → s.threads[v]? = some (.finished report) →
      s'.threads[v]? = some (.finished report)) : Tended db callers pending s' where
  governed := hGoverned
  pending_eq := hStore ▸ h.pending_eq
  done := h.done.of_finished hLength hFinished

/-- The custody of a caller. -/
theorem custody_of_caller {v : Nat} {o : Operation} (h : callers v = some o) :
    custody callers v = clients o.transaction := by
  rw [custody, h]

/-- One of the things in the queue is done, and the one thread that may be left beside the callers
does not run: clients are at work, or a caller begins a transition. -/
theorem Governed.fire_cases {own : Nat → Hand} {except : Option Nat}
    (h : Governed db callers own s) (hDone : OthersDone callers except s) (i : Nat)
    (hOther : ∀ v, s.runner i = some v → some v ≠ except) :
    OthersDone callers except (s.fire i) ∧ s.store.Served (s.fire i).store ∨
      ∃ v status transition store, s.runner i = some v ∧ v < s.threads.length ∧
        s.store.Served store ∧ store.live.manager.pending = none ∧
        (s.fire i).store = store.onManager (Manager.begun transition s.threads.length) ∧
        (s.fire i).threads = (s.threads ++ [beginner s.database transition]).set v status := by
  obtain ⟨own', -, hFired⟩ := h.fire i
  unfold Fired at hFired
  cases hRunner : s.runner i with
  | none =>
    simp only [hRunner] at hFired
    refine .inl ⟨hDone.of_finished hFired.2 fun v report _ hReport => report?_fire hReport i, ?_⟩
    rw [hFired.1]
    exact .refl _
  | some v =>
    simp only [hRunner] at hFired
    obtain ⟨status, hAdvanced⟩ := hFired
    obtain ⟨o, ho⟩ := hDone.caller_of_runner hRunner (hOther v hRunner)
    rw [custody_of_caller ho] at hAdvanced
    cases hAdvanced with
    | alone hStore hThreads => exact .inl ⟨hDone.fire hThreads, hStore.toServed⟩
    | beginning transition store hStore hNone hBegun hThreads =>
      exact .inr ⟨v, status, transition, store, rfl, h.callers_lt v o ho, hStore.toServed, hNone,
        hBegun, hThreads⟩

/-- One of the things in the queue is done while a transition is pending: the thread that carries
it out runs, or clients are at work. -/
theorem Tended.fire (h : Tended db callers (some a) s) (i : Nat) :
    (∃ own, Governed db callers own (s.fire i)) ∧
      (s.runner i ≠ some a →
        Tended db callers (some a) (s.fire i) ∧ s.store.Served (s.fire i).store) := by
  obtain ⟨own, hGoverned⟩ := h.governed
  obtain ⟨own', hGoverned', -⟩ := hGoverned.fire i
  refine ⟨⟨own', hGoverned'⟩, fun hOther => ?_⟩
  rcases hGoverned.fire_cases h.done i fun v hRunner hEq => hOther (hRunner.trans hEq) with
    ⟨hDone, hServed⟩ | ⟨v, status, transition, store, -, -, hServed, hNone, -⟩
  · exact ⟨⟨⟨own', hGoverned'⟩, hServed.manager ▸ h.pending_eq, hDone⟩, hServed⟩
  · rw [hServed.manager, h.pending_eq] at hNone
    cases hNone

/-- One of the things in the queue is done while a transition is carried out. -/
theorem Transiting.fire (h : Transiting db callers a phase post s)
    (hPost : ∀ report store, post report store → store.live.manager.pending ≠ some a) (i : Nat) :
    Transiting db callers a phase post (s.fire i) ∨
      ∃ report, (s.fire i).threads[a]? = some (.finished report) ∧
        post report (s.fire i).store ∧ (∃ own, Governed db callers own (s.fire i)) ∧
        OthersDone callers none (s.fire i) := by
  obtain ⟨hGoverned, hClients⟩ := h.toTended.fire i
  obtain ⟨status, hStatus, hAttends⟩ := h.attends
  by_cases hRunner : s.runner i = some a
  · obtain ⟨status', hThreads, hAttends'⟩ :=
      fire_attends (isShared_amongClients a phase) hRunner hStatus hAttends
    have hGet : (s.fire i).threads[a]? = some status' := by
      rw [hThreads]
      exact List.getElem?_set_self h.lt
    have hDone : OthersDone callers (some a) (s.fire i) := h.done.fire hThreads
    have hOn : (amongClients a phase).rests (s.fire i).store →
        Transiting db callers a phase post (s.fire i) := fun hRests =>
      { governed := hGoverned, pending_eq := hRests.1, done := hDone, phase_eq := hRests.2,
        no_caller := h.no_caller, attends := ⟨status', hGet, hAttends'⟩ }
    cases status' with
    | ready r go =>
      cases go with
      | go next => exact .inl (hOn hAttends'.1)
      | retry goal next => exact absurd hAttends' id
    | hanging go =>
      cases go with
      | go next => exact .inl (hOn hAttends'.1)
      | retry goal next => exact absurd hAttends' id
    | following w go => exact absurd hAttends' id
    | finished report => exact .inr ⟨report, hGet, hAttends', hGoverned, hDone.ended hGet⟩
  · obtain ⟨hTended, hServed⟩ := hClients hRunner
    refine .inl { hTended with
      phase_eq := hServed.manager ▸ h.phase_eq
      no_caller := h.no_caller
      attends := ⟨status, getElem?_fire hRunner hStatus hAttends.not_isFollowing, ?_⟩ }
    refine hAttends.of_rely (isShared_amongClients a phase) hServed ?_
    rintro report rfl hConcluded
    exact absurd h.pending_eq (hPost report _ hConcluded)

theorem Tended.call {pending : Option Nat} (hLive : db.backend = .live)
    (h : Tended db callers pending s) (o : Operation) :
    Tended db (Function.update callers s.threads.length (some o)) pending
      (s.spawn (o.routine db)).2 where
  governed := by
    obtain ⟨own, hGoverned⟩ := h.governed
    exact hGoverned.call hLive o
  pending_eq := h.pending_eq
  done := h.done.call o

theorem Tended.cancel {pending : Option Nat} (h : Tended db callers pending s) (t : Nat) :
    Tended db callers pending (s.cancel t) := by
  obtain ⟨own, hGoverned⟩ := h.governed
  exact h.of_still ⟨own, hGoverned.cancel t⟩ (store_cancel s t) (length_cancel s t)
    fun v report _ hReport => report?_cancel hReport t

theorem Tended.release {pending : Option Nat} (h : Tended db callers pending s) :
    Tended db callers pending s.release := by
  obtain ⟨own, hGoverned⟩ := h.governed
  exact h.of_still ⟨own, hGoverned.release⟩ (store_release s) (length_release s)
    fun v report _ hReport => report?_release hReport

/-- While a transition is carried out a turn leaves it under way, or ends it. -/
theorem Transiting.turn (hLive : db.backend = .live) (h : Transiting db callers a phase post s)
    (hPost : ∀ report store, post report store → store.live.manager.pending ≠ some a)
    (hTurn : Turn db callers s callers' s') :
    Transiting db callers' a phase post s' ∨
      ∃ report, s'.threads[a]? = some (.finished report) ∧ post report s'.store ∧
        (∃ own, Governed db callers' own s') ∧ OthersDone callers' none s' := by
  obtain ⟨status, hStatus, hAttends⟩ := h.attends
  cases hTurn with
  | call o =>
    refine .inl { h.toTended.call hLive o with
      phase_eq := h.phase_eq
      no_caller := (Function.update_of_ne h.lt.ne _ _).trans h.no_caller
      attends := ⟨status, (List.getElem?_append_left h.lt).trans hStatus, hAttends⟩ }
  | fire i => exact h.fire hPost i
  | @cancel t hCaller =>
    have hNe : t ≠ a := by
      rintro rfl
      rw [h.no_caller] at hCaller
      cases hCaller
    refine .inl { h.toTended.cancel t with
      phase_eq := by rw [store_cancel]; exact h.phase_eq
      no_caller := h.no_caller
      attends := ⟨status, (getElem?_cancel hNe).trans hStatus, ?_⟩ }
    rw [store_cancel]
    exact hAttends
  | release =>
    obtain ⟨status', hStatus', hAttends'⟩ := release_attends hStatus hAttends
    refine .inl { h.toTended.release with
      phase_eq := by rw [store_release]; exact h.phase_eq
      no_caller := h.no_caller
      attends := ⟨status', hStatus', ?_⟩ }
    rw [store_release]
    exact hAttends'

/-- A thread that runs starts no thread, or it follows the one that it has started. -/
theorem advance_starts {v : Nat} (hLt : v < s.threads.length) (routine : Routine Store Report) :
    (s.advance v routine).threads.length = s.threads.length ∨
      ∃ next, (s.advance v routine).threads[v]? =
        some (.following s.threads.length (.go next)) := by
  induction routine generalizing s with
  | done report => exact .inl List.length_set
  | step change next ih => exact ih s.store (s := { s with store := change s.store }) hLt
  | wait on next ih =>
    cases on with
    | turn => exact .inl List.length_set
    | release =>
      rw [advance]
      split
      · exact ih _ hLt
      · exact .inl List.length_set
    | goal goal =>
      rw [advance, seek]
      cases s.store.live.manager.pursuit goal with
      | reached value => exact ih _ hLt
      | «begin» transition =>
        refine .inr ⟨next, List.getElem?_set_self ?_⟩
        exact List.length_append ▸ Nat.lt_add_right 1 hLt
      | follow w isFinal =>
        cases hReport : s.report? w with
        | some report =>
          simp only [hReport]
          exact ih _ hLt
        | none =>
          simp only [hReport]
          exact .inl List.length_set

theorem fire_starts {i v : Nat} (hRunner : s.runner i = some v) :
    (s.fire i).threads.length = s.threads.length ∨
      ∃ next, (s.fire i).threads[v]? = some (.following s.threads.length (.go next)) := by
  obtain ⟨-, r, go, hReady⟩ := runner_eq_some.mp hRunner
  have hLt : v < s.threads.length := (List.getElem?_eq_some_iff.mp hReady).1
  rw [fire_of_runner hRunner hReady]
  cases go with
  | go next => exact advance_starts (s := { s with queue := s.queue.eraseIdx i }) hLt _
  | retry goal next =>
    rw [proceed]
    split
    · exact advance_starts (s := { s with queue := s.queue.eraseIdx i }) hLt _
    · exact advance_starts (s := { s with queue := s.queue.eraseIdx i }) hLt _

/-- Someone follows a transition whose outcome is final for the follower. -/
def IsFollowed (a : Nat) (s : Scheduler) : Prop :=
  ∃ (v : Nat) (next : Result Value → Routine Store Report),
    s.threads[v]? = some (.following a (.go next))

/-- A transition was begun, in a thread that has not run yet, and someone follows it. -/
structure Begun (db : Database) (callers : Callers) (transition : Transition) (a : Nat)
    (s : Scheduler) : Prop extends Tended db callers (some a) s where
  phase_eq : s.store.live.manager.phase = transition.phase
  no_caller : callers a = none
  beginner : s.threads[a]? = some (beginner db transition)
  isFollowed : s.IsFollowed a

/-- One of the things in the queue is done while all but callers have ended: clients are at work,
or one of them begins a transition. -/
theorem Governed.fire_of_done {own : Nat → Hand} (h : Governed db callers own s)
    (hDone : OthersDone callers none s) (i : Nat) :
    OthersDone callers none (s.fire i) ∧ s.store.Served (s.fire i).store ∨
      ∃ transition store, s.store.Served store ∧ store.live.manager.pending = none ∧
        (s.fire i).store = store.onManager (Manager.begun transition s.threads.length) ∧
        Begun db callers transition s.threads.length (s.fire i) := by
  obtain ⟨own', hGoverned', -⟩ := h.fire i
  rcases h.fire_cases hDone i fun _ _ => nofun with
    hClients | ⟨v, status, transition, store, hRunner, hLt, hServed, hNone, hBegun, hThreads⟩
  · exact .inl hClients
  · have hLength : (s.fire i).threads.length = s.threads.length + 1 := by
      rw [hThreads, List.length_set, List.length_append, List.length_singleton]
    refine .inr ⟨transition, store, hServed, hNone, hBegun,
      ⟨⟨⟨own', hGoverned'⟩, ?_, ?_⟩, ?_, ?_, ?_, ?_⟩⟩
    · rw [hBegun]
      rfl
    · intro w hw hCaller hNe
      have hNew : w ≠ s.threads.length := fun hEq => hNe (congrArg some hEq)
      obtain ⟨report, hReport⟩ := hDone w (by omega) hCaller nofun
      exact ⟨report, report?_fire hReport i⟩
    · rw [hBegun]
      rfl
    · exact h.callers_next
    · rw [hThreads, List.getElem?_set_ne hLt.ne, h.database]
      exact List.getElem?_concat_length
    · exact ⟨v, (fire_starts hRunner).resolve_left (by omega)⟩

/-- While no transition is pending the manager stays as it is, or one is begun. -/
theorem Resting.fire (h : Resting db callers s) (i : Nat) :
    Resting db callers (s.fire i) ∧ (s.fire i).store.live.manager = s.store.live.manager ∨
      ∃ transition, Begun db callers transition s.threads.length (s.fire i) := by
  obtain ⟨own, hGoverned⟩ := h.governed
  obtain ⟨own', hGoverned', -⟩ := hGoverned.fire i
  rcases hGoverned.fire_of_done h.done i with
    ⟨hDone, hServed⟩ | ⟨transition, store, -, -, -, hBegun⟩
  · exact .inl ⟨⟨⟨own', hGoverned'⟩, hServed.manager ▸ h.pending_eq, hDone⟩, hServed.manager⟩
  · exact .inr ⟨transition, hBegun⟩

/-- While no transition is pending a turn leaves the manager as it is, or one is begun. -/
theorem Resting.turn (hLive : db.backend = .live) (h : Resting db callers s)
    (hTurn : Turn db callers s callers' s') :
    Resting db callers' s' ∧ s'.store.live.manager = s.store.live.manager ∨
      ∃ transition, Begun db callers' transition s.threads.length s' := by
  cases hTurn with
  | call o => exact .inl ⟨h.call hLive o, rfl⟩
  | fire i => exact h.fire i
  | cancel _ => exact .inl ⟨Tended.cancel h _, by rw [store_cancel]⟩
  | release => exact .inl ⟨Tended.release h, by rw [store_release]⟩

/-- A transition that was begun is under way. -/
theorem underway_start {start : Live} {store : Store} (hStart : start = store.live)
    (hPending : store.live.manager.pending = some a) (hPhase : store.live.manager.phase = phase) :
    Underway start a phase start.tunnels.length (fun _ _ => True) (· = {}) store := by
  subst hStart
  exact ⟨hPending, hPhase, rfl, trivial, [], (List.append_nil _).symm, rfl, rfl⟩

theorem Transition.phase_ne_connected (transition : Transition) : transition.phase ≠ .connected := by
  cases transition <;> nofun

/-- A transition that was begun keeps its contract. -/
theorem Begun.transiting {transition : Transition} (h : Begun db callers transition a s)
    (hMeets : Meets (amongClients a transition.phase)
      (Underway s.store.live a transition.phase s.store.live.tunnels.length (fun _ _ => True)
        (· = {})) (transition.action db) fun r => post ⟨r, []⟩) :
    Transiting db callers a transition.phase post s where
  toTended := h.toTended
  phase_eq := h.phase_eq
  no_caller := h.no_caller
  attends := by
    refine ⟨_, h.beginner, ⟨h.pending_eq, h.phase_eq⟩, rfl, fun s' hServed => ?_⟩
    have hUnderway := underway_start rfl h.pending_eq h.phase_eq
    exact Routine.keeps_bind (hMeets s' (hUnderway.of_served
      (Transition.phase_ne_connected transition) hServed))

/-- At its end no transition is pending. -/
def Settles (_ : Report) (store : Store) : Prop :=
  store.live.manager.pending = none

theorem Begun.settles {transition : Transition} (h : Begun db callers transition a s) :
    Transiting db callers a transition.phase Settles s := by
  refine h.transiting ?_
  cases transition with
  | establish =>
    exact attempted_establish.mono (fun s hs => hs) fun r s hs => hs.settled
  | close => exact settled_close nofun

/-- No transition is pending, or a thread carries out one. -/
def Managed (db : Database) (callers : Callers) (s : Scheduler) : Prop :=
  Resting db callers s ∨
    ∃ (a : Nat) (transition : Transition), Transiting db callers a transition.phase Settles s

theorem Settles.ne {report : Report} {store : Store} (h : Settles report store) :
    store.live.manager.pending ≠ some a := by
  rw [Settles] at h
  rw [h]
  nofun

theorem Managed.turn (hLive : db.backend = .live) (h : Managed db callers s)
    (hTurn : Turn db callers s callers' s') : Managed db callers' s' := by
  rcases h with hResting | ⟨a, transition, hTransiting⟩
  · rcases hResting.turn hLive hTurn with ⟨hStill, -⟩ | ⟨transition, hBegun⟩
    · exact .inl hStill
    · exact .inr ⟨_, transition, hBegun.settles⟩
  · rcases hTransiting.turn hLive (fun _ _ hSettles => hSettles.ne) hTurn with
      hOn | ⟨report, -, hSettles, hGoverned, hDone⟩
    · exact .inr ⟨a, transition, hOn⟩
    · exact .inl ⟨hGoverned, hSettles, hDone⟩

theorem Managed.of_course (hLive : db.backend = .live) (h : Managed db callers s)
    (hCourse : Course db callers s callers' s') : Managed db callers' s' := by
  induction hCourse with
  | refl => exact h
  | turn _ hTurn ih => exact ih.turn hLive hTurn

theorem managed_start :
    Managed db (fun _ => none) { database := db, store := { live := { forecast } } } :=
  .inl ⟨⟨_, governed_start⟩, rfl, nofun⟩

end Scheduler

end SqlWeave
