import SqlWeave.Proofs.Live.Linked
import SqlWeave.Proofs.Live.Managed

/-!
# How often routines wait

A routine that waits a bounded number of times, and for no goal, is done after its thread has run
that often and once more.  Its thread is always in the queue, or will be when what hangs is let go,
so nothing keeps it from its end.

## Main results

* `brief_close`: how often the closing of a connection waits.
* `Scheduler.resumed_le`: how often a thread runs.
-/

namespace SqlWeave

open SqlWeave.Action Manager

/-- The routine waits so often at most on each way to its end, and for no goal. -/
def Routine.IsBrief {σ α : Type} : Nat → Routine σ α → Prop
  | _, .done _ => True
  | n, .step _ next => ∀ s, (next s).IsBrief n
  | n, .wait on next => (∀ goal, on ≠ .goal goal) ∧ 0 < n ∧ ∀ r, (next r).IsBrief (n - 1)

/-- The action waits so often at most. -/
def Action.IsBrief {σ α : Type} (n : Nat) (action : Action σ α) : Prop :=
  Routine.IsBrief n action

section

variable {σ α β : Type} {n m : Nat}

theorem Routine.IsBrief.mono {routine : Routine σ α} (h : routine.IsBrief n) (hLe : n ≤ m) :
    routine.IsBrief m := by
  induction routine generalizing n m with
  | done a => trivial
  | step change next ih => exact fun s => ih s (h s) hLe
  | wait on next ih => exact ⟨h.1, by have := h.2.1; omega, fun r => ih r (h.2.2 r) (by omega)⟩

/-- A routine after another one. -/
theorem Routine.brief_bind {routine : Routine σ α} {f : α → Routine σ β} (h : routine.IsBrief n)
    (hf : ∀ a, (f a).IsBrief m) : (routine.bind f).IsBrief (n + m) := by
  induction routine generalizing n with
  | done a => exact (hf a).mono (Nat.le_add_left m n)
  | step change next ih => exact fun s => ih s (h s)
  | wait on next ih =>
    obtain ⟨hOn, hPos, hNext⟩ := h
    refine ⟨hOn, by omega, fun r => ?_⟩
    rw [Nat.sub_add_comm hPos]
    exact ih r (hNext r)

/-! ## Actions -/

namespace Action

theorem brief_bind {a : Action σ α} {f : α → Action σ β} (h : a.IsBrief n)
    (hf : ∀ x, (f x).IsBrief m) : (a >>= f).IsBrief (n + m) := by
  refine Routine.brief_bind h fun r => ?_
  cases r with
  | ok x => exact hf x
  | error e => exact trivial

theorem brief_outcome_bind {a : Action σ α} {f : Result α → Action σ β} (h : a.IsBrief n)
    (hf : ∀ r, (f r).IsBrief m) : (a.outcome >>= f).IsBrief (n + m) :=
  brief_bind (Routine.brief_bind (m := 0) h fun _ => trivial) hf

theorem brief_ensuring {a : Action σ α} {cleanup : Action σ Unit} (h : a.IsBrief n)
    (hCleanup : cleanup.IsBrief m) : (ensuring a cleanup).IsBrief (n + m) :=
  brief_outcome_bind h fun _ => brief_bind (m := 0) hCleanup fun _ => trivial

theorem brief_quietly {a : Action σ Unit} (h : a.IsBrief n) : (quietly a).IsBrief n := by
  refine brief_outcome_bind (m := 0) h fun r => ?_
  cases r with
  | ok x => trivial
  | error f =>
    show Action.IsBrief 0 (if f.isFailure = true then _ else _)
    split <;> trivial

/-- An action that takes no time, and then another one. -/
theorem brief_onLive_bind {f : Live → α × Live} {g : α → Action Store β}
    (h : ∀ x, (g x).IsBrief n) : (onLive f >>= g).IsBrief n :=
  fun s => h (f s.live).1

/-- A call waits for its turn and for a release at most. -/
theorem brief_call (c : Call) : (call c).IsBrief (if c.kind.isImmediate then 0 else 2) := by
  refine brief_onLive_bind fun e => ?_
  cases c.kind.isImmediate with
  | true => trivial
  | false =>
    refine ⟨fun _ => nofun, by decide, fun r => ?_⟩
    cases r with
    | error f => trivial
    | ok v =>
      show Action.IsBrief 1 (if e.hangs = true then _ else _)
      split
      · refine ⟨fun _ => nofun, by decide, fun r => ?_⟩
        cases r <;> trivial
      · trivial

end Action

/-- Two calls one after another, of which the first one is immediate. -/
theorem brief_calls {c c' : Call} (h : c.kind.isImmediate = true) {action : Action Store Unit}
    (hAction : action.IsBrief n) : Action.IsBrief (2 + n) (do
      let _ ← call c
      let _ ← call c'
      action) := by
  have hFirst : (call c).IsBrief 0 := by
    have hCall := brief_call c
    rwa [h] at hCall
  have hSecond : (call c').IsBrief 2 := (brief_call c').mono (by split <;> decide)
  have hAll := brief_bind hFirst fun _ => brief_bind hSecond fun _ => hAction
  rwa [Nat.zero_add] at hAll

/-- Closing a tunnel. -/
theorem brief_closeTunnel (t : Nat) : (Tunnel.close t).IsBrief 4 := by
  refine brief_onLive_bind fun opened => ?_
  have hConnection : Action.IsBrief 2 (if opened.hasConnection = true then do
      let _ ← call (.sshClose t)
      let _ ← call (.sshWaitClosed t)
      pure ()
    else pure () : Action Store Unit) := by
    split
    · exact brief_calls (n := 0) rfl trivial
    · trivial
  show Action.IsBrief 4 (if opened.listener.isSome = true then _ else _)
  split
  · exact brief_calls (n := 2) rfl hConnection
  · exact hConnection.mono (by decide)

/-- Closing the connection. -/
theorem brief_close : Manager.close.IsBrief 6 := by
  have hDown : takeDown.IsBrief 6 := by
    refine brief_onLive_bind fun pool => ?_
    rcases pool with _ | pool
    on_goal 2 =>
      have hPool : Action.IsBrief 2 (do
          let _ ← call (.poolClose pool)
          let _ ← call (.poolWaitClosed pool)
          pure () : Action Store Unit) := brief_calls (n := 0) rfl trivial
      refine brief_bind (m := 4) (brief_quietly hPool) fun _ => ?_
    all_goals
      refine Routine.IsBrief.mono (n := 4) (brief_onLive_bind fun tunnel => ?_) (by decide)
      cases tunnel with
      | none => trivial
      | some t => exact brief_quietly (brief_closeTunnel t)
  refine brief_bind (m := 0) (brief_ensuring (m := 0) hDown ?_) fun _ => trivial
  exact fun _ _ => trivial

end

/-! ## Threads -/

/-- The thread is done, or runs so often at most until it is. -/
def ThreadStatus.RunsAtMost (n : Nat) : ThreadStatus → Prop
  | .ready _ (.go next) | .hanging (.go next) => 0 < n ∧ ∀ r, (next r).IsBrief (n - 1)
  | .finished _ => True
  | _ => False

theorem ThreadStatus.RunsAtMost.not_isFollowing {n : Nat} {status : ThreadStatus}
    (h : status.RunsAtMost n) : ¬ status.IsFollowing := by
  cases status with
  | following v go => exact h.elim
  | _ => exact id

namespace Scheduler

variable {db : Database} {callers callers' : Callers} {s s' : Scheduler} {a n k : Nat}

/-- A thread runs until it waits once more, or until it ends. -/
theorem advance_brief {routine : Routine Store Report} (h : routine.IsBrief n) :
    ∃ status, (s.advance a routine).threads = s.threads.set a status ∧ status.RunsAtMost n := by
  induction routine generalizing s n with
  | done report => exact ⟨.finished report, rfl, trivial⟩
  | step change next ih => exact ih s.store (s := { s with store := change s.store }) (h s.store)
  | wait on next ih =>
    obtain ⟨hOn, hPos, hNext⟩ := h
    cases on with
    | turn => exact ⟨.ready (.ok .null) (.go next), rfl, hPos, hNext⟩
    | release =>
      rw [advance]
      split
      · exact ih (.ok .null) ((hNext _).mono (Nat.sub_le n 1))
      · exact ⟨.hanging (.go next), rfl, hPos, hNext⟩
    | goal goal => exact absurd rfl (hOn goal)

/-- What can come of a scheduler in turns in which a thread runs so often at least. -/
inductive Resumed (db : Database) (a : Nat) (callers : Callers) (s : Scheduler) :
    Nat → Callers → Scheduler → Prop
  | refl : Resumed db a callers s 0 callers s
  | turn {n : Nat} {callers' callers'' : Callers} {s' s'' : Scheduler}
      (h : Resumed db a callers s n callers' s') (hTurn : Turn db callers' s' callers'' s'') :
      Resumed db a callers s n callers'' s''
  | run {n : Nat} {callers' : Callers} {s' : Scheduler} (h : Resumed db a callers s n callers' s')
      {i : Nat} (hRunner : s'.runner i = some a) :
      Resumed db a callers s (n + 1) callers' (s'.fire i)

/-- A thread that no caller has started is done, or runs so often at most until it is. -/
def RunsAtMost (a n : Nat) (callers : Callers) (s : Scheduler) : Prop :=
  callers a = none ∧ ∃ status, s.threads[a]? = some status ∧ status.RunsAtMost n

/-- When it runs it has once less to run. -/
theorem RunsAtMost.run (h : s.RunsAtMost a n callers) {i : Nat} (hRunner : s.runner i = some a) :
    0 < n ∧ (s.fire i).RunsAtMost a (n - 1) callers := by
  obtain ⟨hNone, status, hStatus, hRuns⟩ := h
  have hLt := (List.getElem?_eq_some_iff.mp hStatus).1
  obtain ⟨-, r, go, hReady⟩ := runner_eq_some.mp hRunner
  rw [hStatus] at hReady
  cases hReady
  cases go with
  | retry goal next => exact hRuns.elim
  | go next =>
    obtain ⟨status', hThreads, hRuns'⟩ :=
      advance_brief (s := { s with queue := s.queue.eraseIdx i }) (a := a) (hRuns.2 r)
    refine ⟨hRuns.1, hNone, status', ?_, hRuns'⟩
    rw [fire_of_runner hRunner hStatus, proceed, hThreads]
    exact List.getElem?_set_self hLt

theorem RunsAtMost.mono (h : s.RunsAtMost a n callers) (hLe : n ≤ k) :
    s.RunsAtMost a k callers := by
  obtain ⟨hNone, status, hStatus, hRuns⟩ := h
  refine ⟨hNone, status, hStatus, ?_⟩
  cases status with
  | ready r go | hanging go =>
    cases go with
    | go next => exact ⟨by have := hRuns.1; omega, fun r => (hRuns.2 r).mono (by omega)⟩
    | retry goal next => exact hRuns.elim
  | following v go => exact hRuns.elim
  | finished report => trivial

/-- No turn makes it run more often. -/
theorem RunsAtMost.turn (h : s.RunsAtMost a n callers) (hTurn : Turn db callers s callers' s') :
    s'.RunsAtMost a n callers' := by
  obtain ⟨hNone, status, hStatus, hRuns⟩ := h
  have hLt := (List.getElem?_eq_some_iff.mp hStatus).1
  cases hTurn with
  | call o =>
    exact ⟨(Function.update_of_ne hLt.ne _ _).trans hNone, status,
      (List.getElem?_append_left hLt).trans hStatus, hRuns⟩
  | fire i =>
    by_cases hRunner : s.runner i = some a
    · exact (RunsAtMost.run ⟨hNone, status, hStatus, hRuns⟩ hRunner).2.mono (Nat.sub_le n 1)
    · exact ⟨hNone, status, getElem?_fire hRunner hStatus hRuns.not_isFollowing, hRuns⟩
  | @cancel t hCaller =>
    have hNe : t ≠ a := by
      rintro rfl
      rw [hNone] at hCaller
      cases hCaller
    exact ⟨hNone, status, (getElem?_cancel hNe).trans hStatus, hRuns⟩
  | release =>
    rcases getElem?_release hStatus with hSame | ⟨go, rfl, hReady⟩
    · exact ⟨hNone, status, hSame, hRuns⟩
    · refine ⟨hNone, .ready (.ok .null) go, hReady, ?_⟩
      cases go with
      | go next => exact hRuns
      | retry goal next => exact hRuns.elim

/-- A thread runs so often at most. -/
theorem resumed_le (h : s.RunsAtMost a k callers) (hResumed : Resumed db a callers s n callers' s') :
    n ≤ k := by
  have hAll : n ≤ k ∧ s'.RunsAtMost a (k - n) callers' := by
    induction hResumed with
    | refl => exact ⟨Nat.zero_le k, h⟩
    | turn _ hTurn ih => exact ⟨ih.1, ih.2.turn hTurn⟩
    | run _ hRunner ih =>
      obtain ⟨hPos, hRuns⟩ := ih.2.run hRunner
      exact ⟨by omega, hRuns⟩
  exact hAll.1

/-! ## Threads that are due -/

/-- The thread is to go on, and will when its turn comes. -/
def IsDue (a : Nat) (s : Scheduler) : Prop :=
  (∃ r go, s.threads[a]? = some (.ready r go)) ∧ .resume a ∈ s.queue

/-- A thread that still hangs was not let go. -/
theorem hanging_of_letGo {t : Nat} {go : Continuation}
    (h : (s.letGo t).threads[a]? = some (.hanging go)) :
    a ≠ t ∧ s.threads[a]? = some (.hanging go) := by
  rw [Scheduler.letGo] at h
  split at h
  · rename_i other hHanging
    have hLt := (List.getElem?_eq_some_iff.mp hHanging).1
    have hSet : (s.threads.set t (.ready (.ok .null) other))[a]? = some (.hanging go) := h
    by_cases hSame : t = a
    · subst hSame
      rw [List.getElem?_set_self hLt] at hSet
      cases hSet
    · exact ⟨Ne.symm hSame, (List.getElem?_set_ne hSame).symm.trans hSet⟩
  · rename_i hNot
    refine ⟨?_, h⟩
    rintro rfl
    exact hNot go h

theorem hanging_of_foldl_letGo {threads : List Nat} {go : Continuation}
    (h : (threads.foldl Scheduler.letGo s).threads[a]? = some (.hanging go)) :
    a ∉ threads ∧ s.threads[a]? = some (.hanging go) := by
  induction threads generalizing s with
  | nil => exact ⟨List.not_mem_nil, h⟩
  | cons t rest ih =>
    obtain ⟨hNotMem, hHanging⟩ := ih h
    obtain ⟨hNe, hBefore⟩ := hanging_of_letGo hHanging
    exact ⟨List.not_mem_cons_of_ne_of_not_mem hNe hNotMem, hBefore⟩

/-- A thread that hangs is ready when what hangs is let go. -/
theorem getElem?_release_of_hanging {go : Continuation}
    (hStatus : s.threads[a]? = some (.hanging go)) :
    s.release.threads[a]? = some (.ready (.ok .null) go) := by
  have hMem := List.mem_range.mpr (List.getElem?_eq_some_iff.mp hStatus).1
  rcases getElem?_release hStatus with hSame | ⟨other, hEq, hReady⟩
  · exact absurd hMem (hanging_of_foldl_letGo hSame).1
  · cases hEq
    exact hReady

/-- A thread that waits is due, or it is when what hangs is let go. -/
theorem isDue_or_release (hLinked : s.Linked) {status : ThreadStatus}
    (hStatus : s.threads[a]? = some status) (hNot : ¬ status.IsFollowing)
    (hRuns : ∀ report, status ≠ .finished report) : s.IsDue a ∨ s.release.IsDue a := by
  cases status with
  | ready r go => exact .inl ⟨⟨r, go, hStatus⟩, hLinked.ready a r go nofun hStatus⟩
  | hanging go =>
    have hReady := getElem?_release_of_hanging hStatus
    exact .inr ⟨⟨_, go, hReady⟩, hLinked.release.ready a _ go nofun hReady⟩
  | following v go => exact absurd trivial hNot
  | finished report => exact absurd rfl (hRuns report)

end Scheduler

end SqlWeave
