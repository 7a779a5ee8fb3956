import SqlWeave.Proofs.Live.Contract
import SqlWeave.Scheduler

/-!
# Threads of a scheduler

Whatever is done, only one thread runs, and the other ones stay where they are, unless they are
awakened: a thread that follows a transition when its outcome is passed on, one that hangs when
what hangs is let go, and either when it is cancelled.  A thread whose routine keeps a contract
attends to it as long as the others keep to their side.

## Main results

* `getElem?_advance`, `getElem?_fire`, `getElem?_cancel`, `getElem?_release`: where a thread
  stands after something was done that does not concern it.
* `fire_attends`: a thread that runs attends to its contract.
* `ThreadStatus.Attends.of_rely`: so does one that waits.
-/

namespace SqlWeave

/-- The thread follows a transition. -/
def ThreadStatus.IsFollowing : ThreadStatus → Prop
  | .following .. => True
  | _ => False

/-! ## Contracts of threads -/

/-- The others may do nothing, or one thing after another, and no wait fails. -/
structure Contract.IsShared (c : Contract Store) : Prop where
  refl : ∀ s, c.rely s s
  trans : ∀ s s' s'', c.rely s s' → c.rely s' s'' → c.rely s s''
  rests : ∀ s s', c.rests s → c.rely s s' → c.rests s'
  comes : ∀ s r, c.comes s r ↔ r = .ok .null

/-- The thread waits as its contract says and keeps it from here on, whatever the others do, or
it has ended as a postcondition says. -/
def ThreadStatus.Attends (c : Contract Store) (post : Report → Store → Prop) (s : Store) :
    ThreadStatus → Prop
  | .ready r (.go next) =>
    c.rests s ∧ r = .ok .null ∧ ∀ s', c.rely s s' → (next r).Keeps c post s'
  | .hanging (.go next) =>
    c.rests s ∧ ∀ s', c.rely s s' → (next (.ok .null)).Keeps c post s'
  | .finished report => post report s
  | _ => False

namespace ThreadStatus.Attends

variable {c : Contract Store} {post : Report → Store → Prop} {s s' : Store} {status : ThreadStatus}

theorem not_isFollowing (h : status.Attends c post s) : ¬ status.IsFollowing := by
  cases status with
  | following v go => exact absurd h id
  | _ => exact id

/-- The others have done something. -/
theorem of_rely (h : status.Attends c post s) (hShared : c.IsShared) (hRely : c.rely s s')
    (hPost : ∀ report, status = .finished report → post report s → post report s') :
    status.Attends c post s' := by
  cases status with
  | ready r go =>
    cases go with
    | go next =>
      obtain ⟨hRests, hOk, hKeeps⟩ := h
      exact ⟨hShared.rests s s' hRests hRely, hOk, fun s'' hRely' =>
        hKeeps s'' (hShared.trans s s' s'' hRely hRely')⟩
    | retry goal next => exact h
  | hanging go =>
    cases go with
    | go next =>
      obtain ⟨hRests, hKeeps⟩ := h
      exact ⟨hShared.rests s s' hRests hRely, fun s'' hRely' =>
        hKeeps s'' (hShared.trans s s' s'' hRely hRely')⟩
    | retry goal next => exact h
  | following v go => exact h
  | finished report => exact hPost report rfl h

end ThreadStatus.Attends

namespace Scheduler

variable {s : Scheduler} {u v : Nat}

/-- The thread that runs when a thing in the queue is done. -/
def runner (s : Scheduler) (i : Nat) : Option Nat :=
  match s.queue[i]? with
  | some (.resume t) =>
    match s.threads[t]? with
    | some (.ready ..) => some t
    | _ => none
  | _ => none

theorem runner_eq_some {i : Nat} : s.runner i = some u ↔
    s.queue[i]? = some (.resume u) ∧ ∃ r go, s.threads[u]? = some (.ready r go) := by
  unfold runner
  constructor
  · intro h
    split at h
    · rename_i t hHandle
      split at h
      · rename_i r go hReady
        cases h
        exact ⟨hHandle, r, go, hReady⟩
      · cases h
    · cases h
  · rintro ⟨hHandle, r, go, hReady⟩
    simp only [hHandle, hReady]

/-- The thread that runs goes on with the outcome of its wait. -/
theorem fire_of_runner {i : Nat} {r : Result Value} {go : Continuation}
    (hRunner : s.runner i = some u) (hReady : s.threads[u]? = some (.ready r go)) :
    s.fire i = ({ s with queue := s.queue.eraseIdx i } : Scheduler).proceed u r go := by
  simp only [fire, (runner_eq_some.mp hRunner).1, perform, hReady]

theorem getElem?_finish (hNe : v ≠ u) (report : Report) :
    (s.finish v report).threads[u]? = s.threads[u]? :=
  List.getElem?_set_ne hNe

/-- A thread that runs leaves the other threads where they are. -/
theorem getElem?_advance (hNe : v ≠ u) (hLt : u < s.threads.length)
    (routine : Routine Store Report) : (s.advance v routine).threads[u]? = s.threads[u]? := by
  induction routine generalizing s with
  | done report => exact getElem?_finish hNe report
  | step change next ih => exact ih s.store (s := { s with store := change s.store }) hLt
  | wait on next ih =>
    cases on with
    | turn => exact List.getElem?_set_ne hNe
    | release =>
      rw [advance]
      split
      · exact ih _ hLt
      · exact List.getElem?_set_ne hNe
    | goal goal =>
      rw [advance, seek]
      cases s.store.live.manager.pursuit goal with
      | reached v => exact ih _ hLt
      | «begin» transition =>
        refine (List.getElem?_set_ne hNe).trans ?_
        exact List.getElem?_append_left hLt
      | follow w isFinal =>
        cases hReport : s.report? w with
        | some report =>
          simp only [hReport]
          exact ih _ hLt
        | none =>
          simp only [hReport]
          exact List.getElem?_set_ne hNe

theorem getElem?_proceed (hNe : v ≠ u) (hLt : u < s.threads.length) (r : Result Value)
    (go : Continuation) : (s.proceed v r go).threads[u]? = s.threads[u]? := by
  cases go with
  | go next => exact getElem?_advance hNe hLt _
  | retry goal next =>
    rw [proceed]
    split
    · exact getElem?_advance hNe hLt _
    · exact getElem?_advance hNe hLt _

/-- A thread that does not run and follows nothing stays where it is. -/
theorem getElem?_fire {i : Nat} (hRunner : s.runner i ≠ some u) {status : ThreadStatus}
    (hStatus : s.threads[u]? = some status) (hNot : ¬ status.IsFollowing) :
    (s.fire i).threads[u]? = some status := by
  have hLt := (List.getElem?_eq_some_iff.mp hStatus).1
  rw [fire]
  split
  · rename_i handle hHandle
    cases handle with
    | resume t =>
      rw [perform]
      split
      · rename_i r go hReady
        refine (getElem?_proceed (s := { s with queue := s.queue.eraseIdx i })
          (fun hEq => hRunner ?_) hLt r go).trans hStatus
        have hGet : s.threads[t]? = some (.ready r go) := hReady
        exact hEq ▸ runner_eq_some.mpr ⟨hHandle, r, go, hGet⟩
      · exact hStatus
    | pass t target r =>
      rw [perform]
      split
      · rename_i other go hFollowing
        have hNe : t ≠ u := by
          rintro rfl
          have hGet : s.threads[t]? = some (.following other go) := hFollowing
          rw [hStatus] at hGet
          cases hGet
          exact hNot trivial
        split
        · exact (List.getElem?_set_ne hNe).trans hStatus
        · exact hStatus
      · exact hStatus
  · exact hStatus

/-- A thread that follows a transition stays where it is, unless its outcome is passed on. -/
theorem getElem?_fire_of_following {i w : Nat} {go : Continuation}
    (hStatus : s.threads[u]? = some (.following w go)) :
    (s.fire i).threads[u]? = some (.following w go) ∨ ∃ r, s.queue[i]? = some (.pass u w r) ∧
      (s.fire i).threads[u]? = some (.ready r go) := by
  have hLt := (List.getElem?_eq_some_iff.mp hStatus).1
  rw [fire]
  split
  · rename_i handle hHandle
    cases handle with
    | resume t =>
      rw [perform]
      split
      · rename_i r other hReady
        refine .inl ((getElem?_proceed (s := { s with queue := s.queue.eraseIdx i })
          ?_ hLt r other).trans hStatus)
        rintro rfl
        have hGet : s.threads[t]? = some (.ready r other) := hReady
        rw [hStatus] at hGet
        cases hGet
      · exact .inl hStatus
    | pass t target r =>
      rw [perform]
      split
      · rename_i other go' hFollowing
        have hGet : s.threads[t]? = some (.following other go') := hFollowing
        split
        · rename_i hTarget
          by_cases hSame : t = u
          · subst hSame
            rw [hStatus] at hGet
            cases hGet
            subst hTarget
            exact .inr ⟨r, hHandle, List.getElem?_set_self hLt⟩
          · exact .inl ((List.getElem?_set_ne hSame).trans hStatus)
        · exact .inl hStatus
      · exact .inl hStatus
  · exact .inl hStatus

/-- Where no thread runs and none follows a transition, nothing but the queue changes. -/
theorem fire_of_still {i : Nat} (hRunner : s.runner i = none)
    (hNot : ∀ (u : Nat) (status : ThreadStatus), s.threads[u]? = some status →
      ¬ status.IsFollowing) :
    ∃ queue, s.fire i = { s with queue } := by
  rw [fire]
  split
  · rename_i handle hHandle
    cases handle with
    | resume t =>
      rw [perform]
      split
      · rename_i r go hReady
        have hSome : s.runner i = some t := runner_eq_some.mpr ⟨hHandle, r, go, hReady⟩
        rw [hRunner] at hSome
        cases hSome
      · exact ⟨_, rfl⟩
    | pass t target r =>
      rw [perform]
      split
      · rename_i other go hFollowing
        exact absurd trivial (hNot t _ hFollowing)
      · exact ⟨_, rfl⟩
  · exact ⟨s.queue, rfl⟩

theorem getElem?_cancel (hNe : v ≠ u) : (s.cancel v).threads[u]? = s.threads[u]? := by
  rw [Scheduler.cancel]
  split
  · exact List.getElem?_set_ne hNe
  · exact List.getElem?_set_ne hNe
  · exact List.getElem?_set_ne hNe
  · rfl

/-- A thread that hangs is ready when what hangs is let go, and any other one stays where it is. -/
theorem getElem?_release {status : ThreadStatus} (hStatus : s.threads[u]? = some status) :
    s.release.threads[u]? = some status ∨
      ∃ go, status = .hanging go ∧ s.release.threads[u]? = some (.ready (.ok .null) go) := by
  let Fits (s' : Scheduler) : Prop := s'.threads[u]? = some status ∨
    ∃ go, status = .hanging go ∧ s'.threads[u]? = some (.ready (.ok .null) go)
  have hLetGo : ∀ s' t, Fits s' → Fits (s'.letGo t) := by
    intro s' t h
    rw [letGo]
    split
    · rename_i go hHanging
      by_cases hSame : t = u
      · subst hSame
        have hLt := (List.getElem?_eq_some_iff.mp hHanging).1
        rcases h with h | ⟨other, -, h⟩
        · rw [hHanging] at h
          cases h
          refine .inr ⟨go, rfl, ?_⟩
          exact List.getElem?_set_self hLt
        · rw [hHanging] at h
          cases h
      · rcases h with h | ⟨other, hOther, h⟩
        · exact .inl ((List.getElem?_set_ne hSame).trans h)
        · exact .inr ⟨other, hOther, (List.getElem?_set_ne hSame).trans h⟩
    · exact h
  exact release_of_letGo (P := Fits) (.inl hStatus) hLetGo

theorem length_cancel (s : Scheduler) (t : Nat) :
    (s.cancel t).threads.length = s.threads.length := by
  rw [Scheduler.cancel]
  split
  · exact List.length_set
  · exact List.length_set
  · exact List.length_set
  · rfl

theorem length_release (s : Scheduler) : s.release.threads.length = s.threads.length := by
  refine release_of_letGo (P := fun s' => s'.threads.length = s.threads.length) rfl fun s' t h => ?_
  rw [Scheduler.letGo]
  split
  · exact List.length_set.trans h
  · exact h

/-- A thread that is finished stays finished when others are cancelled or what hangs is let go,
and whatever is done. -/
theorem report?_fire {report : Report} (h : s.threads[u]? = some (.finished report)) (i : Nat) :
    (s.fire i).threads[u]? = some (.finished report) := by
  refine getElem?_fire (fun hRunner => ?_) h id
  obtain ⟨-, r, go, hReady⟩ := runner_eq_some.mp hRunner
  rw [h] at hReady
  cases hReady

theorem report?_cancel {report : Report} (h : s.threads[u]? = some (.finished report)) (v : Nat) :
    (s.cancel v).threads[u]? = some (.finished report) := by
  by_cases hSame : v = u
  · rw [Scheduler.cancel, hSame, h]
    exact h
  · exact (getElem?_cancel hSame).trans h

theorem report?_release {report : Report} (h : s.threads[u]? = some (.finished report)) :
    s.release.threads[u]? = some (.finished report) := by
  rcases getElem?_release h with h' | ⟨go, hGo, -⟩
  · exact h'
  · cases hGo

/-- A routine that waits for nothing is done at once. -/
theorem exists_advance_of_unwaiting {routine : Routine Store Report}
    {post : Report → Store → Prop} (h : routine.Keeps unwaiting post s.store) :
    ∃ report store, post report store ∧
      s.advance u routine = ({ s with store } : Scheduler).finish u report := by
  induction routine generalizing s with
  | done report => exact ⟨report, s.store, h, rfl⟩
  | step change next ih => exact ih s.store (s := { s with store := change s.store }) h
  | wait on next ih => exact absurd h.2.1 id

theorem advance_of_unwaiting {routine : Routine Store Report} {report : Report} {store : Store}
    (h : routine.Keeps unwaiting (fun r s' => r = report ∧ s' = store) s.store) :
    s.advance u routine = ({ s with store } : Scheduler).finish u report := by
  obtain ⟨_, _, ⟨rfl, rfl⟩, hAdvance⟩ := exists_advance_of_unwaiting (u := u) h
  exact hAdvance

section

variable {c : Contract Store} {post : Report → Store → Prop} {status : ThreadStatus}

/-- A thread runs until it waits, keeping its contract, or until it ends. -/
theorem advance_attends (hShared : c.IsShared) {routine : Routine Store Report}
    (h : routine.Keeps c post s.store) :
    ∃ status, (s.advance u routine).threads = s.threads.set u status ∧
      status.Attends c post (s.advance u routine).store := by
  induction routine generalizing s with
  | done report => exact ⟨.finished report, rfl, h⟩
  | step change next ih => exact ih s.store (s := { s with store := change s.store }) h
  | wait on next ih =>
    obtain ⟨hOn, hRests, hNext⟩ := h
    have hGo : ∀ s', c.rely s.store s' → (next (.ok .null)).Keeps c post s' :=
      fun s' hRely => hNext s' _ hRely ((hShared.comes s' _).mpr rfl)
    cases on with
    | turn => exact ⟨.ready (.ok .null) (.go next), rfl, hRests, rfl, hGo⟩
    | release =>
      rw [advance]
      split
      · exact ih (.ok .null) (hGo s.store (hShared.refl s.store))
      · exact ⟨.hanging (.go next), rfl, hRests, hGo⟩
    | goal goal => exact absurd rfl (hOn goal)

/-- A thread that runs attends to its contract. -/
theorem fire_attends (hShared : c.IsShared) {i : Nat} (hRunner : s.runner i = some u)
    (hStatus : s.threads[u]? = some status) (hAttends : status.Attends c post s.store) :
    ∃ status', (s.fire i).threads = s.threads.set u status' ∧
      status'.Attends c post (s.fire i).store := by
  obtain ⟨-, r, go, hReady⟩ := runner_eq_some.mp hRunner
  rw [hStatus] at hReady
  cases hReady
  cases go with
  | go next =>
    obtain ⟨-, -, hKeeps⟩ := hAttends
    rw [fire_of_runner hRunner hStatus]
    exact advance_attends (s := { s with queue := s.queue.eraseIdx i }) hShared
      (hKeeps s.store (hShared.refl s.store))
  | retry goal next => exact absurd hAttends id

/-- So does one that hung when what hangs is let go. -/
theorem release_attends (hStatus : s.threads[u]? = some status)
    (hAttends : status.Attends c post s.store) :
    ∃ status', s.release.threads[u]? = some status' ∧ status'.Attends c post s.store := by
  rcases getElem?_release hStatus with hSame | ⟨go, rfl, hReady⟩
  · exact ⟨status, hSame, hAttends⟩
  · cases go with
    | go next => exact ⟨_, hReady, hAttends.1, rfl, hAttends.2⟩
    | retry goal next => exact absurd hAttends id

end

end Scheduler

end SqlWeave
