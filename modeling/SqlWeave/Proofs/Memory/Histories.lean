import SqlWeave.Proofs.Live.Safety
import SqlWeave.Proofs.Live.Turns
import SqlWeave.Proofs.Memory.Operations

/-!
# Transactions in memory, in turns

Callers start operations on a database in memory, as many as they like and in any order, and may
be cancelled; the things in the queue are done in any order.  Since nothing is waited for, an
operation is done as a whole when its thread runs, so that what was done is one list of
operations with their outcomes, whatever the interleaving: `Scheduler.Past`.

## Main results

* `Recorded.fire`: the account is kept when any of the things in the queue is done.
* `transactions_published`: what is published, after whatever was done.
-/

namespace SqlWeave

namespace Scheduler

/-- The operation that comes to its end when one of the things in the queue is done; one that was
cancelled before is none. -/
def deed? (callers : Callers) (s : Scheduler) (i : Nat) : Option Deed := do
  let u ← s.runner i
  let o ← callers u
  match s.threads[u]? with
  | some (.ready (.ok _) _) => (s.fire i).report? u |>.map fun report => ⟨o, report.outcome⟩
  | _ => none

/-- What was done in memory in any number of turns, what was done last coming first, with the
callers and the scheduler that came of it. -/
inductive Past (db : Database) (m : MemoryBackend) : List Deed → Callers → Scheduler → Prop
  | start : Past db m [] (fun _ => none) { database := db, store := { memory := m } }
  | call {past : List Deed} {callers : Callers} {s : Scheduler} (h : Past db m past callers s)
      (o : Operation) :
      Past db m past (Function.update callers s.threads.length (some o)) (s.spawn (o.routine db)).2
  | fire {past : List Deed} {callers : Callers} {s : Scheduler} (h : Past db m past callers s)
      (i : Nat) : Past db m ((s.deed? callers i).toList ++ past) callers (s.fire i)
  | cancel {past : List Deed} {callers : Callers} {s : Scheduler} (h : Past db m past callers s)
      {t : Nat} (hCaller : (callers t).isSome = true) : Past db m past callers (s.cancel t)
  | release {past : List Deed} {callers : Callers} {s : Scheduler}
      (h : Past db m past callers s) : Past db m past callers s.release

/-- The thread of a caller has come to its end, or has not begun. -/
def IsWhole (db : Database) (o : Option Operation) (status : ThreadStatus) : Prop :=
  (∃ report, status = .finished report) ∨
    ∃ o' r, o = some o' ∧ status = .ready r (starting (o'.routine db))

theorem IsWhole.not_isFollowing {db : Database} {o : Option Operation} {status : ThreadStatus}
    (h : IsWhole db o status) : ¬ status.IsFollowing := by
  obtain ⟨report, rfl⟩ | ⟨o', r, -, rfl⟩ := h
  · exact id
  · exact id

/-- What holds of a scheduler between two things that are done: no operation is under way, and
the account is kept. -/
structure Recorded (db : Database) (m : MemoryBackend) (past : List Deed) (callers : Callers)
    (s : Scheduler) : Prop where
  tallies : s.store.Tallies db m past
  whole : ∀ (u : Nat) (status : ThreadStatus), s.threads[u]? = some status →
    IsWhole db (callers u) status

section

variable {db : Database} {m : MemoryBackend} {past : List Deed} {callers : Callers}
  {s s' : Scheduler}

theorem recorded_start :
    Recorded db m [] (fun _ => none) { database := db, store := { memory := m } } where
  tallies := Store.tallies_start
  whole := nofun

theorem Recorded.call (h : Recorded db m past callers s) (o : Operation) :
    Recorded db m past (Function.update callers s.threads.length (some o))
      (s.spawn (o.routine db)).2 := by
  refine ⟨h.tallies, fun u status hGet => ?_⟩
  have hGet' : (s.threads ++ [ThreadStatus.ready (.ok .null) (starting (o.routine db))])[u]? =
      some status := hGet
  by_cases hNew : u = s.threads.length
  · rw [hNew, List.getElem?_concat_length] at hGet'
    cases hGet'
    rw [hNew, Function.update_self]
    exact .inr ⟨o, _, rfl, rfl⟩
  · rw [Function.update_of_ne hNew]
    exact h.whole u status (getElem?_of_concat hGet' hNew)

/-- A thread has come to its end. -/
theorem Recorded.finish (h : Recorded db m past callers s) {store : Store} {u : Nat}
    {report : Report} {past' : List Deed} (hTallies : store.Tallies db m past') :
    Recorded db m past' callers (({ s with store } : Scheduler).finish u report) := by
  refine ⟨hTallies, fun v status hGet => ?_⟩
  have hGet' : (s.threads.set u (.finished report))[v]? = some status := hGet
  rcases of_getElem?_set hGet' with ⟨-, hReport⟩ | ⟨-, hOld⟩
  · exact .inl ⟨report, hReport⟩
  · exact h.whole v status hOld

/-- A thread that runs does its operation as a whole, unless it was cancelled before. -/
theorem Recorded.resume (hMemory : db.backend = .memory) (h : Recorded db m past callers s)
    {i u : Nat} {o : Operation} {r : Result Value} (hRunner : s.runner i = some u)
    (hCaller : callers u = some o)
    (hReady : s.threads[u]? = some (.ready r (starting (o.routine db)))) :
    Recorded db m ((s.deed? callers i).toList ++ past) callers (s.fire i) := by
  have hFire := fire_of_runner hRunner hReady
  have hRest : Recorded db m past callers { s with queue := s.queue.eraseIdx i } :=
    ⟨h.tallies, h.whole⟩
  cases r with
  | error f =>
    have hDeed : s.deed? callers i = none := by
      simp only [deed?, hRunner, hCaller, hReady, Option.bind_eq_bind, Option.bind_some]
    rw [hDeed, hFire]
    exact hRest.finish h.tallies
  | ok v =>
    have hKeeps : (o.routine db).Keeps unwaiting
        (fun report s' => s'.Tallies db m (⟨o, report.outcome⟩ :: past)) s.store :=
      Routine.keeps_bind (tallies_operation hMemory h.tallies o s.store rfl)
    obtain ⟨report, store, hTallies, hAdvance⟩ := exists_advance_of_unwaiting
      (s := { s with queue := s.queue.eraseIdx i }) (u := u) hKeeps
    have hFinish : s.fire i =
        ({ s with queue := s.queue.eraseIdx i, store } : Scheduler).finish u report :=
      hFire.trans hAdvance
    have hReport : (s.fire i).report? u = some report := by
      have hGet : (s.threads.set u (.finished report))[u]? = some (.finished report) :=
        List.getElem?_set_self (List.getElem?_eq_some_iff.mp hReady).1
      rw [hFinish]
      simp only [report?, Scheduler.finish, hGet]
    have hDeed : s.deed? callers i = some ⟨o, report.outcome⟩ := by
      simp only [deed?, hRunner, hCaller, hReady, hReport, Option.bind_eq_bind, Option.bind_some,
        Option.map_some]
    rw [hDeed, hFinish]
    exact hRest.finish hTallies

/-- One of the things in the queue is done. -/
theorem Recorded.fire (hMemory : db.backend = .memory) (h : Recorded db m past callers s)
    (i : Nat) : Recorded db m ((s.deed? callers i).toList ++ past) callers (s.fire i) := by
  cases hRunner : s.runner i with
  | none =>
    have hDeed : s.deed? callers i = none := by rw [deed?, hRunner]; rfl
    obtain ⟨queue, hFire⟩ := fire_of_still hRunner fun u status hGet =>
      (h.whole u status hGet).not_isFollowing
    rw [hDeed, hFire]
    exact ⟨h.tallies, h.whole⟩
  | some u =>
    obtain ⟨-, r, go, hReady⟩ := runner_eq_some.mp hRunner
    obtain ⟨report, hFinished⟩ | ⟨o, r', hCaller, hStatus⟩ := h.whole u _ hReady
    · cases hFinished
    · cases hStatus
      exact h.resume hMemory hRunner hCaller hReady

theorem Recorded.cancel (h : Recorded db m past callers s) (t : Nat) :
    Recorded db m past callers (s.cancel t) := by
  refine ⟨store_cancel s t ▸ h.tallies, fun u status hGet => ?_⟩
  by_cases hSame : t = u
  · subst hSame
    rw [Scheduler.cancel] at hGet
    split at hGet
    · rename_i r go hReady
      have hGet' : (s.threads.set t (.ready (.error .cancelled) go))[t]? = some status := hGet
      rw [List.getElem?_set_self (List.getElem?_eq_some_iff.mp hReady).1] at hGet'
      obtain ⟨report, hEq⟩ | ⟨o, r', hCaller, hEq⟩ := h.whole t _ hReady
      · cases hEq
      · cases hEq
        exact .inr ⟨o, _, hCaller, (Option.some.inj hGet').symm⟩
    · rename_i go hHanging
      obtain ⟨report, hEq⟩ | ⟨o, r, -, hEq⟩ := h.whole t _ hHanging <;> cases hEq
    · rename_i v go hFollowing
      obtain ⟨report, hEq⟩ | ⟨o, r, -, hEq⟩ := h.whole t _ hFollowing <;> cases hEq
    · exact h.whole t status hGet
  · exact h.whole u status (getElem?_cancel hSame ▸ hGet)

theorem Recorded.release (h : Recorded db m past callers s) :
    Recorded db m past callers s.release := by
  refine ⟨store_release s ▸ h.tallies, fun u status hGet => ?_⟩
  have hLt : u < s.threads.length := by
    rw [← length_release]
    exact (List.getElem?_eq_some_iff.mp hGet).1
  have hStatus := List.getElem?_eq_getElem hLt
  have hWhole := h.whole u _ hStatus
  rcases getElem?_release hStatus with hSame | ⟨go, hHanging, -⟩
  · rw [hGet] at hSame
    rwa [Option.some.inj hSame]
  · rw [hHanging] at hWhole
    obtain ⟨report, hEq⟩ | ⟨o, r, -, hEq⟩ := hWhole
    · cases hEq
    · cases hEq

/-- The account is kept in every course of turns. -/
theorem Past.recorded (hMemory : db.backend = .memory) (h : Past db m past callers s) :
    Recorded db m past callers s := by
  induction h with
  | start => exact recorded_start
  | call _ o ih => exact ih.call o
  | fire _ i ih => exact ih.fire hMemory i
  | cancel _ _ ih => exact ih.cancel _
  | release _ ih => exact ih.release

/-- Transcripts do not mix: what is published at any time is the transcript of the transaction
that ended last, with its own statements, and every transaction that was begun is closed exactly
if it has been published, which it is once. -/
theorem transactions_published (hMemory : db.backend = .memory) (h : Past db m past callers s) :
    s.store.memory.lastTransaction =
        ((endings db m.rules past).head?.map Ending.text).or m.lastTransaction ∧
      ((endings db m.rules past).map Ending.transaction).Nodup ∧
      s.store.transactions.length = begun past ∧
      ∀ (t : Nat) (transaction : Transaction), s.store.transactions[t]? = some transaction →
        (transaction.isClosed = true ↔ t ∈ (endings db m.rules past).map Ending.transaction) := by
  have hTallies := (h.recorded hMemory).tallies
  exact ⟨hTallies.last, nodup_endings db m.rules past, hTallies.begun, hTallies.closed⟩

end

/-- A database with the backend in memory. -/
def memoryDatabase : Database :=
  { tunneledDatabase with backend := .memory }

/-- What mentions a stock is refused. -/
def stockless : MemoryBackend where
  rules := [{
    matcher := .containing "stock"
    result := .null
    fault := some (.raised .operational [.str "no stock"]) }]

/-- Two transactions take turns with each other and with a query that is in neither; the first one
ends with a statement that is refused, and the second one is committed. -/
theorem transactions_published_turns :
    ∃ past callers s, memoryDatabase.backend = .memory ∧
      Past memoryDatabase stockless past callers s ∧
      (endings memoryDatabase stockless.rules past).map Ending.text =
        ["START TRANSACTION;\nDELETE b;\nCOMMIT;",
          "START TRANSACTION;\nDELETE a;\nUPDATE stock;\nROLLBACK;"] ∧
      s.store.memory.lastTransaction = some "START TRANSACTION;\nDELETE b;\nCOMMIT;" := by
  have hStart : Past memoryDatabase stockless [] (fun _ => none) _ := .start
  have hCalled := hStart
    |>.call .connect |>.fire 0 |>.call .begin |>.call .begin |>.fire 0 |>.fire 0
    |>.call (.queryIn 0 ⟨"DELETE a", .null, .null⟩)
    |>.call (.queryIn 1 ⟨"DELETE b;", .null, .null⟩)
    |>.call (.query ⟨"SELECT 1", .null, .null⟩)
    |>.call (.queryIn 0 ⟨"UPDATE stock", .null, .null⟩)
    |>.call (.commit 1)
    |>.fire 1 |>.fire 0 |>.fire 0 |>.fire 0 |>.fire 0
  refine ⟨_, _, _, rfl, hCalled, ?_, ?_⟩
  · decide +kernel
  · exact (transactions_published rfl hCalled).1.trans (by decide +kernel)

end Scheduler

end SqlWeave
