import Mathlib.Algebra.BigOperators.Group.Finset.Basic
import SqlWeave.Proofs.Live.Interleaving
import SqlWeave.Proofs.Live.Operations
import SqlWeave.Proofs.Live.Threads

/-!
# Operations in turns

Callers start operations on a live database, as many as they like and in any order, and may be
cancelled at any time; the things in the queue are done in any order.  `Scheduler.Governed` is
what holds of a scheduler between two things that are done: the accounts are in order with all
that the threads have in hand, and every thread goes on in its custody, whatever comes.

## Main results

* `advance_minds`: what a thread does until it waits or is done.
* `Governed.turn`: every turn preserves the invariant, and what persists persists.
* `Course.governed`, `Running.governed`: the invariant holds through every course of turns, where
  what persists persists, and in every run.
-/

namespace SqlWeave

open Manager

/-- How a thread ends: with nothing in hand. -/
def Custody.Ends (c : Custody Store Hand) (_ : Report) : Hand → Store → Prop :=
  c.With 0

/-- Whatever comes, the thread goes on in its custody, with what it has in hand. -/
def Continuation.Minds (c : Custody Store Hand) (x : Hand) : Continuation → Prop
  | .go next | .retry _ next =>
    ∀ others s r, c.With x others s → (next r).Minds c c.Ends others s

/-- The thread minds its custody, with what it has in hand. -/
def ThreadStatus.Minds (c : Custody Store Hand) (x : Hand) : ThreadStatus → Prop
  | .ready _ go | .hanging go | .following _ go => go.Minds c x
  | .finished _ => x = 0

/-- The routine of a balanced action starts with nothing in hand and ends so. -/
theorem minds_starting {c : Custody Store Hand} {action : Action Store Value}
    (h : Action.Balanced c action) :
    (Scheduler.starting (Scheduler.routineOf action)).Minds c 0 := by
  intro others s r hs
  cases r with
  | ok v => exact Routine.minds_bind ((h 0 others s hs).mono fun _ _ _ hs' => hs')
  | error f => exact hs

namespace Scheduler

/-- What each thread was asked for by a caller, if it was. -/
abbrev Callers : Type :=
  Nat → Option Operation

/-- Something that can happen: a caller starts an operation, any of the things in the queue is
done, a caller is cancelled, or what hangs is let go. -/
inductive Turn (db : Database) : Callers → Scheduler → Callers → Scheduler → Prop
  | call {callers : Callers} {s : Scheduler} (o : Operation) :
      Turn db callers s (Function.update callers s.threads.length (some o))
        (s.spawn (o.routine db)).2
  | fire {callers : Callers} {s : Scheduler} (i : Nat) : Turn db callers s callers (s.fire i)
  | cancel {callers : Callers} {s : Scheduler} {t : Nat} (h : (callers t).isSome = true) :
      Turn db callers s callers (s.cancel t)
  | release {callers : Callers} {s : Scheduler} : Turn db callers s callers s.release

/-- What can come of a scheduler in any number of turns. -/
inductive Course (db : Database) (callers : Callers) (s : Scheduler) :
    Callers → Scheduler → Prop
  | refl : Course db callers s callers s
  | turn {callers' callers'' : Callers} {s' s'' : Scheduler}
      (h : Course db callers s callers' s') (hTurn : Turn db callers' s' callers'' s'') :
      Course db callers s callers'' s''

/-- The schedulers that come out of any turns, with the callers. -/
def Running (db : Database) (forecast : Forecast) : Callers → Scheduler → Prop :=
  Course db (fun _ => none) { database := db, store := { live := { forecast } } }

variable {db : Database} {callers : Callers} {s s' : Scheduler}

/-- A thread that carries out a transition and has not begun to. -/
def beginner (db : Database) (transition : Transition) : ThreadStatus :=
  .ready (.ok .null) (starting (routineOf (transition.action db)))

/-- What comes of a thread that runs until it waits or is done: the store is changed as its
custody allows, and after that a transition may have been begun, in a thread of its own. -/
inductive Advanced (c : Custody Store Hand) (t : Nat) (status : ThreadStatus)
    (s s' : Scheduler) : Prop
  | alone (hStore : c.guar s.store s'.store) (hThreads : s'.threads = s.threads.set t status)
  | beginning (transition : Transition) (store : Store) (hStore : c.guar s.store store)
      (hNone : store.live.manager.pending = none)
      (hBegun : s'.store = store.onManager (Manager.begun transition s.threads.length))
      (hThreads : s'.threads = (s.threads ++ [beginner s.database transition]).set t status)

theorem Advanced.step {c : Custody Store Hand} {t : Nat} {status : ThreadStatus} {store : Store}
    (hStep : c.guar s.store store) (h : Advanced c t status { s with store := store } s') :
    Advanced c t status s s' := by
  cases h with
  | alone hStore hThreads => exact .alone (c.guar_trans _ _ _ hStep hStore) hThreads
  | beginning transition between hStore hNone hBegun hThreads =>
    exact .beginning transition between (c.guar_trans _ _ _ hStep hStore) hNone hBegun hThreads

/-- A thread runs in its custody until it waits or is done. -/
theorem advance_minds {c : Custody Store Hand} (hInv : c.inv = Store.Accounts) {t : Nat}
    {routine : Routine Store Report} {others : Hand}
    (h : routine.Minds c c.Ends others s.store) :
    (s.advance t routine).database = s.database ∧ ∃ x status, status.Minds c x ∧
      (s.advance t routine).store.Accounts (x + others) ∧
      Advanced c t status s (s.advance t routine) := by
  induction routine generalizing s with
  | done report =>
    refine ⟨rfl, 0, .finished report, rfl, ?_, .alone (c.guar_refl _) rfl⟩
    rw [← hInv]
    exact h
  | step change next ih =>
    obtain ⟨hDatabase, x, status, hMinds, hAccounts, hAdvanced⟩ :=
      ih s.store (s := { s with store := change s.store }) h.2
    exact ⟨hDatabase, x, status, hMinds, hAccounts, hAdvanced.step h.1⟩
  | wait on next ih =>
    obtain ⟨x, hWith, hNext⟩ := h
    have hAccounts : s.store.Accounts (x + others) := hInv ▸ hWith
    have hGo : ∀ r, (next r).Minds c c.Ends others s.store := fun r => hNext others s.store r hWith
    cases on with
    | turn =>
      exact ⟨rfl, x, .ready (.ok .null) (.go next), hNext, hAccounts, .alone (c.guar_refl _) rfl⟩
    | release =>
      rw [advance]
      split
      · exact ih (.ok .null) (hGo _)
      · exact ⟨rfl, x, .hanging (.go next), hNext, hAccounts, .alone (c.guar_refl _) rfl⟩
    | goal goal =>
      have hTowards : ∀ isFinal, (towards goal isFinal next).Minds c x := by
        intro isFinal
        cases isFinal <;> exact hNext
      rw [advance, seek]
      cases hPursuit : s.store.live.manager.pursuit goal with
      | reached v => exact ih (.ok v) (hGo _)
      | «begin» transition =>
        refine ⟨rfl, x, .following s.threads.length (towards goal true next), hTowards true, ?_,
          .beginning transition s.store (c.guar_refl _) (of_pursuit_begin hPursuit).1 rfl rfl⟩
        exact hAccounts.congr rfl rfl rfl rfl rfl
      | follow u isFinal =>
        cases hReport : s.report? u with
        | some report =>
          simp only [hReport]
          exact ih report.outcome (hGo _)
        | none =>
          simp only [hReport]
          exact ⟨rfl, x, .following u (towards goal isFinal next), hTowards isFinal, hAccounts,
            .alone (c.guar_refl _) rfl⟩

/-! ## The invariant -/

/-- The transaction that a thread is about. -/
def transactionOf (callers : Callers) (t : Nat) : Option Nat :=
  (callers t).bind Operation.transaction

/-- The custody of a thread. -/
def custody (callers : Callers) (t : Nat) : Custody Store Hand :=
  match callers t with
  | some o => clients o.transaction
  | none => transitions

theorem custody_inv (callers : Callers) (t : Nat) :
    (custody callers t).inv = Store.Accounts := by
  unfold custody
  split <;> rfl

/-- What a thread may do in its custody it does on behalf of its transaction. -/
theorem custody_step {t : Nat} {store store' : Store}
    (h : (custody callers t).guar store store') :
    store.Step (transactionOf callers t) store' := by
  unfold custody at h
  unfold transactionOf
  split at h
  · rename_i o ho
    rw [ho]
    exact h.toStep
  · rename_i ho
    rw [ho]
    exact h

/-- What the threads have in hand, all together. -/
def total (own : Nat → Hand) (n : Nat) : Hand :=
  ∑ t ∈ Finset.range n, own t

/-- What the other threads have in hand. -/
def otherHands (own : Nat → Hand) (n t : Nat) : Hand :=
  ∑ u ∈ (Finset.range n).erase t, own u

theorem total_eq {own : Nat → Hand} {n t : Nat} (h : t < n) :
    total own n = own t + otherHands own n t :=
  (Finset.add_sum_erase _ own (Finset.mem_range.mpr h)).symm

theorem otherHands_update {own : Nat → Hand} {n t : Nat} (x : Hand) :
    otherHands (Function.update own t x) n t = otherHands own n t :=
  Finset.sum_congr rfl fun _ hu => Function.update_of_ne (Finset.ne_of_mem_erase hu) _ _

theorem total_update {own : Nat → Hand} {n t : Nat} (h : t < n) (x : Hand) :
    total (Function.update own t x) n = x + otherHands own n t := by
  rw [total_eq h, Function.update_self, otherHands_update]

theorem total_succ (own : Nat → Hand) (n : Nat) : total own (n + 1) = total own n + own n :=
  Finset.sum_range_succ own n

/-- What holds of a scheduler between two things that are done. -/
structure Governed (db : Database) (callers : Callers) (own : Nat → Hand) (s : Scheduler) :
    Prop where
  database : s.database = db
  callers_lt : ∀ t o, callers t = some o → t < s.threads.length
  accounts : s.store.Accounts (total own s.threads.length)
  minds : ∀ (t : Nat) (status : ThreadStatus), s.threads[t]? = some status →
    status.Minds (custody callers t) (own t)

variable {own : Nat → Hand}

/-- The number of the next thread is not that of a caller. -/
theorem Governed.callers_next (h : Governed db callers own s) : callers s.threads.length = none := by
  cases hCaller : callers s.threads.length with
  | none => rfl
  | some o => exact absurd (h.callers_lt _ o hCaller) (Nat.lt_irrefl _)

theorem Governed.congr (h : Governed db callers own s) (hDatabase : s'.database = s.database)
    (hThreads : s'.threads = s.threads) (hStore : s'.store = s.store) :
    Governed db callers own s' :=
  ⟨hDatabase.trans h.database, hThreads ▸ h.callers_lt,
    by rw [hThreads, hStore]; exact h.accounts, hThreads ▸ h.minds⟩

/-- A thread that stands in another place, with the same in hand. -/
theorem Governed.setStatus (h : Governed db callers own s) {t : Nat} {status : ThreadStatus}
    (hStatus : status.Minds (custody callers t) (own t)) :
    Governed db callers own (s.setStatus t status) := by
  have hLength : (s.setStatus t status).threads.length = s.threads.length := List.length_set
  refine ⟨h.database, ?_, ?_, ?_⟩
  · rw [hLength]
    exact h.callers_lt
  · rw [hLength]
    exact h.accounts
  · intro u other hOther
    rcases of_getElem?_set hOther with ⟨rfl, rfl⟩ | ⟨-, hOld⟩
    · exact hStatus
    · exact h.minds u other hOld

theorem Governed.awaken (h : Governed db callers own s) {t : Nat} {r : Result Value}
    {go : Continuation} (hGo : go.Minds (custody callers t) (own t)) :
    Governed db callers own (s.awaken t r go) := by
  have hSet : Governed db callers own (s.setStatus t (.ready r go)) := h.setStatus hGo
  exact hSet.congr rfl rfl rfl

/-- One more thread, which has nothing in hand. -/
theorem Governed.add (h : Governed db callers own s) {callers' : Callers} {status : ThreadStatus}
    (hSame : ∀ t, t ≠ s.threads.length → callers' t = callers t)
    (hStatus : status.Minds (custody callers' s.threads.length) 0)
    (hDatabase : s'.database = s.database) (hThreads : s'.threads = s.threads ++ [status])
    (hStore : s'.store.Accounts (total own s.threads.length)) :
    Governed db callers' (Function.update own s.threads.length 0) s' := by
  have hLength : s'.threads.length = s.threads.length + 1 := by
    rw [hThreads]
    exact List.length_append
  have hTotal : total (Function.update own s.threads.length 0) s'.threads.length =
      total own s.threads.length := by
    rw [hLength, total_succ, Function.update_self, add_zero]
    refine Finset.sum_congr rfl fun u hu => Function.update_of_ne ?_ _ _
    exact Nat.ne_of_lt (Finset.mem_range.mp hu)
  refine ⟨hDatabase.trans h.database, fun t o ht => ?_, hTotal ▸ hStore, fun t other hOther => ?_⟩
  · rw [hLength]
    by_cases hNew : t = s.threads.length
    · omega
    · exact Nat.lt_succ_of_lt (h.callers_lt t o (hSame t hNew ▸ ht))
  · rw [hThreads] at hOther
    by_cases hNew : t = s.threads.length
    · rw [hNew, List.getElem?_concat_length] at hOther
      cases hOther
      rw [hNew, Function.update_self]
      exact hStatus
    · rw [Function.update_of_ne hNew]
      have hCustody : custody callers' t = custody callers t := by
        rw [custody, custody, hSame t hNew]
      rw [hCustody]
      exact h.minds t other (getElem?_of_concat hOther hNew)

/-- A thread has run, and has something else in hand. -/
theorem Governed.of_set (h : Governed db callers own s) {t : Nat} (ht : t < s.threads.length)
    {x : Hand} {status : ThreadStatus} (hStatus : status.Minds (custody callers t) x)
    (hDatabase : s'.database = s.database) (hThreads : s'.threads = s.threads.set t status)
    (hStore : s'.store.Accounts (x + otherHands own s.threads.length t)) :
    Governed db callers (Function.update own t x) s' := by
  have hLength : s'.threads.length = s.threads.length := by
    rw [hThreads]
    exact List.length_set
  refine ⟨hDatabase.trans h.database, hLength ▸ h.callers_lt, ?_, fun u other hOther => ?_⟩
  · rw [hLength, total_update ht]
    exact hStore
  · rw [hThreads] at hOther
    rcases of_getElem?_set hOther with ⟨rfl, rfl⟩ | ⟨hNe, hOld⟩
    · rw [Function.update_self]
      exact hStatus
    · rw [Function.update_of_ne (Ne.symm hNe)]
      exact h.minds u other hOld

/-- The transition that was begun leaves all transactions alone. -/
theorem step_onManager {transaction : Option Nat} (store : Store) (f : Manager → Manager) :
    store.Step transaction (store.onManager f) :=
  Store.step_silent rfl rfl rfl

/-- Whatever comes of a thread that runs in its custody, it is on behalf of its transaction. -/
theorem Advanced.step_own {t : Nat} {status : ThreadStatus}
    (h : Advanced (custody callers t) t status s s') :
    s.store.Step (transactionOf callers t) s'.store := by
  cases h with
  | alone hStore hThreads => exact custody_step hStore
  | beginning transition store hStore hNone hBegun hThreads =>
    rw [hBegun]
    exact (custody_step hStore).trans _ _ _ (step_onManager store _)

/-! ## Turns -/

/-- A thread that goes on, with what the others have in hand beside it. -/
theorem Governed.minds_go (h : Governed db callers own s) {t : Nat} (ht : t < s.threads.length)
    {go : Continuation} (hGo : go.Minds (custody callers t) (own t)) (r : Result Value) :
    match go with
    | .go next | .retry _ next => (next r).Minds (custody callers t) (custody callers t).Ends
        (otherHands own s.threads.length t) s.store := by
  have hWith : (custody callers t).With (own t) (otherHands own s.threads.length t) s.store := by
    rw [Custody.With, custody_inv, ← total_eq ht]
    exact h.accounts
  cases go with
  | go next => exact hGo _ s.store r hWith
  | retry goal next => exact hGo _ s.store r hWith

/-- A thread runs until it waits or is done. -/
theorem Governed.advance (h : Governed db callers own s) {t : Nat} (ht : t < s.threads.length)
    {routine : Routine Store Report}
    (hMinds : routine.Minds (custody callers t) (custody callers t).Ends
      (otherHands own s.threads.length t) s.store) :
    ∃ own', Governed db callers own' (s.advance t routine) ∧
      ∃ status, Advanced (custody callers t) t status s (s.advance t routine) := by
  obtain ⟨hDatabase, x, status, hStatus, hAccounts, hAdvanced⟩ :=
    advance_minds (custody_inv callers t) hMinds
  refine Exists.imp (fun _ hGoverned => ⟨hGoverned, status, hAdvanced⟩) ?_
  generalize s.advance t routine = s' at hDatabase hAccounts hAdvanced
  cases hAdvanced with
  | alone hStore hThreads => exact ⟨_, h.of_set ht hStatus hDatabase hThreads hAccounts⟩
  | beginning transition store hStore hNone hBegun hThreads =>
    have hSet : Governed db callers (Function.update own t x)
        { s with threads := s.threads.set t status, store := s'.store } :=
      h.of_set ht hStatus rfl rfl hAccounts
    have hLength : (s.threads.set t status).length = s.threads.length := List.length_set
    have hBeginner : (beginner s.database transition).Minds
        (custody callers (s.threads.set t status).length) 0 := by
      rw [hLength, custody, h.callers_next]
      exact minds_starting (balanced_transition s.database transition)
    rw [List.set_append_left _ _ ht] at hThreads
    exact ⟨_, hSet.add (fun _ _ => rfl) hBeginner hDatabase hThreads hSet.accounts⟩

/-- A thread goes on with the outcome of its wait. -/
theorem Governed.proceed (h : Governed db callers own s) {t : Nat} (ht : t < s.threads.length)
    {go : Continuation} (hGo : go.Minds (custody callers t) (own t)) (r : Result Value) :
    ∃ own', Governed db callers own' (s.proceed t r go) ∧
      ∃ status, Advanced (custody callers t) t status s (s.proceed t r go) := by
  cases go with
  | go next => exact h.advance ht (h.minds_go ht hGo r)
  | retry goal next =>
    rw [Scheduler.proceed]
    split
    · refine h.advance ht ⟨own t, ?_, hGo⟩
      rw [Custody.With, custody_inv, ← total_eq ht]
      exact h.accounts
    · exact h.advance ht (h.minds_go ht hGo r)

/-- What comes of one of the things in the queue: the thread that runs has run, and if none does
the store is as it was. -/
def Fired (callers : Callers) (s : Scheduler) (i : Nat) (s' : Scheduler) : Prop :=
  match s.runner i with
  | some t => ∃ status, Advanced (custody callers t) t status s s'
  | none => s'.store = s.store ∧ s'.threads.length = s.threads.length

/-- What was done was done on behalf of the transaction of the thread that ran. -/
theorem Fired.step {i : Nat} (h : Fired callers s i s') :
    s.store.Step ((s.runner i).bind (transactionOf callers)) s'.store := by
  unfold Fired at h
  cases hRunner : s.runner i with
  | some t =>
    simp only [hRunner] at h
    obtain ⟨status, hAdvanced⟩ := h
    exact hAdvanced.step_own
  | none =>
    simp only [hRunner] at h
    rw [h.1]
    exact Store.Step.refl _

/-- One of the things in the queue is done. -/
theorem Governed.fire (h : Governed db callers own s) (i : Nat) :
    ∃ own', Governed db callers own' (s.fire i) ∧ Fired callers s i (s.fire i) := by
  have hRest : Governed db callers own { s with queue := s.queue.eraseIdx i } :=
    h.congr rfl rfl rfl
  unfold Fired
  cases hRunner : s.runner i with
  | some t =>
    obtain ⟨-, r, go, hReady⟩ := runner_eq_some.mp hRunner
    rw [fire_of_runner hRunner hReady]
    obtain ⟨own', hGoverned, status, hAdvanced⟩ := hRest.proceed
      (List.getElem?_eq_some_iff.mp hReady).1 (hRest.minds t _ hReady) r
    refine ⟨own', hGoverned, status, ?_⟩
    cases hAdvanced with
    | alone hStore hThreads => exact .alone hStore hThreads
    | beginning transition store hStore hNone hBegun hThreads =>
      exact .beginning transition store hStore hNone hBegun hThreads
  | none =>
    refine ⟨own, ?_⟩
    rw [Scheduler.fire]
    split
    · rename_i handle hHandle
      cases handle with
      | resume t =>
        rw [perform]
        split
        · rename_i r go hReady
          have hSome : s.runner i = some t := runner_eq_some.mpr ⟨hHandle, r, go, hReady⟩
          rw [hRunner] at hSome
          cases hSome
        · exact ⟨hRest, rfl, rfl⟩
      | pass t u r =>
        rw [perform]
        split
        · rename_i target go hStatus
          split
          · exact ⟨hRest.awaken (hRest.minds t _ hStatus), rfl, List.length_set⟩
          · exact ⟨hRest, rfl, rfl⟩
        · exact ⟨hRest, rfl, rfl⟩
    · exact ⟨h, rfl, rfl⟩

theorem Governed.cancel (h : Governed db callers own s) (t : Nat) :
    Governed db callers own (s.cancel t) := by
  rw [Scheduler.cancel]
  split
  · rename_i r go hStatus
    have hGo : go.Minds (custody callers t) (own t) := h.minds t _ hStatus
    exact h.setStatus hGo
  · rename_i go hStatus
    exact h.awaken (h.minds t _ hStatus)
  · rename_i u go hStatus
    exact (h.awaken (h.minds t _ hStatus)).congr rfl rfl rfl
  · exact h

theorem store_cancel (s : Scheduler) (t : Nat) : (s.cancel t).store = s.store := by
  rw [Scheduler.cancel]
  split <;> rfl

theorem Governed.letGo (h : Governed db callers own s) (t : Nat) :
    Governed db callers own (s.letGo t) := by
  rw [Scheduler.letGo]
  split
  · rename_i go hStatus
    exact h.awaken (h.minds t _ hStatus)
  · exact h

theorem Governed.release (h : Governed db callers own s) : Governed db callers own s.release :=
  release_of_letGo (h.congr rfl rfl rfl) fun _ t h' => h'.letGo t

theorem Governed.call (hLive : db.backend = .live) (h : Governed db callers own s) (o : Operation) :
    ∃ own', Governed db (Function.update callers s.threads.length (some o)) own'
      (s.spawn (o.routine db)).2 := by
  have hStart : ThreadStatus.Minds
      (custody (Function.update callers s.threads.length (some o)) s.threads.length) 0
      (.ready (.ok .null) (starting (o.routine db))) := by
    rw [custody, Function.update_self]
    exact minds_starting (o.balanced hLive)
  exact ⟨_, h.add (fun _ hNe => Function.update_of_ne hNe _ _) hStart rfl rfl h.accounts⟩

/-- Every turn preserves the invariant, and what persists persists. -/
theorem Governed.turn (hLive : db.backend = .live) (h : Governed db callers own s)
    {callers' : Callers} (hTurn : Turn db callers s callers' s') :
    ∃ own', Governed db callers' own' s' ∧ s.store.Persists s'.store := by
  cases hTurn with
  | call o =>
    obtain ⟨own', h'⟩ := h.call hLive o
    exact ⟨own', h', Store.Persists.refl _⟩
  | fire i =>
    obtain ⟨own', h', hFired⟩ := h.fire i
    exact ⟨own', h', hFired.step.toPersists⟩
  | cancel ht =>
    refine ⟨own, h.cancel _, ?_⟩
    rw [store_cancel]
    exact Store.Persists.refl _
  | release =>
    refine ⟨own, h.release, ?_⟩
    rw [store_release]
    exact Store.Persists.refl _

theorem governed_start {forecast : Forecast} :
    Governed db (fun _ => none) (fun _ => 0) { database := db, store := { live := { forecast } } }
    where
  database := rfl
  callers_lt := nofun
  accounts := Store.accounts_new
  minds := nofun

/-- The invariant holds through every course of turns, and what persists persists. -/
theorem Course.governed (hLive : db.backend = .live) (h : Governed db callers own s)
    {callers' : Callers} (hCourse : Course db callers s callers' s') :
    ∃ own', Governed db callers' own' s' ∧ s.store.Persists s'.store := by
  induction hCourse with
  | refl => exact ⟨own, h, Store.Persists.refl _⟩
  | turn _ hTurn ih =>
    obtain ⟨own', h', hPersists⟩ := ih
    obtain ⟨own'', h'', hPersists'⟩ := h'.turn hLive hTurn
    exact ⟨own'', h'', hPersists.trans _ _ _ hPersists'⟩

/-- The invariant holds in every run. -/
theorem Running.governed {forecast : Forecast} (hLive : db.backend = .live)
    (h : Running db forecast callers s) : ∃ own, Governed db callers own s := by
  obtain ⟨own, hGoverned, -⟩ := Course.governed hLive governed_start h
  exact ⟨own, hGoverned⟩

end Scheduler

end SqlWeave
