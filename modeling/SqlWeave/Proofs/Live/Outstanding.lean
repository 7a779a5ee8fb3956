import SqlWeave.Proofs.Live.Interruption
import SqlWeave.Proofs.Live.Turns

/-!
# Outstanding connections

Whatever callers do, in whatever order things are done, however calls end and whoever is
cancelled, no connection is handed back twice, and when everything has come to its end the
connections that are outstanding are those of the open transactions and those that callers hold.
A transaction hands its connection back when it is closed, and only then.

## Main results

* `Scheduler.connections_accounted`: the accounts of connections in every run.
* `Scheduler.closed_iff_handedBack`: a transaction and its connection, in every run.
-/

namespace SqlWeave

/-- The connection of a transaction. -/
def Store.connectionOf (s : Store) (transaction : Transaction) : Nat :=
  s.live.connectionOf transaction.connection

namespace Scheduler

variable {db : Database} {forecast : Forecast} {callers : Callers} {s : Scheduler}

/-- Every thread has come to its end. -/
def AllFinished (s : Scheduler) : Prop :=
  ∀ status ∈ s.threads, ∃ report, status = .finished report

/-- Threads that have come to their end have nothing in hand. -/
theorem Governed.total_eq_zero {own : Nat → Hand} (h : Governed db callers own s)
    (hFinished : s.AllFinished) : total own s.threads.length = 0 := by
  refine Finset.sum_eq_zero fun t ht => ?_
  have hGet := List.getElem?_eq_getElem (Finset.mem_range.mp ht)
  obtain ⟨report, hReport⟩ := hFinished _ (List.mem_of_getElem? hGet)
  have hMinds := h.minds t _ hGet
  rw [hReport] at hMinds
  exact hMinds

/-- No connection is handed back twice, and when everything has come to its end as many
connections are outstanding as there are open transactions and connections that callers hold. -/
theorem connections_accounted (hLive : db.backend = .live)
    (h : Running db forecast callers s) :
    (handedBack s.store.live.log).Nodup ∧
      (s.AllFinished → s.store.live.outstanding.length =
        (s.store.transactions.filter (!·.isClosed)).length + s.store.heldOut.length) := by
  obtain ⟨own, hGoverned⟩ := h.governed hLive
  refine ⟨hGoverned.accounts.nodup_handedBack, fun hFinished => ?_⟩
  have hAccounts := hGoverned.accounts
  rw [hGoverned.total_eq_zero hFinished] at hAccounts
  exact hAccounts.length_outstanding

/-- Callers start operations one after another, and after each the next twelve things in the
queue are done. -/
def oneByOne (db : Database) (operations : List Operation) (s : Scheduler) : Scheduler :=
  operations.foldl (fun s o => (fire 0)^[12] (s.spawn (o.routine db)).2) s

/-- What is kept whenever the next thing in the queue is done, as long as a condition holds, holds
after any number of them. -/
theorem iterate_fire {kept : Scheduler → Prop} (condition : Scheduler → Prop)
    (hKeeps : ∀ s, kept s → condition (s.fire 0) → kept (s.fire 0)) (h : kept s) (n : Nat)
    (hCondition : ∀ m ≤ n, condition ((fire 0)^[m] s)) : kept ((fire 0)^[n] s) := by
  induction n with
  | zero => exact h
  | succ n ih =>
    have hBefore := ih fun m hm => hCondition m (Nat.le_succ_of_le hm)
    have hLast := hCondition (n + 1) (Nat.le_refl _)
    rw [Function.iterate_succ_apply'] at hLast ⊢
    exact hKeeps _ hBefore hLast

theorem Course.iterate {callers' : Callers} {s' : Scheduler} (h : Course db callers s callers' s')
    (n : Nat) : Course db callers s callers' ((fire 0)^[n] s') :=
  Function.Iterate.rec _ h (fun _ hs => .turn hs (.fire 0)) n

theorem Running.oneByOne (h : Running db forecast callers s) (operations : List Operation) :
    ∃ callers', Running db forecast callers' (s.oneByOne db operations) := by
  induction operations generalizing callers s with
  | nil => exact ⟨callers, h⟩
  | cons o rest ih =>
    have hCalled : Running db forecast (Function.update callers s.threads.length (some o))
        (s.spawn (o.routine db)).2 := .turn h (.call o)
    rw [Scheduler.oneByOne, List.foldl_cons]
    exact ih (Course.iterate hCalled 12)

/-- Has every thread come to its end? -/
def allFinished (s : Scheduler) : Bool :=
  (List.range s.threads.length).all fun t => (s.report? t).isSome

theorem allFinished_of (h : s.allFinished = true) : s.AllFinished := by
  intro status hMem
  obtain ⟨t, ht, rfl⟩ := List.mem_iff_getElem.mp hMem
  have hSome := List.all_eq_true.mp h t (List.mem_range.mpr ht)
  rw [report?, List.getElem?_eq_getElem ht] at hSome
  split at hSome
  · rename_i report hReport
    exact ⟨report, Option.some.inj hReport⟩
  · cases hSome

/-- The first commit fails. -/
def conflict : Forecast
  | .commit => [{ fault := some (.raised .operational [.str "conflict"]) }]
  | _ => []

/-- Of two transactions one is committed, which fails, and of two connections one is released,
twice: one of each is outstanding. -/
theorem connections_accounted_conflict :
    let s := oneByOne directDatabase
      [.connect, .begin, .begin, .commit 0, .getConnection, .getConnection, .release 0, .release 0]
      { database := directDatabase, store := { live := { forecast := conflict } } }
    directDatabase.backend = .live ∧ s.AllFinished ∧
      (s.store.live.log.map Call.kind).count .rollback = 1 ∧
      (handedBack s.store.live.log).Nodup ∧ s.store.live.outstanding.length = 2 := by
  intro s
  obtain ⟨callers, hRunning⟩ : ∃ callers, Running directDatabase conflict callers s :=
    Running.oneByOne .refl _
  have hFinished : s.AllFinished := allFinished_of (by decide +kernel)
  have hAccounts := connections_accounted rfl hRunning
  refine ⟨rfl, hFinished, by decide +kernel, hAccounts.1, (hAccounts.2 hFinished).trans ?_⟩
  decide +kernel

/-- A transaction hands its connection back at most once, and is closed exactly if it did; it
stays closed, and stays on its connection, through every course of turns. -/
theorem closed_iff_handedBack (hLive : db.backend = .live) (h : Running db forecast callers s)
    {t : Nat} {transaction : Transaction} (hGet : s.store.transactions[t]? = some transaction) :
    (handedBack s.store.live.log).count (s.store.connectionOf transaction) ≤ 1 ∧
      (transaction.isClosed = true ↔
        s.store.connectionOf transaction ∈ handedBack s.store.live.log) ∧
      ∀ callers' s', Course db callers s callers' s' →
        ∃ transaction', s'.store.transactions[t]? = some transaction' ∧
          s'.store.connectionOf transaction' = s.store.connectionOf transaction ∧
          (transaction.isClosed = true → transaction'.isClosed = true) := by
  obtain ⟨own, hGoverned⟩ := h.governed hLive
  refine ⟨List.nodup_iff_count_le_one.mp hGoverned.accounts.nodup_handedBack _,
    hGoverned.accounts.closed_iff hGet, fun callers' s' hCourse => ?_⟩
  obtain ⟨-, -, hPersists⟩ := Course.governed hLive hGoverned hCourse
  obtain ⟨transaction', hGet', hSame, hClosed⟩ := hPersists.transactions t transaction hGet
  obtain ⟨checkout, hCheckout⟩ := hGoverned.accounts.exists_checkout hGet
  obtain ⟨checkout', hCheckout', hConnection, -⟩ := hPersists.checkouts _ checkout hCheckout
  refine ⟨transaction', hGet', ?_, hClosed⟩
  rw [Store.connectionOf, Store.connectionOf, Live.connectionOf, Live.connectionOf, hSame,
    hCheckout, hCheckout']
  exact hConnection

end Scheduler

end SqlWeave
