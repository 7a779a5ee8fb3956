import SqlWeave.Proofs.Live.Clients
import SqlWeave.Session.Command

/-!
# Operations on a live database

What callers ask of a live database, and what every such operation has in common: it leaves the
connection manager to the transitions and all transactions alone but the one that it is about,
and at its end it has nothing in hand, so that whatever it acquired was handed back, is with a
transaction, or is held by a caller.

## Main results

* `Operation.balanced`: every operation is balanced, however its calls end and wherever it is
  cancelled.
-/

namespace SqlWeave

open SqlWeave.Action

/-- What callers ask of a database. -/
inductive Operation
  | connect
  | disconnect
  | query (q : Database.Query)
  | begin
  | getConnection
  | queryIn (transaction : Nat) (q : Database.Query)
  | commit (transaction : Nat)
  | rollback (transaction : Nat)
  /-- Leaves the block of a transaction. -/
  | leave (transaction : Nat) (endedWell : Bool)
  /-- Releases a connection that the caller got. -/
  | release (place : Nat)

/-- What an operation does. -/
def Operation.action (db : Database) : Operation → Action Store Value
  | connect => db.action .connect
  | disconnect => db.action .disconnect
  | query q => db.action (.query q)
  | «begin» => db.action .begin
  | getConnection => db.action .getConnection
  | queryIn t q => db.action (.queryIn t q)
  | commit t => db.action (.commit t)
  | rollback t => db.action (.rollback t)
  | leave t endedWell => Database.nothing (db.leave t endedWell)
  | release place => db.action (.release place)

/-- The transaction that an operation is about. -/
def Operation.transaction : Operation → Option Nat
  | queryIn t _ | commit t | rollback t | leave t _ => some t
  | _ => none

/-- The routine of an operation. -/
def Operation.routine (db : Database) (o : Operation) : Routine Store Report :=
  Scheduler.routineOf (o.action db)

namespace Database

variable {own : Option Nat}

/-! ## Looking up -/

/-- Looking up a transaction. -/
theorem minds_transaction {P : Hand → Store → Prop} (t : Nat) :
    Minds (clients own) P (transaction t) fun r others s => P others s ∧ s.transaction? t = r := by
  refine minds_state_bind fun s => minds_ofResult ?_
  rintro others s' ⟨hs, rfl⟩
  exact ⟨hs, rfl⟩

theorem balanced_transaction (t : Nat) : Balanced (clients own) (transaction t) :=
  fun _ => (minds_transaction t).mono (fun _ _ hs => hs) fun _ _ _ hs => hs.1

theorem getElem?_of_transaction? {s : Store} {t : Nat} {transaction : Transaction}
    (h : s.transaction? t = .ok transaction) : s.transactions[t]? = some transaction := by
  unfold Store.transaction? at h
  split at h
  · rename_i other hOther
    rw [hOther]
    exact congrArg some (Except.ok.inj h)
  · cases h

/-- What was looked up is forgotten. -/
theorem with_forget {x others : Hand} {s : Store} {m : Multiset (Nat × Nat)}
    (h : (clients own).With ((0, 0, m) + x) others s) : (clients own).With x others s := by
  have hAccounts : s.Accounts ((0, 0, m) + (x + others)) := by
    rw [← add_assoc]
    exact h
  exact hAccounts.forget

/-- The checkout of a transaction is looked up. -/
theorem with_lookUp {x others : Hand} {s : Store} {t : Nat} {transaction : Transaction}
    (h : (clients own).With x others s) (hGet : s.transactions[t]? = some transaction) :
    (clients own).With ((0, 0, {(t, transaction.connection)}) + x) others s := by
  have hAccounts : s.Accounts ((0, 0, {(t, transaction.connection)}) + (x + others)) :=
    Store.Accounts.lookUp h hGet
  rw [← add_assoc] at hAccounts
  exact hAccounts

/-- Looking up the checkout of an open transaction. -/
theorem minds_openConnection {x : Hand} (t : Nat) :
    Minds (clients own) ((clients own).With x) (openConnection t) fun r =>
      match r with
      | .ok c => (clients own).With ((0, 0, {(t, c)}) + x)
      | .error _ => (clients own).With x := by
  refine minds_bind (minds_transaction t) (fun transaction => ?_) fun e others s hs => hs.1
  show Minds (clients own)
    (fun others s => (clients own).With x others s ∧ s.transaction? t = .ok transaction)
    (if transaction.isClosed = true then _ else _) _
  split
  · exact minds_throw fun others s hs => hs.1
  · exact minds_pure fun others s hs => with_lookUp hs.1 (getElem?_of_transaction? hs.2)

/-- A checkout that was looked up for the own transaction. -/
theorem isApart_of_lookedUp {x others : Hand} {s : Store} {t c : Nat}
    (h : (clients (some t)).With ((0, 0, {(t, c)}) + x) others s) : s.IsApart (some t) c := by
  have hAccounts : s.Accounts ((0, 0, {(t, c)}) + (x + others)) := by
    rw [← add_assoc]
    exact h
  exact fun u transaction hNe hGet =>
    hAccounts.checkout_ne_of_lookedUp (fun hEq => hNe (congrArg some hEq)) hGet

/-- A checkout that is in hand. -/
theorem isApart_of_hand {x others : Hand} {s : Store} {c : Nat}
    (h : (clients own).With ((0, {c}, 0) + x) others s) : s.IsApart own c := by
  have hAccounts : s.Accounts ((0, {c}, 0) + (x + others)) := by
    rw [← add_assoc]
    exact h
  exact fun t transaction _ hGet => hAccounts.checkout_ne_of_hand hGet

/-- The connection on which something is done, if one is given, is the own transaction's. -/
def IsGiven (own : Option Nat) (x : Hand) (connection : Option Nat) : Prop :=
  ∀ c, connection = some c → ∀ others s, (clients own).With x others s → s.IsApart own c

theorem isGiven_none {x : Hand} : IsGiven own x none := nofun

/-- Doing something on the checkout of the own transaction. -/
theorem balanced_onTransaction {α : Type} {t : Nat} {f : Nat → Action Store α}
    (hf : ∀ c x, (∀ others s, (clients (some t)).With x others s → s.IsApart (some t) c) →
      Minds (clients (some t)) ((clients (some t)).With x) (f c) fun _ =>
        (clients (some t)).With x) :
    Balanced (clients (some t)) (openConnection t >>= f) := by
  intro x
  refine minds_bind (minds_openConnection t) (fun c => ?_) fun e others s hs => hs
  exact (hf c _ fun _ _ hs => isApart_of_lookedUp hs).mono (fun _ _ hs => hs)
    fun _ _ _ hs => with_forget hs

theorem balanced_nothing {action : Action Store Unit} (h : Balanced (clients own) action) :
    Balanced (clients own) (nothing action) :=
  h.bind fun _ => balanced_pure

section Live

variable {db : Database} (hLive : db.backend = .live)

include hLive

theorem onBackend_live {α : Type} (live memory : Action Store α) :
    db.onBackend live memory = live := by
  rw [onBackend, hLive]

theorem balanced_connect : Balanced (clients own) db.connect := by
  rw [connect, onBackend_live hLive]
  exact balanced_wait

theorem balanced_disconnect : Balanced (clients own) db.disconnect := by
  rw [disconnect, onBackend_live hLive]
  exact balanced_wait

theorem balanced_ensureConnected : Balanced (clients own) db.ensureConnected := by
  refine balanced_state_bind fun s => ?_
  show Balanced (clients own) (if db.phase s = .connected then _ else _)
  split
  · exact balanced_pure
  · show Balanced (clients own) (if (!db.settings.lazyConnect) = true then _ else _)
    split
    · exact balanced_throw
    · exact (balanced_connect hLive).bind fun _ => balanced_pure

/-! ## Statements -/

section Checkouts

variable {x : Hand} (c : Nat)
  (hApart : ∀ others s, (clients own).With x others s → s.IsApart own c)

include hApart

theorem minds_rollbackOn :
    Minds (clients own) ((clients own).With x) (db.rollbackOn c) fun _ => (clients own).With x := by
  rw [rollbackOn, onBackend_live hLive]
  exact Manager.minds_callOn c (fun _ => rfl) (fun _ => rfl) hApart

theorem minds_commitOn :
    Minds (clients own) ((clients own).With x) (db.commitOn c) fun _ => (clients own).With x := by
  rw [commitOn, onBackend_live hLive]
  exact Manager.minds_callOn c (fun _ => rfl) (fun _ => rfl) hApart

theorem minds_queryOn (sql : String) :
    Minds (clients own) ((clients own).With x) (db.queryOn c sql) fun _ =>
      (clients own).With x := by
  rw [queryOn, onBackend_live hLive]
  exact Manager.minds_queryOn c sql hApart

end Checkouts

/-- Handing back a connection that is in hand. -/
theorem minds_releaseHand {x : Hand} (c : Nat) :
    Minds (clients own) ((clients own).With ((0, {c}, 0) + x)) (db.release c) fun _ =>
      (clients own).With x := by
  rw [release, onBackend_live hLive]
  refine Manager.minds_release (fun others s hs hNot => ?_) fun others s hs hOut => ?_
  · have hMem : c ∈ s.live.out := by
      rw [← Multiset.mem_coe, ← hs.checkouts]
      show c ∈ {c} + x.2.1 + others.2.1 + _ + _
      simp
    rw [Live.mem_out, hNot] at hMem
    cases hMem
  · have hAccounts : s.Accounts ((0, {c}, 0) + (x + others)) := by
      rw [← add_assoc]
      exact hs
    exact ⟨hAccounts.releaseHand, isApart_of_hand hs,
      hAccounts.isFree_of_isOut hOut (isApart_of_hand hs)⟩

theorem minds_checkOut {x : Hand} :
    Minds (clients own) ((clients own).With x) db.checkOut fun r =>
      match r with
      | .ok c => (clients own).With ((0, {c}, 0) + x)
      | .error _ => (clients own).With x := by
  rw [checkOut, onBackend_live hLive]
  exact Manager.minds_checkOut

theorem minds_rollbackQuietly {x : Hand} {connection : Option Nat}
    (hGiven : IsGiven own x connection) :
    Minds (clients own) ((clients own).With x) (db.rollbackQuietly connection) fun _ =>
      (clients own).With x := by
  cases connection with
  | some c => exact minds_quietly (minds_rollbackOn hLive c (hGiven c rfl))
  | none =>
    refine minds_quietly (minds_bind (minds_checkOut hLive) (fun c => ?_) fun e others s hs => hs)
    exact minds_ensuring (minds_rollbackOn hLive c fun _ _ hs => isApart_of_hand hs) fun _ =>
      minds_releaseHand hLive c

theorem minds_send {x : Hand} {connection : Option Nat} (hGiven : IsGiven own x connection)
    (sql : String) : Minds (clients own) ((clients own).With x) (db.send connection sql) fun _ =>
      (clients own).With x := by
  cases connection with
  | some c => exact minds_queryOn hLive c (hGiven c rfl) sql
  | none =>
    show Minds _ _ (db.queryAnywhere sql) _
    rw [queryAnywhere, onBackend_live hLive]
    exact Manager.balanced_queryAnywhere sql x

/-- What a query does when its configuration is checked. -/
def formatted (db : Database) (q : Query) (config : QueryConfig) (connection : Option Nat) :
    Action Store Value := do
  let sql ← Action.ofResult (Template.format .standard q.sql q.params)
  match ← (db.send connection sql).outcome with
  | .ok (results, fields) => return present config results fields
  | .error f =>
    if f.isConnection || !f.isFailure then throw f
    db.rollbackQuietly connection
    throw (f.ofStatement sql db.settings.isHardened)

theorem minds_formatted {x : Hand} (q : Query) (config : QueryConfig) {connection : Option Nat}
    (hGiven : IsGiven own x connection) : Minds (clients own) ((clients own).With x)
      (db.formatted q config connection) fun _ => (clients own).With x := by
  unfold formatted
  refine minds_bind (balanced_ofResult x) (fun sql => ?_) fun _ _ _ hs => hs
  refine minds_outcome_bind (minds_send hLive hGiven sql) fun r => ?_
  cases r with
  | ok y => exact minds_pure fun _ _ hs => hs
  | error f =>
    show Minds _ _ (if (f.isConnection || !f.isFailure) = true then _ else _) _
    split
    · exact minds_throw fun _ _ hs => hs
    · exact minds_bind (minds_rollbackQuietly hLive hGiven)
        (fun _ => minds_throw fun _ _ hs => hs) fun _ _ _ hs => hs

theorem minds_run {x : Hand} (q : Query) {connection : Option Nat}
    (hGiven : IsGiven own x connection) :
    Minds (clients own) ((clients own).With x) (db.run q connection) fun _ =>
      (clients own).With x := by
  have hRest := fun config => minds_formatted hLive q config hGiven
  refine minds_bind (balanced_ofResult x) (fun config => ?_) fun _ _ _ hs => hs
  show Minds _ _ (if connection.isNone = true then _ else _) _
  split
  · exact minds_bind (balanced_ensureConnected hLive x) (fun _ => hRest config) fun _ _ _ hs => hs
  · exact hRest config

/-! ## Transactions -/

/-- Checking out a connection with a transaction on it. -/
theorem minds_checkOutTransaction {x : Hand} :
    Minds (clients own) ((clients own).With x) db.checkOutTransaction fun r =>
      match r with
      | .ok c => (clients own).With ((0, {c}, 0) + x)
      | .error _ => (clients own).With x := by
  rw [checkOutTransaction, onBackend_live hLive]
  refine minds_bind Manager.minds_checkOut (fun c => ?_) fun e others s hs => hs
  refine minds_outcome_bind (Manager.minds_callOn c (fun _ => rfl) (fun _ => rfl)
    fun _ _ hs => isApart_of_hand hs) fun r => ?_
  cases r with
  | ok u => exact minds_pure fun others s hs => hs
  | error f =>
    have hRelease : Minds (clients own) ((clients own).With ((0, {c}, 0) + x)) (db.release c)
        fun _ => (clients own).With x := minds_releaseHand hLive c
    rw [release, onBackend_live hLive] at hRelease
    exact minds_bind hRelease (fun _ => minds_throw fun others s hs => hs) fun e others s hs => hs

theorem balanced_begin : Balanced (clients own) db.begin := by
  refine (balanced_ensureConnected hLive).bind fun _ x => ?_
  refine minds_bind (minds_checkOutTransaction hLive) (fun c => ?_) fun e others s hs => hs
  refine minds_stateful fun others s hs => ⟨?_, ?_⟩
  · refine Store.clientStep_silent rfl (.refl Checkout.Persists.refl _)
      (.append Transaction.Persists.refl _ _) fun t transaction _ hGet => ⟨?_, rfl⟩
    exact (List.getElem?_append_left (List.getElem?_eq_some_iff.mp hGet).1).trans hGet
  · have hAccounts : s.Accounts ((0, {c}, 0) + (x + others)) := by
      rw [← add_assoc]
      exact hs
    exact hAccounts.begin

/-- Finishing a transaction: nothing happens if it is closed already, or is none. -/
theorem balanced_finish (t : Nat) : Balanced (clients (some t)) (db.finish t) := by
  intro x
  refine minds_bind (minds_transaction t) (fun transaction => ?_) fun e others s hs => hs.1
  show Minds (clients (some t))
    (fun others s => (clients (some t)).With x others s ∧ s.transaction? t = .ok transaction)
    (if transaction.isClosed = true then _ else _) _
  split
  · exact minds_pure fun others s hs => hs.1
  · rename_i hOpen
    rw [Bool.not_eq_true] at hOpen
    let Closed (others : Hand) (s' : Store) : Prop :=
      ∃ s : Store, s.Accounts (x + others) ∧ s.transactions[t]? = some transaction ∧
        s' = s.closeTransaction t
    have hOther : ∀ {s : Store} {u : Nat} {other : Transaction}, some u ≠ some t →
        (s.closeTransaction t).transactions[u]? = some other → s.transactions[u]? = some other :=
      fun hNe hGet =>
        (List.getElem?_modify_ne _ _ fun hEq => hNe (congrArg some hEq.symm)).symm.trans hGet
    have hRelease : Minds (clients (some t)) Closed (db.release transaction.connection) fun _ =>
        (clients (some t)).With x := by
      rw [release, onBackend_live hLive]
      refine Manager.minds_release ?_ ?_
      · rintro others s' ⟨s, hs, hGet, rfl⟩ hNot
        have hOut := hs.isOut_of_open hGet hOpen
        rw [show s.live.isOut transaction.connection = false from hNot] at hOut
        cases hOut
      · rintro others s' ⟨s, hs, hGet, rfl⟩ hOut
        have hLookedUp : (clients (some t)).With ((0, 0, {(t, transaction.connection)}) + x) others
            s := with_lookUp hs hGet
        have hApart : s.IsApart (some t) transaction.connection := isApart_of_lookedUp hLookedUp
        have hFree := hs.isFree_of_isOut hOut hApart
        exact ⟨hs.finish hGet hOpen, fun u other hNe hGet' => hApart u other hNe (hOther hNe hGet'),
          fun u other hNe hGet' => hFree u other hNe (hOther hNe hGet')⟩
    refine minds_change_bind (fun others s hs => ?_) hRelease
    have hGet := getElem?_of_transaction? hs.2
    refine ⟨?_, s, hs.1, hGet, rfl⟩
    refine Store.clientStep_silent rfl (.refl Checkout.Persists.refl _)
      (Entrywise.modify Transaction.Persists.refl (f := ({ · with isClosed := true }))
        (fun _ => ⟨rfl, fun _ => rfl⟩) _ _) fun u other hNe hGet' => ⟨?_, rfl⟩
    exact (List.getElem?_modify_ne _ _ fun hEq => hNe (congrArg some hEq.symm)).trans hGet'

theorem balanced_queryIn (t : Nat) (q : Query) :
    Balanced (clients (some t)) (db.queryIn t q) := by
  refine balanced_onTransaction fun c x hApart => ?_
  have hGiven : IsGiven (some t) x (some c) := fun _ hd => Option.some.inj hd ▸ hApart
  refine minds_outcome_bind (minds_run hLive q hGiven) fun r => ?_
  cases r with
  | ok v => exact minds_pure fun _ _ hs => hs
  | error f =>
    show Minds _ _ (if (f.kind == .sql) = true then _ else _) _
    split
    · exact minds_bind (balanced_finish hLive t x) (fun _ => minds_throw fun _ _ hs => hs)
        fun _ _ _ hs => hs
    · exact minds_throw fun _ _ hs => hs

theorem minds_ending {x : Hand} (t : Nat) (statement : String)
    {action afterFailure : Action Store Unit}
    (hAction : Minds (clients (some t)) ((clients (some t)).With x) action fun _ =>
      (clients (some t)).With x)
    (hAfter : Minds (clients (some t)) ((clients (some t)).With x) afterFailure fun _ =>
      (clients (some t)).With x) :
    Minds (clients (some t)) ((clients (some t)).With x)
      (db.ending t statement action afterFailure) fun _ => (clients (some t)).With x := by
  refine minds_ensuring (minds_outcome_bind hAction fun r => ?_) fun _ => balanced_finish hLive t x
  cases r with
  | ok u => exact minds_pure fun _ _ hs => hs
  | error f =>
    show Minds _ _ (if (!f.isFailure) = true then _ else _) _
    split
    · exact minds_throw fun _ _ hs => hs
    · exact minds_bind hAfter (fun _ => minds_throw fun _ _ hs => hs) fun _ _ _ hs => hs

theorem balanced_commit (t : Nat) : Balanced (clients (some t)) (db.commit t) :=
  balanced_onTransaction fun c _ hApart =>
    minds_ending hLive t "COMMIT;" (minds_commitOn hLive c hApart)
      (minds_rollbackQuietly hLive fun _ hd => Option.some.inj hd ▸ hApart)

theorem balanced_rollback (t : Nat) : Balanced (clients (some t)) (db.rollback t) := by
  intro x
  refine minds_bind (minds_transaction t) (fun transaction => ?_) fun e others s hs => hs.1
  show Minds (clients (some t))
    (fun others s => (clients (some t)).With x others s ∧ s.transaction? t = .ok transaction)
    (if transaction.isClosed = true then _ else _) _
  split
  · exact minds_pure fun _ _ hs => hs.1
  · have hEnding := minds_ending (x := (0, 0, {(t, transaction.connection)}) + x) hLive t "ROLLBACK;"
      (minds_rollbackOn hLive transaction.connection fun _ _ hs => isApart_of_lookedUp hs)
      (minds_pure (a := ()) fun _ _ hs => hs)
    exact hEnding.mono (fun _ _ hs => with_lookUp hs.1 (getElem?_of_transaction? hs.2))
      fun _ _ _ hs => with_forget hs

theorem balanced_leave (t : Nat) (endedWell : Bool) :
    Balanced (clients (some t)) (db.leave t endedWell) := by
  refine (balanced_transaction t).bind fun transaction => ?_
  show Balanced (clients (some t)) (if transaction.isClosed = true then _ else _)
  split
  · exact balanced_pure
  · show Balanced (clients (some t)) (if endedWell = true then _ else _)
    split
    · exact balanced_commit hLive t
    · exact balanced_rollback hLive t

/-! ## Connections that callers hold -/

theorem balanced_getConnection : Balanced (clients own) (db.action .getConnection) := by
  refine (balanced_ensureConnected hLive).bind fun _ x => ?_
  refine minds_bind (minds_checkOut hLive) (fun c => ?_) fun e others s hs => hs
  refine minds_stateful fun others s hs => ⟨?_, ?_⟩
  · exact Store.clientStep_aside rfl rfl
  · have hAccounts : s.Accounts ((0, {c}, 0) + (x + others)) := by
      rw [← add_assoc]
      exact hs
    exact hAccounts.hold

theorem balanced_release (place : Nat) : Balanced (clients own) (db.action (.release place)) := by
  intro x
  refine minds_bind (R := fun r others s => (clients own).With x others s ∧
    ∀ c, r = .ok c → c ∈ s.held) ?_ (fun c => ?_) fun e others s hs => hs.1
  · refine minds_state_bind fun s => ?_
    cases hGet : s.held[place]? with
    | none =>
      refine minds_throw ?_
      rintro others s' ⟨hs, rfl⟩
      exact ⟨hs, nofun⟩
    | some c =>
      refine minds_pure ?_
      rintro others s' ⟨hs, rfl⟩
      refine ⟨hs, fun d hd => ?_⟩
      cases hd
      exact List.mem_of_getElem? hGet
  · have hRelease : Minds (clients own)
        (fun others s => (clients own).With x others s ∧ c ∈ s.held)
        (db.release c) fun _ => (clients own).With x := by
      rw [release, onBackend_live hLive]
      refine Manager.minds_release (fun others s hs _ => hs.1) fun others s hs hOut => ?_
      have hHeld : c ∈ s.heldOut := List.mem_filter.mpr ⟨hs.2, hOut⟩
      have hApart : s.IsApart own c := fun t transaction _ hGet =>
        Store.Accounts.checkout_ne_of_held hs.1 hHeld hGet
      exact ⟨Store.Accounts.releaseHeld hs.1 hHeld, hApart,
        Store.Accounts.isFree_of_isOut hs.1 hOut hApart⟩
    exact minds_bind (hRelease.mono (fun others s hs => ⟨hs.1, hs.2 c rfl⟩) fun r others s hs => hs)
      (fun _ => minds_pure fun others s hs => hs) fun e others s hs => hs

end Live

end Database

/-- Every operation ends with nothing in hand. -/
theorem Operation.balanced {db : Database} (hLive : db.backend = .live) (o : Operation) :
    Balanced (clients o.transaction) (o.action db) := by
  cases o with
  | connect => exact Database.balanced_connect hLive
  | disconnect => exact Database.balanced_disconnect hLive
  | query q => exact fun x => Database.minds_run hLive q Database.isGiven_none
  | «begin» => exact (Database.balanced_begin hLive).bind fun _ => balanced_pure
  | getConnection => exact Database.balanced_getConnection hLive
  | queryIn t q => exact Database.balanced_queryIn hLive t q
  | commit t => exact Database.balanced_nothing (Database.balanced_commit hLive t)
  | rollback t => exact Database.balanced_nothing (Database.balanced_rollback hLive t)
  | leave t endedWell =>
    exact Database.balanced_nothing (Database.balanced_leave hLive t endedWell)
  | release place => exact Database.balanced_release hLive place

end SqlWeave
