import SqlWeave.Proofs.Live.Operations
import SqlWeave.Proofs.Live.Traces

/-!
# What becomes of a failed call

A statement, a commit or a rollback fails because a call to the driver failed.  Whatever is
done after that, a rollback that fails as well or the hand-back of the connection, what the
caller gets is the fault of the first call that failed, wrapped as the fault of a statement.
Only faults of the connection are passed on as they are.

## Main results

* `traces_run`, `traces_ending`: statements, and actions that end a transaction.
* `Operation.traces`: every operation that runs statements, commits or rolls back wraps the
  first fault that its calls met.
-/

namespace SqlWeave

open SqlWeave.Action Database

/-- The operation runs a statement, commits or rolls back. -/
def Operation.isStatement : Operation → Bool
  | query _ | queryIn .. | commit _ | rollback _ | leave .. => true
  | _ => false

/-- If a call failed first, and not for want of a connection, the result is its fault, wrapped as
the fault of a statement. -/
def Wraps {α : Type} (db : Database) (r : Result α) (y : Option Fault) : Prop :=
  ∀ f, y = some f → f.isConnection = false →
    ∃ statement, r = .error (f.ofStatement statement db.settings.isHardened)

/-- There is a checkout with this number. -/
def Store.IsCheckedOut (c : Nat) (s : Store) : Prop :=
  ∃ checkout, s.live.checkouts[c]? = some checkout

/-- The transaction has the checkout. -/
def Store.IsPinned (t c : Nat) (s : Store) : Prop :=
  (∃ transaction, s.transactions[t]? = some transaction ∧ transaction.connection = c) ∧
    s.IsCheckedOut c

theorem Store.lasts_true : Store.Lasts fun _ => True :=
  fun _ _ _ _ => trivial

theorem Store.lasts_isCheckedOut (c : Nat) : Store.Lasts (Store.IsCheckedOut c) := by
  rintro s s' hPersists ⟨checkout, hGet⟩
  obtain ⟨checkout', hGet', -⟩ := hPersists.checkouts c checkout hGet
  exact ⟨checkout', hGet'⟩

theorem Store.lasts_isPinned (t c : Nat) : Store.Lasts (Store.IsPinned t c) := by
  rintro s s' hPersists ⟨⟨transaction, hGet, hSame⟩, hCheckout⟩
  obtain ⟨transaction', hGet', hConnection, -⟩ := hPersists.transactions t transaction hGet
  exact ⟨⟨transaction', hGet', hConnection.trans hSame⟩,
    Store.lasts_isCheckedOut c s s' hPersists hCheckout⟩

theorem Store.Lasts.and {T T' : Store → Prop} (h : Store.Lasts T) (h' : Store.Lasts T') :
    Store.Lasts fun s => T s ∧ T' s :=
  fun s s' hPersists hs => ⟨h s s' hPersists hs.1, h' s s' hPersists hs.2⟩

/-- A fault that was wrapped. -/
theorem wraps_ofStatement {α : Type} {db : Database} {f : Fault} (statement : String) :
    Wraps db (.error (f.ofStatement statement db.settings.isHardened) : Result α) (some f) := by
  rintro _ ⟨⟩ -
  exact ⟨statement, rfl⟩

theorem wraps_none {α : Type} {db : Database} {r : Result α} : Wraps db r none := nofun

/-- Where nothing has failed, nothing is to be wrapped. -/
theorem Told.wraps {α : Type} {db : Database} {T : Store → Prop} {made : Trace} {s : Store}
    (h : Told T (· = none) made s) {r : Result α} : Told T (Wraps db r) made s :=
  h.mono (fun _ h => h) fun _ hNone => hNone ▸ wraps_none

theorem Fault.ofStatement_kind (f : Fault) (statement : String) (isHardened : Bool) :
    (f.ofStatement statement isHardened).kind = .sql := rfl

section

variable {α β : Type} {T : Store → Prop} {G : Option Fault → Prop} {x : Option Fault} {c : Nat}
  (hT : Store.Lasts T)

/-! ## Connections -/

/-- Looking up a checkout. -/
theorem traces_checkout_bind {f : Checkout → Action Store α} {Q : Trace → Result α → Store → Prop}
    (hOut : ∀ s, T s → s.IsCheckedOut c) (hf : ∀ checkout, Traces (Told T G) (f checkout) Q) :
    Traces (Told T G) (Manager.checkout c >>= f) Q := by
  have hFound : Traces (Told T G) (Manager.checkout c) fun made r s =>
      (∃ checkout, r = .ok checkout) ∧ Told T G made s := by
    refine traces_state_bind fun s => ?_
    cases hGet : s.live.checkouts[c]? with
    | some checkout => exact traces_pure fun made s' hs => ⟨⟨checkout, rfl⟩, hs.1⟩
    | none =>
      refine traces_throw ?_
      rintro made s' ⟨hs, rfl⟩
      obtain ⟨checkout, hSome⟩ := hOut s' hs.1
      rw [hGet] at hSome
      cases hSome
  refine traces_bind hFound (fun checkout => (hf checkout).mono (fun _ _ hs => hs.2)
    fun _ _ _ h => h) ?_
  rintro e made s ⟨⟨checkout, hEq⟩, -⟩
  cases hEq

/-- The pool of a connected manager. -/
theorem traces_requirePool : Traces (Told T (· = x)) Manager.requirePool (Fares T x) := by
  refine traces_state_bind fun s => traces_ofResult ?_
  rintro made s' ⟨hs, rfl⟩
  refine hs.mono (fun _ h => h) fun y hy => ?_
  unfold Manager.require
  split
  · exact hy
  · exact ⟨rfl, .inr ⟨rfl, hy⟩⟩

/-- An action and the hand-back of a connection in any case. -/
theorem traces_ensuring_handBack {P : Trace → Store → Prop} {a : Action Store α}
    {cleanup : Action Store Unit} {W : Result α → Option Fault → Prop}
    (ha : Traces P a fun made r => Told T (W r) made)
    (hCleanup : ∀ G, Traces (Told T G) cleanup (Succeeds T G)) :
    Traces P (ensuring a cleanup) fun made r => Told T (W r) made := by
  refine traces_ensuring ha fun r => (hCleanup (W r)).mono (fun _ _ hs => hs) fun made r' s hs => ?_
  cases r' with
  | ok u => exact hs.1
  | error e => exact hs.of_error

include hT

theorem traces_acquire (pool : Nat) :
    Traces (Told T (· = x)) (Manager.acquire pool) (Fares T x) := by
  refine traces_fares_bind (fares_of_callFate (traces_callFate hT (.acquire pool))) fun _ => ?_
  refine traces_silent (fun _ => rfl) (fun _ => rfl) fun made s hs => ⟨?_, hs.2⟩
  refine hT s _ ⟨.of_eq rfl rfl, .refl Checkout.Persists.refl _, ?_⟩ hs.1
  exact .refl Transaction.Persists.refl _

theorem traces_execute (connection : Nat) (sql : String) :
    Traces (Told T (· = x)) (Manager.execute connection sql) (Fares T x) :=
  fares_of_callFate (traces_callThen hT _ _)

theorem traces_executeOn (pool : Nat) (sql : String) :
    Traces (Told T (· = x)) (Manager.executeOn pool sql) (Fares T x) := by
  refine traces_fares_bind (traces_acquire hT pool) fun connection => ?_
  exact traces_ensuring_handBack (traces_execute hT connection sql) fun _ =>
    traces_handBack hT connection

/-- A connection that was checked out is handed back, unless it was before. -/
theorem traces_managerRelease (hOut : ∀ s, T s → s.IsCheckedOut c) :
    Traces (Told T G) (Manager.release c) (Succeeds T G) := by
  refine traces_checkout_bind hOut fun checkout => ?_
  show Traces _ (if checkout.isReleased = true then _ else _) _
  split
  · exact traces_pure fun made s hs => ⟨hs, fun _ => rfl⟩
  · refine traces_change_bind (fun _ => rfl) (fun _ => rfl) (fun made s hs => ⟨?_, hs.2⟩)
      (traces_handBack hT checkout.connection)
    refine hT s _ ⟨.of_eq rfl rfl, ?_, .refl Transaction.Persists.refl _⟩ hs.1
    exact .modify (f := ({ · with isReleased := true })) Checkout.Persists.refl
      (fun _ => ⟨rfl, fun _ => rfl⟩) _ _

theorem traces_callOn (make : Nat → Call) (hOut : ∀ s, T s → s.IsCheckedOut c) :
    Traces (Told T (· = x)) (Manager.callOn c make) fun made r => Told T (CallFate x r) made :=
  traces_checkout_bind hOut fun checkout =>
    traces_callThen hT (make checkout.connection) fun _ => ()

theorem traces_managerCheckOut :
    Traces (Told T (· = x)) Manager.checkOut fun made r s =>
      Told (fun s => T s ∧ ∀ c, r = .ok c → s.IsCheckedOut c) (Fate x r) made s := by
  refine traces_bind traces_requirePool (fun pool => ?_) fun e made s hs => ⟨⟨hs.1, nofun⟩, hs.2⟩
  refine traces_bind (traces_acquire hT pool) (fun connection => ?_)
    fun e made s hs => ⟨⟨hs.1, nofun⟩, hs.2⟩
  refine traces_silent (fun _ => rfl) (fun _ => rfl) fun made s hs => ⟨⟨?_, ?_⟩, hs.2⟩
  · refine hT s _ ⟨.of_eq rfl rfl, ?_, .refl Transaction.Persists.refl _⟩ hs.1
    exact .append Checkout.Persists.refl _ _
  · rintro c hEq
    cases hEq
    exact ⟨{ connection }, List.getElem?_concat_length⟩

/-! ## Statements -/

variable {db : Database} (hLive : db.backend = .live)

include hLive

theorem traces_release (hOut : ∀ s, T s → s.IsCheckedOut c) :
    Traces (Told T G) (db.release c) (Succeeds T G) := by
  rw [release, onBackend_live hLive]
  exact traces_managerRelease hT hOut

theorem traces_rollbackOn (hOut : ∀ s, T s → s.IsCheckedOut c) :
    Traces (Told T (· = x)) (db.rollbackOn c) fun made r => Told T (CallFate x r) made := by
  rw [rollbackOn, onBackend_live hLive]
  exact traces_callOn hT .rollback hOut

theorem traces_commitOn (hOut : ∀ s, T s → s.IsCheckedOut c) :
    Traces (Told T (· = x)) (db.commitOn c) fun made r => Told T (CallFate x r) made := by
  rw [commitOn, onBackend_live hLive]
  exact traces_callOn hT .commit hOut

/-- The connection on which something is done is checked out, if one is given. -/
def GivenOut (T : Store → Prop) (connection : Option Nat) : Prop :=
  ∀ c, connection = some c → ∀ s, T s → s.IsCheckedOut c

theorem traces_send {connection : Option Nat} (hGiven : GivenOut T connection) (sql : String) :
    Traces (Told T (· = x)) (db.send connection sql) (Fares T x) := by
  cases connection with
  | some c =>
    show Traces _ (db.queryOn c sql) _
    rw [queryOn, onBackend_live hLive]
    exact traces_checkout_bind (hGiven c rfl) fun checkout =>
      traces_execute hT checkout.connection sql
  | none =>
    show Traces _ (db.queryAnywhere sql) _
    rw [queryAnywhere, onBackend_live hLive]
    exact traces_fares_bind traces_requirePool fun pool => traces_executeOn hT pool sql

/-- A rollback is tried behind a first fault. -/
theorem traces_rollbackQuietly {connection : Option Nat} (hGiven : GivenOut T connection)
    {f : Fault} :
    Traces (Told T (· = some f)) (db.rollbackQuietly connection) (Succeeds T (· = some f)) := by
  cases connection with
  | some c => exact traces_quietly (fares_of_callFate (traces_rollbackOn hT hLive (hGiven c rfl)))
  | none =>
    refine traces_quietly (traces_bind (R := fun made r s =>
      Told (fun s => T s ∧ ∀ c, r = .ok c → s.IsCheckedOut c) (Fate (some f) r) made s)
      ?_ (fun c => ?_) ?_)
    · rw [checkOut, onBackend_live hLive]
      exact traces_managerCheckOut hT
    · let T' (s : Store) : Prop := T s ∧ s.IsCheckedOut c
      have hT' : Store.Lasts T' := hT.and (Store.lasts_isCheckedOut c)
      have hEnsured : Traces (Told T' (· = some f))
          (ensuring (db.rollbackOn c) (db.release c)) (Fares T' (some f)) :=
        traces_ensuring_handBack
          (fares_of_callFate (traces_rollbackOn hT' hLive fun _ hs => hs.2)) fun _ =>
            traces_release hT' hLive fun _ hs => hs.2
      exact hEnsured.mono (fun _ _ hs => hs.mono (fun _ h => ⟨h.1, h.2 c rfl⟩) fun _ h => h)
        fun _ _ _ hs => hs.mono (fun _ h => h.1) fun _ h => h
    · exact fun e made s hs => hs.mono (fun _ h => h.1) fun _ h => h

/-- Connecting makes no call itself. -/
theorem traces_ensureConnected : Traces (Told T G) db.ensureConnected fun made _ => Told T G made := by
  refine traces_state_bind fun s => ?_
  show Traces _ (if db.phase s = .connected then _ else _) _
  split
  · exact traces_pure fun made s' hs => hs.1
  · show Traces _ (if (!db.settings.lazyConnect) = true then _ else _) _
    split
    · exact traces_throw fun made s' hs => hs.1
    · have hConnect : Traces (Told T G) db.connect fun made _ => Told T G made := by
        rw [connect, onBackend_live hLive]
        exact traces_wait fun made s s' r hs hElapses _ => ⟨hT s s' hElapses.persists hs.1, hs.2⟩
      exact traces_bind (hConnect.mono (fun _ _ hs => hs.1) fun _ _ _ hs => hs)
        (fun _ => traces_pure fun _ _ hs => hs) fun _ _ _ hs => hs

/-- The fault of sending a statement: a fault of the connection passes, any other is wrapped
behind a rollback. -/
theorem traces_wrapFault {connection : Option Nat} (hGiven : GivenOut T connection) (sql : String)
    (f : Fault) :
    Traces (fun made s => Fares T none made (.error f : Result (Value × Value)) s)
      (do
        if f.isConnection || !f.isFailure then throw f
        db.rollbackQuietly connection
        throw (f.ofStatement sql db.settings.isHardened) : Action Store Value)
      fun made r => Told T (Wraps db r) made := by
  show Traces _ (if (f.isConnection || !f.isFailure) = true then _ else _) _
  split
  · rename_i hPassed
    refine traces_throw fun made s hs => hs.mono (fun _ h => h) fun y hy g hg hNot => ?_
    rw [hy.1, Bool.not_true, Bool.or_false] at hPassed
    rcases hy.2 with hFirst | ⟨-, hNone⟩
    · rw [hFirst] at hg
      cases hg
      rw [hPassed] at hNot
      cases hNot
    · rw [hNone] at hg
      cases hg
  · rename_i hWrapped
    rw [Bool.or_eq_true, not_or, Bool.not_eq_true] at hWrapped
    have hFirst : ∀ made s, Fares T none made (.error f : Result (Value × Value)) s →
        Told T (· = some f) made s := by
      refine fun made s hs => hs.mono (fun _ h => h) fun y hy => ?_
      rcases hy.2 with hFirst | ⟨hConnection, -⟩
      · exact hFirst
      · rw [hWrapped.1] at hConnection
        cases hConnection
    refine traces_bind ((traces_rollbackQuietly hT hLive hGiven).mono hFirst fun _ _ _ hs => hs)
      (fun _ => traces_throw fun made s hs => ?_) fun e made s hs => hs.of_error
    exact hs.1.mono (fun _ h => h) fun y hy => hy ▸ wraps_ofStatement sql

theorem traces_formatted (q : Query) (config : QueryConfig) {connection : Option Nat}
    (hGiven : GivenOut T connection) : Traces (Told T (· = none))
      (db.formatted q config connection) fun made r => Told T (Wraps db r) made := by
  unfold formatted
  refine traces_bind (R := fun made _ => Told T (· = none) made)
    (traces_ofResult fun _ _ hs => hs) (fun sql => ?_) fun _ _ _ hs => hs.wraps
  refine traces_outcome_bind (traces_send hT hLive hGiven sql) fun r => ?_
  cases r with
  | ok sets => exact traces_pure fun made s hs => hs.wraps
  | error f => exact traces_wrapFault hT hLive hGiven sql f

/-- A statement that was sent wraps the first fault that its calls met. -/
theorem traces_run (q : Query) {connection : Option Nat} (hGiven : GivenOut T connection) :
    Traces (Told T (· = none)) (db.run q connection) fun made r => Told T (Wraps db r) made := by
  have hFormatted := fun config => traces_formatted hT hLive q config hGiven
  refine traces_bind (R := fun made _ => Told T (· = none) made) (traces_ofResult fun _ _ hs => hs)
    (fun config => ?_) fun _ _ _ hs => hs.wraps
  show Traces _ (if connection.isNone = true then _ else _) _
  split
  · exact traces_bind (traces_ensureConnected hT hLive) (fun _ => hFormatted config)
      fun _ _ _ hs => hs.wraps
  · exact hFormatted config

end

/-! ## Transactions -/

section

variable {db : Database} (hLive : db.backend = .live) {t c : Nat} {G : Option Fault → Prop}

/-- A routine starts with an empty trace. -/
def Starts (made : Trace) (s : Store) : Prop :=
  made = [] ∧ s.HasCheckouts

theorem Starts.told {made : Trace} {s : Store} (h : Starts made s) :
    Told (fun _ => True) (· = none) made s :=
  ⟨trivial, fun _ => by rw [h.1]; rfl⟩

/-- Before any call was made, nothing is to be wrapped. -/
theorem Starts.wraps {α : Type} {made : Trace} {s : Store} (h : Starts made s) {r : Result α} :
    Told (fun _ => True) (Wraps db r) made s :=
  h.told.wraps

/-- A transaction that was looked up has its checkout. -/
theorem traces_transaction :
    Traces Starts (Database.transaction t) fun made r s => Starts made s ∧
      ∀ transaction, r = .ok transaction → s.IsPinned t transaction.connection := by
  refine traces_state_bind fun s => traces_ofResult ?_
  rintro made s' ⟨hs, rfl⟩
  refine ⟨hs, fun transaction hFound => ?_⟩
  have hGet := getElem?_of_transaction? hFound
  exact ⟨⟨transaction, hGet, rfl⟩, hs.2 t transaction hGet⟩

/-- So has one that is open. -/
theorem traces_openConnection :
    Traces Starts (openConnection t) fun made r s => Starts made s ∧
      ∀ c, r = .ok c → s.IsPinned t c := by
  refine traces_bind traces_transaction (fun transaction => ?_) fun e made s hs => ⟨hs.1, nofun⟩
  show Traces _ (if transaction.isClosed = true then _ else _) _
  split
  · exact traces_throw fun made s hs => ⟨hs.1, nofun⟩
  · refine traces_pure fun made s hs => ⟨hs.1, ?_⟩
    rintro _ ⟨⟩
    exact hs.2 transaction rfl

/-- What is done on the transaction that was looked up. -/
theorem traces_pinned {α β : Type} {lookUp : Action Store β} {f : β → Action Store α} {c : β → Nat}
    (hLookUp : Traces Starts lookUp fun made r s => Starts made s ∧
      ∀ b, r = .ok b → s.IsPinned t (c b))
    (hf : ∀ b, Traces (Told (Store.IsPinned t (c b)) (· = none)) (f b)
      fun made r => Told (fun _ => True) (Wraps db r) made) :
    Traces Starts (lookUp >>= f) fun made r => Told (fun _ => True) (Wraps db r) made :=
  traces_bind hLookUp
    (fun b => (hf b).mono (fun _ _ hs => ⟨hs.2 b rfl, hs.1.told.2⟩) fun _ _ _ hs => hs)
    fun _ _ _ hs => hs.1.wraps

theorem traces_nothing {P : Trace → Store → Prop} {a : Action Store Unit}
    (ha : Traces P a fun made r => Told (fun _ => True) (Wraps db r) made) :
    Traces P (nothing a) fun made r => Told (fun _ => True) (Wraps db r) made := by
  refine traces_bind ha (fun _ => traces_pure fun made s hs => ?_) fun e made s hs => ?_
  · refine hs.mono (fun _ h => h) fun y hy f hf hNot => ?_
    obtain ⟨statement, hEq⟩ := hy f hf hNot
    cases hEq
  · refine hs.mono (fun _ h => h) fun y hy f hf hNot => ?_
    obtain ⟨statement, hEq⟩ := hy f hf hNot
    cases hEq
    exact ⟨statement, rfl⟩

include hLive

/-- A transaction is finished. -/
theorem traces_finish :
    Traces (Told (Store.IsPinned t c) G) (db.finish t) (Succeeds (Store.IsPinned t c) G) := by
  have hT := Store.lasts_isPinned t c
  refine traces_bind (R := fun made r s => Told (Store.IsPinned t c) G made s ∧
    ∃ transaction : Transaction, r = .ok transaction ∧ transaction.connection = c) ?_
    (fun transaction => ?_) ?_
  · refine traces_state_bind fun s => traces_ofResult ?_
    rintro made s' ⟨hs, rfl⟩
    obtain ⟨transaction, hGet, hSame⟩ := hs.1.1
    refine ⟨hs, transaction, ?_, hSame⟩
    rw [Store.transaction?, hGet]
  · show Traces _ (if transaction.isClosed = true then _ else _) _
    split
    · exact traces_pure fun made s hs => ⟨hs.1, fun _ => rfl⟩
    · refine (traces_change_bind (R := fun made s => Told (Store.IsPinned t c) G made s ∧
        transaction.connection = c) (fun _ => rfl) (fun _ => rfl) ?_ ?_)
      · rintro made s ⟨hs, other, hEq, hSame⟩
        cases hEq
        refine ⟨⟨hT s _ ⟨.refl _, .refl Checkout.Persists.refl _, ?_⟩ hs.1, hs.2⟩, hSame⟩
        exact .modify (f := ({ · with isClosed := true })) Transaction.Persists.refl
          (fun _ => ⟨rfl, fun _ => rfl⟩) _ _
      · rintro made s ⟨hs, hSame⟩
        exact traces_release hT hLive (fun _ hs' => hSame ▸ hs'.2) made s hs
  · rintro e made s ⟨-, transaction, hEq, -⟩
    cases hEq

theorem traces_queryIn (q : Query) :
    Traces Starts (db.queryIn t q) fun made r => Told (fun _ => True) (Wraps db r) made := by
  refine traces_pinned traces_openConnection fun c => ?_
  have hGiven : GivenOut (Store.IsPinned t c) (some c) := by
    rintro _ ⟨⟩ s hs
    exact hs.2
  refine traces_outcome_bind (traces_run (Store.lasts_isPinned t c) hLive q hGiven) fun r => ?_
  cases r with
  | ok v => exact traces_pure fun made s hs => hs.mono (fun _ _ => trivial) fun _ h => h
  | error f =>
    show Traces _ (if (f.kind == .sql) = true then _ else _) _
    split
    · refine traces_bind (traces_finish hLive) (fun _ => traces_throw fun made s hs => ?_)
        fun e made s hs => ⟨trivial, hs.of_error.2⟩
      exact hs.1.mono (fun _ _ => trivial) fun _ h => h
    · exact traces_throw fun made s hs => hs.mono (fun _ _ => trivial) fun _ h => h

omit hLive in
/-- An action that ends a transaction, before the connection is handed back. -/
theorem traces_concluding (statement : String) {action afterFailure : Action Store Unit}
    (hAction : Traces (Told (Store.IsPinned t c) (· = none)) action
      fun made r => Told (Store.IsPinned t c) (CallFate none r) made)
    (hAfter : ∀ f, Traces (Told (Store.IsPinned t c) (· = some f)) afterFailure
      (Succeeds (Store.IsPinned t c) (· = some f))) :
    Traces (Told (Store.IsPinned t c) (· = none)) (do
      match ← action.outcome with
      | .ok () => return
      | .error f =>
        if !f.isFailure then throw f
        afterFailure
        throw (f.ofStatement statement db.settings.isHardened)) fun made r =>
          Told (Store.IsPinned t c) (Wraps db r) made := by
  refine traces_outcome_bind hAction fun r => ?_
  cases r with
  | ok u =>
    exact traces_pure fun made s hs => hs.mono (fun _ h => h) fun _ hy => hy ▸ wraps_none
  | error f =>
    show Traces _ (if (!f.isFailure) = true then _ else _) _
    split
    · rename_i hOther
      refine traces_throw fun made s hs => ⟨hs.1, fun hFair => ?_⟩
      rw [(hs.2 hFair).1] at hOther
      cases hOther
    · have hFirst : ∀ made s,
          Told (Store.IsPinned t c) (CallFate none (.error f : Result Unit)) made s →
            Told (Store.IsPinned t c) (· = some f) made s :=
        fun made s hs => hs.mono (fun _ h => h) fun _ hy => hy.2
      refine traces_bind ((hAfter f).mono hFirst fun _ _ _ hs => hs)
        (fun _ => traces_throw fun made s hs => ?_) fun e made s hs => hs.of_error
      exact hs.1.mono (fun _ h => h) fun y hy => hy ▸ wraps_ofStatement statement

/-- An action that ends a transaction wraps the fault of its call. -/
theorem traces_ending (statement : String) {action afterFailure : Action Store Unit}
    (hAction : Traces (Told (Store.IsPinned t c) (· = none)) action
      fun made r => Told (Store.IsPinned t c) (CallFate none r) made)
    (hAfter : ∀ f, Traces (Told (Store.IsPinned t c) (· = some f)) afterFailure
      (Succeeds (Store.IsPinned t c) (· = some f))) :
    Traces (Told (Store.IsPinned t c) (· = none)) (db.ending t statement action afterFailure)
      fun made r => Told (fun _ => True) (Wraps db r) made := by
  refine (traces_ensuring_handBack (traces_concluding statement hAction hAfter)
    fun _ => traces_finish hLive).mono (fun _ _ hs => hs) ?_
  exact fun _ _ _ hs => hs.mono (fun _ _ => trivial) fun _ h => h

theorem traces_commit :
    Traces Starts (db.commit t) fun made r => Told (fun _ => True) (Wraps db r) made := by
  refine traces_pinned traces_openConnection fun c => ?_
  have hT := Store.lasts_isPinned t c
  refine traces_ending hLive "COMMIT;" (traces_commitOn hT hLive fun _ hs => hs.2) fun f => ?_
  refine traces_rollbackQuietly hT hLive ?_
  rintro _ ⟨⟩ s hs
  exact hs.2

theorem traces_rollback :
    Traces Starts (db.rollback t) fun made r => Told (fun _ => True) (Wraps db r) made := by
  refine traces_pinned traces_transaction fun transaction => ?_
  show Traces _ (if transaction.isClosed = true then _ else _) _
  split
  · exact traces_pure fun made s hs => hs.mono (fun _ _ => trivial) fun _ hy => hy ▸ wraps_none
  · have hT := Store.lasts_isPinned t transaction.connection
    exact traces_ending hLive "ROLLBACK;" (traces_rollbackOn hT hLive fun _ hs => hs.2) fun f =>
      traces_pure fun made s hs => ⟨hs, fun _ => rfl⟩

theorem traces_leave (endedWell : Bool) :
    Traces Starts (db.leave t endedWell) fun made r => Told (fun _ => True) (Wraps db r) made := by
  refine traces_bind traces_transaction (fun transaction => ?_) fun e made s hs => hs.1.wraps
  show Traces _ (if transaction.isClosed = true then _ else _) _
  split
  · exact traces_pure fun made s hs => hs.1.wraps
  · cases endedWell with
    | true => exact (traces_commit hLive).mono (fun _ _ hs => hs.1) fun _ _ _ hs => hs
    | false => exact (traces_rollback hLive).mono (fun _ _ hs => hs.1) fun _ _ _ hs => hs

/-- Whatever runs statements, commits or rolls back wraps the first fault that its calls met. -/
theorem Operation.traces {o : Operation} (hStatement : o.isStatement = true) :
    Traces Starts (o.action db) fun made r => Told (fun _ => True) (Wraps db r) made := by
  cases o with
  | query q =>
    have hGiven : GivenOut (fun _ => True) none := nofun
    exact (traces_run Store.lasts_true hLive q hGiven).mono
      (fun _ _ hs => hs.told) fun _ _ _ hs => hs
  | queryIn t q => exact traces_queryIn hLive q
  | commit t => exact traces_nothing (traces_commit hLive)
  | rollback t => exact traces_nothing (traces_rollback hLive)
  | leave t endedWell => exact traces_nothing (traces_leave hLive endedWell)
  | _ => cases hStatement

end

end SqlWeave
