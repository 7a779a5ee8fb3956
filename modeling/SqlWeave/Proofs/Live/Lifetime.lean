import SqlWeave.Proofs.Live.Contract
import SqlWeave.Proofs.Live.Operations
import SqlWeave.Proofs.Template.Faults

/-!
# The lifetime of a transaction

What a single call on a transaction does to its connection, and how it ends, while nobody else
uses that transaction and everybody else does whatever they like: `Effect`.  Each call that a
connection gets is put down with what it met.

## Main results

* `TransactionCall.meets_of_closed`: a call on a transaction that is closed does nothing.
* `meets_queryIn_of_unprepared`: neither does a query that cannot be prepared.
* `Store.Stands.of_spares`: what others do leaves a transaction as it stands.
* `TransactionCall.meets`: every call on a transaction has its effect.
-/

namespace SqlWeave

open SqlWeave.Action Database

/-- What a caller asks of a transaction. -/
inductive TransactionCall
  | query (q : Query)
  | commit
  | rollback
  /-- Leaves the block of the transaction. -/
  | leave (endedWell : Bool)

namespace TransactionCall

/-- The operation on a transaction. -/
def operation (t : Nat) : TransactionCall → Operation
  | query q => .queryIn t q
  | commit => .commit t
  | rollback => .rollback t
  | leave endedWell => .leave t endedWell

/-- The call commits a transaction that is open. -/
def commits : TransactionCall → Bool
  | commit | leave true => true
  | _ => false

/-- The call rolls a transaction back that is open. -/
def rollsBack : TransactionCall → Bool
  | rollback | leave false => true
  | _ => false

/-- The call must not be made on a transaction that is closed. -/
def needsOpen : TransactionCall → Bool
  | query _ | commit => true
  | _ => false

/-- The outcome of the call if the transaction is closed. -/
def refusal (call : TransactionCall) : Result Value :=
  if call.needsOpen then .error .transactionClosed else .ok .null

end TransactionCall

/-- The checked configuration of a query and the statement that it sends. -/
def Database.prepared (db : Database) (q : Query) : Result (QueryConfig × String) := do
  let config ← db.settings.queryConfig.merged q.override
  let sql ← Template.format .standard q.sql q.params
  return (config, sql)

theorem Database.noStatement_prepared (db : Database) (q : Query) :
    NoStatement (db.prepared q) :=
  (QueryConfig.noStatement_merged _ _).bind fun _ =>
    (Template.noStatement_format _ _).bind fun _ => noStatement_ok _

/-- An outcome, unless what was done last failed. -/
def Encounter.before {α : Type} (e : Encounter) (r : Result α) : Result α :=
  match e.fault with
  | some f => .error f
  | none => r

theorem Encounter.before_none {α : Type} {e : Encounter} (h : e.fault = none) (r : Result α) :
    e.before r = r := by
  rw [Encounter.before, h]

theorem Encounter.before_some {α : Type} {e : Encounter} {f : Fault} (h : e.fault = some f)
    (r : Result α) : e.before r = .error f := by
  rw [Encounter.before, h]

theorem Encounter.fault_of_before_ok {α : Type} {e : Encounter} {r : Result α} {b : α}
    (h : .ok b = e.before r) : e.fault = none ∧ r = .ok b := by
  cases hFault : e.fault with
  | none => exact ⟨rfl, (e.before_none hFault r).symm.trans h.symm⟩
  | some f =>
    rw [e.before_some hFault] at h
    cases h

theorem Encounter.fault_of_before_error {α : Type} {e : Encounter} {a : α} {f : Fault}
    (h : .error f = e.before (.ok a)) : e.fault = some f := by
  cases hFault : e.fault with
  | none =>
    rw [e.before_none hFault] at h
    cases h
  | some g =>
    rw [e.before_some hFault] at h
    cases h
    rfl

/-- The outcome of a statement without results. -/
def Encounter.statement (e : Encounter) (statement : String) (isHardened : Bool) : Result Value :=
  match e.fault with
  | some f => .error (f.ofStatement statement isHardened)
  | none => .ok .null

/-- What a call does to a transaction on a connection: whether it was closed before, the outcome,
the calls on the connection, and whether it is closed behind that. -/
inductive Effect (db : Database) (k : Nat) :
    TransactionCall → Bool → Result Value → List (Call × Encounter) → Bool → Prop
  | refused {call : TransactionCall} : Effect db k call true call.refusal [] true
  | unsent {q : Query} {f : Fault} (h : db.prepared q = .error f) :
      Effect db k (.query q) false (.error f) [] false
  | answered {q : Query} {config : QueryConfig} {sql : String} {e : Encounter}
      (h : db.prepared q = .ok (config, sql)) (hFault : e.fault = none) :
      Effect db k (.query q) false
        (.ok (present config (ResultSet.collect e.sets).1 (ResultSet.collect e.sets).2))
        [(.execute k sql, e)] false
  | passedOn {q : Query} {config : QueryConfig} {sql : String} {e : Encounter} {f : Fault}
      (h : db.prepared q = .ok (config, sql)) (hFault : e.fault = some f)
      (hConnection : f.isConnection = true) :
      Effect db k (.query q) false (.error f) [(.execute k sql, e)] false
  | failed {q : Query} {config : QueryConfig} {sql : String} {e b d : Encounter} {f : Fault}
      (h : db.prepared q = .ok (config, sql)) (hFault : e.fault = some f)
      (hConnection : f.isConnection = false) :
      Effect db k (.query q) false (d.before (.error (f.ofStatement sql db.settings.isHardened)))
        [(.execute k sql, e), (.rollback k, b), (.release k, d)] true
  | committed {call : TransactionCall} {e d : Encounter} (h : call.commits = true)
      (hFault : e.fault = none) :
      Effect db k call false (d.before (.ok .null)) [(.commit k, e), (.release k, d)] true
  | conflicted {call : TransactionCall} {e b d : Encounter} {f : Fault} (h : call.commits = true)
      (hFault : e.fault = some f) :
      Effect db k call false (d.before (.error (f.ofStatement "COMMIT;" db.settings.isHardened)))
        [(.commit k, e), (.rollback k, b), (.release k, d)] true
  | rolledBack {call : TransactionCall} {e d : Encounter} (h : call.rollsBack = true) :
      Effect db k call false (d.before (e.statement "ROLLBACK;" db.settings.isHardened))
        [(.rollback k, e), (.release k, d)] true

/-! ## Looking up, under any contract -/

/-- What a store holds of a transaction, in a precondition that names the store. -/
theorem Store.found {s : Store} {t : Nat} {found : Option Transaction}
    (hGet : s.transactions[t]? = found) : ∀ s', s' = s → s'.transactions[t]? = found := by
  rintro _ rfl
  exact hGet

section

variable {contract : Contract Store} {t : Nat} {transaction : Transaction} {P : Store → Prop}

/-- Looking up the transaction. -/
theorem meets_transaction_bind {α : Type} {f : Transaction → Action Store α}
    {Q : Result α → Store → Prop} (hGet : ∀ s, P s → s.transactions[t]? = some transaction)
    (hf : Meets contract P (f transaction) Q) :
    Meets contract P (Database.transaction t >>= f) Q := by
  refine meets_bind_of_ok (meets_state_bind fun s hs => meets_ofResult ?_) hf
  rintro _ rfl
  refine ⟨?_, hs⟩
  rw [Store.transaction?, hGet _ hs]

/-- Looking up the checkout of a transaction that is open. -/
theorem meets_openConnection_bind {α : Type} {f : Nat → Action Store α}
    {Q : Result α → Store → Prop} (hGet : ∀ s, P s → s.transactions[t]? = some transaction)
    (hOpen : transaction.isClosed = false) (hf : Meets contract P (f transaction.connection) Q) :
    Meets contract P (openConnection t >>= f) Q := by
  refine meets_bind_of_ok (meets_transaction_bind hGet ?_) hf
  rw [hOpen]
  exact meets_pure fun s hs => ⟨rfl, hs⟩

theorem meets_nothing {Q : Result Value → Store → Prop} {a : Action Store Unit}
    (h : Meets contract P a fun r => Q (r.map fun _ => .null)) :
    Meets contract P (nothing a) Q :=
  meets_bind h (fun _ => meets_pure fun _ hs => hs) fun _ _ hs => hs

/-- A call on a transaction that is closed does nothing. -/
theorem TransactionCall.meets_of_closed {db : Database} (call : TransactionCall)
    {Q : Result Value → Store → Prop} (hGet : ∀ s, P s → s.transactions[t]? = some transaction)
    (hClosed : transaction.isClosed = true) (hQ : ∀ s, P s → Q call.refusal s) :
    Meets contract P ((call.operation t).action db) Q := by
  have hRefused : ∀ {α : Type} {f : Nat → Action Store α} {Q' : Result α → Store → Prop},
      (∀ s, P s → Q' (.error .transactionClosed) s) →
      Meets contract P (openConnection t >>= f) Q' := by
    intro α f Q' h
    refine meets_bind_of_error (meets_transaction_bind hGet ?_) h
    rw [hClosed]
    exact meets_throw fun s hs => ⟨rfl, hs⟩
  have hDone : ∀ {a : Action Store Unit}, Meets contract P
      (if transaction.isClosed = true then pure () else a) fun r s => r = .ok () ∧ P s := by
    intro a
    rw [hClosed]
    exact meets_pure fun s hs => ⟨rfl, hs⟩
  cases call with
  | query q => exact hRefused hQ
  | commit => exact meets_nothing (hRefused hQ)
  | rollback =>
    refine meets_nothing (meets_transaction_bind hGet (hDone.mono (fun s hs => hs) ?_))
    rintro r s ⟨rfl, hs⟩
    exact hQ s hs
  | leave endedWell =>
    refine meets_nothing (meets_transaction_bind hGet (hDone.mono (fun s hs => hs) ?_))
    rintro r s ⟨rfl, hs⟩
    exact hQ s hs

/-- A query on a given connection is prepared and then sent. -/
theorem Database.run_some (db : Database) (q : Query) (c : Nat) : db.run q (some c) = (do
    let (config, sql) ← Action.ofResult (db.prepared q)
    match ← (db.queryOn c sql).outcome with
    | .ok (results, fields) => return present config results fields
    | .error f =>
      if f.isConnection || !f.isFailure then throw f
      db.rollbackQuietly (some c)
      throw (f.ofStatement sql db.settings.isHardened)) := by
  unfold Database.run Database.prepared
  cases db.settings.queryConfig.merged q.override with
  | error f => rfl
  | ok config =>
    cases Template.format .standard q.sql q.params with
    | error f => rfl
    | ok sql => rfl

/-- A query that cannot be prepared does nothing to an open transaction. -/
theorem meets_queryIn_of_unprepared {db : Database} {q : Query} {f : Fault}
    {Q : Result Value → Store → Prop} (hPrepared : db.prepared q = .error f)
    (hGet : ∀ s, P s → s.transactions[t]? = some transaction)
    (hOpen : transaction.isClosed = false) (hQ : ∀ s, P s → Q (.error f) s) :
    Meets contract P (db.queryIn t q) Q := by
  refine meets_openConnection_bind hGet hOpen ?_
  refine meets_outcome_bind (R := fun r s => r = .error f ∧ P s) ?_ fun r => ?_
  · rw [db.run_some, hPrepared]
    exact meets_throw fun s hs => ⟨rfl, hs⟩
  · rintro s ⟨rfl, hs⟩
    show Routine.Keeps _ _ (if (f.kind == .sql) = true then _ else _ : Action Store Value) s
    rw [beq_eq_false_iff_ne.mpr (db.noStatement_prepared q f hPrepared)]
    exact hQ s hs

end

/-! ## How a transaction stands -/

/-- A transaction has a checkout, this has a connection, and calls were made on the connection. -/
structure Store.Stands (forecast : Forecast) (t c k : Nat) (isClosed isReleased : Bool)
    (made : List (Call × Encounter)) (s : Store) : Prop where
  transaction : s.transactions[t]? = some { connection := c, isClosed }
  checkout : s.live.checkouts[c]? = some { connection := k, isReleased }
  forecast_eq : s.live.forecast = forecast.after s.live.log
  made_eq : madeOn k forecast s.live.log = made

/-- What may be done while a call on a transaction waits. -/
def Store.SetsAside (t : Nat) (s s' : Store) : Prop :=
  s.live.Extends s'.live ∧ s.Spares t s'

/-- Others leave the transaction alone, and no wait fails. -/
def attended (t : Nat) : Contract Store where
  rests := fun _ => True
  rely := Store.SetsAside t
  comes := fun _ r => r = .ok .null

theorem Store.SetsAside.refl (t : Nat) (s : Store) : s.SetsAside t s :=
  ⟨.refl _, .refl t s⟩

theorem Store.SetsAside.trans {t : Nat} {s s' s'' : Store} (h : s.SetsAside t s')
    (h' : s'.SetsAside t s'') : s.SetsAside t s'' :=
  ⟨h.1.trans h'.1, h.2.trans h'.2 h.1 h'.1⟩

section

variable {forecast : Forecast} {t c k : Nat} {isClosed isReleased : Bool}
  {made : List (Call × Encounter)} {s s' : Store}

namespace Store

theorem Stands.connectionOf (h : s.Stands forecast t c k isClosed isReleased made) :
    s.live.connectionOf c = k := by
  rw [Live.connectionOf, h.checkout]
  rfl

/-- What others do leaves a transaction as it stands. -/
theorem Stands.of_spares (h : s.Stands forecast t c k isClosed isReleased made)
    (hAside : s.SetsAside t s') : s'.Stands forecast t c k isClosed isReleased made := by
  obtain ⟨hCalls, hSpares⟩ := hAside
  refine ⟨hSpares.transaction _ h.transaction, (hSpares.checkout _ h.transaction).trans h.checkout,
    hCalls.forecast_eq h.forecast_eq, ?_⟩
  obtain ⟨calls, hLog, -⟩ := hCalls
  have hNone : madeOn k (forecast.after s.live.log) calls = [] := by
    refine madeOn_eq_nil_iff.mpr fun call hMem hOn => hSpares.calls _ h.transaction calls hLog call hMem ?_
    rw [hOn, h.connectionOf]
  rw [hLog, madeOn_append, h.made_eq, hNone, List.append_nil]

/-- A call on the connection. -/
theorem Stands.note (h : s.Stands forecast t c k isClosed isReleased made) {call : Call}
    (hOn : call.onConnection = some k) :
    (s.onLive (Live.note call)).Stands forecast t c k isClosed isReleased
      (made ++ [(call, s.live.forecast.next call.kind)]) := by
  refine ⟨h.transaction, h.checkout, (Live.extends_note _ call).forecast_eq h.forecast_eq, ?_⟩
  show madeOn k forecast (s.live.log ++ [call]) = _
  rw [madeOn_append, h.made_eq, ← h.forecast_eq]
  simp [madeOn, Forecast.encounters, hOn]

end Store

/-! ## Calls on the connection -/

/-- Looking up the checkout. -/
theorem meets_checkout_bind {α : Type} {f : Checkout → Action Store α}
    {Q : Result α → Store → Prop}
    (hf : Meets (attended t) (Store.Stands forecast t c k isClosed isReleased made)
      (f { connection := k, isReleased }) Q) :
    Meets (attended t) (Store.Stands forecast t c k isClosed isReleased made)
      (Manager.checkout c >>= f) Q := by
  refine meets_bind_of_ok (meets_state_bind fun s hs => ?_) hf
  rw [hs.checkout]
  refine meets_pure ?_
  rintro _ rfl
  exact ⟨rfl, hs⟩

/-- One more call was made on the connection, and what it met gives the outcome. -/
def Store.Met {α : Type} (forecast : Forecast) (t c k : Nat) (isClosed isReleased : Bool)
    (made : List (Call × Encounter)) (call : Call) (outcome : Encounter → Result α) (r : Result α)
    (s : Store) : Prop :=
  ∃ e : Encounter, r = e.before (outcome e) ∧
    s.Stands forecast t c k isClosed isReleased (made ++ [(call, e)])

/-- A call on the connection, of whose outcome something is made. -/
theorem meets_connectionCall {α : Type} {call : Call} {g : Encounter → α}
    (hOn : call.onConnection = some k) :
    Meets (attended t) (Store.Stands forecast t c k isClosed isReleased made)
      (do return g (← SqlWeave.call call))
      (Store.Met forecast t c k isClosed isReleased made call fun e => .ok (g e)) := by
  have hCall : Meets (attended t) (Store.Stands forecast t c k isClosed isReleased made)
      (SqlWeave.call call) fun r s => ∃ e : Encounter, r = e.result ∧
        s.Stands forecast t c k isClosed isReleased (made ++ [(call, e)]) := by
    intro s hs
    refine meets_call (P := (· = s))
      (Store.Stands forecast t c k isClosed isReleased
        (made ++ [(call, s.live.forecast.next call.kind)]))
      ?_ (fun _ _ => trivial) (fun _ _ h hRely => h.of_spares hRely) ?_ ?_ s rfl
    · rintro _ rfl
      exact hs.note hOn
    · rintro f s' - - hComes
      cases hComes
    · intro start s' hStart hs'
      rw [hStart]
      exact ⟨_, rfl, hs'⟩
  refine meets_bind hCall (fun e => meets_pure ?_) ?_
  · rintro s ⟨e', hEq, hs⟩
    obtain ⟨hNone, rfl⟩ := Encounter.result_eq_ok.mp hEq.symm
    exact ⟨e', (e'.before_none hNone _).symm, hs⟩
  · rintro f s ⟨e', hEq, hs⟩
    exact ⟨e', (e'.before_some (Encounter.result_eq_error.mp hEq.symm) _).symm, hs⟩

/-- A call on the checkout. -/
theorem meets_checkoutCall {make : Nat → Call} (hOn : (make k).onConnection = some k) :
    Meets (attended t) (Store.Stands forecast t c k isClosed isReleased made)
      (Manager.callOn c make)
      (Store.Met forecast t c k isClosed isReleased made (make k) fun _ => .ok ()) :=
  meets_checkout_bind (meets_connectionCall (g := fun _ => ()) hOn)

/-- One more call was made on the connection; what it met gives the outcome, and is no
cancellation. -/
def Store.Got {α : Type} (forecast : Forecast) (t c k : Nat) (isClosed isReleased : Bool)
    (made : List (Call × Encounter)) (call : Call) (outcome : Encounter → Result α) (r : Result α)
    (s : Store) : Prop :=
  ∃ e : Encounter, r = e.before (outcome e) ∧ (∀ f, e.fault = some f → f.isFailure = true) ∧
    s.Stands forecast t c k isClosed isReleased (made ++ [(call, e)])

/-- If nothing is forecast but exceptions, nothing else is met. -/
theorem Store.Met.got {α : Type} {call : Call} {outcome : Encounter → Result α} {r : Result α}
    (hFails : forecast.FailsOnly)
    (h : s.Met forecast t c k isClosed isReleased made call outcome r) :
    s.Got forecast t c k isClosed isReleased made call outcome r := by
  obtain ⟨e, hEq, hs⟩ := h
  refine ⟨e, hEq, fun f hFault => ?_, hs⟩
  have hMade : (call, e) ∈ madeOn k forecast s.live.log := by
    rw [hs.made_eq]
    exact List.mem_append_right _ List.mem_cons_self
  exact hFails.encounters (List.mem_filter.mp hMade).1 hFault

section

variable {db : Database} (hLive : db.backend = .live)

include hLive

theorem meets_commitCall :
    Meets (attended t) (Store.Stands forecast t c k isClosed isReleased made) (db.commitOn c)
      (Store.Met forecast t c k isClosed isReleased made (.commit k) fun _ => .ok ()) := by
  rw [commitOn, onBackend_live hLive]
  exact meets_checkoutCall rfl

theorem meets_rollbackCall :
    Meets (attended t) (Store.Stands forecast t c k isClosed isReleased made) (db.rollbackOn c)
      (Store.Met forecast t c k isClosed isReleased made (.rollback k) fun _ => .ok ()) := by
  rw [rollbackOn, onBackend_live hLive]
  exact meets_checkoutCall rfl

theorem meets_queryCall (sql : String) :
    Meets (attended t) (Store.Stands forecast t c k isClosed isReleased made) (db.queryOn c sql)
      (Store.Met forecast t c k isClosed isReleased made (.execute k sql)
        fun e => .ok (ResultSet.collect e.sets)) := by
  rw [queryOn, onBackend_live hLive]
  exact meets_checkout_bind (meets_connectionCall rfl)

/-- The transaction that is open is closed, and its connection is handed back. -/
theorem meets_closing :
    Meets (attended t) (Store.Stands forecast t c k false false made) (db.finish t)
      (Store.Met forecast t c k true true made (.release k) fun _ => .ok ()) := by
  refine meets_transaction_bind (fun _ hs => hs.transaction) ?_
  refine meets_change_bind (R := Store.Stands forecast t c k true false made) ?_ ?_
  · intro s hs
    refine ⟨?_, hs.checkout, hs.forecast_eq, hs.made_eq⟩
    show (s.transactions.modify t _)[t]? = _
    rw [List.getElem?_modify_eq, hs.transaction]
    rfl
  · rw [release, onBackend_live hLive]
    refine meets_checkout_bind ?_
    refine meets_change_bind (R := Store.Stands forecast t c k true true made) ?_ ?_
    · intro s hs
      refine ⟨hs.transaction, ?_, hs.forecast_eq, hs.made_eq⟩
      show (s.live.checkouts.modify c _)[c]? = _
      rw [List.getElem?_modify_eq, hs.checkout]
      rfl
    · exact meets_connectionCall (g := fun _ => ()) rfl

end

variable (hFails : forecast.FailsOnly) {db : Database} (hLive : db.backend = .live)

include hFails hLive

theorem meets_commitOn :
    Meets (attended t) (Store.Stands forecast t c k isClosed isReleased made) (db.commitOn c)
      (Store.Got forecast t c k isClosed isReleased made (.commit k) fun _ => .ok ()) :=
  (meets_commitCall hLive).mono (fun _ hs => hs) fun _ _ hMet => hMet.got hFails

theorem meets_rollbackOn :
    Meets (attended t) (Store.Stands forecast t c k isClosed isReleased made) (db.rollbackOn c)
      (Store.Got forecast t c k isClosed isReleased made (.rollback k) fun _ => .ok ()) :=
  (meets_rollbackCall hLive).mono (fun _ hs => hs) fun _ _ hMet => hMet.got hFails

theorem meets_queryOn (sql : String) :
    Meets (attended t) (Store.Stands forecast t c k isClosed isReleased made) (db.queryOn c sql)
      (Store.Got forecast t c k isClosed isReleased made (.execute k sql)
        fun e => .ok (ResultSet.collect e.sets)) :=
  (meets_queryCall hLive sql).mono (fun _ hs => hs) fun _ _ hMet => hMet.got hFails

/-- A rollback is tried, and its failure is dropped. -/
theorem meets_rollbackQuietly :
    Meets (attended t) (Store.Stands forecast t c k isClosed isReleased made)
      (db.rollbackQuietly (some c)) fun r s => r = .ok () ∧ ∃ b,
        s.Stands forecast t c k isClosed isReleased (made ++ [(.rollback k, b)]) := by
  refine meets_quietly (meets_rollbackOn hFails hLive) ?_ ?_ ?_
  · rintro s ⟨b, -, -, hs⟩
    exact ⟨rfl, b, hs⟩
  · rintro f s ⟨b, -, -, hs⟩ -
    exact ⟨rfl, b, hs⟩
  · rintro f s ⟨b, hEq, hFailure, hs⟩ hNot
    rw [hFailure f (Encounter.fault_of_before_error hEq)] at hNot
    cases hNot

theorem meets_finish :
    Meets (attended t) (Store.Stands forecast t c k false false made) (db.finish t)
      (Store.Got forecast t c k true true made (.release k) fun _ => .ok ()) :=
  (meets_closing hLive).mono (fun _ hs => hs) fun _ _ hMet => hMet.got hFails

/-! ## Calls on the transaction -/

/-- A call on a transaction has an effect. -/
def Store.Affected (db : Database) (forecast : Forecast) (t c k : Nat) (call : TransactionCall)
    (wasClosed : Bool) (made : List (Call × Encounter)) (r : Result Value) (s : Store) : Prop :=
  ∃ more isClosed, Effect db k call wasClosed r more isClosed ∧
    s.Stands forecast t c k isClosed isClosed (made ++ more)

/-- A query that is sent on the connection of an open transaction: what it does is all that it
does to the transaction, unless it fails with the fault of a statement. -/
theorem meets_run {q : Query} {config : QueryConfig} {sql : String}
    (hPrepared : db.prepared q = .ok (config, sql)) :
    Meets (attended t) (Store.Stands forecast t c k false false made) (db.run q (some c))
      fun r s => match r with
        | .ok v => s.Affected db forecast t c k (.query q) false made (.ok v)
        | .error f =>
          f.kind ≠ .sql ∧ s.Affected db forecast t c k (.query q) false made (.error f) ∨
          f.kind = .sql ∧ ∃ more, s.Stands forecast t c k false false (made ++ more) ∧
            ∀ d : Encounter, Effect db k (.query q) false (d.before (.error f))
              (more ++ [(.release k, d)]) true := by
  rw [db.run_some, hPrepared]
  refine meets_outcome_bind (meets_queryOn hFails hLive sql) fun r => ?_
  cases r with
  | ok sets =>
    refine meets_pure ?_
    rintro s ⟨e, hEq, -, hs⟩
    obtain ⟨hFault, hSets⟩ := Encounter.fault_of_before_ok hEq
    cases hSets
    exact ⟨_, false, .answered hPrepared hFault, hs⟩
  | error f =>
    show Meets _ _ (if (f.isConnection || !f.isFailure) = true then _ else _) _
    cases hConnection : f.isConnection with
    | true =>
      refine meets_throw ?_
      rintro s ⟨e, hEq, -, hs⟩
      refine .inl ⟨fun hKind => ?_, _, false, ?_, hs⟩
      · rw [Fault.isConnection, hKind] at hConnection
        cases hConnection
      · exact .passedOn hPrepared (Encounter.fault_of_before_error hEq) hConnection
    | false =>
      rintro s ⟨e, hEq, hFailure, hs⟩
      have hFault := Encounter.fault_of_before_error hEq
      rw [hFailure f hFault]
      refine meets_bind_of_ok (meets_rollbackQuietly hFails hLive) (meets_throw ?_) s hs
      rintro s' ⟨b, hs''⟩
      refine .inr ⟨rfl, [(.execute k sql, e), (.rollback k, b)], ?_, fun d => ?_⟩
      · rw [List.append_assoc] at hs''
        exact hs''
      · exact .failed hPrepared hFault hConnection

/-- A query on an open transaction. -/
theorem meets_queryIn (q : Query) :
    Meets (attended t) (Store.Stands forecast t c k false false made) (db.queryIn t q)
      (Store.Affected db forecast t c k (.query q) false made) := by
  cases hPrepared : db.prepared q with
  | error f =>
    refine meets_queryIn_of_unprepared hPrepared (fun _ hs => hs.transaction) rfl fun s hs => ?_
    exact ⟨[], false, .unsent hPrepared, (List.append_nil _).symm ▸ hs⟩
  | ok p =>
    refine meets_openConnection_bind (fun _ hs => hs.transaction) rfl ?_
    refine meets_outcome_bind (meets_run hFails hLive hPrepared) fun r => ?_
    cases r with
    | ok v => exact meets_pure fun s hs => hs
    | error f =>
      show Meets _ _ (if (f.kind == .sql) = true then _ else _) _
      intro s hs
      rcases hs with ⟨hKind, hs⟩ | ⟨hKind, more, hs, hEffect⟩
      · rw [beq_eq_false_iff_ne.mpr hKind]
        exact hs
      · rw [beq_iff_eq.mpr hKind]
        refine meets_bind (meets_finish hFails hLive) (fun u => ?_) ?_ s hs
        · refine meets_throw ?_
          rintro s' ⟨d, hEq, -, hs'⟩
          have hOutcome := hEffect d
          rw [d.before_none (Encounter.fault_of_before_ok hEq).1] at hOutcome
          exact ⟨_, true, hOutcome, List.append_assoc .. ▸ hs'⟩
        · rintro g s' ⟨d, hEq, -, hs'⟩
          have hOutcome := hEffect d
          rw [d.before_some (Encounter.fault_of_before_error hEq)] at hOutcome
          exact ⟨_, true, hOutcome, List.append_assoc .. ▸ hs'⟩

/-- What an action that ends an open transaction does on the connection, before that is handed
back. -/
def Store.Ending (db : Database) (forecast : Forecast) (t c k : Nat) (call : TransactionCall)
    (made : List (Call × Encounter)) (r : Result Unit) (s : Store) : Prop :=
  ∃ more, s.Stands forecast t c k false false (made ++ more) ∧ ∀ d : Encounter,
    Effect db k call false (d.before (r.map fun _ => .null)) (more ++ [(.release k, d)]) true

/-- An action that ends an open transaction, and the hand-back behind it. -/
theorem meets_ensuring_finish {call : TransactionCall} {action : Action Store Unit}
    (hAction : Meets (attended t) (Store.Stands forecast t c k false false made) action
      (Store.Ending db forecast t c k call made)) :
    Meets (attended t) (Store.Stands forecast t c k false false made)
      (ensuring action (db.finish t)) fun r =>
        Store.Affected db forecast t c k call false made (r.map fun _ => .null) := by
  refine meets_ensuring hAction fun r => ?_
  rintro s ⟨more, hs, hEffect⟩
  refine (meets_finish hFails hLive s hs).mono ?_
  rintro r' s' ⟨d, rfl, -, hs'⟩
  refine ⟨_, true, ?_, List.append_assoc .. ▸ hs'⟩
  have hOutcome := hEffect d
  cases hFault : d.fault with
  | none =>
    rw [d.before_none hFault] at hOutcome ⊢
    exact hOutcome
  | some f =>
    rw [d.before_some hFault] at hOutcome ⊢
    exact hOutcome

/-- A commit of an open transaction. -/
theorem meets_commit {call : TransactionCall} (hCommits : call.commits = true) :
    Meets (attended t) (Store.Stands forecast t c k false false made) (db.commit t) fun r =>
      Store.Affected db forecast t c k call false made (r.map fun _ => .null) := by
  refine meets_openConnection_bind (fun _ hs => hs.transaction) rfl
    (meets_ensuring_finish hFails hLive ?_)
  refine meets_outcome_bind (meets_commitOn hFails hLive) fun r => ?_
  cases r with
  | ok u =>
    refine meets_pure ?_
    rintro s ⟨e, hEq, -, hs⟩
    exact ⟨_, hs, fun d => .committed hCommits (Encounter.fault_of_before_ok hEq).1⟩
  | error f =>
    rintro s ⟨e, hEq, hFailure, hs⟩
    have hFault := Encounter.fault_of_before_error hEq
    show Routine.Keeps _ _ (if (!f.isFailure) = true then _ else _ : Action Store Unit) s
    rw [hFailure f hFault]
    refine meets_bind (meets_rollbackQuietly hFails hLive) (fun u => ?_) ?_ s hs
    · refine meets_throw ?_
      rintro s' ⟨-, b, hs'⟩
      refine ⟨[(.commit k, e), (.rollback k, b)], ?_, fun d => .conflicted hCommits hFault⟩
      rw [List.append_assoc] at hs'
      exact hs'
    · rintro g s' ⟨hEq, -⟩
      cases hEq

/-- A rollback of an open transaction. -/
theorem meets_rollback {call : TransactionCall} (hRollsBack : call.rollsBack = true) :
    Meets (attended t) (Store.Stands forecast t c k false false made) (db.rollback t) fun r =>
      Store.Affected db forecast t c k call false made (r.map fun _ => .null) := by
  refine meets_transaction_bind (fun _ hs => hs.transaction)
    (meets_ensuring_finish hFails hLive ?_)
  refine meets_outcome_bind (meets_rollbackOn hFails hLive) fun r => ?_
  cases r with
  | ok u =>
    refine meets_pure ?_
    rintro s ⟨e, hEq, -, hs⟩
    refine ⟨_, hs, fun d => ?_⟩
    have hEffect : Effect db k call false
        (d.before (e.statement "ROLLBACK;" db.settings.isHardened)) _ true := .rolledBack hRollsBack
    rw [Encounter.statement, (Encounter.fault_of_before_ok hEq).1] at hEffect
    exact hEffect
  | error f =>
    rintro s ⟨e, hEq, hFailure, hs⟩
    have hFault := Encounter.fault_of_before_error hEq
    show Routine.Keeps _ _ (if (!f.isFailure) = true then _ else _ : Action Store Unit) s
    rw [hFailure f hFault]
    refine ⟨_, hs, fun d => ?_⟩
    have hEffect : Effect db k call false
        (d.before (e.statement "ROLLBACK;" db.settings.isHardened)) _ true := .rolledBack hRollsBack
    rw [Encounter.statement, hFault] at hEffect
    exact hEffect

/-- Every call on a transaction has its effect. -/
theorem TransactionCall.meets (call : TransactionCall) (isClosed : Bool) :
    Meets (attended t) (Store.Stands forecast t c k isClosed isClosed made)
      ((call.operation t).action db) (Store.Affected db forecast t c k call isClosed made) := by
  cases isClosed with
  | true =>
    refine call.meets_of_closed (fun _ hs => hs.transaction) rfl fun s hs => ?_
    exact ⟨[], true, .refused, (List.append_nil _).symm ▸ hs⟩
  | false =>
    cases call with
    | query q => exact meets_queryIn hFails hLive q
    | commit => exact meets_nothing (meets_commit hFails hLive rfl)
    | rollback => exact meets_nothing (meets_rollback hFails hLive rfl)
    | leave endedWell =>
      refine meets_nothing (meets_transaction_bind (fun _ hs => hs.transaction) ?_)
      cases endedWell with
      | true => exact meets_commit hFails hLive rfl
      | false => exact meets_rollback hFails hLive rfl

end

end SqlWeave
