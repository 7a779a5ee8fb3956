import SqlWeave.Proofs.Memory.Endings

/-!
# Operations in memory

Nothing that is asked of a database in memory waits for anything, so that every operation is done
in one go.  Most of them go past the transactions; those on a transaction go through its own
connection, which gathers their statements until the transaction ends.

## Main results

* `stays_run_none`: a query that is in no transaction leaves all of them as they are.
* `meets_begin`: a transaction that is begun is on a connection that nothing else has.
* `meets_run_memory`: a statement in a transaction is gathered, and if it is refused published with
  what was gathered before.
* `tallies_operation`: the account is kept by every operation.
-/

namespace SqlWeave

open SqlWeave.Action Memory

/-! ## Beside the transactions -/

namespace Action

variable {α β : Type} {s : Store}

/-- The action does nothing but what is done beside the transactions, and does it in one go. -/
def Stays (s : Store) (a : Action Store α) : Prop :=
  Meets unwaiting s.Aside a fun _ => s.Aside

theorem stays_pure (a : α) : Stays s (pure a) :=
  meets_pure fun _ hs => hs

theorem stays_throw (f : Fault) : Stays s (throw f : Action Store α) :=
  meets_throw fun _ hs => hs

theorem stays_ofResult (r : Result α) : Stays s (ofResult r) :=
  meets_ofResult fun _ hs => hs

theorem Stays.bind {a : Action Store α} {f : α → Action Store β} (ha : Stays s a)
    (hf : ∀ x, Stays s (f x)) : Stays s (a >>= f) :=
  meets_bind ha hf fun _ _ hs => hs

theorem Stays.outcome_bind {a : Action Store α} {f : Result α → Action Store β} (ha : Stays s a)
    (hf : ∀ r, Stays s (f r)) : Stays s (a.outcome >>= f) :=
  meets_outcome_bind ha hf

theorem stays_state_bind {f : Store → Action Store α} (hf : ∀ s', Stays s (f s')) :
    Stays s (state >>= f) :=
  meets_state_bind fun s' hs => (hf s').mono (by rintro _ rfl; exact hs) fun _ _ h => h

/-- A change of the backend that hands out connections at most. -/
theorem stays_onMemory {f : MemoryBackend → Result α × MemoryBackend}
    (hRules : ∀ m, (f m).2.rules = m.rules)
    (hLast : ∀ m, (f m).2.lastTransaction = m.lastTransaction)
    (hConnections : ∀ m, ∃ more, (f m).2.connections = m.connections ++ more) :
    Stays s (onMemory f) :=
  meets_onMemory fun s' hs =>
    hs.trans ⟨rfl, hRules s'.memory, hLast s'.memory, hConnections s'.memory⟩

end Action

namespace Database

variable {db : Database} {s : Store}

section Beside

variable (hMemory : db.backend = .memory)

include hMemory

theorem onBackend_memory {α : Type} (live memory : Action Store α) :
    db.onBackend live memory = memory := by
  rw [onBackend, hMemory]

theorem stays_connect : Stays s db.connect := by
  rw [connect, onBackend_memory hMemory]
  exact stays_onMemory (fun _ => rfl) (fun _ => rfl) fun _ => ⟨[], (List.append_nil _).symm⟩

theorem stays_disconnect : Stays s db.disconnect := by
  rw [disconnect, onBackend_memory hMemory]
  exact stays_onMemory (fun _ => rfl) (fun _ => rfl) fun _ => ⟨[], (List.append_nil _).symm⟩

theorem stays_ensureConnected : Stays s db.ensureConnected := by
  refine stays_state_bind fun s' => ?_
  split
  · exact stays_pure ()
  · split
    · exact stays_throw _
    · exact (stays_connect hMemory).bind fun _ => stays_pure ()

theorem stays_queryAnywhere (sql : String) : Stays s (db.queryAnywhere sql) := by
  rw [queryAnywhere, onBackend_memory hMemory]
  have hQuery (m : MemoryBackend) : (m.query sql).2 = m ∨
      (m.query sql).2 = { m with lastQuery := some sql } := by
    rw [MemoryBackend.query]
    split
    · exact .inr rfl
    · exact .inl rfl
  refine stays_onMemory (fun m => ?_) (fun m => ?_) fun m => ⟨[], ?_⟩ <;>
    rcases hQuery m with h | h <;> simp [h]

/-- A connection that is checked out has no transaction on it. -/
theorem meets_checkOut : Meets unwaiting s.Aside db.checkOut fun r s' =>
    s.Aside s' ∧ ∀ c, r = .ok c → s'.memory.statementsOn c = none := by
  rw [checkOut, onBackend_memory hMemory]
  refine meets_onMemory fun s' hs => ?_
  rw [MemoryBackend.checkOut]
  split
  · refine ⟨hs.trans ⟨rfl, rfl, rfl, [none], rfl⟩, ?_⟩
    rintro _ ⟨⟩
    simp [MemoryBackend.statementsOn]
  · exact ⟨hs, by rintro c ⟨⟩⟩

theorem meets_rollbackOn_memory {c : Nat} : Meets unwaiting (· = s) (db.rollbackOn c) fun r s' =>
    r = .ok () ∧ s' = s.published c "ROLLBACK" := by
  rw [rollbackOn, onBackend_memory hMemory]
  rintro _ rfl
  exact ⟨rfl, rfl⟩

theorem stays_release (c : Nat) : Stays s (db.release c) := by
  rw [release, onBackend_memory hMemory]
  exact stays_pure ()

/-- A rollback on a connection of its own rolls nothing back. -/
theorem stays_rollbackQuietly_none : Stays s (db.rollbackQuietly none) := by
  have hRollback (c : Nat) : Meets unwaiting
      (fun s' => s.Aside s' ∧ s'.memory.statementsOn c = none) (db.rollbackOn c)
      fun _ => s.Aside := by
    rintro s' ⟨hs, hNone⟩
    refine (meets_rollbackOn_memory hMemory s' rfl).mono ?_
    rintro _ _ ⟨-, rfl⟩
    rw [Store.published, MemoryBackend.endOn, hNone]
    exact hs
  refine meets_quietly (R := fun _ => s.Aside) ?_ (fun _ hs => hs) (fun _ _ hs _ => hs)
    fun _ _ hs _ => hs
  refine meets_bind (meets_checkOut hMemory) (fun c => ?_) fun _ _ hs => hs.1
  exact (meets_ensuring (Q := fun _ => s.Aside) (hRollback c) fun _ =>
    stays_release hMemory c).mono (fun s' hs => ⟨hs.1, hs.2 c rfl⟩) fun _ _ hs => hs

/-- A query that is in no transaction leaves all of them as they are. -/
theorem stays_run_none (q : Query) : Stays s (db.run q none) := by
  refine (stays_ofResult _).bind fun config => ?_
  refine (stays_ensureConnected hMemory).bind fun _ => ?_
  refine (stays_ofResult _).bind fun sql => ?_
  refine (stays_queryAnywhere hMemory sql).outcome_bind fun r => ?_
  cases r with
  | ok found => exact stays_pure _
  | error f =>
    show Stays s (if (f.isConnection || !f.isFailure) = true then _ else _)
    split
    · exact stays_throw f
    · exact (stays_rollbackQuietly_none hMemory).bind fun _ => stays_throw _

theorem stays_getConnection : Stays s (db.action .getConnection) := by
  refine (stays_ensureConnected hMemory).bind fun _ => Stays.bind ?_ fun c => ?_
  · exact (meets_checkOut hMemory).mono (fun _ hs => hs) fun _ _ hs => hs.1
  · exact fun s' hs => hs.trans ⟨rfl, rfl, rfl, [], (List.append_nil _).symm⟩

theorem stays_releaseAt (place : Nat) : Stays s (db.action (.release place)) := by
  refine Stays.bind (stays_state_bind fun s' => ?_) fun c => ?_
  · split
    · exact stays_pure _
    · exact stays_throw _
  · exact meets_nothing ((stays_release hMemory c).mono (fun _ hs => hs) fun _ _ hs => hs)

/-- A transaction that is begun is on a connection of its own. -/
theorem meets_begin : Meets unwaiting (· = s) db.begin fun r s' =>
    match r with
    | .ok _ => ∃ before, s.Aside before ∧ s'.memory.rules = before.memory.rules ∧
        s'.memory.lastTransaction = before.memory.lastTransaction ∧
        s'.memory.connections = before.memory.connections ++ [some [startStatement]] ∧
        s'.transactions =
          before.transactions ++ [{ connection := before.memory.connections.length }]
    | .error _ => s.Aside s' := by
  have hCheckOut : Meets unwaiting s.Aside db.checkOutTransaction fun r s' =>
      match r with
      | .ok c => ∃ before, s.Aside before ∧ c = before.memory.connections.length ∧
          s' = { before with memory := { before.memory with
            connections := before.memory.connections ++ [some [startStatement]] } }
      | .error _ => s.Aside s' := by
    rw [checkOutTransaction, onBackend_memory hMemory]
    refine meets_onMemory fun s' hs => ?_
    cases hRequire : s'.memory.require with
    | ok u =>
      simp only [MemoryBackend.checkOut, hRequire]
      exact ⟨s', hs, rfl, rfl⟩
    | error f =>
      simp only [MemoryBackend.checkOut, hRequire]
      exact hs
  refine meets_bind (R := fun _ => s.Aside) ?_ (fun _ => ?_) fun _ _ hs => hs
  · exact (stays_ensureConnected hMemory).mono (by rintro _ rfl; exact .refl _) fun _ _ hs => hs
  · refine meets_bind hCheckOut (fun c => ?_) fun _ _ hs => hs
    rintro s' ⟨before, hBefore, rfl, rfl⟩
    exact ⟨before, hBefore, rfl, rfl, rfl, rfl⟩

/-! ## In a transaction -/

variable {t c : Nat}

theorem meets_commitOn_memory : Meets unwaiting (· = s) (db.commitOn c) fun r s' =>
    r = .ok () ∧ s' = s.published c "COMMIT" := by
  rw [commitOn, onBackend_memory hMemory]
  rintro _ rfl
  exact ⟨rfl, rfl⟩

theorem meets_rollbackQuietly_memory : Meets unwaiting (· = s) (db.rollbackQuietly (some c))
    fun r s' => r = .ok () ∧ s' = s.published c "ROLLBACK" := by
  refine meets_quietly (meets_rollbackOn_memory hMemory) (fun _ hs => hs) ?_ ?_
  · rintro f s' ⟨hEq, -⟩
    cases hEq
  · rintro f s' ⟨hEq, -⟩
    cases hEq

theorem meets_queryOn_memory (sql : String) :
    Meets unwaiting (· = s) (db.queryOn c sql) fun r s' =>
      r = withoutFields (MemoryBackend.answer s.memory.rules sql) ∧ s' = s.sent c sql := by
  rw [queryOn, onBackend_memory hMemory]
  rintro _ rfl
  exact ⟨rfl, rfl⟩

/-- A query on a connection sends its statement; when that is refused, what the connection
gathered is rolled back, and only then the fault is that of a statement. -/
theorem meets_run_memory {q : Query} {config : QueryConfig} {sql : String}
    (hPrepared : db.prepared q = .ok (config, sql)) :
    Meets unwaiting (· = s) (db.run q (some c)) fun r s' =>
      (isRefused s.memory.rules sql = false ∧ s' = s.sent c sql ∧
        ∀ f, r = .error f → f.kind ≠ .sql) ∨
      (isRefused s.memory.rules sql = true ∧ (∃ f, r = .error f ∧ f.kind = .sql) ∧
        s' = (s.sent c sql).published c "ROLLBACK") := by
  rw [db.run_some, hPrepared]
  refine meets_outcome_bind (meets_queryOn_memory hMemory sql) fun r => ?_
  rintro s' ⟨rfl, rfl⟩
  cases hAnswer : MemoryBackend.answer s.memory.rules sql with
  | ok found =>
    have hAccepted : isRefused s.memory.rules sql = false := by rw [isRefused, hAnswer]
    exact Or.inl ⟨hAccepted, rfl, nofun⟩
  | error f =>
    have hIs : isRefused s.memory.rules sql = !(f.isConnection || !f.isFailure) := by
      rw [isRefused, hAnswer, Bool.not_or, Bool.not_not, Bool.and_comm]
    show Routine.Keeps _ _ (if (f.isConnection || !f.isFailure) = true then _ else _ :
      Action Store Value) _
    cases hPassed : f.isConnection || !f.isFailure with
    | true =>
      rw [hPassed] at hIs
      refine Or.inl ⟨hIs, rfl, ?_⟩
      rintro g hEq hKind
      cases hEq
      rw [Fault.isConnection, Fault.isFailure, hKind] at hPassed
      cases hPassed
    | false =>
      rw [hPassed] at hIs
      refine meets_bind_of_ok (meets_rollbackQuietly_memory hMemory) (meets_throw ?_) _ rfl
      rintro _ rfl
      exact .inr ⟨hIs, ⟨_, rfl, rfl⟩, rfl⟩

end Beside

section Open

variable {t c : Nat} (hMemory : db.backend = .memory)
  (hGet : s.transactions[t]? = some { connection := c })

include hMemory hGet

/-- An open transaction is closed, and its connection handed back. -/
theorem meets_finish_memory {last : String} :
    Meets unwaiting (· = s.published c last) (db.finish t) fun r s' =>
      r = .ok () ∧ s' = s.ended t c last := by
  refine meets_transaction_bind (Store.found hGet) ?_
  rw [release, onBackend_memory hMemory]
  rintro _ rfl
  exact ⟨rfl, rfl⟩

theorem meets_ending_memory {last statement : String} {action afterFailure : Action Store Unit}
    (hAction : Meets unwaiting (· = s) action fun r s' => r = .ok () ∧ s' = s.published c last) :
    Meets unwaiting (· = s) (db.ending t statement action afterFailure) fun r s' =>
      r = .ok () ∧ s' = s.ended t c last := by
  refine meets_ensuring (R := fun r s' => r = .ok () ∧ s' = s.published c last) ?_ fun r => ?_
  · refine meets_outcome_bind hAction fun r => ?_
    rintro s' ⟨rfl, rfl⟩
    exact ⟨rfl, rfl⟩
  · rintro s' ⟨rfl, rfl⟩
    refine (meets_finish_memory hMemory hGet _ rfl).mono ?_
    rintro _ s' ⟨rfl, rfl⟩
    exact ⟨rfl, rfl⟩

theorem meets_commit_memory : Meets unwaiting (· = s) (db.commit t) fun r s' =>
    r = .ok () ∧ s' = s.ended t c "COMMIT" := by
  refine meets_openConnection_bind (Store.found hGet) rfl ?_
  exact meets_ending_memory hMemory hGet (meets_commitOn_memory hMemory)

theorem meets_rollback_memory : Meets unwaiting (· = s) (db.rollback t) fun r s' =>
    r = .ok () ∧ s' = s.ended t c "ROLLBACK" := by
  refine meets_transaction_bind (Store.found hGet) ?_
  exact meets_ending_memory hMemory hGet (meets_rollbackOn_memory hMemory)

/-- A query in an open transaction: its statement is gathered, and when it is refused the
transaction ends. -/
theorem meets_queryIn_memory {q : Query} {config : QueryConfig} {sql : String}
    (hPrepared : db.prepared q = .ok (config, sql)) :
    Meets unwaiting (· = s) (db.queryIn t q) fun _ s' =>
      s' = if isRefused s.memory.rules sql then (s.sent c sql).ended t c "ROLLBACK"
        else s.sent c sql := by
  refine meets_openConnection_bind (Store.found hGet) rfl ?_
  refine meets_outcome_bind (meets_run_memory hMemory hPrepared) fun r => ?_
  rintro s' (⟨hIs, rfl, hKind⟩ | ⟨hIs, ⟨f, rfl, hKind⟩, rfl⟩)
  · rw [hIs]
    cases r with
    | ok v => rfl
    | error f =>
      show Routine.Keeps _ _ (if (f.kind == .sql) = true then _ else _ : Action Store Value) _
      rw [beq_eq_false_iff_ne.mpr (hKind f rfl)]
      rfl
  · rw [hIs]
    show Routine.Keeps _ _ (if (f.kind == .sql) = true then _ else _ : Action Store Value) _
    rw [beq_iff_eq.mpr hKind]
    refine meets_bind_of_ok (meets_finish_memory (s := s.sent c sql) hMemory hGet)
      (meets_throw ?_) _ rfl
    rintro _ rfl
    rfl

end Open

end Database

/-! ## Every operation -/

/-- A call on a transaction that was never begun does nothing. -/
theorem TransactionCall.meets_of_missing {contract : Contract Store} {P : Store → Prop}
    {db : Database} {t : Nat} (call : TransactionCall) {Q : Result Value → Store → Prop}
    (hGet : ∀ s, P s → s.transactions[t]? = none) (hQ : ∀ s, P s → Q (.error .noItem) s) :
    Meets contract P ((call.operation t).action db) Q := by
  have hLookUp : Meets contract P (Database.transaction t) fun r s => r = .error .noItem ∧ P s := by
    refine meets_state_bind fun s hs => meets_ofResult ?_
    rintro _ rfl
    rw [Store.transaction?, hGet _ hs]
    exact ⟨rfl, hs⟩
  have hMissing : ∀ {α : Type} {f : Transaction → Action Store α} {Q' : Result α → Store → Prop},
      (∀ s, P s → Q' (.error .noItem) s) → Meets contract P (Database.transaction t >>= f) Q' :=
    meets_bind_of_error hLookUp
  have hUnopened : ∀ {α : Type} {f : Nat → Action Store α} {Q' : Result α → Store → Prop},
      (∀ s, P s → Q' (.error .noItem) s) →
      Meets contract P (Database.openConnection t >>= f) Q' :=
    meets_bind_of_error (hMissing fun _ hs => ⟨rfl, hs⟩)
  cases call with
  | query q => exact hUnopened hQ
  | commit => exact meets_nothing (hUnopened hQ)
  | rollback => exact meets_nothing (hMissing hQ)
  | leave endedWell => exact meets_nothing (hMissing hQ)

section Tallies

variable {db : Database} {m : MemoryBackend} {past : List Deed} {s : Store} {t c : Nat}
  (hMemory : db.backend = .memory) (h : s.Tallies db m past)

include h in
/-- What ends an open transaction in which it sends nothing. -/
theorem tallies_ended (hGet : s.transactions[t]? = some { connection := c }) {last : String}
    {o : Operation} {a : Action Store Unit}
    (ha : Meets unwaiting (· = s) a fun r s' => r = .ok () ∧ s' = s.ended t c last)
    (hAbout : o.transaction = some t) (hLast : o.last? db m.rules = some last)
    (hStatement : o.statement? db t = none) :
    Meets unwaiting (· = s) a fun r s' =>
      s'.Tallies db m (⟨o, r.map fun _ => .null⟩ :: past) := by
  refine ha.mono (fun _ hs => hs) ?_
  rintro r _ ⟨rfl, rfl⟩
  exact h.ended hGet hAbout hLast rfl rfl (h.connections_unsent hGet hStatement)

include hMemory h

theorem tallies_queryIn (hGet : s.transactions[t]? = some { connection := c })
    (q : Database.Query) : Meets unwaiting (· = s) (db.queryIn t q) fun r s' =>
      s'.Tallies db m (⟨.queryIn t q, r⟩ :: past) := by
  cases hPrepared : db.prepared q with
  | error f =>
    refine meets_queryIn_of_unprepared hPrepared (Store.found hGet) rfl ?_
    rintro _ rfl
    refine h.idle rfl (endings_cons_of_none ?_) fun u _ _ _ => ?_
    · simp only [Operation.last?, hPrepared]
    · simp only [Operation.statement?, hPrepared]
      split <;> rfl
  | ok p =>
    obtain ⟨config, sql⟩ := p
    refine (Database.meets_queryIn_memory hMemory hGet hPrepared).mono (fun _ hs => hs) ?_
    rintro r _ rfl
    have hStatement : (Operation.queryIn t q).statement? db t = some sql := by
      rw [Operation.statement?, if_pos rfl, hPrepared]
      rfl
    rw [h.rules]
    cases hIs : isRefused m.rules sql with
    | true =>
      refine h.ended hGet rfl ?_ rfl rfl (h.connections_sent hGet hStatement)
      simp only [Operation.last?, hPrepared, hIs, if_true]
    | false =>
      refine h.sent hGet rfl hStatement ?_
      simp only [Operation.last?, hPrepared, hIs, Bool.false_eq_true, if_false]

/-- A call on an open transaction sends a statement of it, or ends it, or does nothing. -/
theorem tallies_of_open (hGet : s.transactions[t]? = some { connection := c })
    (call : TransactionCall) : Meets unwaiting (· = s) ((call.operation t).action db) fun r s' =>
      s'.Tallies db m (⟨call.operation t, r⟩ :: past) := by
  have hCommit := Database.meets_commit_memory hMemory hGet
  have hRollback := Database.meets_rollback_memory hMemory hGet
  cases call with
  | query q => exact tallies_queryIn hMemory h hGet q
  | commit => exact meets_nothing (tallies_ended h hGet hCommit rfl rfl rfl)
  | rollback => exact meets_nothing (tallies_ended h hGet hRollback rfl rfl rfl)
  | leave endedWell =>
    refine meets_nothing (meets_transaction_bind (Store.found hGet) ?_)
    cases endedWell with
    | true => exact tallies_ended h hGet hCommit rfl rfl rfl
    | false => exact tallies_ended h hGet hRollback rfl rfl rfl

/-- The account is kept by every operation. -/
theorem tallies_operation (o : Operation) : Meets unwaiting (· = s) (o.action db) fun r s' =>
    s'.Tallies db m (⟨o, r⟩ :: past) := by
  have hCall : ∀ (t : Nat) (call : TransactionCall), Meets unwaiting (· = s)
      ((call.operation t).action db) fun r s' =>
        s'.Tallies db m (⟨call.operation t, r⟩ :: past) := by
    intro t call
    have hAbout : (call.operation t).transaction = some t := by cases call <;> rfl
    cases hGet : s.transactions[t]? with
    | none =>
      refine call.meets_of_missing (Store.found hGet) ?_
      rintro _ rfl
      refine h.refused hAbout fun transaction hSome => ?_
      rw [hGet] at hSome
      cases hSome
    | some transaction =>
      obtain ⟨c, isClosed⟩ := transaction
      cases isClosed with
      | true =>
        refine call.meets_of_closed (Store.found hGet) rfl ?_
        rintro _ rfl
        refine h.refused hAbout fun transaction hSome => ?_
        rw [hGet] at hSome
        cases hSome
        rfl
      | false => exact tallies_of_open hMemory h hGet call
  have hStays : ∀ {o : Operation}, o.transaction = none →
      (∀ r : Result Value, (Deed.mk o r).isBeginning = false) → Stays s (o.action db) →
      Meets unwaiting (· = s) (o.action db) fun r s' => s'.Tallies db m (⟨o, r⟩ :: past) := by
    intro o hAbout hBegins hStays
    refine hStays.mono (by rintro _ rfl; exact .refl _) fun r s' hAside => ?_
    refine (h.aside hAside).idle (hBegins r) (endings_cons_of_not ?_) fun u _ _ _ => ?_
    · intro u hSome
      rw [hAbout] at hSome
      cases hSome
    · exact statement?_eq_none (d := ⟨o, r⟩) (by rw [hAbout]; nofun)
  cases o with
  | connect => exact hStays rfl (fun _ => rfl) (Database.stays_connect hMemory)
  | disconnect => exact hStays rfl (fun _ => rfl) (Database.stays_disconnect hMemory)
  | query q => exact hStays rfl (fun _ => rfl) (Database.stays_run_none hMemory q)
  | «begin» =>
    refine meets_bind (Database.meets_begin hMemory) (fun n => meets_pure ?_) ?_
    · rintro s' ⟨before, hAside, hRules, hLast, hConnections, hTransactions⟩
      exact (h.aside hAside).beginning rfl hRules hLast hConnections hTransactions
    · intro f s' hAside
      exact (h.aside hAside).idle rfl (endings_cons_of_not nofun) fun _ _ _ _ => rfl
  | getConnection => exact hStays rfl (fun _ => rfl) (Database.stays_getConnection hMemory)
  | queryIn t q => exact hCall t (.query q)
  | commit t => exact hCall t .commit
  | rollback t => exact hCall t .rollback
  | leave t endedWell => exact hCall t (.leave endedWell)
  | release place => exact hStays rfl (fun _ => rfl) (Database.stays_releaseAt hMemory place)

end Tallies

end SqlWeave
