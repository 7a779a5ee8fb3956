import SqlWeave.Proofs.Live.Outstanding
import SqlWeave.Proofs.Live.Sequence

/-!
# Transactions that are used in order

A transaction hands its connection back once and is closed from then on, in whatever way it is
used.  If its calls are made one after another, nothing is done on the connection behind the
hand-back, and whatever fails on it is rolled back before.

## Main results

* `Effects.upToHandBack`: what calls on a transaction do on its connection ends with the
  hand-back.
* `Scheduler.transaction_lifetime`: the lifetime of a transaction, in every run.
-/

namespace SqlWeave

open SqlWeave.Action

/-- Calls on a connection that go up to the hand-back, which is made if the transaction is
closed. -/
def UpToHandBack (k : Nat) : Bool → List (Call × Encounter) → Prop
  | false, made => ∀ d, (.release k, d) ∉ made
  | true, made => ∃ before d, made = before ++ [(.release k, d)] ∧ ∀ d', (.release k, d') ∉ before

section

variable {db : Database} {forecast : Forecast} {k : Nat} {isClosed isClosed' : Bool} {e : Entry}
  {entries : List Entry} {made more : List (Call × Encounter)}

/-- Nothing is done behind the hand-back. -/
theorem UpToHandBack.eq_nil {d : Encounter} {before after : List (Call × Encounter)}
    (h : UpToHandBack k isClosed (before ++ (.release k, d) :: after)) : after = [] := by
  cases isClosed with
  | false => exact absurd (List.mem_append_right _ List.mem_cons_self) (h d)
  | true =>
    obtain ⟨front, d', hEq, hNone⟩ := h
    rcases concat_eq_append_cons hEq.symm with ⟨-, -, hNil⟩ | ⟨rest, -, hFront⟩
    · exact hNil
    · rw [hFront] at hNone
      exact absurd (List.mem_append_right _ List.mem_cons_self) (hNone d)

/-- More calls in front of others, the connection not being handed back among them. -/
theorem UpToHandBack.append (hMade : ∀ d, (.release k, d) ∉ made)
    (h : UpToHandBack k isClosed more) : UpToHandBack k isClosed (made ++ more) := by
  cases isClosed with
  | false => exact fun d hMem => (List.mem_append.mp hMem).elim (hMade d) (h d)
  | true =>
    obtain ⟨before, d, rfl, hNone⟩ := h
    refine ⟨made ++ before, d, (List.append_assoc ..).symm, fun d' hMem => ?_⟩
    exact (List.mem_append.mp hMem).elim (hMade d') (hNone d')

/-- A call on an open transaction hands its connection back at the end, or not at all. -/
theorem Effect.upToHandBack {call : TransactionCall} {outcome : Result Value}
    (h : Effect db k call false outcome made isClosed) : UpToHandBack k isClosed made := by
  cases h with
  | unsent => exact nofun
  | answered | passedOn => exact fun d hMem => by simp at hMem
  | @failed q config sql e b d f =>
    exact ⟨[(.execute k sql, e), (.rollback k, b)], d, rfl, fun d' hMem => by simp at hMem⟩
  | @committed call e d => exact ⟨[(.commit k, e)], d, rfl, fun d' hMem => by simp at hMem⟩
  | @conflicted call e b d f =>
    exact ⟨[(.commit k, e), (.rollback k, b)], d, rfl, fun d' hMem => by simp at hMem⟩
  | @rolledBack call e d => exact ⟨[(.rollback k, e)], d, rfl, fun d' hMem => by simp at hMem⟩

/-- A call on a transaction that is closed does nothing. -/
theorem Effect.of_closed {call : TransactionCall} {outcome : Result Value}
    (h : Effect db k call true outcome made isClosed) :
    outcome = call.refusal ∧ made = [] ∧ isClosed = true := by
  cases h
  exact ⟨rfl, rfl, rfl⟩

/-- Neither do any number of them. -/
theorem Effects.of_closed (h : Effects db k true entries isClosed) :
    isClosed = true ∧ ∀ e ∈ entries, e.outcome = e.call.refusal ∧ e.made = [] := by
  induction entries with
  | nil =>
    cases h
    exact ⟨rfl, nofun⟩
  | cons e rest ih =>
    cases h with
    | cons hFirst hRest =>
      obtain ⟨hOutcome, hMade, rfl⟩ := hFirst.of_closed
      exact ⟨(ih hRest).1, List.forall_mem_cons.mpr ⟨⟨hOutcome, hMade⟩, (ih hRest).2⟩⟩

theorem Effects.madeIn_of_closed (h : Effects db k true entries isClosed) :
    madeIn entries = [] :=
  List.flatMap_eq_nil_iff.mpr fun e hMem => (h.of_closed.2 e hMem).2

/-- What calls on an open transaction do on its connection ends with the hand-back. -/
theorem Effects.upToHandBack (h : Effects db k false entries isClosed) :
    UpToHandBack k isClosed (madeIn entries) := by
  induction entries with
  | nil =>
    cases h with
    | nil => exact nofun
  | cons e rest ih =>
    cases h with
    | @cons _ _ _ isClosed' _ hFirst hRest =>
      cases isClosed' with
      | false => exact .append hFirst.upToHandBack (ih hRest)
      | true =>
        show UpToHandBack k isClosed (e.made ++ madeIn rest)
        obtain rfl : isClosed = true := hRest.of_closed.1
        rw [hRest.madeIn_of_closed, List.append_nil]
        exact hFirst.upToHandBack

/-- Every call of a sequence has an effect. -/
theorem Effects.effect (h : Effects db k isClosed entries isClosed') (hMem : e ∈ entries) :
    ∃ wasClosed isClosed'', Effect db k e.call wasClosed e.outcome e.made isClosed'' := by
  induction h with
  | nil => cases hMem
  | cons hFirst _ ih =>
    rcases List.mem_cons.mp hMem with rfl | hRest
    · exact ⟨_, _, hFirst⟩
    · exact ih hRest

/-- A statement that fails, other than with a fault of the connection, is rolled back before the
connection is handed back. -/
theorem Effect.statement_rolledBack {call : TransactionCall} {wasClosed : Bool}
    {outcome : Result Value} {sql : String} {met : Encounter} {f : Fault}
    (h : Effect db k call wasClosed outcome made isClosed) (hMem : (.execute k sql, met) ∈ made)
    (hFault : met.fault = some f) (hConnection : f.isConnection = false) :
    ∃ b d, made = [(.execute k sql, met), (.rollback k, b), (.release k, d)] := by
  cases h with
  | refused | unsent => cases hMem
  | answered _ hNone =>
    cases List.mem_singleton.mp hMem
    rw [hFault] at hNone
    cases hNone
  | passedOn _ hOther hIs =>
    cases List.mem_singleton.mp hMem
    rw [hFault] at hOther
    cases hOther
    rw [hConnection] at hIs
    cases hIs
  | @failed _ _ _ _ b d =>
    simp only [List.mem_cons, Prod.mk.injEq, reduceCtorEq, false_and, or_false, List.not_mem_nil]
      at hMem
    obtain ⟨hCall, rfl⟩ := hMem
    cases hCall
    exact ⟨b, d, rfl⟩
  | committed | conflicted | rolledBack => simp at hMem

/-- A commit that fails is rolled back before the connection is handed back. -/
theorem Effect.commit_rolledBack {call : TransactionCall} {wasClosed : Bool}
    {outcome : Result Value} {met : Encounter} {f : Fault}
    (h : Effect db k call wasClosed outcome made isClosed) (hMem : (.commit k, met) ∈ made)
    (hFault : met.fault = some f) :
    ∃ b d, made = [(.commit k, met), (.rollback k, b), (.release k, d)] := by
  cases h with
  | refused | unsent => cases hMem
  | answered | passedOn | failed | rolledBack => simp at hMem
  | committed _ hNone =>
    simp only [List.mem_cons, Prod.mk.injEq, true_and, reduceCtorEq, false_and, or_false,
      List.not_mem_nil] at hMem
    rw [hMem, hNone] at hFault
    cases hFault
  | @conflicted _ _ b d =>
    simp only [List.mem_cons, Prod.mk.injEq, true_and, reduceCtorEq, false_and, or_false,
      List.not_mem_nil] at hMem
    exact ⟨b, d, by rw [hMem]⟩

/-! ## Calls made one after another -/

/-- Calls on a transaction that are made one after another: nothing is done on its connection
behind the hand-back, calls behind it are refused or do nothing, and what fails is rolled back
before it. -/
structure IsOrderly (k : Nat) (wasClosed : Bool) (log log' : List Call) (entries : List Entry) :
    Prop where
  silent : ∀ before after, log' = log ++ before ++ after → .release k ∈ log ++ before →
    ∀ c ∈ after, c.onConnection ≠ some k
  refused : ∀ before e after, entries = before ++ e :: after →
    wasClosed = true ∨ (∃ d, (.release k, d) ∈ madeIn before) →
    e.outcome = e.call.refusal ∧ e.made = []
  statement_rolledBack : ∀ e ∈ entries, ∀ sql met f, (.execute k sql, met) ∈ e.made →
    met.fault = some f → f.isConnection = false →
    ∃ b d, e.made = [(.execute k sql, met), (.rollback k, b), (.release k, d)]
  commit_rolledBack : ∀ e ∈ entries, ∀ met f, (.commit k, met) ∈ e.made → met.fault = some f →
    ∃ b d, e.made = [(.commit k, met), (.rollback k, b), (.release k, d)]

theorem Effects.silent {log log' before after : List Call}
    (h : Effects db k isClosed entries isClosed')
    (hMade : madeOn k forecast log' = madeOn k forecast log ++ madeIn entries)
    (hClosed : isClosed = true ↔ .release k ∈ log) (hLog : log' = log ++ before ++ after)
    (hBack : .release k ∈ log ++ before) : ∀ c ∈ after, c.onConnection ≠ some k := by
  suffices hNone : madeOn k (forecast.after (log ++ before)) after = [] from
    madeOn_eq_nil_iff.mp hNone
  have hSplit : madeOn k forecast log' = madeOn k forecast (log ++ before) ++
      madeOn k (forecast.after (log ++ before)) after := by
    rw [hLog, madeOn_append]
  cases isClosed with
  | true =>
    rw [hMade, h.madeIn_of_closed, madeOn_append, List.append_nil, List.append_assoc] at hSplit
    exact (List.append_eq_nil_iff.mp (List.self_eq_append_right.mp hSplit)).2
  | false =>
    have hNone : ∀ d, (.release k, d) ∉ madeOn k forecast log := by
      intro d hMem
      have hCall := List.mem_map_of_mem (f := Prod.fst) hMem
      rw [map_fst_madeOn] at hCall
      cases hClosed.mpr (List.mem_filter.mp hCall).1
    have hUp : UpToHandBack k isClosed' (madeOn k forecast log') :=
      hMade ▸ h.upToHandBack.append hNone
    obtain ⟨d, hMem⟩ : ∃ d, (.release k, d) ∈ madeOn k forecast (log ++ before) :=
      exists_mem_madeOn hBack rfl
    obtain ⟨front, rest, hEq⟩ := List.append_of_mem hMem
    rw [hSplit, hEq, List.append_assoc, List.cons_append] at hUp
    exact (List.append_eq_nil_iff.mp hUp.eq_nil).2

theorem Effects.refused {before after : List Entry}
    (h : Effects db k isClosed (before ++ e :: after) isClosed')
    (hClosed : isClosed = true ∨ ∃ d, (.release k, d) ∈ madeIn before) :
    e.outcome = e.call.refusal ∧ e.made = [] := by
  obtain ⟨isClosed'', hBefore, hAfter⟩ := h.split
  have hThen : isClosed'' = true := by
    cases isClosed with
    | true => exact hBefore.of_closed.1
    | false =>
      obtain ⟨d, hMem⟩ := hClosed.resolve_left nofun
      cases isClosed'' with
      | true => rfl
      | false => exact absurd hMem (hBefore.upToHandBack d)
  subst hThen
  exact hAfter.of_closed.2 e List.mem_cons_self

/-- Calls that have their effects one after another are in order. -/
theorem Effects.isOrderly {log log' : List Call} (h : Effects db k isClosed entries isClosed')
    (hMade : madeOn k forecast log' = madeOn k forecast log ++ madeIn entries)
    (hClosed : isClosed = true ↔ .release k ∈ log) : IsOrderly k isClosed log log' entries where
  silent := fun _ _ hLog hBack => h.silent hMade hClosed hLog hBack
  refused := by
    rintro before e after rfl hBack
    exact h.refused hBack
  statement_rolledBack := by
    intro e hMem sql met f hMade hFault hConnection
    obtain ⟨wasClosed, isClosed'', hEffect⟩ := h.effect hMem
    exact hEffect.statement_rolledBack hMade hFault hConnection
  commit_rolledBack := by
    intro e hMem met f hMade hFault
    obtain ⟨wasClosed, isClosed'', hEffect⟩ := h.effect hMem
    exact hEffect.commit_rolledBack hMade hFault

end

/-! ## In every run -/

namespace Scheduler

variable {db : Database} {forecast : Forecast} {callers : Callers} {s : Scheduler} {t u : Nat}
  {transaction : Transaction}

/-- A call on a transaction that is closed is done at once and leaves the store as it is. -/
theorem advance_of_closed (hGet : s.store.transactions[t]? = some transaction)
    (hClosed : transaction.isClosed = true) (call : TransactionCall) :
    s.advance u ((call.operation t).routine db) = s.finish u ⟨call.refusal, []⟩ := by
  have hMeets : Meets unwaiting (· = s.store) ((call.operation t).action db) fun r s' =>
      r = call.refusal ∧ s' = s.store :=
    call.meets_of_closed (Store.found hGet) hClosed fun _ hs => ⟨rfl, hs⟩
  refine advance_of_unwaiting (Routine.keeps_bind ((hMeets _ rfl).mono ?_))
  rintro r s' ⟨rfl, rfl⟩
  exact ⟨rfl, rfl⟩

/-- So is a query on an open transaction that cannot be prepared. -/
theorem advance_of_unprepared (hGet : s.store.transactions[t]? = some transaction)
    (hOpen : transaction.isClosed = false) {q : Database.Query} {f : Fault}
    (hPrepared : db.prepared q = .error f) :
    s.advance u ((Operation.queryIn t q).routine db) = s.finish u ⟨.error f, []⟩ := by
  have hMeets : Meets unwaiting (· = s.store) ((Operation.queryIn t q).action db) fun r s' =>
      r = .error f ∧ s' = s.store :=
    meets_queryIn_of_unprepared hPrepared (Store.found hGet) hOpen fun _ hs => ⟨rfl, hs⟩
  refine advance_of_unwaiting (Routine.keeps_bind ((hMeets _ rfl).mono ?_))
  rintro r s' ⟨rfl, rfl⟩
  exact ⟨rfl, rfl⟩

/-- A transaction between two calls. -/
theorem Governed.stands {own : Nat → Hand} (hGoverned : Governed db callers own s)
    (hForecast : s.store.live.forecast = forecast.after s.store.live.log)
    (hGet : s.store.transactions[t]? = some transaction) :
    s.store.Stands forecast t transaction.connection (s.store.connectionOf transaction)
      transaction.isClosed transaction.isClosed
      (madeOn (s.store.connectionOf transaction) forecast s.store.live.log) := by
  obtain ⟨checkout, hCheckout⟩ := hGoverned.accounts.exists_checkout hGet
  have hReleased : checkout.isReleased = transaction.isClosed := by
    cases hClosed : transaction.isClosed with
    | true =>
      obtain ⟨other, hOther, hReleased⟩ := hGoverned.accounts.closed_released t _ hGet hClosed
      rw [hCheckout] at hOther
      exact (Option.some.inj hOther) ▸ hReleased
    | false =>
      obtain ⟨other, hOther, hReleased⟩ :=
        Live.isOut_iff.mp (hGoverned.accounts.isOut_of_open hGet hClosed)
      rw [hCheckout] at hOther
      exact (Option.some.inj hOther) ▸ hReleased
  refine ⟨hGet, ?_, hForecast, rfl⟩
  rw [Store.connectionOf, Live.connectionOf, hCheckout, ← hReleased]
  rfl

/-- The lifetime of a transaction.  In whatever way it is used, it hands its connection back at
most once, is closed exactly if it did, and stays closed.  Once it is closed, calls are refused or
do nothing; while it is open, a query that cannot be prepared does nothing.  If its calls are made
one after another, nothing is done on its connection behind the hand-back, and what fails on it is
rolled back before. -/
theorem transaction_lifetime (hLive : db.backend = .live) (h : Running db forecast callers s)
    (hGet : s.store.transactions[t]? = some transaction) :
    ((handedBack s.store.live.log).count (s.store.connectionOf transaction) ≤ 1 ∧
      (transaction.isClosed = true ↔
        s.store.connectionOf transaction ∈ handedBack s.store.live.log) ∧
      ∀ callers' s', Course db callers s callers' s' →
        ∃ transaction', s'.store.transactions[t]? = some transaction' ∧
          s'.store.connectionOf transaction' = s.store.connectionOf transaction ∧
          (transaction.isClosed = true → transaction'.isClosed = true)) ∧
    (transaction.isClosed = true → ∀ (call : TransactionCall) u,
      s.advance u ((call.operation t).routine db) = s.finish u ⟨call.refusal, []⟩) ∧
    (transaction.isClosed = false → ∀ q f, db.prepared q = .error f → ∀ u,
      s.advance u ((Operation.queryIn t q).routine db) = s.finish u ⟨.error f, []⟩) ∧
    (forecast.FailsOnly → s.IsIdle callers t → ∀ entries callers' s',
      Sequence db forecast t (s.store.connectionOf transaction) callers s entries callers' s' →
      IsOrderly (s.store.connectionOf transaction) transaction.isClosed s.store.live.log
        s'.store.live.log entries) := by
  refine ⟨closed_iff_handedBack hLive h hGet, fun hClosed call u =>
    advance_of_closed hGet hClosed call, fun hOpen q f hPrepared u =>
    advance_of_unprepared hGet hOpen hPrepared, fun hFails hIdle entries callers' s' hSequence => ?_⟩
  obtain ⟨own, hGoverned, hPersists⟩ := Course.governed hLive governed_start h
  have hForecast : s.store.live.forecast = forecast.after s.store.live.log :=
    hPersists.calls.forecast_eq rfl
  have hStands := hGoverned.stands hForecast hGet
  obtain ⟨-, -, isClosed', hEffects, hStands'⟩ :=
    hSequence.effects hLive hFails hGoverned hIdle hStands
  refine hEffects.isOrderly hStands'.made_eq ?_
  rw [hGoverned.accounts.closed_iff hGet]
  exact mem_handedBack

theorem Meanwhile.iterate {callers' : Callers} {s' : Scheduler}
    (h : Meanwhile db t u callers s callers' s') (n : Nat) :
    Meanwhile db t u callers s callers' ((Scheduler.fire 0)^[n] s') :=
  Function.Iterate.rec _ h (fun _ hs => hs.fire 0) n

/-- If every thread has come to its end, no call is in progress. -/
theorem Governed.isIdle {own : Nat → Hand} (h : Governed db callers own s)
    (hFinished : s.AllFinished) : s.IsIdle callers t := by
  intro v hOf
  obtain ⟨o, hCaller, -⟩ := Option.bind_eq_some_iff.mp hOf
  have hGet := List.getElem?_eq_getElem (h.callers_lt v o hCaller)
  obtain ⟨report, hReport⟩ := hFinished _ (List.mem_of_getElem? hGet)
  exact ⟨report, hGet.trans (congrArg some hReport)⟩

theorem conflict_failsOnly : conflict.FailsOnly := by
  intro kind e hMem f hFault
  cases kind <;> cases hMem
  · cases hFault
    rfl
  · rename_i hNone
    cases hNone

/-- A call that has ended after the next twelve things in the queue is a sequence. -/
theorem exists_sequence (hLive : db.backend = .live) (h : Running db forecast callers s) (t k : Nat)
    (call : TransactionCall) {report : Report}
    (hReport : (s.oneByOne db [call.operation t]).threads[s.threads.length]? =
      some (.finished report)) :
    ∃ callers' made, Sequence db forecast t k callers s [⟨call, report.outcome, made⟩] callers'
      (s.oneByOne db [call.operation t]) := by
  obtain ⟨own, hGoverned⟩ := h.governed hLive
  rw [oneByOne, List.foldl_cons, List.foldl_nil] at hReport ⊢
  have hCalled : Turn db callers s _ (s.spawn ((call.operation t).routine db)).2 :=
    .call (call.operation t)
  have hCourse := Course.iterate (.turn .refl hCalled) 12
  have hStart : Meanwhile db t s.threads.length
      (Function.update callers s.threads.length (some (call.operation t)))
      (s.spawn ((call.operation t).routine db)).2 _ _ := .refl
  have hMeanwhile := hStart.iterate 12
  generalize (fire 0)^[12] (s.spawn ((call.operation t).routine db)).2 = s' at *
  obtain ⟨-, -, hPersists⟩ := Course.governed hLive hGoverned hCourse
  obtain ⟨calls, hLog, -⟩ := hPersists.calls
  have hMade : madeOn k forecast s'.store.live.log =
      madeOn k forecast s.store.live.log ++ madeOn k (forecast.after s.store.live.log) calls := by
    rw [hLog, madeOn_append]
  exact ⟨_, _, Sequence.nil.call hMeanwhile hReport hMade⟩

/-- The only call on a transaction is a commit that fails, which is rolled back. -/
theorem transaction_lifetime_conflict :
    let s := oneByOne directDatabase [.connect, .begin]
      { database := directDatabase, store := { live := { forecast := conflict } } }
    let s' := s.oneByOne directDatabase [TransactionCall.commit.operation 0]
    ∃ callers callers' transaction outcome made,
      Running directDatabase conflict callers s ∧ s.IsIdle callers 0 ∧
      s.store.transactions[0]? = some transaction ∧
      Sequence directDatabase conflict 0 (s.store.connectionOf transaction) callers s
        [⟨.commit, outcome, made⟩] callers' s' ∧
      IsOrderly (s.store.connectionOf transaction) transaction.isClosed s.store.live.log
        s'.store.live.log [⟨.commit, outcome, made⟩] ∧
      (s'.store.live.log.drop s.store.live.log.length).map Call.kind =
        [.commit, .rollback, .release] := by
  intro s s'
  obtain ⟨callers, hRunning⟩ : ∃ callers, Running directDatabase conflict callers s :=
    Running.oneByOne .refl _
  obtain ⟨own, hGoverned⟩ := hRunning.governed rfl
  have hIdle : s.IsIdle callers 0 := hGoverned.isIdle (allFinished_of (by decide +kernel))
  obtain ⟨transaction, hGet⟩ : ∃ transaction, s.store.transactions[0]? = some transaction :=
    Option.isSome_iff_exists.mp (by decide +kernel)
  have hFinished : s'.AllFinished := allFinished_of (by decide +kernel)
  have hLt : s.threads.length < s'.threads.length := by decide +kernel
  obtain ⟨report, hReport⟩ := hFinished _ (List.getElem_mem hLt)
  obtain ⟨callers', made, hSequence⟩ : ∃ callers' made, Sequence directDatabase conflict 0
      (s.store.connectionOf transaction) callers s [⟨.commit, report.outcome, made⟩] callers' s' :=
    exists_sequence rfl hRunning 0 _ .commit ((List.getElem?_eq_getElem hLt).trans
      (congrArg some hReport))
  have hOrderly := (transaction_lifetime rfl hRunning hGet).2.2.2 conflict_failsOnly hIdle _ _ _
    hSequence
  refine ⟨callers, callers', transaction, report.outcome, made, hRunning, hIdle, hGet, hSequence,
    hOrderly, ?_⟩
  decide +kernel

end Scheduler

end SqlWeave
