import SqlWeave.Proofs.Live.Failures
import SqlWeave.Proofs.Live.Linked
import SqlWeave.Proofs.Live.Outstanding

/-!
# Failures that callers see

A caller starts an operation on a live database, others start whatever they like, and things are
done in any order.  `Scheduler.Watched` puts down the calls that the operation makes itself.  If
one of them fails, what the caller gets is the fault of the first one that failed, wrapped: the
text of the driver is kept apart, and in production it is not shown.

The one operation that does not wrap is the beginning of a transaction.

## Main results

* `Watched.traces`: a thread that is watched makes the trace that its routine is specified with.
* `Scheduler.failure_isWrapped`: whatever runs statements, commits or rolls back, in every run.
* `Scheduler.begin_isNotWrapped`: the beginning of a transaction in production.
-/

namespace SqlWeave

open SqlWeave.Action

/-- What the driver said. -/
def Fault.driverText (f : Fault) : String :=
  match f.arguments with
  | .int _ :: text :: _ | .bool _ :: text :: _ => String.ofList text.display
  | _ => f.message

/-- What the driver said, as an SQL fault keeps it. -/
def Fault.rawText? : Fault → Option Value
  | .sql _ raw _ _ => some raw
  | _ => none

theorem Fault.rawText?_ofStatement (f : Fault) (statement : String) (isHardened : Bool) :
    (f.ofStatement statement isHardened).rawText? = some (.str f.driverText) := by
  unfold ofStatement driverText
  cases f.arguments with
  | nil => rfl
  | cons number rest => cases number <;> cases rest <;> rfl

theorem Fault.message_ofStatement (f : Fault) (statement : String) :
    (f.ofStatement statement true).message = "SQL error" := rfl

/-- The fault that a thread reports. -/
def Report.fault? (report : Report) : Option Fault :=
  match report.outcome with
  | .error f => some f
  | .ok _ => none

theorem Report.fault?_of_outcome {report : Report} {f : Fault} (h : report.outcome = .error f) :
    report.fault? = some f := by
  rw [fault?, h]

/-! ## Threads and their traces -/

/-- Whatever the others do, the thread ends with the postcondition for its trace. -/
def ThreadStatus.Traces (post : Trace → Report → Store → Prop) (made : Trace) (s : Store) :
    ThreadStatus → Prop
  | .ready r (.go next) => ∀ s', s.Elapses s' → (next r).Traces post made s'
  | .hanging (.go next) => ∀ s', s.Elapses s' → (next (.ok .null)).Traces post made s'
  | .hanging (.retry ..) => False
  | .ready _ (.retry _ next) | .following _ (.go next) | .following _ (.retry _ next) =>
    ∀ s' r, s.Elapses s' → (next r).Traces post made s'
  | .finished report => ∃ s', post made report s'

theorem ThreadStatus.Traces.elapse {post : Trace → Report → Store → Prop} {made : Trace}
    {s s' : Store} {status : ThreadStatus} (h : status.Traces post made s) (hElapses : s.Elapses s') :
    status.Traces post made s' := by
  cases status with
  | ready r go =>
    cases go with
    | go next => exact fun s'' h' => h s'' (hElapses.trans h')
    | retry goal next => exact fun s'' r h' => h s'' r (hElapses.trans h')
  | hanging go =>
    cases go with
    | go next => exact fun s'' h' => h s'' (hElapses.trans h')
    | retry goal next => exact h
  | following v go =>
    cases go with
    | go next => exact fun s'' r h' => h s'' r (hElapses.trans h')
    | retry goal next => exact fun s'' r h' => h s'' r (hElapses.trans h')
  | finished report => exact h

theorem Store.elapses_onManager (s : Store) (f : Manager → Manager) : s.Elapses (s.onManager f) :=
  ⟨⟨.of_eq rfl rfl, .refl Checkout.Persists.refl _, .refl Transaction.Persists.refl _⟩, id⟩

namespace Scheduler

variable {db : Database} {forecast : Forecast} {callers callers' : Callers} {s s' : Scheduler}
  {u : Nat} {post : Trace → Report → Store → Prop} {made : Trace}

/-- A thread that has run has made some more calls, and goes on with them in its trace. -/
def HasRun (post : Trace → Report → Store → Prop) (made : Trace) (u : Nat) (store : Store)
    (s : Scheduler) : Prop :=
  ∃ calls status, s.store.live.log = store.live.log ++ calls ∧
    s.store.live.forecast = store.live.forecast.after calls ∧
    s.threads[u]? = some status ∧
    status.Traces post (made ++ store.live.forecast.encounters calls) s.store

/-- A thread that has run without making a call. -/
theorem HasRun.silent {store : Store} {status : ThreadStatus}
    (hLog : s.store.live.log = store.live.log)
    (hForecast : s.store.live.forecast = store.live.forecast)
    (hGet : s.threads[u]? = some status) (h : status.Traces post made s.store) :
    HasRun post made u store s :=
  ⟨[], status, hLog.trans (List.append_nil _).symm, hForecast, hGet, by
    rwa [Forecast.encounters, List.append_nil]⟩

/-- A thread runs until it waits or is done. -/
theorem advance_traces {routine : Routine Store Report} (h : routine.Traces post made s.store)
    (hLt : u < s.threads.length) : HasRun post made u s.store (s.advance u routine) := by
  induction routine generalizing s made with
  | done report =>
    exact .silent rfl rfl (List.getElem?_set_self hLt) ⟨s.store, h⟩
  | step change next ih =>
    obtain ⟨calls, hLog, hForecast, hNext⟩ := h
    obtain ⟨more, status, hLog', hForecast', hGet, hStatus⟩ :=
      ih s.store (s := { s with store := change s.store }) hNext hLt
    refine ⟨calls ++ more, status, ?_, ?_, hGet, ?_⟩
    · rw [← List.append_assoc, ← hLog]
      exact hLog'
    · rw [Forecast.after_append, ← hForecast]
      exact hForecast'
    · rw [Forecast.encounters_append, ← List.append_assoc, ← hForecast]
      exact hStatus
  | wait on next ih =>
    cases on with
    | turn =>
      exact .silent rfl rfl (List.getElem?_set_self hLt) fun s' hElapses => h s' _ hElapses rfl
    | release =>
      rw [advance]
      split
      · exact ih _ (h s.store _ (.refl _) rfl) hLt
      · exact .silent rfl rfl (List.getElem?_set_self hLt) fun s' hElapses => h s' _ hElapses rfl
    | goal goal =>
      have hFollowing : ∀ v isFinal {store : Store}, s.store.Elapses store →
          (ThreadStatus.following v (towards goal isFinal next)).Traces post made store := by
        intro v isFinal store hBefore
        cases isFinal <;> exact fun s' r hElapses => h s' r (hBefore.trans hElapses) trivial
      rw [advance, seek]
      cases hPursuit : s.store.live.manager.pursuit goal with
      | reached v => exact ih _ (h s.store _ (.refl _) trivial) hLt
      | «begin» transition =>
        refine .silent rfl rfl (List.getElem?_set_self ?_)
          (hFollowing _ true (s.store.elapses_onManager _))
        exact hLt.trans_le (by simp [add, enqueue])
      | follow v isFinal =>
        cases hReport : s.report? v with
        | some report =>
          simp only [hReport]
          exact ih _ (h s.store _ (.refl _) trivial) hLt
        | none =>
          simp only [hReport]
          exact .silent rfl rfl (List.getElem?_set_self hLt) (hFollowing v isFinal (.refl _))

/-- The thread that is watched runs. -/
theorem fire_traces {i : Nat} {status : ThreadStatus} (hRunner : s.runner i = some u)
    (hGet : s.threads[u]? = some status) (h : status.Traces post made s.store) :
    HasRun post made u s.store (s.fire i) := by
  obtain ⟨-, r, go, hReady⟩ := runner_eq_some.mp hRunner
  rw [hGet] at hReady
  cases hReady
  have hLt := (List.getElem?_eq_some_iff.mp hGet).1
  rw [fire_of_runner hRunner hGet]
  cases go with
  | go next =>
    exact advance_traces (s := { s with queue := s.queue.eraseIdx i }) (h s.store (.refl _)) hLt
  | retry goal next =>
    rw [proceed]
    split
    · have hAgain : (Routine.wait (.goal goal) next).Traces post made s.store :=
        fun s' r hElapses _ => h s' r hElapses
      exact advance_traces (s := { s with queue := s.queue.eraseIdx i }) hAgain hLt
    · exact advance_traces (s := { s with queue := s.queue.eraseIdx i }) (h s.store r (.refl _)) hLt

/-! ## Watching a thread -/

/-- What can come of a scheduler in any number of turns in which a thread is not cancelled, with
the calls that this thread made meanwhile and what they met. -/
inductive Watched (db : Database) (u : Nat) (callers : Callers) (s : Scheduler) :
    Trace → Callers → Scheduler → Prop
  | refl : Watched db u callers s [] callers s
  | call {made : Trace} {callers' : Callers} {s' : Scheduler}
      (h : Watched db u callers s made callers' s') (o : Operation) :
      Watched db u callers s made (Function.update callers' s'.threads.length (some o))
        (s'.spawn (o.routine db)).2
  | fire {made : Trace} {callers' : Callers} {s' : Scheduler}
      (h : Watched db u callers s made callers' s') {i : Nat} {calls : List Call}
      (hLog : (s'.fire i).store.live.log = s'.store.live.log ++ calls) :
      Watched db u callers s
        (if s'.runner i = some u then made ++ s'.store.live.forecast.encounters calls else made)
        callers' (s'.fire i)
  | cancel {made : Trace} {callers' : Callers} {s' : Scheduler}
      (h : Watched db u callers s made callers' s') {v : Nat}
      (hCaller : (callers' v).isSome = true) (hNe : v ≠ u) :
      Watched db u callers s made callers' (s'.cancel v)
  | release {made : Trace} {callers' : Callers} {s' : Scheduler}
      (h : Watched db u callers s made callers' s') :
      Watched db u callers s made callers' s'.release

/-- Every transaction has its checkout. -/
theorem Governed.hasCheckouts {own : Nat → Hand} (h : Governed db callers own s) :
    s.store.HasCheckouts :=
  fun _ _ hGet => h.accounts.exists_checkout hGet

/-- The thread goes on with the trace that it has made. -/
structure Tracing (db : Database) (callers : Callers) (u : Nat)
    (post : Trace → Report → Store → Prop) (made : Trace) (s : Scheduler) : Prop where
  governed : ∃ own, Governed db callers own s
  traces : ∃ status, s.threads[u]? = some status ∧ status.Traces post made s.store

/-- One of the things in the queue is done. -/
theorem Tracing.fire (hLive : db.backend = .live) (h : Tracing db callers u post made s) {i : Nat}
    {calls : List Call} (hLog : (s.fire i).store.live.log = s.store.live.log ++ calls) :
    Tracing db callers u post
      (if s.runner i = some u then made ++ s.store.live.forecast.encounters calls else made)
      (s.fire i) := by
  obtain ⟨own, hGoverned⟩ := h.governed
  obtain ⟨status, hGet, hTraces⟩ := h.traces
  obtain ⟨own', hGoverned', hPersists⟩ := hGoverned.turn hLive (.fire i)
  have hElapses : s.store.Elapses (s.fire i).store := ⟨hPersists, fun _ => hGoverned'.hasCheckouts⟩
  refine ⟨⟨own', hGoverned'⟩, ?_⟩
  by_cases hRunner : s.runner i = some u
  · rw [if_pos hRunner]
    obtain ⟨more, status', hMore, -, hGet', hTraces'⟩ := fire_traces hRunner hGet hTraces
    obtain rfl : more = calls := List.append_cancel_left (hMore.symm.trans hLog)
    exact ⟨status', hGet', hTraces'⟩
  · rw [if_neg hRunner]
    by_cases hFollowing : status.IsFollowing
    · cases status with
      | following v go =>
        rcases getElem?_fire_of_following (i := i) hGet with hSame | ⟨r, -, hReady⟩
        · exact ⟨_, hSame, hTraces.elapse hElapses⟩
        · refine ⟨_, hReady, ?_⟩
          cases go with
          | go next => exact fun s' hElapses' => hTraces s' r (hElapses.trans hElapses')
          | retry goal next => exact fun s' r hElapses' => hTraces s' r (hElapses.trans hElapses')
      | _ => exact absurd hFollowing id
    · exact ⟨status, getElem?_fire hRunner hGet hFollowing, hTraces.elapse hElapses⟩

/-- A thread that is watched makes the trace that its routine is specified with. -/
theorem Watched.traces {made' : Trace} (hLive : db.backend = .live)
    (hStart : Tracing db callers u post [] s) (h : Watched db u callers s made' callers' s') :
    Tracing db callers' u post made' s' := by
  induction h with
  | refl => exact hStart
  | @call made callers' s' _ o ih =>
    obtain ⟨own, hGoverned⟩ := ih.governed
    obtain ⟨status, hGet, hTraces⟩ := ih.traces
    have hLt := (List.getElem?_eq_some_iff.mp hGet).1
    exact ⟨hGoverned.call hLive o, status, (List.getElem?_append_left hLt).trans hGet, hTraces⟩
  | fire _ hLog ih => exact ih.fire hLive hLog
  | cancel _ hCaller hNe ih =>
    obtain ⟨own, hGoverned⟩ := ih.governed
    obtain ⟨status, hGet, hTraces⟩ := ih.traces
    refine ⟨⟨own, hGoverned.cancel _⟩, status, (getElem?_cancel hNe).trans hGet, ?_⟩
    rw [store_cancel]
    exact hTraces
  | release _ ih =>
    obtain ⟨own, hGoverned⟩ := ih.governed
    obtain ⟨status, hGet, hTraces⟩ := ih.traces
    refine ⟨⟨own, hGoverned.release⟩, ?_⟩
    rw [store_release]
    rcases getElem?_release hGet with hSame | ⟨go, rfl, hReady⟩
    · exact ⟨status, hSame, hTraces⟩
    · cases go with
      | go next => exact ⟨_, hReady, hTraces⟩
      | retry goal next => exact absurd hTraces id

/-- An operation that was just started. -/
theorem tracing_start {own : Nat → Hand} (hLive : db.backend = .live)
    (h : Governed db callers own s) {o : Operation} (hStatement : o.isStatement = true) :
    Tracing db (Function.update callers s.threads.length (some o)) s.threads.length
      (fun made report _ => made.IsFair → Wraps db report.outcome made.firstFault?) []
      (s.spawn (o.routine db)).2 := by
  refine ⟨h.call hLive o, _, List.getElem?_concat_length, fun s' hElapses => ?_⟩
  have hCheckouts : s'.HasCheckouts := hElapses.checkouts h.hasCheckouts
  have hTraces := Operation.traces hLive hStatement [] s' ⟨rfl, hCheckouts⟩
  exact Routine.traces_bind (hTraces.mono fun _ _ _ hs => hs.2)

/-- Whatever runs statements, commits or rolls back on a live database, whatever others do
meanwhile: if one of its calls fails, and every call that fails fails with an exception and is no
hand-back, then what the caller gets is an SQL fault that keeps the driver's text of the first
failure apart.  In production its text is always the same. -/
theorem failure_isWrapped (hLive : db.backend = .live) (h : Running db forecast callers s)
    {o : Operation} (hStatement : o.isStatement = true)
    (hWatched : Watched db s.threads.length
      (Function.update callers s.threads.length (some o)) (s.spawn (o.routine db)).2 made callers' s')
    {report : Report} (hReport : s'.threads[s.threads.length]? = some (.finished report))
    (hFair : made.IsFair) {f : Fault} (hFirst : made.firstFault? = some f)
    (hNot : f.isConnection = false) :
    ∃ e, report.fault? = some e ∧ e.kind = .sql ∧ e.rawText? = some (.str f.driverText) ∧
      (db.settings.environment = "production" → e.message = "SQL error") := by
  obtain ⟨own, hGoverned⟩ := h.governed hLive
  obtain ⟨status, hGet, hTraces⟩ :=
    (hWatched.traces hLive (tracing_start hLive hGoverned hStatement)).traces
  rw [hReport] at hGet
  cases hGet
  obtain ⟨-, hPost⟩ := hTraces
  obtain ⟨statement, hOutcome⟩ := hPost hFair f hFirst hNot
  refine ⟨_, Report.fault?_of_outcome hOutcome, f.ofStatement_kind _ _, f.rawText?_ofStatement _ _, fun hProduction => ?_⟩
  have hHardened : db.settings.isHardened = true := beq_iff_eq.mpr hProduction
  rw [hHardened]
  exact f.message_ofStatement statement

/-! ## What a thread makes in its next turns -/

/-- The calls that a thread makes itself, with what they meet, while the next `n` things in the
queue are done. -/
def madeBy (u : Nat) : Nat → Scheduler → Trace
  | 0, _ => []
  | n + 1, s =>
    (if s.runner 0 = some u then
      s.store.live.forecast.encounters
        ((s.fire 0).store.live.log.drop s.store.live.log.length)
      else []) ++ madeBy u n (s.fire 0)

theorem Watched.course {made' : Trace} (h : Watched db u callers s made' callers' s') :
    Course db callers s callers' s' := by
  induction h with
  | refl => exact .refl
  | call _ o ih => exact .turn ih (.call o)
  | fire _ _ ih => exact .turn ih (.fire _)
  | cancel _ hCaller _ ih => exact .turn ih (.cancel hCaller)
  | release _ ih => exact .turn ih .release

/-- A thread can be watched while the next `n` things in the queue are done. -/
theorem Watched.iterate {made' : Trace} {own : Nat → Hand} (hLive : db.backend = .live)
    (hGoverned : Governed db callers own s) (h : Watched db u callers s made' callers' s') (n : Nat) :
    Watched db u callers s (made' ++ s'.madeBy u n) callers' ((Scheduler.fire 0)^[n] s') := by
  induction n generalizing made' s' with
  | zero =>
    rw [madeBy, List.append_nil]
    exact h
  | succ n ih =>
    obtain ⟨own', hGoverned', -⟩ := h.course.governed hLive hGoverned
    obtain ⟨-, -, hPersists⟩ := hGoverned'.turn hLive (.fire 0)
    obtain ⟨calls, hLog, -⟩ := hPersists.calls
    have hFired := h.fire hLog
    rw [Function.iterate_succ_apply, madeBy, ← List.append_assoc]
    refine Eq.mp ?_ (ih hFired)
    rw [hLog, List.drop_left]
    split
    · rfl
    · rw [List.append_nil]

/-- An operation that is started can be watched. -/
theorem Running.watched (hLive : db.backend = .live) (h : Running db forecast callers s)
    (o : Operation) (n : Nat) :
    let called := (s.spawn (o.routine db)).2
    let callers' := Function.update callers s.threads.length (some o)
    Watched db s.threads.length callers' called (called.madeBy s.threads.length n) callers'
      ((fire 0)^[n] called) := by
  obtain ⟨own, hGoverned⟩ := h.governed hLive
  obtain ⟨own', hCalled⟩ := hGoverned.call hLive o
  have hWatched := Watched.iterate (u := s.threads.length) hLive hCalled .refl n
  rwa [List.nil_append] at hWatched

/-- A database in production, without a tunnel. -/
def productionDatabase : Database :=
  { directDatabase with
    settings := { directDatabase.settings with environment := "production" } }

/-- The only commit on a transaction fails in production. -/
theorem failure_isWrapped_conflict :
    let s := oneByOne productionDatabase [.connect, .begin]
      { database := productionDatabase, store := { live := { forecast := conflict } } }
    let called := (s.spawn ((Operation.commit 0).routine productionDatabase)).2
    ∃ callers callers' made report f e,
      Running productionDatabase conflict callers s ∧
      Watched productionDatabase s.threads.length
        (Function.update callers s.threads.length (some (.commit 0))) called made callers'
        ((fire 0)^[12] called) ∧
      ((fire 0)^[12] called).report? s.threads.length = some report ∧
      made.IsFair ∧ made.firstFault? = some f ∧ f.driverText = "conflict" ∧
      report.fault? = some e ∧ e.kind = .sql ∧ e.rawText? = some (.str "conflict") ∧
      e.message = "SQL error" := by
  intro s called
  obtain ⟨callers, hRunning⟩ : ∃ callers, Running productionDatabase conflict callers s :=
    Running.oneByOne .refl _
  have hWatched := hRunning.watched rfl (.commit 0) 12
  have hFair : (called.madeBy s.threads.length 12).IsFair := by decide +kernel
  obtain ⟨f, hFirst, hNot, hText⟩ : ∃ f ∈ (called.madeBy s.threads.length 12).firstFault?,
      f.isConnection = false ∧ f.driverText = "conflict" := by
    decide +kernel
  obtain ⟨report, hReport⟩ : ∃ report,
      ((fire 0)^[12] called).report? s.threads.length = some report :=
    Option.isSome_iff_exists.mp (by decide +kernel)
  obtain ⟨e, hOutcome, hKind, hRaw, hMessage⟩ :=
    failure_isWrapped rfl hRunning rfl hWatched (report?_eq_some.mp hReport) hFair hFirst hNot
  rw [hText] at hRaw
  exact ⟨callers, _, _, report, f, e, hRunning, hWatched, hReport, hFair, hFirst, hText, hOutcome,
    hKind, hRaw, hMessage rfl⟩

/-- The first transaction is refused. -/
def refusedBegin : Forecast
  | .begin => [{ fault := some (.raised .operational [.str "too many transactions"]) }]
  | _ => []

/-- Where a transaction cannot be begun in production the caller gets the fault as it came, with
the text of the driver. -/
theorem begin_isNotWrapped :
    let s := oneByOne productionDatabase [.connect]
      { database := productionDatabase, store := { live := { forecast := refusedBegin } } }
    let called := (s.spawn (Operation.begin.routine productionDatabase)).2
    ∃ callers callers' made report f e,
      Running productionDatabase refusedBegin callers s ∧
      Watched productionDatabase s.threads.length
        (Function.update callers s.threads.length (some .begin)) called made callers'
        ((fire 0)^[12] called) ∧
      ((fire 0)^[12] called).report? s.threads.length = some report ∧
      made.IsFair ∧ made.firstFault? = some f ∧ f.isConnection = false ∧
      report.fault? = some e ∧ e.kind = .operational ∧ e.message = "too many transactions" := by
  intro s called
  obtain ⟨callers, hRunning⟩ : ∃ callers, Running productionDatabase refusedBegin callers s :=
    Running.oneByOne .refl _
  have hWatched := hRunning.watched rfl .begin 12
  have hFair : (called.madeBy s.threads.length 12).IsFair := by decide +kernel
  obtain ⟨f, hFirst, hNot⟩ : ∃ f ∈ (called.madeBy s.threads.length 12).firstFault?,
      f.isConnection = false := by
    decide +kernel
  obtain ⟨report, hReport, e, hFault, hKind, hMessage⟩ :
      ∃ report ∈ ((fire 0)^[12] called).report? s.threads.length, ∃ e ∈ report.fault?,
        e.kind = .operational ∧ e.message = "too many transactions" := by
    decide +kernel
  exact ⟨callers, _, _, report, f, e, hRunning, hWatched, hReport, hFair, hFirst, hNot, hFault,
    hKind, hMessage⟩

end Scheduler

end SqlWeave
