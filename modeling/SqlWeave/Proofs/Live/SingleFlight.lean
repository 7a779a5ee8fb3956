import SqlWeave.Proofs.Live.Linked
import SqlWeave.Proofs.Live.Managed
import SqlWeave.Proofs.Live.Outstanding

/-!
# Single flight

However many callers ask for a connection while an attempt to connect is in flight, in whatever
order and whoever is cancelled, it stays the only attempt, and all of them get its outcome.

## Main results

* `Attempt.transiting`: an attempt in flight is carried out by its thread.
* `Attempt.joins`: whoever asks for a connection meanwhile joins it.
* `Scheduler.single_flight`: what an attempt in flight tries, who joins it, and what they get.
-/

namespace SqlWeave

open SqlWeave.Action Manager

namespace Scheduler

variable {db : Database} {forecast : Forecast} {callers callers' : Callers} {s s' : Scheduler}
  {a : Nat}

/-! ## Attempts in flight -/

/-- A thread carries out an attempt to connect. -/
def IsConnecting (a : Nat) (s : Scheduler) : Prop :=
  s.store.live.manager.pending = some a ∧ s.store.live.manager.phase = .connecting

instance (a : Nat) (s : Scheduler) : Decidable (s.IsConnecting a) :=
  inferInstanceAs (Decidable (_ ∧ _))

/-- An attempt to connect, which a turn of a run began, is in flight through any turns. -/
inductive Attempt (db : Database) (forecast : Forecast) (a : Nat) (start : Scheduler) :
    Callers → Scheduler → Prop
  | begun {callers callers' : Callers} {s : Scheduler} (hRunning : Running db forecast callers s)
      (hTurn : Turn db callers s callers' start) (hBefore : ¬ s.IsConnecting a)
      (hConnecting : start.IsConnecting a) : Attempt db forecast a start callers' start
  | turn {callers callers' : Callers} {s s' : Scheduler}
      (h : Attempt db forecast a start callers s) (hTurn : Turn db callers s callers' s')
      (hConnecting : s'.IsConnecting a) : Attempt db forecast a start callers' s'

namespace Attempt

variable {start : Scheduler}

theorem running (h : Attempt db forecast a start callers s) : Running db forecast callers s := by
  induction h with
  | begun hRunning hTurn _ _ => exact .turn hRunning hTurn
  | turn _ hTurn _ ih => exact .turn ih hTurn

theorem isConnecting (h : Attempt db forecast a start callers s) : s.IsConnecting a := by
  cases h with
  | begun _ _ _ hConnecting => exact hConnecting
  | turn _ _ hConnecting => exact hConnecting

/-- The end of an attempt. -/
def Concluded (db : Database) (start : Scheduler) (report : Report) (store : Store) : Prop :=
  Attempted db start.store.live report.outcome store

theorem Concluded.ne {report : Report} {store : Store} (h : Concluded db start report store) :
    store.live.manager.pending ≠ some a := by
  rw [h.settled]
  nofun

theorem phase_eq_connecting {transition : Transition} (h : transition.phase = .connecting) :
    transition = .establish := by
  cases transition with
  | establish => rfl
  | close => cases h

/-- The turn with which an attempt comes to be in flight begins it: a transition that was pending
before is not this one. -/
theorem begun_of_turn (hLive : db.backend = .live) (hRunning : Running db forecast callers s)
    (hTurn : Turn db callers s callers' s') (hBefore : ¬ s.IsConnecting a)
    (hConnecting : s'.IsConnecting a) :
    Begun db callers' .establish a s' := by
  rcases managed_start.of_course hLive hRunning with hResting | ⟨b, transition, hTransiting⟩
  · rcases hResting.turn hLive hTurn with ⟨-, hSame⟩ | ⟨transition, hBegun⟩
    · exact absurd (by rwa [IsConnecting, hSame] at hConnecting) hBefore
    · have hSelf : some _ = some a := hBegun.pending_eq.symm.trans hConnecting.1
      cases hSelf
      cases phase_eq_connecting (hBegun.phase_eq.symm.trans hConnecting.2)
      exact hBegun
  · rcases hTransiting.turn hLive (fun _ _ hSettles => hSettles.ne) hTurn with
      hOn | ⟨report, -, hSettles, -, -⟩
    · have hSelf : some b = some a := hOn.pending_eq.symm.trans hConnecting.1
      cases hSelf
      refine absurd ⟨hTransiting.pending_eq, ?_⟩ hBefore
      exact hTransiting.phase_eq.trans (hOn.phase_eq.symm.trans hConnecting.2)
    · exact absurd hConnecting.1 hSettles.ne

/-- While an attempt is in flight its thread carries it out. -/
theorem transiting (hLive : db.backend = .live) (h : Attempt db forecast a start callers s) :
    Transiting db callers a .connecting (Concluded db start) s := by
  induction h with
  | begun hRunning hTurn hBefore hConnecting =>
    exact (begun_of_turn hLive hRunning hTurn hBefore hConnecting).transiting attempted_establish
  | turn _ hTurn hConnecting ih =>
    rcases ih.turn hLive (fun _ _ hConcluded => hConcluded.ne) hTurn with
      hOn | ⟨report, -, hConcluded, -, -⟩
    · exact hOn
    · exact absurd hConnecting.1 hConcluded.ne

/-- Someone has followed an attempt from its beginning. -/
theorem isFollowed (hLive : db.backend = .live) (h : Attempt db forecast a start callers s) :
    start.IsFollowed a := by
  induction h with
  | begun hRunning hTurn hBefore hConnecting =>
    exact (begun_of_turn hLive hRunning hTurn hBefore hConnecting).isFollowed
  | turn _ _ _ ih => exact ih

/-- While an attempt is in flight its thread has not ended. -/
theorem report?_eq_none (hLive : db.backend = .live)
    (h : Attempt db forecast a start callers s) : s.report? a = none := by
  refine Scheduler.report?_eq_none fun report hFinished => ?_
  obtain ⟨status, hStatus, hAttends⟩ := (h.transiting hLive).attends
  rw [hFinished] at hStatus
  cases hStatus
  have hConcluded : Concluded db start report s.store := hAttends
  exact hConcluded.ne h.isConnecting.1

/-- Who wants a connection while an attempt is in flight follows it. -/
theorem advance_connected (hLive : db.backend = .live) (h : Attempt db forecast a start callers s)
    (v : Nat) (next : Result Value → Routine Store Report) :
    s.advance v (.wait (.goal .connected) next) = s.follow v a (.go next) := by
  obtain ⟨hPending, hPhase⟩ := h.isConnecting
  have hPursuit : s.store.live.manager.pursuit .connected = .follow a true := by
    rw [pursuit, hPhase, hPending]
    rfl
  rw [advance, seek, hPursuit]
  simp only [h.report?_eq_none hLive]
  rfl

/-- So does who waited for the end of a closing. -/
theorem proceed_retry (hLive : db.backend = .live) (h : Attempt db forecast a start callers s)
    (v : Nat) (x : Value) (next : Result Value → Routine Store Report) :
    s.proceed v (.ok x) (.retry .connected next) = s.follow v a (.go next) :=
  h.advance_connected hLive v next

end Attempt

/-! ## Joining -/

/-- A routine joins an attempt: it goes on with the outcome, and if that is a fault it ends with
that fault. -/
def Joins (v a : Nat) (routine : Routine Store Report) (s : Scheduler) : Prop :=
  ∃ next, s.advance v routine = s.follow v a (.go next) ∧
    ∀ f, next (.error f) = .done ⟨.error f, []⟩

end Scheduler

/-- The action changes nothing before it waits for a connection, and if that wait ends with a
fault it ends with the same one. -/
def Routine.AsksFirst {α : Type} (s : Store) : Routine Store (Result α) → Prop
  | .done _ => False
  | .step change next => change s = s ∧ (next s).AsksFirst s
  | .wait on next => on = .goal .connected ∧ ∀ f, next (.error f) = .done (.error f)

/-- An action that asks for a connection first. -/
def Action.AsksFirst {α : Type} (s : Store) (action : Action Store α) : Prop :=
  Routine.AsksFirst s action

/-- The operation asks for a connection if there is none. -/
def Operation.Connects (db : Database) : Operation → Prop
  | connect => True
  | query q => db.settings.lazyConnect = true ∧
    ∃ config, db.settings.queryConfig.merged q.override = .ok config
  | «begin» | getConnection => db.settings.lazyConnect = true
  | _ => False

section

variable {db : Database} {store : Store}

/-- Whatever is done behind it does not matter. -/
theorem asksFirst_bind {α β : Type} {action : Action Store α} {f : α → Action Store β}
    (h : action.AsksFirst store) : (action >>= f).AsksFirst store := by
  have hAll : ∀ routine : Routine Store (Result α), routine.AsksFirst store →
      Routine.AsksFirst store (routine.bind (ExceptT.bindCont f)) := by
    intro routine
    induction routine with
    | done r => exact False.elim
    | step change next ih => exact fun h => ⟨h.1, ih store h.2⟩
    | wait on next ih =>
      refine fun h => ⟨h.1, fun e => ?_⟩
      show (next (.error e)).bind _ = _
      rw [h.2 e]
      rfl
  exact hAll action h

theorem asksFirst_connect (hLive : db.backend = .live) : db.connect.AsksFirst store := by
  rw [Database.connect, Database.onBackend, hLive]
  exact ⟨rfl, fun f => rfl⟩

theorem asksFirst_ensureConnected (hLive : db.backend = .live)
    (hLazy : db.settings.lazyConnect = true) (hPhase : db.phase store ≠ .connected) :
    db.ensureConnected.AsksFirst store := by
  unfold Database.ensureConnected
  rw [hLazy]
  refine ⟨rfl, ?_⟩
  show Action.AsksFirst store (if _ then _ else _)
  rw [if_neg hPhase]
  exact asksFirst_bind (asksFirst_connect hLive)

theorem asksFirst_operation (hLive : db.backend = .live) (hPhase : db.phase store ≠ .connected)
    {o : Operation} (hConnects : o.Connects db) : (o.action db).AsksFirst store := by
  cases o with
  | connect => exact asksFirst_connect hLive
  | query q =>
    obtain ⟨hLazy, config, hConfig⟩ := hConnects
    show Action.AsksFirst store
      (Action.ofResult (db.settings.queryConfig.merged q.override) >>= _)
    rw [hConfig]
    show Action.AsksFirst store (db.ensureConnected >>= _)
    exact asksFirst_bind (asksFirst_ensureConnected hLive hLazy hPhase)
  | «begin» =>
    exact asksFirst_bind (asksFirst_bind (asksFirst_ensureConnected hLive hConnects hPhase))
  | getConnection => exact asksFirst_bind (asksFirst_ensureConnected hLive hConnects hPhase)
  | _ => exact absurd hConnects id

end

namespace Scheduler

/-- What asks for a connection first joins the attempt that is in flight. -/
theorem Attempt.joins {start : Scheduler} (hLive : db.backend = .live)
    (h : Attempt db forecast a start callers s) (v : Nat) {action : Action Store Value}
    (hAsks : action.AsksFirst s.store) : s.Joins v a (routineOf action) := by
  have hAll : ∀ routine : Routine Store (Result Value), routine.AsksFirst s.store →
      s.Joins v a (routine.bind fun r => .done ⟨r, []⟩) := by
    intro routine
    induction routine with
    | done r => exact False.elim
    | step change next ih =>
      rintro ⟨hSame, hRest⟩
      obtain ⟨follow, hFollow, hFault⟩ := ih s.store hRest
      refine ⟨follow, ?_, hFault⟩
      rw [← hFollow]
      show advance v _ { s with store := change s.store } = _
      rw [hSame]
    | wait on next ih =>
      rintro ⟨rfl, hError⟩
      refine ⟨_, h.advance_connected hLive v _, fun f => ?_⟩
      rw [hError]
      rfl
  exact hAll action hAsks

/-! ## Starting afresh -/

/-- Who wants a connection begins an attempt in a thread of its own, and follows it; nothing else
is done for it yet. -/
def BeginsAfresh (db : Database) (s : Scheduler) : Prop :=
  ∀ v next,
    (s.advance v (.wait (.goal .connected) next)).IsConnecting s.threads.length ∧
      (s.advance v (.wait (.goal .connected) next)).threads =
        (s.threads ++ [beginner db .establish]).set v (.following s.threads.length (.go next)) ∧
      (s.advance v (.wait (.goal .connected) next)).store.live.log = s.store.live.log

/-- A manager that is disconnected has no transition pending, so that the next who wants a
connection starts afresh. -/
theorem Managed.beginsAfresh (h : Managed db callers s)
    (hPhase : s.store.live.manager.phase = .disconnected) : s.BeginsAfresh db := by
  rcases h with hResting | ⟨b, transition, hTransiting⟩
  · obtain ⟨own, hGoverned⟩ := hResting.governed
    have hPursuit : s.store.live.manager.pursuit .connected = .begin .establish := by
      rw [pursuit, hPhase, hResting.pending_eq]
      rfl
    intro v next
    rw [advance, seek, hPursuit, ← hGoverned.database]
    exact ⟨⟨rfl, rfl⟩, rfl, rfl⟩
  · have hBusy := hTransiting.phase_eq.symm.trans hPhase
    cases transition <;> cases hBusy

/-! ## Attempts, from beginning to end -/

/-- While an attempt to connect is in flight whoever wants a connection joins it, as whoever began
it did, and goes on with its outcome unless cancelled.  By its end it has made one tunnel, if there
is to be one, and tried to make one pool, unless the tunnel was not opened; where the manager is
disconnected after that, the next who wants a connection starts afresh. -/
theorem single_flight {start : Scheduler} (hLive : db.backend = .live)
    (h : Attempt db forecast a start callers s) :
    start.IsFollowed a ∧
    (∀ v, s.advance v (Operation.connect.routine db) = s.follow v a (.go (.done ⟨·, []⟩))) ∧
    (∀ v x next, s.proceed v (.ok x) (.retry .connected next) = s.follow v a (.go next)) ∧
    (∀ v (o : Operation), o.Connects db → s.Joins v a (o.routine db)) ∧
    (∀ (v : Nat) next, s.threads[v]? = some (.following a (.go next)) →
      ∀ callers' s', Without db v callers s callers' s' → s'.Awaits v a (.go next) ∧
        ∀ i, s'.runner i = some v → ∃ report, s'.report? a = some report ∧
          s'.fire i = advance v (next report.outcome) { s' with queue := s'.queue.eraseIdx i }) ∧
    ∀ callers' s', Turn db callers s callers' s' → ¬ s'.IsConnecting a →
      ∃ report, s'.report? a = some report ∧
        Attempted db start.store.live report.outcome s'.store ∧
        ∀ callers'' s'', Course db callers' s' callers'' s'' →
          s''.store.live.manager.phase = .disconnected → s''.BeginsAfresh db := by
  refine ⟨h.isFollowed hLive, fun v => ?_, h.proceed_retry hLive, fun v o hConnects => ?_,
    fun v next hFollowing callers' s' hWithout => ?_, fun callers' s' hTurn hNot => ?_⟩
  · rw [← h.advance_connected hLive, Operation.routine, Operation.action, Database.action,
      Database.connect, Database.onBackend, hLive]
    rfl
  · refine h.joins hLive v (asksFirst_operation hLive ?_ hConnects)
    rw [Database.phase, hLive, h.isConnecting.2]
    rintro ⟨⟩
  · have hAwaits := awaits_of_following (Course.linked linked_start h.running) hFollowing hWithout
    exact ⟨hAwaits, fun i hRunner => hAwaits.fire hRunner⟩
  · rcases (h.transiting hLive).turn hLive (fun _ _ hConcluded => hConcluded.ne) hTurn with
      hOn | ⟨report, hReport, hConcluded, -, -⟩
    · exact absurd ⟨hOn.pending_eq, hOn.phase_eq⟩ hNot
    · refine ⟨report, report?_eq_some.mpr hReport, hConcluded, fun _ s'' hCourse hPhase => ?_⟩
      have hManaged : Managed db callers' s' :=
        managed_start.of_course hLive (.turn h.running hTurn)
      exact (hManaged.of_course hLive hCourse).beginsAfresh hPhase

/-- Two callers who want a connection. -/
def twoCallers (db : Database) (forecast : Forecast) : Scheduler :=
  let s : Scheduler := { database := db, store := { live := { forecast } } }
  ((s.spawn (Operation.connect.routine db)).2.spawn (Operation.connect.routine db)).2

theorem running_twoCallers (db : Database) (forecast : Forecast) :
    ∃ callers, Running db forecast callers (twoCallers db forecast) :=
  ⟨_, .turn (.turn .refl (.call .connect)) (.call .connect)⟩

/-- An attempt that stays in flight while things are done in order. -/
theorem Attempt.iterate {start : Scheduler} (h : Attempt db forecast a start callers s) (n : Nat)
    (hConnecting : ∀ m ≤ n, ((fire 0)^[m] s).IsConnecting a) :
    Attempt db forecast a start callers ((fire 0)^[n] s) :=
  iterate_fire (·.IsConnecting a) (fun _ hs hLast => hs.turn (.fire 0) hLast) h n hConnecting

/-- The attempt that the first of two callers begins when things are done in order. -/
theorem attempt_twoCallers (n : Nat)
    (hConnecting : ∀ m ≤ n, ((fire 0)^[m] ((twoCallers db forecast).fire 0)).IsConnecting 2) :
    ∃ callers, Attempt db forecast 2 ((twoCallers db forecast).fire 0) callers
      ((fire 0)^[n] ((twoCallers db forecast).fire 0)) := by
  obtain ⟨callers, hRunning⟩ := running_twoCallers db forecast
  have hBefore : ¬ (twoCallers db forecast).IsConnecting 2 := fun h => nomatch h.1
  have hBegun := Attempt.begun hRunning (.fire 0) hBefore (hConnecting 0 (Nat.zero_le n))
  exact ⟨callers, hBegun.iterate n hConnecting⟩

/-- The connection of the new pool is refused: the second caller has joined the attempt of the
first one, and after its end the manager is disconnected, so that the next starts afresh. -/
theorem single_flight_refusal :
    let start := (twoCallers directDatabase refusal).fire 0
    let s := (fire 0)^[4] start
    directDatabase.backend = .live ∧ (∀ m ≤ 4, ((fire 0)^[m] start).IsConnecting 2) ∧
      s.follows 2 0 = true ∧ s.follows 2 1 = true ∧ ¬ (s.fire 0).IsConnecting 2 ∧
      (s.fire 0).store.live.manager.phase = .disconnected ∧
      ∃ report, (s.fire 0).report? 2 = some report ∧
        Attempted directDatabase start.store.live report.outcome (s.fire 0).store ∧
        (s.fire 0).BeginsAfresh directDatabase := by
  intro start s
  have hConnecting : ∀ m ≤ 4, ((fire 0)^[m] start).IsConnecting 2 := by decide +kernel
  have hEnded : ¬ (s.fire 0).IsConnecting 2 := by decide +kernel
  have hPhase : (s.fire 0).store.live.manager.phase = .disconnected := by decide +kernel
  obtain ⟨callers, hAttempt⟩ := attempt_twoCallers 4 hConnecting
  obtain ⟨-, -, -, -, -, hEnd⟩ := single_flight rfl hAttempt
  obtain ⟨report, hReport, hAttempted, hAfresh⟩ := hEnd callers (s.fire 0) (.fire 0) hEnded
  refine ⟨rfl, hConnecting, ?_, ?_, hEnded, hPhase, report, hReport, hAttempted,
    hAfresh callers (s.fire 0) .refl hPhase⟩
  · decide +kernel
  · decide +kernel

/-- The SSH connection is refused. -/
def unreachable : Forecast
  | .sshConnect => [{ fault := some (.raised .refused [.int 111, .str "Connection refused"]) }]
  | _ => []

/-- A tunnel that is not opened ends an attempt without a pool's being tried. -/
theorem attempt_unreachable :
    let start := (twoCallers tunneledDatabase unreachable).fire 0
    let s := (fire 0)^[2] start
    (∃ callers, Attempt tunneledDatabase unreachable 2 start callers s) ∧
      ¬ (s.fire 0).IsConnecting 2 ∧ ((s.fire 0).report? 2).isSome = true ∧
      (s.fire 0).store.live.manager.phase = .disconnected ∧
      (s.fire 0).store.live.tunnels.length = 1 ∧
      CallKind.createPool ∉ (s.fire 0).store.live.log.map Call.kind := by
  intro start s
  have hConnecting : ∀ m ≤ 2, ((fire 0)^[m] start).IsConnecting 2 := by decide +kernel
  refine ⟨attempt_twoCallers 2 hConnecting, ?_, ?_, ?_, ?_, ?_⟩
  all_goals decide +kernel

end Scheduler

end SqlWeave
