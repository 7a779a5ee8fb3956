import SqlWeave.Proofs.Live.Tunneled
import SqlWeave.Proofs.Live.Waiting

/-!
# Disconnecting

A manager that is connected through a tunnel has a pool, a listener and an SSH connection, and
disconnecting closes them in this order.  Whatever fails of that with an exception, it comes to an
end in good order.  The pool and the listener are closed in any case; the SSH connection is not if
the closing of the listener fails.

## Main results

* `Tunnel.closes_of_runs`: what is closed of a tunnel.
* `Manager.disconnected_of_dismantled`: what is closed of a manager, and what it comes to.
* `Scheduler.disconnect_closes`: how a disconnecting ends, and that it does.
-/

namespace SqlWeave

open SqlWeave.Action Manager

/-! ## What is closed -/

/-- The call closes a pool, a listener or an SSH connection. -/
def Call.isClose : Call → Bool
  | poolClose _ | listenerClose _ | sshClose _ => true
  | _ => false

theorem isStructural_of_isClose {c : Call} (h : c.isClose = true) :
    c.kind.isStructural = true := by
  cases c with
  | poolClose | listenerClose | sshClose => rfl
  | _ => cases h

namespace Trace

/-- What is closed, in order. -/
def closes (made : Trace) : List Call :=
  (made.map Prod.fst).filter Call.isClose

/-- Neither the closing of a listener nor the wait for it has failed. -/
def ListenersClose (made : Trace) : Prop :=
  ∀ x ∈ made, x.1.kind = .listenerClose ∨ x.1.kind = .listenerWaitClosed → x.2.fault = none

theorem closes_append (made more : Trace) : (made ++ more).closes = made.closes ++ more.closes := by
  rw [closes, List.map_append, List.filter_append]
  rfl

theorem listenersClose_append {made more : Trace} :
    (made ++ more).ListenersClose ↔ made.ListenersClose ∧ more.ListenersClose :=
  List.forall_mem_append

end Trace

/-- A log closes what its calls that set something up or take something down do. -/
theorem Forecast.closes_structural (forecast : Forecast) (log : List Call) :
    (forecast.structural log).closes = log.filter Call.isClose := by
  rw [Trace.closes, map_fst_structural, List.filter_filter]
  refine List.filter_congr fun c _ => ?_
  cases hClose : c.isClose with
  | true => exact isStructural_of_isClose hClose
  | false => rfl

section

variable {last r : Result Unit} {made returned : Trace}

/-- Something is closed and waited for. -/
theorem Runs.closes_pair {c c' : Call} (hc : c.isClose = true) (hc' : c'.isClose = false)
    (h : Runs False last [c, c'] made returned r) : made.closes = [c] := by
  cases h with
  | broken hBreak => exact hBreak.elim
  | stopped => simp [Trace.closes, hc]
  | next _ hRest =>
    cases hRest with
    | broken hBreak => exact hBreak.elim
    | stopped => simp [Trace.closes, hc, hc']
    | next _ hEnd =>
      cases hEnd with
      | broken hBreak => exact hBreak.elim
      | done => simp [Trace.closes, hc, hc']

/-- Where no listener is closed none fails to be. -/
theorem Runs.listenersClose {calls : List Call} (h : Runs False last calls made returned r)
    (hOther : ∀ c ∈ calls, c.kind ≠ .listenerClose ∧ c.kind ≠ .listenerWaitClosed) :
    made.ListenersClose := by
  intro x hMem hKind
  obtain ⟨hClose, hWait⟩ := hOther x.1 (h.mem hMem)
  exact absurd hKind (not_or.mpr ⟨hClose, hWait⟩)

/-- Of a tunnel that is open the listener is closed, and then the SSH connection unless the former
fails. -/
theorem Tunnel.closes_of_runs {t : Nat}
    (h : Runs False last ([.listenerClose t, .listenerWaitClosed t] ++
      [.sshClose t, .sshWaitClosed t]) made returned r) :
    made.closes = [.listenerClose t, .sshClose t] ∧ made.ListenersClose ∨
      made.closes = [.listenerClose t] ∧ ¬ made.ListenersClose := by
  rcases h.of_append with ⟨f, -, hListener⟩ | ⟨made₁, made₂, returned₂, rfl, -, hListener, hSsh⟩
  · obtain ⟨-, ⟨hLast, -⟩ | ⟨c, e, rfl, hFault⟩⟩ := hListener.of_error rfl
    · cases hLast
    · refine .inr ⟨hListener.closes_pair rfl rfl, fun hAll => ?_⟩
      have hMem : (c, e) ∈ returned ++ [(c, e)] := by simp
      have hCall : c ∈ [Call.listenerClose t, .listenerWaitClosed t] := hListener.mem hMem
      have hNone := hAll (c, e) hMem <| by
        rcases List.mem_pair.mp hCall with rfl | rfl
        · exact .inl rfl
        · exact .inr rfl
      rw [hFault] at hNone
      cases hNone
  · have hAll := (hListener.of_ok rfl).2.2.2
    have hNone : made₂.ListenersClose := hSsh.listenersClose (by simp [Call.kind])
    refine .inl ⟨?_, Trace.listenersClose_append.mpr ⟨fun x hMem _ => hAll x hMem, hNone⟩⟩
    rw [Trace.closes_append, hListener.closes_pair rfl rfl, hSsh.closes_pair rfl rfl]
    rfl

end

namespace Manager

/-- What has come of a manager with a pool and a tunnel since a start: it is disconnected and holds
nothing more.  Pool, listener and SSH connection were closed, each once and in this order, exactly if
no listener failed to be closed; if one did, the SSH connection was not closed. -/
structure Disconnected (start : Live) (pool t : Nat) (l : Live) : Prop where
  phase_eq : l.manager.phase = .disconnected
  pending_eq : l.manager.pending = none
  pool_eq : l.manager.pool = none
  tunnel_eq : l.manager.tunnel = none
  calls : ∃ calls, l.log = start.log ++ calls ∧
    (calls.filter Call.isClose = [.poolClose pool, .listenerClose t, .sshClose t] ↔
      (start.forecast.structural calls).ListenersClose) ∧
    (¬ (start.forecast.structural calls).ListenersClose →
      calls.filter Call.isClose = [.poolClose pool, .listenerClose t])

/-- Whatever fails of the taking down with an exception, it ends well. -/
theorem disconnected_of_dismantled {start : Live} {m : Manager} {ts : List Tunnel} {pool t : Nat}
    {port : Int} {fault : Option Fault} {r : Result Unit} {s : Store} (hPool : m.pool = some pool)
    (hTunnel : m.tunnel = some t)
    (hOpen : ts[t]? =
      some { hasConnection := true, listener := some port, transportFault := fault })
    (hFails : start.forecast.ClosingFailsOnly) (h : Dismantled start [] m ts False r s) :
    r = .ok () ∧ Disconnected start pool t
      (s.onManager ({ · with phase := .disconnected, pending := none })).live := by
  cases h with
  | pool hRuns hr hs =>
    rw [hRuns.quieted_eq_ok fun x hMem f => hs.isFailure hFails hMem
      (isClosing_of_poolClosing (hRuns.mem hMem))] at hr
    cases hr
  | @tunnel pools returned tunnels returned' r r' _ hRuns _ hRuns' hs =>
    have hQuiet : quieted r' = .ok () := hRuns'.quieted_eq_ok fun x hMem f =>
      hs.isFailure hFails (List.mem_append_right _ hMem)
        (isClosing_of_tunnelClosing (hRuns'.mem hMem))
    obtain ⟨calls, hLog, -, hMade⟩ := hs.calls
    rw [hPool] at hRuns
    rw [hTunnel, tunnelClosing, hOpen] at hRuns'
    have hPools : pools.ListenersClose := hRuns.listenersClose (by simp [poolClosing, Call.kind])
    have hCloses : calls.filter Call.isClose = .poolClose pool :: tunnels.closes := by
      rw [← start.forecast.closes_structural, hMade, List.nil_append, Trace.closes_append,
        hRuns.closes_pair rfl rfl]
      rfl
    have hListeners : (start.forecast.structural calls).ListenersClose ↔ tunnels.ListenersClose := by
      rw [hMade, List.nil_append, Trace.listenersClose_append]
      exact and_iff_right hPools
    refine ⟨hQuiet, rfl, rfl, ?_, ?_, calls, hLog, ?_, ?_⟩
    · exact congrArg Manager.pool hs.manager
    · exact congrArg Manager.tunnel hs.manager
    · rw [hCloses, hListeners]
      rcases Tunnel.closes_of_runs hRuns' with ⟨hAll, hWell⟩ | ⟨hSome, hNot⟩
      · rw [hAll]
        exact iff_of_true rfl hWell
      · rw [hSome]
        exact iff_of_false (by simp) hNot
    · rw [hCloses, hListeners]
      rcases Tunnel.closes_of_runs hRuns' with ⟨-, hWell⟩ | ⟨hSome, -⟩
      · exact fun hNot => absurd hWell hNot
      · exact fun _ => congrArg _ hSome

end Manager

namespace Scheduler

variable {db : Database} {forecast : Forecast} {callers callers' : Callers}
  {before start s s' : Scheduler} {a : Nat}

/-! ## Disconnectings in flight -/

/-- The end of a closing: what was to be taken down was, as far as it went. -/
def Closed (start : Live) (report : Report) (store : Store) : Prop :=
  ∃ r s, Dismantled start [] start.manager start.tunnels False r s ∧
    report = ⟨r.map fun _ => .null, []⟩ ∧
    store = s.onManager ({ · with phase := .disconnected, pending := none })

theorem Begun.closes (h : Begun db callers .close a s) :
    Crossing db callers a (survey s.store.live (fun _ m => m.pending = some a) False)
      (Closed s.store.live) s := by
  have hLasting : IsLasting fun (_ : Trace) (m : Manager) => m.pending = some a :=
    ⟨fun _ hR => hR, fun hPending _ hR => hPending.trans hR⟩
  refine h.crossing h.pending_eq ?_ fun hBreak => hBreak.elim
  refine (dismantled_close hLasting h.pending_eq).mono (fun _ hs => hs) ?_
  rintro r _ ⟨r', s', hDown, rfl, rfl⟩
  exact ⟨r', s', hDown, rfl, rfl⟩

/-- Its thread has not run yet, and then waits as often as closing does. -/
theorem Begun.runsAtMost (h : Begun db callers .close a s) : s.RunsAtMost a 7 callers := by
  refine ⟨h.no_caller, _, h.beginner, by decide, fun r => ?_⟩
  cases r with
  | ok _ => exact Routine.brief_bind (n := 6) (m := 0) brief_close fun _ => trivial
  | error f => trivial

/-- What a disconnecting in flight was begun on, and how it goes on. -/
structure Parting (db : Database) (callers : Callers) (a : Nat) (before start s : Scheduler) :
    Prop where
  isThrough : IsThrough before.store.live.manager before.store.live.tunnels
  begins : ∃ callers, Begins db callers .close before start
  thread_eq : a = before.threads.length
  crossing : Crossing db callers a
    (survey start.store.live (fun _ m => m.pending = some a) False) (Closed start.store.live) s
  runsAtMost : s.RunsAtMost a 7 callers
  linked : s.Linked

theorem Linked.disturb {mayBreak : Prop} (h : s.Linked)
    (hStep : Disturbance mayBreak db callers s callers' s') : s'.Linked := by
  cases hStep with
  | turn hTurn => exact h.turn hTurn
  | interrupt _ t => exact h.cancel t

theorem Disturbed.linked (h : Disturbed db forecast callers s) : s.Linked := by
  induction h with
  | start => exact linked_start
  | disturb _ hStep ih => exact ih.disturb hStep

/-- While a disconnecting is in flight its thread carries it out. -/
theorem Flight.parting (hLive : db.backend = .live)
    (hEnabled : db.settings.tunnel.isEnabled = true)
    (hClosing : start.store.live.manager.phase = .disconnecting)
    (h : Flight False db forecast a before start callers s) :
    Parting db callers a before start s := by
  induction h with
  | @begun _ callers' hDisturbed hStep hNone hPending =>
    obtain ⟨hCalm, hThrough⟩ :
        Calm db _ before ∧ IsThrough before.store.live.manager before.store.live.tunnels := by
      cases hDisturbed.overseen hLive hEnabled with
      | calm hCalm hThrough => exact ⟨hCalm, hThrough⟩
      | crossing _ hCrossing =>
        rw [hCrossing.pending_eq] at hNone
        cases hNone
    rcases hCalm.disturb hLive hStep with ⟨-, hServed⟩ | ⟨transition, hBegins⟩
    · rw [hServed.manager, hNone] at hPending
      cases hPending
    · have hPhase := hBegins.phase_eq
      rw [hClosing] at hPhase
      cases transition with
      | establish => cases hPhase
      | close =>
        have hSame : a = before.threads.length :=
          Option.some.inj (hPending.symm.trans hBegins.pending_eq)
        subst hSame
        exact {
          isThrough := hThrough
          begins := ⟨callers', hBegins⟩
          thread_eq := rfl
          crossing := hBegins.toBegun.closes
          runsAtMost := hBegins.toBegun.runsAtMost
          linked := hDisturbed.linked.disturb hStep }
  | disturb _ hStep hPending ih =>
    rcases ih.crossing.disturb id hLive hStep with hOn | ⟨-, report, -, r, s, -, -, hEq⟩
    · cases hStep with
      | interrupt hBreak => exact hBreak.elim
      | turn hTurn =>
        exact { ih with
          crossing := hOn
          runsAtMost := ih.runsAtMost.turn hTurn
          linked := ih.linked.turn hTurn }
    · rw [hEq] at hPending
      cases hPending

/-- A disconnecting ends well. -/
theorem Parting.ends {pool t : Nat} {port : Int} {fault : Option Fault}
    (hLive : db.backend = .live) (h : Parting db callers a before start s)
    (hPool : before.store.live.manager.pool = some pool)
    (hTunnel : before.store.live.manager.tunnel = some t)
    (hOpen : before.store.live.tunnels[t]? =
      some { hasConnection := true, listener := some port, transportFault := fault })
    (hFails : start.store.live.forecast.ClosingFailsOnly) (hTurn : Turn db callers s callers' s')
    (hNot : s'.store.live.manager.pending ≠ some a) :
    s'.report? a = some ⟨.ok .null, []⟩ ∧
      Disconnected start.store.live pool t s'.store.live := by
  rcases h.crossing.disturb id hLive (.turn hTurn) with hOn | ⟨-, report, hReport, hClosed⟩
  · exact absurd hOn.pending_eq hNot
  · obtain ⟨r, s'', hDown, rfl, hEq⟩ := hClosed
    obtain ⟨_, -, store, hServed, -, hStart⟩ := h.begins
    have hManager : start.store.live.manager =
        Manager.begun .close before.threads.length before.store.live.manager := by
      rw [hStart, ← hServed.manager]
      rfl
    have hTunnels : start.store.live.tunnels = before.store.live.tunnels := by
      rw [hStart, ← hServed.tunnels]
      rfl
    obtain ⟨rfl, hDone⟩ := disconnected_of_dismantled (by rw [hManager]; exact hPool)
      (by rw [hManager]; exact hTunnel) (by rw [hTunnels]; exact hOpen) hFails hDown
    exact ⟨report?_eq_some.mpr hReport, hEq ▸ hDone⟩

/-- Whoever disconnects a connected manager that has nothing else under way begins a closing, and
goes on with its outcome. -/
theorem advance_disconnect (hLive : db.backend = .live)
    (hPhase : s.store.live.manager.phase = .connected)
    (hNone : s.store.live.manager.pending = none) (v : Nat) :
    s.advance v (Operation.disconnect.routine db) =
      (s.beginning .close).follow v s.threads.length (.go (.done ⟨·, []⟩)) := by
  have hRoutine : Operation.disconnect.routine db = .wait (.goal .disconnected) (.done ⟨·, []⟩) := by
    rw [Operation.routine, Operation.action, Database.action, Database.disconnect,
      Database.onBackend, hLive]
    rfl
  have hPursuit : s.store.live.manager.pursuit .disconnected = .begin .close := by
    rw [pursuit, hNone, hPhase]
    rfl
  rw [hRoutine, advance, seek, hPursuit]
  rfl

/-- A manager that is connected through a tunnel has a pool and an open tunnel.  Whoever disconnects
it begins a closing, and goes on with its outcome unless cancelled.  While the closing is in flight
its thread is due, at the latest when what hangs is let go, and it runs seven times at most.  If what
closes something fails with exceptions only, the closing ends well, with the manager disconnected;
it has closed the pool, the listener and the SSH connection, each once and in this order, exactly if
no listener failed to be closed, and otherwise the pool and the listener only. -/
theorem disconnect_closes (hLive : db.backend = .live)
    (hEnabled : db.settings.tunnel.isEnabled = true)
    (hConnected : before.store.live.manager.phase = .connected)
    (hFlight : Flight False db forecast a before start callers s)
    (hClosing : start.store.live.manager.phase = .disconnecting)
    (hFails : start.store.live.forecast.ClosingFailsOnly) :
    ∃ pool t, before.store.live.manager.pool = some pool ∧
      before.store.live.manager.tunnel = some t ∧
      (∀ v, before.advance v (Operation.disconnect.routine db) =
        (before.beginning .close).follow v a (.go (.done ⟨·, []⟩))) ∧
      start.IsFollowed a ∧
      (∀ (v : Nat) next, s.threads[v]? = some (.following a (.go next)) →
        ∀ callers' s', Without db v callers s callers' s' → s'.Awaits v a (.go next) ∧
          ∀ i, s'.runner i = some v → ∃ report, s'.report? a = some report ∧
            s'.fire i = advance v (next report.outcome) { s' with queue := s'.queue.eraseIdx i }) ∧
      (s.IsDue a ∨ s.release.IsDue a) ∧
      (∀ n callers' s', Resumed db a callers s n callers' s' → n ≤ 7) ∧
      ∀ callers' s', Turn db callers s callers' s' → s'.store.live.manager.pending ≠ some a →
        s'.report? a = some ⟨.ok .null, []⟩ ∧
          Disconnected start.store.live pool t s'.store.live := by
  have hParting := hFlight.parting hLive hEnabled hClosing
  obtain ⟨hNone, pool, t, port, fault, hPool, hTunnel, hOpen⟩ := hParting.isThrough hConnected
  obtain ⟨_, hBegins⟩ := hParting.begins
  refine ⟨pool, t, hPool, hTunnel, fun v => ?_, ?_, fun v next hFollowing callers' s' hWithout => ?_,
    ?_, fun n callers' s' hResumed => resumed_le hParting.runsAtMost hResumed,
    fun callers' s' => hParting.ends hLive hPool hTunnel hOpen hFails⟩
  · rw [hParting.thread_eq]
    exact advance_disconnect hLive hConnected hNone v
  · exact hParting.thread_eq ▸ hBegins.isFollowed
  · have hAwaits := awaits_of_following hParting.linked hFollowing hWithout
    exact ⟨hAwaits, fun i hRunner => hAwaits.fire hRunner⟩
  · obtain ⟨status, hStatus, hWaits⟩ := hParting.crossing.waits
    refine isDue_or_release hParting.linked hStatus hWaits.not_isFollowing fun report hFinished => ?_
    rw [hFinished] at hWaits
    exact hWaits

theorem Flight.iterate {mayBreak : Prop} (h : Flight mayBreak db forecast a before start callers s)
    (n : Nat) (hPending : ∀ m ≤ n, ((fire 0)^[m] s).store.live.manager.pending = some a) :
    Flight mayBreak db forecast a before start callers ((fire 0)^[n] s) :=
  iterate_fire (·.store.live.manager.pending = some a)
    (fun _ hs hLast => hs.disturb (.turn (.fire 0)) hLast) h n hPending

/-- A manager that is connected through a tunnel, and a caller who is to disconnect it. -/
def readyToPart (forecast : Forecast) : Scheduler :=
  let s : Scheduler := { database := tunneledDatabase, store := { live := { forecast } } }
  ((s.oneByOne tunneledDatabase [.connect]).spawn (Operation.disconnect.routine tunneledDatabase)).2

theorem disturbed_readyToPart (forecast : Forecast) :
    ∃ callers, Disturbed tunneledDatabase forecast callers (readyToPart forecast) := by
  have hStart : Running tunneledDatabase forecast (fun _ => none) _ := .refl
  obtain ⟨callers, hRunning⟩ := hStart.oneByOne [.connect]
  exact ⟨_, Disturbed.start.of_course (.turn hRunning (.call .disconnect))⟩

/-- What is called next fails in this way. -/
def failsAt (kind : CallKind) : Forecast := fun other =>
  if other = kind then [{ fault := some (.raised .runtime [.str "boom"]) }] else []

/-- The closing of the pool fails, and all is closed. -/
theorem disconnect_closes_failing :
    let before := readyToPart (failsAt .poolClose)
    let start := before.fire 0
    let s := (fire 0)^[2] start
    tunneledDatabase.backend = .live ∧ tunneledDatabase.settings.tunnel.isEnabled = true ∧
      before.store.live.manager.phase = .connected ∧
      (∃ callers, Flight False tunneledDatabase (failsAt .poolClose) 3 before start callers s) ∧
      start.store.live.manager.phase = .disconnecting ∧
      start.store.live.forecast.ClosingFailsOnly ∧
      (s.fire 0).store.live.manager.pending ≠ some 3 ∧
      (s.fire 0).report? 3 = some ⟨.ok .null, []⟩ ∧
      Disconnected start.store.live 1 0 (s.fire 0).store.live := by
  intro before start s
  obtain ⟨callers, hDisturbed⟩ := disturbed_readyToPart (failsAt .poolClose)
  have hConnected : before.store.live.manager.phase = .connected := by decide +kernel
  have hClosing : start.store.live.manager.phase = .disconnecting := by decide +kernel
  have hPending : ∀ m ≤ 2, ((fire 0)^[m] start).store.live.manager.pending = some 3 := by
    decide +kernel
  have hNone : before.store.live.manager.pending = none := by decide +kernel
  have hFlight : Flight False tunneledDatabase (failsAt .poolClose) 3 before start callers s :=
    (Flight.begun hDisturbed (.turn (.fire 0)) hNone (hPending 0 (by decide))).iterate 2 hPending
  have hFails : start.store.live.forecast.ClosingFailsOnly := by
    have hAll : ∀ kind, ∀ e ∈ start.store.live.forecast kind, e.fault.all Fault.isFailure := by
      rintro ⟨⟩ <;> decide +kernel
    intro kind _ e hMem f hFault
    have hFailure := hAll kind e hMem
    rwa [hFault] at hFailure
  have hEnded : (s.fire 0).store.live.manager.pending ≠ some 3 := by decide +kernel
  obtain ⟨pool, t, hPool, hTunnel, -, -, -, -, -, hEnds⟩ :=
    disconnect_closes rfl (by decide) hConnected hFlight hClosing hFails
  have hOne : before.store.live.manager.pool = some 1 := by decide +kernel
  have hZero : before.store.live.manager.tunnel = some 0 := by decide +kernel
  obtain rfl : pool = 1 := Option.some.inj (hPool.symm.trans hOne)
  obtain rfl : t = 0 := Option.some.inj (hTunnel.symm.trans hZero)
  exact ⟨rfl, by decide, hConnected, ⟨callers, hFlight⟩, hClosing, hFails, hEnded,
    hEnds callers (s.fire 0) (.fire 0) hEnded⟩

/-- The wait for the listener fails: the manager is disconnected in good order, but the SSH
connection that it had stays open. -/
theorem disconnect_leavesOpen :
    let before := readyToPart (failsAt .listenerWaitClosed)
    let s := (fire 0)^[4] before
    (∃ callers, Disturbed tunneledDatabase (failsAt .listenerWaitClosed) callers before) ∧
      before.store.live.manager.phase = .connected ∧
      before.store.live.manager.tunnel = some 0 ∧ (before.store.live.tunnel 0).hasConnection = true ∧
      s.report? 3 = some ⟨.ok .null, []⟩ ∧ s.store.live.manager.phase = .disconnected ∧
      (s.store.live.log.drop before.store.live.log.length).filter Call.isClose =
        [.poolClose 1, .listenerClose 0] := by
  exact ⟨disturbed_readyToPart _, rfl, rfl, rfl, rfl, rfl, rfl⟩

end Scheduler

end SqlWeave
