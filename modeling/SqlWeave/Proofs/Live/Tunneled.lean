import SqlWeave.Proofs.Live.Disturbed
import SqlWeave.Proofs.Live.Establishing
import SqlWeave.Proofs.Live.SingleFlight

/-!
# Pools behind a tunnel

Where a tunnel is to be opened no pool is made past it: in every run, whatever fails and whoever is
cancelled, each pool is asked for by an attempt to connect that has opened its tunnel and has closed
nothing since, at the local end of that tunnel.  An empty host or the port zero there gives way to
the configured one, though.

## Main results

* `Overseen.disturb`: what a disturbance makes of a scheduler in which all pools are asked for
  rightly.
* `Scheduler.pool_isTunneled`: how every pool is asked for.
-/

namespace SqlWeave

open SqlWeave.Action Manager

theorem Forecast.structural_cons {forecast : Forecast} {c : Call} (hc : c.kind.isStructural = true)
    (rest : List Call) : forecast.structural (c :: rest) =
      (c, forecast.next c.kind) :: (forecast.drop c.kind).structural rest := by
  have hAppend := forecast.structural_append [c] rest
  rw [structural_singleton, if_pos hc] at hAppend
  exact hAppend

theorem Manager.Asked.isThrough {db : Database} {start : Live} {phase : Phase} {s : Store}
    (h : Asked db start phase s) : IsThrough s.live.manager s.live.tunnels := by
  obtain ⟨made, m, ts, hs, -, hThrough⟩ := h
  rw [hs.manager, hs.tunnels]
  exact hThrough

/-- The local end of a tunnel is what a pool is made at, unless the host is empty, or the port is
zero and the configured one is not. -/
theorem Manager.optionsThrough_eq_iff (db : Database) (port : Int) :
    optionsThrough db port = poolOptions db.settings db.settings.tunnel.server.host port ↔
      db.settings.tunnel.server.host ≠ "" ∧ (port = 0 → db.settings.port = 0) := by
  have hHost : databaseHost db.settings ≠ "" := by
    unfold databaseHost
    cases hGiven : Tunnel.given db.settings.host with
    | none => decide
    | some host =>
      rw [Tunnel.given, Option.filter_eq_some_iff] at hGiven
      simpa using hGiven.2
  have hOptions : ∀ host other port other', poolOptions db.settings host port =
      poolOptions db.settings other other' ↔ host = other ∧ port = other' := by
    intro host other port other'
    simp [poolOptions]
  rw [optionsThrough, address, hOptions]
  refine and_congr ?_ ?_
  · by_cases hEmpty : db.settings.tunnel.server.host = ""
    · simp [hEmpty, hHost]
    · simp [hEmpty]
  · by_cases hZero : port = 0
    · simp [hZero]
    · simp [hZero]

namespace Scheduler

variable {db : Database} {forecast : Forecast} {callers callers' : Callers} {s s' : Scheduler}

/-- No transition is under way, and if the manager is connected then behind an open tunnel; or one
is, and asks for pools rightly. -/
inductive Overseen (db : Database) (forecast : Forecast) (callers : Callers) (s : Scheduler) : Prop
  | calm (h : Calm db callers s) (hThrough : IsThrough s.store.live.manager s.store.live.tunnels)
  | crossing {a : Nat} {before start : Scheduler} {phase : Phase}
      (hFlight : Flight True db forecast a before start callers s)
      (h : Crossing db callers a
        (survey start.store.live (Asking db start.store.live a phase) True)
        (fun _ => Asked db start.store.live phase) s)

/-- A transition that was begun asks for pools rightly. -/
theorem Begun.asking {mayBreak : Prop} {a : Nat} {transition : Transition}
    (hEnabled : db.settings.tunnel.isEnabled = true) (h : Begun db callers transition a s) :
    Crossing db callers a (survey s.store.live (Asking db s.store.live a transition.phase) mayBreak)
      (fun _ => Asked db s.store.live transition.phase) s := by
  refine h.crossing ⟨asksRightly_nil, h.pending_eq, h.phase_eq⟩
    (asked_transition hEnabled transition h.pending_eq h.phase_eq) fun _ store hs => ?_
  refine asked_onManager (f := id) (fun m hPhase => ?_) hs
  rw [id, hPhase]
  exact Transition.phase_ne_connected transition

/-- Whatever happens, pools are asked for rightly. -/
theorem Overseen.disturb (hLive : db.backend = .live)
    (hEnabled : db.settings.tunnel.isEnabled = true) (h : Overseen db forecast callers s)
    (hDisturbed : Disturbed db forecast callers s)
    (hStep : Disturbance True db callers s callers' s') : Overseen db forecast callers' s' := by
  cases h with
  | calm hCalm hThrough =>
    rcases hCalm.disturb hLive hStep with ⟨hCalm', hServed⟩ | ⟨transition, hBegins⟩
    · refine .calm hCalm' ?_
      rw [hServed.manager, hServed.tunnels]
      exact hThrough
    · obtain ⟨store, hServed, hNone, -⟩ := hBegins.served
      exact .crossing (.begun hDisturbed hStep (hServed.manager ▸ hNone) hBegins.pending_eq)
        (hBegins.toBegun.asking hEnabled)
  | crossing hFlight hCrossing =>
    rcases hCrossing.disturb (fun hR => hR.2.1) hLive hStep with hOn | ⟨hCalm, report, -, hAsked⟩
    · exact .crossing (hFlight.disturb hStep hOn.pending_eq) hOn
    · exact .calm hCalm hAsked.isThrough

theorem Disturbed.overseen (hLive : db.backend = .live)
    (hEnabled : db.settings.tunnel.isEnabled = true) (h : Disturbed db forecast callers s) :
    Overseen db forecast callers s := by
  induction h with
  | start => exact .calm calm_start nofun
  | disturb h hStep ih => exact ih.disturb hLive hEnabled h hStep

/-- Clients ask for no pool. -/
theorem not_createPool_of_served {store store' : Store} (h : store.Served store')
    {before after : List Call} {options : Settings.Options}
    (hLog : store'.live.log = store.live.log ++ before ++ .createPool options :: after) : False := by
  rw [List.append_assoc] at hLog
  have hNot := isStructural_of_isClients (h.clients _ hLog (.createPool options) (by simp))
  cases hNot

/-- Where a tunnel is to be opened, whatever callers do, whatever fails and whoever is cancelled, a
pool is asked for by an attempt to connect only, which has opened its own tunnel and done nothing
else to tunnels and pools, so that the tunnel is open, with its host and that port for a local
address (`Tunnel.Opens.localAddress_eq`).  The options are those for the local end of that tunnel,
and they name this address exactly if its host is not empty, and its port is not zero or the
configured one is zero too. -/
theorem pool_isTunneled (hLive : db.backend = .live)
    (hEnabled : db.settings.tunnel.isEnabled = true) (h : Disturbed db forecast callers s)
    (hStep : Disturbance True db callers s callers' s') {before after : List Call}
    {options : Settings.Options} (hLog : s'.store.live.log =
      s.store.live.log ++ before ++ .createPool options :: after) :
    ∃ a first start since port, Flight True db forecast a first start callers s ∧ s.IsConnecting a ∧
      s.store.live.log ++ before = start.store.live.log ++ since ∧
      Tunnel.Opens db start.store.live.tunnels.length
        (start.store.live.forecast.structural since) port ∧
      options = optionsThrough db port ∧
      (options = poolOptions db.settings db.settings.tunnel.server.host port ↔
        db.settings.tunnel.server.host ≠ "" ∧ (port = 0 → db.settings.port = 0)) := by
  cases h.overseen hLive hEnabled with
  | calm hCalm _ =>
    rcases hCalm.disturb hLive hStep with ⟨-, hServed⟩ | ⟨transition, hBegins⟩
    · exact (not_createPool_of_served hServed hLog).elim
    · obtain ⟨store, hServed, -, hEq⟩ := hBegins.served
      have hSame : s'.store.live.log = store.live.log := by
        rw [hEq]
        rfl
      exact (not_createPool_of_served hServed (hSame ▸ hLog)).elim
  | @crossing a first start phase hFlight hCrossing =>
    obtain ⟨made₀, m₀, ts₀, hs₀, -, hPending, hPhase⟩ := hCrossing.rests
    obtain ⟨calls₀, hLog₀, -, -⟩ := hs₀.calls
    obtain ⟨made, m, ts, hs, hAsks⟩ : ∃ made m ts,
        Surveyed start.store.live made m ts s'.store ∧
          AsksRightly db start.store.live phase made := by
      rcases hCrossing.disturb (fun hR => hR.2.1) hLive hStep with hOn | ⟨-, report, -, hAsked⟩
      · obtain ⟨made, m, ts, hs, hR⟩ := hOn.rests
        exact ⟨made, m, ts, hs, hR.1⟩
      · obtain ⟨made, m, ts, hs, hAsks, -⟩ := hAsked
        exact ⟨made, m, ts, hs, hAsks⟩
    obtain ⟨calls, hCalls, -, hMade⟩ := hs.calls
    have hSince : calls = (calls₀ ++ before) ++ .createPool options :: after := by
      rw [hCalls, hLog₀, List.append_assoc _ calls₀, List.append_assoc] at hLog
      exact List.append_cancel_left hLog
    rw [hSince, Forecast.structural_append, Forecast.structural_cons rfl] at hMade
    obtain ⟨rfl, port, hOpens, hOptions⟩ := hAsks _ options _ _ hMade.symm
    refine ⟨a, first, start, calls₀ ++ before, port, hFlight, ⟨?_, ?_⟩, ?_, hOpens, hOptions, ?_⟩
    · rw [hs₀.manager, hPending]
    · rw [hs₀.manager, hPhase]
    · rw [hLog₀, List.append_assoc]
    · rw [hOptions]
      exact optionsThrough_eq_iff db port

/-- A run is one that nothing disturbs. -/
theorem Disturbed.of_course (h : Disturbed db forecast callers s)
    (hCourse : Course db callers s callers' s') : Disturbed db forecast callers' s' := by
  induction hCourse with
  | refl => exact h
  | turn _ hTurn ih => exact ih.disturb (.turn hTurn)

theorem Disturbed.iterate (h : Disturbed db forecast callers s) (n : Nat) :
    Disturbed db forecast callers ((fire 0)^[n] s) :=
  Function.Iterate.rec _ h (fun _ hs => hs.disturb (.turn (.fire 0))) n

/-- Two callers connect through a tunnel, and the pool is asked for at its local end. -/
theorem pool_isTunneled_connecting :
    let s := (fire 0)^[4] (twoCallers tunneledDatabase fun _ => [])
    tunneledDatabase.backend = .live ∧ tunneledDatabase.settings.tunnel.isEnabled = true ∧
      ∃ callers options, Disturbed tunneledDatabase (fun _ => []) callers s ∧
        Disturbance True tunneledDatabase callers s callers (s.fire 0) ∧
        (s.fire 0).store.live.log = s.store.live.log ++ [] ++ .createPool options :: [] ∧
        ∃ a first start since port,
          Flight True tunneledDatabase (fun _ => []) a first start callers s ∧
          s.IsConnecting a ∧ s.store.live.log ++ [] = start.store.live.log ++ since ∧
          Tunnel.Opens tunneledDatabase start.store.live.tunnels.length
            (start.store.live.forecast.structural since) port ∧
          options = optionsThrough tunneledDatabase port ∧
          (options = poolOptions tunneledDatabase.settings
              tunneledDatabase.settings.tunnel.server.host port ↔
            tunneledDatabase.settings.tunnel.server.host ≠ "" ∧
              (port = 0 → tunneledDatabase.settings.port = 0)) := by
  intro s
  obtain ⟨callers, hRunning⟩ := running_twoCallers tunneledDatabase fun _ => []
  have hDisturbed : Disturbed tunneledDatabase (fun _ => []) callers s :=
    (Disturbed.start.of_course hRunning).iterate 4
  have hStep : Disturbance True tunneledDatabase callers s callers (s.fire 0) := .turn (.fire 0)
  have hLog : (s.fire 0).store.live.log =
      s.store.live.log ++ [] ++ .createPool (optionsThrough tunneledDatabase 40000) :: [] := rfl
  exact ⟨rfl, by decide, callers, _, hDisturbed, hStep, hLog,
    pool_isTunneled rfl (by decide) hDisturbed hStep hLog⟩

/-- A database behind a tunnel that listens at no named host. -/
def unnamedDatabase : Database :=
  { tunneledDatabase with
    settings := { tunneledDatabase.settings with
      host := some "db"
      tunnel := { tunneledDatabase.settings.tunnel with server := ⟨"", 0⟩ } } }

/-- The pool is made at the configured host, past the tunnel, which listens elsewhere. -/
theorem pool_isNotTunneled :
    let s := (fire 0)^[5] (twoCallers unnamedDatabase fun _ => [])
    (∃ callers, Disturbed unnamedDatabase (fun _ => []) callers s) ∧
      unnamedDatabase.settings.tunnel.isEnabled = true ∧
      Tunnel.localAddress unnamedDatabase s.store.live 0 = .ok ("", 40000) ∧
      s.store.live.log.getLast? =
        some (.createPool (poolOptions unnamedDatabase.settings "db" 40000)) ∧
      poolOptions unnamedDatabase.settings "db" 40000 ≠
        poolOptions unnamedDatabase.settings "" 40000 := by
  obtain ⟨callers, hRunning⟩ := running_twoCallers unnamedDatabase fun _ => []
  refine ⟨⟨callers, (Disturbed.start.of_course hRunning).iterate 5⟩, by decide, rfl, rfl, ?_⟩
  simp [poolOptions]

end Scheduler

end SqlWeave
