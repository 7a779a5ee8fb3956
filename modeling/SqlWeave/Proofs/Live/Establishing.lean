import SqlWeave.Proofs.Live.Closing

/-!
# Asking for a pool

Where a tunnel is to be opened, a transition asks for a pool only when it has opened one, and it has
done nothing else before.  The options of the pool are those for the local end of that tunnel.

## Main results

* `Manager.asked_establish`, `Manager.asked_close`: what a transition has asked for at its end,
  however its calls and its waits end.
-/

namespace SqlWeave

open SqlWeave.Action

namespace Tunnel

/-- No pool is asked for in the opening of a tunnel. -/
theorem Opens.kind_ne {db : Database} {t : Nat} {made : Trace} {port : Int}
    (h : Opens db t made port) {x : Call × Encounter} (hMem : x ∈ made) :
    x.1.kind ≠ .createPool := by
  obtain ⟨imported, connected, listening, options, rfl, hAsking, hImported, -, -⟩ := h
  rcases List.mem_append.mp hMem with hImport | hAsk
  · rw [hImported x hImport]
    nofun
  · have hCall : x.1 ∈ asking db t options := by
      rw [hAsking]
      exact List.mem_map_of_mem (f := Prod.fst) hAsk
    rcases List.mem_pair.mp hCall with hEq | hEq <;> rw [hEq] <;> nofun

end Tunnel

theorem CallKind.ne_createPool_of_isClosing {kind : CallKind} (h : kind.isClosing = true) :
    kind ≠ .createPool := by
  rintro rfl
  cases h

section

variable {R : Trace → Manager → Prop} (hLasting : IsLasting R) {db : Database} {start : Live}
  {made : Trace} {m : Manager} {ts : List Tunnel} {mayBreak : Prop} {s : Store}

include hLasting

/-- What lasts holds after the opening of a tunnel. -/
theorem Tunnel.Settled.rests {t : Nat} {r : Result Unit} (hR : R made m)
    (h : Settled db t start made m ts mayBreak r s) : (survey start R mayBreak).rests s := by
  cases h with
  | opened hRuns hs | left hRuns _ hs =>
    exact hs.rests (hLasting.append (fun x hMem => kind_of_opening (hRuns.mem hMem)) hR)
  | closed hRuns _ hClosing =>
    obtain ⟨more, behind, hClosing, hs⟩ := hClosing
    refine hs.rests (hLasting.append (fun x hMem => ?_)
      (hLasting.append (fun x hMem => kind_of_opening (hRuns.mem hMem)) hR))
    exact CallKind.ne_createPool_of_isClosing (isClosing_of_closing (hClosing.mem hMem))

/-- So it does after the taking down. -/
theorem Manager.Dismantled.rests {r : Result Unit} (hR : R made m)
    (h : Dismantled start made m ts mayBreak r s) : (survey start R mayBreak).rests s := by
  cases h with
  | pool hPool _ hs =>
    refine hs.rests (hLasting.manager (m := m) rfl rfl (hLasting.append (fun x hMem => ?_) hR))
    exact CallKind.ne_createPool_of_isClosing (isClosing_of_poolClosing (hPool.mem hMem))
  | tunnel hPool _ hTunnel hs =>
    refine hs.rests (hLasting.manager (m := m) rfl rfl (hLasting.append (fun x hMem => ?_)
      (hLasting.append (fun x hMem => ?_) hR)))
    · exact CallKind.ne_createPool_of_isClosing (isClosing_of_tunnelClosing (hTunnel.mem hMem))
    · exact CallKind.ne_createPool_of_isClosing (isClosing_of_poolClosing (hPool.mem hMem))

end

namespace Manager

/-- The options of a pool at the local end of a tunnel that listens at a port. -/
def optionsThrough (db : Database) (port : Int) : Settings.Options :=
  let reached := address db.settings (some (db.settings.tunnel.server.host, port))
  poolOptions db.settings reached.1 reached.2

/-- Only a connecting asks for pools, and only when it has opened the next tunnel and done nothing
else; the options are those for the local end of that tunnel. -/
def AsksRightly (db : Database) (start : Live) (phase : Phase) (made : Trace) : Prop :=
  ∀ before options e after, made = before ++ (.createPool options, e) :: after →
    phase = .connecting ∧ ∃ port, Tunnel.Opens db start.tunnels.length before port ∧
      options = optionsThrough db port

/-- A thread carries out a transition that asks for pools rightly. -/
def Asking (db : Database) (start : Live) (a : Nat) (phase : Phase) (made : Trace) (m : Manager) :
    Prop :=
  AsksRightly db start phase made ∧ m.pending = some a ∧ m.phase = phase

section

variable {db : Database} {start : Live} {a : Nat} {phase : Phase} {made : Trace} {m : Manager}
  {ts : List Tunnel} {mayBreak : Prop} {s : Store}

theorem asksRightly_nil : AsksRightly db start phase [] :=
  fun before _ _ _ hMade => absurd hMade.symm (by simp)

/-- One more call that asks for no pool. -/
theorem AsksRightly.concat (h : AsksRightly db start phase made) {x : Call × Encounter}
    (hx : x.1.kind ≠ .createPool) : AsksRightly db start phase (made ++ [x]) := by
  intro before options e after hMade
  rcases concat_eq_append_cons hMade with ⟨-, rfl, -⟩ | ⟨rest, -, hBefore⟩
  · exact absurd rfl hx
  · exact h before options e rest hBefore

/-- A pool is asked for when a tunnel was opened. -/
theorem asksRightly_through {port : Int} (h : Tunnel.Opens db start.tunnels.length made port)
    (e : Encounter) : AsksRightly db start .connecting
      (made ++ [(.createPool (optionsThrough db port), e)]) := by
  intro before options e' after hMade
  rcases concat_eq_append_cons hMade with ⟨rfl, hLast, -⟩ | ⟨rest, -, rfl⟩
  · cases hLast
    exact ⟨rfl, port, h, rfl⟩
  · exact absurd rfl (h.kind_ne (x := (.createPool options, e')) (by simp))

theorem isLasting_asking : IsLasting (Asking db start a phase) where
  call := fun hx hR => ⟨hR.1.concat hx, hR.2⟩
  manager := fun hPending hPhase hR => ⟨hR.1, hPending.trans hR.2.1, hPhase.trans hR.2.2⟩

/-- A manager has a pool and a tunnel that is open. -/
def HoldsAll (m : Manager) (ts : List Tunnel) : Prop :=
  ∃ pool t port fault, m.pool = some pool ∧ m.tunnel = some t ∧
    ts[t]? = some { hasConnection := true, listener := some port, transportFault := fault }

/-- A connected manager has no transition pending, and has a pool and a tunnel that is open. -/
def IsThrough (m : Manager) (ts : List Tunnel) : Prop :=
  m.phase = .connected → m.pending = none ∧ HoldsAll m ts

/-- What holds at the end of a transition: it has asked for pools rightly, and the manager is as it
should be if it is connected. -/
def Asked (db : Database) (start : Live) (phase : Phase) (s : Store) : Prop :=
  ∃ made m ts, Surveyed start made m ts s ∧ AsksRightly db start phase made ∧ IsThrough m ts

/-- A transition is ended, with the manager not connected. -/
theorem asked_onManager {f : Manager → Manager} (hf : ∀ m, m.phase = phase → (f m).phase ≠ .connected)
    (h : (survey start (Asking db start a phase) mayBreak).rests s) :
    Asked db start phase (s.onManager f) := by
  obtain ⟨made, m, ts, hs, hAsks, -, hPhase⟩ := h
  exact ⟨made, f m, ts, ⟨(hs.of_eq rfl rfl).calls, congrArg f hs.manager, hs.tunnels⟩, hAsks,
    fun hConnected => absurd hConnected (hf m hPhase)⟩

/-! ## Setting up -/

/-- The manager's tunnel is opened, or nothing was asked for that must not be. -/
theorem opens_setUpTunnel (hPending : m.pending = some a) (hPhase : m.phase = .connecting) :
    Meets (survey start (Asking db start a .connecting) mayBreak)
      (Surveyed start [] m start.tunnels) (setUpTunnel db) fun r s =>
        match r with
        | .ok localEnd => ∃ made port ts, localEnd = (db.settings.tunnel.server.host, port) ∧
          Tunnel.Opens db start.tunnels.length made port ∧
          ts[start.tunnels.length]? = some { hasConnection := true, listener := some port } ∧
          Surveyed start made { m with tunnel := some start.tunnels.length } ts s
        | .error _ => (survey start (Asking db start a .connecting) mayBreak).rests s := by
  have hAsking : Asking db start a .connecting [] m := ⟨asksRightly_nil, hPending, hPhase⟩
  refine meets_onLive_bind (R := fun t s => t = start.tunnels.length ∧
      Surveyed start [] m (start.tunnels ++ [({} : Tunnel)]) s) (fun s hs => ⟨?_, ?_⟩) fun t => ?_
  · rw [← hs.tunnels]
  · exact ⟨(hs.of_eq rfl rfl).calls, hs.manager, congrArg (· ++ [({} : Tunnel)]) hs.tunnels⟩
  · rintro s ⟨rfl, hs⟩
    have hNew : (start.tunnels ++ [({} : Tunnel)])[start.tunnels.length]? =
        some { transportFault := none } := List.getElem?_concat_length
    refine meets_bind (settled_connect isLasting_asking hAsking) (fun _ => ?_)
      (fun f s hs => hs.rests isLasting_asking hAsking) s hs
    intro s hs
    cases hs with
    | @opened made _ _ hRuns hs =>
      obtain ⟨hSame, ⟨port, hOpens⟩, -⟩ := Tunnel.opens_of_ok hRuns
      rw [hSame] at hs
      have hOpen := hOpens.opened hNew
      refine meets_change_bind (P := (· = s)) (R := Surveyed start made
        { m with tunnel := some start.tunnels.length }
        (Tunnel.opened start.tunnels.length (start.tunnels ++ [({} : Tunnel)]) made)) ?_ ?_ s rfl
      · rintro _ rfl
        exact ⟨(hs.of_eq rfl rfl).calls,
          congrArg (fun m : Manager => { m with tunnel := some start.tunnels.length }) hs.manager,
          hs.tunnels⟩
      · refine meets_state_bind fun s hs => meets_ofResult ?_
        rintro _ rfl
        rw [hOpens.localAddress_eq hNew hs.tunnels]
        exact ⟨made, port, _, rfl, hOpens, hOpen, hs⟩
    | closed _ _ hClosing =>
      obtain ⟨_, _, hClosing, -⟩ := hClosing
      cases (hClosing.of_ok rfl).1

/-- The manager's pool is made, at the local end of the tunnel. -/
theorem asked_setUpPool {port : Int} (hPending : m.pending = some a)
    (hPhase : m.phase = .connecting) (hOpens : Tunnel.Opens db start.tunnels.length made port) :
    Meets (survey start (Asking db start a .connecting) mayBreak) (Surveyed start made m ts)
      (setUpPool db.settings (some (db.settings.tunnel.server.host, port))) fun r s =>
        match r with
        | .ok pool => ∃ made', AsksRightly db start .connecting made' ∧
          Surveyed start made' { m with pool := some pool } ts s
        | .error _ => (survey start (Asking db start a .connecting) mayBreak).rests s := by
  have hAsking : ∀ e, Asking db start a .connecting
      (made ++ [(.createPool (optionsThrough db port), e)]) m :=
    fun e => ⟨asksRightly_through hOpens e, hPending, hPhase⟩
  refine meets_bind (surveyed_call (c := .createPool (optionsThrough db port)) rfl hAsking)
    (fun _ => ?_) ?_
  · rintro s ⟨e, hs, -⟩
    refine meets_onLive (P := (· = s)) ?_ s rfl
    rintro s' rfl
    refine ⟨_, (hAsking e).1, (hs.of_eq rfl rfl).calls, ?_, hs.tunnels⟩
    exact congrArg (fun m : Manager => { m with pool := some (s'.live.pools + 1) }) hs.manager
  · rintro f s ⟨e, hs, -⟩
    exact hs.rests (hAsking e)

/-- A pool is tried out, with calls that concern neither pools nor tunnels. -/
theorem surveyed_executeOn {R : Trace → Manager → Prop} (hR : R made m) (pool : Nat)
    (sql : String) : Meets (survey start R mayBreak) (Surveyed start made m ts)
      (executeOn pool sql) fun _ => Surveyed start made m ts := by
  have hAcquire : Meets (survey start R mayBreak) (Surveyed start made m ts) (acquire pool)
      fun _ => Surveyed start made m ts :=
    meets_bind (surveyed_call_aside rfl hR) (fun _ => meets_onLive fun s hs =>
      ⟨(hs.of_eq rfl rfl).calls, hs.manager, hs.tunnels⟩) fun _ s hs => hs
  refine meets_bind hAcquire (fun connection => ?_) fun f s hs => hs
  refine meets_ensuring (R := fun _ => Surveyed start made m ts) ?_ fun r => ?_
  · exact meets_bind (surveyed_call_aside rfl hR) (fun _ => meets_pure fun s hs => hs)
      fun f s hs => hs
  · exact meets_bind (surveyed_call_aside rfl hR) (fun _ => meets_pure fun s hs => hs)
      fun f s hs => hs

/-- Everything is set up, or nothing was asked for that must not be. -/
theorem asked_setUp (hEnabled : db.settings.tunnel.isEnabled = true) (hPending : m.pending = some a)
    (hPhase : m.phase = .connecting) :
    Meets (survey start (Asking db start a .connecting) mayBreak)
      (Surveyed start [] m start.tunnels) (setUp db) fun r s =>
        (survey start (Asking db start a .connecting) mayBreak).rests s ∧
          ∀ pool, r = .ok pool → HoldsAll s.live.manager s.live.tunnels := by
  unfold setUp
  show Meets _ _ (if db.settings.tunnel.isEnabled = true then _ else _) _
  rw [if_pos hEnabled]
  refine meets_bind (R := fun r s => match r with
      | .ok localEnd => ∃ made port ts, localEnd = some (db.settings.tunnel.server.host, port) ∧
        Tunnel.Opens db start.tunnels.length made port ∧
        ts[start.tunnels.length]? = some { hasConnection := true, listener := some port } ∧
        Surveyed start made { m with tunnel := some start.tunnels.length } ts s
      | .error _ => (survey start (Asking db start a .connecting) mayBreak).rests s)
    (meets_map (opens_setUpTunnel hPending hPhase) fun r s hs => ?_) (fun localEnd => ?_) fun f s hs => ⟨hs, nofun⟩
  · cases r with
    | ok localEnd =>
      obtain ⟨made, port, ts, rfl, hRest⟩ := hs
      exact ⟨made, port, ts, rfl, hRest⟩
    | error f => exact hs
  · rintro s ⟨made, port, ts, rfl, hOpens, hOpen, hs⟩
    refine meets_bind (asked_setUpPool (m := { m with tunnel := some start.tunnels.length })
      hPending hPhase hOpens) (fun pool => ?_) (fun f s hs => ⟨hs, nofun⟩) s hs
    rintro s ⟨made', hAsks, hs⟩
    have hAsking : Asking db start a .connecting made'
        { m with tunnel := some start.tunnels.length, pool := some pool } :=
      ⟨hAsks, hPending, hPhase⟩
    refine meets_bind (surveyed_executeOn hAsking pool trialStatement)
      (fun _ => meets_pure fun s hs => ⟨hs.rests hAsking, fun _ _ => ?_⟩)
      (fun f s hs => ⟨hs.rests hAsking, nofun⟩) s hs
    rw [hs.manager, hs.tunnels]
    exact ⟨pool, _, port, none, rfl, rfl, hOpen⟩

/-! ## Whole transitions -/

/-- What a connecting has asked for. -/
theorem asked_establish (hEnabled : db.settings.tunnel.isEnabled = true)
    (hPending : m.pending = some a) (hPhase : m.phase = .connecting) :
    Meets (survey start (Asking db start a .connecting) mayBreak)
      (Surveyed start [] m start.tunnels) (establish db) fun _ => Asked db start .connecting := by
  refine meets_ensuring
    (R := fun _ s => Asked db start .connecting (s.onManager ({ · with pending := none })))
    ?_ fun r => meets_change fun s hs => ?_
  · refine meets_outcome_bind (asked_setUp hEnabled hPending hPhase) fun r => ?_
    cases r with
    | ok pool =>
      refine meets_change_bind (R := fun s => Asked db start .connecting
        (s.onManager ({ · with pending := none }))) ?_ (meets_pure fun s hs => hs)
      rintro s ⟨⟨made, m, ts, hs, hAsks, -⟩, hHolds⟩
      have hAll := hHolds pool rfl
      rw [hs.manager, hs.tunnels] at hAll
      refine ⟨made, { m with phase := .connected, pending := none }, ts,
        ⟨(hs.of_eq rfl rfl).calls, ?_, hs.tunnels⟩, hAsks, fun _ => ⟨rfl, hAll⟩⟩
      exact congrArg (fun m : Manager => { m with phase := .connected, pending := none }) hs.manager
    | error f =>
      show Meets _ _ (takeDown >>= fun _ => _) _
      rintro s ⟨⟨made, m, ts, hs, hAsking⟩, -⟩
      refine meets_bind ((dismantled_takeDown isLasting_asking hAsking).mono (fun s hs => hs)
        fun r s hDown => hDown.rests isLasting_asking hAsking) (fun _ => ?_) (fun f s hs => ?_) s hs
      · refine meets_change_bind (R := fun s => Asked db start .connecting
          (s.onManager ({ · with pending := none }))) (fun s hs => ?_) (meets_throw fun s hs => hs)
        show Asked db start .connecting
          (s.onManager ({ · with phase := .disconnected, pending := none }))
        exact asked_onManager (fun _ _ => nofun) hs
      · refine asked_onManager (f := ({ · with pending := none })) (fun m hEq => ?_) hs
        rw [hEq]
        nofun
  · cases r <;> exact hs

/-- What a closing has asked for. -/
theorem asked_close (hPending : m.pending = some a) (hPhase : m.phase = .disconnecting) :
    Meets (survey start (Asking db start a .disconnecting) mayBreak)
      (Surveyed start [] m start.tunnels) close fun _ => Asked db start .disconnecting := by
  have hAsking : Asking db start a .disconnecting [] m := ⟨asksRightly_nil, hPending, hPhase⟩
  refine (dismantled_close isLasting_asking hAsking).mono (fun s hs => hs) ?_
  rintro r _ ⟨r', s', hDown, -, rfl⟩
  exact asked_onManager (fun _ _ => nofun) (hDown.rests isLasting_asking hAsking)

/-- What a transition has asked for, whichever it is. -/
theorem asked_transition (hEnabled : db.settings.tunnel.isEnabled = true) (transition : Transition)
    (hPending : m.pending = some a) (hPhase : m.phase = transition.phase) :
    Meets (survey start (Asking db start a transition.phase) mayBreak)
      (Surveyed start [] m start.tunnels) (transition.action db)
      fun _ => Asked db start transition.phase := by
  cases transition with
  | establish => exact asked_establish hEnabled hPending hPhase
  | close => exact asked_close hPending hPhase

end

end Manager

end SqlWeave
