import SqlWeave.Proofs.Live.Opening

/-!
# Taking down

A manager takes down its pool and then its tunnel.  For either, calls are made one after another as
far as none of them fails, and what fails is dropped, so that the tunnel is closed whatever becomes
of the pool.

## Main results

* `Manager.dismantled_takeDown`: the calls with which a manager takes down what it holds.
* `Manager.dismantled_close`: those with which it closes the connection.
-/

namespace SqlWeave

open SqlWeave.Action

/-- What is left of an outcome when failures are dropped. -/
def quieted : Result Unit → Result Unit
  | .ok _ => .ok ()
  | .error f => if f.isFailure then .ok () else .error f

/-- Calls one after another that fail with exceptions only, if they fail. -/
theorem Runs.quieted_eq_ok {calls : List Call} {made returned : Trace} {r : Result Unit}
    (h : Runs False (.ok ()) calls made returned r)
    (hFails : ∀ x ∈ made, ∀ f, x.2.fault = some f → f.isFailure = true) : quieted r = .ok () := by
  cases r with
  | ok _ => rfl
  | error f =>
    obtain ⟨-, ⟨hLast, -⟩ | ⟨c, e, rfl, hFault⟩⟩ := h.of_error rfl
    · cases hLast
    · exact if_pos (hFails (c, e) (by simp) f hFault)

theorem meets_quieted {c : Contract Store} {P : Store → Prop} {R : Result Unit → Store → Prop}
    {a : Action Store Unit} (ha : Meets c P a R) :
    Meets c P (quietly a) fun r s => ∃ r', R r' s ∧ r = quieted r' := by
  refine meets_quietly ha (fun s hs => ⟨_, hs, rfl⟩) (fun f s hs hFailure => ⟨_, hs, ?_⟩)
    fun f s hs hNot => ⟨_, hs, ?_⟩
  · exact (if_pos hFailure).symm
  · exact (if_neg (by rw [hNot]; nofun)).symm

namespace Manager

/-! ## What is closed -/

/-- The calls with which a pool is closed, if there is one. -/
def poolClosing : Option Nat → List Call
  | some pool => [.poolClose pool, .poolWaitClosed pool]
  | none => []

/-- The calls with which a tunnel is closed, if there is one. -/
def tunnelClosing (ts : List Tunnel) : Option Nat → List Call
  | some t => Tunnel.closing t (ts[t]?.getD {})
  | none => []

/-- The tunnels once one of them counts as closed, if there is one. -/
def tunnelsClosed (ts : List Tunnel) : Option Nat → List Tunnel
  | some t => Tunnel.closedIn t ts
  | none => ts

theorem isClosing_of_poolClosing {pool : Option Nat} {c : Call} (h : c ∈ poolClosing pool) :
    c.kind.isClosing = true := by
  cases pool with
  | none => cases h
  | some pool => rcases List.mem_pair.mp h with rfl | rfl <;> rfl

theorem isClosing_of_tunnelClosing {ts : List Tunnel} {tunnel : Option Nat} {c : Call}
    (h : c ∈ tunnelClosing ts tunnel) : c.kind.isClosing = true := by
  cases tunnel with
  | none => cases h
  | some t => exact Tunnel.isClosing_of_closing h

/-- What comes of taking down: the calls for the pool were made, and unless they ended with what is
no failure those for the tunnel. -/
inductive Dismantled (start : Live) (made : Trace) (m : Manager) (ts : List Tunnel)
    (mayBreak : Prop) : Result Unit → Store → Prop
  | pool {pools returned : Trace} {r : Result Unit} {f : Fault} {s : Store}
      (hPool : Runs mayBreak (.ok ()) (poolClosing m.pool) pools returned r)
      (hr : quieted r = .error f)
      (hs : Surveyed start (made ++ pools) { m with pool := none } ts s) :
      Dismantled start made m ts mayBreak (.error f) s
  | tunnel {pools returned tunnels returned' : Trace} {r r' : Result Unit} {s : Store}
      (hPool : Runs mayBreak (.ok ()) (poolClosing m.pool) pools returned r)
      (hr : quieted r = .ok ())
      (hTunnel : Runs mayBreak (.ok ()) (tunnelClosing ts m.tunnel) tunnels returned' r')
      (hs : Surveyed start (made ++ pools ++ tunnels) { m with pool := none, tunnel := none }
        (tunnelsClosed ts m.tunnel) s) :
      Dismantled start made m ts mayBreak (quieted r') s

section

variable {start : Live} {made : Trace} {m : Manager} {ts : List Tunnel}
  {R : Trace → Manager → Prop} {mayBreak : Prop} (hLasting : IsLasting R)

include hLasting

/-- The calls for the tunnel, behind those for the pool. -/
theorem dismantled_tunnel {pools returned : Trace} {r : Result Unit} (hR : R made m)
    (hPool : Runs mayBreak (.ok ()) (poolClosing m.pool) pools returned r)
    (hr : quieted r = .ok ()) :
    Meets (survey start R mayBreak) (Surveyed start (made ++ pools) { m with pool := none } ts)
      (do
        let tunnel ← onLive fun l => (l.manager.tunnel, l.manage ({ · with tunnel := none }))
        if let some t := tunnel then
          Action.quietly (Tunnel.close t))
      (Dismantled start made m ts mayBreak) := by
  have hStays : R (made ++ pools) { m with pool := none, tunnel := none } := by
    refine hLasting.manager (m := m) rfl rfl (hLasting.append (fun x hMem hKind => ?_) hR)
    have hClosing := isClosing_of_poolClosing (hPool.mem hMem)
    rw [hKind] at hClosing
    cases hClosing
  refine meets_onLive_bind (R := fun tunnel s => tunnel = m.tunnel ∧
      Surveyed start (made ++ pools) { m with pool := none, tunnel := none } ts s)
    (fun s hs => ⟨?_, (hs.of_eq rfl rfl).calls, ?_, hs.tunnels⟩) fun tunnel => ?_
  · show s.live.manager.tunnel = m.tunnel
    rw [hs.manager]
  · exact congrArg (fun m : Manager => { m with tunnel := none }) hs.manager
  · rintro s ⟨rfl, hs⟩
    cases hTunnel : m.tunnel with
    | none =>
      refine meets_pure (P := (· = s)) (fun s' hs' => ?_) s rfl
      have hSame : Surveyed start (made ++ pools ++ []) { m with pool := none, tunnel := none }
          (tunnelsClosed ts m.tunnel) s' := by
        rw [List.append_nil, hTunnel, hs']
        exact hs
      have hNone : Runs mayBreak (.ok ()) (tunnelClosing ts m.tunnel) [] [] (.ok ()) := by
        rw [hTunnel]
        exact .done
      exact .tunnel hPool hr hNone hSame
    | some t =>
      refine (meets_quieted (ran_closeTunnel hLasting hStays)).mono (fun s hs => hs) ?_ s hs
      rintro _ s ⟨r', ⟨tunnels, returned', hClosing, hs⟩, rfl⟩
      exact .tunnel hPool hr (by rw [hTunnel]; exact hClosing) (by rw [hTunnel]; exact hs)

/-- The calls of taking down. -/
theorem dismantled_takeDown (hR : R made m) :
    Meets (survey start R mayBreak) (Surveyed start made m ts) takeDown
      (Dismantled start made m ts mayBreak) := by
  have hNoPool : R made { m with pool := none } := hLasting.manager (m := m) rfl rfl hR
  refine meets_onLive_bind (R := fun pool s => pool = m.pool ∧
      Surveyed start made { m with pool := none } ts s)
    (fun s hs => ⟨?_, (hs.of_eq rfl rfl).calls, ?_, hs.tunnels⟩) fun pool => ?_
  · show s.live.manager.pool = m.pool
    rw [hs.manager]
  · exact congrArg (fun m : Manager => { m with pool := none }) hs.manager
  · rintro s ⟨rfl, hs⟩
    cases hPool : m.pool with
    | none =>
      have hNone : Runs mayBreak (.ok ()) (poolClosing m.pool) [] [] (.ok ()) := by
        rw [hPool]
        exact .done
      refine dismantled_tunnel hLasting hR hNone rfl s ?_
      rw [List.append_nil]
      exact hs
    | some pool =>
      have hClosing : Meets (survey start R mayBreak) (Surveyed start made { m with pool := none } ts)
          (do
            let _ ← call (.poolClose pool)
            let _ ← call (.poolWaitClosed pool))
          (Ran start made { m with pool := none } mayBreak (.ok ()) (poolClosing (some pool))
            fun _ => ts) := by
        refine ran_call_bind rfl rfl (fun _ => hLasting.call nofun hNoPool) fun e => ?_
        refine ran_call_bind rfl rfl
          (fun _ => hLasting.call nofun (hLasting.call nofun hNoPool)) fun e => ?_
        exact meets_pure fun s hs => ran_done rfl hs
      refine meets_bind (meets_quieted hClosing) (fun _ => ?_) (fun f s hs => ?_) s hs
      · rintro s ⟨r, ⟨pools, returned, hRuns, hs⟩, hr⟩
        rw [← hPool] at hRuns
        exact dismantled_tunnel hLasting hR hRuns hr.symm s hs
      · obtain ⟨r, ⟨pools, returned, hRuns, hs⟩, hr⟩ := hs
        rw [← hPool] at hRuns
        exact .pool hRuns hr.symm hs

/-- The calls of closing the connection. -/
theorem dismantled_close (hR : R made m) :
    Meets (survey start R mayBreak) (Surveyed start made m ts) close fun r s =>
      ∃ r' s', Dismantled start made m ts mayBreak r' s' ∧ r = r'.map (fun _ => .null) ∧
        s = s'.onManager ({ · with phase := .disconnected, pending := none }) := by
  have hEnsured : Meets (survey start R mayBreak) (Surveyed start made m ts)
      (Action.ensuring takeDown do
        enter .disconnected
        settle) fun r s => ∃ s', Dismantled start made m ts mayBreak r s' ∧
          s = s'.onManager ({ · with phase := .disconnected, pending := none }) := by
    refine meets_ensuring (dismantled_takeDown hLasting hR) fun r => ?_
    refine meets_change_bind (R := fun s => ∃ s', Dismantled start made m ts mayBreak r s' ∧
      s = s'.onManager ({ · with phase := .disconnected })) (fun s hs => ⟨s, hs, rfl⟩) ?_
    refine meets_change ?_
    rintro _ ⟨s', hs', rfl⟩
    exact ⟨s', hs', rfl⟩
  refine meets_bind hEnsured (fun _ => meets_pure ?_) ?_
  · rintro s ⟨s', hs', hEq⟩
    exact ⟨_, s', hs', rfl, hEq⟩
  · rintro f s ⟨s', hs', hEq⟩
    exact ⟨_, s', hs', rfl, hEq⟩

end

end Manager

end SqlWeave
