import SqlWeave.Proofs.Live.Clients
import SqlWeave.Proofs.Live.TakeDown
import SqlWeave.Proofs.Live.Threads

/-!
# Attempts to connect

A transition is carried out while clients are at work: they make calls on connections that they
have, but as long as the manager is not connected they get no new ones.  So the tally of what an
attempt to connect tries can be read off the log: it opens one tunnel if there is to be one, makes
one pool unless the tunnel could not be opened, and tries the pool out at most once.

## Main results

* `Manager.attempted_establish`: what an attempt to connect tries, and how it ends.
* `Manager.settled_close`: closing ends disconnected.
-/

namespace SqlWeave

open SqlWeave.Action

/-! ## Tallies -/

/-- How often things were tried. -/
structure Tally where
  /-- SSH connections. -/
  asked : Nat := 0
  /-- Listeners that were opened. -/
  opened : Nat := 0
  /-- Pools. -/
  pools : Nat := 0
  /-- Connections of pools. -/
  acquired : Nat := 0

/-- The tally with one more call, which met something. -/
def Tally.count (n : Tally) (m : Call × Encounter) : Tally :=
  match m.1 with
  | .sshConnect .. => { n with asked := n.asked + 1 }
  | .forward .. => if m.2.fault.isNone then { n with opened := n.opened + 1 } else n
  | .createPool _ => { n with pools := n.pools + 1 }
  | .acquire _ => { n with acquired := n.acquired + 1 }
  | _ => n

/-- The tally of calls. -/
def tally (made : List (Call × Encounter)) : Tally :=
  made.foldl Tally.count {}

namespace Tally

/-- The tally of one attempt: one tunnel if there is to be one, a pool unless the tunnel was not
opened, and one connection of the pool at most. -/
structure IsSingle (isTunneled : Bool) (n : Tally) : Prop where
  asked : n.asked ≤ isTunneled.toNat
  opened : n.opened ≤ isTunneled.toNat
  pools : n.pools = if isTunneled then n.opened else 1
  acquired : n.acquired ≤ n.pools

/-- No tunnel was opened yet, nor was anything behind that tried. -/
def IsUnopened (n : Tally) : Prop :=
  n.asked ≤ 1 ∧ n.opened = 0 ∧ n.pools = 0 ∧ n.acquired = 0

/-- A tunnel was opened, if there is to be one, and nothing behind that was tried. -/
def IsReady (isTunneled : Bool) (n : Tally) : Prop :=
  n.asked ≤ isTunneled.toNat ∧ n.opened = isTunneled.toNat ∧ n.pools = 0 ∧ n.acquired = 0

/-- A pool was tried. -/
def HasPool (isTunneled : Bool) (n : Tally) : Prop :=
  n.asked ≤ isTunneled.toNat ∧ n.opened = isTunneled.toNat ∧ n.pools = 1 ∧ n.acquired = 0

theorem IsUnopened.isSingle {n : Tally} (h : n.IsUnopened) : n.IsSingle true := by
  obtain ⟨hAsked, hOpened, hPools, hAcquired⟩ := h
  exact ⟨hAsked, by simp [hOpened], by simp [hOpened, hPools], by simp [hAcquired]⟩

theorem HasPool.isSingle {isTunneled : Bool} {n : Tally} (h : n.HasPool isTunneled) :
    n.IsSingle isTunneled := by
  obtain ⟨hAsked, hOpened, hPools, hAcquired⟩ := h
  refine ⟨hAsked, hOpened.le, ?_, by simp [hAcquired]⟩
  cases isTunneled with
  | true => exact hPools.trans hOpened.symm
  | false => exact hPools

/-- Calls of clients that get no connection are not counted. -/
theorem foldl_count_of_onConnection {made : List (Call × Encounter)} (n : Tally)
    (h : ∀ m ∈ made, m.1.onConnection.isSome = true) : made.foldl count n = n := by
  induction made generalizing n with
  | nil => rfl
  | cons m rest ih =>
    have hSame : n.count m = n := by
      obtain ⟨call, met⟩ := m
      have hOn := h _ List.mem_cons_self
      cases call with
      | release | execute | «begin» | commit | rollback => rfl
      | _ => cases hOn
    rw [List.foldl_cons, hSame]
    exact ih n fun m hMem => h m (List.mem_cons_of_mem _ hMem)

end Tally

theorem tally_append_singleton (made : List (Call × Encounter)) (m : Call × Encounter) :
    tally (made ++ [m]) = (tally made).count m :=
  List.foldl_append

/-! ## Transitions among clients -/

namespace Manager

theorem phase_of_require {m : Manager} {pool : Nat} (h : m.require = .ok pool) :
    m.phase = .connected := by
  unfold require at h
  split at h
  · assumption
  · cases h

/-- The contract of a transition: it is pending, and clients may be at work while it waits. -/
def amongClients (thread : Nat) (phase : Phase) : Contract Store where
  rests s := s.live.manager.pending = some thread ∧ s.live.manager.phase = phase
  rely := Store.Served
  comes _ r := r = .ok .null

theorem isShared_amongClients (thread : Nat) (phase : Phase) :
    (amongClients thread phase).IsShared where
  refl := .refl
  trans := .trans
  rests := by
    intro s s' hRests hServed
    exact ⟨hServed.manager ▸ hRests.1, hServed.manager ▸ hRests.2⟩
  comes := fun _ _ => .rfl

/-- A transition is under way since a start: it is pending, there are so many tunnels, something
else holds of the manager and the tunnels, and so does something of the tally. -/
structure Underway (start : Live) (thread : Nat) (phase : Phase) (k : Nat)
    (Y : Manager → List Tunnel → Prop) (W : Tally → Prop) (s : Store) : Prop where
  pending : s.live.manager.pending = some thread
  phase : s.live.manager.phase = phase
  tunnels : s.live.tunnels.length = k
  also : Y s.live.manager s.live.tunnels
  tallied : ∃ calls, s.live.log = start.log ++ calls ∧
    s.live.forecast = start.forecast.after calls ∧ W (tally (start.forecast.encounters calls))

/-- A fault is an exception if all that is forecast are. -/
def Excepted (start : Live) (f : Fault) : Prop :=
  start.forecast.FailsOnly → f.isFailure = true

/-- A transition is under way, and a fault is an exception if all that is forecast are. -/
def Going {α : Type} (start : Live) (thread : Nat) (phase : Phase) (k : Nat)
    (Y : Manager → List Tunnel → Prop) (W : Tally → Prop) (r : Result α) (s : Store) : Prop :=
  (∀ f, r = .error f → Excepted start f) ∧ Underway start thread phase k Y W s

section

variable {start : Live} {thread k k' : Nat} {phase : Phase} {Y Y' : Manager → List Tunnel → Prop}
  {W W' : Tally → Prop} {s s' : Store} {db : Database}

theorem excepted_of_failure {f : Fault} (h : f.isFailure = true) : Excepted start f :=
  fun _ => h

theorem Underway.mono (h : Underway start thread phase k Y W s)
    (hY : ∀ m ts, Y m ts → Y' m ts) (hW : ∀ n, W n → W' n) :
    Underway start thread phase k Y' W' s := by
  obtain ⟨calls, hLog, hForecast, hTally⟩ := h.tallied
  exact ⟨h.pending, h.phase, h.tunnels, hY _ _ h.also, calls, hLog, hForecast, hW _ hTally⟩

/-- A change that makes no call. -/
theorem Underway.of_eq (h : Underway start thread phase k Y W s) (hLog : s'.live.log = s.live.log)
    (hForecast : s'.live.forecast = s.live.forecast)
    (hPending : s'.live.manager.pending = s.live.manager.pending)
    (hPhase : s'.live.manager.phase = s.live.manager.phase) (hLength : s'.live.tunnels.length = k')
    (hAlso : Y' s'.live.manager s'.live.tunnels) : Underway start thread phase k' Y' W s' := by
  obtain ⟨calls, hCalls, hAfter, hTally⟩ := h.tallied
  exact ⟨hPending.trans h.pending, hPhase.trans h.phase, hLength, hAlso, calls,
    hLog.trans hCalls, hForecast.trans hAfter, hTally⟩

/-- Clients at work leave a transition under way. -/
theorem Underway.of_served (hPhase : phase ≠ .connected) (h : Underway start thread phase k Y W s)
    (hServed : s.Served s') : Underway start thread phase k Y W s' := by
  obtain ⟨calls, hLog, hForecast, hTally⟩ := h.tallied
  obtain ⟨more, hLog', hForecast'⟩ := hServed.calls
  have hSame : s'.live.manager = s.live.manager := hServed.manager
  refine ⟨hSame ▸ h.pending, hSame ▸ h.phase, hServed.tunnels ▸ h.tunnels, ?_, calls ++ more,
    ?_, ?_, ?_⟩
  · rw [hSame, hServed.tunnels]
    exact h.also
  · rw [hLog', hLog, List.append_assoc]
  · rw [hForecast', hForecast, Forecast.after_append]
  · rw [tally, Forecast.encounters_append, List.foldl_append, Tally.foldl_count_of_onConnection]
    · exact hTally
    · intro m hMem
      have hCall : m.1 ∈ more := by
        rw [← Forecast.map_fst_encounters (start.forecast.after calls) more]
        exact List.mem_map_of_mem hMem
      refine (hServed.clients more hLog' m.1 hCall).resolve_right ?_
      rintro ⟨pool, -, hPool⟩
      exact hPhase (h.phase.symm.trans (phase_of_require hPool))

/-- A call is made. -/
theorem Underway.note (h : Underway start thread phase k Y W s) (c : Call) :
    Underway start thread phase k Y
      (fun n' => ∃ n, W n ∧ n' = n.count (c, s.live.forecast.next c.kind))
      (s.onLive (Live.note c)) := by
  obtain ⟨calls, hLog, hForecast, hTally⟩ := h.tallied
  refine ⟨h.pending, h.phase, h.tunnels, h.also, calls ++ [c], ?_, ?_, _, hTally, ?_⟩
  · show s.live.log ++ [c] = _
    rw [hLog, List.append_assoc]
  · show s.live.forecast.drop c.kind = _
    rw [hForecast, Forecast.after_append]
    rfl
  · rw [Forecast.encounters_append, ← hForecast]
    exact tally_append_singleton _ _

/-- What a call meets next is an exception if all that is forecast are. -/
theorem Underway.excepted (h : Underway start thread phase k Y W s) {kind : CallKind} {f : Fault}
    (hFault : (s.live.forecast.next kind).result = .error f) : Excepted start f := by
  intro hFails
  obtain ⟨calls, -, hForecast, -⟩ := h.tallied
  rw [hForecast] at hFault
  exact (hFails.after calls).next hFault

theorem Underway.going_ok {α : Type} (h : Underway start thread phase k Y W s) (a : α) :
    Going start thread phase k Y W (.ok a) s :=
  ⟨nofun, h⟩

theorem Underway.going_error {α : Type} {f : Fault} (h : Underway start thread phase k Y W s)
    (hf : Excepted start f) : Going start thread phase k Y W (.error f : Result α) s := by
  refine ⟨fun g hg => ?_, h⟩
  cases hg
  exact hf

theorem Underway.rests (h : Underway start thread phase k Y W s) :
    (amongClients thread phase).rests s :=
  ⟨h.pending, h.phase⟩

variable (hPhase : phase ≠ .connected)

include hPhase

theorem going_turn :
    Meets (amongClients thread phase) (Underway start thread phase k Y W) (Action.wait .turn)
      (Going start thread phase k Y W) := by
  refine meets_wait (fun _ => nofun) (fun s hs => hs.rests) fun s s' r hs hServed hComes => ?_
  cases hComes
  exact (hs.of_served hPhase hServed).going_ok _

/-- A call is counted, and has the outcome that it met. -/
theorem counted_call (c : Call) :
    Meets (amongClients thread phase) (Underway start thread phase k Y W) (call c) fun r s =>
      ∃ e : Encounter, r = e.result ∧ (∀ f, r = .error f → Excepted start f) ∧
        Underway start thread phase k Y (fun n' => ∃ n, W n ∧ n' = n.count (c, e)) s := by
  intro s hs
  refine meets_call (P := (· = s))
    (Underway start thread phase k Y
      (fun n' => ∃ n, W n ∧ n' = n.count (c, s.live.forecast.next c.kind)))
    ?_ (fun _ h => h.rests) (fun _ _ h hServed => h.of_served hPhase hServed) ?_ ?_ s rfl
  · rintro _ rfl
    exact hs.note c
  · rintro f s' - - hComes
    cases hComes
  · rintro start' s' rfl hs'
    exact ⟨_, rfl, fun f hf => hs.excepted hf, hs'⟩

/-- A call that is counted, and something behind it. -/
theorem counted_bind {β : Type} {c : Call} {f : Encounter → Action Store β}
    {Q : Result β → Store → Prop}
    (hf : ∀ e : Encounter, e.fault = none → Meets (amongClients thread phase)
      (Underway start thread phase k Y (fun n' => ∃ n, W n ∧ n' = n.count (c, e))) (f e) Q)
    (hFault : ∀ (e : Encounter) (g : Fault), e.fault = some g → Excepted start g → ∀ s,
      Underway start thread phase k Y (fun n' => ∃ n, W n ∧ n' = n.count (c, e)) s →
      Q (.error g) s) :
    Meets (amongClients thread phase) (Underway start thread phase k Y W) (call c >>= f) Q := by
  refine meets_bind (counted_call hPhase c) (fun e => ?_) ?_
  · rintro s ⟨e', hEq, -, hs⟩
    obtain ⟨hNone, rfl⟩ := Encounter.result_eq_ok.mp hEq.symm
    exact hf e' hNone s hs
  · rintro g s ⟨e', hEq, hExcepted, hs⟩
    exact hFault e' g (Encounter.result_eq_error.mp hEq.symm) (hExcepted g rfl) s hs

/-- A call that is not counted. -/
theorem going_call {c : Call} (hCount : ∀ n e, Tally.count n (c, e) = n) :
    Meets (amongClients thread phase) (Underway start thread phase k Y W) (call c)
      (Going start thread phase k Y W) := by
  refine (counted_call hPhase c).mono (fun _ hs => hs) ?_
  rintro r s ⟨e, -, hExcepted, hs⟩
  refine ⟨hExcepted, hs.mono (fun _ _ h => h) ?_⟩
  rintro n' ⟨n, hn, rfl⟩
  rw [hCount]
  exact hn

omit hPhase in
/-- An action after another one that goes on. -/
theorem going_bind {α β : Type} {c : Contract Store} {P : Store → Prop} {a : Action Store α}
    {f : α → Action Store β} {Q : Result β → Store → Prop}
    (ha : Meets c P a (Going start thread phase k Y W))
    (hf : ∀ x, Meets c (Underway start thread phase k Y W) (f x) Q)
    (hFault : ∀ e s, Excepted start e → Underway start thread phase k Y W s → Q (.error e) s) :
    Meets c P (a >>= f) Q := by
  refine meets_bind ha (fun x s hs => hf x s hs.2) fun e s hs => ?_
  exact hFault e s (hs.1 e rfl) hs.2

omit hPhase in
theorem going_pure {α : Type} {a : α} :
    Meets (amongClients thread phase) (Underway start thread phase k Y W) (pure a)
      (Going start thread phase k Y W) :=
  meets_pure fun _ hs => hs.going_ok _

omit hPhase in
theorem going_ofResult {α : Type} {r : Result α} (h : IsExceptional r) :
    Meets (amongClients thread phase) (Underway start thread phase k Y W) (Action.ofResult r)
      (Going start thread phase k Y W) :=
  meets_ofResult fun _ hs => ⟨fun f hf _ => h f hf, hs⟩

/-! ### Opening a tunnel -/

omit hPhase in
/-- A file that is there may hold no text, and one that cannot be read fails as the files say. -/
theorem isExceptional_read (files : Files) (path : String) :
    IsExceptional (KeyFile.read files path) := by
  unfold KeyFile.read
  split
  · unfold KeyFile.textOf
    split
    · exact nofun
    · rintro _ ⟨⟩
      rfl
  · rename_i f _
    rintro _ ⟨⟩
    exact f.property

theorem going_privateKey :
    Meets (amongClients thread phase) (Underway start thread phase k Y W) (Tunnel.privateKey db)
      (Going start thread phase k Y W) := by
  unfold Tunnel.privateKey
  split
  · exact going_pure
  · refine going_bind (going_turn hPhase) (fun _ => ?_) fun e s hf hs => hs.going_error hf
    refine going_bind (going_ofResult (isExceptional_read _ _)) (fun _ => going_pure) ?_
    exact fun e s hf hs => hs.going_error hf
  · exact going_pure

theorem going_clientOptions :
    Meets (amongClients thread phase) (Underway start thread phase k Y W) (Tunnel.clientOptions db)
      (Going start thread phase k Y W) := by
  refine going_bind (going_privateKey hPhase) (fun key => ?_)
    fun e s hf hs => hs.going_error hf
  cases key with
  | none => exact going_pure
  | some key =>
    refine going_bind (going_call hPhase fun _ _ => rfl) (fun _ => going_pure) ?_
    exact fun e s hf hs => hs.going_error hf

omit hPhase in
theorem isExceptional_connectOptions (options : Settings.Options) :
    IsExceptional (Tunnel.connectOptions db options) := by
  unfold Tunnel.connectOptions
  split
  · rintro _ ⟨⟩
    rfl
  · exact nofun

/-- The tunnel listens. -/
def IsListening (t : Nat) (_ : Manager) (ts : List Tunnel) : Prop :=
  (ts[t]?.getD {}).listener.isSome = true

/-- A tunnel is opened if the outcome is good, and is not otherwise. -/
def Opened (start : Live) (thread : Nat) (phase : Phase) (k t : Nat) (r : Result Unit) (s : Store) :
    Prop :=
  match r with
  | .ok _ => Underway start thread phase k (IsListening t) (Tally.IsReady true) s
  | .error f => Excepted start f ∧
    Underway start thread phase k (fun _ _ => True) Tally.IsUnopened s

omit hPhase in
theorem Underway.setTunnel (h : Underway start thread phase k Y W s) (t : Nat)
    (f : Tunnel → Tunnel) (hY : Y' s.live.manager (s.live.tunnels.modify t f)) :
    Underway start thread phase k Y' W (s.onLive (Live.setTunnel t f)) :=
  h.of_eq rfl rfl rfl rfl ((List.length_modify ..).trans h.tunnels) hY

/-- Setting up the SSH connection and the listener.  What is asked for once the options are settled
counts. -/
theorem opened_setUp {t : Nat} (ht : t < k) :
    Meets (amongClients thread phase)
      (Underway start thread phase k (fun _ _ => True) (· = {})) (Tunnel.setUp db t)
      (Opened start thread phase k t) := by
  have hUnopened : ∀ {f : Fault} {s : Store}, Excepted start f →
      Underway start thread phase k (fun _ _ => True) (· = {}) s →
      Opened start thread phase k t (.error f) s := by
    intro f s hf hs
    refine ⟨hf, hs.mono (fun _ _ h => h) ?_⟩
    rintro n rfl
    exact ⟨Nat.zero_le _, rfl, rfl, rfl⟩
  refine going_bind (going_clientOptions hPhase) (fun options => ?_)
    fun e s hf hs => hUnopened hf hs
  refine going_bind (going_ofResult (isExceptional_connectOptions options)) (fun options => ?_)
    fun e s hf hs => hUnopened hf hs
  refine meets_change_bind
    (R := Underway start thread phase k (fun _ _ => True) (· = {}))
    (fun s hs => hs.of_eq rfl rfl rfl rfl hs.tunnels trivial) ?_
  refine counted_bind hPhase (fun e hNone => ?_) fun e g hFault hExcepted s hs => ?_
  · refine meets_change_bind
      (R := Underway start thread phase k (fun _ _ => True) (· = { asked := 1 })) ?_ ?_
    · intro s hs
      refine (hs.setTunnel t _ trivial).mono (fun _ _ h => h) ?_
      rintro n' ⟨n, rfl, rfl⟩
      rfl
    · refine counted_bind hPhase (fun e hNone => meets_change fun s hs => ?_)
        fun e g hFault hExcepted s hs => ⟨hExcepted, hs.mono (fun _ _ h => h) ?_⟩
      · refine (hs.setTunnel t _ ?_).mono (fun _ _ h => h) ?_
        · have hLt : t < s.live.tunnels.length := hs.tunnels ▸ ht
          rw [IsListening, List.getElem?_modify_eq, List.getElem?_eq_getElem hLt]
          rfl
        · rintro n' ⟨n, rfl, rfl⟩
          simp [Tally.count, hNone, Tally.IsReady]
      · rintro n' ⟨n, rfl, rfl⟩
        simp [Tally.count, hFault, Tally.IsUnopened]
  · refine ⟨hExcepted, hs.mono (fun _ _ h => h) ?_⟩
    rintro n' ⟨n, rfl, rfl⟩
    exact ⟨Nat.le_refl _, rfl, rfl, rfl⟩

/-- Closing a tunnel leaves the manager and the tally as they are. -/
theorem going_closeTunnel {Z : Manager → Prop} (t : Nat) :
    Meets (amongClients thread phase) (Underway start thread phase k (fun m _ => Z m) W)
      (Tunnel.close t) (Going start thread phase k (fun m _ => Z m) W) := by
  have hFault : ∀ (e : Fault) (s : Store), Excepted start e →
      Underway start thread phase k (fun m _ => Z m) W s →
      Going (α := Unit) start thread phase k (fun m _ => Z m) W (.error e) s :=
    fun e s hf hs => hs.going_error hf
  have hConnection : ∀ opened : Tunnel, Meets (amongClients thread phase)
      (Underway start thread phase k (fun m _ => Z m) W)
      (if opened.hasConnection = true then do
        let _ ← call (.sshClose t)
        let _ ← call (.sshWaitClosed t)
        pure ()
      else pure ()) (Going start thread phase k (fun m _ => Z m) W) := by
    intro opened
    split
    · refine going_bind (going_call hPhase fun _ _ => rfl) (fun _ => ?_) hFault
      exact going_bind (going_call hPhase fun _ _ => rfl) (fun _ => going_pure) hFault
    · exact going_pure
  refine meets_onLive_bind (R := fun _ => Underway start thread phase k (fun m _ => Z m) W)
    (fun s hs => hs.setTunnel t _ hs.also) fun opened => ?_
  show Meets _ _ (if opened.listener.isSome = true then _ else _) _
  split
  · refine going_bind (going_call hPhase fun _ _ => rfl) (fun _ => ?_) hFault
    exact going_bind (going_call hPhase fun _ _ => rfl) (fun _ => hConnection opened) hFault
  · exact hConnection opened

/-- Opening a tunnel, which is closed again after some of the faults. -/
theorem opened_connect {t : Nat} (ht : t < k) :
    Meets (amongClients thread phase)
      (Underway start thread phase k (fun _ _ => True) (· = {})) (Tunnel.connect db t)
      (Opened start thread phase k t) := by
  refine meets_outcome_bind (opened_setUp hPhase ht) fun r => ?_
  cases r with
  | ok x => exact meets_pure fun s hs => hs
  | error f =>
    show Meets _ _ (if Tunnel.isExpected f = true then _ else _) _
    split
    · refine going_bind ((going_closeTunnel hPhase t).mono (fun s hs => hs.2) fun r s h => h)
        (fun _ => meets_throw fun s hs => ⟨excepted_of_failure rfl, hs⟩) fun e s hf hs => ⟨hf, hs⟩
    · exact meets_throw fun s hs => hs

/-- What is underway is unopened if there is a fault, and ready otherwise. -/
def SetUp {α : Type} (start : Live) (thread : Nat) (phase : Phase) (k : Nat) (isTunneled : Bool)
    (r : Result α) (s : Store) : Prop :=
  match r with
  | .ok _ => Underway start thread phase k (fun _ _ => True) (Tally.IsReady isTunneled) s
  | .error f => Excepted start f ∧
    Underway start thread phase k (fun _ _ => True) (Tally.IsSingle isTunneled) s

/-- The manager's tunnel is opened. -/
theorem setUp_setUpTunnel :
    Meets (amongClients thread phase)
      (Underway start thread phase k (fun _ _ => True) (· = {})) (setUpTunnel db)
      (SetUp start thread phase (k + 1) true) := by
  refine meets_onLive_bind (R := fun t s => t = k ∧
      Underway start thread phase (k + 1) (fun _ _ => True) (· = {}) s) (fun s hs => ?_) fun t => ?_
  · refine ⟨hs.tunnels, hs.of_eq rfl rfl rfl rfl ?_ trivial⟩
    exact List.length_append.trans (congrArg (· + 1) hs.tunnels)
  · rintro s ⟨rfl, hs⟩
    refine meets_bind (opened_connect hPhase (Nat.lt_succ_self t)) (fun _ => ?_) ?_ s hs
    · refine meets_change_bind
        (R := Underway start thread phase (t + 1) (IsListening t) (Tally.IsReady true))
        (fun s hs => hs.of_eq rfl rfl rfl rfl hs.tunnels hs.also) ?_
      refine meets_state_bind fun s hs => meets_ofResult ?_
      rintro s' rfl
      obtain ⟨port, hPort⟩ := Option.isSome_iff_exists.mp hs.also
      have hListener : (s'.live.tunnel t).listener = some port := hPort
      rw [Tunnel.localAddress, hListener]
      exact hs.mono (fun _ _ _ => trivial) fun _ h => h
    · rintro f s ⟨hExcepted, hs⟩
      exact ⟨hExcepted, hs.mono (fun _ _ h => h) fun _ h => h.isSingle⟩

/-! ### Making a pool and trying it out -/

/-- The manager has the pool. -/
def Holds (pool : Nat) (m : Manager) (_ : List Tunnel) : Prop :=
  m.pool = some pool

/-- A pool is made. -/
theorem going_setUpPool (settings : DatabaseSettings) (localEnd : Option (String × Int))
    (isTunneled : Bool) :
    Meets (amongClients thread phase)
      (Underway start thread phase k (fun _ _ => True) (Tally.IsReady isTunneled))
      (setUpPool settings localEnd) fun r s =>
        match r with
        | .ok pool => Underway start thread phase k (Holds pool) (Tally.HasPool isTunneled) s
        | .error f => Excepted start f ∧
          Underway start thread phase k (fun _ _ => True) (Tally.IsSingle isTunneled) s := by
  have hPool : ∀ {options : Settings.Options} {e : Encounter} {n' : Tally},
      (∃ n, Tally.IsReady isTunneled n ∧ n' = n.count (.createPool options, e)) →
      Tally.HasPool isTunneled n' := by
    rintro options e n' ⟨n, ⟨hAsked, hOpened, hPools, hAcquired⟩, rfl⟩
    exact ⟨hAsked, hOpened, congrArg (· + 1) hPools, hAcquired⟩
  refine counted_bind hPhase (fun e _ => meets_onLive fun s hs => ?_)
    fun e g _ hExcepted s hs => ⟨hExcepted, hs.mono (fun _ _ h => h) fun _ h => (hPool h).isSingle⟩
  exact (hs.mono (fun _ _ h => h) fun _ h => hPool h).of_eq rfl rfl rfl rfl hs.tunnels rfl

/-- A pool is tried out. -/
theorem going_executeOn (pool : Nat) (sql : String) (isTunneled : Bool) :
    Meets (amongClients thread phase)
      (Underway start thread phase k Y (Tally.HasPool isTunneled)) (executeOn pool sql)
      (Going start thread phase k Y (Tally.IsSingle isTunneled)) := by
  have hAcquired : ∀ {e : Encounter} {n' : Tally},
      (∃ n, Tally.HasPool isTunneled n ∧ n' = n.count (.acquire pool, e)) →
      Tally.IsSingle isTunneled n' := by
    rintro e n' ⟨n, ⟨hAsked, hOpened, hPools, hAcquired⟩, rfl⟩
    refine ⟨hAsked, hOpened.le, ?_, ?_⟩
    · show n.pools = _
      rw [hPools]
      cases isTunneled with
      | true => exact hOpened.symm
      | false => rfl
    · show n.acquired + 1 ≤ n.pools
      rw [hPools, hAcquired]
  have hAcquire : Meets (amongClients thread phase)
      (Underway start thread phase k Y (Tally.HasPool isTunneled)) (acquire pool)
      (Going start thread phase k Y (Tally.IsSingle isTunneled)) := by
    refine counted_bind hPhase (fun e _ => meets_onLive fun s hs => ?_)
      fun e g _ hExcepted s hs =>
        (hs.mono (fun _ _ h => h) fun _ h => hAcquired h).going_error hExcepted
    exact ⟨nofun, (hs.mono (fun _ _ h => h) fun _ h => hAcquired h).of_eq rfl rfl rfl rfl
      hs.tunnels hs.also⟩
  refine going_bind hAcquire (fun connection => ?_) fun e s hf hs => hs.going_error hf
  have hExecute : Meets (amongClients thread phase)
      (Underway start thread phase k Y (Tally.IsSingle isTunneled)) (execute connection sql)
      (Going start thread phase k Y (Tally.IsSingle isTunneled)) := by
    refine going_bind (going_call hPhase fun _ _ => rfl) (fun _ => going_pure) ?_
    exact fun e s hf hs => hs.going_error hf
  refine meets_ensuring hExecute fun r => ?_
  rintro s ⟨hExcepted, hs⟩
  refine going_bind (going_call hPhase fun _ _ => rfl)
    (fun _ => meets_pure fun s hs => ⟨hExcepted, hs⟩) ?_ s hs
  exact fun e s hf hs => hs.going_error hf

/-- The number of tunnels that an attempt makes. -/
def tunnelsMade (db : Database) : Nat :=
  db.settings.tunnel.isEnabled.toNat

/-- Setting up ends with a pool, or with an exception. -/
theorem going_setUp :
    Meets (amongClients thread phase)
      (Underway start thread phase k (fun _ _ => True) (· = {})) (setUp db) fun r s =>
        match r with
        | .ok pool => Underway start thread phase (k + tunnelsMade db) (Holds pool)
            (Tally.IsSingle db.settings.tunnel.isEnabled) s
        | .error f => Excepted start f ∧
          Underway start thread phase (k + tunnelsMade db) (fun _ _ => True)
            (Tally.IsSingle db.settings.tunnel.isEnabled) s := by
  have hPool : ∀ (k : Nat) (isTunneled : Bool) (localEnd : Option (String × Int)),
      Meets (amongClients thread phase)
        (Underway start thread phase k (fun _ _ => True) (Tally.IsReady isTunneled))
        (do
          let pool ← setUpPool db.settings localEnd
          let _ ← executeOn pool trialStatement
          return pool) fun r s =>
          match r with
          | .ok pool => Underway start thread phase k (Holds pool) (Tally.IsSingle isTunneled) s
          | .error f => Excepted start f ∧
            Underway start thread phase k (fun _ _ => True) (Tally.IsSingle isTunneled) s := by
    intro k isTunneled localEnd
    refine meets_bind (going_setUpPool hPhase _ _ _) (fun pool => ?_) fun f s hs => hs
    refine going_bind (going_executeOn hPhase pool trialStatement _)
      (fun _ => meets_pure fun s hs => hs) fun f s hf hs => ⟨hf, ?_⟩
    exact hs.mono (fun _ _ _ => trivial) fun _ h => h
  unfold setUp tunnelsMade
  show Meets _ _ (if db.settings.tunnel.isEnabled = true then _ else _) _
  cases db.settings.tunnel.isEnabled with
  | true =>
    refine meets_bind (R := SetUp start thread phase (k + 1) true) ?_ (fun localEnd => ?_)
      fun f s hs => hs
    · refine meets_map (setUp_setUpTunnel hPhase) fun r s hs => ?_
      cases r <;> exact hs
    · exact hPool (k + 1) true localEnd
  | false =>
    refine (hPool k false none).mono (fun s hs => hs.mono (fun _ _ h => h) ?_) fun r s h => h
    rintro n rfl
    exact ⟨Nat.le_refl _, rfl, rfl, rfl⟩

/-! ### Taking down -/

/-- The manager has neither a pool nor a tunnel. -/
def HoldsNothing (m : Manager) (_ : List Tunnel) : Prop :=
  m.pool = none ∧ m.tunnel = none

omit hPhase in
/-- A step whose failures are dropped. -/
theorem going_quietly {P : Store → Prop} {a : Action Store Unit}
    (ha : Meets (amongClients thread phase) P a (Going start thread phase k Y W)) :
    Meets (amongClients thread phase) P (quietly a) fun r s =>
      (start.forecast.FailsOnly → r = .ok ()) ∧ Underway start thread phase k Y W s := by
  refine meets_quietly ha (fun s hs => ⟨fun _ => rfl, hs.2⟩) (fun f s hs _ => ⟨fun _ => rfl, hs.2⟩)
    fun f s hs hNot => ⟨fun hFails => ?_, hs.2⟩
  have hFailure : f.isFailure = true := hs.1 f rfl hFails
  rw [hFailure] at hNot
  cases hNot

/-- Taking down leaves nothing, unless it is ended by what is no exception. -/
def TakenDown (start : Live) (thread : Nat) (phase : Phase) (k : Nat) (W : Tally → Prop)
    (r : Result Unit) (s : Store) : Prop :=
  match r with
  | .ok _ => Underway start thread phase k HoldsNothing W s
  | .error _ => ¬ start.forecast.FailsOnly ∧ Underway start thread phase k (fun _ _ => True) W s

omit hPhase in
theorem TakenDown.of_quietly {r : Result Unit}
    (h : (start.forecast.FailsOnly → r = .ok ()) ∧
      Underway start thread phase k HoldsNothing W s) : TakenDown start thread phase k W r s := by
  cases r with
  | ok x => exact h.2
  | error e => exact ⟨fun hFails => (nomatch h.1 hFails), h.2.mono (fun _ _ _ => trivial) fun _ h => h⟩

theorem takenDown_tunnel :
    Meets (amongClients thread phase) (Underway start thread phase k (fun m _ => m.pool = none) W)
      (do
        let tunnel ← onLive fun l => (l.manager.tunnel, l.manage ({ · with tunnel := none }))
        if let some t := tunnel then
          Action.quietly (Tunnel.close t))
      (TakenDown start thread phase k W) := by
  refine meets_onLive_bind (R := fun _ => Underway start thread phase k HoldsNothing W)
    (fun s hs => hs.of_eq rfl rfl rfl rfl hs.tunnels ⟨hs.also, rfl⟩) fun tunnel => ?_
  cases tunnel with
  | none => exact meets_pure fun s hs => hs
  | some t =>
    exact (going_quietly (going_closeTunnel (Z := fun m => m.pool = none ∧ m.tunnel = none)
      hPhase t)).mono (fun s hs => hs) fun r s hs => .of_quietly hs

theorem takenDown_takeDown :
    Meets (amongClients thread phase) (Underway start thread phase k (fun _ _ => True) W) takeDown
      (TakenDown start thread phase k W) := by
  refine meets_onLive_bind
    (R := fun _ => Underway start thread phase k (fun m _ => m.pool = none) W)
    (fun s hs => hs.of_eq rfl rfl rfl rfl hs.tunnels rfl) fun pool => ?_
  cases pool with
  | none => exact takenDown_tunnel hPhase
  | some pool =>
    refine meets_bind (going_quietly (Y := fun m _ => m.pool = none) (W := W) (k := k) ?_)
      (fun _ => (takenDown_tunnel hPhase).mono (fun s hs => hs.2) fun r s h => h) fun e s hs => ?_
    · refine going_bind (going_call hPhase fun _ _ => rfl) (fun _ => ?_)
        fun e s hf hs => hs.going_error hf
      refine going_bind (going_call hPhase fun _ _ => rfl) (fun _ => going_pure) ?_
      exact fun e s hf hs => hs.going_error hf
    · exact ⟨fun hFails => (by cases hs.1 hFails), hs.2.mono (fun _ _ _ => trivial) fun _ h => h⟩

end

/-! ### Whole transitions -/

/-- An attempt to connect has ended: the manager is connected, with the pool that is the outcome,
or, if all that is forecast to fail fails with exceptions, it is disconnected, with nothing, and
the outcome is a fault of the connection. -/
structure Attempted (db : Database) (start : Live) (outcome : Result Value) (s : Store) : Prop where
  settled : s.live.manager.pending = none
  tunnels : s.live.tunnels.length = start.tunnels.length + tunnelsMade db
  tallied : ∃ calls, s.live.log = start.log ++ calls ∧
    (tally (start.forecast.encounters calls)).IsSingle db.settings.tunnel.isEnabled
  ended : (∃ pool, outcome = .ok (.pool pool) ∧ s.live.manager.phase = .connected ∧
      s.live.manager.pool = some pool) ∨
    ∃ f, outcome = .error f ∧ (start.forecast.FailsOnly → f.isConnection = true ∧
      s.live.manager.phase = .disconnected ∧ s.live.manager.pool = none ∧
      s.live.manager.tunnel = none)

section

variable {start : Live} {thread k : Nat} {phase : Phase} {W : Tally → Prop} {db : Database}

theorem isConnection_connectionFault {f : Fault} (h : f.isFailure = true) :
    (connectionFault f).isConnection = true := by
  unfold connectionFault
  split
  · rename_i hOr
    rw [h, Bool.not_true, Bool.false_or] at hOr
    exact hOr
  · rfl

/-- An attempt to connect.  Its last step settles the transition, whatever comes before it. -/
theorem attempted_establish :
    Meets (amongClients thread .connecting)
      (Underway start thread .connecting start.tunnels.length (fun _ _ => True) (· = {}))
      (establish db) (Attempted db start) := by
  have hPhase : Phase.connecting ≠ .connected := nofun
  refine meets_ensuring
    (R := fun r s => Attempted db start r (s.onManager ({ · with pending := none })))
    ?_ fun r => meets_change fun s hs => ?_
  · refine meets_outcome_bind (going_setUp hPhase) fun r => ?_
    cases r with
    | ok pool =>
      refine meets_change_bind (R := fun s => Attempted db start (.ok (.pool pool))
        (s.onManager ({ · with pending := none }))) (fun s hs => ?_) (meets_pure fun s hs => hs)
      obtain ⟨calls, hLog, -, hTally⟩ := hs.tallied
      exact ⟨rfl, hs.tunnels, ⟨calls, hLog, hTally⟩, .inl ⟨pool, rfl, rfl, hs.also⟩⟩
    | error f =>
      show Meets _ _ (takeDown >>= fun _ => _) _
      rintro s ⟨hExcepted, hs⟩
      refine meets_bind (takenDown_takeDown hPhase) (fun _ => ?_) (fun e s hs => ?_) s hs
      · refine meets_change_bind (R := fun s => Attempted db start (.error (connectionFault f))
          (s.onManager ({ · with pending := none }))) (fun s hs => ?_) (meets_throw fun s hs => hs)
        obtain ⟨calls, hLog, -, hTally⟩ := hs.tallied
        exact ⟨rfl, hs.tunnels, ⟨calls, hLog, hTally⟩, .inr ⟨_, rfl, fun hFails =>
          ⟨isConnection_connectionFault (hExcepted hFails), rfl, hs.also.1, hs.also.2⟩⟩⟩
      · obtain ⟨hNot, hs⟩ := hs
        obtain ⟨calls, hLog, -, hTally⟩ := hs.tallied
        exact ⟨rfl, hs.tunnels, ⟨calls, hLog, hTally⟩, .inr ⟨e, rfl, fun hFails =>
          absurd hFails hNot⟩⟩
  · cases r <;> exact hs

/-- Closing ends with no transition pending. -/
theorem settled_close (hPhase : phase ≠ .connected) :
    Meets (amongClients thread phase) (Underway start thread phase k (fun _ _ => True) W) close
      fun _ s => s.live.manager.pending = none := by
  refine meets_bind (R := fun _ s => s.live.manager.pending = none) ?_
    (fun _ => meets_pure fun s hs => hs) fun e s hs => hs
  refine meets_ensuring (takenDown_takeDown hPhase) fun r => ?_
  exact meets_change_bind (R := fun _ => True) (fun s hs => trivial) (meets_change fun s hs => rfl)

end

end Manager

end SqlWeave
