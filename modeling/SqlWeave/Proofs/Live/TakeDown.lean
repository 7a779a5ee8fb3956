import SqlWeave.Live.Manager
import SqlWeave.Proofs.Live.Books
import SqlWeave.Proofs.Live.Contract

/-!
# Taking down a connection

A transition runs alone: nothing changes the store while it waits, since callers only
begin a transition when none is pending.  While it waits it keeps the books, stays pending,
and leaves the phase alone.  It may be cancelled while it waits, unless that does harm: a
transition that waits for something to be closed does not come back to the rest of what it has
to take down, and after a connecting that failed it does not come to enter a phase either.

Taking down gives up the pool and then the tunnel, and drops what fails on the way.

## Main results

* `Manager.meets_closeTunnel`: closing a tunnel while no pool is held keeps the books.
* `Manager.meets_takeDown`: taking down leaves neither a pool nor a tunnel, whatever fails.
-/

namespace SqlWeave

open SqlWeave.Action

/-- The cancelling of the transition that waits here does harm.  It waits for the end of the
pool, with a tunnel to be taken down behind it or a phase to be entered; or for the end of the
tunnel that a manager had, which is the newest and which listened, with a phase to be entered. -/
def Live.IsPerilous (l : Live) : Prop :=
  match l.log.getLast? with
  | some (.poolWaitClosed _) => l.manager.phase = .connecting ∨ l.manager.tunnel.isSome = true
  | some (.listenerWaitClosed t) => l.manager.phase = .connecting ∧ t + 1 = l.tunnels.length
  | some (.sshWaitClosed t) =>
    l.manager.phase = .connecting ∧ t + 1 = l.tunnels.length ∧ .listenerClose t ∈ l.log
  | _ => False

namespace Manager

/-- The contract of a transition that a thread carries out: nothing else happens, and it is
cancelled only where that does no harm. -/
def alone (db : Database) (thread : Nat) (phase : Phase) : Contract Store where
  rests s := s.live.Books db ∧ s.live.manager.pending = some thread ∧
    s.live.manager.phase = phase
  rely s s' := s' = s
  comes s r := r = .ok .null ∨ r = .error .cancelled ∧ ¬ s.live.IsPerilous

/-- The books are kept, and something else holds of the live backend. -/
def Kept (db : Database) (X : Live → Prop) (s : Store) : Prop :=
  s.live.Books db ∧ X s.live

/-- What only depends on the manager, on how many tunnels there are and on what happened to
them. -/
def Steady (X : Live → Prop) : Prop :=
  ∀ l l' : Live, l'.manager = l.manager → l'.tunnels.length = l.tunnels.length →
    closedTunnels l'.log = closedTunnels l.log → openedTunnels l'.log = openedTunnels l.log →
      X l → X l'

/-- If the outcome is a fault, it is an exception. -/
def IsExceptional {α : Type} (r : Result α) : Prop :=
  ∀ f, r = .error f → f.isFailure = true

/-- The books are kept, something else holds, and a fault is an exception unless it comes from
a cancelling that does no harm: then a third thing holds. -/
def Spared {α : Type} (db : Database) (X Y : Live → Prop) (r : Result α) (s : Store) : Prop :=
  Kept db X s ∧ (IsExceptional r ∨ Y s.live)

theorem IsExceptional.cast {α β : Type} {f : Fault} (h : IsExceptional (α := α) (.error f)) :
    IsExceptional (α := β) (.error f) := by
  intro g hg
  cases hg
  exact h f rfl

theorem meets_bind_spared {α β : Type} {c : Contract Store} {db : Database}
    {P : Store → Prop} {X X' Y : Live → Prop} {a : Action Store α} {f : α → Action Store β}
    (ha : Meets c P a (Spared db X Y))
    (hf : ∀ x, Meets c (Kept db X) (f x) (Spared db X' Y)) (hX : ∀ l, X l → X' l) :
    Meets c P (a >>= f) (Spared db X' Y) := by
  refine meets_bind ha (fun x => (hf x).mono (fun s hs => hs.1) fun r s h => h) ?_
  intro e s hs
  exact ⟨⟨hs.1.1, hX s.live hs.1.2⟩, hs.2.imp_left IsExceptional.cast⟩

/-- The books are kept, and something else holds; something more holds if all went well. -/
def KeptOnSuccess {α : Type} (db : Database) (X Y : Live → Prop) (r : Result α) : Store → Prop :=
  Kept db fun l => X l ∧ (r.isOk = true → Y l)

theorem meets_bind_success {α β : Type} {c : Contract Store} {db : Database} {P : Store → Prop}
    {X Y Z : Live → Prop} {a : Action Store α} {f : α → Action Store β}
    (ha : Meets c P a (KeptOnSuccess db X Y))
    (hf : ∀ x, Meets c (Kept db fun l => X l ∧ Y l) (f x) (KeptOnSuccess db X Z)) :
    Meets c P (a >>= f) (KeptOnSuccess db X Z) := by
  refine meets_bind ha (fun x => (hf x).mono (fun s hs => ?_) fun r s h => h) fun e s hs => ?_
  · exact ⟨hs.1, hs.2.1, hs.2.2 rfl⟩
  · exact ⟨hs.1, hs.2.1, nofun⟩

/-- What is kept in any case is kept on success. -/
theorem meets_success_of_kept {α : Type} {c : Contract Store} {db : Database} {P : Store → Prop}
    {X Y : Live → Prop} {a : Action Store α}
    (ha : Meets c P a fun _ => Kept db fun l => X l ∧ Y l) :
    Meets c P a (KeptOnSuccess db X Y) :=
  ha.mono (fun _ hs => hs) fun _ _ hs => ⟨hs.1, hs.2.1, fun _ => hs.2.2⟩

section Calls

variable (db : Database) {thread : Nat} {phase : Phase} {X X' Y : Live → Prop} {c : Call}

/-- A call that leaves the books in order once it is noted. -/
theorem meets_call_of_noted
    (hRests : ∀ l, X l → l.manager.pending = some thread ∧ l.manager.phase = phase) :
    Meets (alone db thread phase) (fun s => Kept db X (s.onLive (Live.note c))) (call c)
      fun _ => Kept db X := by
  refine meets_call (Kept db X) (fun s hs => hs)
    (fun s hs => ⟨hs.1, hRests s.live hs.2⟩) ?_ (fun f s _ hs _ => hs) fun s s' _ hs' => hs'
  rintro s s' hs rfl
  exact hs

/-- A call that closes something, or waits until it is closed. -/
theorem meets_call_of_closing (hClosing : c.kind.isClosing = true)
    (hRests : ∀ l, X l → l.manager.pending = some thread ∧ l.manager.phase = phase)
    (hSpared : ∀ l, X l → l.log.getLast? = some c → c.kind.isImmediate = false →
      ¬ l.IsPerilous → Y l) :
    Meets (alone db thread phase)
      (fun s => Kept db X (s.onLive (Live.note c)) ∧ s.live.forecast.ClosingFailsOnly) (call c)
      (Spared db X Y) := by
  refine meets_call (fun s => Kept db X s ∧ s.live.log.getLast? = some c)
    (fun s hs => ⟨hs.1, List.getLast?_concat⟩) (fun s hs => ⟨hs.1.1, hRests s.live hs.1.2⟩)
    ?_ ?_ ?_
  · rintro s s' hs rfl
    exact hs
  · rintro f s hTime ⟨hKept, hLast⟩ hComes
    rcases hComes with hOk | ⟨-, hHarmless⟩
    · cases hOk
    · exact ⟨hKept, .inr (hSpared s.live hKept.2 hLast hTime hHarmless)⟩
  · exact fun s s' hs hs' => ⟨hs'.1, .inl fun f hf => hs.2.next hClosing hf⟩

/-- A call that neither uses nor closes a pool. -/
theorem meets_call_of_note (hUsed : c.poolUsed = none) (hClosed : c.poolClosed = none)
    (hAsks : c.kind ≠ .createPool)
    (hOpened : c.tunnelOpened.isSome = true → db.settings.tunnel.isEnabled = true)
    (hTunnel : ∀ l, X l → ∀ tunnel, c.tunnelClosed = some tunnel →
      tunnel < l.tunnels.length ∧ l.manager.pool = none)
    (hX : ∀ l, X l → X' (l.note c))
    (hRests : ∀ l, X' l → l.manager.pending = some thread ∧ l.manager.phase = phase) :
    Meets (alone db thread phase) (Kept db X) (call c) fun _ => Kept db X' := by
  refine (meets_call_of_noted db hRests).mono (fun s hs => ?_) fun r s h => h
  exact ⟨hs.1.note hUsed hClosed (absurd · hAsks) hOpened (hTunnel s.live hs.2), hX s.live hs.2⟩

/-- A call that has nothing to do with the books leaves alone what is steady. -/
theorem Steady.note (hX : Steady X) (hOpened : c.tunnelOpened = none)
    (hTunnel : c.tunnelClosed = none) {l : Live} (h : X l) : X (l.note c) := by
  refine hX l (l.note c) rfl rfl ?_ ?_ h
  · exact (closedTunnels_snoc l.log c).trans (by rw [hTunnel]; exact List.append_nil _)
  · exact (openedTunnels_snoc l.log c).trans (by rw [hOpened]; exact List.append_nil _)

/-- A call that has nothing to do with the books. -/
theorem meets_call_of_neutral (hUsed : c.poolUsed = none) (hClosed : c.poolClosed = none)
    (hAsks : c.kind ≠ .createPool) (hOpened : c.tunnelOpened = none)
    (hTunnel : c.tunnelClosed = none) (hX : Steady X)
    (hRests : ∀ l, X l → l.manager.pending = some thread ∧ l.manager.phase = phase) :
    Meets (alone db thread phase) (Kept db X) (call c) fun _ => Kept db X :=
  meets_call_of_note db hUsed hClosed hAsks (by simp [hOpened]) (by simp [hTunnel])
    (fun _ => hX.note hOpened hTunnel) hRests

variable {db} in
/-- A change that the books do not see. -/
theorem kept_of_change {l l' : Live} (hX : Steady X) (hManager : l'.manager = l.manager)
    (hTunnels : l'.tunnels = l.tunnels) (hLog : l'.log = l.log) (hPools : l'.pools = l.pools)
    (hForecast : l'.forecast = l.forecast) (h : l.Books db ∧ X l) : l'.Books db ∧ X l' :=
  ⟨h.1.congr hLog hPools (by rw [hManager]) (by rw [hManager]) (.inl hTunnels) hForecast,
    hX l l' hManager (by rw [hTunnels]) (by rw [hLog]) (by rw [hLog]) h.2⟩

end Calls

section Closing

variable (db : Database) {thread : Nat} {phase : Phase} {R : Manager → Prop}

/-- Something holds of the manager, and the tunnel is the newest one. -/
def Has (R : Manager → Prop) (tunnel : Nat) (l : Live) : Prop :=
  R l.manager ∧ tunnel + 1 = l.tunnels.length

theorem steady_has (tunnel : Nat) : Steady (Has R tunnel) := by
  intro l l' hManager hTunnels _ _ hl
  rw [Has, hManager, hTunnels]
  exact hl

/-- Something holds of the manager, and of the tunnel, if it was a manager's, the listener is
closed. -/
def HasClosed (R : Manager → Prop) (wasHeld : Prop) (tunnel : Nat) (l : Live) : Prop :=
  Has R tunnel l ∧ (wasHeld → .listenerClose tunnel ∈ l.log)

variable {Y : Live → Prop} (wasHeld : Prop)

variable {wasHeld} in
theorem HasClosed.note {tunnel : Nat} {l : Live} (h : HasClosed R wasHeld tunnel l) (c : Call) :
    HasClosed R wasHeld tunnel (l.note c) :=
  ⟨h.1, fun hHeld => List.mem_append_left _ (h.2 hHeld)⟩

/-- A call behind the closing of the listener with which a tunnel is closed further. -/
theorem meets_call_of_tunnelClosed (tunnel : Nat) {c : Call} (hClosing : c.kind.isClosing = true)
    (hUsed : c.poolUsed = none) (hClosed : c.poolClosed = none) (hOpened : c.tunnelOpened = none)
    (hTunnel : c.tunnelClosed = none ∨ c.tunnelClosed = some tunnel)
    (hR : ∀ m, R m → m.pending = some thread ∧ m.phase = phase ∧ m.pool = none)
    (hSpared : ∀ l, HasClosed R wasHeld tunnel l → l.log.getLast? = some c →
      c.kind.isImmediate = false → ¬ l.IsPerilous → Y l) :
    Meets (alone db thread phase) (Kept db (HasClosed R wasHeld tunnel)) (call c)
      (Spared db (HasClosed R wasHeld tunnel) Y) := by
  have hCall := meets_call_of_closing db hClosing
    (fun l hl => ⟨(hR l.manager hl.1.1).1, (hR l.manager hl.1.1).2.1⟩) hSpared
  refine hCall.mono (fun s hs => ⟨⟨?_, hs.2.note c⟩, hs.1.fails⟩) fun r s h => h
  have hAsks : c.kind ≠ .createPool := by
    intro hKind
    rw [hKind] at hClosing
    cases hClosing
  refine hs.1.note hUsed hClosed (absurd · hAsks) (by simp [hOpened]) fun other hOther => ?_
  have hEq : tunnel = other := by
    rcases hTunnel with hNone | hSome
    · simp [hNone] at hOther
    · simpa [hSome] using hOther
  have hNewest := hs.2.1.2
  exact ⟨by omega, (hR s.live.manager hs.2.1.1).2.2⟩

/-- The tunnel can be closed: once it counts as closed, and the closing of a listener that is
open is noted, the books are kept. -/
def CanClose (db : Database) (R : Manager → Prop) (wasHeld : Prop) (tunnel : Nat) (s : Store) :
    Prop :=
  let closed (l : Live) : Live :=
    l.setTunnel tunnel ({ · with hasConnection := false, listener := none })
  if (s.live.tunnel tunnel).listener.isSome then
    Kept db (HasClosed R wasHeld tunnel) (s.onLive fun l => (closed l).note (.listenerClose tunnel))
      ∧ s.live.forecast.ClosingFailsOnly
  else Kept db (HasClosed R wasHeld tunnel) (s.onLive closed)

/-- Closing a tunnel while no pool is held. -/
theorem meets_closeTunnel (tunnel : Nat)
    (hR : ∀ m, R m → m.pending = some thread ∧ m.phase = phase ∧ m.pool = none)
    (hSpared : wasHeld ∧ phase ≠ .connecting ∨ ¬ wasHeld → ∀ l, Y l) :
    Meets (alone db thread phase) (CanClose db R wasHeld tunnel) (Tunnel.close tunnel)
      (Spared db (Has R tunnel) Y) := by
  have hHarmless : ∀ l, HasClosed R wasHeld tunnel l → (l.manager.phase = .connecting →
      wasHeld → l.IsPerilous) → ¬ l.IsPerilous → Y l := by
    intro l hl hPeril hNot
    refine hSpared ?_ l
    by_cases hHeld : wasHeld
    · refine .inl ⟨hHeld, fun hPhase => hNot (hPeril ?_ hHeld)⟩
      rw [(hR l.manager hl.1.1).2.1, hPhase]
    · exact .inr hHeld
  have hConnection : ∀ opened : Tunnel, Meets (alone db thread phase)
      (Kept db (HasClosed R wasHeld tunnel))
      (if opened.hasConnection = true then do
        let _ ← call (.sshClose tunnel)
        let _ ← call (.sshWaitClosed tunnel)
        pure ()
      else pure ()) (Spared db (Has R tunnel) Y) := by
    intro opened
    have hDone : Meets (alone db thread phase) (Kept db (HasClosed R wasHeld tunnel)) (pure ())
        (Spared db (Has R tunnel) Y) :=
      meets_pure fun s hs => ⟨⟨hs.1, hs.2.1⟩, .inl nofun⟩
    split
    · have hClose := meets_call_of_tunnelClosed db (Y := Y) wasHeld tunnel
        (c := .sshClose tunnel) rfl rfl rfl rfl (.inr rfl) hR nofun
      refine meets_bind_spared hClose (fun _ => ?_) fun l hl => hl.1
      have hWait := meets_call_of_tunnelClosed db (Y := Y) wasHeld tunnel
        (c := .sshWaitClosed tunnel) rfl rfl rfl rfl (.inl rfl) hR fun l hl hLast _ =>
          hHarmless l hl fun hPhase hHeld => by
            rw [Live.IsPerilous, hLast]
            exact ⟨hPhase, hl.1.2, hl.2 hHeld⟩
      exact meets_bind_spared hWait (fun _ => hDone) fun l hl => hl.1
    · exact hDone
  have hClose := meets_call_of_closing db (X := HasClosed R wasHeld tunnel) (Y := Y)
    (c := .listenerClose tunnel) rfl
    (fun l hl => ⟨(hR l.manager hl.1.1).1, (hR l.manager hl.1.1).2.1⟩) nofun
  have hWait := meets_call_of_tunnelClosed db (Y := Y) wasHeld tunnel
    (c := .listenerWaitClosed tunnel) rfl rfl rfl rfl (.inl rfl) hR fun l hl hLast _ =>
      hHarmless l hl fun hPhase _ => by
        rw [Live.IsPerilous, hLast]
        exact ⟨hPhase, hl.1.2⟩
  unfold Tunnel.close
  refine meets_onLive_bind
    (R := fun (opened : Tunnel) s => if opened.listener.isSome = true then
        Kept db (HasClosed R wasHeld tunnel) (s.onLive (Live.note (.listenerClose tunnel))) ∧
          s.live.forecast.ClosingFailsOnly
      else Kept db (HasClosed R wasHeld tunnel) s)
    (fun s hs => hs) fun opened => ?_
  show Meets _ _ (if opened.listener.isSome = true then _ else _) _
  split
  · refine meets_bind_spared hClose (fun _ => ?_) fun l hl => hl.1
    exact meets_bind_spared hWait (fun _ => hConnection opened) fun l hl => hl.1
  · exact hConnection opened

variable {db} in
/-- An action of which only exceptions come drops them all. -/
theorem meets_quietly_of_spared {c : Contract Store} {P : Store → Prop} {X Y : Live → Prop}
    {a : Action Store Unit} (ha : Meets c P a (Spared db X Y)) :
    Meets c P (Action.quietly a) fun r s => Kept db X s ∧ (r = .ok () ∨ Y s.live) := by
  refine meets_quietly ha (fun s hs => ⟨hs.1, .inl rfl⟩) (fun f s hs _ => ⟨hs.1, .inl rfl⟩) ?_
  intro f s hs hf
  exact ⟨hs.1, .inr (hs.2.resolve_left fun hOnly => absurd (hOnly f rfl) (by simp [hf]))⟩

/-- Closing the tunnel that the manager gives up. -/
theorem meets_takeDown_tunnel
    (hR : ∀ m, R m → m.pending = some thread ∧ m.phase = phase ∧ m.pool = none)
    (hGiven : ∀ m, R m → R { m with tunnel := none }) :
    Meets (alone db thread phase) (Kept db fun l => R l.manager)
      (do
        let tunnel ← onLive fun l => (l.manager.tunnel, l.manage ({ · with tunnel := none }))
        if let some t := tunnel then
          Action.quietly (Tunnel.close t))
      fun r s => Kept db (fun l => R l.manager ∧ l.manager.tunnel = none) s ∧
        (r = .ok () ∨ phase ≠ .connecting) := by
  let R' (m : Manager) : Prop := R m ∧ m.tunnel = none
  have hR' : ∀ m, R' m → m.pending = some thread ∧ m.phase = phase ∧ m.pool = none :=
    fun m hm => hR m hm.1
  refine meets_onLive_bind
    (R := fun tunnel s => match tunnel with
      | none => Kept db (fun l => R' l.manager) s
      | some t => CanClose db R' True t s)
    (fun s hs => ?_) fun tunnel => ?_
  · cases hTunnel : s.live.manager.tunnel with
    | none =>
      have hSame : s.live.Books db := hs.1
      exact ⟨hSame.congr rfl rfl rfl hTunnel.symm (.inl rfl) rfl, hGiven _ hs.2, rfl⟩
    | some t =>
      have hListens : ((s.live.manage ({ · with tunnel := none })).tunnel t).listener.isSome = true :=
        hs.1.held_listens t hTunnel
      show CanClose db R' True t _
      rw [CanClose, if_pos hListens]
      refine ⟨⟨hs.1.closeListener (hR _ hs.2).2.2 hTunnel _, ⟨⟨hGiven _ hs.2, rfl⟩, ?_⟩, ?_⟩,
        hs.1.fails⟩
      · exact (hs.1.held_newest t hTunnel).trans (List.length_modify ..).symm
      · exact fun _ => List.mem_append_right _ (List.mem_singleton_self _)
  · cases tunnel with
    | none => exact meets_pure fun s hs => ⟨hs, .inl rfl⟩
    | some t =>
      have hClose := meets_closeTunnel db (R := R') (Y := fun _ => phase ≠ .connecting) True t hR'
        fun h _ => (h.resolve_right (· trivial)).2
      refine (meets_quietly_of_spared hClose).mono (fun s hs => hs) fun r s hs => ?_
      exact ⟨⟨hs.1.1, hs.1.2.1⟩, hs.2⟩

theorem steady_manager : Steady fun l => R l.manager := by
  intro l l' hManager _ _ _ hl
  rw [hManager]
  exact hl

/-- Closing the pool that the manager has given up. -/
theorem meets_closePool (pool : Nat)
    (hR : ∀ m, R m → m.pending = some thread ∧ m.phase = phase ∧ m.pool = none) :
    Meets (alone db thread phase)
      (fun s => Kept db (fun l => R l.manager) (s.onLive (Live.note (.poolClose pool))) ∧
        s.live.forecast.ClosingFailsOnly)
      (Action.quietly do
        let _ ← call (.poolClose pool)
        let _ ← call (.poolWaitClosed pool))
      fun r s => Kept db (fun l => R l.manager) s ∧
        (r = .ok () ∨ phase ≠ .connecting ∧ s.live.manager.tunnel = none) := by
  let Harmless (l : Live) : Prop := phase ≠ .connecting ∧ l.manager.tunnel = none
  have hRests : ∀ l : Live, R l.manager →
      l.manager.pending = some thread ∧ l.manager.phase = phase :=
    fun l hl => ⟨(hR _ hl).1, (hR _ hl).2.1⟩
  have hClose := meets_call_of_closing db (X := fun l => R l.manager) (Y := Harmless)
    (c := .poolClose pool) rfl hRests nofun
  have hWait : Meets (alone db thread phase) (Kept db fun l => R l.manager)
      (call (.poolWaitClosed pool)) (Spared db (fun l => R l.manager) Harmless) := by
    refine (meets_call_of_closing db rfl hRests fun l hl hLast _ hNot => ?_).mono
      (fun s hs => ⟨⟨?_, hs.2⟩, hs.1.fails⟩) fun r s h => h
    · rw [Live.IsPerilous, hLast, not_or, Bool.not_eq_true, Option.isSome_eq_false_iff,
        Option.isNone_iff_eq_none, (hR _ hl).2.1] at hNot
      exact hNot
    · exact hs.1.note rfl rfl nofun nofun nofun
  refine meets_quietly_of_spared (Y := Harmless) ?_
  refine meets_bind_spared hClose (fun _ => ?_) fun l hl => hl
  exact meets_bind_spared hWait (fun _ => meets_pure fun s hs => ⟨hs, .inl nofun⟩) fun l hl => hl

variable (thread phase) in
/-- Taking down leaves neither a pool nor a tunnel, and drops whatever fails.  It ends well
unless it is cancelled, which it is not while connecting. -/
theorem meets_takeDown :
    Meets (alone db thread phase)
      (Kept db fun l => l.manager.pending = some thread ∧ l.manager.phase = phase) takeDown
      fun r s => Kept db (fun l => (l.manager.pending = some thread ∧ l.manager.phase = phase ∧
        l.manager.pool = none) ∧ l.manager.tunnel = none) s ∧
          (r = .ok () ∨ phase ≠ .connecting) := by
  let R (m : Manager) : Prop := m.pending = some thread ∧ m.phase = phase ∧ m.pool = none
  have hTunnel := meets_takeDown_tunnel db (R := R) (fun m hm => hm) fun m hm => hm
  unfold takeDown
  refine meets_onLive_bind
    (R := fun pool s => match pool with
      | none => Kept db (fun l => R l.manager) s
      | some k => Kept db (fun l => R l.manager) (s.onLive (Live.note (.poolClose k))) ∧
        s.live.forecast.ClosingFailsOnly)
    (fun s hs => ?_) fun pool => ?_
  · cases hPool : s.live.manager.pool with
    | none =>
      refine ⟨?_, hs.2.1, hs.2.2, rfl⟩
      exact hs.1.congr rfl rfl hPool.symm rfl (.inl rfl) rfl
    | some k => exact ⟨⟨hs.1.closePool hPool, hs.2.1, hs.2.2, rfl⟩, hs.1.fails⟩
  · cases pool with
    | none => exact hTunnel
    | some k =>
      refine meets_bind (meets_closePool db k fun m hm => hm) (fun _ => ?_) fun f s hs => ?_
      · exact hTunnel.mono (fun s hs => hs.1) fun r s h => h
      · have hHarmless := hs.2.resolve_left nofun
        exact ⟨⟨hs.1.1, hs.1.2, hHarmless.2⟩, .inr hHarmless.1⟩

end Closing

end Manager

end SqlWeave
