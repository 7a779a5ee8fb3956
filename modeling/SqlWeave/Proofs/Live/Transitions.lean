import SqlWeave.Proofs.Live.TakeDown

/-!
# Transitions of the connection manager

Establishing opens a tunnel if there is to be one, makes a pool and tries it out; whatever
fails, it takes down again.  Closing takes down.  Either way a transition ends settled:
connected with a pool, or disconnected with nothing.

## Main results

* `Manager.meets_setUp`: setting up ends with a pool, or with a fault.
* `Manager.meets_establish`, `Manager.meets_close`: how the transitions end.
-/

namespace SqlWeave

open SqlWeave.Action

namespace Manager

variable {db : Database} {thread : Nat} {phase : Phase} {X : Live → Prop}

theorem meets_wait_of_steady {on : Awaited} (hOn : ∀ goal, on ≠ .goal goal)
    (hRests : ∀ l, X l → l.manager.pending = some thread ∧ l.manager.phase = phase) :
    Meets (alone db thread phase) (Kept db X) (Action.wait on) fun _ => Kept db X := by
  refine meets_wait hOn (fun s hs => ⟨hs.1, hRests s.live hs.2⟩) ?_
  rintro s s' r hs rfl -
  exact hs

theorem meets_privateKey
    (hRests : ∀ l, X l → l.manager.pending = some thread ∧ l.manager.phase = phase) :
    Meets (alone db thread phase) (Kept db X) (Tunnel.privateKey db) fun _ => Kept db X := by
  unfold Tunnel.privateKey
  split
  · exact meets_pure fun s hs => hs
  · refine meets_bind (meets_wait_of_steady (fun _ => nofun) hRests) (fun _ => ?_)
      fun e s hs => hs
    refine meets_bind (R := fun _ => Kept db X) (meets_ofResult fun s hs => hs) (fun _ => ?_)
      fun e s hs => hs
    exact meets_pure fun s hs => hs
  · exact meets_pure fun s hs => hs

theorem meets_clientOptions (hX : Steady X)
    (hRests : ∀ l, X l → l.manager.pending = some thread ∧ l.manager.phase = phase) :
    Meets (alone db thread phase) (Kept db X) (Tunnel.clientOptions db) fun _ => Kept db X := by
  refine meets_bind (meets_privateKey hRests) (fun key => ?_) fun e s hs => hs
  cases key with
  | none => exact meets_pure fun s hs => hs
  | some key =>
    have hImport := meets_call_of_neutral db (X := X)
      (c := .importKey key db.settings.tunnel.ssh.passphrase) rfl rfl nofun rfl rfl hX hRests
    refine meets_bind hImport (fun _ => ?_) fun e s hs => hs
    exact meets_pure fun s hs => hs

/-- The tunnel is the last one that was made to listen. -/
def IsLast (tunnel : Nat) (l : Live) : Prop :=
  (openedTunnels l.log).getLast? = some tunnel

/-- The tunnel was not closed. -/
def IsNotClosed (tunnel : Nat) (l : Live) : Prop :=
  tunnel ∉ closedTunnels l.log

/-- The manager is in a transition. -/
def IsInTransition (thread : Nat) (phase : Phase) (m : Manager) : Prop :=
  m.pending = some thread ∧ m.phase = phase

/-- The manager is in a transition and has no pool. -/
def HasNoPool (thread : Nat) (phase : Phase) (m : Manager) : Prop :=
  m.pending = some thread ∧ m.phase = phase ∧ m.pool = none

/-- The manager is in a transition and has neither a pool nor a tunnel. -/
def HasNothing (thread : Nat) (phase : Phase) (m : Manager) : Prop :=
  HasNoPool thread phase m ∧ m.tunnel = none

/-- The manager is in a transition and has a pool. -/
def HasPool (thread : Nat) (phase : Phase) (pool : Nat) (m : Manager) : Prop :=
  (m.pending = some thread ∧ m.phase = phase) ∧ m.pool = some pool

/-- The tunnel is the last one that was made to listen; it listens, and was not closed. -/
structure IsUp (tunnel : Nat) (l : Live) : Prop where
  open_ : IsNotClosed tunnel l
  last : IsLast tunnel l
  listens : (l.tunnel tunnel).listener.isSome = true

/-- A tunnel that is the newest listens when it is made to. -/
theorem listens_setTunnel {tunnel : Nat} {l : Live} (h : tunnel + 1 = l.tunnels.length)
    (port : Int) :
    ((l.setTunnel tunnel ({ · with listener := some port })).tunnel tunnel).listener.isSome = true := by
  have hLt : tunnel < l.tunnels.length := by omega
  rw [Live.tunnel, Live.setTunnel, List.getElem?_modify_eq, List.getElem?_eq_getElem hLt]
  rfl

/-- A change of the tunnels while none is held. -/
theorem kept_setTunnel (tunnel : Nat) {l : Live} (f : Tunnel → Tunnel)
    (hNone : l.manager.tunnel = none) (hX : Steady X) (h : l.Books db ∧ X l) :
    (l.setTunnel tunnel f).Books db ∧ X (l.setTunnel tunnel f) := by
  have hLength : (l.setTunnel tunnel f).tunnels.length = l.tunnels.length := List.length_modify ..
  exact ⟨h.1.congr rfl rfl rfl rfl (.inr ⟨hNone, Nat.le_of_eq hLength.symm⟩) rfl,
    hX l _ rfl hLength rfl rfl h.2⟩

variable (thread phase) in
/-- Opening a tunnel that was not closed. -/
theorem meets_setUpListener (tunnel : Nat) (hEnabled : db.settings.tunnel.isEnabled = true) :
    Meets (alone db thread phase)
      (Kept db fun l => Has (HasNothing thread phase) tunnel l ∧ IsNotClosed tunnel l)
      (Tunnel.setUp db tunnel)
      (KeptOnSuccess db (Has (HasNothing thread phase) tunnel) (IsUp tunnel)) := by
  let X (l : Live) : Prop := Has (HasNothing thread phase) tunnel l ∧ IsNotClosed tunnel l
  have hX : Steady X := by
    intro l l' hManager hTunnels hClosed hOpened hl
    refine ⟨steady_has tunnel l l' hManager hTunnels hClosed hOpened hl.1, ?_⟩
    rw [IsNotClosed, hClosed]
    exact hl.2
  have hRests : ∀ l, X l → l.manager.pending = some thread ∧ l.manager.phase = phase :=
    fun l hl => ⟨hl.1.1.1.1, hl.1.1.1.2.1⟩
  unfold Tunnel.setUp
  refine meets_bind_success (meets_success_of_kept (meets_clientOptions hX hRests))
    fun options => ?_
  refine meets_bind_success (meets_success_of_kept (meets_ofResult fun s hs => hs))
    fun options => ?_
  refine meets_change_bind (R := Kept db X) (fun s hs => ?_) ?_
  · exact kept_of_change (l := s.live) hX rfl rfl rfl rfl rfl hs
  have hConnect := meets_call_of_neutral db (X := X)
    (c := .sshConnect tunnel db.settings.tunnel.ssh.host db.settings.tunnel.ssh.port options)
    rfl rfl nofun rfl rfl hX hRests
  refine meets_bind_success (meets_success_of_kept hConnect) fun _ => ?_
  refine meets_change_bind (R := Kept db X) (fun s hs => kept_setTunnel tunnel _ hs.2.1.1.2 hX hs) ?_
  have hForward : Meets (alone db thread phase) (Kept db X)
      (call (.forward tunnel db.settings.tunnel.server.host db.settings.tunnel.server.port
        db.settings.tunnel.forward.address db.settings.tunnel.forward.port))
      fun _ => Kept db fun l => Has (HasNothing thread phase) tunnel l ∧
        IsNotClosed tunnel l ∧ IsLast tunnel l := by
    refine meets_call_of_note db rfl rfl nofun (fun _ => hEnabled)
      (fun l hl t hTunnel => by cases hTunnel) ?_ fun l hl => ⟨hl.1.1.1.1, hl.1.1.1.2.1⟩
    intro l hl
    refine ⟨hl.1, ?_, ?_⟩
    · show tunnel ∉ closedTunnels (l.log ++ [_])
      rw [closedTunnels_snoc]
      exact fun hMem => hl.2 (by simpa [Call.tunnelClosed] using hMem)
    · show (openedTunnels (l.log ++ [_])).getLast? = some tunnel
      rw [openedTunnels_snoc]
      exact List.getLast?_concat
  refine meets_bind_success (meets_success_of_kept hForward) fun e => ?_
  refine meets_success_of_kept (meets_change fun s hs => ?_)
  have hSet := kept_setTunnel tunnel ({ · with listener := some e.port }) hs.2.1.1.2
    (steady_has tunnel) ⟨hs.1, hs.2.1⟩
  exact ⟨hSet.1, hSet.2, hs.2.2.1, hs.2.2.2, listens_setTunnel hs.2.1.2 e.port⟩

/-- Opening a tunnel, which is closed again after some of the faults. -/
theorem meets_connectTunnel (tunnel : Nat) (hEnabled : db.settings.tunnel.isEnabled = true) :
    Meets (alone db thread phase)
      (Kept db fun l => Has (HasNothing thread phase) tunnel l ∧ IsNotClosed tunnel l)
      (Tunnel.connect db tunnel)
      (KeptOnSuccess db (Has (HasNothing thread phase) tunnel) (IsUp tunnel)) := by
  have hSetUp := meets_setUpListener thread phase tunnel hEnabled
  unfold Tunnel.connect
  refine meets_outcome_bind hSetUp fun r => ?_
  cases r with
  | ok x => exact meets_pure fun s hs => hs
  | error f =>
    show Meets _ _ (if Tunnel.isExpected f = true then _ else _) _
    split
    · have hClose := meets_closeTunnel db (Y := fun _ => True) False tunnel
        (fun m (hm : HasNothing thread phase m) => hm.1) fun _ _ => trivial
      refine meets_bind (hClose.mono (fun s hs => ?_) fun r s h => h) (fun _ => ?_) ?_
      · have hClosed := kept_setTunnel tunnel
          ({ · with hasConnection := false, listener := none }) hs.2.1.1.2 (steady_has tunnel)
          ⟨hs.1, hs.2.1⟩
        have hKept : Kept db (HasClosed (HasNothing thread phase) False tunnel) (s.onLive
            (Live.setTunnel tunnel ({ · with hasConnection := false, listener := none }))) :=
          ⟨hClosed.1, hClosed.2, by rintro ⟨⟩⟩
        rw [CanClose]
        split
        · refine ⟨⟨hKept.1.note rfl rfl (by rintro ⟨⟩) (by rintro ⟨⟩) ?_, hKept.2.note _⟩, hs.1.fails⟩
          rintro other ⟨⟩
          have hNewest := hKept.2.1.2
          exact ⟨by omega, hKept.2.1.1.1.2.2⟩
        · exact hKept
      · exact meets_throw fun s hs => ⟨hs.1.1, hs.1.2, by rintro ⟨⟩⟩
      · exact fun e s hs => ⟨hs.1.1, hs.1.2, by rintro ⟨⟩⟩
    · exact meets_throw fun s hs => ⟨hs.1, hs.2.1, by rintro ⟨⟩⟩

/-- A pool can be set up: there is a tunnel if there is to be one, the tunnel that was opened
last is not closed, and it is the manager's if the manager has one. -/
structure IsReady (db : Database) (l : Live) : Prop where
  open_ : ∀ tunnel, IsLast tunnel l → IsNotClosed tunnel l
  held : ∀ tunnel, l.manager.tunnel = some tunnel → IsLast tunnel l
  exists_ : db.settings.tunnel.isEnabled = true → ∃ tunnel, IsLast tunnel l

/-- A pool can be set up once it is asked for, which is to be done at once. -/
def CanAskForPool (db : Database) (thread : Nat) (phase : Phase) (s : Store) : Prop :=
  ∀ options, Kept db (fun l => HasNoPool thread phase l.manager ∧ IsReady db l)
    (s.onLive (Live.note (.createPool options)))

/-- The manager obtains a tunnel. -/
theorem canAskForPool_of_isUp {tunnel : Nat} {l : Live} {s : Store}
    (h : l.Books db ∧ Has (HasNothing thread phase) tunnel l ∧ IsUp tunnel l)
    (hStore : s.live = l.manage ({ · with tunnel := some tunnel })) :
    CanAskForPool db thread phase s := by
  obtain ⟨hBooks, ⟨⟨hNoPool, hNoTunnel⟩, hNewest⟩, hUp⟩ := h
  intro options
  have hLast : IsLast tunnel (s.onLive (Live.note (.createPool options))).live := by
    rw [IsLast, Store.onLive, hStore]
    show (openedTunnels (l.log ++ [_])).getLast? = _
    rw [openedTunnels_snoc]
    exact (congrArg List.getLast? (List.append_nil _)).trans hUp.last
  have hOpen : IsNotClosed tunnel (s.onLive (Live.note (.createPool options))).live := by
    rw [IsNotClosed, Store.onLive, hStore]
    show tunnel ∉ closedTunnels (l.log ++ [_])
    rw [closedTunnels_snoc]
    exact fun hMem => hUp.open_ (by simpa [Call.tunnelClosed] using hMem)
  refine ⟨?_, ?_, ?_, ?_, fun _ => ⟨tunnel, hLast⟩⟩
  · rw [Store.onLive, hStore]
    exact hBooks.obtainTunnel hNoPool.2.2 hNoTunnel hUp.last hNewest hUp.listens options
  · rw [Store.onLive, hStore]
    exact hNoPool
  · intro other hOther
    have hEq : tunnel = other := Option.some.inj (hLast.symm.trans hOther)
    exact hEq ▸ hOpen
  · intro other hHeld
    rw [Store.onLive, hStore] at hHeld
    cases hHeld
    exact hLast

/-- A pool can be asked for if there is to be no tunnel. -/
theorem canAskForPool_of_untunneled (hDisabled : ¬ db.settings.tunnel.isEnabled = true) {s : Store}
    (h : Kept db (fun l => HasNothing thread phase l.manager) s) :
    CanAskForPool db thread phase s := by
  have hNone := h.1.untunneled (by simpa using hDisabled)
  intro options
  have hBooks : (s.onLive (Live.note (.createPool options))).live.Books db := by
    refine h.1.note rfl rfl (fun _ tunnel hLast => ?_) nofun nofun
    rw [hNone] at hLast
    cases hLast
  refine ⟨hBooks, h.2.1, fun tunnel hLast => ?_, fun tunnel hHeld => ?_,
    fun hOn => absurd hOn hDisabled⟩
  · rw [IsLast, hBooks.untunneled (by simpa using hDisabled)] at hLast
    cases hLast
  · cases h.2.2.symm.trans hHeld

theorem meets_setUpTunnel (hEnabled : db.settings.tunnel.isEnabled = true) :
    Meets (alone db thread phase) (Kept db fun l => HasNothing thread phase l.manager)
      (setUpTunnel db) fun r s =>
        match r with
        | .ok _ => CanAskForPool db thread phase s
        | .error _ => Kept db (fun l => HasNoPool thread phase l.manager) s := by
  unfold setUpTunnel Tunnel.create
  refine meets_onLive_bind
    (R := fun tunnel => Kept db fun l => Has (HasNothing thread phase) tunnel l ∧
      IsNotClosed tunnel l)
    (fun s hs => ?_) fun tunnel => ?_
  · refine ⟨hs.1.congr rfl rfl rfl rfl (.inr ⟨hs.2.2, by simp⟩) rfl, ⟨hs.2, by simp⟩, ?_⟩
    exact fun hMem => Nat.lt_irrefl _ (hs.1.closed_lt _ hMem)
  · refine meets_bind (meets_connectTunnel tunnel hEnabled) (fun _ => ?_)
      fun e s hs => ⟨hs.1, hs.2.1.1.1⟩
    refine meets_change_bind
      (R := fun s => CanAskForPool db thread phase s ∧ (s.live.tunnel tunnel).listener.isSome = true)
      (fun s hs => ⟨?_, (hs.2.2 rfl).listens⟩) ?_
    · exact canAskForPool_of_isUp ⟨hs.1, hs.2.1, hs.2.2 rfl⟩ rfl
    · refine meets_state_bind fun s hs => meets_ofResult ?_
      rintro s' rfl
      obtain ⟨port, hPort⟩ := Option.isSome_iff_exists.mp hs.2
      rw [Tunnel.localAddress, hPort]
      exact hs.1

/-- A pool that was set up has to be used at once. -/
theorem meets_setUpPool (settings : DatabaseSettings) (localEnd : Option (String × Int)) :
    Meets (alone db thread phase) (CanAskForPool db thread phase)
      (setUpPool settings localEnd) fun r s =>
        match r with
        | .ok pool => Kept db (fun l => HasPool thread phase pool l.manager)
            (s.onLive (Live.note (.acquire pool)))
        | .error _ => Kept db (fun l => IsInTransition thread phase l.manager) s := by
  have hRests : ∀ l, HasNoPool thread phase l.manager ∧ IsReady db l →
      l.manager.pending = some thread ∧ l.manager.phase = phase :=
    fun l hl => ⟨hl.1.1, hl.1.2.1⟩
  have hCreate := fun options => meets_call_of_noted db (c := .createPool options) hRests
  unfold setUpPool
  refine meets_bind ((hCreate _).mono (fun s hs => hs _) fun r s h => h) (fun _ => ?_)
    fun e s hs => ?_
  · refine meets_onLive fun s hs => ⟨?_, ?_⟩
    · exact hs.1.obtainPool hs.2.1.2.2 hs.2.2.open_ hs.2.2.held hs.2.2.exists_
    · exact ⟨⟨hs.2.1.1, hs.2.1.2.1⟩, rfl⟩
  · exact ⟨hs.1, hs.2.1.1, hs.2.1.2.1⟩

/-- A pool is tried out. -/
theorem meets_executeOn (pool : Nat) (sql : String) :
    Meets (alone db thread phase)
      (fun s => Kept db (fun l => HasPool thread phase pool l.manager)
        (s.onLive (Live.note (.acquire pool))))
      (executeOn pool sql) fun _ => Kept db fun l => HasPool thread phase pool l.manager := by
  have hRests : ∀ l : Live, HasPool thread phase pool l.manager →
      l.manager.pending = some thread ∧ l.manager.phase = phase :=
    fun l hl => hl.1
  have hNeutral := fun c hUsed hClosed hAsks hOpened hTunnel => meets_call_of_neutral db
    (X := fun l => HasPool thread phase pool l.manager) (c := c) hUsed hClosed hAsks hOpened hTunnel
    steady_manager hRests
  have hAcquire : Meets (alone db thread phase)
      (fun s => Kept db (fun l => HasPool thread phase pool l.manager)
        (s.onLive (Live.note (.acquire pool))))
      (acquire pool) fun _ => Kept db fun l => HasPool thread phase pool l.manager := by
    refine meets_bind (meets_call_of_noted db hRests) (fun _ => ?_) fun e s hs => hs
    refine meets_onLive fun s hs => ?_
    exact kept_of_change (l := s.live) steady_manager rfl rfl rfl rfl rfl hs
  refine meets_bind hAcquire (fun connection => ?_) fun e s hs => hs
  refine meets_ensuring (R := fun _ => Kept db fun l => HasPool thread phase pool l.manager) ?_
    fun r => ?_
  · refine meets_bind (hNeutral (.execute connection sql) rfl rfl nofun rfl rfl) (fun e => ?_)
      fun e s hs => hs
    exact meets_pure fun s hs => hs
  · refine meets_bind (hNeutral (.release connection) rfl rfl nofun rfl rfl) (fun e => ?_)
      fun e s hs => hs
    exact meets_pure fun s hs => hs

/-- Setting up ends with a pool, or with a fault. -/
theorem meets_setUp :
    Meets (alone db thread phase) (Kept db fun l => HasNothing thread phase l.manager)
      (setUp db) fun r => Kept db fun l => IsInTransition thread phase l.manager ∧
        ∀ pool, r = .ok pool → l.manager.pool = some pool := by
  have hPool : ∀ localEnd, Meets (alone db thread phase) (CanAskForPool db thread phase)
      (do
        let pool ← setUpPool db.settings localEnd
        let _ ← executeOn pool trialStatement
        return pool)
      fun r => Kept db fun l => IsInTransition thread phase l.manager ∧
        ∀ pool, r = .ok pool → l.manager.pool = some pool := by
    intro localEnd
    refine meets_bind (meets_setUpPool db.settings localEnd) (fun pool => ?_)
      fun e s hs => ⟨hs.1, hs.2, nofun⟩
    refine meets_bind (meets_executeOn pool trialStatement) (fun _ => ?_)
      fun e s hs => ⟨hs.1, hs.2.1, nofun⟩
    refine meets_pure fun s hs => ⟨hs.1, hs.2.1, fun k hk => ?_⟩
    cases hk
    exact hs.2.2
  unfold setUp
  show Meets _ _ (if db.settings.tunnel.isEnabled = true then _ else _) _
  split
  · rename_i hEnabled
    have hTunnel : Meets (alone db thread phase)
        (Kept db fun l => HasNothing thread phase l.manager) (some <$> setUpTunnel db) fun r s =>
          match r with
          | .ok _ => CanAskForPool db thread phase s
          | .error _ => Kept db (fun l => HasNoPool thread phase l.manager) s :=
      meets_map (meets_setUpTunnel hEnabled) fun r s hs => by cases r <;> exact hs
    refine meets_bind hTunnel hPool fun e s hs => ?_
    exact ⟨hs.1, ⟨hs.2.1, hs.2.2.1⟩, nofun⟩
  · rename_i hDisabled
    exact (hPool none).mono (fun s hs => canAskForPool_of_untunneled hDisabled hs) fun r s h => h

/-- The manager's transition is over: it is connected with a pool, or disconnected with
neither a pool nor a tunnel. -/
def IsSettled (m : Manager) : Prop :=
  m.phase = .connected ∧ (∃ pool, m.pool = some pool) ∨
    m.phase = .disconnected ∧ m.pool = none ∧ m.tunnel = none

/-- A change of the manager's phase or pending transition. -/
theorem books_onManager {s : Store} {f : Manager → Manager} (hPool : ∀ m, (f m).pool = m.pool)
    (hTunnel : ∀ m, (f m).tunnel = m.tunnel) (h : s.live.Books db) :
    (s.onManager f).live.Books db := by
  exact h.congr rfl rfl (hPool _) (hTunnel _) (.inl rfl) rfl

/-- Establishing ends connected with a pool, or disconnected with nothing. -/
theorem meets_establish :
    Meets (alone db thread .connecting) (Kept db fun l => HasNothing thread .connecting l.manager)
      (establish db) fun _ => Kept db fun l => l.manager.pending = none ∧ IsSettled l.manager := by
  unfold establish
  refine meets_ensuring (R := fun _ => Kept db fun l => IsSettled l.manager) ?_ fun r => ?_
  · refine meets_outcome_bind meets_setUp fun r => ?_
    cases r with
    | ok pool =>
      refine meets_change_bind (R := Kept db fun l => IsSettled l.manager) (fun s hs => ?_)
        (meets_pure fun s hs => hs)
      exact ⟨books_onManager (fun _ => rfl) (fun _ => rfl) hs.1,
        .inl ⟨rfl, pool, hs.2.2 pool rfl⟩⟩
    | error f =>
      have hDown := meets_takeDown db thread .connecting
      refine meets_bind (hDown.mono (fun s hs => ⟨hs.1, hs.2.1⟩) fun r s h => h) (fun _ => ?_)
        fun e s hs => absurd rfl (hs.2.resolve_left nofun)
      refine meets_change_bind (R := Kept db fun l => IsSettled l.manager) (fun s hs => ?_)
        (meets_throw fun s hs => hs)
      exact ⟨books_onManager (fun _ => rfl) (fun _ => rfl) hs.1.1,
        .inr ⟨rfl, hs.1.2.1.2.2, hs.1.2.2⟩⟩
  · refine meets_change fun s hs => ?_
    exact ⟨books_onManager (fun _ => rfl) (fun _ => rfl) hs.1, rfl, hs.2⟩

/-- Closing ends disconnected with nothing. -/
theorem meets_close :
    Meets (alone db thread phase) (Kept db fun l => IsInTransition thread phase l.manager) close
      fun _ => Kept db fun l => l.manager.pending = none ∧ l.manager.phase = .disconnected ∧
        IsSettled l.manager := by
  have hDown := meets_takeDown db thread phase
  have hEnd : ∀ r : Result Unit, Meets (alone db thread phase)
      (fun s => Kept db (fun l => ((l.manager.pending = some thread ∧ l.manager.phase = phase ∧
        l.manager.pool = none) ∧ l.manager.tunnel = none)) s ∧ (r = .ok () ∨ phase ≠ .connecting))
      (do
        enter .disconnected
        settle)
      fun _ => Kept db fun l => l.manager.pending = none ∧ l.manager.phase = .disconnected ∧
        IsSettled l.manager := by
    intro r
    refine meets_change_bind (R := Kept db fun l => l.manager.phase = .disconnected ∧
      IsSettled l.manager) (fun s hs => ?_) (meets_change fun s hs => ?_)
    · exact ⟨books_onManager (fun _ => rfl) (fun _ => rfl) hs.1.1, rfl,
        .inr ⟨rfl, hs.1.2.1.2.2, hs.1.2.2⟩⟩
    · exact ⟨books_onManager (fun _ => rfl) (fun _ => rfl) hs.1, rfl, hs.2.1, hs.2.2⟩
  unfold close
  exact meets_bind (R := fun _ => Kept db fun l => l.manager.pending = none ∧
      l.manager.phase = .disconnected ∧ IsSettled l.manager)
    (meets_ensuring hDown hEnd) (fun _ => meets_pure fun s hs => hs) fun e s hs => hs

end Manager

end SqlWeave
