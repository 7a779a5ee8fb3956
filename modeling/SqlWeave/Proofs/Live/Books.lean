import SqlWeave.Proofs.Live.Encounters
import SqlWeave.Store

/-!
# The books of the live backend

All that a manager does to the world outside is in its log.  `Live.Books` is what the log
says about pools and tunnels at any time at which a transition waits or none is under way:
a pool that was made was used, one that is not closed is the one the manager holds, none is
closed a second time, and a tunnel is closed only when no pool is open.

A pool stands over a tunnel if that was the last tunnel to be forwarded before the pool was
used.  A tunnel carries if it was the last one to be forwarded when a pool was asked for: this
is done at once when a manager has obtained a tunnel, so that the tunnels that carry are those
that the manager obtained.  One that carries is held by the manager or was closed.

## Main results

* `Books.note`, `Books.obtainTunnel`, `Books.obtainPool`, `Books.closePool`,
  `Books.closeListener`: what is done keeps the books.
* `Books.closed_before_tunnel`: a pool is closed before the tunnel that it stands over.
-/

namespace SqlWeave

namespace Call

/-- The pool that a call closes. -/
def poolClosed : Call → Option Nat
  | .poolClose pool => some pool
  | _ => none

/-- The pool that a call takes a connection from. -/
def poolUsed : Call → Option Nat
  | .acquire pool => some pool
  | _ => none

/-- The tunnel that a call makes listen. -/
def tunnelOpened : Call → Option Nat
  | .forward tunnel .. => some tunnel
  | _ => none

/-- The tunnel of which a call closes the listener or the SSH connection. -/
def tunnelClosed : Call → Option Nat
  | .listenerClose tunnel | .sshClose tunnel => some tunnel
  | _ => none

end Call

/-- Calls of these kinds close something, or wait until it is closed. -/
def CallKind.isClosing : CallKind → Bool
  | poolClose | poolWaitClosed | listenerClose | listenerWaitClosed | sshClose | sshWaitClosed =>
    true
  | _ => false

/-- The pools that a log closes, in order. -/
def closedPools (log : List Call) : List Nat :=
  log.filterMap Call.poolClosed

/-- The pools that a log uses. -/
def usedPools (log : List Call) : List Nat :=
  log.filterMap Call.poolUsed

/-- The tunnels that a log makes listen. -/
def openedTunnels (log : List Call) : List Nat :=
  log.filterMap Call.tunnelOpened

/-- The tunnels of which a log closes something. -/
def closedTunnels (log : List Call) : List Nat :=
  log.filterMap Call.tunnelClosed

/-- The pool is used in the log when the tunnel is the last one that was made to listen. -/
def StandsOver (log : List Call) (pool tunnel : Nat) : Prop :=
  ∃ before c after, log = before ++ c :: after ∧ c.poolUsed = some pool ∧
    (openedTunnels before).getLast? = some tunnel

/-- A pool is asked for in the log when the tunnel is the last one that was made to listen. -/
def Carries (log : List Call) (tunnel : Nat) : Prop :=
  ∃ before c after, log = before ++ c :: after ∧ c.kind = .createPool ∧
    (openedTunnels before).getLast? = some tunnel

section Snoc

variable (log : List Call) (c : Call)

theorem closedPools_snoc : closedPools (log ++ [c]) = closedPools log ++ c.poolClosed.toList := by
  cases hc : c.poolClosed <;> simp [closedPools, hc]

theorem usedPools_snoc : usedPools (log ++ [c]) = usedPools log ++ c.poolUsed.toList := by
  cases hc : c.poolUsed <;> simp [usedPools, hc]

theorem openedTunnels_snoc :
    openedTunnels (log ++ [c]) = openedTunnels log ++ c.tunnelOpened.toList := by
  cases hc : c.tunnelOpened <;> simp [openedTunnels, hc]

theorem closedTunnels_snoc :
    closedTunnels (log ++ [c]) = closedTunnels log ++ c.tunnelClosed.toList := by
  cases hc : c.tunnelClosed <;> simp [closedTunnels, hc]

end Snoc

/-- A call may be made behind those before it: something of a tunnel is closed only when
every pool is closed, and a pool is used only when its tunnel is not closed. -/
structure InOrder (before : List Call) (c : Call) : Prop where
  tunnel : c.tunnelClosed.isSome = true → ∀ pool ∈ usedPools before, pool ∈ closedPools before
  pool : c.poolUsed.isSome = true →
    ∀ tunnel, (openedTunnels before).getLast? = some tunnel → tunnel ∉ closedTunnels before

/-- Every call of a log may be made where it is made. -/
def Orderly (log : List Call) : Prop :=
  ∀ before c after, log = before ++ c :: after → InOrder before c

/-- Whatever closes something and is forecast to fail fails with an exception. -/
def Forecast.ClosingFailsOnly (forecast : Forecast) : Prop :=
  ∀ kind, kind.isClosing = true → ∀ e ∈ forecast kind, ∀ f, e.fault = some f → f.isFailure = true

theorem orderly_snoc {log : List Call} {c : Call} (h : Orderly log) (hc : InOrder log c) :
    Orderly (log ++ [c]) := by
  intro before d after hSplit
  rcases concat_eq_append_cons hSplit with ⟨rfl, rfl, -⟩ | ⟨others, -, hLog⟩
  · exact hc
  · exact h before d others hLog

theorem StandsOver.snoc {log : List Call} {pool tunnel : Nat} (h : StandsOver log pool tunnel)
    (c : Call) : StandsOver (log ++ [c]) pool tunnel := by
  obtain ⟨before, d, after, rfl, hUsed, hLast⟩ := h
  exact ⟨before, d, after ++ [c], by simp, hUsed, hLast⟩

theorem Carries.snoc {log : List Call} {tunnel : Nat} (h : Carries log tunnel) (c : Call) :
    Carries (log ++ [c]) tunnel := by
  obtain ⟨before, d, after, rfl, hAsks, hLast⟩ := h
  exact ⟨before, d, after ++ [c], by simp, hAsks, hLast⟩

/-- A tunnel carries in a longer log if it did before or if it does by the last call. -/
theorem Carries.of_snoc {log : List Call} {c : Call} {tunnel : Nat}
    (h : Carries (log ++ [c]) tunnel) :
    Carries log tunnel ∨ c.kind = .createPool ∧ (openedTunnels log).getLast? = some tunnel := by
  obtain ⟨before, d, after, hSplit, hAsks, hLast⟩ := h
  rcases concat_eq_append_cons hSplit with ⟨rfl, rfl, -⟩ | ⟨others, -, hLog⟩
  · exact .inr ⟨hAsks, hLast⟩
  · exact .inl ⟨before, d, others, hLog, hAsks, hLast⟩

theorem Forecast.FailsOnly.closing {forecast : Forecast} (h : forecast.FailsOnly) :
    forecast.ClosingFailsOnly :=
  fun kind _ => h kind

theorem Forecast.ClosingFailsOnly.drop {forecast : Forecast} (h : forecast.ClosingFailsOnly)
    (kind : CallKind) : (forecast.drop kind).ClosingFailsOnly :=
  fun kind' hClosing e hMem => h kind' hClosing e (Forecast.mem_of_mem_drop hMem)

/-- What closes something next fails with an exception if it fails. -/
theorem Forecast.ClosingFailsOnly.next {forecast : Forecast} (h : forecast.ClosingFailsOnly)
    {kind : CallKind} (hClosing : kind.isClosing = true) {f : Fault}
    (hFault : (forecast.next kind).result = .error f) : f.isFailure = true := by
  obtain ⟨e, hMem, hOwn⟩ := Forecast.exists_of_next hFault
  exact h kind hClosing e hMem f hOwn

namespace Live

/-- What the log of a backend says about its pools. -/
structure PoolBooks (l : Live) : Prop where
  closed_once : (closedPools l.log).Nodup
  closed_le : ∀ pool ∈ closedPools l.log, 1 ≤ pool ∧ pool ≤ l.pools
  used_iff : ∀ pool, pool ∈ usedPools l.log ↔ 1 ≤ pool ∧ pool ≤ l.pools
  open_held : ∀ pool, 1 ≤ pool → pool ≤ l.pools →
    pool ∈ closedPools l.log ∨ l.manager.pool = some pool
  held_open : ∀ pool, l.manager.pool = some pool →
    (1 ≤ pool ∧ pool ≤ l.pools) ∧ pool ∉ closedPools l.log

/-- What the log of a backend says about its tunnels. -/
structure TunnelBooks (db : Database) (l : Live) : Prop where
  closed_lt : ∀ tunnel ∈ closedTunnels l.log, tunnel < l.tunnels.length
  held_newest : ∀ tunnel, l.manager.tunnel = some tunnel → tunnel + 1 = l.tunnels.length
  held_listens : ∀ tunnel, l.manager.tunnel = some tunnel → (l.tunnel tunnel).listener.isSome = true
  held_carries : ∀ tunnel, l.manager.tunnel = some tunnel → Carries l.log tunnel
  carries_held : ∀ tunnel, Carries l.log tunnel →
    l.manager.tunnel = some tunnel ∨ .listenerClose tunnel ∈ l.log
  untunneled : db.settings.tunnel.isEnabled = false → openedTunnels l.log = []

/-- What the log of a backend says about its pools and tunnels. -/
structure Books (db : Database) (l : Live) : Prop extends PoolBooks l, TunnelBooks db l where
  stands : ∀ pool tunnel, l.manager.pool = some pool → l.manager.tunnel = some tunnel →
    StandsOver l.log pool tunnel
  tunneled : db.settings.tunnel.isEnabled = true → ∀ pool ∈ usedPools l.log,
    ∃ tunnel, StandsOver l.log pool tunnel
  orderly : Orderly l.log
  fails : l.forecast.ClosingFailsOnly

variable {db : Database} {l : Live}

/-- The books of a backend that was not used. -/
theorem books_new {forecast : Forecast} (h : forecast.ClosingFailsOnly) :
    Books db { forecast } where
  closed_once := List.nodup_nil
  closed_le := by simp [closedPools]
  used_iff := by
    intro pool
    simp [usedPools]
    omega
  open_held := by
    intro pool hPos hLe
    exact absurd (Nat.le_trans hPos hLe) (Nat.not_succ_le_zero 0)
  held_open := nofun
  closed_lt := by simp [closedTunnels]
  held_newest := nofun
  held_listens := nofun
  held_carries := nofun
  carries_held := by
    rintro tunnel ⟨before, c, after, hSplit, -⟩
    simp at hSplit
  untunneled := fun _ => rfl
  stands := nofun
  tunneled := by simp [usedPools]
  orderly := by
    intro before c after hSplit
    simp at hSplit
  fails := h

/-! ## Pools -/

theorem PoolBooks.congr {l' : Live} (h : PoolBooks l)
    (hClosed : closedPools l'.log = closedPools l.log) (hUsed : usedPools l'.log = usedPools l.log)
    (hPools : l'.pools = l.pools) (hPool : l'.manager.pool = l.manager.pool) : PoolBooks l' where
  closed_once := by rw [hClosed]; exact h.closed_once
  closed_le := by rw [hClosed, hPools]; exact h.closed_le
  used_iff := by rw [hUsed, hPools]; exact h.used_iff
  open_held := by rw [hClosed, hPools, hPool]; exact h.open_held
  held_open := by rw [hClosed, hPools, hPool]; exact h.held_open

/-- A call that neither uses nor closes a pool. -/
theorem PoolBooks.note (h : PoolBooks l) {c : Call} (hUsed : c.poolUsed = none)
    (hClosed : c.poolClosed = none) : PoolBooks (l.note c) := by
  refine h.congr ?_ ?_ rfl rfl
  · exact (closedPools_snoc l.log c).trans (by rw [hClosed]; exact List.append_nil _)
  · exact (usedPools_snoc l.log c).trans (by rw [hUsed]; exact List.append_nil _)

/-- Every pool that is used is closed when none is held. -/
theorem PoolBooks.closed_of_used (h : PoolBooks l) (hPool : l.manager.pool = none) :
    ∀ pool ∈ usedPools l.log, pool ∈ closedPools l.log := by
  intro pool hMem
  obtain ⟨hPos, hLe⟩ := (h.used_iff pool).mp hMem
  refine (h.open_held pool hPos hLe).resolve_right fun hHeld => ?_
  rw [hPool] at hHeld
  cases hHeld

theorem PoolBooks.closePool (h : PoolBooks l) {pool : Nat} (hPool : l.manager.pool = some pool) :
    PoolBooks ((l.manage ({ · with pool := none })).note (.poolClose pool)) := by
  obtain ⟨hRange, hOpen⟩ := h.held_open pool hPool
  have hClosedPools : closedPools (l.log ++ [.poolClose pool]) = closedPools l.log ++ [pool] :=
    closedPools_snoc l.log _
  have hUsedPools : usedPools (l.log ++ [.poolClose pool]) = usedPools l.log := by
    rw [usedPools_snoc]
    exact List.append_nil _
  exact {
    closed_once := by
      show (closedPools (l.log ++ [.poolClose pool])).Nodup
      rw [hClosedPools]
      refine List.nodup_append.mpr ⟨h.closed_once, by simp, ?_⟩
      rintro other hMem _ hLast rfl
      rw [List.mem_singleton] at hLast
      exact hOpen (hLast ▸ hMem)
    closed_le := by
      show ∀ other ∈ closedPools (l.log ++ [.poolClose pool]), _
      rw [hClosedPools]
      intro other hMem
      rcases List.mem_append.mp hMem with hOld | hNew
      · exact h.closed_le other hOld
      · rw [List.mem_singleton.mp hNew]
        exact hRange
    used_iff := by
      show ∀ other, other ∈ usedPools (l.log ++ [.poolClose pool]) ↔ _
      rw [hUsedPools]
      exact h.used_iff
    open_held := by
      intro other hPos hLe
      left
      show other ∈ closedPools (l.log ++ [.poolClose pool])
      rw [hClosedPools, List.mem_append]
      rcases h.open_held other hPos hLe with hOld | hHeld
      · exact .inl hOld
      · rw [hPool, Option.some.injEq] at hHeld
        exact .inr (by simp [hHeld])
    held_open := nofun }

theorem PoolBooks.obtainPool (h : PoolBooks l) (hPool : l.manager.pool = none) :
    PoolBooks (Live.note (.acquire (l.pools + 1))
      { l with pools := l.pools + 1, manager := { l.manager with pool := some (l.pools + 1) } }) := by
  have hClosedPools :
      closedPools (l.log ++ [.acquire (l.pools + 1)]) = closedPools l.log := by
    rw [closedPools_snoc]
    exact List.append_nil _
  have hUsedPools :
      usedPools (l.log ++ [.acquire (l.pools + 1)]) = usedPools l.log ++ [l.pools + 1] :=
    usedPools_snoc l.log _
  exact {
    closed_once := by
      show (closedPools (l.log ++ [.acquire (l.pools + 1)])).Nodup
      rw [hClosedPools]
      exact h.closed_once
    closed_le := by
      show ∀ pool ∈ closedPools (l.log ++ [.acquire (l.pools + 1)]), 1 ≤ pool ∧ pool ≤ l.pools + 1
      rw [hClosedPools]
      intro pool hMem
      have hRange := h.closed_le pool hMem
      omega
    used_iff := by
      intro pool
      show pool ∈ usedPools (l.log ++ [.acquire (l.pools + 1)]) ↔ 1 ≤ pool ∧ pool ≤ l.pools + 1
      rw [hUsedPools, List.mem_append, List.mem_singleton, h.used_iff]
      omega
    open_held := by
      intro pool hPos hLe
      show pool ∈ closedPools (l.log ++ [.acquire (l.pools + 1)]) ∨ some (l.pools + 1) = some pool
      rw [hClosedPools]
      by_cases hNew : l.pools + 1 = pool
      · exact .inr (congrArg some hNew)
      · have hOld : pool ≤ l.pools := by
          have : pool ≤ l.pools + 1 := hLe
          omega
        refine .inl ((h.open_held pool hPos hOld).resolve_right fun hHeld => ?_)
        rw [hPool] at hHeld
        cases hHeld
    held_open := by
      intro pool hHeld
      show (1 ≤ pool ∧ pool ≤ l.pools + 1) ∧ pool ∉ closedPools (l.log ++ [.acquire (l.pools + 1)])
      rw [hClosedPools]
      have hNew : l.pools + 1 = pool := Option.some.inj hHeld
      refine ⟨by omega, fun hMem => ?_⟩
      have hRange := h.closed_le pool hMem
      omega }

/-! ## Tunnels -/

/-- The tunnels do not matter while none is held, if only they do not become fewer. -/
theorem TunnelBooks.congr {l' : Live} (h : TunnelBooks db l) (hLog : l'.log = l.log)
    (hTunnel : l'.manager.tunnel = l.manager.tunnel)
    (hTunnels : l'.tunnels = l.tunnels ∨
      l.manager.tunnel = none ∧ l.tunnels.length ≤ l'.tunnels.length) : TunnelBooks db l' where
  closed_lt := by
    intro tunnel hMem
    rw [hLog] at hMem
    have hLt := h.closed_lt tunnel hMem
    rcases hTunnels with hSame | ⟨-, hLe⟩
    · rw [hSame]
      exact hLt
    · omega
  held_newest := by
    intro tunnel hHeld
    rw [hTunnel] at hHeld
    rcases hTunnels with hSame | ⟨hNone, -⟩
    · rw [hSame]
      exact h.held_newest tunnel hHeld
    · rw [hNone] at hHeld
      cases hHeld
  held_listens := by
    intro tunnel hHeld
    rw [hTunnel] at hHeld
    rcases hTunnels with hSame | ⟨hNone, -⟩
    · rw [Live.tunnel, hSame]
      exact h.held_listens tunnel hHeld
    · rw [hNone] at hHeld
      cases hHeld
  held_carries := by rw [hLog, hTunnel]; exact h.held_carries
  carries_held := by rw [hLog, hTunnel]; exact h.carries_held
  untunneled := by rw [hLog]; exact h.untunneled

/-- When a pool is asked for, the last tunnel has to be the one that the manager holds. -/
theorem TunnelBooks.note (h : TunnelBooks db l) {c : Call}
    (hAsks : c.kind = .createPool →
      ∀ tunnel, (openedTunnels l.log).getLast? = some tunnel → l.manager.tunnel = some tunnel)
    (hOpened : c.tunnelOpened.isSome = true → db.settings.tunnel.isEnabled = true)
    (hClosed : ∀ tunnel, c.tunnelClosed = some tunnel → tunnel < l.tunnels.length) :
    TunnelBooks db (l.note c) where
  closed_lt := by
    show ∀ tunnel ∈ closedTunnels (l.log ++ [c]), _
    intro tunnel hMem
    rw [closedTunnels_snoc, List.mem_append, Option.mem_toList] at hMem
    rcases hMem with hOld | hNew
    · exact h.closed_lt tunnel hOld
    · exact hClosed tunnel hNew
  held_newest := h.held_newest
  held_listens := h.held_listens
  held_carries := fun tunnel hHeld => (h.held_carries tunnel hHeld).snoc c
  carries_held := by
    intro tunnel hCarries
    rcases hCarries.of_snoc with hBefore | ⟨hNew, hLast⟩
    · exact (h.carries_held tunnel hBefore).imp_right (List.mem_append_left _)
    · exact .inl (hAsks hNew tunnel hLast)
  untunneled := by
    intro hOff
    show openedTunnels (l.log ++ [c]) = []
    rw [openedTunnels_snoc, h.untunneled hOff]
    cases hOpen : c.tunnelOpened with
    | none => rfl
    | some tunnel => exact absurd (hOpened (by rw [hOpen]; rfl)) (by simp [hOff])

theorem TunnelBooks.obtain (h : TunnelBooks db l) {tunnel : Nat} (hNone : l.manager.tunnel = none)
    (hLast : (openedTunnels l.log).getLast? = some tunnel)
    (hNewest : tunnel + 1 = l.tunnels.length)
    (hListens : (l.tunnel tunnel).listener.isSome = true) (options : Settings.Options) :
    TunnelBooks db ((l.manage ({ · with tunnel := some tunnel })).note (.createPool options)) where
  closed_lt := by
    show ∀ other ∈ closedTunnels (l.log ++ [.createPool options]), _
    rw [closedTunnels_snoc]
    exact fun other hMem => h.closed_lt other (by simpa [Call.tunnelClosed] using hMem)
  held_newest := by
    rintro other ⟨⟩
    exact hNewest
  held_listens := by
    rintro other ⟨⟩
    exact hListens
  held_carries := by
    rintro other ⟨⟩
    exact ⟨l.log, .createPool options, [], rfl, rfl, hLast⟩
  carries_held := by
    intro other hCarries
    rcases hCarries.of_snoc with hBefore | ⟨-, hOther⟩
    · right
      refine List.mem_append_left _ ((h.carries_held other hBefore).resolve_left fun hHeld => ?_)
      rw [hNone] at hHeld
      cases hHeld
    · exact .inl (hLast.symm.trans hOther)
  untunneled := by
    intro hOff
    rw [h.untunneled hOff] at hLast
    cases hLast

theorem TunnelBooks.closeListener (h : TunnelBooks db l) {tunnel : Nat}
    (hTunnel : l.manager.tunnel = some tunnel) (f : Tunnel → Tunnel) :
    TunnelBooks db (((l.manage ({ · with tunnel := none })).setTunnel tunnel f).note
      (.listenerClose tunnel)) where
  closed_lt := by
    intro other hMem
    have hNewest := h.held_newest tunnel hTunnel
    show other < (l.tunnels.modify tunnel f).length
    rw [List.length_modify]
    replace hMem : other ∈ closedTunnels (l.log ++ [.listenerClose tunnel]) := hMem
    rw [closedTunnels_snoc, List.mem_append] at hMem
    rcases hMem with hOld | hNew
    · exact h.closed_lt other hOld
    · rw [Call.tunnelClosed, Option.toList_some, List.mem_singleton] at hNew
      omega
  held_newest := nofun
  held_listens := nofun
  held_carries := nofun
  carries_held := by
    intro other hCarries
    right
    rcases hCarries.of_snoc with hBefore | ⟨hAsks, -⟩
    · rcases h.carries_held other hBefore with hHeld | hClosed
      · rw [hTunnel, Option.some.injEq] at hHeld
        subst hHeld
        exact List.mem_append_right _ (List.mem_singleton_self _)
      · exact List.mem_append_left _ hClosed
    · cases hAsks
  untunneled := by
    intro hOff
    show openedTunnels (l.log ++ [.listenerClose tunnel]) = []
    rw [openedTunnels_snoc, h.untunneled hOff]
    rfl

/-! ## Pools and tunnels -/

theorem Books.congr {l' : Live} (h : Books db l) (hLog : l'.log = l.log)
    (hPools : l'.pools = l.pools) (hPool : l'.manager.pool = l.manager.pool)
    (hTunnel : l'.manager.tunnel = l.manager.tunnel)
    (hTunnels : l'.tunnels = l.tunnels ∨
      l.manager.tunnel = none ∧ l.tunnels.length ≤ l'.tunnels.length)
    (hForecast : l'.forecast = l.forecast) : Books db l' where
  toPoolBooks := h.toPoolBooks.congr (by rw [hLog]) (by rw [hLog]) hPools hPool
  toTunnelBooks := h.toTunnelBooks.congr hLog hTunnel hTunnels
  stands := by rw [hLog, hPool, hTunnel]; exact h.stands
  tunneled := by rw [hLog]; exact h.tunneled
  orderly := by rw [hLog]; exact h.orderly
  fails := by rw [hForecast]; exact h.fails

/-- Pools that are used stand over a tunnel, whatever calls follow. -/
theorem Books.tunneled_snoc (h : Books db l) {c : Call} (hUsed : c.poolUsed = none) :
    db.settings.tunnel.isEnabled = true → ∀ pool ∈ usedPools (l.log ++ [c]),
      ∃ tunnel, StandsOver (l.log ++ [c]) pool tunnel := by
  intro hOn pool hMem
  rw [usedPools_snoc, hUsed, Option.toList_none, List.append_nil] at hMem
  exact (h.tunneled hOn pool hMem).imp fun tunnel hOver => hOver.snoc c

/-- A call that neither uses nor closes a pool. -/
theorem Books.note (h : Books db l) {c : Call} (hUsed : c.poolUsed = none)
    (hClosed : c.poolClosed = none)
    (hAsks : c.kind = .createPool →
      ∀ tunnel, (openedTunnels l.log).getLast? = some tunnel → l.manager.tunnel = some tunnel)
    (hOpened : c.tunnelOpened.isSome = true → db.settings.tunnel.isEnabled = true)
    (hTunnel : ∀ tunnel, c.tunnelClosed = some tunnel →
      tunnel < l.tunnels.length ∧ l.manager.pool = none) : Books db (l.note c) where
  toPoolBooks := h.toPoolBooks.note hUsed hClosed
  toTunnelBooks := h.toTunnelBooks.note hAsks hOpened fun tunnel hSome => (hTunnel tunnel hSome).1
  stands := fun pool tunnel hPool hOver => (h.stands pool tunnel hPool hOver).snoc c
  tunneled := h.tunneled_snoc hUsed
  orderly := by
    refine orderly_snoc h.orderly ⟨fun hSome => ?_, fun hSome => ?_⟩
    · obtain ⟨tunnel, hEq⟩ := Option.isSome_iff_exists.mp hSome
      exact h.closed_of_used (hTunnel tunnel hEq).2
    · rw [hUsed] at hSome
      cases hSome
  fails := h.fails.drop c.kind

/-- The manager gives up its pool and closes it. -/
theorem Books.closePool (h : Books db l) {pool : Nat} (hPool : l.manager.pool = some pool) :
    Books db ((l.manage ({ · with pool := none })).note (.poolClose pool)) where
  toPoolBooks := h.toPoolBooks.closePool hPool
  toTunnelBooks := by
    have hGiven : TunnelBooks db (l.manage ({ · with pool := none })) :=
      h.toTunnelBooks.congr rfl rfl (.inl rfl)
    exact hGiven.note nofun nofun nofun
  stands := nofun
  tunneled := h.tunneled_snoc rfl
  orderly := orderly_snoc h.orderly ⟨nofun, nofun⟩
  fails := h.fails.drop _

/-- The manager gives up its tunnel, when it has no pool, and closes the listener. -/
theorem Books.closeListener (h : Books db l) {tunnel : Nat} (hPool : l.manager.pool = none)
    (hTunnel : l.manager.tunnel = some tunnel) (f : Tunnel → Tunnel) :
    Books db (((l.manage ({ · with tunnel := none })).setTunnel tunnel f).note
      (.listenerClose tunnel)) where
  toPoolBooks := by
    have hGiven : PoolBooks ((l.manage ({ · with tunnel := none })).setTunnel tunnel f) :=
      h.toPoolBooks.congr rfl rfl rfl rfl
    exact hGiven.note rfl rfl
  toTunnelBooks := h.toTunnelBooks.closeListener hTunnel f
  stands := nofun
  tunneled := h.tunneled_snoc rfl
  orderly := orderly_snoc h.orderly ⟨fun _ => h.closed_of_used hPool, nofun⟩
  fails := h.fails.drop _

/-- The manager obtains a tunnel and asks for a pool at once. -/
theorem Books.obtainTunnel (h : Books db l) {tunnel : Nat} (hPool : l.manager.pool = none)
    (hNone : l.manager.tunnel = none) (hLast : (openedTunnels l.log).getLast? = some tunnel)
    (hNewest : tunnel + 1 = l.tunnels.length)
    (hListens : (l.tunnel tunnel).listener.isSome = true) (options : Settings.Options) :
    Books db ((l.manage ({ · with tunnel := some tunnel })).note (.createPool options)) where
  toPoolBooks := by
    have hHeld : PoolBooks (l.manage ({ · with tunnel := some tunnel })) :=
      h.toPoolBooks.congr rfl rfl rfl rfl
    exact hHeld.note rfl rfl
  toTunnelBooks := h.toTunnelBooks.obtain hNone hLast hNewest hListens options
  stands := by
    intro pool other hHeld
    rw [show l.manager.pool = some pool from hHeld] at hPool
    cases hPool
  tunneled := h.tunneled_snoc rfl
  orderly := orderly_snoc h.orderly ⟨nofun, nofun⟩
  fails := h.fails.drop _

/-- The manager obtains a pool and uses it at once. -/
theorem Books.obtainPool (h : Books db l) (hPool : l.manager.pool = none)
    (hOpen : ∀ tunnel, (openedTunnels l.log).getLast? = some tunnel → tunnel ∉ closedTunnels l.log)
    (hTunnel : ∀ tunnel, l.manager.tunnel = some tunnel →
      (openedTunnels l.log).getLast? = some tunnel)
    (hSome : db.settings.tunnel.isEnabled = true →
      ∃ tunnel, (openedTunnels l.log).getLast? = some tunnel) :
    Books db (Live.note (.acquire (l.pools + 1))
      { l with pools := l.pools + 1, manager := { l.manager with pool := some (l.pools + 1) } }) where
  toPoolBooks := h.toPoolBooks.obtainPool hPool
  toTunnelBooks := by
    have hHeld : TunnelBooks db
        { l with pools := l.pools + 1, manager := { l.manager with pool := some (l.pools + 1) } } :=
      h.toTunnelBooks.congr rfl rfl (.inl rfl)
    exact hHeld.note nofun nofun nofun
  stands := by
    intro pool tunnel hHeld hOver
    have hNew : l.pools + 1 = pool := Option.some.inj hHeld
    refine ⟨l.log, .acquire (l.pools + 1), [], rfl, ?_, hTunnel tunnel hOver⟩
    rw [← hNew]
    rfl
  tunneled := by
    intro hOn pool hMem
    have hUsedPools :
        usedPools (l.log ++ [.acquire (l.pools + 1)]) = usedPools l.log ++ [l.pools + 1] :=
      usedPools_snoc l.log _
    rcases List.mem_append.mp (hUsedPools ▸ hMem) with hOld | hNew
    · exact (h.tunneled hOn pool hOld).imp fun tunnel hOver => hOver.snoc _
    · obtain ⟨tunnel, hLast⟩ := hSome hOn
      rw [List.mem_singleton.mp hNew]
      exact ⟨tunnel, l.log, .acquire (l.pools + 1), [], rfl, rfl, hLast⟩
  orderly := orderly_snoc h.orderly ⟨nofun, fun _ => hOpen⟩
  fails := h.fails.drop _

/-- A pool is closed before anything of the tunnel that it stands over. -/
theorem Books.closed_before_tunnel (h : Books db l) {pool tunnel : Nat}
    (hStands : StandsOver l.log pool tunnel) {before : List Call} {c : Call} {after : List Call}
    (hSplit : l.log = before ++ c :: after) (hClosed : c.tunnelClosed = some tunnel) :
    pool ∈ closedPools before := by
  obtain ⟨first, use, rest, hUse, hUsed, hLast⟩ := hStands
  have hOrder := h.orderly before c after hSplit
  rw [hUse] at hSplit
  rcases List.append_eq_append_iff.mp hSplit with ⟨more, hBefore, hRest⟩ | ⟨more, hFirst, hRest⟩
  · cases more with
    | nil =>
      rw [List.nil_append, List.cons.injEq] at hRest
      cases c <;> simp_all [Call.tunnelClosed, Call.poolUsed]
    | cons d others =>
      rw [List.cons_append, List.cons.injEq] at hRest
      refine hOrder.tunnel (by rw [hClosed]; rfl) pool ?_
      rw [hBefore, ← hRest.1]
      simp [usedPools, hUsed]
  · cases more with
    | nil =>
      rw [List.nil_append, List.cons.injEq] at hRest
      cases c <;> simp_all [Call.tunnelClosed, Call.poolUsed]
    | cons d others =>
      rw [List.cons_append, List.cons.injEq] at hRest
      have hUseOrder := h.orderly first use rest hUse
      refine absurd ?_ (hUseOrder.pool (by rw [hUsed]; rfl) tunnel hLast)
      rw [hFirst, ← hRest.1]
      simp [closedTunnels, hClosed]

end Live

end SqlWeave
