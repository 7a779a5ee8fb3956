import SqlWeave.Database.Transaction
import SqlWeave.Proofs.Live.Accounts
import SqlWeave.Proofs.Live.Books
import SqlWeave.Proofs.Live.Custody

/-!
# Clients of a live backend

Whoever runs statements and transactions leaves the connection manager to the transitions: he
makes calls on connections, and takes connections from the pool of a connected manager.  Those
that he acquires he hands back, or else they are with a transaction or with a caller.

## Main results

* `Store.Persists`, `Store.ClientStep`: what anyone does to the store in a step, and what a
  client does.
* `balanced_establish`, `balanced_close`: transitions end with nothing in hand.
* `balanced_queryAnywhere`: so does a statement on any connection, however its calls end and
  wherever it is cancelled.
* `minds_checkout`, `minds_callOn`, `minds_release`: what clients do with a connection in hand.
-/

namespace SqlWeave

open SqlWeave.Action

/-! ## What is done in a step -/

/-- Every entry of a list stays in its place, changed as a relation allows. -/
def Entrywise {α : Type} (R : α → α → Prop) (before after : List α) : Prop :=
  ∀ (i : Nat) (a : α), before[i]? = some a → ∃ b, after[i]? = some b ∧ R a b

namespace Entrywise

variable {α : Type} {R : α → α → Prop} {items : List α}

theorem refl (h : ∀ a, R a a) (items : List α) : Entrywise R items items :=
  fun _ a hGet => ⟨a, hGet, h a⟩

theorem trans {items' items'' : List α} (h : Entrywise R items items')
    (h' : Entrywise R items' items'') (hTrans : ∀ a b c, R a b → R b c → R a c) :
    Entrywise R items items'' := by
  intro i a hGet
  obtain ⟨b, hGet', hR⟩ := h i a hGet
  obtain ⟨c, hGet'', hR'⟩ := h' i b hGet'
  exact ⟨c, hGet'', hTrans a b c hR hR'⟩

theorem append (h : ∀ a, R a a) (items more : List α) : Entrywise R items (items ++ more) := by
  intro i a hGet
  have hLt := (List.getElem?_eq_some_iff.mp hGet).1
  exact ⟨a, (List.getElem?_append_left hLt).trans hGet, h a⟩

theorem modify (h : ∀ a, R a a) {f : α → α} (hf : ∀ a, R a (f a)) (items : List α) (i : Nat) :
    Entrywise R items (items.modify i f) := by
  intro j a hGet
  refine ⟨if i = j then f a else a, ?_, ?_⟩
  · rw [List.getElem?_modify, hGet]
    rfl
  · split
    · exact hf a
    · exact h a

end Entrywise

/-- A checkout keeps its connection, and stays released. -/
def Checkout.Persists (a b : Checkout) : Prop :=
  b.connection = a.connection ∧ (a.isReleased = true → b.isReleased = true)

/-- A transaction keeps its checkout, and stays closed. -/
def Transaction.Persists (a b : Transaction) : Prop :=
  b.connection = a.connection ∧ (a.isClosed = true → b.isClosed = true)

theorem Checkout.Persists.refl (a : Checkout) : a.Persists a :=
  ⟨rfl, id⟩

theorem Checkout.Persists.trans (a b c : Checkout) (h : a.Persists b) (h' : b.Persists c) :
    a.Persists c :=
  ⟨h'.1.trans h.1, fun hReleased => h'.2 (h.2 hReleased)⟩

theorem Transaction.Persists.refl (a : Transaction) : a.Persists a :=
  ⟨rfl, id⟩

theorem Transaction.Persists.trans (a b c : Transaction) (h : a.Persists b) (h' : b.Persists c) :
    a.Persists c :=
  ⟨h'.1.trans h.1, fun hClosed => h'.2 (h.2 hClosed)⟩

/-- A client may make the call: it is made on a connection, or takes one from the pool of a
connected manager. -/
def Call.IsClients (m : Manager) (c : Call) : Prop :=
  c.onConnection.isSome = true ∨ ∃ pool, c = .acquire pool ∧ m.require = .ok pool

namespace Store

/-- What anyone may do to the store. -/
structure Persists (s s' : Store) : Prop where
  calls : s.live.Extends s'.live
  checkouts : Entrywise Checkout.Persists s.live.checkouts s'.live.checkouts
  transactions : Entrywise Transaction.Persists s.transactions s'.transactions

theorem Persists.refl (s : Store) : s.Persists s :=
  ⟨.refl _, .refl Checkout.Persists.refl _, .refl Transaction.Persists.refl _⟩

theorem Persists.trans (s s' s'' : Store) (h : s.Persists s') (h' : s'.Persists s'') :
    s.Persists s'' :=
  ⟨h.calls.trans h'.calls, h.checkouts.trans h'.checkouts Checkout.Persists.trans,
    h.transactions.trans h'.transactions Transaction.Persists.trans⟩

/-- A transaction, its checkout and its connection are left alone. -/
structure Spares (t : Nat) (s s' : Store) : Prop where
  transaction : ∀ transaction, s.transactions[t]? = some transaction →
    s'.transactions[t]? = some transaction
  checkout : ∀ transaction, s.transactions[t]? = some transaction →
    s'.live.checkouts[transaction.connection]? = s.live.checkouts[transaction.connection]?
  calls : ∀ transaction, s.transactions[t]? = some transaction →
    ∀ calls, s'.live.log = s.live.log ++ calls →
      ∀ c ∈ calls, c.onConnection ≠ some (s.live.connectionOf transaction.connection)

theorem Spares.refl (t : Nat) (s : Store) : s.Spares t s :=
  ⟨fun _ hGet => hGet, fun _ _ => rfl, fun _ _ calls hLog c hMem => by
    rw [List.self_eq_append_right.mp hLog] at hMem
    cases hMem⟩

theorem Spares.trans {t : Nat} {s s' s'' : Store} (h : s.Spares t s') (h' : s'.Spares t s'')
    (hCalls : s.live.Extends s'.live) (hCalls' : s'.live.Extends s''.live) : s.Spares t s'' := by
  refine ⟨fun transaction hGet => h'.transaction _ (h.transaction _ hGet),
    fun transaction hGet => ?_, fun transaction hGet all hAll c hMem => ?_⟩
  · exact (h'.checkout _ (h.transaction _ hGet)).trans (h.checkout _ hGet)
  · obtain ⟨calls, hLog, -⟩ := hCalls
    obtain ⟨calls', hLog', -⟩ := hCalls'
    rw [hLog', hLog, List.append_assoc, List.append_cancel_left_eq] at hAll
    rw [← hAll] at hMem
    rcases List.mem_append.mp hMem with hFirst | hSecond
    · exact h.calls _ hGet calls hLog c hFirst
    · have hSame : s'.live.connectionOf transaction.connection =
          s.live.connectionOf transaction.connection := by
        rw [Live.connectionOf, Live.connectionOf, h.checkout _ hGet]
      exact hSame ▸ h'.calls _ (h.transaction _ hGet) calls' hLog' c hSecond

/-- What may be done to the store on behalf of a transaction, or of none. -/
structure Step (own : Option Nat) (s s' : Store) : Prop extends Persists s s' where
  spares : ∀ t, some t ≠ own → s.Spares t s'

/-- Clients were at work: they made calls on connections, or took some from the pool of a
connected manager, and left all else of the backend as it was. -/
structure Served (s s' : Store) : Prop where
  calls : s.live.Extends s'.live
  manager : s'.live.manager = s.live.manager
  pools : s'.live.pools = s.live.pools
  tunnels : s'.live.tunnels = s.live.tunnels
  clients : ∀ calls, s'.live.log = s.live.log ++ calls → ∀ c ∈ calls, c.IsClients s.live.manager

/-- What a client may do to the store. -/
structure ClientStep (own : Option Nat) (s s' : Store) : Prop extends Step own s s', Served s s'

theorem Served.refl (s : Store) : s.Served s where
  calls := .refl _
  manager := rfl
  pools := rfl
  tunnels := rfl
  clients := fun calls hLog c hMem => by
    rw [List.self_eq_append_right.mp hLog] at hMem
    cases hMem

theorem Served.trans (s s' s'' : Store) (h : s.Served s') (h' : s'.Served s'') : s.Served s'' where
  calls := h.calls.trans h'.calls
  manager := h'.manager.trans h.manager
  pools := h'.pools.trans h.pools
  tunnels := h'.tunnels.trans h.tunnels
  clients := by
    intro all hAll c hMem
    obtain ⟨calls, hLog, -⟩ := h.calls
    obtain ⟨calls', hLog', -⟩ := h'.calls
    rw [hLog', hLog, List.append_assoc, List.append_cancel_left_eq] at hAll
    rw [← hAll] at hMem
    rcases List.mem_append.mp hMem with hFirst | hSecond
    · exact h.clients calls hLog c hFirst
    · exact h.manager ▸ h'.clients calls' hLog' c hSecond

variable {own : Option Nat}

theorem Step.refl (s : Store) : s.Step own s :=
  { Persists.refl s with spares := fun t _ => Spares.refl t s }

theorem Step.trans (s s' s'' : Store) (h : s.Step own s') (h' : s'.Step own s'') :
    s.Step own s'' :=
  { Persists.trans s s' s'' h.toPersists h'.toPersists with
    spares := fun t hNe => (h.spares t hNe).trans (h'.spares t hNe) h.calls h'.calls }

theorem ClientStep.refl (s : Store) : s.ClientStep own s :=
  { Step.refl s, Served.refl s with }

theorem ClientStep.trans (s s' s'' : Store) (h : s.ClientStep own s') (h' : s'.ClientStep own s'') :
    s.ClientStep own s'' :=
  { Step.trans s s' s'' h.toStep h'.toStep, Served.trans s s' s'' h.toServed h'.toServed with }

/-- No transaction but the own one is on the connection. -/
def IsFree (own : Option Nat) (k : Nat) (s : Store) : Prop :=
  ∀ t transaction, some t ≠ own → s.transactions[t]? = some transaction →
    s.live.connectionOf transaction.connection ≠ k

/-- No transaction but the own one has the checkout. -/
def IsApart (own : Option Nat) (c : Nat) (s : Store) : Prop :=
  ∀ t transaction, some t ≠ own → s.transactions[t]? = some transaction →
    transaction.connection ≠ c

/-- The connection of a checkout that no other transaction has. -/
theorem Accounts.isFree {x : Hand} {s : Store} (h : s.Accounts x) {c : Nat} {checkout : Checkout}
    (hGet : s.live.checkouts[c]? = some checkout) (hApart : s.IsApart own c) :
    s.IsFree own checkout.connection := by
  intro t transaction hNe hTransaction
  obtain ⟨other, hOther⟩ := h.exists_checkout hTransaction
  rw [Live.connectionOf, hOther]
  exact h.connection_ne (hApart t transaction hNe hTransaction) hOther hGet

/-- The connection of a checkout that is not released and that no other transaction has. -/
theorem Accounts.isFree_of_isOut {x : Hand} {s : Store} (h : s.Accounts x) {c : Nat}
    (hOut : s.live.isOut c = true) (hApart : s.IsApart own c) :
    s.IsFree own (s.live.connectionOf c) := by
  obtain ⟨checkout, hGet, -⟩ := Live.isOut_iff.mp hOut
  rw [Live.connectionOf, hGet]
  exact h.isFree hGet hApart

theorem Accounts.isFree_of_hand {x : Hand} {s : Store} {k : Nat} (h : s.Accounts (({k}, 0) + x)) :
    s.IsFree own k := by
  intro t transaction _ hTransaction
  obtain ⟨other, hOther⟩ := h.exists_checkout hTransaction
  rw [Live.connectionOf, hOther]
  exact h.connection_ne_of_hand hOther

/-- Changes of the live backend that make no call on another transaction's connection. -/
theorem step_onLive {s : Store} {f : Live → Live} (hCalls : s.live.Extends (f s.live))
    (hCheckouts : (f s.live).checkouts = s.live.checkouts)
    (hFree : ∀ calls, (f s.live).log = s.live.log ++ calls → ∀ c ∈ calls, ∀ k,
      c.onConnection = some k → s.IsFree own k) : s.Step own (s.onLive f) where
  calls := hCalls
  checkouts := hCheckouts ▸ .refl Checkout.Persists.refl _
  transactions := .refl Transaction.Persists.refl _
  spares := fun t hNe => ⟨fun _ hGet => hGet, fun _ _ => congrArg (·[_]?) hCheckouts,
    fun transaction hGet calls hLog c hMem hOn =>
      hFree calls hLog c hMem _ hOn t transaction hNe hGet rfl⟩

theorem step_silent {s : Store} {f : Live → Live} (hLog : (f s.live).log = s.live.log)
    (hForecast : (f s.live).forecast = s.live.forecast)
    (hCheckouts : (f s.live).checkouts = s.live.checkouts) : s.Step own (s.onLive f) := by
  refine step_onLive (.of_eq hLog hForecast) hCheckouts fun calls hCalls c hMem => ?_
  rw [List.self_eq_append_right.mp (hLog.symm.trans hCalls)] at hMem
  cases hMem

theorem step_note {s : Store} {c : Call}
    (hFree : ∀ k, c.onConnection = some k → s.IsFree own k) :
    s.Step own (s.onLive (Live.note c)) := by
  refine step_onLive (Live.extends_note _ c) rfl fun calls hLog d hMem => ?_
  rw [← List.append_cancel_left hLog] at hMem
  exact List.mem_singleton.mp hMem ▸ hFree

theorem clientStep_note {s : Store} {c : Call} (h : c.IsClients s.live.manager)
    (hFree : ∀ k, c.onConnection = some k → s.IsFree own k) :
    s.ClientStep own (s.onLive (Live.note c)) :=
  { step_note hFree with
    manager := rfl
    pools := rfl
    tunnels := rfl
    clients := fun calls hLog d hMem => by
      rw [← List.append_cancel_left hLog] at hMem
      exact List.mem_singleton.mp hMem ▸ h }

/-- A step in which a client makes no call. -/
theorem clientStep_silent {s s' : Store}
    (hLive : s'.live = { s.live with
      connections := s'.live.connections, checkouts := s'.live.checkouts })
    (hCheckouts : Entrywise Checkout.Persists s.live.checkouts s'.live.checkouts)
    (hTransactions : Entrywise Transaction.Persists s.transactions s'.transactions)
    (hSame : ∀ t transaction, some t ≠ own → s.transactions[t]? = some transaction →
      s'.transactions[t]? = some transaction ∧
        s'.live.checkouts[transaction.connection]? = s.live.checkouts[transaction.connection]?) :
    s.ClientStep own s' := by
  have hLog : s'.live.log = s.live.log := by rw [hLive]
  have hNone : ∀ calls, s'.live.log = s.live.log ++ calls → calls = [] :=
    fun calls hCalls => List.self_eq_append_right.mp (hLog.symm.trans hCalls)
  exact {
    calls := .of_eq hLog (by rw [hLive])
    checkouts := hCheckouts
    transactions := hTransactions
    spares := fun t hNe => ⟨fun transaction hGet => (hSame t transaction hNe hGet).1,
      fun transaction hGet => (hSame t transaction hNe hGet).2,
      fun _ _ calls hCalls c hMem => by
        rw [hNone calls hCalls] at hMem
        cases hMem⟩
    manager := by rw [hLive]
    pools := by rw [hLive]
    tunnels := by rw [hLive]
    clients := fun calls hCalls c hMem => by
      rw [hNone calls hCalls] at hMem
      cases hMem }

/-- A step that concerns neither checkouts nor transactions. -/
theorem clientStep_aside {s s' : Store}
    (hLive : s'.live = { s.live with connections := s'.live.connections })
    (hTransactions : s'.transactions = s.transactions) : s.ClientStep own s' := by
  have hCheckouts : s'.live.checkouts = s.live.checkouts := by rw [hLive]
  refine clientStep_silent (by rw [hLive]) ?_ ?_ fun t transaction _ hGet => ?_
  · rw [hCheckouts]
    exact .refl Checkout.Persists.refl _
  · rw [hTransactions]
    exact .refl Transaction.Persists.refl _
  · rw [hTransactions, hCheckouts]
    exact ⟨hGet, rfl⟩

end Store

/-! ## Custodies -/

/-- Clients keep the accounts and leave the manager alone, and all transactions but the one that
they were asked to do something in. -/
def clients (own : Option Nat) : Custody Store Hand where
  inv := Store.Accounts
  guar := Store.ClientStep own
  guar_refl := Store.ClientStep.refl
  guar_trans := Store.ClientStep.trans

/-- Transitions keep the accounts, and leave all transactions alone. -/
def transitions : Custody Store Hand where
  inv := Store.Accounts
  guar := Store.Step none
  guar_refl := Store.Step.refl
  guar_trans := Store.Step.trans

/-- A custody of the accounts in which calls may be made on connections. -/
structure Custody.KeepsAccounts (own : Option Nat) (c : Custody Store Hand) : Prop where
  inv : c.inv = Store.Accounts
  note : ∀ (s : Store) (made : Call) (k : Nat), made.onConnection = some k → s.IsFree own k →
    c.guar s (s.onLive (Live.note made))
  acquire : ∀ s : Store, c.guar s (s.onLive fun l => { l with connections := l.connections + 1 })

theorem clients_keepsAccounts {own : Option Nat} : (clients own).KeepsAccounts own where
  inv := rfl
  note := fun _ _ _ hOn hFree => Store.clientStep_note (.inl (Option.isSome_of_eq_some hOn))
    fun _ hl => Option.some.inj (hOn.symm.trans hl) ▸ hFree
  acquire := fun _ => Store.clientStep_aside rfl rfl

theorem transitions_keepsAccounts : transitions.KeepsAccounts none where
  inv := rfl
  note := fun _ _ _ hOn hFree => Store.step_note fun _ hl =>
    Option.some.inj (hOn.symm.trans hl) ▸ hFree
  acquire := fun _ => Store.step_silent rfl rfl rfl

namespace Manager

section Connections

variable {own : Option Nat} {c : Custody Store Hand} (hc : c.KeepsAccounts own) {x : Hand}

include hc

theorem with_iff {others : Hand} {s : Store} : c.With x others s ↔ s.Accounts (x + others) := by
  rw [Custody.With, hc.inv]

/-- A call on a connection that does not hand it back. -/
theorem minds_callOnConnection {P : Hand → Store → Prop} {made : Call} {k : Nat}
    (hOn : made.onConnection = some k) (hBack : made.handedBack = none)
    (hP : ∀ others s, P others s → c.With x others s ∧ s.IsFree own k) :
    Minds c P (call made) fun _ => c.With x := by
  refine minds_call fun others s hs => ⟨hc.note s made k hOn (hP others s hs).2, ?_⟩
  rw [with_iff hc]
  exact ((with_iff hc).mp (hP others s hs).1).note hBack

/-- Acquiring a connection, which the caller may do. -/
theorem minds_acquire {P : Hand → Store → Prop} (pool : Nat)
    (hP : ∀ others s, P others s → c.With x others s ∧
      c.guar s (s.onLive (Live.note (.acquire pool)))) :
    Minds c P (acquire pool) fun r =>
      match r with
      | .ok k => c.With (({k}, 0) + x)
      | .error _ => c.With x := by
  have hCall : Minds c P (call (.acquire pool)) fun _ => c.With x := by
    refine minds_call fun others s hs => ⟨(hP others s hs).2, ?_⟩
    rw [with_iff hc]
    exact ((with_iff hc).mp (hP others s hs).1).note rfl
  refine minds_bind hCall (fun e => ?_) fun e others s hs => hs
  refine minds_onLive fun others s hs => ⟨hc.acquire s, ?_⟩
  rw [with_iff hc] at hs
  show c.With _ others _
  rw [with_iff hc, add_assoc]
  exact hs.acquire

/-- Nothing else is on a connection that is in hand. -/
theorem isFree_of_hand {k : Nat} {others : Hand} {s : Store}
    (h : c.With (({k}, 0) + x) others s) : s.IsFree own k := by
  rw [with_iff hc, add_assoc] at h
  exact h.isFree_of_hand

/-- Handing back a connection that is in hand. -/
theorem minds_handBack (k : Nat) :
    Minds c (c.With (({k}, 0) + x)) (handBack k) fun _ => c.With x := by
  have hCall : Minds c (c.With (({k}, 0) + x)) (call (.release k)) fun _ => c.With x := by
    refine minds_call fun others s hs => ⟨hc.note s _ k rfl (isFree_of_hand hc hs), ?_⟩
    rw [with_iff hc, add_assoc] at hs
    rw [with_iff hc]
    exact hs.handBack
  exact minds_bind hCall (fun _ => minds_pure fun others s hs => hs) fun e others s hs => hs

/-- Running a statement. -/
theorem minds_execute {P : Hand → Store → Prop} (k : Nat) (sql : String)
    (hP : ∀ others s, P others s → c.With x others s ∧ s.IsFree own k) :
    Minds c P (execute k sql) fun _ => c.With x :=
  minds_bind (minds_callOnConnection hc rfl rfl hP) (fun _ => minds_pure fun _ _ hs => hs)
    fun _ _ _ hs => hs

/-- Running a statement on a connection of a pool, from which the caller may take it. -/
theorem minds_executeOn {P : Hand → Store → Prop} (pool : Nat) (sql : String)
    (hP : ∀ others s, P others s → c.With x others s ∧
      c.guar s (s.onLive (Live.note (.acquire pool)))) :
    Minds c P (executeOn pool sql) fun _ => c.With x := by
  refine minds_bind (minds_acquire hc pool hP) (fun k => ?_) fun e others s hs => hs
  refine minds_ensuring ?_ fun _ => minds_handBack hc k
  exact minds_execute hc k sql fun others s hs => ⟨hs, isFree_of_hand hc hs⟩

end Connections

/-! ## Transitions -/

section Transitions

/-- A call that a transition makes on anything but a connection. -/
theorem balanced_transitionCall {made : Call} (hOn : made.onConnection = none) :
    Balanced transitions (call made) := by
  refine balanced_call (fun s => Store.step_note fun k hk => ?_) fun _ _ hs => hs.note ?_
  · rw [hOn] at hk
    cases hk
  · cases made <;> first | rfl | cases hOn

/-- A change of the live backend that the accounts do not see. -/
theorem balanced_transitionChange {f : Live → Live} (hLog : ∀ l, (f l).log = l.log)
    (hForecast : ∀ l, (f l).forecast = l.forecast)
    (hConnections : ∀ l, (f l).connections = l.connections)
    (hCheckouts : ∀ l, (f l).checkouts = l.checkouts) :
    Balanced transitions (Action.change (Store.onLive f)) :=
  balanced_change (fun _ => Store.step_silent (hLog _) (hForecast _) (hCheckouts _))
    fun _ _ hs => hs.congr (congrArg handedBack (hLog _)) (hConnections _) (hCheckouts _) rfl rfl

theorem balanced_transitionStep {α : Type} {f : Live → α × Live}
    (hLog : ∀ l, (f l).2.log = l.log) (hForecast : ∀ l, (f l).2.forecast = l.forecast)
    (hConnections : ∀ l, (f l).2.connections = l.connections)
    (hCheckouts : ∀ l, (f l).2.checkouts = l.checkouts) : Balanced transitions (onLive f) :=
  balanced_onLive
    (fun _ => Store.step_silent (f := fun l => (f l).2) (hLog _) (hForecast _) (hCheckouts _))
    fun _ _ hs => hs.congr (congrArg handedBack (hLog _)) (hConnections _) (hCheckouts _) rfl rfl

theorem balanced_closeTunnel (t : Nat) : Balanced transitions (Tunnel.close t) := by
  refine (balanced_transitionStep (fun _ => rfl) (fun _ => rfl) (fun _ => rfl) fun _ => rfl).bind fun opened => ?_
  have hConnection : Balanced transitions (if opened.hasConnection = true then do
      let _ ← call (.sshClose t)
      let _ ← call (.sshWaitClosed t)
      pure ()
    else pure ()) := by
    split
    · exact (balanced_transitionCall rfl).bind fun _ =>
        (balanced_transitionCall rfl).bind fun _ => balanced_pure
    · exact balanced_pure
  show Balanced transitions (if opened.listener.isSome = true then _ else _)
  split
  · exact (balanced_transitionCall rfl).bind fun _ =>
      (balanced_transitionCall rfl).bind fun _ => hConnection
  · exact hConnection

theorem balanced_clientOptions (db : Database) : Balanced transitions (Tunnel.clientOptions db) := by
  have hKey : Balanced transitions (Tunnel.privateKey db) := by
    unfold Tunnel.privateKey
    split
    · exact balanced_pure
    · exact balanced_wait.bind fun _ => balanced_ofResult.bind fun _ => balanced_pure
    · exact balanced_pure
  refine hKey.bind fun key => ?_
  cases key with
  | none => exact balanced_pure
  | some key => exact (balanced_transitionCall rfl).bind fun _ => balanced_pure

theorem balanced_connectTunnel (db : Database) (t : Nat) :
    Balanced transitions (Tunnel.connect db t) := by
  have hChange : ∀ f : Tunnel → Tunnel,
      Balanced transitions (Action.change (Store.onLive (Live.setTunnel t f))) :=
    fun _ => balanced_transitionChange (fun _ => rfl) (fun _ => rfl) (fun _ => rfl) fun _ => rfl
  have hSetUp : Balanced transitions (Tunnel.setUp db t) := by
    refine (balanced_clientOptions db).bind fun options => balanced_ofResult.bind fun options => ?_
    refine Balanced.bind (balanced_transitionChange (fun _ => rfl) (fun _ => rfl) (fun _ => rfl) fun _ => rfl)
      fun _ => ?_
    refine (balanced_transitionCall rfl).bind fun _ => (hChange _).bind fun _ => ?_
    exact (balanced_transitionCall rfl).bind fun e => hChange _
  refine hSetUp.outcome_bind fun r => ?_
  cases r with
  | ok x => exact balanced_pure
  | error f =>
    show Balanced transitions (if Tunnel.isExpected f = true then _ else _)
    split
    · exact (balanced_closeTunnel t).bind fun _ => balanced_throw
    · exact balanced_throw

theorem balanced_takeDown_tunnel : Balanced transitions (do
    let tunnel ← onLive fun l => (l.manager.tunnel, l.manage ({ · with tunnel := none }))
    if let some t := tunnel then
      Action.quietly (Tunnel.close t)) := by
  refine (balanced_transitionStep (fun _ => rfl) (fun _ => rfl) (fun _ => rfl)
    fun _ => rfl).bind fun tunnel => ?_
  cases tunnel with
  | none => exact balanced_pure
  | some t => exact (balanced_closeTunnel t).quietly

theorem balanced_takeDown : Balanced transitions takeDown := by
  refine (balanced_transitionStep (fun _ => rfl) (fun _ => rfl) (fun _ => rfl)
    fun _ => rfl).bind fun pool => ?_
  cases pool with
  | none => exact balanced_takeDown_tunnel
  | some pool =>
    refine Balanced.bind (Balanced.quietly ?_) fun _ => balanced_takeDown_tunnel
    exact (balanced_transitionCall rfl).bind fun _ =>
      (balanced_transitionCall rfl).bind fun _ => balanced_pure

/-- Entering a phase, or forgetting the pending transition. -/
theorem balanced_onManager (f : Manager → Manager) :
    Balanced transitions (Action.change (Store.onManager f)) :=
  balanced_transitionChange (fun _ => rfl) (fun _ => rfl) (fun _ => rfl) fun _ => rfl

theorem balanced_setUp (db : Database) : Balanced transitions (setUp db) := by
  have hTunnel : Balanced transitions (setUpTunnel db) := by
    refine (balanced_transitionStep (fun _ => rfl) (fun _ => rfl) (fun _ => rfl) fun _ => rfl).bind fun t => ?_
    refine (balanced_connectTunnel db t).bind fun _ => (balanced_onManager _).bind fun _ => ?_
    exact balanced_state_bind fun s => balanced_ofResult
  have hPool : ∀ localEnd, Balanced transitions (setUpPool db.settings localEnd) := fun localEnd =>
    (balanced_transitionCall rfl).bind fun _ =>
      balanced_transitionStep (fun _ => rfl) (fun _ => rfl) (fun _ => rfl) fun _ => rfl
  have hTrial : ∀ pool, Balanced transitions (executeOn pool trialStatement) := fun pool x =>
    minds_executeOn transitions_keepsAccounts pool trialStatement fun others s hs =>
      ⟨hs, Store.step_note fun _ => nofun⟩
  have hRest : ∀ localEnd, Balanced transitions (do
      let pool ← setUpPool db.settings localEnd
      let _ ← executeOn pool trialStatement
      return pool) := fun localEnd =>
    (hPool localEnd).bind fun pool => (hTrial pool).bind fun _ => balanced_pure
  unfold setUp
  show Balanced transitions (if db.settings.tunnel.isEnabled = true then _ else _)
  split
  · exact hTunnel.map.bind hRest
  · exact hRest none

theorem balanced_establish (db : Database) : Balanced transitions (establish db) := by
  refine Balanced.ensuring ((balanced_setUp db).outcome_bind fun r => ?_) (balanced_onManager _)
  cases r with
  | ok pool => exact (balanced_onManager _).bind fun _ => balanced_pure
  | error f =>
    exact balanced_takeDown.bind fun _ => (balanced_onManager _).bind fun _ => balanced_throw

theorem balanced_close : Balanced transitions close := by
  refine Balanced.bind (Balanced.ensuring balanced_takeDown ?_) fun _ => balanced_pure
  exact (balanced_onManager _).bind fun _ => balanced_onManager _

end Transitions

/-- Transitions end with nothing in hand. -/
theorem balanced_transition (db : Database) (transition : Transition) :
    Balanced transitions (transition.action db) := by
  cases transition with
  | establish => exact balanced_establish db
  | close => exact balanced_close

/-! ## Clients -/

section Clients

variable {own : Option Nat} {x : Hand}

/-- The pool of a connected manager. -/
theorem minds_requirePool :
    Minds (clients own) ((clients own).With x) requirePool fun r others s =>
      (clients own).With x others s ∧ s.live.manager.require = r := by
  refine minds_state_bind fun s => minds_ofResult ?_
  rintro others s' ⟨hs, rfl⟩
  exact ⟨hs, rfl⟩

/-- A client may take a connection from the pool of a connected manager. -/
theorem clientStep_acquire {s : Store} {pool : Nat} (h : s.live.manager.require = .ok pool) :
    s.ClientStep own (s.onLive (Live.note (.acquire pool))) :=
  Store.clientStep_note (.inr ⟨pool, rfl, h⟩) fun _ => nofun

/-- Running a statement on any connection. -/
theorem balanced_queryAnywhere (sql : String) : Balanced (clients own) (query sql) := by
  intro x
  refine minds_bind minds_requirePool (fun pool => ?_) fun e others s hs => hs.1
  exact minds_executeOn clients_keepsAccounts pool sql fun others s hs =>
    ⟨hs.1, clientStep_acquire hs.2⟩

/-- Checking out a connection. -/
theorem minds_checkOut : Minds (clients own) ((clients own).With x) checkOut fun r =>
    match r with
    | .ok c => (clients own).With ((0, {c}, 0) + x)
    | .error _ => (clients own).With x := by
  refine minds_bind minds_requirePool (fun pool => ?_) fun e others s hs => hs.1
  have hAcquire := minds_acquire clients_keepsAccounts (c := clients own) (x := x) pool
    (P := fun others s => (clients own).With x others s ∧ s.live.manager.require = .ok pool)
    fun others s hs => ⟨hs.1, clientStep_acquire hs.2⟩
  refine minds_bind hAcquire (fun k => ?_) fun e others s hs => hs
  refine minds_onLive fun others s hs => ?_
  have hAccounts : s.Accounts (({k}, 0) + (x + others)) := by
    rw [← add_assoc]
    exact hs
  refine ⟨?_, ?_⟩
  · refine Store.clientStep_silent rfl (.append Checkout.Persists.refl _ _)
      (.refl Transaction.Persists.refl _) fun t transaction _ hGet => ⟨hGet, ?_⟩
    obtain ⟨checkout, hCheckout⟩ := hAccounts.exists_checkout hGet
    exact List.getElem?_append_left (List.getElem?_eq_some_iff.mp hCheckout).1
  · show Store.Accounts ((0, {s.live.checkouts.length}, 0) + x + others) _
    rw [add_assoc]
    exact hAccounts.checkOut

/-- Looking up a checkout. -/
theorem minds_checkout {P : Hand → Store → Prop} (c : Nat) :
    Minds (clients own) P (checkout c) fun r others s => P others s ∧
      match r with
      | .ok checkout => s.live.checkouts[c]? = some checkout
      | .error _ => s.live.checkouts[c]? = none := by
  refine minds_state_bind fun s => ?_
  cases hGet : s.live.checkouts[c]? with
  | none =>
    refine minds_throw ?_
    rintro others s' ⟨hs, rfl⟩
    exact ⟨hs, hGet⟩
  | some checkout =>
    refine minds_pure ?_
    rintro others s' ⟨hs, rfl⟩
    exact ⟨hs, hGet⟩

/-- Doing something on the connection of a checkout that no other transaction has. -/
theorem minds_onCheckout {α : Type} {c : Nat} {f : Nat → Action Store α}
    (hApart : ∀ others s, (clients own).With x others s → s.IsApart own c)
    (hf : ∀ k, Minds (clients own)
      (fun others s => (clients own).With x others s ∧ s.IsFree own k) (f k)
      fun _ => (clients own).With x) :
    Minds (clients own) ((clients own).With x) (checkout c >>= fun checkout => f checkout.connection)
      fun _ => (clients own).With x := by
  refine minds_bind (minds_checkout c) (fun checkout => ?_) fun e others s hs => hs.1
  exact (hf checkout.connection).mono
    (fun others s hs => ⟨hs.1, Store.Accounts.isFree hs.1 hs.2 (hApart others s hs.1)⟩)
    fun _ _ _ hs => hs

/-- A call on a checkout that no other transaction has. -/
theorem minds_callOn (c : Nat) {make : Nat → Call} (hOn : ∀ k, (make k).onConnection = some k)
    (hBack : ∀ k, (make k).handedBack = none)
    (hApart : ∀ others s, (clients own).With x others s → s.IsApart own c) :
    Minds (clients own) ((clients own).With x) (callOn c make) fun _ => (clients own).With x :=
  minds_onCheckout (f := fun k => do let _ ← call (make k)) hApart fun k =>
    minds_bind (minds_callOnConnection clients_keepsAccounts (hOn k) (hBack k) fun _ _ hs => hs)
      (fun _ => minds_pure fun _ _ hs => hs) fun _ _ _ hs => hs

theorem minds_queryOn (c : Nat) (sql : String)
    (hApart : ∀ others s, (clients own).With x others s → s.IsApart own c) :
    Minds (clients own) ((clients own).With x) (queryOn c sql) fun _ => (clients own).With x :=
  minds_onCheckout (f := fun k => execute k sql) hApart fun k =>
    minds_execute clients_keepsAccounts k sql fun _ _ hs => hs

/-- Releasing a checkout: nothing happens if it is released already, or is none.  If it is not,
then no other transaction has it or is on its connection. -/
theorem minds_release {c : Nat} {P R : Hand → Store → Prop}
    (hIdle : ∀ others s, P others s → s.live.isOut c = false → R others s)
    (hReturned : ∀ others s, P others s → s.live.isOut c = true →
      R others (s.returned c) ∧ s.IsApart own c ∧ s.IsFree own (s.live.connectionOf c)) :
    Minds (clients own) P (release c) fun _ => R := by
  refine minds_bind (minds_checkout c) (fun checkout => ?_) fun e others s hs =>
    hIdle others s hs.1 ?_
  · show Minds (clients own) (fun others s => P others s ∧ s.live.checkouts[c]? = some checkout)
      (if checkout.isReleased = true then _ else _) _
    split
    · rename_i hReleased
      refine minds_pure fun others s hs => hIdle others s hs.1 ?_
      rw [Live.isOut, hs.2]
      simp [hReleased]
    · rename_i hNot
      have hBack : Minds (clients own)
          (fun others s => R others (s.onLive (Live.note (.release checkout.connection))) ∧
            s.IsFree own checkout.connection)
          (handBack checkout.connection) fun _ => R :=
        minds_bind (minds_call_immediate rfl fun others s hs =>
          ⟨Store.clientStep_note (.inl rfl) fun k hk => Option.some.inj hk ▸ hs.2, hs.1⟩)
          (fun _ => minds_pure fun others s hs => hs) fun e others s hs => hs
      refine minds_change_bind (fun others s hs => ?_) hBack
      have hConnection : s.live.connectionOf c = checkout.connection := by
        rw [Live.connectionOf, hs.2]
        rfl
      have hOut : s.live.isOut c = true := by
        rw [Live.isOut, hs.2]
        simp [hNot]
      obtain ⟨hR, hApart, hFree⟩ := hReturned others s hs.1 hOut
      rw [hConnection] at hFree
      refine ⟨?_, ?_, fun t transaction hNe hGet => ?_⟩
      · refine Store.clientStep_silent rfl ?_ (.refl Transaction.Persists.refl _)
          fun t transaction hNe hGet => ⟨hGet, ?_⟩
        · exact Entrywise.modify Checkout.Persists.refl (f := ({ · with isReleased := true }))
            (fun _ => ⟨rfl, fun _ => rfl⟩) _ _
        · exact List.getElem?_modify_ne _ _ (Ne.symm (hApart t transaction hNe hGet))
      · rw [← hConnection]
        exact hR
      · exact Live.connectionOf_released.trans_ne (hFree t transaction hNe hGet)
  · rw [Live.isOut, hs.2]
    rfl

end Clients

end Manager

end SqlWeave
