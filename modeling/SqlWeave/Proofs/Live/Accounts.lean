import Mathlib.Algebra.Group.Prod
import Mathlib.Algebra.Order.Group.Multiset
import Mathlib.Data.Multiset.Filter
import Mathlib.Data.List.Range
import Mathlib.Tactic.Abel
import SqlWeave.Proofs.Lists
import SqlWeave.Store

/-!
# Accounts of connections

A connection that was acquired is somewhere until it is handed back: in the hand of a routine,
or checked out.  A checkout that is not released is somewhere as well: in the hand of a routine,
with an open transaction, or with a caller who holds it.  `Store.Accounts` says that nothing is
lost and nothing is counted twice, as two equations between multisets; that both add up to lists
without duplicates is what rules out that a connection is handed back twice.

## Main results

* `Accounts.acquire`, `Accounts.handBack`, `Accounts.checkOut`, `Accounts.begin`,
  `Accounts.hold`, `Accounts.releaseHand`, `Accounts.finish`, `Accounts.releaseHeld`: what is
  done keeps the accounts.
* `Accounts.length_outstanding`: how many connections are outstanding when nothing is in hand.
* `Accounts.closed_iff`: a transaction is closed exactly if its connection was handed back.
-/

namespace SqlWeave

/-- The connection that a call hands back. -/
def Call.handedBack : Call → Option Nat
  | .release connection => some connection
  | _ => none

/-- The connections that a log hands back, in order. -/
def handedBack (log : List Call) : List Nat :=
  log.filterMap Call.handedBack

theorem mem_handedBack {log : List Call} {k : Nat} : k ∈ handedBack log ↔ .release k ∈ log := by
  rw [handedBack, List.mem_filterMap]
  constructor
  · rintro ⟨c, hMem, hBack⟩
    cases c <;> cases hBack
    exact hMem
  · exact fun hMem => ⟨_, hMem, rfl⟩

theorem handedBack_snoc (log : List Call) (c : Call) :
    handedBack (log ++ [c]) = handedBack log ++ c.handedBack.toList := by
  cases hc : c.handedBack <;> simp [handedBack, hc]

/-! ## Checkouts -/

namespace Live

/-- The checkout is there and not released. -/
def isOut (l : Live) (c : Nat) : Bool :=
  l.checkouts[c]?.any (!·.isReleased)

/-- The checkouts that are not released. -/
def out (l : Live) : List Nat :=
  (List.range l.checkouts.length).filter l.isOut

/-- The connection of a checkout. -/
def connectionOf (l : Live) (c : Nat) : Nat :=
  (l.checkouts[c]?.map Checkout.connection).getD 0

/-- The connections that are checked out. -/
def connectionsOut (l : Live) : List Nat :=
  l.out.map l.connectionOf

/-- The connections that were acquired and not handed back. -/
def outstanding (l : Live) : List Nat :=
  (List.range' 1 l.connections).filter (· ∉ handedBack l.log)

/-- The state with a checkout released. -/
def released (c : Nat) (l : Live) : Live :=
  { l with checkouts := l.checkouts.modify c ({ · with isReleased := true }) }

/-- The state with one more checkout. -/
def checkedOut (connection : Nat) (l : Live) : Live :=
  { l with checkouts := l.checkouts ++ [{ connection }] }

variable {l : Live} {c d : Nat}

theorem isOut_iff : l.isOut c = true ↔
    ∃ checkout, l.checkouts[c]? = some checkout ∧ checkout.isReleased = false := by
  unfold isOut
  cases l.checkouts[c]? <;> simp

theorem lt_of_isOut (h : l.isOut c = true) : c < l.checkouts.length := by
  obtain ⟨checkout, hGet, -⟩ := isOut_iff.mp h
  exact (List.getElem?_eq_some_iff.mp hGet).1

theorem mem_out : c ∈ l.out ↔ l.isOut c = true := by
  rw [out, List.mem_filter, List.mem_range]
  exact ⟨And.right, fun h => ⟨lt_of_isOut h, h⟩⟩

theorem nodup_out : l.out.Nodup :=
  List.nodup_range.filter _

theorem getElem?_released : (l.released c).checkouts[d]? =
    (fun checkout : Checkout => if c = d then { checkout with isReleased := true } else checkout)
      <$> l.checkouts[d]? :=
  List.getElem?_modify ..

theorem isOut_released : (l.released c).isOut d = (l.isOut d && d != c) := by
  unfold isOut
  rw [getElem?_released]
  by_cases h : c = d
  · subst h
    cases l.checkouts[c]? <;> simp
  · have hNe : (d != c) = true := bne_iff_ne.mpr (Ne.symm h)
    cases l.checkouts[d]? <;> simp [h, hNe]

theorem connectionOf_released : (l.released c).connectionOf d = l.connectionOf d := by
  unfold connectionOf
  rw [getElem?_released]
  cases l.checkouts[d]? with
  | none => rfl
  | some checkout => by_cases h : c = d <;> simp [h]

theorem out_released : (l.released c).out = l.out.filter (· != c) := by
  rw [out, out, List.filter_filter, released, List.length_modify]
  exact List.filter_congr fun d _ => isOut_released.trans (Bool.and_comm _ _)

theorem cons_out_released (h : l.isOut c = true) :
    (l.out : Multiset Nat) = c ::ₘ ((l.released c).out : Multiset Nat) := by
  rw [out_released, ← nodup_out.erase_eq_filter, Multiset.cons_coe, Multiset.coe_eq_coe]
  exact List.perm_cons_erase (mem_out.mpr h)

theorem cons_connectionsOut_released (h : l.isOut c = true) :
    (l.connectionsOut : Multiset Nat) =
      l.connectionOf c ::ₘ ((l.released c).connectionsOut : Multiset Nat) := by
  have hSame : (l.released c).connectionOf = l.connectionOf := funext fun _ => connectionOf_released
  rw [connectionsOut, connectionsOut, hSame, ← Multiset.map_coe, ← Multiset.map_coe,
    cons_out_released h, Multiset.map_cons]

theorem getElem?_checkedOut_of_lt {connection : Nat} (h : d < l.checkouts.length) :
    (l.checkedOut connection).checkouts[d]? = l.checkouts[d]? :=
  List.getElem?_append_left h

theorem getElem?_checkedOut_length (connection : Nat) :
    (l.checkedOut connection).checkouts[l.checkouts.length]? = some { connection } :=
  List.getElem?_concat_length

theorem isOut_checkedOut_of_lt {connection : Nat} (h : d < l.checkouts.length) :
    (l.checkedOut connection).isOut d = l.isOut d := by
  unfold isOut
  rw [getElem?_checkedOut_of_lt h]

theorem out_checkedOut (connection : Nat) :
    (l.checkedOut connection).out = l.out ++ [l.checkouts.length] := by
  have hNew : (l.checkedOut connection).isOut l.checkouts.length = true := by
    unfold isOut
    rw [getElem?_checkedOut_length]
    rfl
  have hLength : (l.checkedOut connection).checkouts.length = l.checkouts.length + 1 :=
    List.length_append
  rw [out, hLength, List.range_succ, List.filter_append]
  refine congrArg₂ _ (List.filter_congr fun d hMem => ?_) ?_
  · exact isOut_checkedOut_of_lt (List.mem_range.mp hMem)
  · rw [List.filter_cons_of_pos hNew, List.filter_nil]

theorem connectionsOut_checkedOut (connection : Nat) :
    (l.checkedOut connection).connectionsOut = l.connectionsOut ++ [connection] := by
  rw [connectionsOut, out_checkedOut, List.map_append, List.map_singleton]
  refine congrArg₂ _ (List.map_congr_left fun d hMem => ?_) ?_
  · unfold connectionOf
    rw [getElem?_checkedOut_of_lt (lt_of_isOut (mem_out.mp hMem))]
  · unfold connectionOf
    rw [getElem?_checkedOut_length]
    rfl

end Live

/-! ## Accounts -/

/-- What a routine has in hand: connections, checkouts, and transactions with the checkouts that
it looked up for them. -/
abbrev Hand : Type :=
  Multiset Nat × Multiset Nat × Multiset (Nat × Nat)

namespace Store

/-- The checkouts of the open transactions. -/
def pinned (s : Store) : List Nat :=
  (s.transactions.filter (!·.isClosed)).map Transaction.connection

/-- The checkouts of all transactions, in order. -/
def transactionCheckouts (s : Store) : List Nat :=
  s.transactions.map Transaction.connection

/-- What callers hold and have not released. -/
def heldOut (s : Store) : List Nat :=
  s.held.filter s.live.isOut

/-- Every connection and every checkout is in one place. -/
structure Accounts (x : Hand) (s : Store) : Prop where
  connections : (handedBack s.live.log : Multiset Nat) + x.1 + (s.live.connectionsOut : Multiset Nat) =
    (List.range' 1 s.live.connections : Multiset Nat)
  checkouts : x.2.1 + (s.pinned : Multiset Nat) + (s.heldOut : Multiset Nat) =
    (s.live.out : Multiset Nat)
  released_back : ∀ (c : Nat) (checkout : Checkout), s.live.checkouts[c]? = some checkout →
    checkout.isReleased = true → checkout.connection ∈ handedBack s.live.log
  closed_released : ∀ (t : Nat) (transaction : Transaction), s.transactions[t]? = some transaction →
    transaction.isClosed = true → ∃ checkout, s.live.checkouts[transaction.connection]? =
      some checkout ∧ checkout.isReleased = true
  held_lt : ∀ c ∈ s.held, c < s.live.checkouts.length
  connections_distinct : (s.live.checkouts.map Checkout.connection).Nodup
  transactions_distinct : s.transactionCheckouts.Nodup
  looked_up : ∀ p ∈ x.2.2, s.transactionCheckouts[p.1]? = some p.2

variable {x : Hand} {s : Store}

/-- The accounts of a store that was not used. -/
theorem accounts_new {forecast : Forecast} : Accounts 0 { live := { forecast } } where
  connections := rfl
  checkouts := rfl
  released_back := nofun
  closed_released := nofun
  held_lt := nofun
  connections_distinct := List.nodup_nil
  transactions_distinct := List.nodup_nil
  looked_up := fun _ hMem => absurd hMem (Multiset.notMem_zero _)

/-- The accounts are about what was handed back, the number of connections, the checkouts, the
transactions and what is held. -/
theorem Accounts.congr {s' : Store} (h : s.Accounts x)
    (hLog : handedBack s'.live.log = handedBack s.live.log)
    (hConnections : s'.live.connections = s.live.connections)
    (hCheckouts : s'.live.checkouts = s.live.checkouts)
    (hTransactions : s'.transactions = s.transactions) (hHeld : s'.held = s.held) :
    s'.Accounts x := by
  have hIsOut : s'.live.isOut = s.live.isOut := by
    funext c
    rw [Live.isOut, Live.isOut, hCheckouts]
  have hOut : s'.live.out = s.live.out := by
    rw [Live.out, Live.out, hIsOut, hCheckouts]
  have hConnectionsOut : s'.live.connectionsOut = s.live.connectionsOut := by
    unfold Live.connectionsOut Live.connectionOf
    rw [hOut, hCheckouts]
  refine ⟨?_, ?_, ?_, ?_, ?_, ?_, ?_, ?_⟩
  · rw [hLog, hConnections, hConnectionsOut]
    exact h.connections
  · rw [pinned, heldOut, hTransactions, hHeld, hIsOut, hOut]
    exact h.checkouts
  · rw [hLog, hCheckouts]
    exact h.released_back
  · rw [hTransactions, hCheckouts]
    exact h.closed_released
  · rw [hHeld, hCheckouts]
    exact h.held_lt
  · rw [hCheckouts]
    exact h.connections_distinct
  · rw [transactionCheckouts, hTransactions]
    exact h.transactions_distinct
  · rw [transactionCheckouts, hTransactions]
    exact h.looked_up

/-! ### What the accounts rule out -/

/-- No connection is in two places. -/
theorem Accounts.nodup_connections (h : s.Accounts x) :
    ((handedBack s.live.log : Multiset Nat) + x.1 + (s.live.connectionsOut : Multiset Nat)).Nodup := by
  rw [h.connections]
  exact Multiset.coe_nodup.mpr List.nodup_range'

/-- No checkout is in two places. -/
theorem Accounts.nodup_checkouts (h : s.Accounts x) :
    (x.2.1 + (s.pinned : Multiset Nat) + (s.heldOut : Multiset Nat)).Nodup := by
  rw [h.checkouts]
  exact Multiset.coe_nodup.mpr Live.nodup_out

theorem mem_pinned {t : Nat} {transaction : Transaction}
    (hGet : s.transactions[t]? = some transaction) (hOpen : transaction.isClosed = false) :
    transaction.connection ∈ s.pinned :=
  List.mem_map_of_mem (List.mem_filter.mpr ⟨List.mem_of_getElem? hGet, by simpa using hOpen⟩)

/-- The checkout of an open transaction is not released. -/
theorem Accounts.isOut_of_open (h : s.Accounts x) {t : Nat} {transaction : Transaction}
    (hGet : s.transactions[t]? = some transaction) (hOpen : transaction.isClosed = false) :
    s.live.isOut transaction.connection = true := by
  rw [← Live.mem_out, ← Multiset.mem_coe, ← h.checkouts, Multiset.mem_add, Multiset.mem_add]
  exact .inl (.inr (mem_pinned hGet hOpen))

/-- Every transaction has a checkout. -/
theorem Accounts.exists_checkout (h : s.Accounts x) {t : Nat} {transaction : Transaction}
    (hGet : s.transactions[t]? = some transaction) :
    ∃ checkout, s.live.checkouts[transaction.connection]? = some checkout := by
  cases hClosed : transaction.isClosed with
  | true =>
    obtain ⟨checkout, hCheckout, -⟩ := h.closed_released t transaction hGet hClosed
    exact ⟨checkout, hCheckout⟩
  | false =>
    obtain ⟨checkout, hCheckout, -⟩ := Live.isOut_iff.mp (h.isOut_of_open hGet hClosed)
    exact ⟨checkout, hCheckout⟩

/-- The connection of a checkout was handed back or is checked out. -/
theorem Accounts.place_of_checkout (h : s.Accounts x) {c : Nat} {checkout : Checkout}
    (hGet : s.live.checkouts[c]? = some checkout) :
    checkout.connection ∈ handedBack s.live.log ∨ checkout.connection ∈ s.live.connectionsOut := by
  cases hReleased : checkout.isReleased with
  | true => exact .inl (h.released_back c checkout hGet hReleased)
  | false =>
    have hOut : s.live.isOut c = true := Live.isOut_iff.mpr ⟨checkout, hGet, hReleased⟩
    have hConnection : s.live.connectionOf c = checkout.connection := by
      rw [Live.connectionOf, hGet]
      rfl
    exact .inr (hConnection ▸ List.mem_map_of_mem (Live.mem_out.mpr hOut))

/-- A connection in hand is not that of a checkout. -/
theorem Accounts.connection_ne_of_hand {k : Nat} (h : s.Accounts (({k}, 0) + x)) {c : Nat}
    {checkout : Checkout} (hGet : s.live.checkouts[c]? = some checkout) :
    checkout.connection ≠ k := by
  intro hEq
  have hHand : k ∈ (({k}, 0) + x : Hand).1 := Multiset.mem_add.mpr (.inl (Multiset.mem_singleton_self k))
  obtain ⟨hInner, -, hOuter⟩ := Multiset.nodup_add.mp h.nodup_connections
  rcases h.place_of_checkout hGet with hBack | hOut
  · exact Multiset.disjoint_left.mp (Multiset.nodup_add.mp hInner).2.2 (hEq ▸ hBack) hHand
  · exact Multiset.disjoint_left.mp hOuter (Multiset.mem_add.mpr (.inr hHand)) (hEq ▸ hOut)

/-- A checkout that is not released and is not with an open transaction is with none. -/
theorem Accounts.checkout_ne (h : s.Accounts x) {c t : Nat} {transaction : Transaction}
    (hGet : s.transactions[t]? = some transaction) (hOut : s.live.isOut c = true)
    (hPinned : c ∉ s.pinned) : transaction.connection ≠ c := by
  intro hEq
  cases hClosed : transaction.isClosed with
  | true =>
    obtain ⟨checkout, hCheckout, hReleased⟩ := h.closed_released t transaction hGet hClosed
    obtain ⟨other, hOther, hNot⟩ := Live.isOut_iff.mp hOut
    rw [hEq, hOther, Option.some.injEq] at hCheckout
    rw [hCheckout, hReleased] at hNot
    cases hNot
  | false => exact hPinned (hEq ▸ mem_pinned hGet hClosed)

/-- A checkout in hand is not that of a transaction. -/
theorem Accounts.checkout_ne_of_hand {c : Nat} (h : s.Accounts ((0, {c}, 0) + x)) {t : Nat}
    {transaction : Transaction} (hGet : s.transactions[t]? = some transaction) :
    transaction.connection ≠ c := by
  have hHand : c ∈ ((0, {c}, 0) + x : Hand).2.1 :=
    Multiset.mem_add.mpr (.inl (Multiset.mem_singleton_self c))
  refine h.checkout_ne hGet ?_ fun hMem => ?_
  · rw [← Live.mem_out, ← Multiset.mem_coe, ← h.checkouts]
    exact Multiset.mem_add.mpr (.inl (Multiset.mem_add.mpr (.inl hHand)))
  · have hDisjoint := (Multiset.nodup_add.mp (Multiset.nodup_add.mp h.nodup_checkouts).1).2.2
    exact Multiset.disjoint_left.mp hDisjoint hHand hMem

/-- A checkout that a caller holds and has not released is not that of a transaction. -/
theorem Accounts.checkout_ne_of_held (h : s.Accounts x) {c : Nat} (hMem : c ∈ s.heldOut) {t : Nat}
    {transaction : Transaction} (hGet : s.transactions[t]? = some transaction) :
    transaction.connection ≠ c := by
  refine h.checkout_ne hGet (List.mem_filter.mp hMem).2 fun hPinned => ?_
  have hDisjoint := (Multiset.nodup_add.mp h.nodup_checkouts).2.2
  exact Multiset.disjoint_left.mp hDisjoint (Multiset.mem_add.mpr (.inr hPinned)) hMem

/-- The checkout that was looked up for a transaction is not that of another one. -/
theorem Accounts.checkout_ne_of_lookedUp {c t : Nat} (h : s.Accounts ((0, 0, {(t, c)}) + x))
    {u : Nat} (hNe : u ≠ t) {transaction : Transaction}
    (hGet : s.transactions[u]? = some transaction) : transaction.connection ≠ c := by
  intro hEq
  have hLookedUp := h.looked_up (t, c) (Multiset.mem_add.mpr (.inl (Multiset.mem_singleton_self _)))
  have hOther : s.transactionCheckouts[u]? = some c := by
    rw [transactionCheckouts, List.getElem?_map, hGet]
    exact congrArg some hEq
  obtain ⟨hu, hu'⟩ := List.getElem?_eq_some_iff.mp hOther
  obtain ⟨ht, ht'⟩ := List.getElem?_eq_some_iff.mp hLookedUp
  exact hNe ((h.transactions_distinct.getElem_inj_iff).mp (hu'.trans ht'.symm))

/-- Two checkouts have two connections. -/
theorem Accounts.connection_ne (h : s.Accounts x) {c d : Nat} (hNe : c ≠ d) {checkout other : Checkout}
    (hGet : s.live.checkouts[c]? = some checkout) (hOther : s.live.checkouts[d]? = some other) :
    checkout.connection ≠ other.connection := by
  intro hEq
  have hAt : ∀ {i : Nat} {a : Checkout}, s.live.checkouts[i]? = some a →
      (s.live.checkouts.map Checkout.connection)[i]? = some a.connection := by
    intro i a ha
    rw [List.getElem?_map, ha]
    rfl
  obtain ⟨hc, hc'⟩ := List.getElem?_eq_some_iff.mp (hAt hGet)
  obtain ⟨hd, hd'⟩ := List.getElem?_eq_some_iff.mp (hAt hOther)
  exact hNe ((h.connections_distinct.getElem_inj_iff).mp (hc'.trans (hEq.trans hd'.symm)))

/-! ### What is done -/

/-- A call that hands nothing back. -/
theorem Accounts.note (h : s.Accounts x) {c : Call} (hBack : c.handedBack = none) :
    (s.onLive (Live.note c)).Accounts x := by
  refine h.congr ?_ rfl rfl rfl rfl
  refine (handedBack_snoc s.live.log c).trans ?_
  rw [hBack]
  exact List.append_nil _

/-- A connection is acquired. -/
theorem Accounts.acquire (h : s.Accounts x) :
    (s.onLive fun l => { l with connections := l.connections + 1 }).Accounts
      (({s.live.connections + 1}, 0) + x) where
  connections := by
    show (handedBack s.live.log : Multiset Nat) + ({s.live.connections + 1} + x.1) +
      (s.live.connectionsOut : Multiset Nat) = (List.range' 1 (s.live.connections + 1) : List Nat)
    have hRange : (List.range' 1 (s.live.connections + 1) : Multiset Nat) =
        (List.range' 1 s.live.connections : Multiset Nat) + {s.live.connections + 1} := by
      rw [List.range'_concat, Nat.one_mul, Nat.add_comm 1]
      rfl
    rw [hRange, ← h.connections]
    abel
  checkouts := by
    show 0 + x.2.1 + (s.pinned : Multiset Nat) + (s.heldOut : Multiset Nat) = _
    rw [zero_add]
    exact h.checkouts
  released_back := h.released_back
  closed_released := h.closed_released
  held_lt := h.held_lt
  connections_distinct := h.connections_distinct
  transactions_distinct := h.transactions_distinct
  looked_up := fun p hMem => h.looked_up p (Multiset.mem_add.mp hMem |>.resolve_left (Multiset.notMem_zero p))

/-- A connection that is in hand is handed back. -/
theorem Accounts.handBack {k : Nat} (h : s.Accounts (({k}, 0) + x)) :
    (s.onLive (Live.note (.release k))).Accounts x where
  connections := by
    show (handedBack (s.live.log ++ [.release k]) : Multiset Nat) + x.1 +
      (s.live.connectionsOut : Multiset Nat) = _
    rw [handedBack_snoc, ← Multiset.coe_add]
    refine Eq.trans ?_ h.connections
    show _ + ({k} : Multiset Nat) + x.1 + _ = _ + ({k} + x.1) + _
    abel
  checkouts := by
    refine Eq.trans ?_ h.checkouts
    show x.2.1 + _ + _ = 0 + x.2.1 + _ + _
    rw [zero_add]
    rfl
  released_back := by
    intro c checkout hGet hReleased
    show _ ∈ handedBack (s.live.log ++ [.release k])
    rw [handedBack_snoc]
    exact List.mem_append_left _ (h.released_back c checkout hGet hReleased)
  closed_released := h.closed_released
  held_lt := h.held_lt
  connections_distinct := h.connections_distinct
  transactions_distinct := h.transactions_distinct
  looked_up := fun p hMem => h.looked_up p (Multiset.mem_add.mpr (.inr hMem))

/-- A connection that is in hand is checked out. -/
theorem Accounts.checkOut {k : Nat} (h : s.Accounts (({k}, 0) + x)) :
    (s.onLive (Live.checkedOut k)).Accounts ((0, {s.live.checkouts.length}, 0) + x) where
  connections := by
    show (handedBack s.live.log : Multiset Nat) + (0 + x.1) +
      ((s.live.checkedOut k).connectionsOut : Multiset Nat) = _
    rw [Live.connectionsOut_checkedOut, ← Multiset.coe_add]
    refine Eq.trans ?_ h.connections
    show _ + (0 + x.1) + (_ + ({k} : Multiset Nat)) = _ + ({k} + x.1) + _
    abel
  checkouts := by
    have hHeldOut : (s.onLive (Live.checkedOut k)).heldOut = s.heldOut :=
      List.filter_congr fun c hMem => Live.isOut_checkedOut_of_lt (h.held_lt c hMem)
    show {s.live.checkouts.length} + x.2.1 + (s.pinned : Multiset Nat) + _ =
      ((s.live.checkedOut k).out : Multiset Nat)
    rw [hHeldOut, Live.out_checkedOut, ← Multiset.coe_add, ← h.checkouts]
    show _ = 0 + x.2.1 + _ + _ + ({s.live.checkouts.length} : Multiset Nat)
    abel
  released_back := by
    intro c checkout hGet hReleased
    rcases Nat.lt_trichotomy c s.live.checkouts.length with hLt | rfl | hGt
    · exact h.released_back c checkout ((Live.getElem?_checkedOut_of_lt hLt).symm.trans hGet)
        hReleased
    · cases (Live.getElem?_checkedOut_length k).symm.trans hGet
      cases hReleased
    · have hLt := (List.getElem?_eq_some_iff.mp hGet).1
      rw [show (s.onLive (Live.checkedOut k)).live.checkouts.length = s.live.checkouts.length + 1
        from List.length_append] at hLt
      omega
  closed_released := by
    intro t transaction hTransaction hClosed
    obtain ⟨checkout, hGet, hReleased⟩ := h.closed_released t transaction hTransaction hClosed
    have hLt := (List.getElem?_eq_some_iff.mp hGet).1
    exact ⟨checkout, (Live.getElem?_checkedOut_of_lt hLt).trans hGet, hReleased⟩
  held_lt := by
    intro c hMem
    show c < (s.live.checkouts ++ [_]).length
    rw [List.length_append]
    exact Nat.lt_of_lt_of_le (h.held_lt c hMem) (Nat.le_add_right _ _)
  connections_distinct := by
    refine nodup_map_snoc h.connections_distinct fun checkout hMem => ?_
    obtain ⟨c, hGet⟩ := List.mem_iff_getElem?.mp hMem
    exact h.connection_ne_of_hand hGet
  transactions_distinct := h.transactions_distinct
  looked_up := h.looked_up

/-- A transaction begins on a checkout that is in hand. -/
theorem Accounts.begin {c : Nat} (h : s.Accounts ((0, {c}, 0) + x)) :
    Accounts x { s with transactions := s.transactions ++ [{ connection := c }] } where
  connections := by
    refine Eq.trans ?_ h.connections
    show _ + x.1 + _ = _ + (0 + x.1) + _
    rw [zero_add]
  checkouts := by
    refine Eq.trans ?_ h.checkouts
    show x.2.1 + ((List.map Transaction.connection (List.filter _ (s.transactions ++ [_])) :
      List Nat) : Multiset Nat) + (s.heldOut : Multiset Nat) =
        {c} + x.2.1 + (s.pinned : Multiset Nat) + _
    rw [List.filter_append, List.map_append, ← Multiset.coe_add]
    show x.2.1 + ((s.pinned : Multiset Nat) + {c}) + _ = _
    abel
  released_back := h.released_back
  closed_released := by
    intro t transaction hTransaction hClosed
    rcases List.mem_append.mp (List.mem_of_getElem? hTransaction) with hOld | hNew
    · obtain ⟨u, hGet⟩ := List.mem_iff_getElem?.mp hOld
      exact h.closed_released u transaction hGet hClosed
    · rw [List.mem_singleton.mp hNew] at hClosed
      cases hClosed
  held_lt := h.held_lt
  connections_distinct := h.connections_distinct
  transactions_distinct := by
    refine nodup_map_snoc h.transactions_distinct fun transaction hMem => ?_
    obtain ⟨t, hGet⟩ := List.mem_iff_getElem?.mp hMem
    exact h.checkout_ne_of_hand hGet
  looked_up := by
    intro p hMem
    have hOld := h.looked_up p (Multiset.mem_add.mpr (.inr hMem))
    show (List.map Transaction.connection (s.transactions ++ [{ connection := c }]))[p.1]? = _
    rw [List.map_append]
    exact (List.getElem?_append_left (List.getElem?_eq_some_iff.mp hOld).1).trans hOld

/-- A caller gets hold of a checkout that is in hand. -/
theorem Accounts.hold {c : Nat} (h : s.Accounts ((0, {c}, 0) + x)) :
    Accounts x { s with held := s.held ++ [c] } := by
  have hOut : c ∈ s.live.out := by
    rw [← Multiset.mem_coe, ← h.checkouts]
    show c ∈ {c} + x.2.1 + _ + _
    simp
  exact {
    connections := by
      refine Eq.trans ?_ h.connections
      show _ + x.1 + _ = _ + (0 + x.1) + _
      rw [zero_add]
    checkouts := by
      refine Eq.trans ?_ h.checkouts
      show x.2.1 + (s.pinned : Multiset Nat) + (List.filter _ (s.held ++ [c]) : Multiset Nat) =
        {c} + x.2.1 + (s.pinned : Multiset Nat) + (s.heldOut : Multiset Nat)
      rw [List.filter_append, List.filter_cons_of_pos (Live.mem_out.mp hOut), List.filter_nil,
        ← Multiset.coe_add]
      show _ + ((s.heldOut : Multiset Nat) + {c}) = _
      abel
    released_back := h.released_back
    closed_released := h.closed_released
    held_lt := by
      intro d hMem
      rcases List.mem_append.mp hMem with hOld | hNew
      · exact h.held_lt d hOld
      · rw [List.mem_singleton.mp hNew]
        exact Live.lt_of_isOut (Live.mem_out.mp hOut)
    connections_distinct := h.connections_distinct
    transactions_distinct := h.transactions_distinct
    looked_up := fun p hMem => h.looked_up p (Multiset.mem_add.mpr (.inr hMem)) }

/-- The accounts with the same connections and checkouts in hand. -/
theorem Accounts.of_hand {y : Hand} (h : s.Accounts x) (hConnections : y.1 = x.1)
    (hCheckouts : y.2.1 = x.2.1) (hLookedUp : ∀ p ∈ y.2.2, s.transactionCheckouts[p.1]? = some p.2) :
    s.Accounts y :=
  { h with
    connections := hConnections ▸ h.connections
    checkouts := hCheckouts ▸ h.checkouts
    looked_up := hLookedUp }

/-- The checkout of a transaction is looked up. -/
theorem Accounts.lookUp (h : s.Accounts x) {t : Nat} {transaction : Transaction}
    (hGet : s.transactions[t]? = some transaction) :
    s.Accounts ((0, 0, {(t, transaction.connection)}) + x) := by
  refine h.of_hand (zero_add _) (zero_add _) fun p hMem => ?_
  rcases Multiset.mem_add.mp hMem with hNew | hOld
  · rw [Multiset.mem_singleton.mp hNew, transactionCheckouts, List.getElem?_map, hGet]
    rfl
  · exact h.looked_up p hOld

/-- What was looked up is forgotten. -/
theorem Accounts.forget {m : Multiset (Nat × Nat)} (h : s.Accounts ((0, 0, m) + x)) :
    s.Accounts x :=
  h.of_hand (zero_add _).symm (zero_add _).symm fun p hMem =>
    h.looked_up p (Multiset.mem_add.mpr (.inr hMem))

/-! ## Releases -/

theorem transactionCheckouts_closeTransaction (t : Nat) (s : Store) :
    (s.closeTransaction t).transactionCheckouts = s.transactionCheckouts :=
  map_modify_of_eq Transaction.connection (f := ({ · with isClosed := true })) (fun _ => rfl) _ _

/-- The store in which a checkout is released and its connection is handed back. -/
def returned (c : Nat) (s : Store) : Store :=
  (s.onLive (Live.released c)).onLive (Live.note (.release (s.live.connectionOf c)))

theorem heldOut_returned (c : Nat) (s : Store) :
    (s.returned c).heldOut = s.heldOut.filter (· != c) := by
  rw [heldOut, heldOut, List.filter_filter]
  exact List.filter_congr fun d _ => Live.isOut_released.trans (Bool.and_comm _ _)

/-- What stays out when a checkout is released. -/
theorem out_returned {c : Nat} {s : Store} {rest : Multiset Nat}
    (h : c ::ₘ rest = (s.live.out : Multiset Nat)) :
    rest = ((s.returned c).live.out : Multiset Nat) ∧ c ∉ rest := by
  have hOut : s.live.isOut c = true := by
    rw [← Live.mem_out, ← Multiset.mem_coe, ← h]
    exact Multiset.mem_cons_self c rest
  refine ⟨(Multiset.cons_inj_right c).mp (h.trans (Live.cons_out_released hOut)), ?_⟩
  have hNodup : (c ::ₘ rest).Nodup := h ▸ Multiset.coe_nodup.mpr Live.nodup_out
  exact (Multiset.nodup_cons.mp hNodup).1

/-- A checkout is released, from wherever it is. -/
theorem Accounts.returned {c : Nat} {y : Hand} (h : s.Accounts x) (hOut : s.live.isOut c = true)
    {s' : Store} (hLive : s'.live = (s.returned c).live) (hConnections : y.1 = x.1)
    (hCheckouts : y.2.1 + (s'.pinned : Multiset Nat) + (s'.heldOut : Multiset Nat) =
      (s'.live.out : Multiset Nat))
    (hTransactions : ∀ (t : Nat) (transaction : Transaction),
      s'.transactions[t]? = some transaction → transaction.isClosed = true →
        transaction.connection = c ∨ s.transactions[t]? = some transaction)
    (hSame : s'.transactionCheckouts = s.transactionCheckouts) (hLookedUp : y.2.2 = x.2.2)
    (hHeld : s'.held = s.held) : s'.Accounts y where
  connections := by
    rw [hLive, hConnections]
    show (handedBack (s.live.log ++ [.release (s.live.connectionOf c)]) : Multiset Nat) + x.1 +
      ((s.live.released c).connectionsOut : Multiset Nat) = _
    rw [handedBack_snoc, ← Multiset.coe_add]
    refine Eq.trans ?_ h.connections
    rw [Live.cons_connectionsOut_released hOut, ← Multiset.singleton_add]
    show _ + ({s.live.connectionOf c} : Multiset Nat) + x.1 + _ = _
    abel
  checkouts := hCheckouts
  released_back := by
    intro d checkout hGet hReleased
    rw [hLive] at hGet ⊢
    show _ ∈ handedBack (s.live.log ++ [.release (s.live.connectionOf c)])
    rw [handedBack_snoc, List.mem_append]
    have hModified := Live.getElem?_released.symm.trans hGet
    obtain ⟨old, hOld, hEq⟩ := Option.map_eq_some_iff.mp hModified
    by_cases hSame : c = d
    · right
      rw [if_pos hSame] at hEq
      subst hSame
      rw [Live.connectionOf, hOld, ← hEq]
      exact List.mem_singleton_self _
    · left
      rw [if_neg hSame] at hEq
      subst hEq
      exact h.released_back d old hOld hReleased
  closed_released := by
    have hReleased : ∀ d checkout, s.live.checkouts[d]? = some checkout →
        c = d ∨ checkout.isReleased = true →
          ∃ checkout, s'.live.checkouts[d]? = some checkout ∧ checkout.isReleased = true := by
      intro d checkout hGet hEither
      rw [hLive]
      refine ⟨_, Live.getElem?_released.trans (congrArg _ hGet), ?_⟩
      by_cases hSame : c = d
      · simp [hSame]
      · simpa [hSame] using hEither
    intro t transaction hTransaction hClosed
    rcases hTransactions t transaction hTransaction hClosed with hNew | hOld
    · obtain ⟨checkout, hGet, -⟩ := Live.isOut_iff.mp hOut
      exact hNew ▸ hReleased c checkout hGet (.inl rfl)
    · obtain ⟨checkout, hGet, hWas⟩ := h.closed_released t transaction hOld hClosed
      exact hReleased _ checkout hGet (.inr hWas)
  held_lt := by
    rw [hLive, hHeld]
    intro d hMem
    show d < (s.live.checkouts.modify _ _).length
    rw [List.length_modify]
    exact h.held_lt d hMem
  connections_distinct := by
    rw [hLive]
    show ((s.live.checkouts.modify c ({ · with isReleased := true })).map Checkout.connection).Nodup
    rw [map_modify_of_eq Checkout.connection (f := ({ · with isReleased := true })) fun _ => rfl]
    exact h.connections_distinct
  transactions_distinct := hSame ▸ h.transactions_distinct
  looked_up := by
    rw [hSame, hLookedUp]
    exact h.looked_up

/-- What is held stays when a checkout is released that is not held. -/
theorem heldOut_returned_of_notMem {c : Nat} (h : c ∉ s.heldOut) :
    (s.returned c).heldOut = s.heldOut := by
  rw [heldOut_returned, List.filter_eq_self]
  intro d hMem
  exact bne_iff_ne.mpr fun hEq => h (hEq ▸ hMem)

/-- A checkout that is in hand is released. -/
theorem Accounts.releaseHand {c : Nat} (h : s.Accounts ((0, {c}, 0) + x)) :
    (s.returned c).Accounts x := by
  have hSplit : c ::ₘ (x.2.1 + (s.pinned : Multiset Nat) + (s.heldOut : Multiset Nat)) =
      (s.live.out : Multiset Nat) := by
    rw [← h.checkouts, ← Multiset.singleton_add]
    show _ = {c} + x.2.1 + _ + _
    abel
  obtain ⟨hRest, hNotMem⟩ := out_returned hSplit
  have hOut : s.live.isOut c = true := by
    rw [← Live.mem_out, ← Multiset.mem_coe, ← hSplit]
    exact Multiset.mem_cons_self _ _
  have hHeld : c ∉ s.heldOut := fun hMem => hNotMem (Multiset.mem_add.mpr (.inr hMem))
  refine h.returned hOut rfl (zero_add x.1).symm ?_ (fun t transaction hGet _ => .inr hGet) rfl
    (zero_add x.2.2).symm rfl
  rw [heldOut_returned_of_notMem hHeld]
  exact hRest

/-- A checkout that a caller holds is released. -/
theorem Accounts.releaseHeld {c : Nat} (h : s.Accounts x) (hMem : c ∈ s.heldOut) :
    (s.returned c).Accounts x := by
  have hOut : s.live.isOut c = true := (List.mem_filter.mp hMem).2
  have hNodup : (s.live.out : Multiset Nat).Nodup := Multiset.coe_nodup.mpr Live.nodup_out
  rw [← h.checkouts] at hNodup
  have hHeldNodup : s.heldOut.Nodup :=
    Multiset.coe_nodup.mp (Multiset.nodup_of_le (Multiset.le_add_left _ _) hNodup)
  have hHeldOut : (s.heldOut : Multiset Nat) = c ::ₘ ((s.returned c).heldOut : Multiset Nat) := by
    rw [heldOut_returned, ← hHeldNodup.erase_eq_filter, Multiset.cons_coe, Multiset.coe_eq_coe]
    exact List.perm_cons_erase hMem
  refine h.returned hOut rfl rfl ?_ (fun t transaction hGet _ => .inr hGet) rfl rfl rfl
  refine (out_returned ?_).1
  rw [← h.checkouts, hHeldOut, ← Multiset.singleton_add, ← Multiset.singleton_add]
  show _ + (_ + (s.pinned : Multiset Nat) + _) = _
  abel

/-- An open transaction that is closed is no more among the pinned ones. -/
theorem cons_pinned_closeTransaction {t : Nat} {transaction : Transaction}
    (hGet : s.transactions[t]? = some transaction) (hOpen : transaction.isClosed = false) :
    (s.pinned : Multiset Nat) =
      transaction.connection ::ₘ ((s.closeTransaction t).pinned : Multiset Nat) := by
  obtain ⟨hLt, hEq⟩ := List.getElem?_eq_some_iff.mp hGet
  have hSplit : s.transactions = s.transactions.take t ++ transaction :: s.transactions.drop (t + 1) := by
    rw [← hEq, List.getElem_cons_drop, List.take_append_drop]
  have hClosed : (s.closeTransaction t).transactions = s.transactions.take t ++
      { transaction with isClosed := true } :: s.transactions.drop (t + 1) := by
    rw [closeTransaction, List.modify_eq_take_cons_drop hLt, hEq]
  rw [pinned, pinned, hClosed, Multiset.cons_coe, Multiset.coe_eq_coe]
  conv => lhs; rw [hSplit]
  simp [List.filter_append, hOpen]

/-- A transaction that is open is finished. -/
theorem Accounts.finish {t : Nat} {transaction : Transaction} (h : s.Accounts x)
    (hGet : s.transactions[t]? = some transaction) (hOpen : transaction.isClosed = false) :
    ((s.closeTransaction t).returned transaction.connection).Accounts x := by
  have hSplit : transaction.connection ::ₘ (x.2.1 +
      ((s.closeTransaction t).pinned : Multiset Nat) + (s.heldOut : Multiset Nat)) =
        (s.live.out : Multiset Nat) := by
    rw [← h.checkouts, cons_pinned_closeTransaction hGet hOpen, ← Multiset.singleton_add,
      ← Multiset.singleton_add]
    abel
  obtain ⟨hRest, hNotMem⟩ := out_returned (s := s.closeTransaction t) hSplit
  have hOut := h.isOut_of_open hGet hOpen
  have hHeld : transaction.connection ∉ (s.closeTransaction t).heldOut :=
    fun hMem => hNotMem (Multiset.mem_add.mpr (.inr hMem))
  refine h.returned hOut rfl rfl ?_ ?_ (transactionCheckouts_closeTransaction t s) rfl rfl
  · rw [heldOut_returned_of_notMem hHeld]
    exact hRest
  · intro u other hOther hClosed
    have hModified : (s.transactions.modify t ({ · with isClosed := true }))[u]? = some other :=
      hOther
    rw [List.getElem?_modify] at hModified
    by_cases hSame : t = u
    · left
      subst hSame
      rw [hGet] at hModified
      simp at hModified
      rw [← hModified]
    · right
      simpa [hSame] using hModified

/-! ## What the accounts say -/

theorem Accounts.nodup_handedBack (h : s.Accounts x) : (handedBack s.live.log).Nodup := by
  have hNodup := h.nodup_connections
  rw [add_assoc] at hNodup
  exact Multiset.coe_nodup.mp (Multiset.nodup_of_le (Multiset.le_add_right _ _) hNodup)

/-- The connections that were acquired and not handed back are in hand or checked out. -/
theorem Accounts.outstanding_eq (h : s.Accounts x) :
    (s.live.outstanding : Multiset Nat) = x.1 + (s.live.connectionsOut : Multiset Nat) := by
  have hNodup := h.nodup_connections
  rw [add_assoc] at hNodup
  have hDisjoint := (Multiset.nodup_add.mp hNodup).2.2
  rw [Live.outstanding, ← Multiset.filter_coe, ← h.connections, add_assoc, Multiset.filter_add]
  have hBack : Multiset.filter (· ∉ handedBack s.live.log) (handedBack s.live.log : Multiset Nat) = 0 :=
    Multiset.filter_eq_nil.mpr fun k hMem hNot => hNot hMem
  rw [hBack, zero_add]
  exact Multiset.filter_eq_self.mpr fun k hMem hBack =>
    Multiset.disjoint_left.mp hDisjoint hBack hMem

/-- When nothing is in hand, as many connections are outstanding as there are open transactions
and connections that callers hold. -/
theorem Accounts.length_outstanding (h : s.Accounts 0) :
    s.live.outstanding.length =
      (s.transactions.filter (!·.isClosed)).length + s.heldOut.length := by
  have hConnections := congrArg Multiset.card h.outstanding_eq
  have hCheckouts := congrArg Multiset.card h.checkouts
  simp [pinned, Live.connectionsOut] at hConnections hCheckouts
  omega

/-- A transaction is closed exactly if its connection was handed back. -/
theorem Accounts.closed_iff (h : s.Accounts x) {t : Nat} {transaction : Transaction}
    (hGet : s.transactions[t]? = some transaction) :
    transaction.isClosed = true ↔
      s.live.connectionOf transaction.connection ∈ handedBack s.live.log := by
  constructor
  · intro hClosed
    obtain ⟨checkout, hCheckout, hReleased⟩ := h.closed_released t transaction hGet hClosed
    rw [Live.connectionOf, hCheckout]
    exact h.released_back _ checkout hCheckout hReleased
  · intro hMem
    refine Classical.byContradiction fun hNot => ?_
    have hOut := h.isOut_of_open hGet (by simpa using hNot)
    have hConnectionOut : s.live.connectionOf transaction.connection ∈ s.live.connectionsOut :=
      List.mem_map_of_mem (Live.mem_out.mpr hOut)
    have hDisjoint := (Multiset.nodup_add.mp h.nodup_connections).2.2
    exact Multiset.disjoint_left.mp hDisjoint (Multiset.mem_add.mpr (.inl hMem)) hConnectionOut

end Store

end SqlWeave
