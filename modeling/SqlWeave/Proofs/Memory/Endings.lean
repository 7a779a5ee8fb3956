import SqlWeave.Proofs.Live.Lifetime

/-!
# How transactions end in memory

What became of the transactions of a database can be read off what was done with it, without a
look at its connections: a transaction is open from the beginning that it comes from up to the
first operation that ends it, and what it is published with are the statements that were sent in
it meanwhile.  `Store.Tallies` says that the in-memory backend has kept account of this: every
open transaction gathers its own statements on a connection of its own, and the last transcript
is that of the last ending.

## Main results

* `nodup_endings`: a transaction ends once.
* `Store.Tallies.aside`, `Store.Tallies.beginning`, `Store.Tallies.on`: the account is kept by what
  is done beside the transactions, by the beginning of one, and by what is done in an open one.
* `Store.Tallies.refused`, `Store.Tallies.sent`, `Store.Tallies.ended`: what can come of a call on a
  transaction.
-/

namespace SqlWeave

open Memory

/-! ## What was done -/

/-- An operation that has come to its end. -/
structure Deed where
  operation : Operation
  outcome : Result Value

/-- The deed began a transaction. -/
def Deed.isBeginning (d : Deed) : Bool :=
  match d.operation, d.outcome with
  | .begin, .ok _ => true
  | _, _ => false

/-- How many transactions were begun; they are numbered in this order. -/
def begun (past : List Deed) : Nat :=
  past.countP Deed.isBeginning

/-- The statement that an operation sends in a transaction, if that is open. -/
def Operation.statement? (db : Database) (t : Nat) : Operation → Option String
  | .queryIn u q => if u = t then (db.prepared q).toOption.map Prod.snd else none
  | _ => none

/-- The statements that were sent in a transaction, in order; what was done last comes first in
the past, and what was done before the transaction was begun does not count. -/
def statementsIn (db : Database) (t : Nat) : List Deed → List String
  | [] => []
  | d :: past =>
    if t < begun past then statementsIn db t past ++ (d.operation.statement? db t).toList else []

/-- The rules answer a statement with a failure, other than one of the connection. -/
def isRefused (rules : List Rule) (statement : String) : Bool :=
  match MemoryBackend.answer rules statement with
  | .error f => f.isFailure && !f.isConnection
  | .ok _ => false

/-- How an operation ends the transaction that it is about, if that is open. -/
def Operation.last? (db : Database) (rules : List Rule) : Operation → Option String
  | .commit _ | .leave _ true => some "COMMIT"
  | .rollback _ | .leave _ false => some "ROLLBACK"
  | .queryIn _ q =>
    match db.prepared q with
    | .ok (_, statement) => if isRefused rules statement then some "ROLLBACK" else none
    | .error _ => none
  | _ => none

/-- The end of a transaction. -/
structure Ending where
  transaction : Nat
  /-- The transaction's own statements. -/
  statements : List String
  last : String

/-- What is published of a transaction that ended. -/
def Ending.text (e : Ending) : String :=
  String.ofList (transcript ((startStatement :: e.statements ++ [e.last]).map String.toList))

/-- The transactions that ended, the last one first. -/
def endings (db : Database) (rules : List Rule) : List Deed → List Ending
  | [] => []
  | d :: past =>
    match d.operation.transaction, d.operation.last? db rules with
    | some t, some last =>
      if t < begun past ∧ t ∉ (endings db rules past).map Ending.transaction then
        ⟨t, statementsIn db t (d :: past), last⟩ :: endings db rules past
      else endings db rules past
    | _, _ => endings db rules past

section Past

variable {db : Database} {rules : List Rule} {d : Deed} {past : List Deed} {t : Nat}

theorem begun_cons (h : d.isBeginning = false) : begun (d :: past) = begun past := by
  simp [begun, h]

theorem isBeginning_of_transaction (h : d.operation.transaction.isSome = true) :
    d.isBeginning = false := by
  obtain ⟨operation, outcome⟩ := d
  cases operation <;> first | rfl | cases h

theorem statement?_eq_none (h : d.operation.transaction ≠ some t) :
    d.operation.statement? db t = none := by
  obtain ⟨operation, outcome⟩ := d
  cases operation with
  | queryIn u q => exact if_neg fun hEq => h (congrArg some hEq)
  | _ => rfl

theorem statementsIn_cons (h : t < begun past) :
    statementsIn db t (d :: past) =
      statementsIn db t past ++ (d.operation.statement? db t).toList := by
  rw [statementsIn, if_pos h]

/-- Nothing ends but an open transaction, by an operation that ends it. -/
theorem endings_cons_of_none (h : d.operation.last? db rules = none) :
    endings db rules (d :: past) = endings db rules past := by
  rw [endings, h]
  split
  · rename_i hNone
    cases hNone
  · rfl

theorem endings_cons_of_not (h : ∀ t, d.operation.transaction = some t →
    ¬(t < begun past ∧ t ∉ (endings db rules past).map Ending.transaction)) :
    endings db rules (d :: past) = endings db rules past := by
  rw [endings]
  split
  · rename_i t last hAbout hLast
    exact if_neg (h t hAbout)
  · rfl

theorem endings_cons {last : String} (hAbout : d.operation.transaction = some t)
    (hLast : d.operation.last? db rules = some last) (hBegun : t < begun past)
    (hOpen : t ∉ (endings db rules past).map Ending.transaction) :
    endings db rules (d :: past) =
      ⟨t, statementsIn db t (d :: past), last⟩ :: endings db rules past := by
  rw [endings, hAbout, hLast]
  exact if_pos ⟨hBegun, hOpen⟩

/-- Only what was begun ends. -/
theorem lt_begun_of_mem_endings (h : t ∈ (endings db rules past).map Ending.transaction) :
    t < begun past := by
  induction past with
  | nil => cases h
  | cons d past ih =>
    have hLe : begun past ≤ begun (d :: past) := by
      rw [begun, begun, List.countP_cons]
      exact Nat.le_add_right _ _
    rw [endings] at h
    split at h
    · split at h
      · rename_i hOpen
        rcases List.mem_cons.mp h with rfl | hMem
        · exact Nat.lt_of_lt_of_le hOpen.1 hLe
        · exact Nat.lt_of_lt_of_le (ih hMem) hLe
      · exact Nat.lt_of_lt_of_le (ih h) hLe
    · exact Nat.lt_of_lt_of_le (ih h) hLe

/-- A transaction ends once. -/
theorem nodup_endings (db : Database) (rules : List Rule) (past : List Deed) :
    ((endings db rules past).map Ending.transaction).Nodup := by
  induction past with
  | nil => exact List.nodup_nil
  | cons d past ih =>
    rw [endings]
    split
    · split
      · rename_i hOpen
        exact List.nodup_cons.mpr ⟨hOpen.2, ih⟩
      · exact ih
    · exact ih

end Past

/-! ## The account that is kept -/

namespace Store

/-- The in-memory backend has kept account of what was done. -/
structure Tallies (db : Database) (m : MemoryBackend) (past : List Deed) (s : Store) : Prop where
  rules : s.memory.rules = m.rules
  begun : s.transactions.length = begun past
  distinct : ∀ (t u : Nat) (transaction other : Transaction),
    s.transactions[t]? = some transaction → s.transactions[u]? = some other →
    transaction.connection = other.connection → t = u
  connected : ∀ (t : Nat) (transaction : Transaction), s.transactions[t]? = some transaction →
    transaction.connection < s.memory.connections.length
  closed : ∀ (t : Nat) (transaction : Transaction), s.transactions[t]? = some transaction →
    (transaction.isClosed = true ↔ t ∈ (endings db m.rules past).map Ending.transaction)
  gathered : ∀ (t : Nat) (transaction : Transaction), s.transactions[t]? = some transaction →
    transaction.isClosed = false →
    s.memory.connections[transaction.connection]? =
      some (some (startStatement :: statementsIn db t past))
  last : s.memory.lastTransaction =
    ((endings db m.rules past).head?.map Ending.text).or m.lastTransaction

/-- What is done beside the transactions: it may hand out connections, and remember other
statements. -/
structure Aside (s s' : Store) : Prop where
  transactions : s'.transactions = s.transactions
  rules : s'.memory.rules = s.memory.rules
  last : s'.memory.lastTransaction = s.memory.lastTransaction
  connections : ∃ more, s'.memory.connections = s.memory.connections ++ more

theorem Aside.refl (s : Store) : s.Aside s :=
  ⟨rfl, rfl, rfl, [], (List.append_nil _).symm⟩

theorem Aside.trans {s s' s'' : Store} (h : s.Aside s') (h' : s'.Aside s'') : s.Aside s'' := by
  obtain ⟨more, hMore⟩ := h.connections
  obtain ⟨others, hOthers⟩ := h'.connections
  exact ⟨h'.transactions.trans h.transactions, h'.rules.trans h.rules, h'.last.trans h.last,
    more ++ others, by rw [hOthers, hMore, List.append_assoc]⟩

variable {db : Database} {m : MemoryBackend} {past : List Deed} {d : Deed} {s s' : Store} {t : Nat}

/-- The account before anything was done. -/
theorem tallies_start : ({ memory := m } : Store).Tallies db m [] where
  rules := rfl
  begun := rfl
  distinct := nofun
  connected := nofun
  closed := nofun
  gathered := nofun
  last := rfl

theorem Tallies.lt_begun (h : s.Tallies db m past) {transaction : Transaction}
    (hGet : s.transactions[t]? = some transaction) : t < SqlWeave.begun past :=
  h.begun ▸ (List.getElem?_eq_some_iff.mp hGet).1

/-- What is done beside the transactions. -/
theorem Tallies.aside (h : s.Tallies db m past) (hAside : s.Aside s') : s'.Tallies db m past := by
  obtain ⟨more, hMore⟩ := hAside.connections
  refine ⟨hAside.rules.trans h.rules, hAside.transactions ▸ h.begun, ?_, ?_, ?_, ?_,
    hAside.last.trans h.last⟩ <;> rw [hAside.transactions]
  · exact h.distinct
  · rw [hMore]
    intro t transaction hGet
    exact List.length_append ▸ Nat.lt_add_right _ (h.connected t transaction hGet)
  · exact h.closed
  · rw [hMore]
    intro t transaction hGet hOpen
    rw [List.getElem?_append_left (h.connected t transaction hGet)]
    exact h.gathered t transaction hGet hOpen

/-- What begins no transaction, sends nothing in an open one and ends none. -/
theorem Tallies.idle (h : s.Tallies db m past) (hBegins : d.isBeginning = false)
    (hEndings : endings db m.rules (d :: past) = endings db m.rules past)
    (hSent : ∀ (t : Nat) (transaction : Transaction), s.transactions[t]? = some transaction →
      transaction.isClosed = false → d.operation.statement? db t = none) :
    s.Tallies db m (d :: past) where
  rules := h.rules
  begun := h.begun.trans (begun_cons hBegins).symm
  distinct := h.distinct
  connected := h.connected
  closed := by
    rw [hEndings]
    exact h.closed
  gathered := by
    intro t transaction hGet hOpen
    rw [h.gathered t transaction hGet hOpen, statementsIn_cons (h.lt_begun hGet),
      hSent t transaction hGet hOpen, Option.toList_none, List.append_nil]
  last := by
    rw [hEndings]
    exact h.last

/-- A transaction is begun on a connection that was not there before. -/
theorem Tallies.beginning (h : s.Tallies db m past) (hBegins : d.isBeginning = true)
    (hRules : s'.memory.rules = s.memory.rules)
    (hLast : s'.memory.lastTransaction = s.memory.lastTransaction)
    (hConnections : s'.memory.connections = s.memory.connections ++ [some [startStatement]])
    (hTransactions : s'.transactions =
      s.transactions ++ [{ connection := s.memory.connections.length }]) :
    s'.Tallies db m (d :: past) := by
  have hNone : d.operation.transaction = none := by
    obtain ⟨operation, outcome⟩ := d
    cases operation <;> first | rfl | cases hBegins
  have hEndings : endings db m.rules (d :: past) = endings db m.rules past :=
    endings_cons_of_not fun t hAbout => by
      rw [hNone] at hAbout
      cases hAbout
  have hFrom : ∀ (t : Nat) (transaction : Transaction), s'.transactions[t]? = some transaction →
      s.transactions[t]? = some transaction ∨
        (t = SqlWeave.begun past ∧
          transaction = { connection := s.memory.connections.length }) := by
    intro t transaction hGet
    rw [hTransactions] at hGet
    rcases Nat.lt_or_ge t s.transactions.length with hLt | hGe
    · exact .inl ((List.getElem?_append_left hLt).symm.trans hGet)
    · rw [List.getElem?_append_right hGe, List.getElem?_singleton] at hGet
      split at hGet
      · exact .inr ⟨h.begun ▸ (by omega), (Option.some.inj hGet).symm⟩
      · cases hGet
  refine ⟨hRules.trans h.rules, ?_, ?_, ?_, ?_, ?_, hEndings ▸ hLast.trans h.last⟩
  · rw [hTransactions, List.length_append, h.begun, SqlWeave.begun, SqlWeave.begun,
      List.countP_cons_of_pos hBegins]
    rfl
  · intro t u transaction other hT hU hEq
    rcases hFrom t transaction hT with hOldT | ⟨rfl, rfl⟩ <;>
      rcases hFrom u other hU with hOldU | ⟨rfl, rfl⟩
    · exact h.distinct t u transaction other hOldT hOldU hEq
    · exact absurd hEq (Nat.ne_of_lt (h.connected t transaction hOldT))
    · exact absurd hEq.symm (Nat.ne_of_lt (h.connected u other hOldU))
    · rfl
  · intro t transaction hGet
    rw [hConnections, List.length_append]
    rcases hFrom t transaction hGet with hOld | ⟨-, rfl⟩
    · exact Nat.lt_add_right _ (h.connected t transaction hOld)
    · exact Nat.lt_succ_self _
  · intro t transaction hGet
    rw [hEndings]
    rcases hFrom t transaction hGet with hOld | ⟨rfl, rfl⟩
    · exact h.closed t transaction hOld
    · refine ⟨nofun, fun hMem => ?_⟩
      exact absurd (lt_begun_of_mem_endings hMem) (Nat.lt_irrefl _)
  · intro t transaction hGet hOpen
    rw [hConnections]
    rcases hFrom t transaction hGet with hOld | ⟨rfl, rfl⟩
    · rw [List.getElem?_append_left (h.connected t transaction hOld),
        h.gathered t transaction hOld hOpen, statementsIn_cons (h.lt_begun hOld),
        statement?_eq_none (by rw [hNone]; nofun), Option.toList_none, List.append_nil]
    · rw [List.getElem?_concat_length, statementsIn, if_neg (Nat.lt_irrefl _)]

/-- What is done in an open transaction: it gathers a statement, or ends. -/
theorem Tallies.on {c : Nat} {isClosed : Bool} {gathered : Option (List String)}
    (h : s.Tallies db m past) (hGet : s.transactions[t]? = some ⟨c, false⟩)
    (hAbout : d.operation.transaction = some t) (hRules : s'.memory.rules = s.memory.rules)
    (hTransactions : s'.transactions = s.transactions.set t ⟨c, isClosed⟩)
    (hConnections : s'.memory.connections = s.memory.connections.set c gathered)
    (hGathered : isClosed = false →
      gathered = some (startStatement :: statementsIn db t (d :: past)))
    (hEnded : (endings db m.rules (d :: past)).map Ending.transaction =
      (if isClosed then [t] else []) ++ (endings db m.rules past).map Ending.transaction)
    (hLast : s'.memory.lastTransaction =
      ((endings db m.rules (d :: past)).head?.map Ending.text).or m.lastTransaction) :
    s'.Tallies db m (d :: past) := by
  have hBegins : d.isBeginning = false := isBeginning_of_transaction (by rw [hAbout]; rfl)
  have hFrom : ∀ (u : Nat) (transaction : Transaction), s'.transactions[u]? = some transaction →
      (u = t ∧ transaction = ⟨c, isClosed⟩) ∨ (u ≠ t ∧ s.transactions[u]? = some transaction) := by
    intro u transaction hGet'
    rw [hTransactions] at hGet'
    rcases of_getElem?_set hGet' with ⟨hEq, hNew⟩ | ⟨hNe, hOld⟩
    · exact .inl ⟨hEq.symm, hNew⟩
    · exact .inr ⟨Ne.symm hNe, hOld⟩
  have hStood : ∀ (u : Nat) (transaction : Transaction), s'.transactions[u]? = some transaction →
      ∃ before : Transaction, s.transactions[u]? = some before ∧
        before.connection = transaction.connection := by
    intro u transaction hGet'
    rcases hFrom u transaction hGet' with ⟨rfl, rfl⟩ | ⟨-, hSame⟩
    · exact ⟨_, hGet, rfl⟩
    · exact ⟨_, hSame, rfl⟩
  refine ⟨hRules.trans h.rules, ?_, ?_, ?_, ?_, ?_, hLast⟩
  · rw [hTransactions, List.length_set, h.begun, begun_cons hBegins]
  · intro u v transaction other hU hV hEq
    obtain ⟨before, hBefore, hConnection⟩ := hStood u transaction hU
    obtain ⟨before', hBefore', hConnection'⟩ := hStood v other hV
    exact h.distinct u v before before' hBefore hBefore'
      (hConnection.trans (hEq.trans hConnection'.symm))
  · intro u transaction hGet'
    obtain ⟨before, hBefore, hConnection⟩ := hStood u transaction hGet'
    rw [hConnections, List.length_set, ← hConnection]
    exact h.connected u before hBefore
  · intro u transaction hGet'
    rw [hEnded]
    rcases hFrom u transaction hGet' with ⟨rfl, rfl⟩ | ⟨hNe, hSame⟩
    · have hNot : u ∉ (endings db m.rules past).map Ending.transaction := fun hMem => by
        cases (h.closed u _ hGet).mpr hMem
      cases isClosed with
      | true => simp
      | false => simpa using hNot
    · rw [h.closed u transaction hSame]
      cases isClosed <;> simp [hNe]
  · intro u transaction hGet' hOpen
    rcases hFrom u transaction hGet' with ⟨rfl, rfl⟩ | ⟨hNe, hSame⟩
    · rw [hConnections, ← hGathered hOpen]
      exact List.getElem?_set_self (h.connected u _ hGet)
    · have hOther : c ≠ transaction.connection := fun hEq =>
        hNe (h.distinct u t transaction _ hSame hGet hEq.symm)
      rw [hConnections, List.getElem?_set_ne hOther, h.gathered u transaction hSame hOpen,
        statementsIn_cons (h.lt_begun hSame), statement?_eq_none, Option.toList_none,
        List.append_nil]
      rw [hAbout]
      exact fun hEq => hNe (Option.some.inj hEq).symm

/-! ## What is done in an open transaction -/

/-- A statement was sent on a connection. -/
def sent (c : Nat) (sql : String) (s : Store) : Store :=
  { s with memory := (s.memory.queryOn c sql).2 }

/-- What a connection gathered was published. -/
def published (c : Nat) (last : String) (s : Store) : Store :=
  { s with memory := s.memory.endOn c last }

/-- A transaction on a connection has ended. -/
def ended (t c : Nat) (last : String) (s : Store) : Store :=
  (s.published c last).closeTransaction t

/-- What is asked of a transaction that is not open changes nothing. -/
theorem Tallies.refused (h : s.Tallies db m past) (hAbout : d.operation.transaction = some t)
    (hNot : ∀ transaction : Transaction, s.transactions[t]? = some transaction →
      transaction.isClosed = true) :
    s.Tallies db m (d :: past) := by
  refine h.idle (isBeginning_of_transaction (by rw [hAbout]; rfl)) ?_ ?_
  · refine endings_cons_of_not fun u hEq ⟨hBegun, hOpen⟩ => ?_
    rw [hAbout] at hEq
    cases hEq
    rw [← h.begun] at hBegun
    have hGet := List.getElem?_eq_getElem hBegun
    exact hOpen ((h.closed t _ hGet).mp (hNot _ hGet))
  · intro u transaction hGet hOpen
    refine statement?_eq_none fun hEq => ?_
    rw [hAbout] at hEq
    cases hEq
    rw [hNot transaction hGet] at hOpen
    cases hOpen

variable {c : Nat} {sql last : String}

theorem Tallies.statementsOn (h : s.Tallies db m past)
    (hGet : s.transactions[t]? = some { connection := c }) :
    s.memory.statementsOn c = some (startStatement :: statementsIn db t past) := by
  rw [MemoryBackend.statementsOn, h.gathered t _ hGet rfl, Option.getD_some]

/-- What the connection has gathered behind a statement. -/
theorem Tallies.connections_sent (h : s.Tallies db m past)
    (hGet : s.transactions[t]? = some { connection := c })
    (hStatement : d.operation.statement? db t = some sql) :
    (s.sent c sql).memory.connections =
      s.memory.connections.set c (some (startStatement :: statementsIn db t (d :: past))) := by
  rw [statementsIn_cons (h.lt_begun hGet), hStatement]
  show s.memory.connections.set c ((s.memory.statementsOn c).map (· ++ [sql])) = _
  rw [h.statementsOn hGet]
  rfl

/-- Nothing was gathered where no statement was sent. -/
theorem Tallies.connections_unsent (h : s.Tallies db m past)
    (hGet : s.transactions[t]? = some { connection := c })
    (hStatement : d.operation.statement? db t = none) :
    s.memory.connections =
      s.memory.connections.set c (some (startStatement :: statementsIn db t (d :: past))) := by
  rw [statementsIn_cons (h.lt_begun hGet), hStatement, Option.toList_none, List.append_nil]
  obtain ⟨hLt, hEq⟩ := List.getElem?_eq_some_iff.mp (h.gathered t _ hGet rfl)
  rw [← hEq, List.set_getElem_self]

/-- A statement is gathered on the connection of its transaction. -/
theorem Tallies.sent (h : s.Tallies db m past)
    (hGet : s.transactions[t]? = some { connection := c })
    (hAbout : d.operation.transaction = some t)
    (hStatement : d.operation.statement? db t = some sql)
    (hLast : d.operation.last? db m.rules = none) : (s.sent c sql).Tallies db m (d :: past) := by
  have hEndings : endings db m.rules (d :: past) = endings db m.rules past :=
    endings_cons_of_none hLast
  have hStood : s.transactions = s.transactions.set t { connection := c } := by
    obtain ⟨hLt, hEq⟩ := List.getElem?_eq_some_iff.mp hGet
    rw [← hEq, List.set_getElem_self]
  refine h.on hGet hAbout rfl hStood (h.connections_sent hGet hStatement) (fun _ => rfl) ?_ ?_
  · rw [hEndings]
    rfl
  · rw [hEndings]
    exact h.last

/-- A transaction ends, with what its connection has gathered by then. -/
theorem Tallies.ended (h : s.Tallies db m past)
    (hGet : s.transactions[t]? = some { connection := c })
    (hAbout : d.operation.transaction = some t)
    (hLast : d.operation.last? db m.rules = some last)
    (hTransactions : s'.transactions = s.transactions) (hRules : s'.memory.rules = s.memory.rules)
    (hConnections : s'.memory.connections =
      s.memory.connections.set c (some (startStatement :: statementsIn db t (d :: past)))) :
    (s'.ended t c last).Tallies db m (d :: past) := by
  have hEndings : endings db m.rules (d :: past) =
      ⟨t, statementsIn db t (d :: past), last⟩ :: endings db m.rules past :=
    endings_cons hAbout hLast (h.lt_begun hGet) fun hMem => by
      cases (h.closed t _ hGet).mpr hMem
  have hOn : s'.memory.statementsOn c = some (startStatement :: statementsIn db t (d :: past)) := by
    rw [MemoryBackend.statementsOn, hConnections, List.getElem?_set_self (h.connected t _ hGet),
      Option.getD_some]
  have hEnded : (s'.ended t c last).memory = s'.memory.endOn c last := rfl
  rw [MemoryBackend.endOn, hOn] at hEnded
  have hClosed : (s'.ended t c last).transactions = s.transactions.set t ⟨c, true⟩ := by
    show s'.transactions.modify t _ = _
    rw [hTransactions, List.modify_eq_set_getElem?, hGet]
    rfl
  have hHandedBack : (s'.ended t c last).memory.connections =
      s.memory.connections.set c none := by
    rw [hEnded]
    show s'.memory.connections.set c none = _
    rw [hConnections, List.set_set]
  refine h.on hGet hAbout (hEnded ▸ hRules) hClosed hHandedBack nofun ?_ ?_
  · rw [hEndings]
    rfl
  · rw [hEndings, hEnded]
    rfl

end Store

end SqlWeave
