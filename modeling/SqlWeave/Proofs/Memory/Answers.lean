import SqlWeave.Memory.Backend
import SqlWeave.Proofs.Latest
import SqlWeave.Proofs.Results

/-!
# Answers in memory

Which rules are in force is settled by the last list that was accepted, or forgotten, whatever was
asked in between and whichever lists were refused.  They answer every statement: the first rule
that matches it, in the order in which they were listed, and else nobody.  The statement is
remembered also when it is answered with a fault.

## Main results

* `rulesOf_ok_iff`: which lists of entries make rules, and which rules.
* `isAnswer_iff`: what the rules say to a statement.
* `rules_carryOut`, `lastQuery_carryOut`: what one request does to what is in force.
* `answers_areOfLatest`: what is answered after any history of requests.
-/

namespace SqlWeave.Memory

/-! ## Matching -/

/-- A run of characters of a text is what stands in it somewhere. -/
theorem isPart_iff {part text : List Char} : isPart part text = true ↔ part <:+: text := by
  induction text with
  | nil => rw [isPart, List.isEmpty_iff, List.infix_nil]
  | cons c rest ih =>
    rw [isPart, Bool.or_eq_true, List.isPrefixOf_iff_prefix, ih, List.infix_cons_iff]

/-- The statement has the part in it, or the pattern is found in it. -/
def Matcher.Matches (statement : String) : Matcher → Prop
  | containing part => part.toList <:+: statement.toList
  | pattern isFoundIn => isFoundIn statement = true

theorem Matcher.accepts_iff {matcher : Matcher} {statement : String} :
    matcher.accepts statement = true ↔ matcher.Matches statement := by
  cases matcher with
  | containing part => exact isPart_iff
  | pattern isFoundIn => exact Iff.rfl

/-! ## Rules of entries -/

/-- What is given as a matcher is one: a text or a pattern. -/
inductive Item.IsMatcher : Item → Matcher → Prop
  | text (part : String) : IsMatcher (.value (.str part)) (.containing part)
  | pattern (isFoundIn : String → Bool) : IsMatcher (.pattern isFoundIn) (.pattern isFoundIn)

theorem Item.matcher_ok_iff {item : Item} {matcher : Matcher} :
    item.matcher = .ok matcher ↔ item.IsMatcher matcher := by
  constructor
  · intro h
    cases item with
    | pattern isFoundIn =>
      obtain rfl := Except.ok.inj h
      exact .pattern isFoundIn
    | value v =>
      cases v with
      | str part =>
        obtain rfl := Except.ok.inj h
        exact .text part
      | _ => cases h
  · rintro (_ | _) <;> rfl

/-- The rows that stand for a result that is left out. -/
def rowsOr : Value → Value
  | .null => .list []
  | v => v

theorem Rule.ofItem_eq (item : Item) (result : Value) (fault : Option Fault) :
    Rule.ofItem item result fault = do return ⟨← item.matcher, rowsOr result, fault⟩ := by
  cases result <;> rfl

theorem Rule.ofItem_ok_iff {item : Item} {result : Value} {fault : Option Fault} {rule : Rule} :
    Rule.ofItem item result fault = .ok rule ↔
      ∃ matcher, item.IsMatcher matcher ∧ rule = ⟨matcher, rowsOr result, fault⟩ := by
  rw [Rule.ofItem_eq]
  constructor
  · intro h
    obtain ⟨matcher, hMatcher, hRule⟩ := ok_of_bind h
    exact ⟨matcher, Item.matcher_ok_iff.mp hMatcher, (Except.ok.inj hRule).symm⟩
  · rintro ⟨matcher, hMatcher, rfl⟩
    rw [Item.matcher_ok_iff.mpr hMatcher]
    rfl

/-- The entry makes this rule: it is the rule, or has a matcher in the place that goes first. -/
inductive Entry.Makes : Entry → Rule → Prop
  | rule (r : Rule) : Makes (.rule r) r
  | fields {first second : Option Item} {item : Item} {matcher : Matcher}
      (hGiven : first.or second = some item) (hMatcher : item.IsMatcher matcher) (result : Value)
      (fault : Option Fault) :
      Makes (.fields first second result fault) ⟨matcher, rowsOr result, fault⟩
  | items {item : Item} {matcher : Matcher} (hMatcher : item.IsMatcher matcher) (result : Value) :
      Makes (.items item [result]) ⟨matcher, rowsOr result, none⟩

theorem Entry.rule?_ok_iff {e : Entry} {rule : Rule} : e.rule? = .ok rule ↔ e.Makes rule := by
  constructor
  · intro h
    cases e with
    | rule r =>
      obtain rfl := Except.ok.inj h
      exact .rule r
    | fields first second result fault =>
      obtain ⟨matcher, hMatcher, rfl⟩ := Rule.ofItem_ok_iff.mp h
      cases hGiven : first.or second with
      | none =>
        rw [hGiven] at hMatcher
        cases hMatcher
      | some item =>
        rw [hGiven] at hMatcher
        exact .fields hGiven hMatcher result fault
    | empty => cases h
    | items item others =>
      rcases others with _ | ⟨result, _ | ⟨more, rest⟩⟩
      · cases h
      · obtain ⟨matcher, hMatcher, rfl⟩ := Rule.ofItem_ok_iff.mp h
        exact .items hMatcher result
      · cases h
  · intro h
    cases h with
    | rule r => rfl
    | fields hGiven hMatcher result fault =>
      rw [Entry.rule?, hGiven]
      exact Rule.ofItem_ok_iff.mpr ⟨_, hMatcher, rfl⟩
    | items hMatcher result => exact Rule.ofItem_ok_iff.mpr ⟨_, hMatcher, rfl⟩

/-- The rules of entries, each of which makes one. -/
theorem rulesOf_ok_iff {entries : List Entry} {rules : List Rule} :
    rulesOf entries = .ok rules ↔ List.Forall₂ Entry.Makes entries rules := by
  have hMakes : (fun (e : Entry) rule => e.rule? = .ok rule) = Entry.Makes :=
    funext₂ fun _ _ => propext Entry.rule?_ok_iff
  rw [rulesOf, mapM_ok_iff, hMakes]

/-- Entries make rules if each of them makes one. -/
theorem exists_makes_iff {entries : List Entry} :
    (∃ rules, List.Forall₂ Entry.Makes entries rules) ↔
      ∀ e ∈ entries, ∃ rule, e.Makes rule := by
  induction entries with
  | nil => exact iff_of_true ⟨[], .nil⟩ fun e hMem => absurd hMem List.not_mem_nil
  | cons e rest ih =>
    rw [List.forall_mem_cons, ← ih]
    constructor
    · rintro ⟨_, _ | ⟨hMakes, hRest⟩⟩
      exact ⟨⟨_, hMakes⟩, _, hRest⟩
    · rintro ⟨⟨rule, hMakes⟩, rules, hRest⟩
      exact ⟨rule :: rules, .cons hMakes hRest⟩

end SqlWeave.Memory

namespace SqlWeave.MemoryBackend

open Memory

/-! ## Answers -/

/-- What rules say to a statement: what the first one says that matches it, or no rows. -/
inductive IsAnswer (rules : List Rule) (statement : String) : Result Value → Prop
  | first {before after : List Rule} {rule : Rule} (hListed : rules = before ++ rule :: after)
      (hBefore : ∀ r ∈ before, ¬ r.matcher.Matches statement)
      (hMatches : rule.matcher.Matches statement) : IsAnswer rules statement rule.answer
  | none (hNone : ∀ r ∈ rules, ¬ r.matcher.Matches statement) :
      IsAnswer rules statement (.ok (.list []))

/-- There is one answer to every statement. -/
theorem isAnswer_iff {rules : List Rule} {statement : String} {r : Result Value} :
    IsAnswer rules statement r ↔ answer rules statement = r := by
  constructor
  · intro h
    cases h with
    | first hListed hBefore hMatches =>
      have hFind : rules.find? (·.matcher.accepts statement) = some _ :=
        List.find?_eq_some_iff_append.mpr
          ⟨Matcher.accepts_iff.mpr hMatches, _, _, hListed, fun r hMem => by
            rw [Bool.not_eq_true', ← Bool.not_eq_true, Matcher.accepts_iff]
            exact hBefore r hMem⟩
      rw [answer, hFind]
    | none hNone =>
      have hFind : rules.find? (·.matcher.accepts statement) = none :=
        List.find?_eq_none.mpr fun r hMem => mt Matcher.accepts_iff.mp (hNone r hMem)
      rw [answer, hFind]
  · rintro rfl
    rw [answer]
    cases hFind : rules.find? (·.matcher.accepts statement) with
    | none =>
      exact .none fun r hMem => mt Matcher.accepts_iff.mpr (List.find?_eq_none.mp hFind r hMem)
    | some rule =>
      obtain ⟨hAccepts, before, after, hListed, hBefore⟩ := List.find?_eq_some_iff_append.mp hFind
      refine .first hListed (fun r hMem => ?_) (Matcher.accepts_iff.mp hAccepts)
      rw [← Matcher.accepts_iff, Bool.not_eq_true, ← Bool.not_eq_true']
      exact hBefore r hMem

/-! ## Requests -/

/-- One thing that is asked of the backend, while it is connected. -/
inductive Request
  | setRules (entries : List Entry)
  | forgetRules
  | forgetQuery
  | forgetTransaction
  | clear
  | query (statement : String)
  | checkOut (transaction : Option (List String))
  | queryOn (connection : Nat) (statement : String)
  | beginOn (connection : Nat)
  | endOn (connection : Nat) (last : String)
  | record (log : String)

/-- The backend after a request, whether that is met or not. -/
def carryOut (m : MemoryBackend) : Request → MemoryBackend
  | .setRules entries => (m.setRules entries).2
  | .forgetRules => m.forgetRules
  | .forgetQuery => m.forgetQuery
  | .forgetTransaction => m.forgetTransaction
  | .clear => m.clear
  | .query statement => (m.query statement).2
  | .checkOut transaction => (m.checkOut transaction).2
  | .queryOn connection statement => (m.queryOn connection statement).2
  | .beginOn connection => m.beginOn connection
  | .endOn connection last => m.endOn connection last
  | .record log => m.record log

/-- The backend after requests in turn. -/
def after (m : MemoryBackend) (past : List Request) : MemoryBackend :=
  past.foldl carryOut m

/-- The rules that a request puts in force, if it does. -/
def Request.rules? : Request → Option (List Rule)
  | .setRules entries => (rulesOf entries).toOption
  | .forgetRules => some []
  | .clear => some []
  | _ => none

/-- What a request leaves as the last statement, if it changes that. -/
def Request.lastQuery? : Request → Option (Option String)
  | .query statement => some (some statement)
  | .queryOn _ statement => some (some statement)
  | .forgetQuery => some none
  | .clear => some none
  | _ => none

/-- The rules that were put in force last. -/
def latestRules (rules : List Rule) (past : List Request) : List Rule :=
  (past.filterMap Request.rules?).getLast?.getD rules

/-- The last statement since it was forgotten. -/
def latestQuery (lastQuery : Option String) (past : List Request) : Option String :=
  (past.filterMap Request.lastQuery?).getLast?.getD lastQuery

section

variable {m : MemoryBackend}

/-- Entries that make rules replace the rules. -/
theorem setRules_of_makes {entries : List Entry} {rules : List Rule}
    (h : List.Forall₂ Entry.Makes entries rules) :
    (Request.setRules entries).rules? = some rules ∧
      m.setRules entries = (.ok (), { m with rules }) := by
  rw [Request.rules?, setRules, rulesOf_ok_iff.mpr h]
  exact ⟨rfl, rfl⟩

/-- With an entry among them that makes no rule, entries are refused, and nothing is replaced. -/
theorem setRules_of_invalid {entries : List Entry} (h : ∃ e ∈ entries, ∀ rule, ¬ e.Makes rule) :
    (Request.setRules entries).rules? = none ∧
      ∃ fault, m.setRules entries = (.error fault, m) := by
  rw [Request.rules?, setRules]
  cases hRules : rulesOf entries with
  | error fault => exact ⟨rfl, fault, rfl⟩
  | ok rules =>
    obtain ⟨e, hMem, hInvalid⟩ := h
    obtain ⟨rule, hMakes⟩ := exists_makes_iff.mp ⟨rules, rulesOf_ok_iff.mp hRules⟩ e hMem
    exact absurd hMakes (hInvalid rule)

theorem require_of_isConnected (hConnected : m.isConnected = true) : m.require = .ok () :=
  if_pos hConnected

/-- A statement is answered by the rules in force, and remembered whatever the answer is. -/
theorem query_of_isConnected (hConnected : m.isConnected = true) (statement : String) :
    m.query statement = (answer m.rules statement, { m with lastQuery := some statement }) := by
  rw [query, require_of_isConnected hConnected]
  rfl

/-- No request disconnects the backend, and each leaves the rules and the last statement as they
were or sets them. -/
theorem exists_carryOut (hConnected : m.isConnected = true) (r : Request) :
    ∃ lastTransaction connections, m.carryOut r =
      { isConnected := m.isConnected
        rules := r.rules?.getD m.rules
        lastQuery := r.lastQuery?.getD m.lastQuery
        lastTransaction
        connections } := by
  cases r with
  | setRules entries =>
    refine ⟨m.lastTransaction, m.connections, ?_⟩
    rw [carryOut, setRules, Request.rules?]
    cases rulesOf entries <;> rfl
  | query statement =>
    rw [carryOut, query_of_isConnected hConnected]
    exact ⟨_, _, rfl⟩
  | checkOut transaction =>
    rw [carryOut, checkOut, require_of_isConnected hConnected]
    exact ⟨_, _, rfl⟩
  | endOn connection last =>
    rw [carryOut, endOn]
    split <;> exact ⟨_, _, rfl⟩
  | _ => exact ⟨_, _, rfl⟩

theorem isConnected_carryOut (hConnected : m.isConnected = true) (r : Request) :
    (m.carryOut r).isConnected = true := by
  obtain ⟨_, _, h⟩ := exists_carryOut hConnected r
  rw [h]
  exact hConnected

theorem rules_carryOut (hConnected : m.isConnected = true) (r : Request) :
    (m.carryOut r).rules = r.rules?.getD m.rules := by
  obtain ⟨_, _, h⟩ := exists_carryOut hConnected r
  rw [h]

theorem lastQuery_carryOut (hConnected : m.isConnected = true) (r : Request) :
    (m.carryOut r).lastQuery = r.lastQuery?.getD m.lastQuery := by
  obtain ⟨_, _, h⟩ := exists_carryOut hConnected r
  rw [h]

/-! ## Histories -/

theorem isConnected_after (hConnected : m.isConnected = true) (past : List Request) :
    (m.after past).isConnected = true := by
  induction past generalizing m with
  | nil => exact hConnected
  | cons r past ih => exact ih (isConnected_carryOut hConnected r)

theorem rules_after (hConnected : m.isConnected = true) (past : List Request) :
    (m.after past).rules = latestRules m.rules past :=
  view_foldl (fun m => m.isConnected = true) (fun _ r h => isConnected_carryOut h r)
    (fun _ r h => rules_carryOut h r) past hConnected

theorem lastQuery_after (hConnected : m.isConnected = true) (past : List Request) :
    (m.after past).lastQuery = latestQuery m.lastQuery past :=
  view_foldl (fun m => m.isConnected = true) (fun _ r h => isConnected_carryOut h r)
    (fun _ r h => lastQuery_carryOut h r) past hConnected

/-- After any history the rules in force are those of the last list that was accepted or
forgotten, a list with an invalid entry is refused and changes nothing, every statement is answered
by the first of the rules in force that matches it, and it is the last one whatever the answer
is. -/
theorem answers_areOfLatest (hConnected : m.isConnected = true) (past : List Request) :
    (m.after past).rules = latestRules m.rules past ∧
      (m.after past).lastQuery = latestQuery m.lastQuery past ∧
      (∀ entries : List Entry,
        ((∀ e ∈ entries, ∃ rule, e.Makes rule) →
          ∃ rules, List.Forall₂ Entry.Makes entries rules ∧
            (Request.setRules entries).rules? = some rules ∧
            (m.after past).setRules entries = (.ok (), { m.after past with rules })) ∧
        ((∃ e ∈ entries, ∀ rule, ¬ e.Makes rule) →
          (Request.setRules entries).rules? = none ∧
            ∃ fault, (m.after past).setRules entries = (.error fault, m.after past))) ∧
      (∀ (statement : String) (r : Result Value),
        (m.after past).query statement = (r, { m.after past with lastQuery := some statement }) ↔
          IsAnswer (latestRules m.rules past) statement r) ∧
      ∀ (connection : Nat) (statement : String) (r : Result Value),
        ((m.after past).queryOn connection statement).1 = r ↔
          IsAnswer (latestRules m.rules past) statement r := by
  have hRules := rules_after hConnected past
  refine ⟨hRules, lastQuery_after hConnected past, fun entries => ⟨fun hValid => ?_, ?_⟩,
    fun statement r => ?_, fun connection statement r => ?_⟩
  · obtain ⟨rules, hMakes⟩ := exists_makes_iff.mpr hValid
    exact ⟨rules, hMakes, setRules_of_makes hMakes⟩
  · exact setRules_of_invalid
  · rw [← hRules, isAnswer_iff, query_of_isConnected (isConnected_after hConnected past),
      Prod.mk.injEq]
    exact and_iff_left rfl
  · rw [isAnswer_iff, ← hRules]
    exact Iff.rfl

/-- A list with two pairs, one of which has a pattern, and a mapping that answers with a fault, a
refused list, and statements in between: the mapping's fault is the answer to those that neither
pair matches, and the last statement the one that got it. -/
theorem answers_areOfLatest_mixed :
    let past : List Request :=
      [.setRules [.items (.value (.str "users")) [.int 1],
         .items (.pattern fun statement => statement == "SELECT 3") [.int 3],
         .fields none (some (.value (.str "SELECT"))) .null (some .cancelled)],
       .query "SELECT 1", .forgetQuery, .checkOut (some [startStatement]),
       .setRules [.items (.value (.str "SELECT")) [.int 2], .items (.value (.str "x")) []],
       .queryOn 0 "SELECT 2", .endOn 0 "COMMIT"]
    let m : MemoryBackend := { isConnected := true }
    m.isConnected = true ∧ (m.after past).lastQuery = some "SELECT 2" ∧
      IsAnswer (latestRules m.rules past) "SELECT * FROM users" (.ok (.int 1)) ∧
      IsAnswer (latestRules m.rules past) "SELECT 2" (.error .cancelled) ∧
      IsAnswer (latestRules m.rules past) "SELECT 3" (.ok (.int 3)) ∧
      IsAnswer (latestRules m.rules past) "DELETE" (.ok (.list [])) := by
  intro past m
  obtain ⟨-, hLast, -, -, hAnswers⟩ := answers_areOfLatest (m := m) rfl past
  refine ⟨rfl, hLast, ?_, ?_, ?_, ?_⟩ <;> exact (hAnswers 0 _ _).mp rfl

end

end SqlWeave.MemoryBackend
