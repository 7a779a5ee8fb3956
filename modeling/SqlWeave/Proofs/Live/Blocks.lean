import SqlWeave.Proofs.Live.Orderly
import SqlWeave.Session.Command

/-!
# Blocks in a transaction

A block runs in a transaction that is open when it is entered.  Whatever it does with the
transaction, and whatever the calls on the connection meet, the transaction is closed behind the
block and its connection was handed back once: in the block, or else at its exit, which commits
if the block ended well and rolls back if it failed.

How the block ended is how it ends for the caller, as long as nothing fails at the exit.  A
rollback or a hand-back that fails there takes the place of the block's own fault.

`Routine.Ends` says how a routine can come to its end while others do what a contract allows.

## Main results

* `Routine.Keeps.of_ends`: a routine that keeps a contract ends as it says.
* `Database.isBody_runEntries`: the entries of a block are a body.
* `meets_body`: what the body of a block does to its transaction, one thing after another.
* `meets_leave`: what is done at the exit.
* `Scheduler.block_ends`: how a block ends, in every run.
* `Scheduler.block_masksFault`: a rollback that fails at the exit hides the block's own fault.
-/

namespace SqlWeave

/-! ## How routines end -/

namespace Routine

variable {σ α β : Type} {c : Contract σ}

/-- The routine can come to its end with a result, from a state to another one, while others do
what the contract allows. -/
inductive Ends (c : Contract σ) : Routine σ α → σ → α → σ → Prop
  | done {a : α} {s : σ} : Ends c (.done a) s a s
  | step {change : σ → σ} {next : σ → Routine σ α} {s s' : σ} {a : α}
      (h : Ends c (next s) (change s) a s') : Ends c (.step change next) s a s'
  | wait {on : Awaited} {next : Result Value → Routine σ α} {s s₁ s' : σ} {r : Result Value}
      {a : α} (hRely : c.rely s s₁) (hComes : c.comes s₁ r) (h : Ends c (next r) s₁ a s') :
      Ends c (.wait on next) s a s'

/-- A routine that keeps its contract ends as its postcondition says. -/
theorem Keeps.of_ends {post : α → σ → Prop} {routine : Routine σ α} {s s' : σ} {a : α}
    (hEnds : routine.Ends c s a s') (h : routine.Keeps c post s) : post a s' := by
  induction hEnds with
  | done => exact h
  | step _ ih => exact ih h
  | wait hRely hComes _ ih => exact ih (h.2.2 _ _ hRely hComes)

/-- A routine and then another one. -/
theorem Ends.of_bind {routine : Routine σ α} {f : α → Routine σ β} {s s' : σ} {b : β}
    (h : (routine.bind f).Ends c s b s') :
    ∃ a s₁, routine.Ends c s a s₁ ∧ (f a).Ends c s₁ b s' := by
  induction routine generalizing s with
  | done a => exact ⟨a, s, .done, h⟩
  | step change next ih =>
    cases h with
    | step h =>
      obtain ⟨a, s₁, hFirst, hRest⟩ := ih _ h
      exact ⟨a, s₁, .step hFirst, hRest⟩
  | wait on next ih =>
    cases h with
    | wait hRely hComes h =>
      obtain ⟨a, s₁, hFirst, hRest⟩ := ih _ h
      exact ⟨a, s₁, .wait hRely hComes hFirst, hRest⟩

theorem bind_done (routine : Routine σ α) : routine.bind .done = routine := by
  induction routine with
  | done a => rfl
  | step change next ih => exact congrArg (Routine.step change) (funext ih)
  | wait on next ih => exact congrArg (Routine.wait on) (funext ih)

theorem bind_bind {γ : Type} (routine : Routine σ α) (f : α → Routine σ β) (g : β → Routine σ γ) :
    (routine.bind f).bind g = routine.bind fun a => (f a).bind g := by
  induction routine with
  | done a => rfl
  | step change next ih => exact congrArg (Routine.step change) (funext ih)
  | wait on next ih => exact congrArg (Routine.wait on) (funext ih)

instance : LawfulMonad (Routine σ) :=
  LawfulMonad.mk' (Routine σ) bind_done (fun _ _ => rfl) bind_bind

/-- The routine run by itself: whatever it waits for comes at once. -/
def alone : Routine σ α → σ → α × σ
  | .done a, s => (a, s)
  | .step change next, s => (next s).alone (change s)
  | .wait _ next, s => (next (.ok .null)).alone s

/-- A routine can end as it does by itself. -/
theorem ends_alone (hRely : ∀ s, c.rely s s) (hComes : ∀ s, c.comes s (.ok .null))
    (routine : Routine σ α) (s : σ) :
    routine.Ends c s (routine.alone s).1 (routine.alone s).2 := by
  induction routine generalizing s with
  | done a => exact .done
  | step change next ih => exact .step (ih s (change s))
  | wait on next ih => exact .wait (hRely s) (hComes s) (ih (.ok .null) s)

end Routine

namespace Database

/-- The body of a block: it does things with the transaction, each by how those before it ended,
and reports what it gathered and how it ended itself. -/
inductive IsBody {α : Type} (db : Database) (t : Nat) : Action Store (α × Result Unit) → Prop
  | ends (gathered : α) (ending : Result Unit) : IsBody db t (pure (gathered, ending))
  | does (action : BlockAction) {next : Result Value → Action Store (α × Result Unit)}
      (h : ∀ r, IsBody db t (next r)) : IsBody db t ((db.act t action).outcome >>= next)

/-- What a body gathered may be put into another form. -/
theorem IsBody.gather {α β : Type} {db : Database} {t : Nat}
    {body : Action Store (α × Result Unit)} (h : IsBody db t body) (f : α → β) :
    IsBody db t (do
      let (gathered, ending) ← body
      return (f gathered, ending)) := by
  induction h with
  | ends gathered ending => exact .ends (f gathered) ending
  | @does action next _ ih =>
    rw [bind_assoc]
    exact .does action ih

/-- The entries of a block, of which each goes on if it caught its fault, are a body. -/
theorem isBody_runEntries (db : Database) (t : Nat) (body : List BlockEntry) :
    IsBody db t (db.runEntries t body) := by
  induction body with
  | nil => exact .ends [] (.ok ())
  | cons e rest ih =>
    refine .does e.action fun r => ?_
    cases r with
    | ok v => exact ih.gather (.ok v :: ·)
    | error f =>
      cases hCatches : e.catches with
      | true => exact ih.gather (.error f :: ·)
      | false => exact .ends [] (.error f)

/-- A block in a transaction that has begun. -/
def within {α : Type} (db : Database) (t : Nat) (body : Action Store (α × Result Unit)) :
    Action Store (α × Result Unit) := do
  let (gathered, ending) ← body
  let left ← (db.leave t ending.toBool).outcome
  return (gathered, left.bind fun () => ending)

/-- A block begins a transaction and runs in it. -/
theorem block_eq {α : Type} (db : Database) (body : Nat → Action Store (α × Result Unit)) :
    db.block body = db.begin >>= fun t => db.within t (body t) :=
  rfl

/-- A block ends behind its exit. -/
theorem ends_within {α : Type} {db : Database} {t : Nat} {c : Contract Store}
    {body : Action Store (α × Result Unit)} {r : Result (α × Result Unit)} {s s' : Store}
    (h : Routine.Ends c (db.within t body) s r s') :
    (∃ f, r = .error f ∧ Routine.Ends c body s (.error f) s') ∨
      ∃ gathered ending s₁ left, Routine.Ends c body s (.ok (gathered, ending)) s₁ ∧
        Routine.Ends c (db.leave t ending.toBool) s₁ left s' ∧
        r = .ok (gathered, left.bind fun _ => ending) := by
  obtain ⟨first, s₁, hBody, hRest⟩ := Routine.Ends.of_bind h
  cases first with
  | error f =>
    cases hRest
    exact .inl ⟨f, rfl, hBody⟩
  | ok p =>
    obtain ⟨gathered, ending⟩ := p
    obtain ⟨found, s₂, hLeave, hEnd⟩ := Routine.Ends.of_bind hRest
    obtain ⟨left, s₃, hLeft, hFound⟩ := Routine.Ends.of_bind hLeave
    cases hFound
    cases hEnd
    exact .inr ⟨gathered, ending, s₁, left, hBody, hLeft, rfl⟩

end Database

open SqlWeave.Action Database

/-! ## Ending a transaction -/

/-- What is done on a connection to commit or to roll back, and how that ends. -/
inductive Concludes (k : Nat) : Bool → Result Unit → List (Call × Encounter) → Prop
  | committed {e : Encounter} (hFault : e.fault = none) :
      Concludes k true (.ok ()) [(.commit k, e)]
  | conflicted {e : Encounter} {f g : Fault} {more : List (Call × Encounter)}
      (hFault : e.fault = some f) (hMore : more = [] ∨ ∃ b, more = [(.rollback k, b)]) :
      Concludes k true (.error g) ((.commit k, e) :: more)
  | rolledBack {e : Encounter} {r : Result Unit} (hOutcome : r = .ok () ↔ e.fault = none) :
      Concludes k false r [(.rollback k, e)]

/-- What is done on a connection at the exit of a block: nothing if the transaction is closed;
else it is committed or rolled back, and handed back. -/
inductive AtExit (k : Nat) : Bool → Bool → Result Unit → List (Call × Encounter) → Prop
  | closed {endedWell : Bool} : AtExit k true endedWell (.ok ()) []
  | concluded {endedWell : Bool} {r : Result Unit} {made : List (Call × Encounter)}
      {d : Encounter} (h : Concludes k endedWell r made) :
      AtExit k false endedWell (d.before r) (made ++ [(.release k, d)])

section

variable {k : Nat} {isClosed endedWell : Bool} {r left : Result Unit}
  {made inside atExit : List (Call × Encounter)}

theorem Concludes.not_release (h : Concludes k endedWell r made) (d : Encounter) :
    (.release k, d) ∉ made := by
  intro hMem
  cases h with
  | committed | rolledBack => simp at hMem
  | conflicted _ hMore =>
    rcases hMore with rfl | ⟨b, rfl⟩
    · simp at hMem
    · simp at hMem

/-- Of the calls that end a transaction one is a commit exactly if it is to be committed. -/
theorem Concludes.commits_iff (h : Concludes k endedWell r made) :
    (∃ e, (.commit k, e) ∈ made) ↔ endedWell = true := by
  cases h with
  | @committed e _ => exact ⟨fun _ => rfl, fun _ => ⟨e, List.mem_cons_self⟩⟩
  | @conflicted e => exact ⟨fun _ => rfl, fun _ => ⟨e, List.mem_cons_self⟩⟩
  | rolledBack => simp

theorem Concludes.ok_iff (h : Concludes k endedWell r made) :
    r = .ok () ↔ ∀ m ∈ made, m.2.fault = none := by
  cases h with
  | committed hFault => simp [hFault]
  | conflicted hFault => simp [hFault]
  | rolledBack hOutcome => simp [hOutcome]

/-- The hand-back is the last thing that is done, in the block or at its exit. -/
theorem AtExit.upToHandBack (h : AtExit k isClosed endedWell left atExit)
    (hInside : UpToHandBack k isClosed inside) : UpToHandBack k true (inside ++ atExit) := by
  cases h with
  | closed =>
    rw [List.append_nil]
    exact hInside
  | @concluded _ r made d h => exact .append hInside ⟨made, d, rfl, h.not_release⟩

/-- The exit commits exactly if the block ended well and the transaction is open. -/
theorem AtExit.commits_iff (h : AtExit k isClosed endedWell left atExit) :
    (∃ e, (.commit k, e) ∈ atExit) ↔ endedWell = true ∧ isClosed = false := by
  cases h with
  | closed => simp
  | concluded h =>
    rw [← h.commits_iff]
    simp

/-- The exit ends well exactly if nothing fails there. -/
theorem AtExit.ok_iff (h : AtExit k isClosed endedWell left atExit) :
    left = .ok () ↔ ∀ m ∈ atExit, m.2.fault = none := by
  cases h with
  | closed => simp
  | @concluded _ r made d h =>
    have hOutcome := h.ok_iff
    cases hFault : d.fault with
    | none =>
      rw [d.before_none hFault, hOutcome]
      simp [or_imp, forall_and, hFault]
    | some f =>
      rw [d.before_some hFault]
      simp [or_imp, forall_and, hFault]

/-- How a block comes to its end.  Its body made some calls on the connection, ended in some way
and left the transaction closed or open; at the exit some more calls were made.  The connection is
handed back once, behind all of them.  The exit commits exactly if the body ended well and left the
transaction open.  How the body ended is how the block ends, unless something fails at the exit,
which comes out then. -/
structure BlockEnds (k : Nat) (ending : Result Unit) (isClosed : Bool)
    (inside atExit : List (Call × Encounter)) (outcome : Result Unit) : Prop where
  upToHandBack : UpToHandBack k true (inside ++ atExit)
  commits_iff : (∃ e, (.commit k, e) ∈ atExit) ↔ ending = .ok () ∧ isClosed = false
  transparent : (∀ m ∈ atExit, m.2.fault = none) → outcome = ending
  masked : (∃ m ∈ atExit, m.2.fault ≠ none) → ∃ f, outcome = .error f

theorem AtExit.blockEnds {ending : Result Unit}
    (h : AtExit k isClosed ending.toBool left atExit) (hInside : UpToHandBack k isClosed inside) :
    BlockEnds k ending isClosed inside atExit (left.bind fun _ => ending) where
  upToHandBack := h.upToHandBack hInside
  commits_iff := by
    rw [h.commits_iff]
    cases ending with
    | ok u => simp [Except.toBool]
    | error f => simp [Except.toBool]
  transparent := by
    intro hNone
    rw [h.ok_iff.mpr hNone]
    rfl
  masked := by
    rintro ⟨m, hMem, hFault⟩
    cases left with
    | ok u => exact absurd (h.ok_iff.mp rfl m hMem) hFault
    | error f => exact ⟨f, rfl⟩

end

/-! ## What a block does to its transaction -/

section

variable {forecast : Forecast} {t c k : Nat} {isClosed : Bool}
  {made inside : List (Call × Encounter)} {db : Database}

/-- A transaction in use: its connection is handed back if it is closed, and that was the last
thing that was done. -/
def Store.InUse (forecast : Forecast) (t c k : Nat) (made : List (Call × Encounter))
    (isClosed : Bool) (inside : List (Call × Encounter)) (s : Store) : Prop :=
  s.Stands forecast t c k isClosed isClosed (made ++ inside) ∧ UpToHandBack k isClosed inside

/-- A transaction is in use, and more was done with it. -/
def Store.GoesOn (forecast : Forecast) (t c k : Nat) (made inside : List (Call × Encounter))
    (s : Store) : Prop :=
  ∃ isClosed more, s.InUse forecast t c k made isClosed (inside ++ more)

section

variable {s : Store}

/-- An open transaction was used once more. -/
theorem Store.InUse.goesOn (hInside : UpToHandBack k false inside)
    (h : ∃ isClosed more, s.InUse forecast t c k (made ++ inside) isClosed more) :
    s.GoesOn forecast t c k made inside := by
  obtain ⟨isClosed, more, hs, hUp⟩ := h
  rw [List.append_assoc] at hs
  exact ⟨isClosed, more, hs, hUp.append hInside⟩

theorem Store.GoesOn.refl (h : s.InUse forecast t c k made isClosed inside) :
    s.GoesOn forecast t c k made inside :=
  ⟨isClosed, [], (List.append_nil inside).symm ▸ h⟩

theorem Store.GoesOn.of_append {more : List (Call × Encounter)}
    (h : s.GoesOn forecast t c k made (inside ++ more)) : s.GoesOn forecast t c k made inside := by
  obtain ⟨isClosed, more', hs⟩ := h
  rw [List.append_assoc] at hs
  exact ⟨isClosed, more ++ more', hs⟩

end

section

variable (hLive : db.backend = .live)

include hLive

/-- A rollback is tried. -/
theorem meets_rollbackTried :
    Meets (attended t) (Store.Stands forecast t c k false false made)
      (db.rollbackQuietly (some c)) fun _ s => ∃ b,
        s.Stands forecast t c k false false (made ++ [(.rollback k, b)]) := by
  refine meets_quietly (meets_rollbackCall hLive) ?_ ?_ ?_
  · exact fun s ⟨b, _, hs⟩ => ⟨b, hs⟩
  · exact fun f s ⟨b, _, hs⟩ _ => ⟨b, hs⟩
  · exact fun f s ⟨b, _, hs⟩ _ => ⟨b, hs⟩

/-- A query that is sent does not hand the connection back by itself. -/
theorem meets_runIn (q : Query) :
    Meets (attended t) (Store.Stands forecast t c k false false made) (db.run q (some c))
      fun _ s => ∃ more, s.Stands forecast t c k false false (made ++ more) ∧
        ∀ d, (.release k, d) ∉ more := by
  rw [db.run_some]
  refine meets_bind (R := fun _ => Store.Stands forecast t c k false false made)
    (meets_ofResult fun s hs => hs) (fun p => ?_) fun f s hs => ?_
  · obtain ⟨config, sql⟩ := p
    refine meets_outcome_bind (meets_queryCall hLive sql) fun r => ?_
    cases r with
    | ok sets => exact meets_pure fun s ⟨e, _, hs⟩ => ⟨_, hs, fun d hMem => by simp at hMem⟩
    | error f =>
      show Meets _ _ (if (f.isConnection || !f.isFailure) = true then _ else _) _
      split
      · exact meets_throw fun s ⟨e, _, hs⟩ => ⟨_, hs, fun d hMem => by simp at hMem⟩
      · rintro s ⟨e, -, hs⟩
        have hTried : ∀ s' : Store, (∃ b, s'.Stands forecast t c k false false
            (made ++ [(.execute k sql, e)] ++ [(.rollback k, b)])) →
            ∃ more, s'.Stands forecast t c k false false (made ++ more) ∧
              ∀ d, (.release k, d) ∉ more := by
          rintro s' ⟨b, hs'⟩
          rw [List.append_assoc] at hs'
          exact ⟨_, hs', fun d hMem => by simp at hMem⟩
        exact meets_bind (meets_rollbackTried hLive) (fun _ => meets_throw hTried)
          (fun _ => hTried) s hs
  · exact ⟨[], (List.append_nil _).symm ▸ hs, nofun⟩

/-- A query of an open transaction. -/
theorem meets_queryInOpen (q : Query) :
    Meets (attended t) (Store.Stands forecast t c k false false made) (db.queryIn t q)
      fun _ s => ∃ isClosed more, s.InUse forecast t c k made isClosed more := by
  refine meets_openConnection_bind (fun _ hs => hs.transaction) rfl ?_
  refine meets_outcome_bind (meets_runIn hLive q) fun r => ?_
  cases r with
  | ok v => exact meets_pure fun s ⟨more, hs, hNone⟩ => ⟨false, more, hs, hNone⟩
  | error f =>
    show Meets _ _ (if (f.kind == .sql) = true then _ else _) _
    split
    · rintro s ⟨more, hs, hNone⟩
      have hClosed : ∀ r s', Store.Met forecast t c k true true (made ++ more) (.release k)
          (fun _ => Except.ok ()) r s' →
            ∃ isClosed more', s'.InUse forecast t c k made isClosed more' := by
        rintro r s' ⟨d, -, hs'⟩
        rw [List.append_assoc] at hs'
        exact ⟨true, _, hs', more, d, rfl, hNone⟩
      exact meets_bind (meets_closing hLive) (fun _ => meets_throw (hClosed _))
        (fun _ => hClosed _) s hs
    · exact meets_throw fun s ⟨more, hs, hNone⟩ => ⟨false, more, hs, hNone⟩

/-- What ends an open transaction, and the hand-back behind it. -/
theorem meets_concluding {endedWell : Bool} {action : Action Store Unit}
    (hAction : Meets (attended t) (Store.Stands forecast t c k false false made) action
      fun r s => ∃ more, s.Stands forecast t c k false false (made ++ more) ∧
        Concludes k endedWell r more) :
    Meets (attended t) (Store.Stands forecast t c k false false made)
      (ensuring action (db.finish t)) fun r s => ∃ atExit,
        s.Stands forecast t c k true true (made ++ atExit) ∧
          AtExit k false endedWell r atExit := by
  refine meets_ensuring hAction fun r => ?_
  rintro s ⟨more, hs, hConcludes⟩
  refine (meets_closing hLive s hs).mono ?_
  rintro r' s' ⟨d, rfl, hs'⟩
  have hBefore : (d.before (Except.ok ())).bind (fun _ => r) = d.before r := by
    cases hFault : d.fault with
    | none => rw [d.before_none hFault, d.before_none hFault]; rfl
    | some f => rw [d.before_some hFault, d.before_some hFault]; rfl
  rw [List.append_assoc] at hs'
  exact ⟨_, hs', hBefore ▸ .concluded hConcludes⟩

/-- A commit of an open transaction. -/
theorem meets_commitOpen :
    Meets (attended t) (Store.Stands forecast t c k false false made) (db.commit t) fun r s =>
      ∃ atExit, s.Stands forecast t c k true true (made ++ atExit) ∧
        AtExit k false true r atExit := by
  refine meets_openConnection_bind (fun _ hs => hs.transaction) rfl (meets_concluding hLive ?_)
  refine meets_outcome_bind (meets_commitCall hLive) fun r => ?_
  cases r with
  | ok u =>
    refine meets_pure fun s ⟨e, hEq, hs⟩ => ⟨_, hs, .committed ?_⟩
    exact (Encounter.fault_of_before_ok hEq).1
  | error f =>
    show Meets _ _ (if (!f.isFailure) = true then _ else _) _
    split
    · refine meets_throw fun s ⟨e, hEq, hs⟩ => ⟨_, hs, ?_⟩
      exact .conflicted (Encounter.fault_of_before_error hEq) (.inl rfl)
    · rintro s ⟨e, hEq, hs⟩
      have hFault := Encounter.fault_of_before_error hEq
      have hTried : ∀ g (s' : Store), (∃ b, s'.Stands forecast t c k false false
          (made ++ [(.commit k, e)] ++ [(.rollback k, b)])) →
          ∃ more, s'.Stands forecast t c k false false (made ++ more) ∧
            Concludes k true (.error g) more := by
        rintro g s' ⟨b, hs'⟩
        rw [List.append_assoc] at hs'
        exact ⟨_, hs', .conflicted hFault (.inr ⟨b, rfl⟩)⟩
      exact meets_bind (meets_rollbackTried hLive) (fun _ => meets_throw (hTried _))
        hTried s hs

/-- A rollback of an open transaction. -/
theorem meets_rollbackOpen :
    Meets (attended t) (Store.Stands forecast t c k false false made) (db.rollback t) fun r s =>
      ∃ atExit, s.Stands forecast t c k true true (made ++ atExit) ∧
        AtExit k false false r atExit := by
  refine meets_transaction_bind (fun _ hs => hs.transaction) (meets_concluding hLive ?_)
  refine meets_outcome_bind (meets_rollbackCall hLive) fun r => ?_
  cases r with
  | ok u =>
    refine meets_pure fun s ⟨e, hEq, hs⟩ => ⟨_, hs, .rolledBack ?_⟩
    simp [(Encounter.fault_of_before_ok hEq).1]
  | error f =>
    show Meets _ _ (if (!f.isFailure) = true then _ else _) _
    split
    · refine meets_throw fun s ⟨e, hEq, hs⟩ => ⟨_, hs, .rolledBack ?_⟩
      simp [Encounter.fault_of_before_error hEq]
    · refine meets_bind_of_ok (x := ()) (R := Store.Met forecast t c k false false made
        (.rollback k) (fun _ => .ok ()) (.error f)) (meets_pure fun s hs => ⟨rfl, hs⟩) ?_
      refine meets_throw fun s ⟨e, hEq, hs⟩ => ⟨_, hs, .rolledBack ?_⟩
      simp [Encounter.fault_of_before_error hEq]

/-- One thing of a block, whether the transaction is open or closed. -/
theorem meets_act (action : BlockAction) :
    Meets (attended t) (Store.InUse forecast t c k made isClosed inside) (db.act t action)
      fun _ => Store.GoesOn forecast t c k made inside := by
  cases isClosed with
  | true =>
    have hRefused (call : TransactionCall) :
        Meets (attended t) (Store.InUse forecast t c k made true inside)
          ((call.operation t).action db) fun _ => Store.GoesOn forecast t c k made inside :=
      call.meets_of_closed (fun _ hs => hs.1.transaction) rfl fun _ hs => .refl hs
    cases action with
    | query q => exact hRefused (.query q)
    | commit => exact hRefused .commit
    | rollback => exact hRefused .rollback
    | fail => exact meets_throw fun _ hs => .refl hs
  | false =>
    rintro s ⟨hs, hInside⟩
    have hEnded {endedWell : Bool} {r : Result Unit} {s' : Store} (h : ∃ atExit,
        s'.Stands forecast t c k true true (made ++ inside ++ atExit) ∧
          AtExit k false endedWell r atExit) : s'.GoesOn forecast t c k made inside := by
      obtain ⟨atExit, hs', hExit⟩ := h
      have hNothing : UpToHandBack k false [] := nofun
      exact Store.InUse.goesOn hInside ⟨true, atExit, hs', hExit.upToHandBack hNothing⟩
    cases action with
    | query q =>
      exact (meets_queryInOpen hLive q s hs).mono fun _ _ => Store.InUse.goesOn hInside
    | commit =>
      exact meets_nothing ((meets_commitOpen hLive).mono (fun _ h => h) fun _ _ => hEnded) s hs
    | rollback =>
      exact meets_nothing ((meets_rollbackOpen hLive).mono (fun _ h => h) fun _ _ => hEnded) s hs
    | fail => exact .refl ⟨hs, hInside⟩

/-- A whole body: it ends, and has gone on using the transaction. -/
theorem meets_body {α : Type} {body : Action Store (α × Result Unit)} (h : IsBody db t body) :
    Meets (attended t) (Store.InUse forecast t c k made isClosed inside) body fun r s =>
      (∃ gathered ending, r = .ok (gathered, ending)) ∧ s.GoesOn forecast t c k made inside := by
  induction h generalizing isClosed inside with
  | ends gathered ending => exact meets_pure fun s hs => ⟨⟨gathered, ending, rfl⟩, .refl hs⟩
  | does action _ ih =>
    refine meets_outcome_bind (meets_act hLive action) fun r s hs => ?_
    obtain ⟨isClosed', more, hs⟩ := hs
    refine (ih r s hs).mono fun r' s' ⟨hEnding, hs'⟩ => ?_
    exact ⟨hEnding, hs'.of_append⟩

/-- What is done at the exit. -/
theorem meets_leave (endedWell : Bool) :
    Meets (attended t) (Store.Stands forecast t c k isClosed isClosed made)
      (db.leave t endedWell) fun r s => ∃ atExit,
        s.Stands forecast t c k true true (made ++ atExit) ∧
          AtExit k isClosed endedWell r atExit := by
  refine meets_transaction_bind (fun _ hs => hs.transaction) ?_
  cases isClosed with
  | true => exact meets_pure fun s hs => ⟨[], (List.append_nil made).symm ▸ hs, .closed⟩
  | false =>
    cases endedWell with
    | true => exact meets_commitOpen hLive
    | false => exact meets_rollbackOpen hLive

end

end

/-! ## In every run -/

namespace Scheduler

variable {db : Database} {forecast : Forecast} {callers : Callers} {s : Scheduler} {t : Nat}
  {transaction : Transaction}

/-- A block begins a transaction and runs in it.  There it comes to its end, with the transaction
closed and its connection handed back, whatever its body does and whatever the calls on the
connection meet. -/
theorem block_ends {α : Type} (hLive : db.backend = .live) (h : Running db forecast callers s)
    (hGet : s.store.transactions[t]? = some transaction) (hOpen : transaction.isClosed = false)
    {body : Nat → Action Store (α × Result Unit)} (hBody : IsBody db t (body t)) :
    let k := s.store.connectionOf transaction
    let made := madeOn k forecast s.store.live.log
    (db.block body = do
      let t ← db.begin
      db.within t (body t)) ∧
    (∃ r s', Routine.Ends (attended t) (db.within t (body t)) s.store r s') ∧
    ∀ r s', Routine.Ends (attended t) (db.within t (body t)) s.store r s' →
      ∃ gathered ending outcome s₁ used after inside atExit,
        Routine.Ends (attended t) (body t) s.store (.ok (gathered, ending)) s₁ ∧
        r = .ok (gathered, outcome) ∧
        s₁.transactions[t]? = some used ∧ madeOn k forecast s₁.live.log = made ++ inside ∧
        s'.transactions[t]? = some after ∧ after.isClosed = true ∧ s'.connectionOf after = k ∧
        madeOn k forecast s'.live.log = made ++ inside ++ atExit ∧
        BlockEnds k ending used.isClosed inside atExit outcome := by
  intro k made
  refine ⟨block_eq db body,
    ⟨_, _, Routine.ends_alone (Store.SetsAside.refl t) (fun _ => rfl) _ s.store⟩, ?_⟩
  intro r s' hEnds
  obtain ⟨own, hGoverned, hPersists⟩ := Course.governed hLive governed_start h
  have hStands := hGoverned.stands (hPersists.calls.forecast_eq rfl) hGet
  rw [hOpen] at hStands
  have hInUse : s.store.InUse forecast t transaction.connection k made false [] :=
    ⟨(List.append_nil made).symm ▸ hStands, nofun⟩
  have hMeets := meets_body hLive hBody s.store hInUse
  obtain ⟨f, rfl, hFails⟩ | ⟨gathered, ending, s₁, left, hEndsBody, hEndsLeave, rfl⟩ :=
    ends_within hEnds
  · obtain ⟨⟨_, _, hEq⟩, -⟩ := hMeets.of_ends hFails
    cases hEq
  · obtain ⟨-, isClosed, inside, hs₁, hInside⟩ := hMeets.of_ends hEndsBody
    obtain ⟨atExit, hs', hExit⟩ := (meets_leave hLive ending.toBool s₁ hs₁).of_ends hEndsLeave
    exact ⟨gathered, ending, _, s₁, _, _, inside, atExit, hEndsBody, rfl, hs₁.transaction,
      hs₁.made_eq, hs'.transaction, rfl, hs'.connectionOf, hs'.made_eq, hExit.blockEnds hInside⟩

/-- The transaction of a block has begun, and nothing was done in it. -/
def entered (forecast : Forecast) : Scheduler :=
  oneByOne directDatabase [.connect, .begin]
    { database := directDatabase, store := { live := { forecast } } }

theorem exists_open {store : Store}
    (h : (store.transactions[t]?.any fun transaction => !transaction.isClosed) = true) :
    ∃ transaction, store.transactions[t]? = some transaction ∧ transaction.isClosed = false := by
  simpa [Option.any_eq_true] using h

/-- A block that raises a fault is rolled back, and the fault comes out. -/
theorem block_ends_conflict :
    let s := entered conflict
    let body := fun t => directDatabase.runEntries t [⟨.fail, false⟩]
    ∃ callers transaction s' inside atExit,
      Running directDatabase conflict callers s ∧
      s.store.transactions[0]? = some transaction ∧ transaction.isClosed = false ∧
      directDatabase.IsBody 0 (body 0) ∧
      Routine.Ends (attended 0) (directDatabase.within 0 (body 0)) s.store
        (.ok ([], .error callerFault)) s' ∧
      BlockEnds (s.store.connectionOf transaction) (.error callerFault) false inside atExit
        (.error callerFault) ∧
      (s'.live.log.drop s.store.live.log.length).map Call.kind = [.rollback, .release] := by
  intro s body
  obtain ⟨callers, hRunning⟩ : ∃ callers, Running directDatabase conflict callers s :=
    Running.oneByOne .refl _
  obtain ⟨transaction, hGet, hOpen⟩ : ∃ transaction,
      s.store.transactions[0]? = some transaction ∧ transaction.isClosed = false :=
    exists_open (by decide +kernel)
  have hEnds := Routine.ends_alone (c := attended 0) (Store.SetsAside.refl 0) (fun _ => rfl)
    (directDatabase.within 0 (body 0)) s.store
  have hBody : directDatabase.IsBody 0 (body 0) := isBody_runEntries _ _ _
  obtain ⟨gathered, ending, outcome, s₁, used, after, inside, atExit, hEndsBody, hOutcome, hUsed, -, -,
    -, -, -, hBlock⟩ := (block_ends rfl hRunning hGet hOpen hBody).2.2 _ _ hEnds
  obtain ⟨rfl, rfl, rfl⟩ : gathered = [] ∧ ending = .error callerFault ∧ s₁ = s.store := by
    cases hEndsBody
    exact ⟨rfl, rfl, rfl⟩
  obtain rfl : used = transaction := Option.some.inj (hUsed.symm.trans hGet)
  obtain rfl : .error callerFault = outcome := congrArg Prod.snd (Except.ok.inj hOutcome)
  rw [hOpen] at hBlock
  refine ⟨callers, used, _, inside, atExit, hRunning, hGet, hOpen, hBody, hEnds, hBlock, ?_⟩
  decide +kernel

/-- The rollback is lost with the connection. -/
def lostRollback : Forecast
  | .rollback => [{ fault := some (.raised .operational [.str "gone"]) }]
  | _ => []

/-- A block raises a fault, but another one comes out: that of the rollback at its exit. -/
theorem block_masksFault :
    let s := entered lostRollback
    let body := directDatabase.runEntries 0 [⟨.fail, false⟩]
    ∃ callers transaction f s',
      Running directDatabase lostRollback callers s ∧
      s.store.transactions[0]? = some transaction ∧ transaction.isClosed = false ∧
      Routine.Ends (attended 0) body s.store (.ok ([], .error callerFault)) s.store ∧
      Routine.Ends (attended 0) (directDatabase.within 0 body) s.store (.ok ([], .error f)) s' ∧
      f.kind = .sql ∧ f ≠ callerFault := by
  intro s body
  obtain ⟨callers, hRunning⟩ : ∃ callers, Running directDatabase lostRollback callers s :=
    Running.oneByOne .refl _
  obtain ⟨transaction, hGet, hOpen⟩ : ∃ transaction,
      s.store.transactions[0]? = some transaction ∧ transaction.isClosed = false :=
    exists_open (by decide +kernel)
  have hFault : (Routine.alone (directDatabase.within 0 body) s.store).1 =
      .ok ([], .error (Fault.ofStatement (.raised .operational [.str "gone"]) "ROLLBACK;" false)) :=
    rfl
  have hEnds := Routine.ends_alone (c := attended 0) (Store.SetsAside.refl 0) (fun _ => rfl)
    (directDatabase.within 0 body) s.store
  rw [hFault] at hEnds
  exact ⟨callers, transaction, _, _, hRunning, hGet, hOpen, .done, hEnds, rfl, nofun⟩

end Scheduler

end SqlWeave
