import SqlWeave.Fault

/-!
# Routines

A routine is a computation on a shared state that can be suspended.  It is a tree of
steps on the state and of waits; each wait names what is waited for, and the rest of
the routine goes on with the outcome of the wait.  Only at a wait can other routines
run, and only there can a routine be cancelled: it then goes on with a cancellation
in the place of the outcome.

Since a routine is a finite tree, what it does is defined by recursion on it.  The one
wait that may take any number of attempts is the wait for a goal, and making these is
left to the scheduler.

An action is a routine that can fail.
-/

namespace SqlWeave

/-- What a connection can be brought to. -/
inductive Goal
  | connected
  | disconnected
  deriving DecidableEq, Repr

/-- What a routine can wait for. -/
inductive Awaited
  /-- The next turn of the scheduler. -/
  | turn
  /-- The release of everything that hangs. -/
  | release
  /-- The connection's being, or not being, there. -/
  | goal (g : Goal)
  deriving DecidableEq, Repr

/-- A suspendable computation on a state. -/
inductive Routine (σ α : Type)
  | done (a : α)
  /-- Changes the state and goes on with what the state was. -/
  | step (change : σ → σ) (next : σ → Routine σ α)
  | wait (on : Awaited) (next : Result Value → Routine σ α)

namespace Routine

variable {σ α β : Type}

/-- One routine after another. -/
def bind : Routine σ α → (α → Routine σ β) → Routine σ β
  | done a, f => f a
  | step change next, f => step change fun s => (next s).bind f
  | wait on next, f => wait on fun r => (next r).bind f

instance : Monad (Routine σ) where
  pure := done
  bind := bind

end Routine

/-- A routine that can fail. -/
abbrev Action (σ α : Type) : Type := ExceptT Fault (Routine σ) α

namespace Action

variable {σ α : Type}

/-- The action with an outcome that is known already. -/
def ofResult (r : Result α) : Action σ α :=
  (Routine.done r : Routine σ (Result α))

/-- The state. -/
def state : Action σ σ :=
  (Routine.step id fun s => .done (.ok s) : Routine σ (Result σ))

/-- Changes the state. -/
def change (f : σ → σ) : Action σ Unit :=
  (Routine.step f fun _ => .done (.ok ()) : Routine σ (Result Unit))

/-- Computes from the state and changes it. -/
def stateful (f : σ → Result α × σ) : Action σ α :=
  (Routine.step (fun s => (f s).2) fun s => .done (f s).1 : Routine σ (Result α))

/-- Waits. -/
def wait (on : Awaited) : Action σ Value :=
  (Routine.wait on .done : Routine σ (Result Value))

/-- The outcome of an action, whether it fails or not. -/
def outcome (a : Action σ α) : Action σ (Result α) :=
  (Routine.bind a.run fun r => .done (.ok r) : Routine σ (Result (Result α)))

/-- An action and then another one, which is carried out in any case.  The outcome is
the first one's, unless the second one fails. -/
def ensuring (a : Action σ α) (cleanup : Action σ Unit) : Action σ α := do
  let r ← a.outcome
  cleanup
  ofResult r

/-- An action whose failures are dropped; a cancellation is no failure. -/
def quietly (a : Action σ Unit) : Action σ Unit := do
  match ← a.outcome with
  | .ok () => return
  | .error f => if f.isFailure then return else throw f

end Action
end SqlWeave
