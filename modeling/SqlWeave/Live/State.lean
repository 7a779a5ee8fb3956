import SqlWeave.Live.Call
import SqlWeave.Routine

/-!
# The state of the live backend

The connection manager goes round four phases; while it connects or disconnects, one
transition is pending.  Beside it stand the tunnels that were set up and the
connections that were checked out of a pool, each under a number.
-/

namespace SqlWeave

/-- The phases of a connection. -/
inductive Phase
  | disconnected
  | connecting
  | connected
  | disconnecting
  deriving DecidableEq, Repr

/-- The name of a phase. -/
def Phase.text : Phase → String
  | disconnected => "disconnected"
  | connecting => "connecting"
  | connected => "connected"
  | disconnecting => "disconnecting"

/-- The changes that a manager carries out. -/
inductive Transition
  | establish
  | close
  deriving DecidableEq, Repr

/-- The phase that a manager is in while it carries out a transition. -/
def Transition.phase : Transition → Phase
  | establish => .connecting
  | close => .disconnecting

/-- The connection manager. -/
structure Manager where
  phase : Phase := .disconnected
  /-- The thread that carries out a transition. -/
  pending : Option Nat := none
  pool : Option Nat := none
  tunnel : Option Nat := none

/-- A tunnel. -/
structure Tunnel where
  hasConnection : Bool := false
  /-- The port of the open listener. -/
  listener : Option Int := none
  /-- What the SSH connection reported when it was lost. -/
  transportFault : Option Fault := none

/-- A connection that was checked out of a pool. -/
structure Checkout where
  connection : Nat
  isReleased : Bool := false

/-- The state of the live backend. -/
structure Live where
  forecast : Forecast := fun _ => []
  /-- The calls that were made, in order. -/
  log : List Call := []
  /-- The number of pools that were made. -/
  pools : Nat := 0
  /-- The number of connections that were acquired. -/
  connections : Nat := 0
  tunnels : List Tunnel := []
  /-- The tunnel that asked for the last SSH connection. -/
  lastTunnel : Option Nat := none
  checkouts : List Checkout := []
  manager : Manager := {}

namespace Live

/-- The state after a call is made. -/
def note (c : Call) (l : Live) : Live :=
  { l with log := l.log ++ [c], forecast := l.forecast.drop c.kind }

/-- The state with another manager. -/
def manage (f : Manager → Manager) (l : Live) : Live :=
  { l with manager := f l.manager }

/-- The tunnel with a number. -/
def tunnel (l : Live) (t : Nat) : Tunnel :=
  l.tunnels[t]?.getD {}

/-- The state with another tunnel under a number. -/
def setTunnel (t : Nat) (f : Tunnel → Tunnel) (l : Live) : Live :=
  { l with tunnels := l.tunnels.modify t f }

end Live

/-- What a caller who wants a goal has to do. -/
inductive Pursuit
  /-- Nothing. -/
  | reached (v : Value)
  /-- Begin a transition, whose outcome is the caller's. -/
  | begin (t : Transition)
  /-- Await the pending transition, whose outcome is the caller's if it is final. -/
  | follow (thread : Nat) (isFinal : Bool)

namespace Manager

/-- What a caller who wants a goal has to do now.  A caller who wants a connection
joins a connecting that is under way; whatever else is under way has to end first. -/
def pursuit (m : Manager) : Goal → Pursuit
  | .connected =>
    if m.phase = .connected then .reached ((m.pool.map Value.pool).getD .null)
    else match m.pending with
      | some thread => .follow thread (m.phase = .connecting)
      | none => .begin .establish
  | .disconnected =>
    match m.pending with
    | some thread => .follow thread false
    | none => if m.phase = .connected then .begin .close else .reached .null

/-- Notes a transition that a thread carries out. -/
def begun (t : Transition) (thread : Nat) (m : Manager) : Manager :=
  { m with phase := t.phase, pending := some thread }

/-- The pool, if there is a connection. -/
def require (m : Manager) : Result Nat :=
  match m.phase, m.pool with
  | .connected, some pool => .ok pool
  | phase, _ => .error (.connection (.notConnected phase.text))

end Manager

/-- Does a caller who wants a goal try again, now that what he waited for has this
outcome?  Who wants to disconnect does not mind a connecting that failed. -/
def Goal.triesAgain : Goal → Result Value → Bool
  | _, .ok _ => true
  | .connected, .error _ => false
  | .disconnected, .error f => f.isConnection

end SqlWeave
