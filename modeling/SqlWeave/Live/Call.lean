import SqlWeave.Live.ResultSet
import SqlWeave.Settings.Source

/-!
# Calls

All that the live backend does to the world outside is one of sixteen calls.  Each call
that is made is put down in a log, and meets an outcome that does not depend on what
the program knows: a forecast lists the outcomes for each kind of call, in order.

Some calls are immediate; the others take one turn at least, and may hang.
-/

namespace SqlWeave

/-- The kinds of calls. -/
inductive CallKind
  | createPool | acquire | release | poolClose | poolWaitClosed
  | execute | begin | commit | rollback
  | sshConnect | forward | importKey
  | listenerClose | listenerWaitClosed | sshClose | sshWaitClosed
  deriving DecidableEq, Repr

/-- Calls of some kinds return at once. -/
def CallKind.isImmediate : CallKind → Bool
  | release | poolClose | importKey | listenerClose | sshClose => true
  | _ => false

/-- A call to the world outside.  Pools, connections and tunnels go by number. -/
inductive Call
  | createPool (options : Settings.Options)
  | acquire (pool : Nat)
  | release (connection : Nat)
  | poolClose (pool : Nat)
  | poolWaitClosed (pool : Nat)
  | execute (connection : Nat) (sql : String)
  | begin (connection : Nat)
  | commit (connection : Nat)
  | rollback (connection : Nat)
  | sshConnect (tunnel : Nat) (host : Option String) (port : Int) (options : Settings.Options)
  /-- Listens at the first address and forwards to the second. -/
  | forward (tunnel : Nat) (host : String) (port : Int) (toHost : String) (toPort : Int)
  | importKey (key : String) (passphrase : Option String)
  | listenerClose (tunnel : Nat)
  | listenerWaitClosed (tunnel : Nat)
  | sshClose (tunnel : Nat)
  | sshWaitClosed (tunnel : Nat)

/-- The kind of a call. -/
def Call.kind : Call → CallKind
  | createPool _ => .createPool
  | acquire _ => .acquire
  | release _ => .release
  | poolClose _ => .poolClose
  | poolWaitClosed _ => .poolWaitClosed
  | execute .. => .execute
  | begin _ => .begin
  | commit _ => .commit
  | rollback _ => .rollback
  | sshConnect .. => .sshConnect
  | forward .. => .forward
  | importKey .. => .importKey
  | listenerClose _ => .listenerClose
  | listenerWaitClosed _ => .listenerWaitClosed
  | sshClose _ => .sshClose
  | sshWaitClosed _ => .sshWaitClosed

/-- What a call meets. -/
structure Encounter where
  fault : Option Fault := none
  /-- The call hangs until everything that hangs is released. -/
  hangs : Bool := false
  /-- What a statement yields. -/
  sets : List ResultSet := [.standard]
  /-- The port at which a tunnel listens. -/
  port : Int := 40000

/-- The outcome of a call that has returned. -/
def Encounter.result (e : Encounter) : Result Encounter :=
  match e.fault with
  | some f => .error f
  | none => .ok e

/-- What the calls of each kind will meet, in order.  Where nothing is left, all is
well. -/
abbrev Forecast : Type := CallKind → List Encounter

namespace Forecast

/-- What the next call of a kind meets. -/
def next (forecast : Forecast) (kind : CallKind) : Encounter :=
  (forecast kind).head?.getD {}

/-- The forecast behind the next call of a kind. -/
def drop (forecast : Forecast) (kind : CallKind) : Forecast :=
  fun k => if k = kind then (forecast k).tail else forecast k

end Forecast
end SqlWeave
