import SqlWeave.Scheduler

/-!
# Sessions with a tunnel alone

A tunnel can be used without a database behind it.  Each step is answered with its
outcome, the calls that it made, and what the tunnel reports of its transport.
-/

namespace SqlWeave

/-- One thing that can be asked of a tunnel. -/
inductive TunnelCommand
  | connect
  | close
  | localAddress
  | connectionLost (reason : Option Fault)

/-- The answer to a step. -/
structure TunnelAnswer where
  outcome : Result Value
  calls : List Call
  transportFault : Option Fault

namespace TunnelCommand

/-- What a command does with a tunnel. -/
def action (db : Database) (t : Nat) : TunnelCommand → Action Store Value
  | connect => do
    Tunnel.connect db t
    return .null
  | close => do
    Tunnel.close t
    return .null
  | localAddress => do
    let (host, port) ← Action.ofResult (Tunnel.localAddress db (← Action.state).live t)
    return .tuple [.str host, .int port]
  | connectionLost reason => onLive fun l => (.null, Tunnel.connectionLost t reason l)

/-- Carries out commands with one tunnel, in order. -/
def answers (t : Nat) : List TunnelCommand → Scheduler → List TunnelAnswer
  | [], _ => []
  | c :: rest, s =>
    let shown := s.store.live.log.length
    let (report, s) := s.complete (Scheduler.routineOf (c.action s.database t))
    { outcome := report.outcome
      calls := s.store.live.log.drop shown
      transportFault := (s.store.live.tunnel t).transportFault } :: answers t rest s

/-- Carries out commands with a new tunnel. -/
def run (db : Database) (forecast : Forecast) (commands : List TunnelCommand) :
    List TunnelAnswer :=
  answers 0 commands
    { database := db, store := { live := { forecast, tunnels := [{}] } } }

end TunnelCommand
end SqlWeave
