import SqlWeave.Session.Command

/-!
# Sessions

A session uses one database, step by step, and answers each step with its outcome and
with what can be seen of the database after it: the phase of the connection, the calls
that were made since the last answer, and what the in-memory backend remembers.

Some steps try out what happens at the same time: commands that are gathered run side
by side, and a connecting can be cancelled on its way.
-/

namespace SqlWeave

/-- What is cancelled while a connecting hangs. -/
inductive CancelTarget
  /-- The transition. -/
  | pending
  /-- The caller, who then leaves the transition alone. -/
  | caller
  deriving DecidableEq, Repr

/-- A step of a session. -/
inductive Step
  | command (c : Command)
  /-- Steps after which the database is disconnected, in any case. -/
  | within (body : List Step) (fails : Bool)
  /-- Commands that run side by side. -/
  | gather (commands : List Command)
  /-- A connecting that is given a few turns and is then cancelled. -/
  | cancelConnect (target : CancelTarget)

/-- The answer to a step. -/
structure Answer where
  outcome : Result Value
  phase : Phase
  /-- The calls since the last answer. -/
  calls : List Call
  lastQuery : Option String
  lastTransaction : Option String
  /-- The outcomes of the parts of the step. -/
  inner : List (Result Value) := []
  /-- The answers to the steps within the step. -/
  answers : List Answer := []

/-- A session. -/
structure Session where
  scheduler : Scheduler
  /-- The number of calls that answers have shown. -/
  shown : Nat := 0

namespace Session

/-- The session with a database. -/
def ofDatabase (db : Database) (forecast : Forecast) : Session :=
  ⟨{ database := db, store := { live := { forecast } } }, 0⟩

/-- The answer to a step that has this outcome, and the session behind it. -/
def answer (outcome : Result Value) (inner : List (Result Value)) (answers : List Answer)
    (s : Session) : Answer × Session :=
  let store := s.scheduler.store
  ({ outcome, inner, answers
     phase := s.scheduler.database.phase store
     calls := store.live.log.drop s.shown
     lastQuery := store.memory.lastQuery
     lastTransaction := store.memory.lastTransaction },
   { s with shown := store.live.log.length })

/-- Runs a command. -/
def command (c : Command) (s : Session) : Report × Session :=
  let (report, scheduler) := s.scheduler.complete (s.scheduler.database.routine c)
  (report, { s with scheduler })

/-- Starts commands, in order, and gives their threads. -/
def start (db : Database) : List Command → Scheduler → List Nat × Scheduler
  | [], s => ([], s)
  | c :: rest, s =>
    let (t, s) := s.spawn (db.routine c)
    let (ts, s) := start db rest s
    (t :: ts, s)

/-- Awaits threads, in order, and gives their outcomes. -/
def outcomes : List Nat → Scheduler → List (Result Value) × Scheduler
  | [], s => ([], s)
  | t :: rest, s =>
    let (report, s) := s.await t
    let (rs, s) := outcomes rest s
    (report.outcome :: rs, s)

/-- A number of turns in which nothing is done. -/
def turns : Nat → Routine Store Report
  | 0 => .done ⟨.ok .null, []⟩
  | n + 1 => .wait .turn fun _ => turns n

/-- Starts a connecting and cancels it after five turns; gives the outcome of the
caller.  Where the caller is cancelled everything is released, and the outcome of the
transition follows. -/
def cancelConnect (target : CancelTarget) (s : Scheduler) : List (Result Value) × Scheduler :=
  let (caller, s) := s.spawn (s.database.routine .connect)
  let (_, s) := s.complete (turns 5)
  let pending := s.store.live.manager.pending
  match target with
  | .pending => outcomes [caller] (pending.elim s s.cancel)
  | .caller =>
    let (rs, s) := outcomes [caller] (s.cancel caller)
    let (rs', s) := outcomes pending.toList s.release
    (rs ++ rs', s)

mutual

/-- Carries out a step. -/
def step : Step → Session → Answer × Session
  | .command c, s =>
    let (report, s) := s.command c
    s.answer report.outcome report.inner []
  | .within body fails, s =>
    let (answers, s) := steps body s
    let (report, s) := s.command .disconnect
    let ending : Result Value := if fails then .error callerFault else .ok (.str "exited")
    s.answer (report.outcome.bind fun _ => ending) [] answers
  | .gather commands, s =>
    let (threads, scheduler) := start s.scheduler.database commands s.scheduler
    let (inner, scheduler) := outcomes threads scheduler
    answer (.ok (.str "gathered")) inner [] { s with scheduler }
  | .cancelConnect target, s =>
    let (inner, scheduler) := cancelConnect target s.scheduler
    answer (.ok (.str "cancelled")) inner [] { s with scheduler }

/-- Carries out steps, in order. -/
def steps : List Step → Session → List Answer × Session
  | [], s => ([], s)
  | st :: rest, s =>
    let (a, s) := step st s
    let (as, s) := steps rest s
    (a :: as, s)

end

end Session
end SqlWeave
