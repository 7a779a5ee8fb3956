import SqlWeave.Live.Manager

/-!
# The scheduler

Threads run routines on one store, one at a time; a thread runs until its routine waits
or is done.  A queue holds what is to be done next, in order: the resuming of a thread,
or the passing on of a transition's outcome to a thread that follows it.  Followers do
not own the transition, so that the cancelling of a follower leaves it alone.

A wait for a goal is carried out here, since it may take any number of attempts: the
manager says what a caller has to do, and this is looked up again after each
transition that was not final for the caller.

`fire i` does the `i`-th thing in the queue, so that all interleavings can be spoken
of; `run` always does the first.
-/

namespace SqlWeave

/-- What a thread reports in the end: its outcome, and for a block the outcomes of its
entries. -/
structure Report where
  outcome : Result Value
  inner : List (Result Value) := []

/-- How a suspended thread goes on with the outcome of its wait. -/
inductive Continuation
  | go (next : Result Value → Routine Store Report)
  /-- After the outcome of a transition that was not final. -/
  | retry (goal : Goal) (next : Result Value → Routine Store Report)

/-- Where a thread stands. -/
inductive ThreadStatus
  /-- In the queue, to go on with an outcome. -/
  | ready (outcome : Result Value) (go : Continuation)
  /-- Until the release of everything that hangs. -/
  | hanging (go : Continuation)
  /-- Until a transition's outcome is passed on. -/
  | following (transition : Nat) (go : Continuation)
  | finished (report : Report)

/-- Something to be done. -/
inductive Handle
  | resume (thread : Nat)
  /-- Passes the outcome of a transition on to a follower. -/
  | pass (thread transition : Nat) (outcome : Result Value)

/-- Threads and what is to be done. -/
structure Scheduler where
  database : Database
  store : Store := {}
  threads : List ThreadStatus := []
  queue : List Handle := []
  /-- The threads that follow a transition, in the order in which they began to. -/
  followers : List Nat := []
  /-- Nothing hangs any more. -/
  isReleased : Bool := false

namespace Scheduler

/-- The scheduler with a thread in another place. -/
def setStatus (t : Nat) (status : ThreadStatus) (s : Scheduler) : Scheduler :=
  { s with threads := s.threads.set t status }

/-- The scheduler with one more thing to be done. -/
def enqueue (h : Handle) (s : Scheduler) : Scheduler :=
  { s with queue := s.queue ++ [h] }

/-- The scheduler with a thread that will go on with an outcome. -/
def awaken (t : Nat) (outcome : Result Value) (go : Continuation) (s : Scheduler) : Scheduler :=
  (s.setStatus t (.ready outcome go)).enqueue (.resume t)

/-- The report of a thread that is finished. -/
def report? (t : Nat) (s : Scheduler) : Option Report :=
  match s.threads[t]? with
  | some (.finished report) => some report
  | _ => none

/-- A continuation that starts a routine.  A thread that is cancelled before it runs
has no other outcome. -/
def starting (routine : Routine Store Report) : Continuation :=
  .go fun
    | .ok _ => routine
    | .error f => .done ⟨.error f, []⟩

/-- The scheduler with one more thread, which is not in the queue yet. -/
def add (routine : Routine Store Report) (s : Scheduler) : Scheduler :=
  { s with threads := s.threads ++ [ThreadStatus.ready (.ok .null) (starting routine)] }

/-- Starts a thread, to run when its turn comes. -/
def spawn (routine : Routine Store Report) (s : Scheduler) : Nat × Scheduler :=
  let t := s.threads.length
  (t, (s.add routine).enqueue (.resume t))

/-- The routine of an action. -/
def routineOf (action : Action Store Value) : Routine Store Report :=
  action.run.bind fun r => .done ⟨r, []⟩

/-- Does a thread follow a transition? -/
def follows (transition : Nat) (s : Scheduler) (t : Nat) : Bool :=
  match s.threads[t]? with
  | some (.following target _) => target == transition
  | _ => false

/-- Ends a thread, and has its outcome passed on to its followers. -/
def finish (t : Nat) (report : Report) (s : Scheduler) : Scheduler :=
  let ready := s.followers.filter (s.follows t)
  { s with
    threads := s.threads.set t (.finished report)
    followers := s.followers.filter (!s.follows t ·)
    queue := s.queue ++ ready.map (.pass · t report.outcome) }

/-- Lets a thread follow a transition. -/
def follow (t transition : Nat) (go : Continuation) (s : Scheduler) : Scheduler :=
  { s.setStatus t (.following transition go) with followers := s.followers ++ [t] }

/-- What there is to a goal at once: its outcome, or a transition to follow, which is
begun if need be. -/
def seek (goal : Goal) (s : Scheduler) : Result Value ⊕ (Nat × Bool × Scheduler) :=
  match s.store.live.manager.pursuit goal with
  | .reached v => .inl (.ok v)
  | .begin transition =>
    let (thread, s) := s.spawn (routineOf (transition.action s.database))
    .inr (thread, true, { s with store := s.store.onManager (Manager.begun transition thread) })
  | .follow thread isFinal =>
    match s.report? thread with
    | some report => .inl report.outcome
    | none => .inr (thread, isFinal, s)

/-- The continuation of a thread that follows a transition towards a goal. -/
def towards (goal : Goal) (isFinal : Bool) (next : Result Value → Routine Store Report) :
    Continuation :=
  if isFinal then .go next else .retry goal next

/-- Runs a thread's routine until it waits or is done. -/
def advance (t : Nat) : Routine Store Report → Scheduler → Scheduler
  | .done report, s => s.finish t report
  | .step change next, s => advance t (next s.store) { s with store := change s.store }
  | .wait .turn next, s => s.awaken t (.ok .null) (.go next)
  | .wait .release next, s =>
    if s.isReleased then advance t (next (.ok .null)) s else s.setStatus t (.hanging (.go next))
  | .wait (.goal goal) next, s =>
    match s.seek goal with
    | .inl outcome => advance t (next outcome) s
    | .inr (transition, isFinal, s) => s.follow t transition (towards goal isFinal next)

/-- Lets a thread go on with the outcome of its wait. -/
def proceed (t : Nat) (outcome : Result Value) (s : Scheduler) : Continuation → Scheduler
  | .go next => s.advance t (next outcome)
  | .retry goal next =>
    if goal.triesAgain outcome then s.advance t (.wait (.goal goal) next)
    else s.advance t (next outcome)

/-- Does what a handle says. -/
def perform (h : Handle) (s : Scheduler) : Scheduler :=
  match h with
  | .resume t =>
    match s.threads[t]? with
    | some (.ready outcome go) => s.proceed t outcome go
    | _ => s
  | .pass t transition outcome =>
    match s.threads[t]? with
    | some (.following target go) => if target = transition then s.awaken t outcome go else s
    | _ => s

/-- Does the `i`-th thing in the queue. -/
def fire (i : Nat) (s : Scheduler) : Scheduler :=
  match s.queue[i]? with
  | some h => perform h { s with queue := s.queue.eraseIdx i }
  | none => s

/-- Cancels a thread: the wait that it is in ends with a cancellation. -/
def cancel (t : Nat) (s : Scheduler) : Scheduler :=
  match s.threads[t]? with
  | some (.ready _ go) => s.setStatus t (.ready (.error .cancelled) go)
  | some (.hanging go) => s.awaken t (.error .cancelled) go
  | some (.following _ go) =>
    { s.awaken t (.error .cancelled) go with followers := s.followers.erase t }
  | _ => s

/-- Lets a thread go on if it hangs. -/
def letGo (s : Scheduler) (t : Nat) : Scheduler :=
  match s.threads[t]? with
  | some (.hanging go) => s.awaken t (.ok .null) go
  | _ => s

/-- Lets go on everything that hangs, and lets nothing hang any more. -/
def release (s : Scheduler) : Scheduler :=
  (List.range s.threads.length).foldl letGo { s with isReleased := true }

/-- What holds when nothing may hang any more, and is kept when a thread is let go, holds when
everything that hangs is let go. -/
theorem release_of_letGo {P : Scheduler → Prop} {s : Scheduler}
    (hStart : P { s with isReleased := true }) (hLetGo : ∀ s' t, P s' → P (s'.letGo t)) :
    P s.release :=
  List.foldlRecOn _ _ hStart fun s' h t _ => hLetGo s' t h

/-- Does what is in the queue, the first thing first, until a condition holds or
nothing is left; `fuel` bounds the number of things done. -/
def run (until_ : Scheduler → Bool) : Nat → Scheduler → Scheduler
  | 0, s => s
  | fuel + 1, s => if until_ s || s.queue.isEmpty then s else run until_ fuel (s.fire 0)

/-- More things than any of the programs that are run here has to do. -/
def turnLimit : Nat := 1000000

/-- Runs until a thread is finished, and gives its report.  A thread that hangs for
good is taken for cancelled. -/
def await (t : Nat) (s : Scheduler) : Report × Scheduler :=
  let s := s.run (fun s => (s.report? t).isSome) turnLimit
  ((s.report? t).getD ⟨.error .cancelled, []⟩, s)

/-- Runs a routine as a thread of its own that starts at once, until it is done. -/
def complete (routine : Routine Store Report) (s : Scheduler) : Report × Scheduler :=
  let t := s.threads.length
  ((s.add routine).perform (.resume t)).await t

end Scheduler
end SqlWeave
