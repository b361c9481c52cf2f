/-
Who owns the LIVE connection: the control lock, the one task handle under
it, and the published state that the task and every caller write.

A call runs up to its next wait in one step: it waits for the lock, for
the end of the task it retires (or the deadline), and for the reply of
the task it launched; at each of these it may be dropped (`dropped`). A
task goes on by `Task.next`, which is the body that connecting writes,
with the guard that runs when it is over: a look at the stop signal and
the transition made on it are two steps.
-/
import TikTools.Lib.Checked
import TikTools.Lib.Table
import TikTools.Lib.Runs

namespace TikTools.Connection

open TikTools.Lib Std

inductive ConnectionState where
  | idle
  | connecting
  | connected
  | reconnecting
  | disconnecting
  | failed
  deriving DecidableEq, Repr

structure ConnectionSnapshot where
  generation : Nat
  state : ConnectionState
  deriving DecidableEq, Repr

-- ==== the task

/-- Where a task is; `stopped` is what it saw of the stop signal. -/
inductive Stage where
  | initializing
  | connecting
  | replying
  | running
  | ended (stopped : Bool)
  | failing (stopped : Bool)
  /-- an error reply is next, and then the end -/
  | refusing
  /-- the body is over, and its guard is next -/
  | leaving (panicked : Bool)
  | exiting (panicked stopped : Bool)
  | finished (panicked : Bool)
  deriving DecidableEq, Repr

inductive Reply where
  | pending
  | ok
  | error
  | closed
  deriving DecidableEq, Repr

structure Task where
  stage : Stage
  cancelled : Bool
  reply : Reply
  deriving DecidableEq, Repr

/-- What a task does next; a task that ignores the stop signal does not
end. -/
inductive Work where
  | retry
  | reconnect
  | initialized (ok : Bool)
  | go
  | ended
  | panic
  deriving DecidableEq, Repr

def afterStop (stopped : Bool) : ConnectionState :=
  if stopped then .idle else .failed

namespace Task

def finished (task : Task) : Bool :=
  match task.stage with
  | .finished _ => true
  | _ => false

/-- The body is over: a reply that was not sent never comes. -/
def leave (task : Task) (panicked : Bool) : Task :=
  { task with
    stage := .leaving panicked
    reply := if task.reply = .pending then .closed else task.reply }

/-- One step of a task, with the transition it makes. -/
def next (task : Task) (work : Work) :
    Option (Task × Option ConnectionState) :=
  match task.stage, work with
  | .initializing, .retry => some (task, some .reconnecting)
  | .running, .retry => some (task, some .reconnecting)
  | .running, .reconnect => some (task, some .connected)
  | .initializing, .initialized true =>
    some ({ task with
      stage := if task.cancelled then .refusing else .connecting }, none)
  | .initializing, .initialized false =>
    some ({ task with stage := .failing task.cancelled }, none)
  | .connecting, .go =>
    some ({ task with stage := .replying }, some .connected)
  | .replying, .go =>
    some ({ task with stage := .running, reply := .ok }, none)
  | .running, .ended =>
    some ({ task with stage := .ended task.cancelled }, none)
  | .ended stopped, .go => some (task.leave false, some (afterStop stopped))
  | .failing stopped, .go =>
    some ({ task with stage := .refusing }, some (afterStop stopped))
  | .refusing, .go => some ({ task with reply := .error }.leave false, none)
  | .leaving panicked, .go =>
    some ({ task with stage := .exiting panicked task.cancelled }, none)
  | .exiting panicked stopped, .go =>
    some ({ task with stage := .finished panicked }, some (afterStop stopped))
  | .leaving _, .panic => none
  | .exiting _ _, .panic => none
  | .finished _, .panic => none
  | _, .panic => some (task.leave true, none)
  | _, _ => none

end Task

-- ==== the owner

inductive Request where
  | connect
  | disconnect
  deriving DecidableEq, Repr

/-- What a call waits for. -/
inductive Phase where
  | locking (request : Request)
  | retiring (request : Request) (generation : Nat)
  | answering (generation : Nat)
  deriving DecidableEq, Repr

inductive Answer where
  | connected (call generation : Nat)
  | disconnected (call generation : Nat)
  | failed (call : Nat)
  deriving DecidableEq, Repr

/-- Tasks are numbered by their generation. -/
structure Owner where
  snapshot : ConnectionSnapshot
  active : Option Nat
  lock : Option Nat
  tasks : Table Nat Task
  calls : Table Nat Phase
  /-- the answers given, the last first -/
  answers : List Answer

inductive Action where
  | request (call : Nat) (request : Request)
  | acquired (call : Nat)
  | joined (call : Nat)
  | deadline (call : Nat)
  | answered (call : Nat)
  | dropped (call : Nat)
  | work (generation : Nat) (work : Work)
  deriving DecidableEq, Repr

namespace Owner

def new : Owner where
  snapshot := ⟨0, .idle⟩
  active := none
  lock := none
  tasks := ∅
  calls := ∅
  answers := []

/-- Only the current generation changes what is published. -/
def transition (s : Owner) (generation : Nat) (state : ConnectionState) :
    Owner :=
  if s.snapshot.generation ≠ generation then s
  else { s with snapshot := { s.snapshot with state } }

/-- A further generation, if there is one. -/
def advance (s : Owner) (state : ConnectionState) : Option Owner :=
  if s.snapshot.generation < u64Max then
    some { s with snapshot := ⟨s.snapshot.generation + 1, state⟩ }
  else none

/-- The call that holds the lock is over. -/
def release (s : Owner) (call : Nat) : Owner :=
  { s with lock := none, calls := s.calls.erase call }

def answer (s : Owner) (given : Answer) : Owner :=
  { s with answers := given :: s.answers }

/-- Nothing is held any more: the task starts, or the state is idle. -/
def proceed (s : Owner) (call : Nat) : Request → Owner
  | .connect =>
    match s.advance .connecting with
    | none => s.release call
    | some s =>
      { s with
        active := some s.snapshot.generation
        lock := none
        tasks := s.tasks.insert s.snapshot.generation
          ⟨.initializing, false, .pending⟩
        calls := s.calls.insert call (.answering s.snapshot.generation) }
  | .disconnect =>
    match s.advance .idle with
    | none => s.release call
    | some s =>
      (s.release call).answer (.disconnected call s.snapshot.generation)

def cancel (s : Owner) (generation : Nat) : Owner :=
  match s.tasks[generation]? with
  | some task =>
    { s with tasks :=
        s.tasks.insert generation ({ task with cancelled := true }) }
  | none => s

def acquired (s : Owner) (call : Nat) (request : Request) : Owner :=
  match s.active with
  | none => s.proceed call request
  | some held =>
    { (s.cancel held).transition s.snapshot.generation .disconnecting with
      lock := some call
      calls := s.calls.insert call (.retiring request s.snapshot.generation) }

/-- The held task is over. -/
def joined (s : Owner) (call : Nat) (request : Request)
    (generation : Nat) (panicked : Bool) : Owner :=
  let taken := { s with active := none }
  if panicked then
    ((taken.transition generation .failed).release call).answer (.failed call)
  else taken.proceed call request

/-- The reply of the task, or that there will be none. -/
def answered (s : Owner) (call generation : Nat) : Reply → Option Owner
  | .pending => none
  | .ok =>
    some ({ s with calls := s.calls.erase call }.answer
      (if s.snapshot.generation = generation then
        .connected call generation
      else .failed call))
  | .error =>
    some ({ s with calls := s.calls.erase call }.answer (.failed call))
  | .closed =>
    some ({ s.transition generation .failed with
      calls := s.calls.erase call }.answer (.failed call))

def next (s : Owner) : Action → Option Owner
  | .request call request =>
    if s.calls[call]? = none then
      some { s with calls := s.calls.insert call (.locking request) }
    else none
  | .acquired call =>
    match s.calls[call]?, s.lock with
    | some (.locking request), none => some (s.acquired call request)
    | _, _ => none
  | .joined call =>
    match s.calls[call]?, s.active.bind (s.tasks[·]?) with
    | some (.retiring request generation),
        some ⟨.finished panicked, _, _⟩ =>
      some (s.joined call request generation panicked)
    | _, _ => none
  | .deadline call =>
    match s.calls[call]? with
    | some (.retiring _ generation) =>
      some (((s.transition generation .failed).release call).answer
        (.failed call))
    | _ => none
  | .answered call =>
    match s.calls[call]? with
    | some (.answering generation) =>
      (s.tasks[generation]?).bind fun task =>
        s.answered call generation task.reply
    | _ => none
  | .dropped call =>
    some { s with
      lock := if s.lock = some call then none else s.lock
      calls := s.calls.erase call }
  | .work generation work =>
    (s.tasks[generation]?).bind fun task =>
      (task.next work).map fun (task, made) =>
        let s := match made with
          | some state => s.transition generation state
          | none => s
        { s with tasks := s.tasks.insert generation task }

/-- The generation an action is made for. -/
def generationOf (s : Owner) : Action → Option Nat
  | .work generation _ => some generation
  | .request _ _ => none
  | .acquired _ => none
  | .joined call | .deadline call | .answered call | .dropped call =>
    match s.calls[call]? with
    | some (.retiring _ generation) => some generation
    | some (.answering generation) => some generation
    | _ => none

end Owner

end TikTools.Connection
