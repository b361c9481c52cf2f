/-
Threadsafe functions of native addons: the record of a function with its
queue, the inbox of the owner thread, and the wake that several posts
share.

Each hold of a record's lock is a step, and so is each post. A call that
accepted an item or a release that closed the function reads the record
once more after it let go of the lock, to post (`Op.posting`). The owner
thread wakes up, takes the inbox, and serves one event after the other;
it is also what shuts the environment down. A callback that calls,
releases or creates functions does so as one more thread.

A freed record stays in the table as not live: a step that reads it is
recorded in `misused` and does nothing else. Addresses are not used
twice.
-/
import TikTools.Lib.Table
import TikTools.Lib.Runs

namespace TikTools.Napi

open TikTools.Lib Std

structure Tsfn where
  queue : List Nat
  threads : Nat
  closing : Bool
  aborted : Bool
  scheduled : Bool
  /-- whether there is a native callback -/
  callJs : Bool
  maxQueue : Nat
  live : Bool
  /-- the items whose call was answered `ok`, in this order -/
  accepted : List Nat
  handed : List Nat
  dropped : List Nat
  finalized : Nat
  deriving DecidableEq, Repr

/-- What a thread is in the middle of. -/
inductive Op where
  | waiting (tsfn item : Nat)
  | posting (tsfn : Nat)
  deriving DecidableEq, Repr

def Op.tsfn : Op → Nat
  | .waiting tsfn _ => tsfn
  | .posting tsfn => tsfn

/-- Where the owner thread is. -/
inductive Phase where
  | asleep
  /-- a wake was received, its flag is still set -/
  | woken
  | awake
  | pumping
  | dispatching (tsfn : Nat)
  | checking (tsfn : Nat)
  | finishing (tsfn : Nat)
  | shutting (todo : List Nat)
  | draining (todo : List Nat)
  | ending (todo : List Nat)
  | down
  deriving DecidableEq, Repr

/-- What is left to shut down. -/
def Phase.todo : Phase → Option (List Nat)
  | .shutting todo => some todo
  | .draining todo => some todo
  | .ending todo => some todo
  | .down => some []
  | _ => none

structure Env where
  fns : Table Nat Tsfn
  events : List Nat
  batch : List Nat
  /-- the shared wake flag, and the wakes in the channel -/
  pending : Bool
  messages : Nat
  phase : Phase
  /-- which thread may still use which function -/
  users : List (Nat × Nat)
  ops : Table Nat Op
  misused : Bool

inductive Action where
  | create (tsfn : Nat) (users : List Nat) (callJs : Bool) (maxQueue : Nat)
  | call (thread tsfn item : Nat) (blocking : Bool)
  | resume (thread : Nat)
  | post (thread : Nat)
  | acquire (thread tsfn other : Nat)
  | release (thread tsfn : Nat) (abort : Bool)
  | receive
  | clear
  | serve
  | take
  | again
  | rest
  | dispatch
  | pop
  | check
  | finish
  | shutdown (order : List Nat)
  | close
  | drain
  | stop
  deriving DecidableEq, Repr

namespace Env

def setFn (s : Env) (tsfn : Nat) (fn : Tsfn) : Env :=
  { s with fns := s.fns.insert tsfn fn }

/-- A thread that is not to use the function any more. -/
def forget (s : Env) (thread tsfn : Nat) : Env :=
  { s with users := s.users.filter (· ≠ (thread, tsfn)) }

def setOp (s : Env) (thread : Nat) (op : Op) : Env :=
  { s with ops := s.ops.insert thread op }

def doneOp (s : Env) (thread : Nat) : Env :=
  { s with ops := s.ops.erase thread }

/-- A thread reads the record. -/
def touch (s : Env) (tsfn : Nat) (body : Tsfn → Env) : Option Env :=
  (s.fns[tsfn]?).map fun fn =>
    if fn.live then body fn else { s with misused := true }

/-- One hold of the lock by `napi_call_threadsafe_function`. -/
def callTsfn (s : Env) (thread tsfn item : Nat) (blocking : Bool)
    (fn : Tsfn) : Env :=
  if fn.closing then (s.forget thread tsfn).doneOp thread
  else if fn.maxQueue = 0 ∨ fn.queue.length < fn.maxQueue then
    let s' := s.setFn tsfn { fn with
      queue := fn.queue ++ [item]
      accepted := fn.accepted ++ [item]
      scheduled := true }
    if fn.scheduled then s'.doneOp thread
    else s'.setOp thread (.posting tsfn)
  else if blocking then s.setOp thread (.waiting tsfn item)
  else s.doneOp thread

def acquireTsfn (s : Env) (thread tsfn other : Nat) (fn : Tsfn) : Env :=
  if fn.closing then s.forget thread tsfn
  else { s.setFn tsfn { fn with threads := fn.threads + 1 } with
    users := (other, tsfn) :: s.users }

def releaseTsfn (s : Env) (thread tsfn : Nat) (abort : Bool) (fn : Tsfn) :
    Env :=
  let s' := s.forget thread tsfn
  if fn.threads = 0 then s'
  else if fn.threads - 1 = 0 ∨ abort then
    (s'.setFn tsfn { fn with
      threads := fn.threads - 1
      closing := true
      aborted := fn.aborted || abort }).setOp thread (.posting tsfn)
  else s'.setFn tsfn { fn with threads := fn.threads - 1 }

/-- An event is posted, and the owner woken unless a wake is pending. -/
def post (s : Env) (tsfn : Nat) : Env :=
  { s with
    events := s.events ++ [tsfn]
    pending := true
    messages := if s.pending then s.messages else s.messages + 1 }

/-- One item is handed to the callback; without a native one an aborted
function drops it. -/
def popTsfn (fn : Tsfn) (item : Nat) (queue : List Nat) : Tsfn :=
  if fn.aborted && !fn.callJs then
    { fn with queue, dropped := fn.dropped ++ [item] }
  else { fn with queue, handed := fn.handed ++ [item] }

/-- The record is finalized and freed. -/
def finishTsfn (fn : Tsfn) : Tsfn :=
  { fn with
    live := false
    finalized := fn.finalized + 1
    dropped := fn.dropped ++ fn.queue
    queue := [] }

/-- The functions there are, in some order. -/
def liveFns (s : Env) : List Nat := (s.fns.toList.filter (·.2.live)).map (·.1)

def next (s : Env) : Action → Option Env
  | .create tsfn users callJs maxQueue =>
    if s.fns[tsfn]? = none ∧ users ≠ [] then
      some { s with
        fns := s.fns.insert tsfn
          ⟨[], users.length, false, false, false, callJs, maxQueue, true,
            [], [], [], 0⟩
        users := users.map (·, tsfn) ++ s.users }
    else none
  | .call thread tsfn item blocking =>
    if (thread, tsfn) ∈ s.users ∧ s.ops[thread]? = none then
      s.touch tsfn (s.callTsfn thread tsfn item blocking)
    else none
  | .resume thread =>
    match s.ops[thread]? with
    | some (.waiting tsfn item) =>
      s.touch tsfn (s.callTsfn thread tsfn item true)
    | _ => none
  | .post thread =>
    match s.ops[thread]? with
    | some (.posting tsfn) =>
      s.touch tsfn fun _ => (s.post tsfn).doneOp thread
    | _ => none
  | .acquire thread tsfn other =>
    if (thread, tsfn) ∈ s.users ∧ s.ops[thread]? = none then
      s.touch tsfn (s.acquireTsfn thread tsfn other)
    else none
  | .release thread tsfn abort =>
    if (thread, tsfn) ∈ s.users ∧ s.ops[thread]? = none then
      s.touch tsfn (s.releaseTsfn thread tsfn abort)
    else none
  | .receive =>
    if s.phase = .asleep ∧ 0 < s.messages then
      some { s with messages := s.messages - 1, phase := .woken }
    else none
  | .clear =>
    if s.phase = .woken then
      some { s with pending := false, phase := .awake }
    else none
  | .serve =>
    if s.phase = .asleep then some { s with phase := .awake } else none
  | .take =>
    if s.phase = .awake then
      some { s with events := [], batch := s.events, phase := .pumping }
    else none
  | .again =>
    if s.phase = .pumping ∧ s.batch = [] then
      some { s with phase := .awake }
    else none
  | .rest =>
    if s.phase = .pumping ∧ s.batch = [] then
      some { s with phase := .asleep }
    else none
  | .dispatch =>
    match s.phase, s.batch with
    | .pumping, tsfn :: batch => some { s with
        batch
        phase := if (s.fns[tsfn]?).any (·.live) then .dispatching tsfn
          else .pumping }
    | _, _ => none
  | .pop =>
    match s.phase with
    | .dispatching tsfn => (s.fns[tsfn]?).map fun fn =>
      match fn.queue with
      | [] => { s.setFn tsfn { fn with scheduled := false } with
          phase := .checking tsfn }
      | item :: queue => s.setFn tsfn (popTsfn fn item queue)
    | _ => none
  | .check =>
    match s.phase with
    | .checking tsfn => (s.fns[tsfn]?).map fun fn =>
      if fn.closing ∧ fn.queue = [] then
        { s with phase := .finishing tsfn }
      else { s with phase := .pumping }
    | _ => none
  | .finish =>
    match s.phase with
    | .finishing tsfn => (s.fns[tsfn]?).map fun fn =>
      { s.setFn tsfn (finishTsfn fn) with phase := .pumping }
    | .ending (tsfn :: todo) => (s.fns[tsfn]?).map fun fn =>
      { s.setFn tsfn (finishTsfn fn) with phase := .shutting todo }
    | _ => none
  | .shutdown order =>
    if s.phase = .awake ∧ order.Perm s.liveFns then
      some { s with phase := .shutting order }
    else none
  | .close =>
    match s.phase with
    | .shutting (tsfn :: todo) => (s.fns[tsfn]?).map fun fn =>
      { s.setFn tsfn { fn with closing := true, aborted := true } with
        phase := .draining (tsfn :: todo) }
    | _ => none
  | .drain =>
    match s.phase with
    | .draining (tsfn :: todo) => (s.fns[tsfn]?).map fun fn =>
      { s.setFn tsfn (if fn.callJs then
          { fn with queue := [], handed := fn.handed ++ fn.queue }
        else fn) with
        phase := .ending (tsfn :: todo) }
    | _ => none
  | .stop =>
    if s.phase = .shutting [] then some { s with phase := .down }
    else none

/-- An environment without any function. -/
def new : Env where
  fns := ∅
  events := []
  batch := []
  pending := false
  messages := 0
  phase := .asleep
  users := []
  ops := ∅
  misused := false

/-- No thread may use the function or is in the middle of doing so. -/
def Unused (s : Env) (tsfn : Nat) : Prop :=
  (∀ entry ∈ s.users, entry.2 ≠ tsfn)
    ∧ ∀ entry ∈ s.ops.toList, entry.2.tsfn ≠ tsfn

instance (s : Env) (tsfn : Nat) : Decidable (s.Unused tsfn) :=
  inferInstanceAs (Decidable (_ ∧ _))

/-- A record is freed only when no thread uses it any more, and no
function is created once the shutdown has begun. -/
def Ordered (s : Env) : Action → Prop
  | .create _ _ _ _ => s.phase.todo = none
  | .finish =>
    match s.phase with
    | .finishing tsfn => s.Unused tsfn
    | .ending (tsfn :: _) => s.Unused tsfn
    | _ => True
  | _ => True

instance (s : Env) (action : Action) : Decidable (s.Ordered action) := by
  unfold Ordered
  split
  · infer_instance
  · split <;> infer_instance
  · infer_instance

end Env

end TikTools.Napi
