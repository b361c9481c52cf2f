/-
The analytics writer: one owner of the analytics database, and the
callers that submit records to it.

Callers reserve a place in a bounded queue, look once more whether the
writer was stopped, count the record and send it. The writer applies the
queue in batches. A batch carries an id that its transaction inserts, so
that a batch tried again is not applied again; the id is deleted once the
batch is through. When the writer is stopped and a batch keeps failing,
the batch and the rest of the queue are written to a recovery file, and
the next process applies that file before it admits anything.

# Conservation

What was accepted is what was applied, followed by what the writer still
owes (`Writer.owed`): the batches of the recovery file whose ids are not
in the table, the batch in hand, and the queue. Every step keeps this
equation and its order but one: a record sent when the recovery file has
been cut from the queue is owed by nobody. `Handshake` excludes it, and
`applied_exactly_once` is what holds without it, over any number of
processes.

Records carry the number of their submission; no step reads it.
-/
import TikTools.Lib.Runs
import Mathlib.Data.List.Nodup

namespace TikTools.Analytics

open TikTools.Lib

-- ==== the state

def capacity : Nat := 1024

def batchSize : Nat := 128

/-- A record with the number of its submission. -/
structure Submission (α : Type) where
  number : Nat
  record : α

/-- `RecoveryBatch`. -/
structure Batch (α : Type) where
  id : Nat
  records : List (Submission α)

/-- Where a call of `submit` is. -/
inductive SubmitStage where
  /-- Past its first look at the stop flag; it waits to be admitted. -/
  | waiting
  /-- It holds a place in the queue. -/
  | permitted
  /-- Past its second look at the stop flag. -/
  | checked
  /-- Its record is counted as pending. -/
  | counted
  deriving DecidableEq

structure Submit (α : Type) where
  submission : Submission α
  stage : SubmitStage

/-- Where the writer thread is. -/
inductive Phase (α : Type) where
  | loading
  | opening (recovery : List (Batch α))
  | replaying (recovery rest : List (Batch α))
  /-- The recovery is applied; its file is to be removed. -/
  | retiring
  /-- The ids are to be deleted. -/
  | clearing
  | polling
  | collecting (records : List (Submission α))
  | applying (batch : Batch α)
  /-- The batch is committed; its id is to be deleted. -/
  | deleting (batch : Batch α)
  /-- The batch is through and not yet counted off. -/
  | settling (batch : Batch α)
  | failed (batch : Batch α)
  /-- The deadline is over: the queue is emptied into a second batch. -/
  | draining (batch : Batch α) (queued : List (Submission α))
  | saving (batch : Batch α) (queued : List (Submission α))
  /-- The thread has returned. -/
  | gone

/-- The database, the recovery file and one process. The last six fields
are what happened so far: no step reads them. -/
structure Writer (α : Type) where
  ids : List Nat
  file : List (Batch α)
  phase : Phase α
  stop : Bool
  ready : Bool
  closed : Bool
  queue : List (Submission α)
  submits : List (Submit α)
  pending : Nat
  /-- The records in the analytics tables, as they were applied. -/
  applied : List (Submission α)
  /-- The records whose submit returned without an error. -/
  accepted : List (Submission α)
  /-- The numbers of the submits that returned an error. -/
  refused : List Nat
  nextNumber : Nat
  /-- Accepted and applied by this process. -/
  acceptedHere : Nat
  appliedHere : Nat
  /-- Committed by this process and not yet counted off. -/
  uncounted : Nat

def Writer.start {α : Type} : Writer α where
  ids := []
  file := []
  phase := .loading
  stop := false
  ready := false
  closed := false
  queue := []
  submits := []
  pending := 0
  applied := []
  accepted := []
  refused := []
  nextNumber := 0
  acceptedHere := 0
  appliedHere := 0
  uncounted := 0

inductive Action (α : Type) where
  /-- `submit` is called. -/
  | submit (record : α)
  /-- The future at this place is dropped while it waits. -/
  | cancel (index : Nat)
  /-- The call at this place goes on. -/
  | proceed (index : Nat)
  /-- `shutdown`, or the handle is dropped. -/
  | stop
  /-- The writer takes its next step. `done` tells whether what it does
  took effect, `reported` whether it was told so, and `id` is the random
  id of a new batch. -/
  | work (done reported : Bool) (id : Nat)
  /-- A batch fails and the flush deadline is over. -/
  | deadline
  /-- A new process starts. -/
  | restart

-- ==== the steps

namespace Writer

variable {α : Type} (s : Writer α)

def goTo (phase : Phase α) : Writer α := { s with phase }

def holdsPermit : SubmitStage → Bool
  | .waiting => false
  | _ => true

/-- The places that are reserved and not filled. -/
def permits : Nat := s.submits.countP fun x => holdsPermit x.stage

/-- The call at `index` goes on to `stage`. -/
def advance (index : Nat) (x : Submit α) (stage : SubmitStage) :
    Writer α :=
  { s with submits := s.submits.set index { x with stage } }

/-- The call at `index` returns an error. -/
def refuse (index : Nat) (x : Submit α) : Writer α :=
  { s with
    submits := s.submits.eraseIdx index
    refused := s.refused ++ [x.submission.number] }

/-- The thread has returned, and with it the receiver. -/
def isGone : Bool :=
  match s.phase with
  | .gone => true
  | _ => false

/-- The record is sent: the call returns without an error, whether there
is a receiver or not. -/
def send (index : Nat) (x : Submit α) : Writer α :=
  { s with
    submits := s.submits.eraseIdx index
    queue := if s.isGone then s.queue else s.queue ++ [x.submission]
    accepted := s.accepted ++ [x.submission]
    acceptedHere := s.acceptedHere + 1 }

/-- One step of a call. -/
def proceed (index : Nat) (x : Submit α) : Option (Writer α) :=
  match x.stage with
  | .waiting =>
    if s.ready then
      if s.closed then some (s.refuse index x)
      else if s.queue.length + s.permits < capacity then
        some (s.advance index x .permitted)
      else none
    else if s.isGone then some (s.refuse index x)
    else none
  | .permitted =>
    if s.stop then some (s.refuse index x)
    else some (s.advance index x .checked)
  | .checked =>
    some { s.advance index x .counted with pending := s.pending + 1 }
  | .counted => some (s.send index x)

/-- The transaction of a batch takes effect; `here` when the batch is
this process's. -/
def commit (batch : Batch α) (here : Bool) : Writer α :=
  if batch.id ∈ s.ids then s
  else
    { s with
      ids := s.ids ++ [batch.id]
      applied := s.applied ++ batch.records
      appliedHere :=
        if here then s.appliedHere + batch.records.length
        else s.appliedHere
      uncounted := if here then batch.records.length else s.uncounted }

/-- `receiver.close()` when the writer has been stopped. -/
def observeStop : Writer α := { s with closed := s.closed || s.stop }

/-- The ids in use: of the table, the file and the batch in hand. -/
def usesId (id : Nat) : Bool :=
  s.ids.contains id || s.file.any fun batch => batch.id == id

/-- The batches that are saved. -/
def remainder (batch : Batch α) (queued : List (Submission α))
    (id : Nat) : List (Batch α) :=
  batch :: if queued.isEmpty then [] else [⟨id, queued⟩]

/-- One step of the writer thread. -/
def work (done reported : Bool) (id : Nat) : Option (Writer α) :=
  match s.phase with
  | .loading =>
    -- a file that cannot be read stays where it is
    if done then some (s.goTo (.opening s.file)) else some (s.goTo .gone)
  | .opening recovery =>
    if done then some (s.goTo (.replaying recovery recovery))
    else if s.stop then some (s.goTo .gone)
    else some s
  | .replaying _ (batch :: rest) =>
    let s' := if done then s.commit batch false else s
    if done && reported then
      match s.phase with
      | .replaying recovery _ => some (s'.goTo (.replaying recovery rest))
      | _ => none
    else if s.stop then some (s'.goTo .gone)
    else some s'
  | .replaying recovery [] =>
    some (s.goTo (if recovery.isEmpty then .clearing else .retiring))
  | .retiring =>
    if done then some { s with file := [], phase := .clearing }
    else some (s.goTo .gone)
  | .clearing =>
    if done then some { s with ids := [], ready := true, phase := .polling }
    else some (s.goTo .gone)
  | .polling =>
    let s := s.observeStop
    match s.queue with
    | first :: queue =>
      some { s with queue, phase := .collecting [first] }
    | [] =>
      -- disconnected: closed, empty, and no place is reserved
      if s.closed && s.permits == 0 then some (s.goTo .gone)
      else some s
  | .collecting records =>
    match s.queue with
    | next :: queue =>
      if records.length < batchSize then
        some { s with queue, phase := .collecting (records ++ [next]) }
      else if s.usesId id then none
      else some (s.goTo (.applying ⟨id, records⟩))
    | [] =>
      if s.usesId id then none
      else some (s.goTo (.applying ⟨id, records⟩))
  | .applying batch =>
    let s' := if done then s.commit batch true else s
    if done && reported then some (s'.goTo (.deleting batch))
    else some (s'.goTo (.failed batch))
  | .deleting batch =>
    if done then
      some { s with
        ids := s.ids.filter (· ≠ batch.id), phase := .settling batch }
    else some (s.goTo (.failed batch))
  | .settling batch =>
    some
      { s with
        pending := s.pending - batch.records.length
        uncounted := 0
        phase := .polling }
  | .failed batch => some (s.observeStop.goTo (.applying batch))
  | .draining batch queued =>
    match s.queue with
    | next :: queue =>
      some { s with queue, phase := .draining batch (queued ++ [next]) }
    | [] => some (s.goTo (.saving batch queued))
  | .saving batch queued =>
    if s.usesId id || id == batch.id then none
    else if done then
      some { s with file := remainder batch queued id, phase := .gone }
    else some (s.goTo .gone)
  | .gone => none

/-- The process may end: the thread has returned, or it has not admitted
anything yet. -/
def mayRestart : Bool :=
  match s.phase with
  | .loading | .opening _ | .replaying _ _ | .retiring | .clearing
  | .gone => true
  | _ => false

/-- The next process, on the same disk. -/
def restarted : Writer α :=
  { Writer.start with
    ids := s.ids
    file := s.file
    applied := s.applied
    accepted := s.accepted
    refused := s.refused
    nextNumber := s.nextNumber }

def next (s : Writer α) : Action α → Option (Writer α)
  | .submit record =>
    let number := s.nextNumber
    let s := { s with nextNumber := number + 1 }
    if s.stop then some { s with refused := s.refused ++ [number] }
    else
      some { s with
        submits := s.submits ++ [⟨⟨number, record⟩, .waiting⟩] }
  | .cancel index =>
    (s.submits[index]?).bind fun x =>
      match x.stage with
      | .waiting => some { s with submits := s.submits.eraseIdx index }
      | _ => none
  | .proceed index => (s.submits[index]?).bind (s.proceed index)
  | .stop => some { s with stop := true }
  | .work done reported id => s.work done reported id
  | .deadline =>
    match s.phase with
    | .failed batch =>
      if s.stop then
        some (s.observeStop.goTo (.draining batch []))
      else none
    | _ => none
  | .restart => if s.mayRestart then some s.restarted else none

end Writer

end TikTools.Analytics
