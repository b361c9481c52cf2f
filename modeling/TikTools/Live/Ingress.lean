/-
The ingress of LIVE events and its accounting.

The pump receives the events of the connection one by one and admits
them into a bounded queue; the worker takes them out in order and
processes each. Counters say what became of every event. A shutdown
stops admission, joins the pump, lets the worker drain the queue and,
past its deadlines, stops the worker between two items or aborts it.

One action of the model is what a task does between two points where it
waits, or one step of the shutdown. Which task moves next, when the
deadlines pass and when the tokens are cancelled is left open, so a run
is any interleaving.

# What the accounting keeps

Every accepted event stays in exactly one of the worker's counters, the
queue and the worker's hands (`Conserved`). Every received event gets
one fate, and all fates but one have a counter: the pump aborted while
it waits to admit an event takes the event with it. `fates` is ghost
state, the fates in the order the events came in; no action reads it.
-/
import TikTools.Lib.Runs
import Mathlib.Tactic.Common

namespace TikTools.Live

open TikTools.Lib

-- ==== the state

/-- Delivery of a data event under overload. -/
inductive DataClass where
  | critical
  | sheddable
  deriving DecidableEq, Repr

/-- What admission distinguishes: transitions of the connection, and
data by its class. -/
inductive EventKind where
  | lifecycle
  | data (cls : DataClass)
  deriving DecidableEq, Repr

/-- An event with the generation of its connection. -/
structure IngressItem (E : Type) where
  generation : Nat
  event : E
  deriving DecidableEq, Repr

/-- The counters of admission and processing. -/
structure LiveIngressStats where
  received : Nat
  accepted : Nat
  processed : Nat
  droppedData : Nat
  droppedCritical : Nat
  stale : Nat
  queued : Nat
  inFlight : Nat
  cancelled : Nat
  abandoned : Nat
  admissionCancelled : Nat
  deriving DecidableEq, Repr

/-- What became of a received event at admission. -/
inductive Fate where
  | accepted
  | admissionCancelled
  | droppedData
  | droppedCritical
  /-- The worker no longer takes events. -/
  | workerGone
  /-- The pump was aborted while it waited to admit the event. -/
  | vanished
  deriving DecidableEq, Repr

inductive Pump (E : Type) where
  | receiving
  | waiting (item : IngressItem E)
  | exited
  deriving DecidableEq, Repr

inductive Worker (E : Type) where
  | receiving
  | processing (item : IngressItem E)
  | exited
  deriving DecidableEq, Repr

/-- How far `stop_live_ingress` has come. -/
inductive Shutdown where
  | running
  | joiningPump
  | draining
  | stopping
  | returned
  deriving DecidableEq, Repr

structure Ingress (E : Type) where
  stats : LiveIngressStats
  /-- Admission has stopped. -/
  liveAdmission : Bool
  /-- The emergency stop has been given. -/
  liveIngressStop : Bool
  queue : List (IngressItem E)
  /-- The receiving end of the queue is closed. -/
  closed : Bool
  pump : Pump E
  worker : Worker E
  shutdown : Shutdown
  /-- The newest generation the worker's fence knows. -/
  generation : Nat
  fates : List Fate
  deriving DecidableEq, Repr

variable {E : Type}

/-- A started pipeline. -/
def Ingress.start (generation : Nat) : Ingress E where
  stats := ⟨0, 0, 0, 0, 0, 0, 0, 0, 0, 0, 0⟩
  liveAdmission := false
  liveIngressStop := false
  queue := []
  closed := false
  pump := .receiving
  worker := .receiving
  shutdown := .running
  generation
  fates := []

def ingressQueueCapacity : Nat := 2048

-- ==== admission

namespace Ingress

/-- The counters a fate moves. -/
def count (stats : LiveIngressStats) : Fate → LiveIngressStats
  | .accepted =>
    { stats with
      accepted := stats.accepted + 1
      queued := stats.queued + 1 }
  | .admissionCancelled =>
    { stats with admissionCancelled := stats.admissionCancelled + 1 }
  | .droppedData => { stats with droppedData := stats.droppedData + 1 }
  | .droppedCritical =>
    { stats with droppedCritical := stats.droppedCritical + 1 }
  | .workerGone | .vanished => stats

/-- The event at hand meets its fate. -/
def settle (s : Ingress E) (fate : Fate) : Ingress E :=
  { s with
    stats := count s.stats fate
    pump := .receiving
    fates := s.fates ++ [fate] }

/-- Account, then publish. -/
def publishReserved (s : Ingress E) (item : IngressItem E) : Ingress E :=
  { s.settle .accepted with queue := s.queue ++ [item] }

def hasRoom (s : Ingress E) : Bool := s.queue.length < ingressQueueCapacity

/-- Reserve a slot and publish, or do `otherwise` on a full queue. -/
def reserve (s : Ingress E) (item : IngressItem E)
    (otherwise : Ingress E) : Ingress E :=
  if s.closed then s.settle .workerGone
  else if s.hasRoom then s.publishReserved item
  else otherwise

/-- What becomes of an event that finds the queue full. -/
def admitFull (kind : E → EventKind) (s : Ingress E)
    (item : IngressItem E) : Ingress E :=
  match kind item.event with
  | .data .sheddable => s.settle .droppedData
  | .data .critical | .lifecycle => { s with pump := .waiting item }

/-- Receive one event and admit it, as far as this takes no waiting. -/
def admitStampedEvent (kind : E → EventKind) (s : Ingress E)
    (item : IngressItem E) : Ingress E :=
  let s := { s with
    stats := { s.stats with received := s.stats.received + 1 } }
  if s.liveAdmission then s.settle .admissionCancelled
  else s.reserve item (admitFull kind s item)

-- ==== the worker

/-- Take the next item: a stale one is fenced, any other processed. -/
def take (s : Ingress E) (item : IngressItem E)
    (rest : List (IngressItem E)) : Ingress E :=
  let taken := { s.stats with
    queued := s.stats.queued - 1
    inFlight := s.stats.inFlight + 1 }
  if item.generation < s.generation then
    { s with
      stats := { taken with
        inFlight := taken.inFlight - 1
        stale := taken.stale + 1 }
      queue := rest }
  else
    { s with
      stats := taken
      queue := rest
      worker := .processing item }

def finish (s : Ingress E) : Ingress E :=
  { s with
    stats := { s.stats with
      inFlight := s.stats.inFlight - 1
      processed := s.stats.processed + 1 }
    worker := .receiving }

/-- Count the items still queued as cancelled. -/
def releaseItems : List (IngressItem E) → LiveIngressStats →
    LiveIngressStats
  | [], stats => stats
  | _ :: rest, stats =>
    releaseItems rest { stats with
      queued := stats.queued - 1
      cancelled := stats.cancelled + 1 }

/-- Leave the loop, close the queue and release what is in it. -/
def leave (s : Ingress E) : Ingress E :=
  { s with
    stats := releaseItems s.queue s.stats
    queue := []
    closed := true
    worker := .exited }

-- ==== the shutdown

/-- Admitted items that are neither finished nor released. -/
def outstanding (stats : LiveIngressStats) : Int :=
  (stats.accepted : Int)
    - (stats.processed + stats.stale + stats.cancelled + stats.abandoned :
      Nat)

/-- Account for the work a dead worker still owned. -/
def abandonOutstanding (stats : LiveIngressStats) : LiveIngressStats :=
  let inFlight := stats.inFlight
  let stats := { stats with inFlight := 0 }
  let missing := (max (outstanding stats) 0).toNat
  let queued := missing - inFlight
  { stats with
    cancelled := stats.cancelled + queued
    abandoned := stats.abandoned + (missing - queued)
    queued := 0 }

/-- The pump's task is dropped, with the event it was admitting. -/
def abortPump (s : Ingress E) : Ingress E :=
  { s with
    pump := .exited
    shutdown := .draining
    fates := match s.pump with
      | .waiting _ => s.fates ++ [.vanished]
      | _ => s.fates }

/-- The worker's task is dropped, with the queue. -/
def abortWorker (s : Ingress E) : Ingress E :=
  { s with
    stats := abandonOutstanding s.stats
    queue := []
    closed := true
    worker := .exited
    shutdown := .returned }

-- ==== the actions

inductive Action (E : Type) where
  /-- The pump receives an event. -/
  | receive (item : IngressItem E)
  /-- What the waiting pump waits for has happened. -/
  | resume
  /-- The backpressure deadline of a critical event passes. -/
  | expire
  /-- The pump leaves its loop. -/
  | pumpExit
  | take
  | finish
  /-- The worker leaves its loop. -/
  | workerExit
  /-- The connection's generation changes. -/
  | connect (generation : Nat)
  | stopAdmission
  | emergencyStop
  /-- The steps of `stop_live_ingress`. -/
  | beginStop
  | pumpJoined
  | abortPump
  | workerJoined
  | drainExpired
  | workerStopped
  | abortWorker
  deriving DecidableEq, Repr

/-- The waiting pump goes on: the stop of admission comes first. -/
def resumePump (s : Ingress E) (item : IngressItem E)
    (otherwise : Ingress E) : Ingress E :=
  if s.liveAdmission then s.settle .admissionCancelled
  else s.reserve item otherwise

/-- One action, where it can happen. -/
def next (kind : E → EventKind) (s : Ingress E) : Action E →
    Option (Ingress E)
  | .receive item =>
    match s.pump with
    | .receiving => some (admitStampedEvent kind s item)
    | _ => none
  | .resume =>
    match s.pump with
    | .waiting item =>
      if s.liveAdmission ∨ s.closed ∨ s.hasRoom then
        some (s.resumePump item s)
      else none
    | _ => none
  | .expire =>
    match s.pump with
    | .waiting item =>
      if kind item.event = .data .critical then
        some (s.resumePump item (s.settle .droppedCritical))
      else none
    | _ => none
  | .pumpExit =>
    match s.pump with
    | .receiving => some { s with pump := .exited }
    | _ => none
  | .take =>
    match s.worker, s.queue with
    | .receiving, item :: rest =>
      if s.liveIngressStop then none else some (s.take item rest)
    | _, _ => none
  | .finish =>
    match s.worker with
    | .processing _ => some s.finish
    | _ => none
  | .workerExit =>
    match s.worker, s.queue, s.pump with
    | .receiving, [], .exited => some s.leave
    | .receiving, _, _ => if s.liveIngressStop then some s.leave else none
    | _, _, _ => none
  | .connect generation => some { s with generation }
  | .stopAdmission => some { s with liveAdmission := true }
  | .emergencyStop => some { s with liveIngressStop := true }
  | .beginStop =>
    if s.shutdown = .running then
      some { s with liveAdmission := true, shutdown := .joiningPump }
    else none
  | .pumpJoined =>
    match s.shutdown, s.pump with
    | .joiningPump, .exited => some { s with shutdown := .draining }
    | _, _ => none
  | .abortPump =>
    if s.shutdown = .joiningPump then some s.abortPump else none
  | .workerJoined =>
    match s.shutdown, s.worker with
    | .draining, .exited => some { s with shutdown := .returned }
    | _, _ => none
  | .drainExpired =>
    if s.shutdown = .draining then
      some { s with liveIngressStop := true, shutdown := .stopping }
    else none
  | .workerStopped =>
    match s.shutdown, s.worker with
    | .stopping, .exited => some { s with shutdown := .returned }
    | _, _ => none
  | .abortWorker =>
    if s.shutdown = .stopping then some s.abortWorker else none

end Ingress

end TikTools.Live
