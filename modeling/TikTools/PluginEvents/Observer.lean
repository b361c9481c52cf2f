/-
The delivery of domain events to plugins, as a transition system.

The observer takes the events of the bus one by one and offers a copy to
every plugin that subscribes, through a bounded queue per plugin that a
worker of its own serves. All of them and the lifecycle of the plugins
interleave: an action is what one of them does between two reads of what
the others write. A task that polls its cancellation before something
else may be cancelled in between, so a cancelled worker may still take
an item.

# Gaps

A reliable event that finds its queue full is counted for its worker,
which reports the number in a notice before the next event it delivers.
What the code counts in is a number; the actions are stated for any
tally `γ`, so that the events themselves can be kept in its place
(`System.map` forgets them again).
-/
import TikTools.PluginEvents.Fanout
import TikTools.Lib.Runs
import Mathlib.Algebra.Group.Hom.Defs
import Mathlib.Data.Multiset.Basic

namespace TikTools.PluginEvents

open TikTools.Lib

-- ==== the events

structure DomainEventEnvelope where
  topic : String
  data : Json
  deriving DecidableEq

/-- A copy of an event on its way to a plugin. -/
structure QueuedPluginEvent where
  envelope : DomainEventEnvelope
  lossy : Bool
  deriving DecidableEq

/-- An event of the bus. -/
structure DomainEvent where
  topic : String
  data : Json
  lossy : Bool

def DomainEvent.toEnvelope (event : DomainEvent) : DomainEventEnvelope :=
  ⟨event.topic, event.data⟩

def DomainEvent.queued (event : DomainEvent) : QueuedPluginEvent :=
  ⟨event.toEnvelope, event.lossy⟩

/-- A notice that events were lost. -/
def gapEnvelope (lost now : Nat) : DomainEventEnvelope where
  topic := "event.gap"
  data := .object [("at", .number (toString now)),
    ("lost", .number (toString lost)), ("resync", .bool true)]

/-- What a full queue has to account for. No event of the bus has the
topic of the notices. -/
def QueuedPluginEvent.reliable (queued : QueuedPluginEvent) : Bool :=
  !queued.lossy && queued.envelope.topic ≠ "event.gap"

/-- Why a copy is given up. -/
inductive Reason where
  | notRunning
  | notReady
  | queueFull
  | workerClosed
  | takenNotReady
  | workerStopped
  | unavailable
  deriving DecidableEq

/-- What becomes of a copy, and the notices that a plugin answers. -/
inductive Happening (γ : Type) where
  | matched (queued : QueuedPluginEvent)
  | handed (queued : QueuedPluginEvent)
  | givenUp (queued : QueuedPluginEvent) (reason : Reason)
  | noticed (lost : γ)
  deriving DecidableEq

-- ==== the workers

/-- Where the worker of a queue is. -/
inductive Position (γ : Type) where
  | receiving
  /-- An item left the queue. -/
  | taken (queued : QueuedPluginEvent)
  /-- The plugin was found ready. -/
  | ready (queued : QueuedPluginEvent)
  /-- A notice is with the plugin. -/
  | notifying (queued : QueuedPluginEvent) (lost : γ)
  | notified (queued : QueuedPluginEvent)
  /-- The event is with the plugin. -/
  | delivering
  | stopped
  deriving DecidableEq

structure Worker (γ : Type) where
  pluginId : String
  generation : Nat
  queue : List QueuedPluginEvent
  cancelled : Bool
  pendingReliableGaps : γ
  position : Position γ

/-- What a worker does next, with what the transport answers. -/
inductive WorkerAction where
  | receive
  | check
  | swap
  | notice (delivered : Bool)
  | call (taken : Bool)
  | answer
  | stop
  deriving DecidableEq

/-- The capacity of a queue. -/
def pluginEventQueueCapacity : Nat := 64

namespace Worker

variable {γ : Type} [AddCommMonoid γ] [DecidableEq γ]

/-- The item a worker has in hand. -/
def held (w : Worker γ) : List QueuedPluginEvent :=
  match w.position with
  | .taken queued | .ready queued | .notifying queued _
  | .notified queued => [queued]
  | .receiving | .delivering | .stopped => []

def cancel (w : Worker γ) : Worker γ := { w with cancelled := true }

def push (w : Worker γ) (queued : QueuedPluginEvent) : Worker γ :=
  { w with queue := w.queue ++ [queued] }

/-- Count what was shed. -/
def owe (w : Worker γ) (lost : γ) : Worker γ :=
  { w with pendingReliableGaps := w.pendingReliableGaps + lost }

/-- The end of a worker: what it holds and what is queued is dropped. -/
def finish (w : Worker γ) : Worker γ × List (Happening γ) :=
  ({ w with queue := [], position := .stopped },
    (w.held ++ w.queue).map fun queued => .givenUp queued .workerStopped)

/-- A step of `run_plugin_queue`. -/
def step (core : Core) (w : Worker γ) :
    WorkerAction → Option (Worker γ × List (Happening γ))
  | .receive =>
    match w.position, w.queue with
    | .receiving, queued :: rest =>
      some ({ w with queue := rest, position := .taken queued }, [])
    | _, _ => none
  | .check =>
    match w.position with
    | .taken queued =>
      if core.pluginReady w.pluginId && core.isRunning w.pluginId then
        some ({ w with position := .ready queued }, [])
      else
        some ({ w with position := .receiving },
          [.givenUp queued .takenNotReady])
    | _ => none
  | .swap =>
    match w.position with
    | .ready queued =>
      if w.pendingReliableGaps = 0 then
        some ({ w with position := .notified queued }, [])
      else
        some ({ w with
          pendingReliableGaps := 0
          position := .notifying queued w.pendingReliableGaps }, [])
    | _ => none
  | .notice delivered =>
    match w.position with
    | .notifying queued lost =>
      if delivered then
        some ({ w with position := .notified queued }, [.noticed lost])
      else
        -- the summary is kept for the next notice
        some ({ w with
          pendingReliableGaps := w.pendingReliableGaps + lost
          position := .notified queued }, [])
    | _ => none
  | .call taken =>
    match w.position with
    | .notified queued =>
      if taken then
        -- a call of another generation is refused
        if core.runningGeneration w.pluginId = some w.generation then
          some ({ w with position := .delivering }, [.handed queued])
        else none
      else
        some ({ w with position := .receiving },
          [.givenUp queued .unavailable])
    | _ => none
  | .answer =>
    match w.position with
    | .delivering => some ({ w with position := .receiving }, [])
    | _ => none
  | .stop =>
    if w.cancelled then
      match w.position with
      | .receiving | .notified _ => some w.finish
      | _ => none
    else none

end Worker

-- ==== the observer

/-- Where the observer is: between events, at a copy of one, or looking
for workers whose plugin is gone. -/
inductive Observer where
  | idle
  | dispatching (queued : QueuedPluginEvent) (targets : List String)
  /-- The generation that runs was read. -/
  | located (queued : QueuedPluginEvent) (pluginId : String)
      (generation : Nat) (targets : List String)
  /-- The plugin was found ready. -/
  | admitted (queued : QueuedPluginEvent) (pluginId : String)
      (generation : Nat) (targets : List String)
  /-- The queue of a worker was found full. -/
  | shedding (queued : QueuedPluginEvent) (pluginId : String)
      (worker : Nat) (targets : List String)
  | reconciling (plugins : List DiscoveredPlugin)
  | stopped

/-- On to the next plugin, or done. -/
def Observer.rest (queued : QueuedPluginEvent) : List String → Observer
  | [] => .idle
  | targets => .dispatching queued targets

/-- The plugins, the observer with the workers it holds handles of, and
every worker that was started, the oldest first. -/
structure System (γ : Type) where
  core : Core
  fanout : FanoutCache
  shutdown : Bool
  observer : Observer
  handles : String → Option Nat
  workers : List (Worker γ)
  history : List (String × Happening γ)

inductive Action where
  /-- The registry changes: a package or a run of it. -/
  | registry (plugins : List DiscoveredPlugin)
  | instances (pluginId : String) (generation : Option Nat)
  | activation (pluginId : String) (state : Option PluginActivation)
  | shutdown
  | receive (event : DomainEvent)
  /-- The observer missed events of the bus. -/
  | lagged (lost now : Nat)
  | locate
  | checkReady
  | offer
  | shed
  | tick
  | judge (pluginId : String)
  | sweep
  | stop
  | worker (index : Nat) (action : WorkerAction)

namespace System

variable {γ : Type} [AddCommMonoid γ] [DecidableEq γ]

def start (core : Core) : System γ where
  core
  fanout := .empty
  shutdown := false
  observer := .idle
  handles := fun _ => none
  workers := []
  history := []

variable (count : QueuedPluginEvent → γ) (s : System γ)

/-- Note what happened to a copy for a plugin. -/
def note (pluginId : String) (happening : Happening γ) : System γ :=
  { s with history := s.history ++ [(pluginId, happening)] }

def goOn (observer : Observer) : System γ := { s with observer }

/-- Give up a copy, and go on with the next plugin. -/
def refuse (pluginId : String) (queued : QueuedPluginEvent)
    (reason : Reason) (targets : List String) : System γ :=
  (s.note pluginId (.givenUp queued reason)).goOn (.rest queued targets)

def setWorker (index : Nat) (w : Worker γ) : System γ :=
  { s with workers := s.workers.set index w }

/-- Cancel a worker. -/
def cancel (index : Nat) : System γ :=
  { s with workers := s.workers.modify index Worker.cancel }

/-- Give up the handle of a worker, which is cancelled. -/
def retire (pluginId : String) : System γ :=
  match s.handles pluginId with
  | none => s
  | some index =>
    { s.cancel index with
      handles := Function.update s.handles pluginId none }

/-- Every token is a child of the one of the observer. -/
def cancelAll : System γ :=
  { s with
    shutdown := true
    workers := s.workers.map Worker.cancel }

/-- `dispatch_envelope` as far as the matching. -/
def dispatch (queued : QueuedPluginEvent) (forceAllSubscribers : Bool) :
    System γ :=
  let fanout := s.fanout.current s.core
  let targets := fanout.targets queued.envelope.topic forceAllSubscribers
  { s with
    fanout
    observer := .rest queued targets
    history := s.history
      ++ targets.map fun pluginId => (pluginId, .matched queued) }

/-- Give up the handle of a worker of another generation. -/
def retireStale (pluginId : String) (generation : Nat) : System γ :=
  match (s.handles pluginId).bind (s.workers[·]?) with
  | none => s
  | some w =>
    if w.generation = generation then s else s.retire pluginId

/-- Start a worker for a plugin that has none. -/
def openWorker (pluginId : String) (generation : Nat) : System γ :=
  match s.handles pluginId with
  | some _ => s
  | none =>
    { s with
      handles := Function.update s.handles pluginId (some s.workers.length)
      workers := s.workers ++ [{
        pluginId, generation
        queue := []
        cancelled := s.shutdown
        pendingReliableGaps := 0
        position := .receiving }] }

/-- Offer a copy to the queue of a worker. -/
def offerTo (queued : QueuedPluginEvent) (pluginId : String)
    (targets : List String) (index : Nat) (w : Worker γ) : System γ :=
  if w.position = .stopped then
    (s.retire pluginId).refuse pluginId queued .workerClosed targets
  else if pluginEventQueueCapacity ≤ w.queue.length then
    if queued.reliable then
      s.goOn (.shedding queued pluginId index targets)
    else s.refuse pluginId queued .queueFull targets
  else
    (s.setWorker index (w.push queued)).goOn (.rest queued targets)

/-- Give up the handles of the workers that have stopped. -/
def dropClosed : System γ :=
  { s with handles := fun pluginId =>
      (s.handles pluginId).filter fun index =>
        (s.workers[index]?).any (·.position ≠ .stopped) }

/-- The worker of a plugin may live on. -/
def alive (plugins : List DiscoveredPlugin) (pluginId : String)
    (w : Worker γ) : Bool :=
  s.core.runningGeneration pluginId = some w.generation
    && (plugins.find? fun plugin => plugin.id = pluginId).any
      (eligibleForDelivery s.core)

/-- A step of the plugins, of the observer or of a worker. -/
def next : Action → Option (System γ)
  | .registry plugins =>
    some { s with core := { s.core with
      plugins, registryRevision := s.core.registryRevision + 1 } }
  | .instances pluginId generation =>
    some { s with core := { s.core with
      instances := Function.update s.core.instances pluginId generation } }
  | .activation pluginId state =>
    some { s with core := { s.core with
      activation := Function.update s.core.activation pluginId state
      activationRevision := s.core.activationRevision + 1 } }
  | .shutdown => some s.cancelAll
  | .receive event =>
    match s.observer with
    | .idle => some (s.dispatch event.queued false)
    | _ => none
  | .lagged lost now =>
    match s.observer with
    | .idle => some (s.dispatch ⟨gapEnvelope lost now, false⟩ true)
    | _ => none
  | .locate =>
    match s.observer with
    | .dispatching queued (pluginId :: targets) =>
      match s.core.runningGeneration pluginId with
      | none =>
        some (s.refuse pluginId queued .notRunning targets)
      | some generation =>
        some (s.goOn (.located queued pluginId generation targets))
    | _ => none
  | .checkReady =>
    match s.observer with
    | .located queued pluginId generation targets =>
      if s.core.pluginReady pluginId then
        some (s.goOn (.admitted queued pluginId generation targets))
      else some (s.refuse pluginId queued .notReady targets)
    | _ => none
  | .offer =>
    match s.observer with
    | .admitted queued pluginId generation targets =>
      let s := (s.retireStale pluginId generation).openWorker pluginId
        generation
      (s.handles pluginId).bind fun index =>
        (s.workers[index]?).map (s.offerTo queued pluginId targets index)
    | _ => none
  | .shed =>
    match s.observer with
    | .shedding queued _ index targets =>
      (s.workers[index]?).map fun w =>
        (s.setWorker index (w.owe (count queued))).goOn (.rest queued targets)
    | _ => none
  | .tick =>
    match s.observer with
    | .idle => some (s.goOn (.reconciling s.core.plugins))
    | _ => none
  | .judge pluginId =>
    match s.observer with
    | .reconciling plugins =>
      ((s.handles pluginId).bind (s.workers[·]?)).map fun w =>
        if s.alive plugins pluginId w then s else s.retire pluginId
    | _ => none
  | .sweep =>
    match s.observer with
    | .idle | .reconciling _ => some (s.dropClosed.goOn .idle)
    | _ => none
  | .stop =>
    match s.observer with
    | .idle =>
      some ({ s.cancelAll with handles := fun _ => none }.goOn .stopped)
    | _ => none
  | .worker index action =>
    (s.workers[index]?).bind fun w =>
      (w.step s.core action).map fun (w', happenings) =>
        happenings.foldl (·.note w.pluginId) (s.setWorker index w')

end System

end TikTools.PluginEvents
