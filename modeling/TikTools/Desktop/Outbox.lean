/-
The WebView outbox: a reliable lane that is never shed, a lossy lane that
coalesces and sheds its oldest messages, batches that are filled from the
first lane and then from the second, and the mailbox that lets producers
wake the UI loop.

The byte counters of the lanes are edited by hand in the source. Here an
edit that would underflow, or a shedding loop that would not end, makes
the function return nothing; `Outbox.Sound` excludes both, and says what
the lanes hold. `parse` stands for the JSON parser.
-/
import TikTools.Desktop.Message
import TikTools.Lib.Runs
import Mathlib.Data.List.Nodup

namespace TikTools.Desktop

open TikTools.Lib

variable {τ : Type}

-- ==== the outbox

structure WebviewOutbox (τ : Type) where
  reliable : List (QueuedWebviewMessage τ)
  lossy : List (QueuedWebviewMessage τ)
  reliableBytes : Nat
  lossyBytes : Nat
  lossyDropped : Nat
  droppedWhileFailed : Nat
  transportFailed : Bool
  failurePending : Bool

def QueuedWebviewMessage.isDroppable (m : QueuedWebviewMessage τ) : Bool :=
  m.cls == .droppable

namespace WebviewOutbox

def new : WebviewOutbox τ where
  reliable := []
  lossy := []
  reliableBytes := 0
  lossyBytes := 0
  lossyDropped := 0
  droppedWhileFailed := 0
  transportFailed := false
  failurePending := false

variable (o : WebviewOutbox τ)

def isEmpty : Bool := o.reliable.isEmpty && o.lossy.isEmpty

def fail : WebviewOutbox τ :=
  { o with transportFailed := true, failurePending := true }

def recoverTransport : WebviewOutbox τ :=
  { o with transportFailed := false, droppedWhileFailed := 0 }

/-- `clear_for_reload` does the same and logs. -/
def discardPending : WebviewOutbox τ :=
  { o with reliable := [], lossy := [], reliableBytes := 0, lossyBytes := 0 }

/-- A message is refused because the transport failed. -/
def refuse : WebviewOutbox τ :=
  { o with droppedWhileFailed := saturatingAdd o.droppedWhileFailed 1 }

def pushReliable (m : QueuedWebviewMessage τ) : WebviewOutbox τ :=
  if o.transportFailed then
    { o with droppedWhileFailed := o.droppedWhileFailed + 1 }
  else if maxReliableMessages ≤ o.reliable.length
      ∨ maxReliableBytes - o.reliableBytes < m.bytes then o.fail
  else
    { o with
      reliable := o.reliable ++ [m]
      reliableBytes := o.reliableBytes + m.bytes }

/-- `retain`: without the messages of a key, and with the bytes left. -/
def retain (key : String) : List (QueuedWebviewMessage τ) → Nat →
    Option (List (QueuedWebviewMessage τ) × Nat)
  | [], bytes => some ([], bytes)
  | m :: rest, bytes =>
    if m.coalesceKey = some key then
      (checkedSub bytes m.bytes).bind (retain key rest)
    else (retain key rest bytes).map fun kept => (m :: kept.1, kept.2)

/-- One message leaves the lossy lane: the oldest feed message, or else
the oldest snapshot. -/
def shedOne : Option (WebviewOutbox τ) :=
  match o.lossy.find? (·.isDroppable) with
  | some item =>
    (checkedSub o.lossyBytes item.bytes).map fun bytes =>
      { o with
        lossy := o.lossy.eraseP (·.isDroppable)
        lossyBytes := bytes
        lossyDropped := saturatingAdd o.lossyDropped 1 }
  | none =>
    match o.lossy with
    | item :: rest =>
      (checkedSub o.lossyBytes item.bytes).map fun bytes =>
        { o with
          lossy := rest
          lossyBytes := bytes
          lossyDropped := saturatingAdd o.lossyDropped 1 }
    | [] =>
      some { o with lossyDropped := saturatingAdd o.lossyDropped 1 }

def overflows : Bool :=
  maxPendingWebviewMessages < o.lossy.length || maxLossyBytes < o.lossyBytes

/-- `shed_lossy_overflow`, with a bound for its loop. -/
def shedLossyOverflow : Nat → WebviewOutbox τ → Option (WebviewOutbox τ)
  | 0, o => if o.overflows then none else some o
  | fuel + 1, o =>
    if o.overflows then o.shedOne.bind (shedLossyOverflow fuel)
    else some o

/-- A queued message of the key is newer than the one that comes. -/
def hasNewer (key : String) (m : QueuedWebviewMessage τ) : Bool :=
  o.lossy.any fun queued =>
    queued.coalesceKey == some key
      && ((match m.rankingRevision, queued.rankingRevision with
          | some (inst, revision), some (priorInst, prior) =>
            priorInst == inst && decide (revision < prior)
          | _, _ => false)
        || match m.coalesceGeneration, queued.coalesceGeneration with
          | some generation, some prior => decide (generation < prior)
          | _, _ => false)

/-- The message is put behind the others, and the lane is cut. -/
def pushLossy (m : QueuedWebviewMessage τ) : Option (WebviewOutbox τ) :=
  let pushed : WebviewOutbox τ :=
    { o with lossy := o.lossy ++ [m], lossyBytes := o.lossyBytes + m.bytes }
  shedLossyOverflow pushed.lossy.length pushed

def pushPrepared (m : QueuedWebviewMessage τ) : Option (WebviewOutbox τ) :=
  if o.transportFailed then some o.refuse
  else if m.cls = .critical then some (o.pushReliable m)
  else
    match m.coalesceKey with
    | some key =>
      if o.hasNewer key m then some o
      else
        (retain key o.lossy o.lossyBytes).bind fun kept =>
          pushLossy { o with lossy := kept.1, lossyBytes := kept.2 } m
    | none => o.pushLossy m

def pushValue (value : Json) (tag : τ) : Option (WebviewOutbox τ) :=
  if o.transportFailed then some o.refuse
  else
    match QueuedWebviewMessage.fromValue value none tag with
    | some m => o.pushPrepared m
    | none => some o.fail

def push (parse : String → Option Json) (body : String) (tag : τ) :
    Option (WebviewOutbox τ) :=
  if o.transportFailed then some o.refuse
  else if maxOutboundBytes < body.utf8ByteSize then some o.fail
  else
    match parse body with
    | some value =>
      match QueuedWebviewMessage.fromValue value (some body) tag with
      | some m => o.pushPrepared m
      | none => some o.fail
    | none =>
      match encodeWithLimit (.string body) (2 * maxOutboundBytes + 2) with
      | some literal =>
        o.pushPrepared (.plain body (some literal) tag)
      | none => some o.fail

def pushCritical (body : String) (tag : τ) : Option (WebviewOutbox τ) :=
  if maxOutboundBytes < body.utf8ByteSize then some o.fail
  else o.pushPrepared (.plain body none tag)

/-- A batch while it is filled. -/
structure Filling (τ : Type) where
  batch : List (QueuedWebviewMessage τ)
  bytes : Nat

/-- The message does not fit the batch any more. -/
def Filling.isFull (f : Filling τ) (m : QueuedWebviewMessage τ) : Bool :=
  maxBatchPerTick ≤ f.batch.length || maxBatchBytes - f.bytes < m.bytes

def Filling.add (f : Filling τ) (m : QueuedWebviewMessage τ) : Filling τ :=
  ⟨f.batch ++ [m], f.bytes + m.bytes⟩

/-- The first loop of `take_prepared_batch`: what is left of the lane, its
bytes, and the batch. -/
def takeReliable : List (QueuedWebviewMessage τ) → Nat → Filling τ →
    List (QueuedWebviewMessage τ) × Nat × Filling τ
  | [], bytes, f => ([], bytes, f)
  | m :: rest, bytes, f =>
    if f.isFull m then (m :: rest, bytes, f)
    else takeReliable rest (bytes - m.bytes) (f.add m)

/-- The second loop, whose subtraction is unchecked in the source. -/
def takeLossy : List (QueuedWebviewMessage τ) → Nat → Filling τ →
    Option (List (QueuedWebviewMessage τ) × Nat × Filling τ)
  | [], bytes, f => some ([], bytes, f)
  | m :: rest, bytes, f =>
    if f.isFull m then some (m :: rest, bytes, f)
    else
      (checkedSub bytes m.bytes).bind fun bytes =>
        takeLossy rest bytes (f.add m)

def takePreparedBatch :
    Option (List (QueuedWebviewMessage τ) × WebviewOutbox τ) :=
  let (reliable, reliableBytes, f) :=
    takeReliable o.reliable o.reliableBytes ⟨[], 0⟩
  (takeLossy o.lossy o.lossyBytes f).map fun (lossy, lossyBytes, f) =>
    (f.batch, { o with reliable, reliableBytes, lossy, lossyBytes })

end WebviewOutbox

-- ==== the mailbox

structure ForwardMailbox (τ : Type) where
  outbox : WebviewOutbox τ
  wakePending : Bool
  reportedLossyDropped : Nat

namespace ForwardMailbox

def new : ForwardMailbox τ := ⟨.new, false, 0⟩

variable (mailbox : ForwardMailbox τ)

/-- Whether the caller is to post a wake. -/
def armWake : ForwardMailbox τ × Bool :=
  if mailbox.wakePending then (mailbox, false)
  else if mailbox.outbox.isEmpty && !mailbox.outbox.failurePending then
    (mailbox, false)
  else ({ mailbox with wakePending := true }, true)

def fail : ForwardMailbox τ × Bool :=
  armWake { mailbox with outbox := mailbox.outbox.fail }

def retirePage : ForwardMailbox τ :=
  { mailbox with outbox := mailbox.outbox.discardPending }

def push (parse : String → Option Json) (body : String) (tag : τ) :
    Option (ForwardMailbox τ × Bool) :=
  (mailbox.outbox.push parse body tag).map fun outbox =>
    armWake { mailbox with outbox }

def pushValue (value : Json) (tag : τ) :
    Option (ForwardMailbox τ × Bool) :=
  (mailbox.outbox.pushValue value tag).map fun outbox =>
    armWake { mailbox with outbox }

def shutdown : ForwardMailbox τ :=
  { mailbox with
    outbox :=
      { mailbox.outbox.discardPending with
        transportFailed := true, failurePending := false }
    wakePending := false }

/-- How many messages were shed since the last call. -/
def takeLossyDrops : ForwardMailbox τ × Nat :=
  ({ mailbox with reportedLossyDropped := mailbox.outbox.lossyDropped },
    mailbox.outbox.lossyDropped - mailbox.reportedLossyDropped)

/-- The next batch, whether the transport failed, and whether the caller
is to post a wake for what is left. -/
def drain : Option
    (ForwardMailbox τ × List (QueuedWebviewMessage τ) × Bool × Bool) :=
  let failed := mailbox.outbox.failurePending
  let outbox : WebviewOutbox τ :=
    { mailbox.outbox with failurePending := false }
  let outbox := if failed then outbox.discardPending else outbox
  outbox.takePreparedBatch.map fun (batch, outbox) =>
    let wake := !outbox.isEmpty
    ({ mailbox with outbox, wakePending := wake }, batch, failed, wake)

def recover : ForwardMailbox τ :=
  { mailbox with outbox := mailbox.outbox.recoverTransport }

end ForwardMailbox

end TikTools.Desktop
