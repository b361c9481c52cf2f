/-
The main page and its batches: the emitter that other threads share, the
UI loop's side of the delivery, and the page that answers.

The UI loop evaluates one batch and waits for its acknowledgement. An
acknowledgement names a generation and a sequence number; the handler of
page messages compares both with the current ones and keeps of them one
boolean, which the loop consumes later. Producers put messages into the
mailbox for a generation of the page, the loop drains them into its own
outbox, and a batch is evaluated under the generation of that moment.

A tick of the loop is three steps here (`sync`, `drain`, `flush`), and
anything else may come between them. A message is tagged with the
generation it was admitted for, if any. `inPage`, `answered`, `treated`
and `evaluated` are what happened so far: no step reads them.
-/
import TikTools.Desktop.Lanes

namespace TikTools.Desktop

open TikTools.Lib

-- ==== the state

inductive WebviewLifecycle where
  | loading
  | ready
  | failed
  | recovering
  deriving DecidableEq

inductive RecoveryDecision where
  | reloadOnce
  | recreate
  | giveUp

/-- A batch: its generation and its sequence number. -/
structure BatchId where
  generation : Nat
  sequence : Nat
  deriving DecidableEq

structure Page where
  generation : Nat
  batchSequence : Nat
  batchAcknowledged : Bool
  batchAckWakePending : Bool
  readyPending : Bool
  readyGeneration : Nat
  mailbox : ForwardMailbox (Option Nat)
  uiGeneration : Nat
  pageReady : Bool
  lifecycle : WebviewLifecycle
  pendingBatch : Option BatchId
  pendingHostMessages : WebviewOutbox (Option Nat)
  reloadPending : Bool
  shuttingDown : Bool
  hasWebview : Bool
  /-- Acknowledgements that were compared and are not stored yet. -/
  acking : List BatchId
  /-- The batches that the document got and that are not acknowledged. -/
  inPage : List BatchId
  /-- The pending batch was acknowledged while it was pending. -/
  answered : Bool
  /-- The batches treated as acknowledged, and whether they were. -/
  treated : List (BatchId × Bool)
  /-- The batches evaluated, with the tags of their messages. -/
  evaluated : List (BatchId × List (Option Nat))

def Page.start : Page where
  generation := 0
  batchSequence := 0
  batchAcknowledged := false
  batchAckWakePending := false
  readyPending := false
  readyGeneration := 0
  mailbox := .new
  uiGeneration := 0
  pageReady := false
  lifecycle := .loading
  pendingBatch := none
  pendingHostMessages := .new
  reloadPending := false
  shuttingDown := false
  hasWebview := false
  acking := []
  inPage := []
  answered := false
  treated := []
  evaluated := []

inductive Page.Action where
  /-- `send_generation`; without a generation it is `send`. -/
  | post (body : String) (generation : Option Nat)
  /-- `send_value_generation`. -/
  | postValue (value : Json) (generation : Nat)
  /-- `EventLoopEmitter::fail`. -/
  | failMailbox
  /-- The page acknowledges a batch: `request_batch_ack` compares. -/
  | acknowledge (batch : BatchId)
  /-- `request_batch_ack` stores what it compared. -/
  | store (index : Nat)
  /-- The page says it is ready: `request_ready`. -/
  | ready (generation : Nat)
  /-- A navigation starts. -/
  | started
  /-- `HostBatchAcknowledged`. -/
  | handleAck
  /-- `FrontendReady`. -/
  | handleReady
  | sync
  /-- `poll_reload_watchdog` acts; `ok` tells whether it works. -/
  | watchdog (decision : RecoveryDecision) (ok : Bool)
  /-- The deadline of the pending batch is over. -/
  | expire (ok : Bool)
  | drain (ok : Bool)
  /-- `ok` tells whether the script was taken, `reload` whether a reload
  after a failure works. -/
  | flush (ok reload : Bool)
  /-- `reload_webview`. -/
  | reload
  | destroyed
  | createWindow
  | shutdown

-- ==== the steps

/-- `gap_notification`. -/
def gapNotification (lost : Nat) : Json :=
  .object [("jsonrpc", .string "2.0"), ("method", .string "event.gap"),
    ("params", .object
      [("lost", .number (toString lost)), ("resync", .bool true)])]

namespace Page

variable (s : Page)

def clearBatch : Page := { s with batchAcknowledged := false }

/-- The pending batch is given up, and what the page said of it. -/
def dropBatch : Page := { s with pendingBatch := none }.clearBatch

def advanceGeneration : Page :=
  { s with
    generation := s.generation + 1
    mailbox := s.mailbox.retirePage }.clearBatch

def failWebviewTransport (reload : Bool) : Page :=
  if s.lifecycle = .failed then s
  else
    let s := { s with pageReady := false }.dropBatch.advanceGeneration
    { s with
      pendingHostMessages := s.pendingHostMessages.discardPending
      reloadPending := s.reloadPending || (s.hasWebview && reload) }

/-- Messages are admitted to the mailbox for a generation. -/
def admits (generation : Option Nat) : Bool :=
  match generation with
  | some expected => expected == s.generation
  | none => true

def requestBatchAck (batch : BatchId) : Page :=
  let s :=
    { s with
      answered := s.answered || s.pendingBatch == some batch }
  if batch.generation ≠ s.generation ∨ batch.sequence ≠ s.batchSequence then s
  else { s with acking := s.acking ++ [batch] }

def handleAck : Page :=
  let acknowledged := s.batchAcknowledged
  let s := { s with batchAckWakePending := false, batchAcknowledged := false }
  match s.pendingBatch with
  | some batch =>
    if acknowledged ∧ batch.generation = s.generation
        ∧ batch.sequence = s.batchSequence then
      { s with
        treated := s.treated ++ [(batch, s.answered)]
        inPage := s.inPage.erase batch }.dropBatch
    else s
  | none => s

def syncPageGeneration : Page :=
  if s.generation = s.uiGeneration then s
  else
    { s with
      uiGeneration := s.generation
      pageReady := false
      lifecycle := .loading
      pendingHostMessages :=
        if s.pendingHostMessages.isEmpty then s.pendingHostMessages
        else s.pendingHostMessages.discardPending }.dropBatch

/-- `frontend_ready`. -/
def frontendReady : Page :=
  if s.uiGeneration ≠ s.generation then s
  else
    let s := { s with lifecycle := .ready }
    let s :=
      if s.reloadPending && !s.shuttingDown then
        { s with
          reloadPending := false
          pendingHostMessages := s.pendingHostMessages.recoverTransport
          mailbox := s.mailbox.recover }
      else s
    if s.shuttingDown then s else { s with pageReady := true }

def handleReady : Page :=
  let s := { s with readyPending := false }
  if s.readyGeneration = s.generation then s.syncPageGeneration.frontendReady
  else s

/-- `poll_reload_watchdog`, once the supervisor has decided. -/
def recover (decision : RecoveryDecision) (ok : Bool) : Page :=
  match decision with
  | .reloadOnce =>
    let s := { s with pageReady := false, lifecycle := .recovering }.dropBatch
    { s with
      pendingHostMessages := s.pendingHostMessages.discardPending
      reloadPending := s.reloadPending || (s.hasWebview && ok) }
  | .recreate =>
    if ok then
      let s :=
        { s with pageReady := false, lifecycle := .recovering }.dropBatch
      { s with
        pendingHostMessages := s.pendingHostMessages.discardPending
        reloadPending := true
        hasWebview := true
        inPage := [] }
    else { s with lifecycle := .failed, hasWebview := false, inPage := [] }
  | .giveUp => { s with pageReady := false, lifecycle := .failed }.dropBatch

/-- `emit_to_webview`. -/
def emit (ok : Bool) (m : QueuedWebviewMessage (Option Nat)) :
    Option Page :=
  (s.pendingHostMessages.pushPrepared m).map fun outbox =>
    let s : Page :=
      { s with
        pendingHostMessages := { outbox with failurePending := false } }
    if outbox.failurePending then s.failWebviewTransport ok else s

def emitAll (ok : Bool) : List (QueuedWebviewMessage (Option Nat)) → Page →
    Option Page
  | [], s => some s
  | m :: rest, s => (s.emit ok m).bind (emitAll ok rest)

/-- The mailbox moves to the outbox of the loop. -/
def drain (ok : Bool) : Option Page :=
  s.mailbox.drain.bind fun (mailbox, messages, failed, _) =>
    let (mailbox, dropped) := mailbox.takeLossyDrops
    let s : Page := { s with mailbox }
    let gap :=
      if 0 < dropped && !failed then
        s.pendingHostMessages.pushValue (gapNotification dropped) none
      else some s.pendingHostMessages
    gap.bind fun outbox =>
      let s : Page := { s with pendingHostMessages := outbox }
      let s := if failed then s.failWebviewTransport ok else s
      emitAll ok messages s

/-- `flush_webview_batch`. -/
def flush (ok reload : Bool) : Option Page :=
  if !s.pageReady || s.lifecycle ≠ .ready || s.pendingBatch.isSome
      || s.shuttingDown || !s.hasWebview || s.pendingHostMessages.isEmpty then
    some s
  else
    s.pendingHostMessages.takePreparedBatch.map fun (batch, outbox) =>
      let s : Page := { s with pendingHostMessages := outbox }
      if batch.any (·.javascriptLiteral.isNone) then
        s.failWebviewTransport reload
      else
        let sequence := s.batchSequence + 1
        let id : BatchId := ⟨s.generation, sequence⟩
        let s : Page :=
          { s with
            batchSequence := sequence
            pendingBatch := some id
            answered := false }
        if ok then
          { s with
            inPage := s.inPage ++ [id]
            evaluated := s.evaluated ++ [(id, batch.map (·.tag))] }
        else s.failWebviewTransport reload

def next (parse : String → Option Json) (s : Page) : Action → Option Page
  | .post body generation =>
    if s.admits generation then
      (s.mailbox.push parse body generation).map fun result =>
        { s with mailbox := result.1 }
    else some s
  | .postValue value generation =>
    if s.admits (some generation) then
      (s.mailbox.pushValue value (some generation)).map fun result =>
        { s with mailbox := result.1 }
    else some s
  | .failMailbox => some { s with mailbox := s.mailbox.fail.1 }
  | .acknowledge batch => some (s.requestBatchAck batch)
  | .store index =>
    (s.acking[index]?).map fun _ =>
      { s with
        acking := s.acking.eraseIdx index
        batchAcknowledged := true
        batchAckWakePending := true }
  | .ready generation =>
    if generation ≠ s.generation then some s
    else
      some { s with
        readyGeneration := max s.readyGeneration generation
        readyPending := true }
  | .started => some { s.advanceGeneration with inPage := [] }
  | .handleAck => if s.batchAckWakePending then some s.handleAck else none
  | .handleReady => if s.readyPending then some s.handleReady else none
  | .sync => some s.syncPageGeneration
  | .watchdog decision ok =>
    if s.lifecycle = .loading ∨ s.lifecycle = .recovering then
      some (s.recover decision ok)
    else none
  | .expire ok =>
    if s.pendingBatch.isSome then some (s.failWebviewTransport ok)
    else none
  | .drain ok => s.drain ok
  | .flush ok reload => s.flush ok reload
  | .reload =>
    if s.shuttingDown || !s.hasWebview then some s
    else some { s with pageReady := false }.dropBatch
  | .destroyed =>
    some { s.advanceGeneration with hasWebview := false, inPage := [] }
  | .createWindow =>
    if s.hasWebview then none
    else
      some { s with
        lifecycle := .loading
        hasWebview := true
        inPage := []
        pendingHostMessages :=
          if s.pendingHostMessages.transportFailed then
            s.pendingHostMessages.discardPending
          else s.pendingHostMessages
        reloadPending :=
          s.reloadPending || s.pendingHostMessages.transportFailed }
  | .shutdown =>
    if s.shuttingDown then some s
    else
      some { s with
        shuttingDown := true
        generation := s.generation + 1
        mailbox := s.mailbox.shutdown }

end Page

end TikTools.Desktop
