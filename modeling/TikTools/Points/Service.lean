/-
The points service: the hot cache, the durable write queue and its
writer, and the clients, as one step relation.

A client is where it stands between two critical sections. An award or
an adjustment of a viewer that is not cached waits for the writer, reads
the stored row and promotes it; then it updates the cached row under the
viewer lock, allocating its sequence number there, and submits its write
after releasing that lock. A reset allocates and submits in one section.
The writer takes a batch from the queue, applies it in one transaction
and then moves the resolved watermark.

# Ghost state

`unsubmitted` lists the writes allocated and not yet queued, oldest
first; `lastReset` is the newest reset of a viewer. A client that has
read a stored row remembers when (`loadedAt`) and whether no reset of
the viewer was outstanding then (`settled`). No step decides by them.
-/
import TikTools.Lib.Runs
import TikTools.Points.Rows

namespace TikTools.Points

open TikTools.Lib

variable {P : Type} (f : Floats P)

def writerQueueCapacity : Nat := 4096

def writerBatchSize : Nat := 128

def evictBatchSlack : Nat := 64

-- ==== cache

/-- What the viewer lock protects. -/
structure PointsInner (P : Type) where
  viewers : Rows P
  capacity : Nat
  pending : Table String Nat
  resetPending : Nat
  hits : Nat
  misses : Nat

namespace PointsInner

/-- The coldest viewer without an unresolved write. -/
def victim (inner : PointsInner P) (resolved : Nat) : Option String :=
  let evictable := inner.viewers.table.toList.filter fun p =>
    inner.pending[p.1]?.all (· ≤ resolved)
  let coldest := evictable.foldl (fun best p =>
    match best with
    | none => some p
    | some b =>
      if p.2.lastSeen < b.2.lastSeen
          ∨ (p.2.lastSeen = b.2.lastSeen ∧ p.1 < b.1) then some p
      else best) none
  coldest.map Prod.fst

/-- Evict until the cache fits; `n` bounds the rounds. -/
def evictRounds (resolved : Nat) : Nat → PointsInner P → PointsInner P
  | 0, inner => inner
  | n + 1, inner =>
    if inner.viewers.table.size ≤ inner.capacity then inner
    else
      match inner.victim resolved with
      | none => inner
      | some id =>
        evictRounds resolved n
          { inner with viewers := inner.viewers.erase id }

/-- Retire resolved markers, then evict cold viewers until the cache
fits. -/
def evictCold (inner : PointsInner P) (resolved : Nat) : PointsInner P :=
  let pending := Table.retain (fun _ seq => decide (resolved < seq))
    inner.pending
  let resetPending :=
    if inner.resetPending ≤ resolved then 0 else inner.resetPending
  evictRounds resolved inner.viewers.table.size
    { inner with pending, resetPending }

def evictIfOver (inner : PointsInner P) (resolved : Nat) : PointsInner P :=
  if inner.capacity + evictBatchSlack < inner.viewers.table.size then
    inner.evictCold resolved
  else inner

/-- The sequence a reload must wait for. -/
def reloadWaitSeq (inner : PointsInner P) (id : String) : Nat :=
  max (inner.pending[id]?.getD 0) inner.resetPending

def trackPending (inner : PointsInner P) (id : String) (seq : Nat) :
    PointsInner P :=
  { inner with pending := inner.pending.insert id seq }

/-- Promote a loaded row unless the viewer is resident by now; the row
is stored under the identity it was loaded by. -/
def promote (inner : PointsInner P) (id : String) (row : ViewerState P) :
    PointsInner P :=
  match inner.viewers.get id with
  | some _ => inner
  | none =>
    { inner with viewers := inner.viewers.put { row with uniqueId := id } }

/-- Count a lookup. -/
def countLookup (inner : PointsInner P) (cached : Bool) : PointsInner P :=
  if cached then { inner with hits := inner.hits + 1 }
  else { inner with misses := inner.misses + 1 }

variable {inner : PointsInner P} {resolved : Nat} {id : String}
variable {row : ViewerState P}

@[simp] theorem countLookup_viewers (c : Bool) :
    (inner.countLookup c).viewers = inner.viewers := by
  cases c <;> rfl

theorem get_of_evictRounds (n : Nat) :
    ∀ inner : PointsInner P,
      (inner.evictRounds resolved n).viewers.get id = some row →
      inner.viewers.get id = some row := by
  induction n with
  | zero => exact fun _ h => h
  | succ n ih =>
    intro inner h
    unfold evictRounds at h
    split at h
    · exact h
    · split at h
      · exact h
      · have hed := ih _ h
        rw [show _ = _ from Rows.get_erase ..] at hed
        split at hed
        · cases hed
        · exact hed

theorem get_of_evictCold
    (h : (inner.evictCold resolved).viewers.get id = some row) :
    inner.viewers.get id = some row := by
  have hr := get_of_evictRounds _ _ h
  exact hr

theorem get_of_evictIfOver
    (h : (inner.evictIfOver resolved).viewers.get id = some row) :
    inner.viewers.get id = some row := by
  unfold evictIfOver at h
  split at h
  · exact get_of_evictCold h
  · exact h

end PointsInner

-- ==== clients

/-- A call that works on one viewer. -/
inductive Call (P : Type) where
  | award (action : PointAction) (options : AwardOptions P)
      (config : PointsConfig P) (now : Int)
  | adjust (delta : P) (config : PointsConfig P)
  | lookup

/-- Whether the call counts its cache lookup. -/
def Call.counts : Call P → Bool
  | adjust .. => false
  | _ => true

/-- Where a client stands. -/
inductive Client (P : Type) where
  | missed (id : String) (call : Call P)
  | waiting (id : String) (call : Call P) (seq : Nat)
  | loaded (id : String) (call : Call P) (row : Option (ViewerState P))
      (loadedAt : Nat) (settled : Bool)
  | ready (id : String) (call : Call P)
  | submitting (op : PointsWriteOp P)
  | resetting (id : Option String) (resolved : Nat)

inductive WriterPhase (P : Type) where
  | idle
  | executing (batch : List (PointsWriteOp P))
  | applied (maxSeq : Nat)

/-- The service, its store and its clients. -/
structure System (P : Type) where
  inner : PointsInner P
  nextSeq : Nat
  queue : List (PointsWriteOp P)
  phase : WriterPhase P
  resolved : Nat
  durable : Durable P
  clients : Table Nat (Client P)
  unsubmitted : List (PointsWriteOp P)
  lastReset : String → Nat

inductive Event (P : Type) where
  | call (client : Nat) (uniqueId : String) (call : Call P)
  | mark (client : Nat)
  | load (client : Nat) (timedOut : Bool)
  | promote (client : Nat)
  | update (client : Nat) (now : Int)
  | submit (client : Nat)
  | admitReset (client : Nat) (uniqueId : Option String)
  | reset (client : Nat)
  | take
  | commit (now : Int)
  | resolve
  | resize (capacity : Nat)

namespace WriterPhase

/-- The operations taken from the queue and not yet applied. -/
def batch : WriterPhase P → List (PointsWriteOp P)
  | executing batch => batch
  | _ => []

end WriterPhase

namespace System

/-- A service over a store, with some of its viewers cached. -/
def start (durable : Durable P) (warm : List String) (capacity : Nat) :
    System P where
  inner :=
    { viewers := durable.viewers.only warm, capacity, pending := ∅
      resetPending := 0, hits := 0, misses := 0 }
  nextSeq := 1
  queue := []
  phase := .idle
  resolved := 0
  durable
  clients := ∅
  unsubmitted := []
  lastReset := fun _ => 0

/-- The writes queued or taken that the store has not seen, in order. -/
def outstanding (s : System P) : List (PointsWriteOp P) :=
  s.phase.batch ++ s.queue

def setClient (s : System P) (client : Nat) (c : Client P) : System P :=
  { s with clients := s.clients.insert client c }

def endClient (s : System P) (client : Nat) : System P :=
  { s with clients := s.clients.erase client }

/-- Whether the queue admits a write. -/
def hasWriteCapacity (s : System P) : Bool :=
  decide (s.queue.length < writerQueueCapacity)

/-- A call starts: it cleans the identity and looks into the cache. -/
def beginCall (s : System P) (client : Nat) (uniqueId : String)
    (call : Call P) : System P :=
  match cleanUniqueId uniqueId with
  | none => s
  | some id =>
    let cached := (s.inner.viewers.get id).isSome
    let inner := if call.counts then s.inner.countLookup cached else s.inner
    let counted := { s with inner }
    if cached then
      match call with
      | .lookup => counted
      | call => counted.setClient client (.ready id call)
    else counted.setClient client (.missed id call)

/-- Read the stored row. -/
def loadRow (s : System P) (client : Nat) (id : String) (call : Call P) :
    System P :=
  s.setClient client (.loaded id call (s.durable.viewers.get id) s.nextSeq
    (!s.outstanding.any fun op => op.resets id))

/-- Promote the loaded row. A lookup is then over; it keeps the cache
within its bound. -/
def promoteRow (s : System P) (client : Nat) (id : String) (call : Call P)
    (row : Option (ViewerState P)) : System P :=
  match call, row with
  | .lookup, none => s.endClient client
  | .lookup, some row =>
    { s with inner := (s.inner.promote id row).evictCold s.resolved }.endClient
      client
  | call, none => s.setClient client (.ready id call)
  | call, some row =>
    { s with inner := s.inner.promote id row }.setClient client
      (.ready id call)

/-- Store an updated row and allocate its write. -/
def writeRow (s : System P) (client : Nat) (id : String)
    (row : ViewerState P) (op : PointsWriteOp P) : System P :=
  let inner := { s.inner with viewers := s.inner.viewers.put row }
  { s with
    inner := (inner.trackPending id s.nextSeq).evictIfOver s.resolved
    nextSeq := s.nextSeq + 1
    clients := s.clients.insert client (.submitting op)
    unsubmitted := s.unsubmitted ++ [op] }

/-- The update under the viewer lock. A refused admission, or an
adjustment of an unknown viewer, changes nothing. -/
def updateRow (s : System P) (client : Nat) (id : String) (call : Call P)
    (now : Int) : System P :=
  match call with
  | .lookup => s.endClient client
  | .award action options config called =>
    if s.hasWriteCapacity then
      let done := awardRow f id action options config called s.nextSeq
        (s.inner.viewers.get id)
      s.writeRow client id done.1 (.save s.nextSeq done.1 action.asStr done.2)
    else s.endClient client
  | .adjust delta config =>
    match s.inner.viewers.get id with
    | none => s.endClient client
    | some viewer =>
      if s.hasWriteCapacity then
        let row := adjustRow f delta config now s.nextSeq viewer
        s.writeRow client id row
          (.adjust s.nextSeq id row.points row.level row.awards now)
      else s.endClient client

/-- Queue a write. -/
def submitOp (s : System P) (client : Nat) (op : PointsWriteOp P) :
    System P :=
  { s with
    queue := s.queue ++ [op]
    clients := s.clients.erase client
    unsubmitted := s.unsubmitted.filter fun other => other.seq != op.seq }

/-- A reset under the viewer lock: zero what is cached, queue the write
and keep the cache within its bound. An uncached viewer gets no
marker. -/
def resetRows (s : System P) (client : Nat) (uniqueId : Option String)
    (resolved : Nat) : System P :=
  let seq := s.nextSeq
  let inner :=
    match uniqueId with
    | some id =>
      match s.inner.viewers.get id with
      | none => s.inner
      | some row =>
        { s.inner with
          viewers := s.inner.viewers.put (row.reset f)
          pending := s.inner.pending.insert id seq }
    | none =>
      { s.inner with
        viewers := s.inner.viewers.resetAll f, resetPending := seq }
  let op : PointsWriteOp P := .reset seq uniqueId
  { s with
    inner := inner.evictCold resolved
    nextSeq := seq + 1
    queue := s.queue ++ [op]
    clients := s.clients.erase client
    lastReset := fun id => if op.resets id then seq else s.lastReset id }

/-- One step of the service; `none` when it is not enabled. -/
def next (s : System P) : Event P → Option (System P)
  | .call client uniqueId call =>
    match s.clients[client]? with
    | none => some (s.beginCall client uniqueId call)
    | some _ => none
  | .mark client =>
    match s.clients[client]? with
    | some (.missed id call) =>
      some (s.setClient client (.waiting id call (s.inner.reloadWaitSeq id)))
    | _ => none
  | .load client timedOut =>
    match s.clients[client]? with
    | some (.waiting id call seq) =>
      if seq ≤ s.resolved ∨ timedOut then some (s.loadRow client id call)
      else none
    | _ => none
  | .promote client =>
    match s.clients[client]? with
    | some (.loaded id call row _ _) =>
      some (s.promoteRow client id call row)
    | _ => none
  | .update client now =>
    match s.clients[client]? with
    | some (.ready id call) => some (s.updateRow f client id call now)
    | _ => none
  | .submit client =>
    match s.clients[client]? with
    | some (.submitting op) => some (s.submitOp client op)
    | _ => none
  | .admitReset client uniqueId =>
    match s.clients[client]? with
    | none =>
      if s.hasWriteCapacity then
        some (s.setClient client
          (.resetting (uniqueId.bind cleanUniqueId) s.resolved))
      else some s
    | some _ => none
  | .reset client =>
    match s.clients[client]? with
    | some (.resetting uniqueId resolved) =>
      some (s.resetRows f client uniqueId resolved)
    | _ => none
  | .take =>
    match s.phase, s.queue with
    | .idle, op :: rest =>
      let batch := (op :: rest).take writerBatchSize
      some { s with
        phase := .executing batch
        queue := (op :: rest).drop writerBatchSize }
    | _, _ => none
  | .commit now =>
    match s.phase with
    | .executing batch =>
      some { s with
        phase := .applied ((batch.getLast?.map PointsWriteOp.seq).getD 0)
        durable := applyBatch f now s.durable batch }
    | _ => none
  | .resolve =>
    match s.phase with
    | .applied maxSeq => some { s with phase := .idle, resolved := maxSeq }
    | _ => none
  | .resize capacity =>
    let bounded := max 1 (min capacity 1000000)
    some { s with
      inner := { s.inner with capacity := bounded }.evictCold s.resolved }

variable {f}

/-- What the start of a call does: it counts a lookup, and the client may
now be ready or have missed the cache. -/
theorem beginCall_cases (s : System P) (cl : Nat) (ui : String)
    (ca : Call P) :
    ∃ inner, inner.viewers = s.inner.viewers
      ∧ (s.beginCall cl ui ca = { s with inner }
        ∨ ∃ id c, (c = .ready id ca ∨ c = .missed id ca)
          ∧ s.beginCall cl ui ca = { s with inner }.setClient cl c) := by
  unfold beginCall
  split
  case h_1 => exact ⟨s.inner, rfl, .inl rfl⟩
  case h_2 id _ =>
    dsimp only
    generalize hin : (if ca.counts then
      s.inner.countLookup (s.inner.viewers.get id).isSome else s.inner)
      = inner
    refine ⟨inner, ?_, ?_⟩
    · rw [← hin]
      split
      · exact PointsInner.countLookup_viewers _
      · rfl
    · split
      · split
        · exact .inl rfl
        · exact .inr ⟨id, _, .inl rfl, rfl⟩
      · exact .inr ⟨id, _, .inr rfl, rfl⟩

variable {s : System P}

/-- What is cached after a reset was cached before, and is reset if the
reset names its viewer. -/
theorem get_of_resetRows {c : Nat} {ui : Option String}
    {resolved : Nat} {id : String} {row : ViewerState P}
    (h : (s.resetRows f c ui resolved).inner.viewers.get id = some row) :
    (if (PointsWriteOp.reset s.nextSeq ui
        : PointsWriteOp P).touches id then
      (s.inner.viewers.get id).map (ViewerState.reset f)
      else s.inner.viewers.get id) = some row := by
  have hc := PointsInner.get_of_evictCold h
  cases ui with
  | none =>
    rw [← hc]
    simp [PointsWriteOp.touches]
  | some k =>
    have hone : (s.inner.viewers.resetOne f k).get id = some row := by
      rw [← hc]
      unfold Rows.resetOne
      dsimp only
      cases s.inner.viewers.get k <;> rfl
    rw [Rows.get_resetOne] at hone
    simpa [PointsWriteOp.touches] using hone

theorem outstanding_take {op : PointsWriteOp P}
    {r : List (PointsWriteOp P)} (hp : s.phase = .idle)
    (hq : s.queue = op :: r) :
    ({ s with
      phase := .executing ((op :: r).take writerBatchSize)
      queue := (op :: r).drop writerBatchSize } : System P).outstanding
      = s.outstanding := by
  show (op :: r).take writerBatchSize ++ (op :: r).drop writerBatchSize = _
  rw [List.take_append_drop]
  unfold outstanding
  rw [hp, hq]
  rfl

end System

end TikTools.Points
