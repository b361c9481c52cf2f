/-
The durable write queue and its writer, with the failures of the store.

A write is numbered under the viewer lock and queued when its client
submits it. The writer takes a batch, tries it in one transaction with
three retries and then one write at a time; a write that fails alone is
counted as failed. After a batch it moves the two watermarks.

# Ghost state

`reserved` lists the writes numbered and not yet queued, oldest first,
and `lost` the numbers of the writes reported as failed. No step decides
by them.
-/
import TikTools.Lib.Runs
import TikTools.Points.Service

namespace TikTools.Points

open TikTools.Lib List Bool

variable {P : Type} (f : Floats P)

def writeBatchRetries : Nat := 3

/-- The failures of the store while a batch is written: which attempts at
its transaction fail, and which writes fail alone. -/
structure Faults (P : Type) where
  batch : Nat → Bool
  op : PointsWriteOp P → Bool

/-- The counters shared with the writer thread, its queue, its connection
and the batch it has taken. -/
structure Writer (P : Type) where
  connected : Bool
  durable : Durable P
  nextSeq : Nat := 1
  reserved : List (PointsWriteOp P) := []
  queue : List (PointsWriteOp P) := []
  closed : Bool := false
  batch : List (PointsWriteOp P) := []
  batches : Nat := 0
  errors : Nat := 0
  failedOps : Nat := 0
  firstFailedSeq : Nat := 0
  committedSeq : Nat := 0
  resolvedSeq : Nat := 0
  rejected : Nat := 0
  admitted : Nat := 0
  applied : Nat := 0
  lost : List Nat := []

namespace Writer

-- ==== a batch

/-- A write could not be made durable. -/
def recordFailure (s : Writer P) (seq : Nat) : Writer P :=
  { s with
    failedOps := s.failedOps + 1
    firstFailedSeq :=
      if s.firstFailedSeq = 0 then seq else min s.firstFailedSeq seq
    lost := s.lost ++ [seq] }

/-- Try the batch as one transaction, `n` times at most. The flag says
whether an attempt succeeded. -/
def tryBatch (now : Int) (faults : Faults P) :
    Nat → Nat → Writer P → Writer P × Bool
  | 0, _, s => (s, false)
  | n + 1, attempt, s =>
    if faults.batch attempt then
      tryBatch now faults n (attempt + 1) { s with errors := s.errors + 1 }
    else
      ({ s with durable := applyBatch f now s.durable s.batch }, true)

/-- Every write of a batch on its own transaction, with the first number
that failed. -/
def applyEach (now : Int) (faults : Faults P) :
    List (PointsWriteOp P) → Writer P → Option Nat → Writer P × Option Nat
  | [], s, firstFailed => (s, firstFailed)
  | op :: rest, s, firstFailed =>
    if faults.op op then
      applyEach now faults rest (s.recordFailure op.seq)
        (firstFailed.or (some op.seq))
    else
      applyEach now faults rest
        { s with durable := applyOp f now s.durable op } firstFailed

/-- Apply the batch; the answer is the first number that failed. A writer
without a connection reports every write. -/
def applyPointsBatchResilient (s : Writer P) (now : Int)
    (faults : Faults P) : Writer P × Option Nat :=
  if s.connected then
    match s.tryBatch f now faults (writeBatchRetries + 1) 0 with
    | (s, true) => ({ s with applied := s.applied + s.batch.length }, none)
    | (s, false) => applyEach f now faults s.batch s none
  else
    (s.batch.foldl (fun s op => s.recordFailure op.seq) s,
      s.batch.head?.map PointsWriteOp.seq)

/-- The number of the last write of the batch. -/
def maxSeq (s : Writer P) : Nat :=
  (s.batch.getLast?.map PointsWriteOp.seq).getD 0

/-- Write the batch and move the watermarks. -/
def finishBatch (s : Writer P) (now : Int) (faults : Faults P) :
    Writer P :=
  let (done, firstFailed) := s.applyPointsBatchResilient f now faults
  { done with
    committedSeq :=
      match firstFailed with
      | some failed => failed - 1
      | none => s.maxSeq
    resolvedSeq := s.maxSeq
    batches := done.batches + 1
    batch := [] }

-- ==== steps

inductive Event (P : Type) where
  /-- A client numbers a write. -/
  | reserve (op : PointsWriteOp P)
  /-- A client queues the write it has numbered so. -/
  | submit (seq : Nat)
  /-- A client finds the queue saturated and gives up. -/
  | refuse
  | take
  | write (now : Int) (faults : Faults P)
  | close
  /-- The writer thread has ended and was joined. -/
  | join

/-- Queue a write, unless admission is closed. -/
def submitOp (s : Writer P) (op : PointsWriteOp P) : Writer P :=
  let s := { s with
    reserved := s.reserved.filter fun other => other.seq != op.seq }
  if s.closed then { s with rejected := s.rejected + 1 }
  else { s with queue := s.queue ++ [op], admitted := s.admitted + 1 }

/-- One step; `none` when it is not enabled. -/
def next (s : Writer P) : Event P → Option (Writer P)
  | .reserve op =>
    if op.seq = s.nextSeq then
      some { s with
        nextSeq := s.nextSeq + 1, reserved := s.reserved ++ [op] }
    else none
  | .submit seq =>
    (s.reserved.find? fun op => op.seq == seq).map s.submitOp
  | .refuse => some { s with rejected := s.rejected + 1 }
  | .take =>
    if s.batch.isEmpty && !s.queue.isEmpty then
      some { s with
        batch := s.queue.take writerBatchSize
        queue := s.queue.drop writerBatchSize }
    else none
  | .write now faults =>
    if s.batch.isEmpty then none else some (s.finishBatch f now faults)
  | .close => some { s with closed := true }
  | .join =>
    if s.closed && s.queue.isEmpty && s.batch.isEmpty then
      some { s with resolvedSeq := max s.resolvedSeq s.admitted }
    else none

/-- A service that starts, over a store that may not open. -/
def start (connected : Bool) (durable : Durable P) : Writer P :=
  { connected, durable }

structure Drained (s : Writer P) : Prop where
  queue : s.queue = []
  batch : s.batch = []

-- ==== what a batch does

/-- What writing a batch leaves alone. -/
structure Frame (s t : Writer P) : Prop where
  nextSeq : t.nextSeq = s.nextSeq
  reserved : t.reserved = s.reserved
  queue : t.queue = s.queue
  closed : t.closed = s.closed
  batch : t.batch = s.batch
  admitted : t.admitted = s.admitted

variable {f} {now : Int} {faults : Faults P}

theorem Frame.refl (s : Writer P) : Frame s s :=
  ⟨rfl, rfl, rfl, rfl, rfl, rfl⟩

variable {u s : Writer P}

theorem Frame.trans {t : Writer P} (h : Frame s t) (h' : Frame t u) :
    Frame s u :=
  ⟨h'.nextSeq.trans h.nextSeq, h'.reserved.trans h.reserved,
    h'.queue.trans h.queue, h'.closed.trans h.closed,
    h'.batch.trans h.batch, h'.admitted.trans h.admitted⟩

/-- The transaction of a batch succeeds unless every attempt fails; it
loses nothing and counts nothing but errors. -/
theorem tryBatch_spec (n a : Nat) (s : Writer P) :
    Frame s (s.tryBatch f now faults n a).1
      ∧ (s.tryBatch f now faults n a).1.applied = s.applied
      ∧ (s.tryBatch f now faults n a).1.failedOps = s.failedOps
      ∧ (s.tryBatch f now faults n a).1.lost = s.lost
      ∧ ((s.tryBatch f now faults n a).2 = true
        ↔ ∃ k < n, faults.batch (a + k) = false) := by
  induction n generalizing a s with
  | zero =>
    refine ⟨.refl s, rfl, rfl, rfl, ?_⟩
    exact iff_of_false false_ne_true nofun
  | succ n ih =>
    unfold tryBatch
    split
    · next hf =>
      obtain ⟨hfr, happ, hfl, hl, hfg⟩ :=
        ih (a + 1) { s with errors := s.errors + 1 }
      refine ⟨.trans (t := { s with errors := s.errors + 1 })
        ⟨rfl, rfl, rfl, rfl, rfl, rfl⟩ hfr, happ, hfl,
        hl, hfg.trans ?_⟩
      constructor
      · rintro ⟨k, hk, hok⟩
        exact ⟨k + 1, Nat.succ_lt_succ hk, by
          rw [← Nat.add_assoc, Nat.add_right_comm]
          exact hok⟩
      · rintro ⟨k, hk, hok⟩
        cases k with
        | zero => exact absurd (hf.symm.trans hok) (by decide)
        | succ k =>
          refine ⟨k, Nat.lt_of_succ_lt_succ hk, ?_⟩
          rw [Nat.add_assoc, Nat.add_comm 1]
          exact hok
    · next hok =>
      exact ⟨⟨rfl, rfl, rfl, rfl, rfl, rfl⟩, rfl, rfl, rfl,
        fun _ => ⟨0, Nat.succ_pos n, not_eq_true _ ▸ hok⟩,
        fun _ => rfl⟩

/-- Written one by one, the writes that fail alone are counted and lost,
and the first of them is the answer. -/
theorem applyEach_spec (ops : List (PointsWriteOp P)) (s : Writer P)
    (firstFailed : Option Nat) :
    let result := applyEach f now faults ops s firstFailed
    let failed := ops.filter faults.op
    Frame s result.1
      ∧ result.1.applied = s.applied
      ∧ result.1.failedOps = s.failedOps + failed.length
      ∧ result.1.lost = s.lost ++ failed.map PointsWriteOp.seq
      ∧ result.2 = firstFailed.or (failed.head?.map PointsWriteOp.seq) := by
  induction ops generalizing s firstFailed with
  | nil =>
    refine ⟨.refl s, rfl, rfl, (append_nil _).symm, ?_⟩
    exact (Option.or_none ..).symm
  | cons op rest ih =>
    unfold applyEach
    rw [filter_cons]
    split
    · obtain ⟨hfr, happ, hfl, hl, hf⟩ :=
        ih (s.recordFailure op.seq) (firstFailed.or (some op.seq))
      refine ⟨.trans (t := s.recordFailure op.seq)
        ⟨rfl, rfl, rfl, rfl, rfl, rfl⟩ hfr, happ, ?_, ?_, ?_⟩
      · rw [hfl, length_cons, Nat.add_comm _ 1,
          ← Nat.add_assoc]
        rfl
      · rw [hl]
        exact append_assoc s.lost [op.seq] _
      · rw [hf, Option.or_assoc]
        rfl
    · obtain ⟨hfr, happ, hfl, hl, hf⟩ :=
        ih { s with durable := applyOp f now s.durable op } firstFailed
      exact ⟨.trans (t := { s with
          durable := applyOp f now s.durable op })
        ⟨rfl, rfl, rfl, rfl, rfl, rfl⟩ hfr, happ, hfl, hl,
        hf⟩

theorem recordAll_eq (ops : List (PointsWriteOp P)) (s : Writer P)
    (ff : Option Nat) :
    ops.foldl (fun s op => s.recordFailure op.seq) s
      = (applyEach f now { faults with op := fun _ => true } ops s ff).1 := by
  induction ops generalizing s ff with
  | nil => rfl
  | cons op rest ih => exact ih _ (ff.or (some op.seq))

/-- An attempt at the transaction of the batch goes through. -/
def Commits (faults : Faults P) : Prop :=
  ∃ k < writeBatchRetries + 1, faults.batch k = false

instance (faults : Faults P) : Decidable (Commits faults) :=
  inferInstanceAs (Decidable (∃ k < _, _))

/-- The writes of the batch that the store loses. -/
def losses (s : Writer P) (faults : Faults P) : List (PointsWriteOp P) :=
  if s.connected then
    if Commits faults then [] else s.batch.filter faults.op
  else s.batch

/-- The writes of the batch that go through on their own, after the
transaction of the batch has failed for good. -/
def rescues (s : Writer P) (faults : Faults P) : List (PointsWriteOp P) :=
  if s.connected then
    if Commits faults then [] else s.batch.filter fun op => !faults.op op
  else []

/-- What a batch counts and loses. -/
structure Outcome (s : Writer P) (faults : Faults P)
    (result : Writer P × Option Nat) : Prop where
  frame : Frame s result.1
  counted : result.1.applied + result.1.failedOps
      + (s.rescues faults).length
    = s.applied + s.failedOps + s.batch.length
  lost : result.1.lost = s.lost ++ (s.losses faults).map PointsWriteOp.seq
  first : result.2 = (s.losses faults).head?.map PointsWriteOp.seq

theorem applyPointsBatchResilient_spec (s : Writer P) (now : Int)
    (faults : Faults P) :
    Outcome s faults (s.applyPointsBatchResilient f now faults) := by
  unfold applyPointsBatchResilient
  by_cases hc : s.connected = true
  · rw [if_pos hc]
    obtain ⟨hf, happ, hfl, hls, hfg⟩ :=
      @tryBatch_spec P f now faults (writeBatchRetries + 1) 0 s
    simp only [Nat.zero_add] at hfg
    cases htry : s.tryBatch f now faults (writeBatchRetries + 1) 0 with
    | mk t r =>
      rw [htry] at hf happ hfl hls hfg
      cases r with
      | true =>
        have hcm : Commits faults := hfg.1 rfl
        have hl : s.losses faults = [] := by
          unfold losses
          rw [if_pos hc, if_pos hcm]
        have hr : s.rescues faults = [] := by
          unfold rescues
          rw [if_pos hc, if_pos hcm]
        refine ⟨⟨hf.nextSeq, hf.reserved, hf.queue,
          hf.closed, hf.batch, hf.admitted⟩, ?_, ?_, ?_⟩
        · show t.applied + t.batch.length + t.failedOps + _ = _
          rw [hr, happ, hfl, hf.batch, length_nil]
          omega
        · rw [hl]
          exact hls.trans (append_nil _).symm
        · rw [hl]
          rfl
      | false =>
        have hfa : ¬Commits faults := fun h =>
          false_ne_true (hfg.2 h)
        have hl : s.losses faults = s.batch.filter faults.op := by
          unfold losses
          rw [if_pos hc, if_neg hfa]
        have hr : s.rescues faults
            = s.batch.filter fun op => !faults.op op := by
          unfold rescues
          rw [if_pos hc, if_neg hfa]
        obtain ⟨hfr', happ', hfl', hl', hf'⟩ :=
          @applyEach_spec P f now faults t.batch t none
        have hs := length_eq_length_filter_add (l := s.batch) faults.op
        refine ⟨hf.trans hfr', ?_, ?_, ?_⟩
        · show (applyEach f now faults t.batch t none).1.applied
            + (applyEach f now faults t.batch t none).1.failedOps
            + _ = _
          rw [happ', hfl', happ, hfl, hr, hf.batch]
          omega
        · rw [hl]
          refine hl'.trans ?_
          rw [hls, hf.batch]
        · rw [hl]
          refine hf'.trans ?_
          rw [hf.batch]
          rfl
  · rw [if_neg hc]
    have hl : s.losses faults = s.batch := by
      unfold losses
      rw [if_neg hc]
    have hr : s.rescues faults = [] := by
      unfold rescues
      rw [if_neg hc]
    obtain ⟨hf, happ, hfl, hls, -⟩ :=
      @applyEach_spec P f now
        { faults with op := fun _ => true } s.batch s none
    rw [← recordAll_eq, filter_true] at *
    refine ⟨hf, ?_, ?_, ?_⟩
    · rw [hr, happ, hfl]
      exact (Nat.add_assoc ..).symm
    · rw [hl]
      exact hls
    · rw [hl]

theorem next_write (h : s.next f (.write now faults) = some u) :
    s.batch ≠ [] ∧ u = s.finishBatch f now faults := by
  change (if s.batch.isEmpty then none
    else some (s.finishBatch f now faults)) = some u at h
  split at h
  · cases h
  · next hb =>
    exact ⟨fun hem => hb (by rw [hem]; rfl), (Option.some.inj h).symm⟩

theorem next_take (h : s.next f .take = some u) :
    s.batch = [] ∧ s.queue ≠ [] ∧ u = { s with
      batch := s.queue.take writerBatchSize
      queue := s.queue.drop writerBatchSize } := by
  change (if s.batch.isEmpty && !s.queue.isEmpty then some _
    else none) = some u at h
  split at h
  · next hr =>
    rw [and_eq_true, List.isEmpty_iff] at hr
    refine ⟨hr.1, fun hem => ?_, (Option.some.inj h).symm⟩
    rw [hem] at hr
    exact false_ne_true hr.2
  · cases h

theorem next_join (h : s.next f .join = some u) :
    s.closed = true ∧ s.Drained
      ∧ u = { s with resolvedSeq := max s.resolvedSeq s.admitted } := by
  change (if s.closed && s.queue.isEmpty && s.batch.isEmpty then some _
    else none) = some u at h
  split at h
  · next hr =>
    rw [and_eq_true, and_eq_true, List.isEmpty_iff, List.isEmpty_iff] at hr
    exact ⟨hr.1.1, ⟨hr.1.2, hr.2⟩, (Option.some.inj h).symm⟩
  · cases h

theorem next_submit {seq : Nat} (h : s.next f (.submit seq) = some u) :
    ∃ op ∈ s.reserved, op.seq = seq ∧ u = s.submitOp op := by
  obtain ⟨op, hf, hs⟩ := Option.map_eq_some_iff.1 h
  have hseq := find?_some hf
  exact ⟨op, mem_of_find?_eq_some hf, beq_iff_eq.1 hseq, hs.symm⟩

theorem next_reserve {op : PointsWriteOp P}
    (h : s.next f (.reserve op) = some u) :
    op.seq = s.nextSeq ∧ u = { s with
      nextSeq := s.nextSeq + 1, reserved := s.reserved ++ [op] } := by
  change (if op.seq = s.nextSeq then some _ else none) = some u at h
  split at h
  · next hs => exact ⟨hs, (Option.some.inj h).symm⟩
  · cases h

end Writer

end TikTools.Points
