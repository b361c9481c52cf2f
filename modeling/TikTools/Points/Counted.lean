/-
Every admitted write is counted as applied or as failed, but for the
writes rescued one by one.

`owed` is what the writer still has to count. A step keeps the admitted
writes equal to the counted and the owed ones, except that a batch leaves
out the writes it rescues: the fallback path counts a failure and not a
success. So the counters agree at the end of a run exactly if no batch
has rescued a write.
-/
import TikTools.Points.Writer
import TikTools.Points.Durability

namespace TikTools.Points

open TikTools.Lib List

variable {P : Type} {f : Floats P}

namespace Writer

/-- What is admitted and not counted, less what the writer still has. -/
def uncounted (s : Writer P) : Int :=
  s.admitted - (s.applied + s.failedOps + s.batch.length + s.queue.length)

/-- The writes a step rescues. -/
def rescuedBy (s : Writer P) : Event P → Nat
  | .write _ faults => (s.rescues faults).length
  | _ => 0

theorem uncounted_next {s u : Writer P} {event : Event P}
    (h : s.next f event = some u) :
    u.uncounted = s.uncounted + s.rescuedBy event := by
  cases event with
  | reserve op =>
    obtain ⟨-, rfl⟩ := next_reserve h
    exact (Int.add_zero _).symm
  | submit seq =>
    obtain ⟨op, -, -, rfl⟩ := next_submit h
    unfold submitOp
    dsimp only
    split
    · exact (Int.add_zero _).symm
    · unfold uncounted
      show ((s.admitted + 1 : Nat) : Int) - (s.applied + s.failedOps
        + s.batch.length + ((s.queue ++ [op]).length : Nat)) = _ + 0
      rw [length_append, length_singleton]
      omega
  | refuse =>
    cases h
    exact (Int.add_zero _).symm
  | take =>
    obtain ⟨hb, -, rfl⟩ := next_take h
    unfold uncounted
    show (s.admitted : Int) - (s.applied + s.failedOps
      + (s.queue.take writerBatchSize).length
      + (s.queue.drop writerBatchSize).length) = _ + 0
    rw [hb, length_take, length_drop, length_nil]
    omega
  | write now faults =>
    obtain ⟨-, rfl⟩ := next_write h
    have ho := s.applyPointsBatchResilient_spec (f := f) now faults
    have hc := ho.counted
    have hq := ho.frame.queue
    have ha := ho.frame.admitted
    unfold uncounted finishBatch
    dsimp only [rescuedBy]
    rw [hq, ha, length_nil]
    omega
  | close =>
    cases h
    exact (Int.add_zero _).symm
  | join =>
    obtain ⟨-, -, rfl⟩ := next_join h
    exact (Int.add_zero _).symm

/-- Once the queue is drained, the applied and the failed writes are the
admitted ones exactly if in no batch the store refused the transaction
for good and then took a write alone. -/
theorem drained_counts_iff {connected : Bool} {durable : Durable P}
    {events : List (Event P)} {s : Writer P}
    (hrun : runActions (next f) (start connected durable) events = some s)
    (hdrained : s.Drained) :
    s.admitted = s.applied + s.failedOps
      ↔ ∀ done now faults rest t, events = done ++ .write now faults :: rest →
        runActions (next f) (start connected durable) done = some t →
        t.connected = true → ¬Commits faults →
        ∀ op ∈ t.batch, faults.op op = true := by
  have hsm : s.admitted = s.applied + s.failedOps
      ↔ s.uncounted = (start connected durable).uncounted := by
    have hs : (start connected durable).uncounted = 0 := rfl
    rw [hs]
    unfold uncounted
    rw [hdrained.queue, hdrained.batch, length_nil]
    omega
  rw [hsm, run_unchanged_iff (fun _ _ _ => uncounted_next) hrun]
  constructor
  · intro h done now faults rest t hevs ht hc hf op hop
    have hz : t.rescues faults = [] :=
      length_eq_zero_iff.1 (h done _ rest t hevs ht)
    unfold rescues at hz
    rw [if_pos hc, if_neg hf, filter_eq_nil_iff] at hz
    simpa using hz op hop
  · intro h done event rest t hevs ht
    cases event with
    | write now faults =>
      show (t.rescues faults).length = 0
      unfold rescues
      split
      · next hc =>
        split
        · rfl
        · next hf =>
          rw [length_eq_zero_iff, filter_eq_nil_iff]
          intro op hop
          simpa using h done now faults rest t hevs ht hc hf op hop
      · rfl
    | _ => rfl

/-- A store that is busy through the first attempts at a transaction. -/
def busyFor (attempts : Nat) : Faults P where
  batch attempt := decide (attempt < attempts)
  op _ := false

/-- One reset, written by the fallback: admitted, and counted neither as
applied nor as failed. -/
theorem rescued_not_counted :
    ∃ s, runActions (next wholeAmounts) (start true demoStore)
        [.reserve (.reset 1 none), .submit 1, .take,
          .write 1001 (busyFor 4)] = some s
      ∧ s.queue.length = 0 ∧ s.batch.length = 0
      ∧ (s.admitted, s.applied, s.failedOps) = (1, 0, 0) :=
  ⟨_, rfl, rfl, rfl, rfl⟩

/-- The same reset, with a store that takes the transaction at last. -/
def retriedReset : List (Event Int) :=
  [.reserve (.reset 1 none), .submit 1, .take, .write 1001 (busyFor 3)]

theorem retried_counted :
    ∃ s, runActions (next wholeAmounts) (start true demoStore)
        retriedReset = some s
      ∧ (s.admitted, s.applied, s.failedOps) = (1, 1, 0)
      ∧ ∀ done now faults rest t,
        retriedReset = done ++ .write now faults :: rest →
        runActions (next wholeAmounts) (start true demoStore) done = some t →
        t.connected = true → ¬Commits faults →
        ∀ op ∈ t.batch, faults.op op = true :=
  ⟨_, rfl, rfl, (drained_counts_iff rfl ⟨rfl, rfl⟩).1 rfl⟩

end Writer

end TikTools.Points
