/-
The two watermarks of the writer, in runs that queue the writes in the
order of their numbers.

Then what is queued lies above the resolved watermark and what is lost at
or below it (`Ordered`), so a batch moves both watermarks up and the
committed one not past the resolved one. But the committed watermark is
set from the batch alone: the first batch after a loss lifts it over the
lost write. So it claims no lost write exactly as long as no batch is
written after one that lost a write.
-/
import TikTools.Points.Writer
import TikTools.Points.Durability

namespace TikTools.Points

open TikTools.Lib List Nat

variable {P : Type} {f : Floats P}

variable {op : PointsWriteOp P}

namespace Writer

/-- The step queues no write while an older one is still held. -/
def InOrder (s : Writer P) : Event P → Prop
  | .submit seq => ∀ other ∈ s.reserved, seq ≤ other.seq
  | _ => True

instance (s : Writer P) : (event : Event P) → Decidable (s.InOrder event)
  | .submit _ => inferInstanceAs (Decidable (∀ other ∈ s.reserved, _))
  | .reserve _ | .refuse | .take | .write .. | .close | .join =>
    .isTrue trivial

/-- What the watermarks promise of a state. -/
structure Watermarks (s : Writer P) : Prop where
  committed_le : s.committedSeq ≤ s.resolvedSeq
  lost : ∀ seq ∈ s.lost, s.committedSeq < seq

/-- The numbers of the writes that are not resolved, and of the lost
ones. -/
structure Ordered (s : Writer P) : Prop where
  sorted : (s.batch ++ s.queue ++ s.reserved).Pairwise
    fun a b => a.seq < b.seq
  below : ∀ op ∈ s.batch ++ s.queue ++ s.reserved, op.seq < s.nextSeq
  ahead : ∀ op ∈ s.batch ++ s.queue, s.resolvedSeq < op.seq
  held : s.closed = false → s.resolvedSeq < s.nextSeq
    ∧ ∀ op ∈ s.reserved, s.resolvedSeq < op.seq
  committed_le : s.committedSeq ≤ s.resolvedSeq
  lost_le : ∀ seq ∈ s.lost, seq ≤ s.resolvedSeq

theorem ordered_start (c : Bool) (d : Durable P) :
    Ordered (start c d) :=
  ⟨.nil, nofun, nofun, fun _ => ⟨Nat.zero_lt_one, nofun⟩, Nat.le_refl 0,
    nofun⟩

-- ==== a batch

variable {s : Writer P} {now : Int} {faults : Faults P}

theorem losses_sublist (s : Writer P) (faults : Faults P) :
    (s.losses faults).Sublist s.batch := by
  unfold losses
  split
  · split
    · exact nil_sublist _
    · exact filter_sublist
  · exact List.Sublist.refl _

theorem Ordered.le_maxSeq (h : Ordered s)
    (hop : op ∈ s.batch) : op.seq ≤ s.maxSeq := by
  have hs := (pairwise_append.1 (pairwise_append.1 h.sorted).1).1
  have hne := ne_nil_of_mem hop
  have hmax : s.maxSeq = (s.batch.getLast hne).seq := by
    unfold maxSeq
    rw [getLast?_eq_getLast_of_ne_nil hne]
    rfl
  have hsp := dropLast_append_getLast hne
  rw [← hsp] at hs hop
  rw [hmax]
  rcases mem_append.1 hop with hin | hl
  · have hlt := (pairwise_append.1 hs).2.2 op hin _
      mem_cons_self
    exact le_of_lt hlt
  · rw [mem_singleton.1 hl]

theorem Ordered.maxSeq_mem (hb : s.batch ≠ []) :
    ∃ op ∈ s.batch, s.maxSeq = op.seq := by
  refine ⟨s.batch.getLast hb, getLast_mem hb, ?_⟩
  unfold maxSeq
  rw [getLast?_eq_getLast_of_ne_nil hb]
  rfl

theorem Ordered.first_loss (h : Ordered s)
    (hf : (s.losses faults).head? = some op) :
    op ∈ s.batch ∧ ∀ o ∈ s.losses faults, op.seq ≤ o.seq := by
  have hs := ((pairwise_append.1
    (pairwise_append.1 h.sorted).1).1).sublist (losses_sublist s faults)
  obtain ⟨rest, hl⟩ := head?_eq_some_iff.1 hf
  have hmem : op ∈ s.losses faults := mem_of_head? hf
  refine ⟨(losses_sublist s faults).mem hmem, fun o ho => ?_⟩
  rw [hl] at hs ho
  rcases mem_cons.1 ho with rfl | hr
  · exact le_refl _
  · exact le_of_lt ((pairwise_cons.1 hs).1 o hr)

theorem finishBatch_watermarks (s : Writer P) (now : Int)
    (faults : Faults P) :
    (s.finishBatch f now faults).resolvedSeq = s.maxSeq
      ∧ (s.finishBatch f now faults).committedSeq
        = (s.losses faults).head?.elim s.maxSeq fun op => op.seq - 1 := by
  have hf := (s.applyPointsBatchResilient_spec (f := f) now faults).first
  refine ⟨rfl, ?_⟩
  unfold finishBatch
  dsimp only
  rw [hf]
  cases (s.losses faults).head? with
  | none => rfl
  | some op => rfl

/-- A batch moves both watermarks up, and the committed one not past the
resolved one. -/
theorem Ordered.batch_moves (h : Ordered s) (hb : s.batch ≠ [])
    (now : Int) (faults : Faults P) :
    s.resolvedSeq ≤ (s.finishBatch f now faults).committedSeq
      ∧ (s.finishBatch f now faults).committedSeq
        ≤ (s.finishBatch f now faults).resolvedSeq := by
  obtain ⟨hr, hc⟩ := finishBatch_watermarks (f := f) s now faults
  rw [hr, hc]
  have ha : ∀ op ∈ s.batch, s.resolvedSeq < op.seq := fun op hop =>
    h.ahead op (mem_append_left _ hop)
  cases hh : (s.losses faults).head? with
  | none =>
    obtain ⟨l, hl, hmax⟩ := maxSeq_mem hb
    have hlt := ha l hl
    refine ⟨?_, le_refl _⟩
    show s.resolvedSeq ≤ s.maxSeq
    omega
  | some op =>
    obtain ⟨hop, -⟩ := h.first_loss hh
    have hlt := ha op hop
    have hle := h.le_maxSeq hop
    show s.resolvedSeq ≤ op.seq - 1 ∧ op.seq - 1 ≤ s.maxSeq
    omega

theorem Ordered.batch_losses (h : Ordered s) (now : Int) (faults : Faults P)
    (hop : op ∈ s.losses faults) :
    (s.finishBatch f now faults).committedSeq < op.seq := by
  obtain ⟨-, hc⟩ := finishBatch_watermarks (f := f) s now faults
  rw [hc]
  cases hh : (s.losses faults).head? with
  | none =>
    rw [head?_eq_none_iff.1 hh] at hop
    cases hop
  | some fi =>
    obtain ⟨hf, hl⟩ := h.first_loss hh
    have hlt := h.ahead fi (mem_append_left _ hf)
    have hle := hl op hop
    show fi.seq - 1 < op.seq
    omega

theorem finishBatch_lost (s : Writer P) (now : Int) (faults : Faults P) :
    (s.finishBatch f now faults).lost
      = s.lost ++ (s.losses faults).map PointsWriteOp.seq :=
  (s.applyPointsBatchResilient_spec (f := f) now faults).lost

theorem Ordered.write (h : Ordered s) (hb : s.batch ≠ []) (now : Int)
    (faults : Faults P) : Ordered (s.finishBatch f now faults) := by
  have hf := (s.applyPointsBatchResilient_spec (f := f) now faults).frame
  obtain ⟨l, hl, hm⟩ := maxSeq_mem hb
  obtain ⟨hlow, hh⟩ := h.batch_moves (f := f) hb now faults
  have hs := h.sorted
  rw [append_assoc] at hs
  obtain ⟨-, hre, ha⟩ := pairwise_append.1 hs
  have ho : ∀ op ∈ s.queue ++ s.reserved, s.maxSeq < op.seq :=
    fun op hop => hm ▸ ha l hl op hop
  have hq : (s.finishBatch f now faults).queue = s.queue := hf.queue
  have hrs : (s.finishBatch f now faults).reserved = s.reserved := hf.reserved
  have hn : (s.finishBatch f now faults).nextSeq = s.nextSeq := hf.nextSeq
  have hc : (s.finishBatch f now faults).closed = s.closed := hf.closed
  have hem : (s.finishBatch f now faults).batch = [] := rfl
  have hr : (s.finishBatch f now faults).resolvedSeq = s.maxSeq := rfl
  refine ⟨?_, ?_, ?_, ?_, hh, ?_⟩
  · rw [hem, hq, hrs]
    exact hre
  · rw [hem, hq, hrs, hn]
    intro op hop
    exact h.below op (by
      rw [append_assoc]
      exact mem_append_right _ hop)
  · rw [hem, hq, hr]
    exact fun op hop => ho op (mem_append_left _ hop)
  · rw [hc, hr, hn, hrs]
    refine fun _ => ⟨?_, fun op hop =>
      ho op (mem_append_right _ hop)⟩
    rw [hm]
    exact h.below l (mem_append_left _ (mem_append_left _ hl))
  · rw [finishBatch_lost, hr]
    intro seq hseq
    rcases mem_append.1 hseq with hold | hnew
    · have hle := h.lost_le seq hold
      have hr' := finishBatch_watermarks (f := f) s now faults
      omega
    · obtain ⟨op, hop, rfl⟩ := mem_map.1 hnew
      exact h.le_maxSeq ((losses_sublist s faults).mem hop)

-- ==== a client

theorem Ordered.reserve (h : Ordered s) (hs : op.seq = s.nextSeq) :
    Ordered { s with
      nextSeq := s.nextSeq + 1, reserved := s.reserved ++ [op] } := by
  refine ⟨?_, ?_, h.ahead, ?_, h.committed_le, h.lost_le⟩
  · show (s.batch ++ s.queue ++ (s.reserved ++ [op])).Pairwise _
    rw [← append_assoc, pairwise_append]
    refine ⟨h.sorted, pairwise_singleton _ _, ?_⟩
    intro ol hol o ho
    rw [mem_singleton.1 ho, hs]
    exact h.below ol hol
  · intro o ho
    rw [← append_assoc] at ho
    rcases mem_append.1 ho with hl | hnew
    · exact lt_succ_of_lt (h.below o hl)
    · rw [mem_singleton.1 hnew, hs]
      exact lt_succ_self _
  · intro hop
    obtain ⟨hn, hh⟩ := h.held hop
    refine ⟨lt_succ_of_lt hn, ?_⟩
    intro o ho
    rcases mem_append.1 ho with hl | hnew
    · exact hh o hl
    · rw [mem_singleton.1 hnew, hs]
      exact hn

theorem Ordered.submit (h : Ordered s)
    (hop : op ∈ s.reserved) (hf : s.InOrder (.submit op.seq)) :
    Ordered (s.submitOp op) := by
  have hr : (s.reserved.filter fun o =>
      o.seq != op.seq).Sublist s.reserved := filter_sublist
  obtain ⟨hq, hrs, ha⟩ := pairwise_append.1 h.sorted
  unfold submitOp
  dsimp only
  split
  · refine ⟨?_, ?_, h.ahead, ?_, h.committed_le, h.lost_le⟩
    · exact h.sorted.sublist (hr.append_left _)
    · exact fun o ho =>
        h.below o ((hr.append_left _).mem ho)
    · exact fun hon => ⟨(h.held hon).1, fun o ho =>
        (h.held hon).2 o (hr.mem ho)⟩
  · next hon =>
    have hh := h.held (Bool.not_eq_true _ ▸ hon)
    refine ⟨?_, ?_, ?_, ?_, h.committed_le, h.lost_le⟩
    · show (s.batch ++ (s.queue ++ [op]) ++ _).Pairwise _
      rw [← append_assoc s.batch, append_assoc _ [op], pairwise_append]
      refine ⟨hq, ?_, ?_⟩
      · rw [singleton_append, pairwise_cons]
        refine ⟨?_, hrs.sublist hr⟩
        intro o ho
        obtain ⟨hm, hne⟩ := mem_filter.1 ho
        have hle := hf o hm
        rw [bne_iff_ne] at hne
        omega
      · intro ol hol o ho
        rcases mem_cons.1 ho with rfl | hl
        · exact ha ol hol o hop
        · exact ha ol hol o (hr.mem hl)
    · intro o ho
      rw [← append_assoc s.batch, append_assoc _ [op]] at ho
      rcases mem_append.1 ho with hold | hn
      · exact h.below o (mem_append_left _ hold)
      · rcases mem_cons.1 hn with rfl | hl
        · exact h.below o (mem_append_right _ hop)
        · exact h.below o (mem_append_right _ (hr.mem hl))
    · intro o ho
      rw [← append_assoc] at ho
      rcases mem_append.1 ho with hold | hn
      · exact h.ahead o hold
      · rw [mem_singleton.1 hn]
        exact hh.2 op hop
    · exact fun _ => ⟨hh.1, fun o ho =>
        hh.2 o (hr.mem ho)⟩

-- ==== steps

variable {event : Event P} {u : Writer P}

theorem Ordered.next (h : Ordered s) (ho : s.InOrder event)
    (hs : s.next f event = some u) :
    Ordered u ∧ s.committedSeq ≤ u.committedSeq
      ∧ s.resolvedSeq ≤ u.resolvedSeq := by
  cases event with
  | reserve op =>
    obtain ⟨hseq, rfl⟩ := next_reserve hs
    exact ⟨h.reserve hseq, le_refl _, le_refl _⟩
  | submit seq =>
    obtain ⟨op, hop, rfl, rfl⟩ := next_submit hs
    refine ⟨h.submit hop ho, ?_⟩
    unfold submitOp
    dsimp only
    split
    · exact ⟨le_refl _, le_refl _⟩
    · exact ⟨le_refl _, le_refl _⟩
  | refuse =>
    cases hs
    exact ⟨⟨h.sorted, h.below, h.ahead, h.held, h.committed_le,
      h.lost_le⟩, le_refl _, le_refl _⟩
  | take =>
    obtain ⟨hb, -, rfl⟩ := next_take hs
    have hsm : s.queue.take writerBatchSize
        ++ s.queue.drop writerBatchSize = s.batch ++ s.queue := by
      rw [take_append_drop, hb]
      rfl
    refine ⟨⟨?_, ?_, ?_, h.held, h.committed_le, h.lost_le⟩,
      le_refl _, le_refl _⟩
    · show (s.queue.take _ ++ s.queue.drop _ ++ s.reserved).Pairwise _
      rw [hsm]
      exact h.sorted
    · show ∀ op ∈ s.queue.take _ ++ s.queue.drop _ ++ s.reserved, _
      rw [hsm]
      exact h.below
    · show ∀ op ∈ s.queue.take _ ++ s.queue.drop _, _
      rw [hsm]
      exact h.ahead
  | write now faults =>
    obtain ⟨hb, rfl⟩ := next_write hs
    obtain ⟨hl, hh⟩ := h.batch_moves (f := f) hb now faults
    exact ⟨h.write hb now faults, le_trans h.committed_le hl, le_trans hl hh⟩
  | close =>
    cases hs
    exact ⟨⟨h.sorted, h.below, h.ahead, nofun, h.committed_le,
      h.lost_le⟩, le_refl _, le_refl _⟩
  | join =>
    obtain ⟨hc, hd, rfl⟩ := next_join hs
    have hem : s.batch ++ s.queue = [] := by
      rw [hd.batch, hd.queue]
      rfl
    refine ⟨⟨h.sorted, h.below, ?_, ?_, ?_, ?_⟩, le_refl _, le_max_left ..⟩
    · show ∀ op ∈ s.batch ++ s.queue, _
      rw [hem]
      exact nofun
    · exact fun hon =>
        absurd (hon.symm.trans hc) Bool.false_ne_true
    · exact le_trans h.committed_le (le_max_left ..)
    · exact fun seq hseq =>
        le_trans (h.lost_le seq hseq) (le_max_left ..)

/-- The step writes no batch after a write was lost. -/
def BeforeLoss (s : Writer P) : Event P → Prop
  | .write .. => s.lost = []
  | _ => True

instance (s : Writer P) : (event : Event P) → Decidable (s.BeforeLoss event)
  | .write .. => decidable_of_iff _ isEmpty_iff
  | .reserve _ | .submit _ | .refuse | .take | .close | .join =>
    .isTrue trivial

theorem Ordered.claims (h : Ordered s)
    (hc : ∀ seq ∈ s.lost, s.committedSeq < seq)
    (hb : s.BeforeLoss event) (hs : s.next f event = some u) :
    ∀ seq ∈ u.lost, u.committedSeq < seq := by
  cases event with
  | reserve op =>
    obtain ⟨-, rfl⟩ := next_reserve hs
    exact hc
  | submit seq =>
    obtain ⟨op, -, -, rfl⟩ := next_submit hs
    unfold submitOp
    dsimp only
    split
    · exact hc
    · exact hc
  | refuse =>
    cases hs
    exact hc
  | take =>
    obtain ⟨-, -, rfl⟩ := next_take hs
    exact hc
  | write now faults =>
    obtain ⟨-, rfl⟩ := next_write hs
    rw [finishBatch_lost, hb, nil_append]
    intro seq hseq
    obtain ⟨op, hop, rfl⟩ := mem_map.1 hseq
    exact h.batch_losses now faults hop
  | close =>
    cases hs
    exact hc
  | join =>
    obtain ⟨-, -, rfl⟩ := next_join hs
    exact hc

-- ==== runs

/-- In a run that queues the writes in the order of their numbers, no step
moves a watermark back and the committed one never passes the resolved
one; and no lost write is ever claimed as committed exactly if no batch
is written after a write was lost. -/
theorem watermarks_iff {connected : Bool} {durable : Durable P}
    {events : List (Event P)}
    (horder : ∀ done event rest t u, events = done ++ event :: rest →
      runActions (next f) (start connected durable) done = some t →
      t.next f event = some u → t.InOrder event) :
    ((∀ t, Reaches (next f) (start connected durable) events t →
        Watermarks t)
      ∧ ∀ done event rest t u, events = done ++ event :: rest →
        runActions (next f) (start connected durable) done = some t →
        t.next f event = some u →
        t.committedSeq ≤ u.committedSeq ∧ t.resolvedSeq ≤ u.resolvedSeq)
      ↔ ∀ done event rest t u, events = done ++ event :: rest →
        runActions (next f) (start connected durable) done = some t →
        t.next f event = some u → t.BeforeLoss event := by
  have hord : ∀ t, Reaches (next f) (start connected durable) events t →
      Ordered t := fun t ht =>
    reaches_given horder (ordered_start connected durable)
      (fun _ _ _ h hok hs => (h.next hok hs).1) ht
  constructor
  · rintro ⟨hc, -⟩ done event rest t u hevs ht hu
    cases event with
    | write now faults =>
      show t.lost = []
      obtain ⟨hbt, rfl⟩ := next_write hu
      have h := hord t ⟨done, _, hevs, ht⟩
      have hr : Reaches (next f) (start connected durable) events
          (t.finishBatch f now faults) := by
        refine ⟨done ++ [.write now faults], rest, ?_, ?_⟩
        · rw [hevs, append_assoc, singleton_append]
        · rw [runActions_append, ht]
          show (t.next f _).bind _ = _
          rw [hu]
          rfl
      have hlow := (h.batch_moves (f := f) hbt now faults).1
      rw [eq_nil_iff_forall_not_mem]
      intro seq hseq
      have hcl := (hc _ hr).lost seq (by
        rw [finishBatch_lost]
        exact mem_append_left _ hseq)
      have hle := h.lost_le seq hseq
      omega
    | _ => trivial
  · intro hbef
    refine ⟨fun t ht => ?_, fun done event rest t u hevs ht hu =>
      ((hord t ⟨done, _, hevs, ht⟩).next
        (horder done event rest t u hevs ht hu) hu).2⟩
    have hb := @reaches_given _ _ (next f)
      (fun t => Ordered t ∧ ∀ seq ∈ t.lost, t.committedSeq < seq)
      (fun t event => t.InOrder event ∧ t.BeforeLoss event) _ events
      (fun done event rest t u hevs ht hu =>
        ⟨horder done event rest t u hevs ht hu,
          hbef done event rest t u hevs ht hu⟩)
      ⟨ordered_start connected durable, nofun⟩
      (fun _ _ _ h hok hs =>
        ⟨(h.1.next hok.1 hs).1, h.1.claims h.2 hok.2 hs⟩) t ht
    exact ⟨hb.1.committed_le, hb.2⟩

/-- A store that fails for good. -/
def broken : Faults P where
  batch _ := true
  op _ := true

/-- A store without failures. -/
def sound : Faults P where
  batch _ := false
  op _ := false

/-- A store that commits the first of two resets and loses the second. -/
def lossAtTheEnd : List (Event Int) :=
  [.reserve (.reset 1 none), .submit 1, .take, .write 1001 sound,
    .reserve (.reset 2 none), .submit 2, .take, .write 1002 broken]

theorem loss_not_claimed :
    ∃ s, runActions (next wholeAmounts) (start true demoStore)
        lossAtTheEnd = some s
      ∧ (s.lost, s.committedSeq, s.resolvedSeq) = ([2], 1, 2)
      ∧ ∀ t, Reaches (next wholeAmounts) (start true demoStore)
          lossAtTheEnd t → Watermarks t := by
  refine ⟨_, rfl, rfl, ((watermarks_iff ?order).2 ?before).1⟩
  case order =>
    intro done event rest t u hevs ht _
    have hrun : runWhile (next wholeAmounts)
        (fun s event => decide (s.InOrder event)) (start true demoStore)
        lossAtTheEnd = some _ := rfl
    exact of_decide_eq_true (runWhile_checks hrun done event rest t hevs ht)
  case before =>
    intro done event rest t u hevs ht _
    have hrun : runWhile (next wholeAmounts)
        (fun s event => decide (s.BeforeLoss event)) (start true demoStore)
        lossAtTheEnd = some _ := rfl
    exact of_decide_eq_true (runWhile_checks hrun done event rest t hevs ht)

/-- Two resets in order. The store loses the first; the batch of the
second lifts the committed watermark over it. And two resets of which the
newer one is queued first: the resolved watermark goes back. -/
theorem loss_claimed :
    (∃ s, runActions (next wholeAmounts) (start true demoStore)
        [.reserve (.reset 1 none), .submit 1, .take, .write 1001 broken,
          .reserve (.reset 2 none), .submit 2, .take,
          .write 1002 sound] = some s
      ∧ (s.lost, s.committedSeq, s.resolvedSeq) = ([1], 2, 2))
    ∧ ∃ s t, runActions (next wholeAmounts) (start true demoStore)
        [.reserve (.reset 1 none), .reserve (.reset 2 none), .submit 2,
          .take, .write 1001 sound] = some s
      ∧ runActions (next wholeAmounts) s
        [.submit 1, .take, .write 1002 sound] = some t
      ∧ (s.resolvedSeq, t.resolvedSeq) = (2, 1) :=
  ⟨⟨_, rfl, rfl⟩, ⟨_, _, rfl, rfl, rfl⟩⟩

end Writer

end TikTools.Points
