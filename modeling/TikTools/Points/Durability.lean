/-
Durability of the points cache: what the queue still owes the store.

`Tracked` is the whole argument. Applying to a stored row the writes
that are still on their way, in the order they will reach it, gives the
cached row. An update extends both sides by the same change; the writer
moves writes from the list to the store; an eviction drops the claim.
Two steps can break it, and `Ordered` is the condition that they do not:

- a write is queued before an older write of the same viewer that its
  client has allocated and not yet submitted;
- a row enters the cache that is not the stored row, or while a write of
  the viewer is still on its way.

# The time of an adjustment

The writer stamps an adjusted row with its own clock, so the column
`last_seen` agrees with the cache only if that clock shows the time of
the adjustment. The argument is made once, for rows up to `last_seen`
(`exact = false`) and for whole rows (`exact = true`), where the clock is
one more condition on the writer's steps.
-/
import TikTools.Points.Service

namespace TikTools.Points

open TikTools.Lib List Option Table

variable {P : Type} {f : Floats P}

-- ==== replay

/-- A row as far as it is compared. -/
def view (exact : Bool) (row : ViewerState P) : ViewerState P :=
  if exact then row else { row with lastSeen := 0 }

/-- The time an operation was made at. -/
def PointsWriteOp.time : PointsWriteOp P → Int
  | adjust _ _ _ _ _ time => time
  | _ => 0

/-- The row of a viewer after the operations, each at its own time. -/
def replay (f : Floats P) (id : String) (ops : List (PointsWriteOp P))
    (row : Option (ViewerState P)) : Option (ViewerState P) :=
  ops.foldl (fun row op => opOn f op.time id op row) row

@[simp] theorem replay_nil (id : String) (row : Option (ViewerState P)) :
    replay f id [] row = row := rfl

@[simp] theorem replay_cons (id : String) (op : PointsWriteOp P)
    (ops : List (PointsWriteOp P)) (row : Option (ViewerState P)) :
    replay f id (op :: ops) row
      = replay f id ops (opOn f op.time id op row) := rfl

@[simp] theorem replay_append (id : String)
    (ops ops' : List (PointsWriteOp P)) (row : Option (ViewerState P)) :
    replay f id (ops ++ ops') row = replay f id ops' (replay f id ops row) :=
  foldl_append

theorem opOn_untouched {id : String} {op : PointsWriteOp P}
    (h : op.touches id = false) (now : Int)
    (row : Option (ViewerState P)) : opOn f now id op row = row := by
  simp [opOn, h]

theorem replay_untouched {id : String} {ops : List (PointsWriteOp P)} :
    (∀ op ∈ ops, op.touches id = false) →
      ∀ row, replay f id ops row = row := by
  induction ops with
  | nil => exact fun _ _ => rfl
  | cons op ops ih =>
    intro h row
    rw [replay_cons, opOn_untouched (h op mem_cons_self)]
    exact ih (fun op hop => h op (mem_cons_of_mem _ hop)) row

theorem replay_untouched_one {id : String} {op : PointsWriteOp P}
    (h : op.touches id = false) (row : Option (ViewerState P)) :
    replay f id [op] row = row :=
  opOn_untouched h op.time row

/-- The writes on their way lead from the stored row to the cached
one. -/
def Tracked (f : Floats P) (exact : Bool) (viewers : Rows P)
    (ops : List (PointsWriteOp P)) (stored : Rows P) : Prop :=
  ∀ id row, viewers.get id = some row →
    (replay f id ops (stored.get id)).map (view exact) = some (view exact row)

/-- The clock condition on one write. -/
def Stamped (exact : Bool) (now : Int) (op : PointsWriteOp P) : Prop :=
  exact = true → ∀ seq id points level awards time,
    op = .adjust seq id points level awards time → time = now

-- ---- views

variable {exact : Bool} {a b : ViewerState P}

theorem view_eq (h : view exact a = view exact b) :
    (exact = true ∧ b = a)
      ∨ exact = false ∧ ∃ t, b = { a with lastSeen := t } := by
  cases exact with
  | true => exact .inl ⟨rfl, h.symm⟩
  | false =>
    refine .inr ⟨rfl, b.lastSeen, ?_⟩
    cases a
    cases b
    simp only [view] at h ⊢
    simp_all

theorem view_congr {g : ViewerState P → ViewerState P}
    (hg : ∀ row t, view false (g { row with lastSeen := t })
      = view false (g row))
    (h : view exact a = view exact b) :
    view exact (g a) = view exact (g b) := by
  rcases view_eq h with ⟨_, hba⟩ | ⟨het, t, hba⟩
  · rw [hba]
  · rw [hba, het]
    exact (hg a t).symm

/-- Stored rows that look the same look the same after an operation,
written at its own time or without comparing times. -/
theorem opOn_view_congr {id : String} {op : PointsWriteOp P} {now : Int}
    (hs : Stamped exact now op) {x y : Option (ViewerState P)}
    (h : x.map (view exact) = y.map (view exact)) :
    (opOn f now id op x).map (view exact)
      = (opOn f op.time id op y).map (view exact) := by
  cases ht : op.touches id with
  | false =>
    rw [opOn_untouched ht, opOn_untouched ht]
    exact h
  | true =>
    cases x with
    | none =>
      cases y with
      | none =>
        cases op <;> rfl
      | some b => cases h
    | some a =>
      cases y with
      | none => cases h
      | some b =>
        injection h with h
        unfold opOn
        rw [if_pos ht, if_pos ht]
        cases op with
        | save seq viewer reason awarded =>
          rcases view_eq h with ⟨_, hba⟩ | ⟨_, t, hba⟩ <;> rw [hba]
          rfl
        | adjust seq ui points level awards time =>
          rcases view_eq h with ⟨het, hba⟩ | ⟨het, t, hba⟩
          · rw [hba, show (PointsWriteOp.adjust seq ui points
              level awards time).time = now from
              hs het _ _ _ _ _ _ rfl]
          · rw [hba, het]
            rfl
        | reset seq ui =>
          show some _ = some _
          rw [view_congr (fun _ _ => rfl) h]

theorem opOn_view_congr_self {id : String} {op : PointsWriteOp P}
    {x y : Option (ViewerState P)}
    (h : x.map (view exact) = y.map (view exact)) :
    (opOn f op.time id op x).map (view exact)
      = (opOn f op.time id op y).map (view exact) := by
  refine opOn_view_congr ?_ h
  intro _ seq uniqueId points level awards time hop
  rw [hop]
  rfl

theorem replay_view_congr {id : String} {ops : List (PointsWriteOp P)} :
    ∀ {x y : Option (ViewerState P)},
      x.map (view exact) = y.map (view exact) →
      (replay f id ops x).map (view exact)
        = (replay f id ops y).map (view exact) := by
  induction ops with
  | nil => exact fun h => h
  | cons op ops ih => exact fun h => ih (opOn_view_congr_self h)

/-- A batch applied at one clock reading, against the same operations
each at its own time. -/
theorem batch_view {id : String} {now : Int} {ba : List (PointsWriteOp P)}
    (hs : ∀ op ∈ ba, Stamped exact now op) :
    ∀ {x y : Option (ViewerState P)},
      x.map (view exact) = y.map (view exact) →
      (ba.foldl (fun row op => opOn f now id op row) x).map (view exact)
        = (replay f id ba y).map (view exact) := by
  induction ba with
  | nil => exact fun h => h
  | cons op ba ih =>
    intro x y h
    exact ih (fun op hop => hs op (mem_cons_of_mem _ hop))
      (opOn_view_congr (hs op mem_cons_self) h)

-- ---- tracked caches

variable {viewers stored : Rows P} {ops : List (PointsWriteOp P)}

theorem Tracked.mono {v' : Rows P}
    (h : Tracked f exact viewers ops stored)
    (hs : ∀ id row, v'.get id = some row → viewers.get id = some row) :
    Tracked f exact v' ops stored :=
  fun id row hr => h id row (hs id row hr)

theorem Tracked.commit {ba : List (PointsWriteOp P)} {now : Int}
    {d : Durable P}
    (h : Tracked f exact viewers (ba ++ ops) d.viewers)
    (hs : ∀ op ∈ ba, Stamped exact now op) :
    Tracked f exact viewers ops (applyBatch f now d ba).viewers := by
  intro id row hr
  rw [← h id row hr, replay_append, get_applyBatch]
  exact replay_view_congr (batch_view hs rfl)

theorem Tracked.promote (h : Tracked f exact viewers ops stored)
    {row : ViewerState P}
    (hs : stored.get row.uniqueId = some row)
    (hq : ∀ op ∈ ops, op.touches row.uniqueId = false) :
    Tracked f exact (viewers.put row) ops stored := by
  intro id o ho
  rw [Rows.get_put] at ho
  split at ho
  case isTrue e =>
    cases ho
    subst e
    rw [replay_untouched hq, hs]
    rfl
  case isFalse => exact h id o ho

section

variable {id : String} {action : PointAction} {options : AwardOptions P}
  {config : PointsConfig P} {now : Int} {seq : Nat}

theorem awardRow_uniqueId {r : Option (ViewerState P)}
    (h : ∀ row ∈ r, row.uniqueId = id) :
    (awardRow f id action options config now seq r).1.uniqueId = id := by
  cases r with
  | none => rfl
  | some row => exact h row rfl

theorem or_or_self {α : Type} (a b : Option α) : (a.or b).or b = a.or b := by
  cases a <;> cases b <;> rfl

/-- An award keeps what the stored row knows, so writing it over that
row stores it as it is. -/
theorem upsert_awardRow (h : view exact a = view exact b) :
    upsert (some a) (awardRow f id action options config now seq (some b)).1
      = (awardRow f id action options config now seq (some b)).1 := by
  have hf : a.userId = b.userId ∧ a.avatarUrl = b.avatarUrl
      ∧ a.firstSeen = b.firstSeen := by
    rcases view_eq h with ⟨_, hba⟩ | ⟨_, t, hba⟩ <;> rw [hba]
      <;> exact ⟨rfl, rfl, rfl⟩
  obtain ⟨hu, ha, hfr⟩ := hf
  simp only [upsert, hu, ha, hfr, awardRow,
    updateExistingViewer, getD_some, or_or_self]

end

theorem Tracked.award (h : Tracked f exact viewers ops stored)
    {id : String} {action : PointAction} {options : AwardOptions P}
    {config : PointsConfig P} {c : Int} {seq : Nat}
    {rs : String} {aw : P} {row : ViewerState P}
    (hrow : row = (awardRow f id action options config c seq
      (viewers.get id)).1)
    (hnew : viewers.get id = none → stored.get id = none
      ∧ ∀ op ∈ ops, op.touches id = false) :
    Tracked f exact (viewers.put row)
      (ops ++ [.save seq row rs aw]) stored := by
  have hid : row.uniqueId = id := by
    rw [hrow]
    exact awardRow_uniqueId fun r hr => Rows.uniqueId_of_get hr
  intro k o ho
  rw [Rows.get_put, hid] at ho
  rw [replay_append]
  by_cases e : id = k
  · subst e
    rw [if_pos rfl] at ho
    cases ho
    have hon : ∀ x, replay f id [.save seq row rs aw] x
        = some (upsert x row) := by
      intro x
      simp [opOn, PointsWriteOp.touches, hid]
    rw [hon]
    cases hrs : viewers.get id with
    | none =>
      obtain ⟨hn, hq⟩ := hnew hrs
      rw [replay_untouched hq, hn]
      rfl
    | some re =>
      have ht := h id re hrs
      obtain ⟨reached, hrc, hv⟩ := map_eq_some_iff.1 ht
      rw [hrc, hrow, hrs, upsert_awardRow hv]
      rfl
  · rw [if_neg e] at ho
    rw [replay_untouched_one]
    · exact h k o ho
    · simp [PointsWriteOp.touches, hid, e]

theorem Tracked.adjust (h : Tracked f exact viewers ops stored)
    {id : String} {d : P} {config : PointsConfig P} {now : Int}
    {seq : Nat} {re row : ViewerState P}
    (hr : viewers.get id = some re)
    (hrow : row = adjustRow f d config now seq re) :
    Tracked f exact (viewers.put row) (ops ++
      [.adjust seq id row.points row.level row.awards now]) stored := by
  have hresidentId : re.uniqueId = id := Rows.uniqueId_of_get hr
  have hid : row.uniqueId = id := by
    rw [hrow]
    exact hresidentId
  intro k o ho
  rw [Rows.get_put, hid] at ho
  rw [replay_append]
  by_cases e : id = k
  · subst e
    rw [if_pos rfl] at ho
    cases ho
    obtain ⟨reached, hrc, hv⟩ := map_eq_some_iff.1 (h id re hr)
    rw [hrc]
    simp only [replay_cons, replay_nil, opOn, PointsWriteOp.touches,
      decide_true, if_true, map_some, PointsWriteOp.time]
    rw [hrow]
    exact congrArg some (@view_congr P exact _ _
      (fun r => { r with
        points := (adjustRow f d config now seq re).points
        level := (adjustRow f d config now seq re).level
        lastSeen := now
        awards := (adjustRow f d config now seq re).awards })
      (fun _ _ => rfl) hv)
  · rw [if_neg e] at ho
    rw [replay_untouched_one]
    · exact h k o ho
    · simp [PointsWriteOp.touches, e]

theorem Tracked.reset {q late : List (PointsWriteOp P)}
    (h : Tracked f exact viewers (q ++ late) stored)
    {seq : Nat} {ui : Option String} {v' : Rows P}
    (hvw : ∀ id row, v'.get id = some row →
      (if (PointsWriteOp.reset seq ui : PointsWriteOp P).touches id
        then (viewers.get id).map (ViewerState.reset f)
        else viewers.get id) = some row)
    (hl : ∀ op ∈ late, ∀ id,
      (PointsWriteOp.reset seq ui : PointsWriteOp P).touches id →
      op.touches id = false) :
    Tracked f exact v' (q ++ [.reset seq ui] ++ late) stored := by
  intro k o ho
  have ho := hvw k o ho
  rw [replay_append, replay_append]
  split at ho
  case isTrue ht =>
    obtain ⟨row, hrow, rfl⟩ := map_eq_some_iff.1 ho
    have hq : ∀ op ∈ late, op.touches k = false :=
      fun op hop => hl op hop k ht
    have htr := h k row hrow
    rw [replay_append, replay_untouched hq] at htr
    obtain ⟨reached, hr, hv⟩ := map_eq_some_iff.1 htr
    rw [replay_untouched hq, hr]
    simp only [replay_cons, replay_nil, opOn, ht, if_true, map_some]
    exact congrArg some (view_congr (fun _ _ => rfl) hv)
  case isFalse ht =>
    rw [replay_untouched_one (by simpa using ht), ← replay_append]
    exact h k o ho

/-- A write is queued before the late ones, none of which concerns its
viewers if it is older. -/
theorem Tracked.submit {queued older newer : List (PointsWriteOp P)}
    {op : PointsWriteOp P}
    (h : Tracked f exact viewers (queued ++ (older ++ op :: newer)) stored)
    (ho : ∀ other ∈ older, ∀ id, op.touches id → other.touches id = false) :
    Tracked f exact viewers (queued ++ [op] ++ (older ++ newer)) stored := by
  intro k row hrow
  rw [← h k row hrow]
  simp only [replay_append, replay_cons, replay_nil]
  cases ht : op.touches k with
  | false => simp only [opOn_untouched ht]
  | true =>
    have hq : ∀ other ∈ older, other.touches k = false :=
      fun other hot => ho other hot k ht
    simp only [replay_untouched hq]

-- ==== condition

/-- The condition on a step: writes of a viewer are queued in the order
they were allocated, a row enters the cache as it is stored and while no
write of its viewer is on its way, and (for exact rows) an adjustment is
written at its own time. -/
def System.Ordered (exact : Bool) (s : System P) : Event P → Prop
  | .submit client => ∀ op, s.clients[client]? = some (.submitting op) →
      ∀ other ∈ s.unsubmitted, other.seq < op.seq →
        ∀ id, op.touches id → other.touches id = false
  | .reset client => ∀ uniqueId resolved,
      s.clients[client]? = some (.resetting uniqueId resolved) →
      ∀ other ∈ s.unsubmitted, ∀ id,
        (PointsWriteOp.reset s.nextSeq uniqueId : PointsWriteOp P).touches id
        → other.touches id = false
  | .promote client => ∀ id call row loadedAt settled,
      s.clients[client]? = some (.loaded id call (some row) loadedAt
        settled) →
      s.inner.viewers.get id = none → s.durable.viewers.get id = some row
        ∧ ∀ op ∈ s.outstanding ++ s.unsubmitted, op.touches id = false
  | .update client _ => ∀ id action options config called,
      s.clients[client]? = some (.ready id
        (.award action options config called)) →
      s.inner.viewers.get id = none → s.durable.viewers.get id = none
        ∧ ∀ op ∈ s.outstanding ++ s.unsubmitted, op.touches id = false
  | .commit now => ∀ op ∈ s.phase.batch, Stamped exact now op
  | _ => True

/-- Every write has reached the store. -/
structure System.Drained (s : System P) : Prop where
  queue : s.queue = []
  batch : s.phase.batch = []
  clients : ∀ (client : Nat) (op : PointsWriteOp P),
    s.clients[client]? ≠ some (.submitting op)

-- ==== invariant

/-- The allocated writes are those the submitting clients hold, each by
one client, in the order of their numbers. -/
structure Allocated (clients : Table Nat (Client P))
    (unsubmitted : List (PointsWriteOp P)) (nextSeq : Nat) : Prop where
  sorted : unsubmitted.Pairwise fun a b => a.seq < b.seq
  below : ∀ op ∈ unsubmitted, op.seq < nextSeq
  held : ∀ op, op ∈ unsubmitted
    ↔ ∃ client : Nat, clients[client]? = some (.submitting op)
  alone : ∀ (client other : Nat) op op',
    clients[client]? = some (.submitting op) →
    clients[other]? = some (.submitting op') → op.seq = op'.seq →
    client = other

structure Inv (f : Floats P) (exact : Bool) (s : System P) : Prop where
  allocated : Allocated s.clients s.unsubmitted s.nextSeq
  tracked : Tracked f exact s.inner.viewers
    (s.outstanding ++ s.unsubmitted) s.durable.viewers

namespace Allocated

variable {clients : Table Nat (Client P)} {nextSeq : Nat}
variable {unsubmitted : List (PointsWriteOp P)}

variable {op : PointsWriteOp P}

section

variable (h : Allocated clients unsubmitted nextSeq)
include h

theorem same {c' : Table Nat (Client P)}
    (hs : ∀ (k : Nat) (op : PointsWriteOp P),
      c'[k]? = some (.submitting op) ↔ clients[k]? = some (.submitting op)) :
    Allocated c' unsubmitted nextSeq := by
  refine ⟨h.sorted, h.below, ?_, ?_⟩
  · intro op
    simp only [hs]
    exact h.held op
  · intro k k' op op' hk hk'
    exact h.alone k k' op op' ((hs k op).1 hk) ((hs k' op').1 hk')

section

variable {client : Nat}

theorem set {c : Client P} (hn : ∀ op, c ≠ .submitting op)
    (ho : ∀ op, clients[client]? ≠ some (.submitting op)) :
    Allocated (clients.insert client c) unsubmitted nextSeq := by
  refine h.same fun k op => ?_
  rw [get_insert]
  by_cases e : client = k
  · subst e
    simp only [if_true, Option.some.injEq]
    exact iff_of_false (hn op) (ho op)
  · rw [if_neg e]

theorem erase (ho : ∀ op, clients[client]? ≠ some (.submitting op)) :
    Allocated (clients.erase client) unsubmitted nextSeq := by
  refine h.same fun k op => ?_
  rw [get_erase]
  by_cases e : client = k
  · subst e
    simp only [if_true]
    exact iff_of_false (fun h => nomatch h) (ho op)
  · rw [if_neg e]

theorem skip :
    Allocated clients unsubmitted (nextSeq + 1) :=
  ⟨h.sorted, fun op hop => Nat.lt_succ_of_lt (h.below op hop), h.held,
    h.alone⟩

theorem allocate (hs : op.seq = nextSeq)
    (hl : ∀ op, clients[client]? ≠ some (.submitting op)) :
    Allocated (clients.insert client (.submitting op))
      (unsubmitted ++ [op]) (nextSeq + 1) := by
  have hnew : ∀ (k : Nat) (o : PointsWriteOp P),
      (clients.insert client (.submitting op))[k]?
          = some (.submitting o)
        ↔ (client = k ∧ op = o) ∨ clients[k]? = some (.submitting o) := by
    intro k o
    rw [get_insert]
    by_cases e : client = k
    · subst e
      simp [hl o]
    · simp [e]
  have hlt : ∀ o ∈ unsubmitted, o.seq < op.seq := by
    intro o ho
    rw [hs]
    exact h.below o ho
  refine ⟨?_, ?_, ?_, ?_⟩
  · rw [pairwise_append]
    refine ⟨h.sorted, pairwise_singleton _ _, ?_⟩
    intro a ha b hb
    rw [mem_singleton] at hb
    rw [hb]
    exact hlt a ha
  · intro o ho
    rcases mem_append.1 ho with hin | hin
    · have := h.below o hin
      omega
    · rw [mem_singleton] at hin
      rw [hin, hs]
      omega
  · intro o
    simp only [hnew, mem_append, mem_singleton, h.held]
    constructor
    · intro hin
      rcases hin with ⟨k, hk⟩ | hin
      · exact ⟨k, .inr hk⟩
      · exact ⟨client, .inl ⟨rfl, hin.symm⟩⟩
    · intro ⟨k, hk⟩
      rcases hk with ⟨_, hk⟩ | hk
      · exact .inr hk.symm
      · exact .inl ⟨k, hk⟩
  · intro k k' a b hk hk' hab
    rw [hnew] at hk hk'
    rcases hk with ⟨hk, ha⟩ | hk
    · rcases hk' with ⟨hk', _⟩ | hk'
      · exact hk.symm.trans hk'
      · have := hlt b ((h.held b).2 ⟨k', hk'⟩)
        rw [ha] at this
        omega
    · rcases hk' with ⟨_, hb⟩ | hk'
      · have := hlt a ((h.held a).2 ⟨k, hk⟩)
        rw [hb] at this
        omega
      · exact h.alone k k' a b hk hk' hab

/-- The place of a held write among the allocated ones: what comes before
it is older, and removing its number removes just it. -/
theorem split (hop : clients[client]? = some (.submitting op)) :
    ∃ older newer, unsubmitted = older ++ op :: newer
      ∧ (∀ other ∈ older, other.seq < op.seq)
      ∧ (unsubmitted.filter fun other => other.seq != op.seq)
        = older ++ newer := by
  obtain ⟨older, newer, hs⟩ := append_of_mem ((h.held op).2 ⟨client, hop⟩)
  have hsr := h.sorted
  rw [hs, pairwise_append, pairwise_cons] at hsr
  obtain ⟨_, ⟨hn, _⟩, hb⟩ := hsr
  have hol : ∀ other ∈ older, other.seq < op.seq :=
    fun other ho => hb other ho op mem_cons_self
  refine ⟨older, newer, hs, hol, ?_⟩
  rw [hs, filter_append, filter_cons]
  have hkeepOlder : older.filter (fun other => other.seq != op.seq)
      = older := by
    rw [filter_eq_self]
    intro other ho
    have := hol other ho
    simp only [bne_iff_ne]
    omega
  have hkeepNewer : newer.filter (fun other => other.seq != op.seq)
      = newer := by
    rw [filter_eq_self]
    intro other ho
    have := hn other ho
    simp only [bne_iff_ne]
    omega
  rw [hkeepOlder, hkeepNewer]
  simp

theorem submit (hop : clients[client]? = some (.submitting op)) :
    Allocated (clients.erase client)
      (unsubmitted.filter fun o => o.seq != op.seq) nextSeq := by
  have hl : ∀ (k : Nat) (o : PointsWriteOp P),
      (clients.erase client)[k]? = some (.submitting o)
        ↔ client ≠ k ∧ clients[k]? = some (.submitting o) := by
    intro k o
    rw [get_erase]
    by_cases e : client = k <;> simp [e]
  refine ⟨h.sorted.filter _, ?_, ?_, ?_⟩
  · intro o ho
    exact h.below o (mem_filter.1 ho).1
  · intro o
    simp only [hl, mem_filter, h.held, bne_iff_ne]
    constructor
    · intro ⟨⟨k, hk⟩, hs⟩
      refine ⟨k, ?_, hk⟩
      intro e
      subst e
      rw [hop] at hk
      injection hk with hk
      injection hk with hk
      exact hs (by rw [hk])
    · intro ⟨k, hne, hk⟩
      refine ⟨⟨k, hk⟩, ?_⟩
      intro hs
      exact hne (h.alone client k op o hop hk hs.symm)
  · intro k k' a b hk hk' hab
    exact h.alone k k' a b ((hl k a).1 hk).2 ((hl k' b).1 hk').2 hab

end

end

end Allocated

-- ---- preserving steps

variable {s t : System P} {client : Nat}

theorem not_submitting {c : Client P}
    (h : s.clients[client]? = some c) (hc : ∀ op, c ≠ .submitting op) :
    ∀ op, s.clients[client]? ≠ some (.submitting op) := by
  intro op hop
  rw [h] at hop
  injection hop with hop
  exact hc op hop

theorem not_submitting_of_none (h : s.clients[client]? = none) :
    ∀ op, s.clients[client]? ≠ some (.submitting op) := by
  intro op hop
  rw [h] at hop
  cases hop

namespace Inv

theorem start (d : Durable P) (w : List String)
    (c : Nat) :
    Inv f exact (System.start d w c) := by
  refine ⟨⟨List.Pairwise.nil, by simp [System.start], ?_, ?_⟩, ?_⟩
  · simp [System.start]
  · simp [System.start]
  · intro id row hr
    have hget := Rows.get_only d.viewers w id
    rw [show (System.start d w c).inner.viewers
      = d.viewers.only w from rfl, hget] at hr
    have hs := (filter_eq_some_iff.1 hr).1
    show (d.viewers.get id).map _ = _
    rw [hs]
    rfl

section

variable (h : Inv f exact s)
include h

/-- A step that touches neither the writes nor the store, and caches
nothing new. -/
theorem frame (hc : Allocated t.clients s.unsubmitted s.nextSeq)
    (hv : ∀ id row, t.inner.viewers.get id = some row →
      s.inner.viewers.get id = some row)
    (ho : t.outstanding = s.outstanding)
    (hu : t.unsubmitted = s.unsubmitted)
    (hs : t.nextSeq = s.nextSeq) (hd : t.durable = s.durable) :
    Inv f exact t := by
  refine ⟨?_, ?_⟩
  · rw [hu, hs]
    exact hc
  · rw [ho, hu, hd]
    exact h.tracked.mono hv

theorem setClient {c : Client P}
    (hn : ∀ op, c ≠ .submitting op)
    (ho : ∀ op, s.clients[client]? ≠ some (.submitting op)) :
    Inv f exact (s.setClient client c) :=
  h.frame (h.allocated.set hn ho) (fun _ _ hr => hr) rfl rfl rfl rfl

theorem endClient (ho : ∀ op, s.clients[client]? ≠ some (.submitting op)) :
    Inv f exact (s.endClient client) :=
  h.frame (h.allocated.erase ho) (fun _ _ hr => hr) rfl rfl rfl rfl

theorem beginCall (ui : String) (call : Call P)
    (hold : ∀ op, s.clients[client]? ≠ some (.submitting op)) :
    Inv f exact (s.beginCall client ui call) := by
  obtain ⟨inner, hv, hcs⟩ := s.beginCall_cases client ui call
  have hcn : Inv f exact { s with inner } := by
    refine h.frame h.allocated ?_ rfl rfl rfl rfl
    intro k row hr
    rw [← hv]
    exact hr
  rcases hcs with heq | ⟨id, c, hc, heq⟩
  · rw [heq]
    exact hcn
  · rw [heq]
    refine hcn.setClient ?_ hold
    rcases hc with rfl | rfl <;> exact fun _ h => nomatch h

variable {id : String}

theorem writeRow {row : ViewerState P}
    {op : PointsWriteOp P} (hs : op.seq = s.nextSeq)
    (hol : ∀ op, s.clients[client]? ≠ some (.submitting op))
    (ht : Tracked f exact (s.inner.viewers.put row)
      (s.outstanding ++ s.unsubmitted ++ [op]) s.durable.viewers) :
    Inv f exact (s.writeRow client id row op) := by
  refine ⟨h.allocated.allocate hs hol, ?_⟩
  show Tracked f exact _ (s.outstanding ++ (s.unsubmitted ++ [op])) _
  rw [← append_assoc]
  refine ht.mono ?_
  intro k other ho
  exact PointsInner.get_of_evictIfOver ho

theorem updateRow {ca : Call P}
    {now : Int} (hc : s.clients[client]? = some (.ready id ca))
    (ho : s.Ordered exact (.update client now)) :
    Inv f exact (s.updateRow f client id ca now) := by
  have hold := not_submitting hc fun _ h => nomatch h
  cases ca with
  | lookup => exact h.endClient hold
  | award action options config c =>
    simp only [System.updateRow]
    split
    case isTrue =>
      exact h.writeRow rfl hold (h.tracked.award rfl
        (ho id action options config c hc))
    case isFalse => exact h.endClient hold
  | adjust delta config =>
    simp only [System.updateRow]
    split
    case h_1 => exact h.endClient hold
    case h_2 viewer hv =>
      split
      case isTrue =>
        exact h.writeRow rfl hold (h.tracked.adjust hv rfl)
      case isFalse => exact h.endClient hold

theorem promote {row : ViewerState P}
    (ho : s.inner.viewers.get id = none →
      s.durable.viewers.get id = some row
        ∧ ∀ op ∈ s.outstanding ++ s.unsubmitted, op.touches id = false) :
    Inv f exact { s with inner := s.inner.promote id row } := by
  refine ⟨h.allocated, ?_⟩
  show Tracked f exact (s.inner.promote id row).viewers
    (s.outstanding ++ s.unsubmitted) s.durable.viewers
  unfold PointsInner.promote
  split
  case h_1 => exact h.tracked
  case h_2 habs =>
    obtain ⟨hs, hq⟩ := ho habs
    have hid : row.uniqueId = id := Rows.uniqueId_of_get hs
    subst hid
    exact h.tracked.promote hs hq

theorem promoteRow {call : Call P}
    {row : Option (ViewerState P)} {la : Nat} {se : Bool}
    (hcli : s.clients[client]? = some (.loaded id call row la se))
    (hord : s.Ordered exact (.promote client)) :
    Inv f exact (s.promoteRow client id call row) := by
  have hold := not_submitting hcli fun _ h => nomatch h
  cases row with
  | none =>
    cases call with
    | lookup => exact h.endClient hold
    | award => exact h.setClient (fun _ h => nomatch h) hold
    | adjust => exact h.setClient (fun _ h => nomatch h) hold
  | some row =>
    have hp := h.promote (hord id call row la se hcli)
    cases call with
    | award => exact hp.setClient (fun _ h => nomatch h) hold
    | adjust => exact hp.setClient (fun _ h => nomatch h) hold
    | lookup =>
      refine hp.frame (hp.allocated.erase hold) ?_ rfl rfl rfl rfl
      intro k other ho
      exact PointsInner.get_of_evictCold ho

theorem resetRows {ui : Option String}
    {r : Nat}
    (hc : s.clients[client]? = some (.resetting ui r))
    (ho : s.Ordered exact (.reset client)) :
    Inv f exact (s.resetRows f client ui r) := by
  have hold := not_submitting hc fun _ h => nomatch h
  refine ⟨(h.allocated.erase hold).skip, ?_⟩
  show Tracked f exact _ ((s.phase.batch ++ (s.queue ++ [_]))
    ++ s.unsubmitted) _
  rw [← append_assoc s.phase.batch]
  exact h.tracked.reset (fun _ _ hr => System.get_of_resetRows hr)
    (ho ui r hc)

theorem submitOp {op : PointsWriteOp P}
    (hcli : s.clients[client]? = some (.submitting op))
    (hord : s.Ordered exact (.submit client)) :
    Inv f exact (s.submitOp client op) := by
  obtain ⟨older, newer, hs, hol, hr⟩ := h.allocated.split hcli
  refine ⟨h.allocated.submit hcli, ?_⟩
  have ht := h.tracked
  rw [hs] at ht
  have hmv := ht.submit fun other ho id htc =>
    hord op hcli other (hs ▸ mem_append_left _ ho) (hol other ho) id htc
  show Tracked f exact s.inner.viewers
    ((s.phase.batch ++ (s.queue ++ [op]))
      ++ s.unsubmitted.filter fun other => other.seq != op.seq) _
  rw [hr, ← append_assoc s.phase.batch]
  exact hmv

theorem next {e : Event P}
    (hord : s.Ordered exact e)
    (hs : s.next f e = some t) : Inv f exact t := by
  cases e with
  | call client ui call =>
    simp only [System.next] at hs
    split at hs
    case h_1 hcli =>
      cases hs
      exact h.beginCall ui call (not_submitting_of_none hcli)
    case h_2 => cases hs
  | mark client =>
    simp only [System.next] at hs
    split at hs
    case h_1 hcli =>
      cases hs
      exact h.setClient (fun _ h => nomatch h)
        (not_submitting hcli fun _ h => nomatch h)
    case h_2 => cases hs
  | load client timedOut =>
    simp only [System.next] at hs
    split at hs
    case h_1 hcli =>
      split at hs
      case isTrue =>
        cases hs
        exact h.setClient (fun _ h => nomatch h)
          (not_submitting hcli fun _ h => nomatch h)
      case isFalse => cases hs
    case h_2 => cases hs
  | promote client =>
    simp only [System.next] at hs
    split at hs
    case h_1 hcli =>
      cases hs
      exact h.promoteRow hcli hord
    case h_2 => cases hs
  | update client now =>
    simp only [System.next] at hs
    split at hs
    case h_1 hcli =>
      cases hs
      exact h.updateRow hcli hord
    case h_2 => cases hs
  | submit client =>
    simp only [System.next] at hs
    split at hs
    case h_1 hcli =>
      cases hs
      exact h.submitOp hcli hord
    case h_2 => cases hs
  | admitReset client ui =>
    simp only [System.next] at hs
    split at hs
    case h_1 hcli =>
      split at hs
      case isTrue =>
        cases hs
        exact h.setClient (fun _ h => nomatch h) (not_submitting_of_none hcli)
      case isFalse =>
        cases hs
        exact h
    case h_2 => cases hs
  | reset client =>
    simp only [System.next] at hs
    split at hs
    case h_1 hcli =>
      cases hs
      exact h.resetRows hcli hord
    case h_2 => cases hs
  | take =>
    simp only [System.next] at hs
    split at hs
    case h_1 hp hq =>
      cases hs
      exact h.frame h.allocated (fun _ _ hrow => hrow)
        (System.outstanding_take hp hq) rfl rfl rfl
    case h_2 => cases hs
  | commit now =>
    simp only [System.next] at hs
    split at hs
    case h_1 batch hp =>
      cases hs
      refine ⟨h.allocated, ?_⟩
      have ht := h.tracked
      unfold System.outstanding at ht
      have hb : s.phase.batch = batch := by rw [hp]; rfl
      rw [hb, append_assoc] at ht
      exact ht.commit fun op hop => hord op (hb ▸ hop)
    case h_2 => cases hs
  | resolve =>
    simp only [System.next] at hs
    split at hs
    case h_1 maxSeq hp =>
      cases hs
      refine h.frame h.allocated (fun _ _ hrow => hrow) ?_ rfl rfl rfl
      unfold System.outstanding
      rw [hp]
      rfl
    case h_2 => cases hs
  | resize capacity =>
    cases hs
    refine h.frame h.allocated ?_ rfl rfl rfl rfl
    intro k row hrow
    have hc := PointsInner.get_of_evictCold hrow
    exact hc

end

end Inv

-- ==== the run

/-- In every run whose steps meet the condition, once every write has
reached the store each cached row is the stored one: up to the time of
the last adjustment, and exactly if the writer's clock showed it. -/
theorem drained_rows_agree {durable : Durable P} {warm : List String}
    {capacity : Nat}
    (hrun : Run (fun s event t => s.next f event = some t)
      (System.Ordered exact) (.start durable warm capacity) s)
    (hdrained : s.Drained) (id : String) (row : ViewerState P)
    (hrow : s.inner.viewers.get id = some row) :
    (s.durable.viewers.get id).map (view exact) = some (view exact row) := by
  have hinv : Inv f exact s := hrun.invariant (Inv.start ..)
    fun _ _ _ hinv hord hs => hinv.next hord hs
  have hn : s.unsubmitted = [] := by
    rw [eq_nil_iff_forall_not_mem]
    intro op hop
    obtain ⟨client, hcli⟩ := (hinv.allocated.held op).1 hop
    exact hdrained.clients client op hcli
  have ht := hinv.tracked id row hrow
  unfold System.outstanding at ht
  rw [hn, hdrained.queue, hdrained.batch] at ht
  exact ht

/-- Whole amounts, on which the float operations are exact. -/
def wholeAmounts : Floats Int where
  ofNat n := n
  add := (· + ·)
  mul := (· * ·)
  div := (· / ·)
  max := max
  round := id
  lt a b := decide (a < b)
  isZero a := a == 0
  isFinite _ := true
  floorU32 := Int.toNat
  roundI64 := id

def demoConfig : PointsConfig Int where
  currencyName := "points"
  pointsPerCoin := 1
  pointsPerCoinEnabled := true
  pointsPerShare := 5
  pointsPerShareEnabled := true
  pointsPerChat := 1
  pointsPerChatEnabled := true
  pointsPerLike := 1
  pointsPerLikeEnabled := true
  pointsPerFollow := 5
  pointsPerFollowEnabled := true
  pointsPerJoin := 1
  pointsPerJoinEnabled := false
  subBonusMultiplier := 0
  pointsPerLevel := 100

/-- A store with one viewer. -/
def demoStore : Durable Int where
  viewers := Rows.empty.put
    { newViewerState wholeAmounts "alice" {} 1000 with points := 10 }
  transactions := []

def shareAward (now : Int) : Call Int := .award .share {} demoConfig now

/-- Two shares of one viewer. Both clients have updated the cached row;
the second one queues its write first, and the older snapshot is what
the store keeps. -/
theorem older_snapshot_stored :
    ∃ s, runActions (System.next wholeAmounts)
        (.start demoStore ["alice"] 100)
        [.call 1 "@alice" (shareAward 1001),
          .call 2 "@alice" (shareAward 1002), .update 1 1001,
          .update 2 1002, .submit 2, .submit 1, .take, .commit 1003,
          .resolve] = some s
      ∧ s.Drained
      ∧ (s.inner.viewers.get "alice").map ViewerState.points = some 20
      ∧ (s.durable.viewers.get "alice").map ViewerState.points = some 15 :=
  ⟨_, rfl, ⟨rfl, rfl, fun _ _ => show none ≠ some _ from nofun⟩, rfl, rfl⟩

/-- One share, queued and written in order. -/
theorem single_award_stored :
    ∃ s, runActions (System.next wholeAmounts)
        (.start demoStore ["alice"] 100)
        [.call 1 "@alice" (shareAward 1001), .update 1 1001, .submit 1,
          .take, .commit 1003] = some s
      ∧ (s.inner.viewers.get "alice").map ViewerState.points = some 15
      ∧ (s.durable.viewers.get "alice").map (view true)
        = (s.inner.viewers.get "alice").map (view true) := by
  refine ⟨_, rfl, rfl, @drained_rows_agree Int wholeAmounts true _
    demoStore ["alice"] 100 (.tail (.commit 1003) (.tail .take (.tail
      (.submit 1) (.tail (.update 1 1001) (.tail
        (.call 1 "@alice" (shareAward 1001)) .refl trivial rfl)
        ?update rfl) ?submit rfl) trivial rfl) ?commit rfl)
    ⟨rfl, rfl, fun _ _ => show none ≠ some _ from nofun⟩ "alice" _ rfl⟩
  case update =>
    intro id action options config called hc ha
    injection Option.some.inj hc with hid _
    subst hid
    exact absurd ha (some_ne_none _)
  case submit =>
    intro op hc other ho hlt
    injection Option.some.inj hc with hop
    rw [mem_singleton.1 ho, ← hop] at hlt
    exact absurd hlt (Nat.lt_irrefl _)
  case commit =>
    intro op hop het seq id points level awards time heq
    rw [mem_singleton.1 hop] at heq
    cases heq

end TikTools.Points
