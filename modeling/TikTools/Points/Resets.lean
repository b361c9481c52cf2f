/-
Resets of the points cache: no amount awarded before a reset comes back.

Every amount a row is made of carries a number: its sequence number, or
0 for what the store held at the start. A reset takes a number too, so
an amount came before the reset exactly if its number is smaller. The
invariant says where older amounts may still be: in a stored row, or in
a write on its way, as long as a reset of that viewer is queued behind
them; and in a row some client has read and not yet promoted. They are
never in the cache, and never in a write that is still to be queued.

`ResetSafe` is the condition under which the last two stay true: a reset
runs while no client holds an allocated write of a viewer it resets, and
a row is promoted only if it was read after every reset of its viewer
had reached the store.
-/
import TikTools.Points.Durability

namespace TikTools.Points

open TikTools.Lib List Table

variable {P : Type} {f : Floats P}

-- ==== vocabulary

/-- The amounts an operation writes. -/
def PointsWriteOp.awards : PointsWriteOp P → List Nat
  | save _ viewer .. => viewer.awards
  | adjust _ _ _ _ awards _ => awards
  | reset .. => []

/-- No amount is older than the last reset. -/
def Newer (horizon : Nat) (awards : List Nat) : Prop :=
  ∀ n ∈ awards, horizon ≤ n

/-- No amount is older than the last reset, or a reset of the viewer
comes later. -/
def Cleared (horizon : Nat) (id : String) (awards : List Nat)
    (later : List (PointsWriteOp P)) : Prop :=
  Newer horizon awards ∨ ∃ op ∈ later, op.resets id = true

/-- Every write of the viewer is cleared by what comes after it. -/
def AllCleared (horizon : Nat) (id : String) :
    List (PointsWriteOp P) → Prop
  | [] => True
  | op :: later =>
    (op.touches id = true → Cleared horizon id op.awards later)
      ∧ AllCleared horizon id later

/-- What a client may hold. -/
def ClientCleared (lastReset : String → Nat) (nextSeq : Nat) :
    Client P → Prop
  | .submitting op => ∀ id, op.touches id = true →
      Newer (lastReset id) op.awards
  | .loaded id _ (some row) loadedAt settled => loadedAt ≤ nextSeq
      ∧ (settled = true → lastReset id < loadedAt →
        Newer (lastReset id) row.awards)
  | _ => True

structure ResetInv (s : System P) : Prop where
  below : ∀ id, s.lastReset id < s.nextSeq
  cached : ∀ id row, s.inner.viewers.get id = some row →
    Newer (s.lastReset id) row.awards
  clients : ∀ (client : Nat) c, s.clients[client]? = some c →
    ClientCleared s.lastReset s.nextSeq c
  stored : ∀ id row, s.durable.viewers.get id = some row →
    Cleared (s.lastReset id) id row.awards s.outstanding
  queued : ∀ id, AllCleared (s.lastReset id) id s.outstanding

/-- The condition on a step: a reset overtakes no allocated write of a
viewer it resets, and a promoted row was read after every reset of its
viewer had reached the store. -/
def System.ResetSafe (s : System P) : Event P → Prop
  | .reset client => ∀ uniqueId resolved,
      s.clients[client]? = some (.resetting uniqueId resolved) →
      ∀ (other : Nat) op, s.clients[other]? = some (.submitting op) →
        ∀ id, (PointsWriteOp.reset s.nextSeq uniqueId
          : PointsWriteOp P).resets id = true → op.touches id = false
  | .promote client => ∀ id call row loadedAt settled,
      s.clients[client]? = some (.loaded id call (some row) loadedAt
        settled) →
      s.inner.viewers.get id = none →
        settled = true ∧ s.lastReset id < loadedAt
  | _ => True

/-- A store at the start: what its rows hold was awarded before. -/
def Durable.opened (durable : Durable P) : Durable P :=
  { durable with viewers := durable.viewers.opened }

-- ==== cleared lists

variable {horizon : Nat} {id : String} {awards : List Nat}
variable {ops later : List (PointsWriteOp P)} {op : PointsWriteOp P}

theorem touches_of_resets (h : op.resets id = true) :
    op.touches id = true := by
  cases op with
  | save => cases h
  | adjust => cases h
  | reset seq ui => cases ui <;> exact h

theorem Cleared.append (h : Cleared horizon id awards ops)
    (later : List (PointsWriteOp P)) :
    Cleared horizon id awards (ops ++ later) := by
  rcases h with h | ⟨op, hop, hr⟩
  · exact .inl h
  · exact .inr ⟨op, mem_append_left _ hop, hr⟩

theorem Cleared.of_reset (hr : op.resets id = true) :
    Cleared horizon id awards (ops ++ [op]) :=
  .inr ⟨op, mem_append_right _ mem_cons_self, hr⟩

theorem AllCleared.push (h : AllCleared horizon id ops)
    (hop : op.touches id = true → Newer horizon op.awards) :
    AllCleared horizon id (ops ++ [op]) := by
  induction ops with
  | nil => exact ⟨fun ht => .inl (hop ht), trivial⟩
  | cons first ops ih =>
    exact ⟨fun ht => (h.1 ht).append [op], ih h.2⟩

theorem AllCleared.of_reset (hr : op.resets id = true) :
    AllCleared horizon id (ops ++ [op]) := by
  induction ops with
  | nil =>
    refine ⟨fun _ => .inl ?_, trivial⟩
    cases op with
    | save => cases hr
    | adjust => cases hr
    | reset => exact fun n hn => nomatch hn
  | cons first ops ih => exact ⟨fun _ => .of_reset hr, ih⟩

theorem AllCleared.drop {b : List (PointsWriteOp P)}
    (h : AllCleared horizon id (b ++ later)) :
    AllCleared horizon id later := by
  induction b with
  | nil => exact h
  | cons op b ih => exact ih h.2

variable {c : Client P} {now : Int}

theorem cleared_opOn {x : Option (ViewerState P)}
    (hqud : op.touches id = true → Cleared horizon id op.awards later)
    (hs : ∀ row ∈ x, Cleared horizon id row.awards (op :: later)) :
    ∀ row ∈ opOn f now id op x, Cleared horizon id row.awards later := by
  intro row hrow
  cases ht : op.touches id with
  | false =>
    rw [opOn_untouched ht] at hrow
    rcases hs row hrow with hnew | ⟨o, ho, hr⟩
    · exact .inl hnew
    · rcases mem_cons.1 ho with e | hl
      · subst e
        rw [touches_of_resets hr] at ht
        cases ht
      · exact .inr ⟨o, hl, hr⟩
  | true =>
    unfold opOn at hrow
    rw [if_pos ht] at hrow
    have hc := hqud ht
    cases op with
    | save seq viewer reason awarded =>
      cases hrow
      cases x <;> exact hc
    | adjust seq ui points level awards time =>
      obtain ⟨old, _, rfl⟩ := Option.map_eq_some_iff.1 hrow
      exact hc
    | reset seq ui =>
      obtain ⟨old, _, rfl⟩ := Option.map_eq_some_iff.1 hrow
      exact .inl fun n hn => nomatch hn

theorem cleared_batch {batch : List (PointsWriteOp P)} :
    ∀ {x : Option (ViewerState P)},
      AllCleared horizon id (batch ++ later) →
      (∀ row ∈ x, Cleared horizon id row.awards (batch ++ later)) →
      ∀ row ∈ batch.foldl (fun row op => opOn f now id op row) x,
        Cleared horizon id row.awards later := by
  induction batch with
  | nil => exact fun _ h => h
  | cons op batch ih =>
    intro x hqud hs
    exact ih hqud.2 (cleared_opOn hqud.1 hs)

-- ==== preserving steps

variable {s t : System P} {client : Nat}

theorem awardRow_newer {a : PointAction} {o : AwardOptions P}
    {co : PointsConfig P} {seq : Nat}
    {r : Option (ViewerState P)} (hseq : horizon ≤ seq)
    (h : ∀ row ∈ r, Newer horizon row.awards) :
    Newer horizon (awardRow f id a o co now seq r).1.awards := by
  intro n hn
  rcases mem_cons.1 hn with hn | hn
  · omega
  · cases r with
    | none => cases hn
    | some row => exact h row rfl n hn

theorem ClientCleared.succ {lr : String → Nat} {ns : Nat}
    (h : ClientCleared lr ns c) :
    ClientCleared lr (ns + 1) c := by
  cases c with
  | loaded id call row loadedAt settled =>
    cases row with
    | none => trivial
    | some row => exact ⟨Nat.le_succ_of_le h.1, h.2⟩
  | submitting => exact h
  | missed => trivial
  | waiting => trivial
  | ready => trivial
  | resetting => trivial

namespace ResetInv

theorem start (d : Durable P) (w : List String)
    (ca : Nat) : ResetInv (System.start d w ca) := by
  refine ⟨fun _ => Nat.zero_lt_one, ?_, ?_, ?_, fun _ => trivial⟩
  · exact fun _ _ _ n _ => Nat.zero_le n
  · intro client c hc
    simp [System.start] at hc
  · exact fun _ _ _ => .inl fun n _ => Nat.zero_le n

section

variable (h : ResetInv s)
include h

/-- A step that touches neither the writes nor the store, and caches
nothing new. -/
theorem frame (hc : ∀ (k : Nat) c, t.clients[k]? = some c →
      ClientCleared s.lastReset s.nextSeq c)
    (hv : ∀ id row, t.inner.viewers.get id = some row →
      Newer (s.lastReset id) row.awards)
    (ho : t.outstanding = s.outstanding)
    (hr : t.lastReset = s.lastReset) (hs : t.nextSeq = s.nextSeq)
    (hd : t.durable = s.durable) : ResetInv t := by
  refine ⟨?_, ?_, ?_, ?_, ?_⟩
  · rw [hr, hs]
    exact h.below
  · rw [hr]
    exact hv
  · rw [hr, hs]
    exact hc
  · rw [hr, hd, ho]
    exact h.stored
  · rw [hr, ho]
    exact h.queued

theorem clients_insert (hc : ClientCleared s.lastReset s.nextSeq c) :
    ∀ (k : Nat) d, (s.clients.insert client c)[k]? = some d →
      ClientCleared s.lastReset s.nextSeq d := by
  intro k d hd
  rw [get_insert] at hd
  split at hd
  · cases hd
    exact hc
  · exact h.clients k d hd

theorem clients_erase :
    ∀ (k : Nat) d, (s.clients.erase client)[k]? = some d →
      ClientCleared s.lastReset s.nextSeq d := by
  intro k d hd
  rw [get_erase] at hd
  split at hd
  · cases hd
  · exact h.clients k d hd

theorem setClient (hc : ClientCleared s.lastReset s.nextSeq c) :
    ResetInv (s.setClient client c) :=
  h.frame (h.clients_insert hc) h.cached rfl rfl rfl rfl

theorem endClient : ResetInv (s.endClient client) :=
  h.frame h.clients_erase h.cached rfl rfl rfl rfl

theorem beginCall (ui : String) (call : Call P) :
    ResetInv (s.beginCall client ui call) := by
  obtain ⟨inner, hv, hcs⟩ := s.beginCall_cases client ui call
  have hcn : ResetInv { s with inner } := by
    refine h.frame h.clients ?_ rfl rfl rfl rfl
    rw [hv]
    exact h.cached
  rcases hcs with heq | ⟨id, c, hc, heq⟩
  · rw [heq]
    exact hcn
  · rw [heq]
    refine hcn.setClient ?_
    rcases hc with rfl | rfl <;> exact trivial

theorem loadRow (id : String) (ca : Call P) :
    ResetInv (s.loadRow client id ca) := by
  refine h.setClient ?_
  cases hrow : s.durable.viewers.get id with
  | none => trivial
  | some row =>
    refine ⟨Nat.le_refl _, ?_⟩
    intro hs _
    rcases h.stored id row hrow with hn | ⟨op, hop, hr⟩
    · exact hn
    · rw [Bool.not_eq_true', any_eq_false] at hs
      exact absurd hr (hs op hop)

theorem promote {row : ViewerState P}
    (hr : s.inner.viewers.get id = none → Newer (s.lastReset id) row.awards) :
    ResetInv { s with inner := s.inner.promote id row } := by
  refine h.frame h.clients ?_ rfl rfl rfl rfl
  intro k o ho
  unfold PointsInner.promote at ho
  split at ho
  case h_1 => exact h.cached k o ho
  case h_2 habs =>
    rw [Rows.get_put] at ho
    split at ho
    case isTrue e =>
      cases ho
      rw [← e]
      exact hr habs
    case isFalse => exact h.cached k o ho

theorem promoteRow {call : Call P}
    {row : Option (ViewerState P)} {la : Nat} {se : Bool}
    (hcli : s.clients[client]? = some (.loaded id call row la se))
    (hs : s.ResetSafe (.promote client)) :
    ResetInv (s.promoteRow client id call row) := by
  cases row with
  | none =>
    cases call with
    | lookup => exact h.endClient
    | award => exact h.setClient trivial
    | adjust => exact h.setClient trivial
  | some row =>
    have hp : ResetInv
        { s with inner := s.inner.promote id row } := by
      refine h.promote fun habs => ?_
      obtain ⟨hst, hlt⟩ := hs id call row la se hcli habs
      exact (h.clients client _ hcli).2 hst hlt
    cases call with
    | award => exact hp.setClient trivial
    | adjust => exact hp.setClient trivial
    | lookup =>
      refine hp.frame hp.clients_erase ?_ rfl rfl rfl rfl
      intro k other ho
      have hc := PointsInner.get_of_evictCold ho
      exact hp.cached k other hc

theorem writeRow {row : ViewerState P}
    {op : PointsWriteOp P} (hid : row.uniqueId = id)
    (ht : ∀ k, op.touches k = true → id = k)
    (ha : op.awards = row.awards)
    (hrow : Newer (s.lastReset id) row.awards) :
    ResetInv (s.writeRow client id row op) := by
  refine ⟨fun k => Nat.lt_succ_of_lt (h.below k), ?_, ?_, h.stored, h.queued⟩
  · intro k other ho
    have hcc := PointsInner.get_of_evictIfOver ho
    have hput : (s.inner.viewers.put row).get k = some other := hcc
    rw [Rows.get_put, hid] at hput
    split at hput
    case isTrue e =>
      cases hput
      rw [← e]
      exact hrow
    case isFalse => exact h.cached k other hput
  · intro k c hc
    refine (h.clients_insert ?_ k c hc).succ
    intro k hk
    rw [ha, ← ht k hk]
    exact hrow

theorem updateRow {cl : Call P} :
    ResetInv (s.updateRow f client id cl now) := by
  cases cl with
  | lookup => exact h.endClient
  | award a o co ca =>
    simp only [System.updateRow]
    split
    case isFalse => exact h.endClient
    case isTrue =>
      have hid := @awardRow_uniqueId P f id a o co ca
        s.nextSeq (s.inner.viewers.get id)
        fun row hr => Rows.uniqueId_of_get hr
      refine h.writeRow hid ?_ rfl
        (awardRow_newer (Nat.le_of_lt (h.below id)) (h.cached id))
      intro k hk
      rw [← of_decide_eq_true hk]
      exact hid.symm
  | adjust delta co =>
    simp only [System.updateRow]
    split
    case h_1 => exact h.endClient
    case h_2 viewer hvwr =>
      split
      case isFalse => exact h.endClient
      case isTrue =>
        have hid : viewer.uniqueId = id := Rows.uniqueId_of_get hvwr
        refine h.writeRow hid (fun k hk => of_decide_eq_true hk) rfl ?_
        intro n hn
        have hlt := h.below id
        rcases mem_cons.1 hn with hn | hn
        · omega
        · exact h.cached id viewer hvwr n hn

theorem submitOp {op : PointsWriteOp P}
    (hc : s.clients[client]? = some (.submitting op)) :
    ResetInv (s.submitOp client op) := by
  have ho : (s.submitOp client op).outstanding
      = s.outstanding ++ [op] := (append_assoc ..).symm
  refine ⟨h.below, h.cached, h.clients_erase, ?_, ?_⟩
  · intro id row hr
    rw [ho]
    exact (h.stored id row hr).append [op]
  · intro id
    rw [ho]
    exact (h.queued id).push (h.clients client _ hc id)

theorem resetRows {ui : Option String}
    {r : Nat}
    (hcli : s.clients[client]? = some (.resetting ui r))
    (hsf : s.ResetSafe (.reset client)) :
    ResetInv (s.resetRows f client ui r) := by
  have hh := hsf ui r hcli
  generalize hop : (PointsWriteOp.reset s.nextSeq ui
    : PointsWriteOp P) = op at hh
  have ha : ∀ id, (s.resetRows f client ui r).lastReset id
      = if op.resets id then s.nextSeq else s.lastReset id := by
    intro id
    rw [← hop]
    rfl
  have hs : ∀ id, op.touches id = op.resets id := by
    intro id
    rw [← hop]
    cases ui <;> rfl
  have ho : (s.resetRows f client ui r).outstanding
      = s.outstanding ++ [op] := by
    rw [← hop]
    exact (append_assoc ..).symm
  refine ⟨?_, ?_, ?_, ?_, ?_⟩
  · intro id
    rw [ha]
    show _ < s.nextSeq + 1
    have hlt := h.below id
    split <;> omega
  · intro id row hrow
    have hold := System.get_of_resetRows hrow
    rw [hop, hs] at hold
    rw [ha]
    split at hold
    case isTrue =>
      obtain ⟨old, _, rfl⟩ := Option.map_eq_some_iff.1 hold
      exact fun n hn => nomatch hn
    case isFalse hr =>
      rw [if_neg hr]
      exact h.cached id row hold
  · intro k c hc
    have hc : (s.clients.erase client)[k]? = some c := hc
    have hcl := h.clients_erase k c hc
    refine ClientCleared.succ ?_
    cases c with
    | submitting held =>
      intro id ht
      rw [ha]
      cases hr : op.resets id with
      | true =>
        rw [get_erase] at hc
        split at hc
        · cases hc
        · rw [hh k held hc id hr] at ht
          cases ht
      | false => exact hcl id ht
    | loaded id call row loadedAt settled =>
      cases row with
      | none => trivial
      | some row =>
        refine ⟨hcl.1, ?_⟩
        rw [ha]
        split
        case isTrue =>
          intro _ hlt
          have hle := hcl.1
          omega
        case isFalse => exact hcl.2
    | missed => trivial
    | waiting => trivial
    | ready => trivial
    | resetting => trivial
  · intro id row hrow
    rw [ho, ha]
    cases hr : op.resets id with
    | true => exact .of_reset hr
    | false => exact (h.stored id row hrow).append [op]
  · intro id
    rw [ho, ha]
    cases hr : op.resets id with
    | true => exact .of_reset hr
    | false =>
      refine (h.queued id).push fun ht => ?_
      rw [hs, hr] at ht
      cases ht

theorem next {e : Event P}
    (hsf : s.ResetSafe e) (hs : s.next f e = some t) :
    ResetInv t := by
  cases e with
  | call client ui call =>
    simp only [System.next] at hs
    split at hs
    case h_1 =>
      cases hs
      exact h.beginCall ui call
    case h_2 => cases hs
  | mark client =>
    simp only [System.next] at hs
    split at hs
    case h_1 =>
      cases hs
      exact h.setClient trivial
    case h_2 => cases hs
  | load client timedOut =>
    simp only [System.next] at hs
    split at hs
    case h_1 =>
      split at hs
      case isTrue =>
        cases hs
        exact h.loadRow _ _
      case isFalse => cases hs
    case h_2 => cases hs
  | promote client =>
    simp only [System.next] at hs
    split at hs
    case h_1 hcli =>
      cases hs
      exact h.promoteRow hcli hsf
    case h_2 => cases hs
  | update client now =>
    simp only [System.next] at hs
    split at hs
    case h_1 =>
      cases hs
      exact h.updateRow
    case h_2 => cases hs
  | submit client =>
    simp only [System.next] at hs
    split at hs
    case h_1 hcli =>
      cases hs
      exact h.submitOp hcli
    case h_2 => cases hs
  | admitReset client ui =>
    simp only [System.next] at hs
    split at hs
    case h_1 =>
      split at hs
      case isTrue =>
        cases hs
        exact h.setClient trivial
      case isFalse =>
        cases hs
        exact h
    case h_2 => cases hs
  | reset client =>
    simp only [System.next] at hs
    split at hs
    case h_1 hcli =>
      cases hs
      exact h.resetRows hcli hsf
    case h_2 => cases hs
  | take =>
    simp only [System.next] at hs
    split at hs
    case h_1 hp hq =>
      cases hs
      exact h.frame h.clients h.cached
        (System.outstanding_take hp hq) rfl rfl rfl
    case h_2 => cases hs
  | commit now =>
    simp only [System.next] at hs
    split at hs
    case h_1 batch hp =>
      cases hs
      have hb : s.outstanding = batch ++ s.queue := by
        unfold System.outstanding
        rw [hp]
        rfl
      have hqud := h.queued
      have hst := h.stored
      rw [hb] at hqud hst
      refine ⟨h.below, h.cached, h.clients, ?_, ?_⟩
      · intro id row hrow
        have hget := @get_applyBatch P f now id batch s.durable
        exact cleared_batch (hqud id) (hst id) row (hget ▸ hrow)
      · exact fun id => (hqud id).drop
    case h_2 => cases hs
  | resolve =>
    simp only [System.next] at hs
    split at hs
    case h_1 maxSeq hp =>
      cases hs
      refine h.frame h.clients h.cached ?_ rfl rfl rfl
      unfold System.outstanding
      rw [hp]
      rfl
    case h_2 => cases hs
  | resize capacity =>
    cases hs
    refine h.frame h.clients ?_ rfl rfl rfl rfl
    intro k row hrow
    have hc := PointsInner.get_of_evictCold hrow
    exact h.cached k row hc

end

end ResetInv

-- ==== the run

/-- In every run whose steps meet the condition, once the queue is
drained no row, cached or stored, holds an amount older than the last
reset of its viewer; a cached row never does. -/
theorem no_amount_from_before_reset {durable : Durable P}
    {warm : List String} {capacity : Nat}
    (hrun : Run (fun s event t => s.next f event = some t)
      System.ResetSafe (.start durable.opened warm capacity) s)
    (id : String) :
    (∀ row ∈ s.inner.viewers.get id, Newer (s.lastReset id) row.awards)
      ∧ (s.queue = [] → s.phase.batch = [] →
        ∀ row ∈ s.durable.viewers.get id,
          Newer (s.lastReset id) row.awards) := by
  have hinv : ResetInv s := hrun.invariant (ResetInv.start ..)
    fun _ _ _ hinv hs hst => hinv.next hs hst
  refine ⟨hinv.cached id, ?_⟩
  intro hq hb row hrow
  have hc := hinv.stored id row hrow
  unfold System.outstanding at hc
  rw [hq, hb] at hc
  rcases hc with hnew | ⟨op, hop, _⟩
  · exact hnew
  · cases hop

/-- A reset of an uncached viewer leaves no marker. The share that
follows reads the row the reset has not reached yet, and the amount from
before the reset is back in the cache and in the store. -/
theorem cold_reset_undone :
    ∃ s, runActions (System.next wholeAmounts)
        (.start demoStore.opened [] 100)
        [.admitReset 1 (some "alice"), .reset 1,
          .call 2 "@alice" (shareAward 1001), .mark 2, .load 2 false,
          .promote 2, .update 2 1001, .submit 2, .take, .commit 1002,
          .resolve] = some s
      ∧ s.queue.length = 0 ∧ s.phase.batch.length = 0
      ∧ s.lastReset "alice" = 1
      ∧ (s.inner.viewers.get "alice").map
          (fun row => (row.points, row.awards)) = some (15, [2, 0])
      ∧ (s.durable.viewers.get "alice").map
          (fun row => (row.points, row.awards)) = some (15, [2, 0]) :=
  ⟨_, rfl, rfl, rfl, rfl, rfl, rfl⟩

/-- A reset of a cached viewer, and a share after it. -/
theorem warm_reset_kept :
    ∃ s, runActions (System.next wholeAmounts)
        (.start demoStore.opened ["alice"] 100)
        [.admitReset 1 (some "alice"), .reset 1,
          .call 2 "@alice" (shareAward 1001), .update 2 1001,
          .submit 2, .take, .commit 1002] = some s
      ∧ (s.durable.viewers.get "alice").map ViewerState.points = some 5
      ∧ ∀ row ∈ s.durable.viewers.get "alice", Newer 1 row.awards := by
  refine ⟨_, rfl, rfl, (@no_amount_from_before_reset Int wholeAmounts _
    demoStore ["alice"] 100 (.tail (.commit 1002) (.tail .take (.tail
      (.submit 2) (.tail (.update 2 1001) (.tail
        (.call 2 "@alice" (shareAward 1001)) (.tail (.reset 1) (.tail
          (.admitReset 1 (some "alice")) .refl trivial rfl) ?reset rfl)
        trivial rfl) trivial rfl) trivial rfl) trivial rfl) trivial rfl)
    "alice").2 rfl rfl⟩
  intro uniqueId resolved _ other op ho
  have hc : ((∅ : Table Nat (Client Int)).insert 1
      (.resetting (some "alice") 0))[other]? = some (.submitting op) :=
    ho
  rw [get_insert] at hc
  split at hc
  · cases hc
  · simp at hc

end TikTools.Points
