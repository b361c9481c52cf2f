/-
The accounting of LIVE events holds in every interleaving.

`Ledger` is the invariant: the counters agree with the queue, with the
worker's hands and with the fates of the events received so far. Each
thing an action does to an event at hand has one lemma; the step lemma
goes through the actions once and the run lemmas follow from it.

What the invariant gives is the conservation of accepted events in every
state, an empty pipeline once the shutdown has returned, and a counter
for every received event as long as the pump is not aborted while it
waits (`ingress_accounting`).
-/
import TikTools.Live.Ingress

namespace TikTools.Live

open TikTools.Lib List

variable {E : Type}

/-- The events a pump is admitting. -/
def Pump.held : Pump E → Nat
  | .waiting _ => 1
  | _ => 0

/-- The items a worker is processing. -/
def Worker.held : Worker E → Nat
  | .processing _ => 1
  | _ => 0

/-- The shutdown is past the pump. -/
def Shutdown.pastPump : Shutdown → Bool
  | .running | .joiningPump => false
  | _ => true

namespace Ingress

-- ==== what is claimed

/-- Accepted events are conserved. -/
def Conserved (s : Ingress E) : Prop :=
  s.stats.accepted = s.stats.processed + s.stats.stale
    + s.stats.cancelled + s.stats.abandoned + s.stats.queued
    + s.stats.inFlight

/-- Every received event is counted once at admission, but for the one
the pump is admitting and for those that found the worker gone: the
counters count the fates of the events, and add up to what came in. -/
structure EventsCounted (s : Ingress E) : Prop where
  accepted : s.stats.accepted = s.fates.count .accepted
  admissionCancelled :
    s.stats.admissionCancelled = s.fates.count .admissionCancelled
  droppedData : s.stats.droppedData = s.fates.count .droppedData
  droppedCritical : s.stats.droppedCritical = s.fates.count .droppedCritical
  gone : s.worker ≠ .exited → s.fates.count .workerGone = 0
  received : s.stats.received = s.stats.accepted
    + s.stats.admissionCancelled + s.stats.droppedData
    + s.stats.droppedCritical + s.fates.count .workerGone + s.pump.held

/-- Nothing is left in the pipeline. -/
def Settled (s : Ingress E) : Prop :=
  s.stats.queued = 0 ∧ s.stats.inFlight = 0 ∧ outstanding s.stats = 0

-- ==== the invariant

/-- The books, with `held` received events not yet decided. -/
structure Ledger (held : Nat) (s : Ingress E) : Prop where
  queued : s.stats.queued = s.queue.length
  inFlight : s.stats.inFlight = s.worker.held
  conserved : s.Conserved
  received : s.stats.received = s.fates.length + held
  accepted : s.stats.accepted = s.fates.count .accepted
  admissionCancelled :
    s.stats.admissionCancelled = s.fates.count .admissionCancelled
  droppedData : s.stats.droppedData = s.fates.count .droppedData
  droppedCritical : s.stats.droppedCritical = s.fates.count .droppedCritical
  gone : .workerGone ∈ s.fates → s.worker = .exited
  closed : s.closed = true ↔ s.worker = .exited
  left : s.worker = .exited → s.queue = []
  joined : s.shutdown.pastPump = true → s.pump = .exited
  returned : s.shutdown = .returned → s.worker = .exited

theorem length_eq_counts (f : List Fate) :
    f.length = f.count .accepted
      + f.count .admissionCancelled + f.count .droppedData
      + f.count .droppedCritical + f.count .workerGone
      + f.count .vanished := by
  induction f with
  | nil => rfl
  | cons fa f ih =>
    cases fa <;> simp [ih] <;> omega

namespace Ledger

variable {s : Ingress E} {item : IngressItem E}

theorem start (g : Nat) :
    Ledger 0 (Ingress.start g : Ingress E) := by
  constructor <;> simp [Ingress.start, Conserved, Worker.held,
    Shutdown.pastPump]

theorem not_pastPump {held : Nat} (h : Ledger held s)
    (hpm : s.pump ≠ .exited) : s.shutdown.pastPump = false := by
  cases hp : s.shutdown.pastPump with
  | false => rfl
  | true => exact absurd (h.joined hp) hpm

-- ---- deciding an event

theorem settle {f : Fate} (h : Ledger 1 s) (hpm : s.pump ≠ .exited)
    (hf : f ≠ .accepted)
    (hg : f = .workerGone → s.worker = .exited) :
    Ledger 0 (s.settle f) := by
  have hp := h.not_pastPump hpm
  have hm : .workerGone ∈ (s.settle f).fates →
      s.worker = .exited := by
    intro hm
    simp only [Ingress.settle, mem_append, mem_singleton] at hm
    rcases hm with hm | hm
    · exact h.gone hm
    · exact hg hm.symm
  cases f with
  | accepted => exact absurd rfl hf
  | admissionCancelled | droppedData | droppedCritical | workerGone
  | vanished =>
    exact
      { h with
        received := by simp [Ingress.settle, count, h.received]
        accepted := by simp [Ingress.settle, count, h.accepted]
        admissionCancelled := by
          simp [Ingress.settle, count, h.admissionCancelled]
        droppedData := by simp [Ingress.settle, count, h.droppedData]
        droppedCritical := by
          simp [Ingress.settle, count, h.droppedCritical]
        gone := hm
        joined := by simp [Ingress.settle, hp] }

theorem publishReserved (h : Ledger 1 s) (hpm : s.pump ≠ .exited)
    (ho : s.closed = false) : Ledger 0 (s.publishReserved item) := by
  have hp := h.not_pastPump hpm
  have hw : s.worker ≠ .exited := by
    intro hed
    rw [h.closed.2 hed] at ho
    cases ho
  have hqud := h.queued
  have hc := h.conserved
  exact
    { h with
      queued := by
        simp [Ingress.publishReserved, Ingress.settle, count, hqud]
      conserved := by
        simp only [Conserved, Ingress.publishReserved, Ingress.settle,
          count] at hc ⊢
        omega
      received := by
        simp [Ingress.publishReserved, Ingress.settle, count, h.received]
      accepted := by
        simp [Ingress.publishReserved, Ingress.settle, count, h.accepted]
      admissionCancelled := by
        simp [Ingress.publishReserved, Ingress.settle, count,
          h.admissionCancelled]
      droppedData := by
        simp [Ingress.publishReserved, Ingress.settle, count, h.droppedData]
      droppedCritical := by
        simp [Ingress.publishReserved, Ingress.settle, count,
          h.droppedCritical]
      gone := by
        intro hm
        simp only [Ingress.publishReserved, Ingress.settle,
          mem_append, mem_singleton, reduceCtorEq, or_false]
          at hm
        exact h.gone hm
      left := fun hed => absurd hed hw
      joined := by
        simp [Ingress.publishReserved, Ingress.settle, hp] }

end Ledger

/-- The books of a state, with the event its pump is admitting. -/
def Sound (s : Ingress E) : Prop := Ledger s.pump.held s

namespace Ledger

variable {s : Ingress E} {item : IngressItem E} {kind : E → EventKind}

variable {otherwise : Ingress E}

theorem reserve (h : Ledger 1 s) (hp : s.pump ≠ .exited)
    (ho : s.closed = false →
      Sound otherwise) : Sound (s.reserve item otherwise) := by
  unfold Ingress.reserve
  by_cases hc : s.closed = true
  · rw [if_pos hc]
    exact h.settle hp nofun fun _ => h.closed.1 hc
  · rw [if_neg hc]
    have hop : s.closed = false := Bool.eq_false_iff.2 hc
    split
    · exact h.publishReserved hp hop
    · exact ho hop

theorem admitFull (h : Ledger 1 s) (hp : s.pump ≠ .exited) :
    Sound (Ingress.admitFull kind s item) := by
  have hw : Sound { s with pump := .waiting item } :=
    { h with joined := by simp [h.not_pastPump hp] }
  unfold Ingress.admitFull
  split
  · exact h.settle hp nofun nofun
  · exact hw
  · exact hw

theorem admitStampedEvent (h : Ledger 0 s) (hp : s.pump = .receiving) :
    Sound (Ingress.admitStampedEvent kind s item) := by
  have hrn : s.pump ≠ .exited := by
    rw [hp]
    exact nofun
  have hr : Ledger 1 { s with
      stats := { s.stats with received := s.stats.received + 1 } } :=
    { h with received := by simp [h.received] }
  unfold Ingress.admitStampedEvent
  dsimp only
  split
  · exact hr.settle hrn nofun nofun
  · exact hr.reserve hrn fun _ =>
      hr.admitFull hrn

theorem resumePump (h : Ledger 1 s) (hp : s.pump ≠ .exited)
    (ho : Sound otherwise) : Sound (s.resumePump item otherwise) := by
  unfold Ingress.resumePump
  split
  · exact h.settle hp nofun nofun
  · exact h.reserve hp fun _ => ho

-- ---- the worker

variable {held : Nat}

theorem take {r : List (IngressItem E)} (h : Ledger held s)
    (hw : s.worker = .receiving) (hq : s.queue = item :: r) :
    Ledger held (s.take item r) := by
  have hqud := h.queued
  have hcn := h.conserved
  have hinFlight := h.inFlight
  have ho : s.closed = false := by
    rw [Bool.eq_false_iff]
    intro hc
    rw [h.closed.1 hc] at hw
    cases hw
  have hg : .workerGone ∉ s.fates := by
    intro hm
    rw [h.gone hm] at hw
    cases hw
  rw [hq] at hqud
  simp only [length_cons] at hqud
  rw [hw] at hinFlight
  simp only [Conserved] at hcn
  unfold Ingress.take
  split
  · exact
      { h with
        queued := by simp [hqud]
        inFlight := by simp [hw, Worker.held, hinFlight]
        conserved := by
          simp only [Conserved]
          omega
        left := fun hed => by
          rw [hw] at hed
          cases hed }
  · exact
      { h with
        queued := by simp [hqud]
        inFlight := by simp [Worker.held, hinFlight]
        conserved := by
          simp only [Conserved]
          omega
        gone := fun hm => absurd hm hg
        closed := by simp [ho]
        left := nofun
        returned := fun hr => by
          have := h.returned hr
          rw [hw] at this
          cases this }

theorem finish (h : Ledger held s) (hw : s.worker = .processing item) :
    Ledger held s.finish := by
  have hcn := h.conserved
  have hinFlight := h.inFlight
  rw [hw] at hinFlight
  simp only [Worker.held] at hinFlight
  simp only [Conserved] at hcn
  have hnot : s.worker ≠ .exited := by
    rw [hw]
    exact nofun
  exact
    { h with
      inFlight := by simp [Ingress.finish, Worker.held, hinFlight]
      conserved := by
        simp only [Conserved, Ingress.finish]
        omega
      gone := fun hm => absurd (h.gone hm) hnot
      closed := by
        simp only [Ingress.finish, reduceCtorEq, iff_false]
        exact fun hc => hnot (h.closed.1 hc)
      left := nofun
      returned := fun hr => absurd (h.returned hr) hnot }

theorem releaseItems_eq (i : List (IngressItem E))
    (st : LiveIngressStats) :
    releaseItems i st = { st with
      queued := st.queued - i.length
      cancelled := st.cancelled + i.length } := by
  induction i generalizing st with
  | nil => rfl
  | cons item i ih =>
    have hqud : st.queued - 1 - i.length
        = st.queued - (i.length + 1) := by omega
    have hc : st.cancelled + 1 + i.length
        = st.cancelled + (i.length + 1) := by omega
    rw [releaseItems, ih, hqud, hc, length_cons]

theorem leave (h : Ledger held s) (hw : s.worker = .receiving) :
    Ledger held s.leave := by
  have hqud := h.queued
  have hc := h.conserved
  have hinFlight := h.inFlight
  rw [hw] at hinFlight
  simp only [Conserved] at hc
  unfold Ingress.leave
  rw [releaseItems_eq]
  exact
    { h with
      queued := by simp [hqud]
      inFlight := by simp [Worker.held, hinFlight]
      conserved := by
        simp only [Conserved]
        omega
      gone := fun _ => rfl
      closed := by simp
      left := fun _ => rfl
      returned := fun _ => rfl }

-- ---- the shutdown

theorem outstanding_eq (h : Ledger held s) :
    outstanding s.stats = s.stats.queued + s.stats.inFlight := by
  have hc := h.conserved
  simp only [Conserved] at hc
  unfold outstanding
  omega

/-- The work of a dead worker is released: the queue is cancelled, the
item in its hands abandoned. -/
theorem abandonOutstanding_eq (h : Ledger held s) :
    abandonOutstanding s.stats = { s.stats with
      inFlight := 0
      cancelled := s.stats.cancelled + s.stats.queued
      abandoned := s.stats.abandoned + s.stats.inFlight
      queued := 0 } := by
  have hms : (max (outstanding s.stats) 0).toNat
      = s.stats.queued + s.stats.inFlight := by
    rw [h.outstanding_eq]
    omega
  have hqud : s.stats.queued + s.stats.inFlight - s.stats.inFlight
      = s.stats.queued := by omega
  have hinFlight : s.stats.queued + s.stats.inFlight - s.stats.queued
      = s.stats.inFlight := by omega
  show ({ s.stats with
      inFlight := 0
      cancelled := s.stats.cancelled
        + ((max (outstanding s.stats) 0).toNat - s.stats.inFlight)
      abandoned := s.stats.abandoned
        + ((max (outstanding s.stats) 0).toNat
          - ((max (outstanding s.stats) 0).toNat - s.stats.inFlight))
      queued := 0 } : LiveIngressStats) = _
  rw [hms, hqud, hinFlight]

theorem abortWorker (h : Ledger held s) (hp : s.shutdown.pastPump = true) :
    Ledger held s.abortWorker := by
  have hc := h.conserved
  simp only [Conserved] at hc
  unfold Ingress.abortWorker
  rw [h.abandonOutstanding_eq]
  exact
    { h with
      queued := rfl
      inFlight := rfl
      conserved := by
        simp only [Conserved]
        omega
      gone := fun _ => rfl
      closed := by simp
      left := fun _ => rfl
      joined := fun _ => h.joined hp
      returned := fun _ => rfl }

theorem abortPump (h : Sound s) (hj : s.shutdown = .joiningPump) :
    Sound s.abortPump := by
  have hnot : s.shutdown ≠ .returned := by
    rw [hj]
    exact nofun
  unfold Sound Ingress.abortPump
  cases hp : s.pump with
  | waiting item =>
    have hone : Ledger 1 s := by simpa [Sound, hp, Pump.held] using h
    exact
      { hone with
        received := by simp [Pump.held, hone.received]
        accepted := by simp [hone.accepted]
        admissionCancelled := by simp [hone.admissionCancelled]
        droppedData := by simp [hone.droppedData]
        droppedCritical := by simp [hone.droppedCritical]
        gone := by
          intro hmem
          simp only [mem_append, mem_singleton, reduceCtorEq,
            or_false] at hmem
          exact hone.gone hmem
        joined := fun _ => rfl
        returned := nofun }
  | receiving | exited =>
    have hz : Ledger 0 s := by simpa [Sound, hp, Pump.held] using h
    exact { hz with joined := fun _ => rfl, returned := nofun }

end Ledger

-- ==== the step

variable {t s : Ingress E} {kind : E → EventKind}

variable {a : Action E}

theorem Sound.next (h : Sound s) (hn : next kind s a = some t) :
    Sound t := by
  cases a with
  | receive item =>
    simp only [Ingress.next] at hn
    cases hp : s.pump with
    | receiving =>
      rw [hp] at hn
      cases hn
      have hz : Ledger 0 s := by
        simpa [Sound, hp, Pump.held] using h
      exact hz.admitStampedEvent hp
    | waiting _ | exited =>
      rw [hp] at hn
      cases hn
  | resume =>
    simp only [Ingress.next] at hn
    cases hp : s.pump with
    | waiting item =>
      rw [hp] at hn
      dsimp only at hn
      split at hn
      · cases hn
        have hone : Ledger 1 s := by
          simpa [Sound, hp, Pump.held] using h
        exact hone.resumePump (by rw [hp]; rintro ⟨⟩) h
      · cases hn
    | receiving | exited =>
      rw [hp] at hn
      cases hn
  | expire =>
    simp only [Ingress.next] at hn
    cases hp : s.pump with
    | waiting item =>
      rw [hp] at hn
      dsimp only at hn
      split at hn
      · cases hn
        have hone : Ledger 1 s := by
          simpa [Sound, hp, Pump.held] using h
        have hr : s.pump ≠ .exited := by
          rw [hp]
          rintro ⟨⟩
        exact hone.resumePump hr
          (hone.settle hr (by rintro ⟨⟩) (by rintro ⟨⟩))
      · cases hn
    | receiving | exited =>
      rw [hp] at hn
      cases hn
  | pumpExit =>
    simp only [Ingress.next] at hn
    cases hp : s.pump with
    | receiving =>
      rw [hp] at hn
      cases hn
      have hz : Ledger 0 s := by
        simpa [Sound, hp, Pump.held] using h
      exact { hz with joined := fun _ => rfl }
    | waiting _ | exited =>
      rw [hp] at hn
      cases hn
  | take =>
    simp only [Ingress.next] at hn
    cases hw : s.worker with
    | receiving =>
      cases hq : s.queue with
      | nil =>
        rw [hw, hq] at hn
        cases hn
      | cons item rest =>
        rw [hw, hq] at hn
        dsimp only at hn
        split at hn
        · cases hn
        · cases hn
          have ht := Ledger.take h hw hq
          have hp : (s.take item rest).pump = s.pump := by
            unfold Ingress.take
            split <;> rfl
          unfold Sound
          rwa [hp]
    | processing _ | exited =>
      rw [hw] at hn
      cases hn
  | finish =>
    simp only [Ingress.next] at hn
    cases hw : s.worker with
    | processing item =>
      rw [hw] at hn
      cases hn
      exact Ledger.finish h hw
    | receiving | exited =>
      rw [hw] at hn
      cases hn
  | workerExit =>
    have hl : s.worker = .receiving ∧ t = s.leave := by
      simp only [Ingress.next] at hn
      split at hn
      · next hw _ _ =>
        exact ⟨hw, (Option.some.inj hn).symm⟩
      · next hw _ =>
        split at hn
        · exact ⟨hw, (Option.some.inj hn).symm⟩
        · cases hn
      · cases hn
    obtain ⟨hw, rfl⟩ := hl
    exact Ledger.leave h hw
  | connect generation =>
    cases hn
    exact { h with }
  | stopAdmission =>
    cases hn
    exact { h with }
  | emergencyStop =>
    cases hn
    exact { h with }
  | beginStop =>
    simp only [Ingress.next] at hn
    split at hn
    · cases hn
      exact { h with
        joined := by rintro ⟨⟩
        returned := by rintro ⟨⟩ }
    · cases hn
  | pumpJoined =>
    simp only [Ingress.next] at hn
    split at hn
    · next hp =>
      cases hn
      exact { h with
        joined := fun _ => hp
        returned := by rintro ⟨⟩ }
    · cases hn
  | abortPump =>
    simp only [Ingress.next] at hn
    split at hn
    · next hj =>
      cases hn
      exact Ledger.abortPump h hj
    · cases hn
  | workerJoined =>
    simp only [Ingress.next] at hn
    split at hn
    · next hs hw =>
      cases hn
      exact { h with
        joined := fun _ => h.joined (by rw [hs]; rfl)
        returned := fun _ => hw }
    · cases hn
  | drainExpired =>
    simp only [Ingress.next] at hn
    split at hn
    · next hs =>
      cases hn
      exact { h with
        joined := fun _ => h.joined (by rw [hs]; rfl)
        returned := by rintro ⟨⟩ }
    · cases hn
  | workerStopped =>
    simp only [Ingress.next] at hn
    split at hn
    · next hs hw =>
      cases hn
      exact { h with
        joined := fun _ => h.joined (by rw [hs]; rfl)
        returned := fun _ => hw }
    · cases hn
  | abortWorker =>
    simp only [Ingress.next] at hn
    split at hn
    · next hs =>
      cases hn
      exact Ledger.abortWorker h (by rw [hs]; rfl)
    · cases hn

-- ==== lost events

/-- At most one event met its fate, and it did not vanish. -/
def Decides (s t : Ingress E) : Prop :=
  t.fates = s.fates ∨ ∃ fate, fate ≠ .vanished ∧ t.fates = s.fates ++ [fate]

theorem Decides.vanished (h : Decides s t) :
    .vanished ∈ t.fates ↔ .vanished ∈ s.fates := by
  rcases h with h | ⟨fate, hne, h⟩
  · rw [h]
  · rw [h, mem_append, mem_singleton]
    exact or_iff_left hne.symm

theorem decides_settle (s : Ingress E) {f : Fate}
    (h : f ≠ .vanished) : Decides s (s.settle f) :=
  Or.inr ⟨f, h, rfl⟩

variable {item : IngressItem E}

variable {otherwise : Ingress E}

theorem decides_reserve (h : Decides s otherwise) :
    Decides s (s.reserve item otherwise) := by
  unfold reserve
  split
  · exact decides_settle s nofun
  · split
    · exact Or.inr ⟨.accepted, nofun, rfl⟩
    · exact h

theorem decides_resumePump (h : Decides s otherwise) :
    Decides s (s.resumePump item otherwise) := by
  unfold resumePump
  split
  · exact decides_settle s nofun
  · exact decides_reserve h

theorem decides_admitStampedEvent :
    Decides s (admitStampedEvent kind s item) := by
  have hf : ∀ s : Ingress E, Decides s (admitFull kind s item) := by
    intro s
    unfold admitFull
    split
    · exact decides_settle s nofun
    · exact Or.inl rfl
    · exact Or.inl rfl
  unfold admitStampedEvent
  dsimp only
  split
  · exact Or.inr ⟨.admissionCancelled, nofun, rfl⟩
  · exact decides_reserve (hf _)

/-- An event vanishes when the pump is aborted while it waits, and in no
other action. -/
theorem vanished_next (hn : next kind s a = some t) :
    .vanished ∈ t.fates ↔ .vanished ∈ s.fates
      ∨ (a = .abortPump ∧ ∃ item, s.pump = .waiting item) := by
  by_cases ha : a = .abortPump
  · subst ha
    simp only [next] at hn
    split at hn
    · cases hn
      unfold abortPump
      cases hp : s.pump <;> simp
    · cases hn
  · have hd : Decides s t := by
      cases a with
      | receive item =>
        simp only [next] at hn
        split at hn
        · cases hn
          exact decides_admitStampedEvent
        · cases hn
      | resume =>
        simp only [next] at hn
        split at hn
        · split at hn
          · cases hn
            exact decides_resumePump (Or.inl rfl)
          · cases hn
        · cases hn
      | expire =>
        simp only [next] at hn
        split at hn
        · split at hn
          · cases hn
            exact decides_resumePump (decides_settle s nofun)
          · cases hn
        · cases hn
      | take =>
        simp only [next] at hn
        split at hn
        · split at hn
          · cases hn
          · cases hn
            refine Or.inl ?_
            unfold Ingress.take
            split <;> rfl
        · cases hn
      | workerExit =>
        simp only [next] at hn
        split at hn
        · cases hn
          exact Or.inl rfl
        · split at hn
          · cases hn
            exact Or.inl rfl
          · cases hn
        · cases hn
      | abortPump => exact absurd rfl ha
      | connect | stopAdmission | emergencyStop =>
        cases hn
        exact Or.inl rfl
      | pumpExit | finish | pumpJoined | workerJoined | workerStopped
      | beginStop | drainExpired | abortWorker =>
        simp only [next] at hn
        split at hn
        · cases hn
          exact Or.inl rfl
        · cases hn
    rw [hd.vanished]
    simp [ha]

-- ==== the runs

/-- With sound books the received events are counted exactly when none
has vanished. -/
theorem Sound.eventsCounted_iff (h : Sound s) :
    s.EventsCounted ↔ .vanished ∉ s.fates := by
  have hlen := length_eq_counts s.fates
  have hr := h.received
  have hacc := h.accepted
  have ha := h.admissionCancelled
  have hd := h.droppedData
  have hc := h.droppedCritical
  rw [← count_eq_zero]
  constructor
  · intro hcn
    have hsum := hcn.received
    omega
  · intro hn
    refine ⟨hacc, ha, hd, hc, ?_, by omega⟩
    intro hw
    rw [count_eq_zero]
    exact fun hm => hw (h.gone hm)

theorem Sound.settled (h : Sound s) (hr : s.shutdown = .returned) :
    s.Settled := by
  have hed := h.returned hr
  have hqud : s.stats.queued = 0 := by
    rw [h.queued, h.left hed]
    rfl
  have hinFlight : s.stats.inFlight = 0 := by
    rw [h.inFlight, hed]
    rfl
  refine ⟨hqud, hinFlight, ?_⟩
  rw [Ledger.outstanding_eq h, hqud, hinFlight]
  rfl

/-- In every state of every run accepted events are conserved, and the
pipeline is settled once the shutdown has returned; and every received
event is counted in every state if and only if the run never aborts the
pump while it waits to admit an event. -/
theorem ingress_accounting (kind : E → EventKind) (generation : Nat)
    (actions : List (Action E)) :
    (∀ t, Reaches (next kind) (start generation) actions t →
        t.Conserved ∧ (t.shutdown = .returned → t.Settled))
    ∧ ((∀ t, Reaches (next kind) (start generation) actions t →
          t.EventsCounted)
      ↔ ∀ before a after t u, actions = before ++ a :: after →
          runActions (next kind) (start generation) before = some t →
          next kind t a = some u →
          ¬ (a = .abortPump ∧ ∃ item, t.pump = .waiting item)) := by
  have hst : Sound (start generation : Ingress E) := Ledger.start generation
  have hs : ∀ t, Reaches (next kind) (start generation) actions t →
      Sound t := fun t ht =>
    reaches_invariant hst (fun _ _ _ h hn => h.next hn) ht
  refine ⟨fun t ht =>
    ⟨(hs t ht).conserved, (hs t ht).settled⟩, ?_⟩
  have hc : (∀ t, Reaches (next kind) (start generation) actions t →
        t.EventsCounted)
      ↔ ∀ t, Reaches (next kind) (start generation) actions t →
        Sound t ∧ .vanished ∉ t.fates :=
    forall_congr' fun t => imp_congr_right fun ht => by
      rw [(hs t ht).eventsCounted_iff, and_iff_right (hs t ht)]
  rw [hc]
  refine reaches_iff ⟨hst, not_mem_nil⟩ ?_ actions
  rintro t a u ⟨h, hnn⟩ hn
  rw [vanished_next hn, or_iff_right hnn, and_iff_right (h.next hn)]

-- ==== an event that vanishes

/-- The pipeline after `n` transitions came in and none was taken. -/
def filled (n : Nat) : Ingress Unit :=
  { Ingress.start 0 with
    stats := { (Ingress.start 0 : Ingress Unit).stats with
      received := n
      accepted := n
      queued := n }
    queue := List.replicate n ⟨0, ()⟩
    fates := List.replicate n .accepted }

def transition : Unit → EventKind := fun _ => .lifecycle

variable {n : Nat}

theorem next_filled (h : n < ingressQueueCapacity) :
    next transition (filled n) (.receive ⟨0, ()⟩)
      = some (filled (n + 1)) := by
  simp [next, filled, Ingress.start, admitStampedEvent, reserve, hasRoom, h,
    publishReserved, settle, count, replicate_succ']

theorem runActions_filled (h : n ≤ ingressQueueCapacity) :
    runActions (next transition) (start 0)
      (List.replicate n (.receive ⟨0, ()⟩)) = some (filled n) := by
  induction n with
  | zero => rfl
  | succ n ih =>
    rw [replicate_succ', runActions_append, ih (by omega)]
    simp [runActions, next_filled h]

/-- The queue fills up, one more transition waits, and a shutdown whose
first deadline passes at once aborts the pump. -/
def vanishingRun : List (Action Unit) :=
  List.replicate ingressQueueCapacity (.receive ⟨0, ()⟩)
    ++ [.receive ⟨0, ()⟩, .beginStop, .abortPump]

/-- The state it leads to: one more event received than accepted. -/
def vanishedState : Ingress Unit :=
  { filled ingressQueueCapacity with
    stats := { (filled ingressQueueCapacity).stats with
      received := ingressQueueCapacity + 1 }
    liveAdmission := true
    pump := .exited
    shutdown := .draining
    fates := (filled ingressQueueCapacity).fates ++ [.vanished] }

/-- The waiting event of an aborted pump is counted nowhere. -/
theorem aborted_pump_loses_event :
    runActions (next transition) (start 0) vanishingRun
        = some vanishedState
      ∧ ¬ vanishedState.EventsCounted := by
  constructor
  · rw [vanishingRun, runActions_append, runActions_filled (Nat.le_refl _)]
    simp [runActions, next, filled, Ingress.start, admitStampedEvent, reserve,
      hasRoom, admitFull, transition, abortPump, vanishedState]
  · intro h
    have hsum := h.received
    have hg := h.gone (by rintro ⟨⟩)
    simp only [vanishedState, filled, Ingress.start, Pump.held] at hsum hg
    omega

end Ingress

end TikTools.Live
