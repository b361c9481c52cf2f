/-
Where a recovery starts from, and what is still owed above it.

Everything the page owes lies above the floor: the cursor the next
recovery asks from (`Base.above`). A running recovery has nothing to make
up for below its own request (`Running`); what turned up after its reply
was made is noted as a further request (`Late`); and a page in view owes
nothing unless some recovery will ask for it (`Awaited`). Together they
are `Sound`, and starting, ending or asking for a recovery keeps it.
-/
import TikTools.Feed.Order
import TikTools.Feed.Recovery

namespace TikTools.Feed

open TikTools.Lib

/-- An event of the room, after the first cursor seen, that was neither
pushed nor announced. -/
structure Owed (bus : EventBus) (feed : LiveFeed) (c : Nat) : Prop where
  belongs : ∃ event, bus.entry c = some event
    ∧ feed.session.foreign event = false
  unpushed : c ∉ feed.pushed
  silent : announced feed c = false
  after : ∃ first, feed.pushed.head? = some first ∧ first < c

namespace LiveFeed

/-- The cursor the next recovery asks from. -/
def floor (feed : LiveFeed) : Nat :=
  (feed.recoveryAfter.or feed.lastFeedCursor).getD 0

/-- What the cursors seen, pushed and last say of one another. -/
structure Counted (feed : LiveFeed) : Prop where
  once : feed.pushed.Nodup
  seen : ∀ c ∈ feed.seenCursors, c ∈ feed.pushed
  last : ∀ c ∈ feed.pushed, c ≤ feed.lastFeedCursor.getD 0
  known : ∀ l, feed.lastFeedCursor = some l → l ∈ feed.pushed
  nothing : feed.lastFeedCursor = none → feed.pushed = []

/-- The second feed differs in its rows and counters only, or has more
notices. -/
structure Alike (feed feed' : LiveFeed) : Prop where
  seen : feed'.seenCursors = feed.seenCursors
  generation : feed'.recoveryGeneration = feed.recoveryGeneration
  recovery : feed'.recovery = feed.recovery
  requested : feed'.recoveryRequested = feed.recoveryRequested
  after : feed'.recoveryAfter = feed.recoveryAfter
  session : feed'.session = feed.session
  disposed : feed'.disposed = feed.disposed
  active : feed'.presentationActive = feed.presentationActive
  last : feed'.lastFeedCursor = feed.lastFeedCursor
  pushed : feed'.pushed = feed.pushed
  suspended : feed'.unjournaledSuspended = feed.unjournaledSuspended
  notices : ∀ n ∈ feed.notices, n ∈ feed'.notices

theorem alike_rows (feed : LiveFeed)
    (seenMsgIds : List (MessageIdentity × Nat)) (needsCursorSort : Bool)
    (events staged : List DisplayEvent) (nextEventId : Nat)
    (lastHostBusDropped lastDeliverySequence : Option Nat) :
    feed.Alike { feed with
      seenMsgIds, needsCursorSort, events, staged, nextEventId
      lastHostBusDropped, lastDeliverySequence } :=
  ⟨rfl, rfl, rfl, rfl, rfl, rfl, rfl, rfl, rfl, rfl, rfl, fun _ hn => hn⟩

end LiveFeed

theorem Owed.alike {bus : EventBus} {f feed' : LiveFeed}
    (h : f.Alike feed') {c : Nat} (ho : Owed bus feed' c) :
    Owed bus f c := by
  obtain ⟨hb, hun, hs, ha⟩ := ho
  rw [h.session] at hb
  rw [h.pushed] at hun ha
  refine ⟨hb, hun, ?_, ha⟩
  rw [announced, List.any_eq_false] at hs ⊢
  exact fun n hn => hs n (h.notices n hn)

namespace System

structure Base (s : System) : Prop where
  bus : s.bus.Ok
  counted : s.feed.Counted
  safe : s.bus.published.length ≤ maxSafe
  suspended : s.feed.unjournaledSuspended = 0
  journal : ∀ c ∈ s.feed.pushed, c ≤ s.bus.published.length
  floor : s.feed.floor ≤ s.bus.published.length
  above : ∀ c, Owed s.bus s.feed c → s.feed.floor < c
  request : ∀ r, s.feed.recovery = some r →
    r.after ≤ s.bus.published.length
      ∧ r.generation ≤ s.feed.recoveryGeneration
  waiting : ∀ page, s.reply = some page → ∃ r, s.feed.recovery = some r
    ∧ Answers s.bus r.after page

/-- A recovery that will be heard has left nothing behind. -/
def Running (s : System) : Prop :=
  ∀ r, s.feed.recovery = some r →
    r.generation = s.feed.recoveryGeneration →
    s.feed.presentationActive = true →
      (∀ c, Owed s.bus s.feed c → r.after < c)
        ∧ ∃ floor, s.feed.recoveryAfter = some floor ∧ floor ≤ r.after
          ∧ (s.feed.lastFeedCursor = none → floor = r.after)

/-- What its reply does not speak of is asked for again. -/
def Late (s : System) : Prop :=
  ∀ r page, s.feed.recovery = some r →
    r.generation = s.feed.recoveryGeneration →
    s.feed.presentationActive = true → s.reply = some page →
    ∀ c, Owed s.bus s.feed c → c ≤ s.feed.lastFeedCursor.getD 0 →
      c ≤ page.latestCursor ∨ s.feed.recoveryRequested = true

/-- A page in view owes nothing that no recovery will ask for. -/
def Awaited (s : System) : Prop :=
  s.feed.presentationActive = true →
    ∀ c, Owed s.bus s.feed c → c ≤ s.feed.lastFeedCursor.getD 0 →
      ∃ r, s.feed.recovery = some r
        ∧ (r.generation = s.feed.recoveryGeneration
          ∨ s.feed.recoveryRequested = true)

structure Sound (s : System) : Prop where
  base : Base s
  running : Running s
  late : Late s
  awaited : Awaited s

variable {s t : System}

-- ==== frames

variable {feed' : LiveFeed}

theorem Base.alike (h : Base s) (heq : s.feed.Alike feed') :
    Base { s with feed := feed' } := by
  have hf : feed'.floor = s.feed.floor := by
    unfold LiveFeed.floor
    rw [heq.after, heq.last]
  refine ⟨h.bus, ?_, h.safe, heq.suspended.trans h.suspended, ?_, ?_, ?_,
    ?_, ?_⟩
  · have hcn := h.counted
    refine ⟨?_, ?_, ?_, ?_, ?_⟩
    all_goals simp only [heq.pushed, heq.seen, heq.last]
    · exact hcn.once
    · exact hcn.seen
    · exact hcn.last
    · exact hcn.known
    · exact hcn.nothing
  · simpa only [heq.pushed] using h.journal
  · simpa only [hf] using h.floor
  · intro c hc
    rw [hf]
    exact h.above c (hc.alike heq)
  · simpa only [heq.recovery, heq.generation] using h.request
  · simpa only [heq.recovery] using h.waiting

theorem Running.alike (h : Running s) (heq : s.feed.Alike feed') :
    Running { s with feed := feed' } := by
  intro r hr hg hact
  rw [heq.recovery] at hr
  rw [heq.generation] at hg
  rw [heq.active] at hact
  rw [heq.after, heq.last]
  exact (h r hr hg hact).imp_left fun ha c hc =>
    ha c (hc.alike heq)

theorem Late.alike (h : Late s) (heq : s.feed.Alike feed') :
    Late { s with feed := feed' } := by
  intro r p hr hg ha hp c hc hle
  rw [heq.recovery] at hr
  rw [heq.generation] at hg
  rw [heq.active] at ha
  rw [heq.last] at hle
  rw [heq.requested]
  exact h r p hr hg ha hp c (hc.alike heq) hle

theorem Awaited.alike (h : Awaited s) (heq : s.feed.Alike feed') :
    Awaited { s with feed := feed' } := by
  intro ha c hc hle
  rw [heq.active] at ha
  rw [heq.last] at hle
  rw [heq.recovery, heq.generation, heq.requested]
  exact h ha c (hc.alike heq) hle

theorem Sound.alike (h : Sound s) (heq : s.feed.Alike feed') :
    Sound { s with feed := feed' } :=
  ⟨h.base.alike heq, h.running.alike heq, h.late.alike heq,
    h.awaited.alike heq⟩

-- ==== recovery

/-- Whoever asks for a recovery gets one, now or when the one that runs
is over. -/
theorem Base.recoverFeed (h : Base s) (hrun : Running s) :
    Sound { s with feed := s.feed.recoverFeed } := by
  obtain ⟨bus, rp, feed⟩ := s
  unfold LiveFeed.recoverFeed
  split
  · next hs =>
    obtain ⟨r, hr⟩ := Option.isSome_iff_exists.1 hs
    have hl : ∀ c, Owed bus { feed with recoveryRequested := true } c
        → Owed bus feed c := fun c h => ⟨h.1, h.2, h.3, h.4⟩
    refine ⟨⟨h.bus, ⟨h.counted.once, h.counted.seen, h.counted.last,
      h.counted.known, h.counted.nothing⟩, h.safe, h.suspended, h.journal,
      h.floor,
      fun c hc => h.above c (hl c hc), h.request, h.waiting⟩,
      fun r hr hgen hact => ?_,
      fun _ _ _ _ _ _ _ _ _ => .inr rfl,
      fun _ _ _ _ => ⟨r, hr, .inr rfl⟩⟩
    obtain ⟨ha, hf⟩ := hrun r hr hgen hact
    exact ⟨fun c hc => ha c (hl c hc), hf⟩
  · next hn =>
    have hrp : rp = none := by
      cases rp with
      | none => rfl
      | some page =>
        obtain ⟨r, hr, -⟩ := h.waiting page rfl
        exact absurd (Option.isSome_iff_exists.2 ⟨r, hr⟩) hn
    have hl : ∀ c a re, Owed bus { feed with
        recoveryAfter := a, recovery := re } c
        → Owed bus feed c := fun c _ _ h => ⟨h.1, h.2, h.3, h.4⟩
    refine ⟨⟨h.bus, ⟨h.counted.once, h.counted.seen, h.counted.last,
      h.counted.known, h.counted.nothing⟩, h.safe, h.suspended, h.journal,
      h.floor,
      fun c hc => h.above c (hl c _ _ hc), ?_, ?_⟩, ?_, ?_, ?_⟩
    · rintro r hr
      cases hr
      exact ⟨h.floor, Nat.le_refl _⟩
    · rintro page hp
      rw [hrp] at hp
      cases hp
    · rintro r hr - -
      cases hr
      exact ⟨fun c hc => h.above c (hl c _ _ hc), _, rfl,
        Nat.le_refl _, fun _ => rfl⟩
    · rintro r page - - - hp
      rw [hrp] at hp
      cases hp
    · exact fun _ _ _ _ => ⟨_, rfl, .inl rfl⟩

theorem Sound.recoverFeed (h : Sound s) :
    Sound { s with feed := s.feed.recoverFeed } :=
  h.base.recoverFeed h.running

theorem Base.ended (h : Base s) (hrp : s.reply = none)
    (re : Bool) : Base { s with feed := { s.feed with
      recovery := none, recoveryRequested := re } } := by
  refine ⟨h.bus, ⟨h.counted.once, h.counted.seen, h.counted.last,
    h.counted.known, h.counted.nothing⟩, h.safe, h.suspended, h.journal,
    h.floor,
    fun c hc => h.above c ⟨hc.1, hc.2, hc.3, hc.4⟩, ?_, ?_⟩
  · rintro r hr
    cases hr
  · rintro page hp
    rw [hrp] at hp
    cases hp

/-- A recovery may end when nothing is owed, or when it was asked for
again meanwhile. -/
theorem Base.finishRecovery (h : Base s) (hrp : s.reply = none)
    (ho : s.feed.disposed = false)
    (hd : s.feed.presentationActive = true →
      s.feed.recoveryRequested = false → ∀ c, Owed s.bus s.feed c →
        s.feed.lastFeedCursor.getD 0 < c) :
    Sound { s with feed := s.feed.finishRecovery } := by
  unfold LiveFeed.finishRecovery
  dsimp only
  split
  · have hen := h.ended hrp false
    refine hen.recoverFeed ?_
    rintro r hr
    cases hr
  · next hq =>
    refine ⟨h.ended hrp s.feed.recoveryRequested, ?_, ?_, ?_⟩
    · rintro r hr
      cases hr
    · rintro r page hr
      cases hr
    · intro hact c hc hle
      have hact : s.feed.presentationActive = true := hact
      have hrq : s.feed.recoveryRequested = false := by
        simpa [ho, hact] using hq
      have hlt := hd hact hrq c ⟨hc.1, hc.2, hc.3, hc.4⟩
      exact absurd hle (Nat.not_le.2 hlt)

end System
end TikTools.Feed
