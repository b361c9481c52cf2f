/-
Nothing is lost without a sign.

`Sound` holds along every run whose steps are `lawful`, and so does the
order of the rows; a page in view with no recovery under way then owes
nothing (`recovered`). `room_change_loses` is a run that is not lawful:
the page learns its room while a recovery is under way.
-/
import TikTools.Feed.Steps

namespace TikTools.Feed

open TikTools.Lib LiveFeed List Option Bool

variable {s t : System}

namespace LiveFeed

variable {feed feed' : LiveFeed}

/-- The feeds differ in their recovery only. -/
def SameRows (feed feed' : LiveFeed) : Prop :=
  feed'.events = feed.events ∧ feed'.staged = feed.staged
    ∧ feed'.lastFeedCursor = feed.lastFeedCursor
    ∧ feed'.needsCursorSort = feed.needsCursorSort

theorem InOrder.sameRows (h : InOrder feed) (heq : SameRows feed feed') :
    InOrder feed' := by
  obtain ⟨he, hs, hl, hn⟩ := heq
  refine h.mono ?_ ?_ hl hn
  · rw [he]
  · rw [hs]

theorem sameRows_recoverFeed (feed : LiveFeed) :
    SameRows feed feed.recoverFeed := by
  unfold recoverFeed
  split
  all_goals exact ⟨rfl, rfl, rfl, rfl⟩

theorem sameRows_finishRecovery (feed : LiveFeed) :
    SameRows feed feed.finishRecovery := by
  unfold finishRecovery
  dsimp only
  split
  · exact sameRows_recoverFeed { feed with
      recovery := none, recoveryRequested := false }
  · exact ⟨rfl, rfl, rfl, rfl⟩

section

variable (h : InOrder feed)
include h

theorem InOrder.finishRecovery :
    InOrder feed.finishRecovery :=
  h.sameRows (sameRows_finishRecovery feed)

theorem InOrder.recoverVisible :
    InOrder feed.recoverVisible := by
  unfold LiveFeed.recoverVisible
  split
  · exact h.sameRows (sameRows_recoverFeed feed)
  · exact h

theorem InOrder.projectionStats (ff fbd : Option Nat) :
    InOrder (feed.projectionStats ff fbd) := by
  have hs : ∀ (feed : LiveFeed) (p : Prop) [Decidable p],
      InOrder feed → InOrder (if p then feed.recoverVisible else feed) := by
    intro feed p _ h
    split
    · exact h.recoverVisible
    · exact h
  have hf : ∀ l, InOrder { feed with lastDeliverySequence := l } :=
    fun l => h.sameRows ⟨rfl, rfl, rfl, rfl⟩
  unfold LiveFeed.projectionStats
  split
  · exact hs _ _ (hf _)
  · exact (hs _ _ (hs _ _ (hf _))).sameRows ⟨rfl, rfl, rfl, rfl⟩

theorem InOrder.setPresentationActive (ac : Bool)
    (now : Nat) : InOrder (feed.setPresentationActive ac now) := by
  unfold LiveFeed.setPresentationActive
  split
  · exact h
  · cases ac with
    | true =>
      have hact : InOrder { feed with
          presentationActive := true
          recoveryGeneration := feed.recoveryGeneration + 1 } :=
        h.sameRows ⟨rfl, rfl, rfl, rfl⟩
      exact hact.sameRows (sameRows_recoverFeed _)
    | false =>
      exact (h.flushStaged now).mono (List.Sublist.refl _)
        (nil_sublist _) rfl rfl

theorem InOrder.pushFeedEvent (e : UiEvent)
    (c now : Nat) : InOrder (feed.pushFeedEvent e (some c) now) := by
  rcases feed.pushFeedEvent_cases e c now with
    ⟨heq, -⟩ | ⟨-, -, -, hp⟩
  · rw [heq]
    exact h
  · exact hp.order h

theorem InOrder.liveUiEvent {e : UiEvent}
    {se cu : Option Nat} {c now : Nat}
    (hc : ((cu.or e.feedCursor).filter isSafeInteger)
      = some c) : InOrder (feed.liveUiEvent e se cu now) := by
  obtain ⟨last, heq⟩ := System.exists_noteSequence feed se
  have hn : InOrder (feed.noteSequence se) := by
    rw [heq]
    exact h.sameRows ⟨rfl, rfl, rfl, rfl⟩
  unfold LiveFeed.liveUiEvent
  rw [hc]
  generalize feed.noteSequence se = feed at hn
  have hf : ∀ p : Bool,
      InOrder (if p then feed.lowerFloor else feed) := by
    intro p
    split
    · exact hn.sameRows ⟨rfl, rfl, rfl, rfl⟩
    · exact hn
  have hr : ∀ (feed : LiveFeed) (p : Bool), InOrder feed →
      InOrder (if p then feed.recoverFeed else feed) := by
    intro feed p h
    split
    · exact h.sameRows (sameRows_recoverFeed feed)
    · exact h
  exact hr _ _ ((hf _).pushFeedEvent e c now)

theorem InOrder.systemNotice (now : Nat) :
    InOrder (feed.systemNotice now) := by
  have hr := cursors_systemNotice feed now
  refine h.mono ?_ hr ?_ ?_
  all_goals rw [systemNotice_eq]

end

end LiveFeed

namespace System

variable {now : Nat}

theorem Sound.order_receivePage (h : Sound s) {p : FeedBackfill}
    {r : Recovery} (hp : s.reply = some p)
    (hr : s.feed.recovery = some r)
    (ho : InOrder (afterPage s.feed p r.after now)) :
    InOrder (s.feed.receivePage r p now) := by
  rw [h.base.receivePage_eq hp hr now]
  dsimp only
  split
  · split
    · exact ho.finishRecovery
    · exact InOrder.finishRecovery (ho.sameRows ⟨rfl, rfl, rfl, rfl⟩)
  · split
    · exact (ho.insertDiscontinuity _ _ _).finishRecovery
    · unfold LiveFeed.nextPage
      split
      · exact InOrder.finishRecovery (ho.sameRows ⟨rfl, rfl, rfl, rfl⟩)
      · exact ho.sameRows ⟨rfl, rfl, rfl, rfl⟩

theorem Sound.order_receive (h : Sound s) {p : FeedBackfill}
    (hp : s.reply = some p) (hop : s.feed.disposed = false)
    (hl : s.lawful (.receive now) = true) (ho : InOrder s.feed) :
    InOrder (s.feed.receive (.ok p) now) := by
  obtain ⟨r, hr, -⟩ := h.base.waiting p hp
  rw [receive_eq hr]
  split
  · next hc =>
    obtain ⟨-, ha, hg⟩ := current_iff.1 hc
    have hl : (!current s.feed r
        || (remembersAll s.feed now p.events
          && s.reachesBack r p)) = true := by
      simpa only [lawful, hr, hp] using hl
    rw [hc, Bool.not_true, Bool.false_or, Bool.and_eq_true] at hl
    exact h.order_receivePage hp hr
      ((h.paged hp hr hop hg ha hl.1 hl.2).order ho)
  · exact ho.finishRecovery

theorem order_reject {feed : LiveFeed} (ho : InOrder feed) (now : Nat) :
    InOrder (feed.receive (.error ()) now) := by
  cases hr : feed.recovery with
  | none =>
    unfold LiveFeed.receive
    rw [hr]
    exact ho
  | some r =>
    rw [receive_eq hr]
    split
    · exact (ho.insertDiscontinuity _ _ _).finishRecovery
    · exact ho.finishRecovery

-- ==== the run

/-- What holds of every state of a lawful run. -/
structure Kept (s : System) : Prop where
  order : InOrder s.feed
  once : s.feed.pushed.Nodup
  sound : s.feed.disposed = false → Sound s

theorem kept_new (sa : String) : Kept (new sa) := by
  have hnot : ∀ x, ¬ Owed EventBus.new
      (createLiveFeedState sa) x := by
    rintro x ⟨-, -, -, first, hf, -⟩
    cases hf
  refine ⟨⟨List.Pairwise.nil, (fun _ hc => by cases hc),
    fun _ => List.Pairwise.nil⟩, nodup_nil, fun _ => ?_⟩
  refine ⟨⟨EventBus.ok_new, ⟨nodup_nil, (fun _ hc => by cases hc),
    (fun _ hc => by cases hc), (fun _ hl => by cases hl), fun _ => rfl⟩,
    Nat.zero_le _, rfl, (fun _ hc => by cases hc), Nat.le_refl _,
    fun x hx => absurd hx (hnot x), (fun _ hr => by cases hr),
    fun _ hp => by cases hp⟩, (fun _ hr => by cases hr),
    (fun _ _ hr => by cases hr), fun _ x hx => absurd hx (hnot x)⟩

variable {a : Action}

theorem disposed_next (hc : s.feed.disposed = true)
    (ho : InOrder s.feed) (hn : s.next a = some t) :
    t.feed.disposed = true ∧ t.feed.pushed = s.feed.pushed
      ∧ InOrder t.feed := by
  have hh : ∀ f, s.handle f = none := fun f => if_pos hc
  have hf : ∀ feed : LiveFeed,
      feed.finishRecovery.disposed = feed.disposed
        ∧ feed.finishRecovery.pushed = feed.pushed := by
    intro feed
    unfold LiveFeed.finishRecovery LiveFeed.recoverFeed
    dsimp only
    split
    · split
      all_goals exact ⟨rfl, rfl⟩
    · exact ⟨rfl, rfl⟩
  have hrc : ∀ re now,
      (s.feed.receive re now).disposed = true
        ∧ (s.feed.receive re now).pushed = s.feed.pushed
        ∧ InOrder (s.feed.receive re now) := by
    intro re now
    cases hr : s.feed.recovery with
    | none =>
      unfold LiveFeed.receive
      rw [hr]
      exact ⟨hc, rfl, ho⟩
    | some r =>
      have hnot : ¬ current s.feed r = true := fun hcur => by
        rw [(current_iff.1 hcur).1] at hc
        cases hc
      rw [receive_eq hr, if_neg hnot]
      exact ⟨(hf s.feed).1.trans hc, (hf s.feed).2, ho.finishRecovery⟩
  cases a with
  | publish e =>
    cases hn
    exact ⟨hc, rfl, ho⟩
  | deliver c outer sequence now =>
    obtain ⟨e, -, hn⟩ := bind_eq_some_iff.1 hn
    rw [hh] at hn
    cases hn
  | answer limit =>
    simp only [next] at hn
    split at hn
    · cases hn
      exact ⟨hc, rfl, ho⟩
    · cases hn
  | receive now =>
    obtain ⟨p, -, rfl⟩ := map_eq_some_iff.1 hn
    exact hrc (.ok p) now
  | reject now =>
    simp only [next] at hn
    split at hn
    · cases hn
      exact hrc (.error ()) now
    · cases hn
  | presentation ac now =>
    cases hn
    have hs : s.feed.setPresentationActive ac now = s.feed := by
      unfold LiveFeed.setPresentationActive
      rw [hc]
      rfl
    rw [hs]
    exact ⟨hc, rfl, ho⟩
  | connected uniqueId roomId =>
    rw [next, hh] at hn
    cases hn
  | gapNotified =>
    rw [next, hh] at hn
    cases hn
  | stats feedForwarded feedBusDropped =>
    rw [next, hh] at hn
    cases hn
  | refresh =>
    cases hn
    unfold LiveFeed.refresh LiveFeed.recoverFeed
    split
    · split
      all_goals exact ⟨hc, rfl, ho.sameRows ⟨rfl, rfl, rfl, rfl⟩⟩
    · exact ⟨hc, rfl, ho⟩
  | frame now =>
    cases hn
    have hs : s.feed.flushStaged now = s.feed := by
      unfold LiveFeed.flushStaged
      rw [hc]
      rfl
    rw [hs]
    exact ⟨hc, rfl, ho⟩
  | liveError now =>
    rw [next, hh] at hn
    cases hn
  | resetEvents =>
    cases hn
    exact ⟨hc, rfl, ho.mono (nil_sublist _) (nil_sublist _) rfl rfl⟩
  | dispose =>
    cases hn
    exact ⟨rfl, rfl, ho.mono (List.Sublist.refl _) (nil_sublist _) rfl rfl⟩

theorem Sound.order_next (h : Sound s) (hop : s.feed.disposed = false)
    (hl : s.lawful a = true) (ho : InOrder s.feed)
    (hn : s.next a = some t) : InOrder t.feed := by
  have hh : ∀ f, s.handle f = some { s with feed := f s.feed } :=
    fun f => if_neg (by simp [hop])
  cases a with
  | publish e =>
    cases hn
    exact ho
  | deliver c o sequence now =>
    obtain ⟨e, hen, hn⟩ := bind_eq_some_iff.1 hn
    rw [hh] at hn
    cases hn
    exact ho.liveUiEvent (h.base.cursor hen o)
  | answer limit =>
    simp only [System.next] at hn
    split at hn
    · cases hn
      exact ho
    · cases hn
  | receive now =>
    obtain ⟨page, hp, rfl⟩ := map_eq_some_iff.1 hn
    exact h.order_receive hp hop hl ho
  | reject now =>
    simp only [System.next] at hn
    split at hn
    · cases hn
      exact order_reject ho now
    · cases hn
  | presentation ac now =>
    cases hn
    exact ho.setPresentationActive ac now
  | connected uniqueId roomId =>
    rw [System.next, hh] at hn
    cases hn
    unfold LiveFeed.liveConnected
    split
    · exact ho
    · exact ho.sameRows ⟨rfl, rfl, rfl, rfl⟩
  | gapNotified =>
    rw [System.next, hh] at hn
    cases hn
    exact ho.recoverVisible
  | stats ff fbd =>
    rw [System.next, hh] at hn
    cases hn
    exact ho.projectionStats ff fbd
  | refresh =>
    cases hn
    unfold LiveFeed.refresh
    split
    · exact ho.sameRows (sameRows_recoverFeed s.feed)
    · exact ho
  | frame now =>
    cases hn
    exact ho.flushStaged now
  | liveError now =>
    rw [System.next, hh] at hn
    cases hn
    exact ho.systemNotice now
  | resetEvents =>
    cases hn
    exact ho.mono (nil_sublist _) (nil_sublist _) rfl rfl
  | dispose =>
    cases hn
    exact ho.mono (List.Sublist.refl _) (nil_sublist _) rfl rfl

theorem Kept.next (h : Kept s) (hl : s.lawful a = true)
    (hn : s.next a = some t) : Kept t := by
  cases hc : s.feed.disposed with
  | true =>
    obtain ⟨hst, hp, hor⟩ := disposed_next hc h.order hn
    refine ⟨hor, hp ▸ h.once, fun ho => ?_⟩
    rw [hst] at ho
    cases ho
  | false =>
    have hs := h.sound hc
    have hor := hs.order_next hc hl h.order hn
    rcases hs.next hc hl hn with ha | hg
    · exact ⟨hor, ha.base.counted.once, fun _ => ha⟩
    · refine ⟨hor, ?_, fun ho => ?_⟩
      · rw [hg]
        exact h.once
      · rw [hg] at ho
        cases ho

theorem Kept.recovers (h : Kept s) : Recovered s := by
  refine ⟨h.order.shown, fun c => nodup_iff_count_le_one.1 h.once c,
    fun ho ha hid c e f last hen hou hf hlt hl hle => ?_⟩
  have hsn := h.sound ho
  by_cases hp : c ∈ s.feed.pushed
  · left
    exact count_eq_one_of_mem h.once hp
  · right
    by_contra hs
    have hod : Owed s.bus s.feed c :=
      ⟨⟨e, hen, hou⟩, hp, eq_false_of_not_eq_true hs, f, hf, hlt⟩
    obtain ⟨r, hr, -⟩ := hsn.awaited ha c hod (by rw [hl]; exact hle)
    rw [hid] at hr
    cases hr

/-- The exact condition: along a run whose steps are lawful nothing is
lost without a sign. -/
theorem recovered (systemAuthor : String) {s : System}
    (hrun : Run (fun s a t => s.next a = some t)
      (fun s a => s.lawful a = true) (new systemAuthor) s) :
    Recovered s :=
  (hrun.invariant (kept_new systemAuthor)
    fun _ _ _ hk hl hn => hk.next hl hn).recovers

-- ==== instances

/-- A comment of the room. -/
def comment : UiEvent :=
  { kind := .chat
    author := "viewer"
    sourceType := none
    roomId := some "room"
    creatorId := some "creator"
    msgId := none
    feedCursor := none
    giftDetails := none
    likeUserTotal := none
    likeViewerKey := none }

/-- The room is known; the second of three comments is lost, and a page
brings it. -/
def backfilled : List Action :=
  [.connected "creator" "room", .publish comment, .publish comment,
    .publish comment, .deliver 1 true none 0, .deliver 3 true none 0,
    .answer 512, .receive 0, .frame 0]

theorem backfilled_recovered : ∃ s,
    runWhile next lawful (new "system") backfilled = some s
      ∧ s.feed.pushed = [1, 3, 2] ∧ cursors s.feed.events = [1, 2, 3]
      ∧ Recovered s := by
  obtain ⟨s, hs⟩ : ∃ s, runWhile next lawful (new "system") backfilled
      = some s := isSome_iff_exists.1 (by decide +kernel)
  have hend : (runWhile next lawful (new "system") backfilled).any
      (fun s => s.feed.pushed == [1, 3, 2]
        && cursors s.feed.events == [1, 2, 3]) = true := by decide +kernel
  rw [hs, any_some, and_eq_true] at hend
  exact ⟨s, hs, eq_of_beq hend.1, eq_of_beq hend.2,
    recovered "system" (Run.of_runWhile (fun _ _ h => h) .refl _ hs)⟩

/-- The same, but the page learns its room while it waits for the page:
the comments in between are gone, and no notice says so. -/
def roomLearned : List Action :=
  [.publish comment, .publish comment, .publish comment,
    .publish comment, .publish comment, .deliver 1 true none 0,
    .deliver 5 true none 0, .answer 512, .connected "creator" "room",
    .receive 0]

theorem room_change_loses : ∃ s,
    runActions next (new "system") roomLearned = some s ∧ ¬ Recovered s := by
  obtain ⟨s, hs⟩ : ∃ s, runActions next (new "system") roomLearned
      = some s := isSome_iff_exists.1 (by decide +kernel)
  have hend : (runActions next (new "system") roomLearned).any (fun s =>
      !s.feed.disposed && s.feed.presentationActive
        && s.feed.recovery.isNone
        && (s.bus.entry 2).any (fun event => !s.feed.session.foreign event)
        && s.feed.pushed == [1, 5] && s.feed.lastFeedCursor == some 5
        && s.feed.notices.isEmpty) = true := by decide +kernel
  rw [hs, any_some] at hend
  simp only [and_eq_true, not_eq_true', Option.isNone_iff_eq_none,
    beq_iff_eq, List.isEmpty_iff, Option.any_eq_true] at hend
  obtain ⟨⟨⟨⟨⟨⟨ho, hact⟩, hid⟩, event, hen, hours⟩, hp⟩, hl⟩, hn⟩ := hend
  refine ⟨s, hs, fun hr => ?_⟩
  rcases hr.complete ho hact hid 2 event 1 5 hen hours
    (by rw [hp]; rfl) (by decide) hl (by decide) with hc | hann
  · rw [hp] at hc
    cases hc
  · rw [announced, hn] at hann
    cases hann

end System
end TikTools.Feed
