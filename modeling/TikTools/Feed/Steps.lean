/-
Every step of a page keeps `Sound`: replies and their failure, live
events above a gap or below it, another room, and a page that is hidden
and shown again.

A page that is hidden retires its recovery but keeps the floor, and asks
again when it is shown. Another room drops the floor, so nothing may be
missing then (`Sound.connected`).
-/
import TikTools.Feed.Pages

namespace TikTools.Feed

open TikTools.Lib LiveFeed Option Nat

variable {s t : System}

namespace System

-- ==== replies

theorem Base.answered (h : Base s) : Base { s with reply := none } :=
  ⟨h.bus, h.counted, h.safe, h.suspended, h.journal, h.floor, h.above,
    h.request, fun _ hn => by cases hn⟩

variable {r : Recovery}

theorem Sound.abandoned (h : Sound s) (hr : s.feed.recovery = some r)
    (ho : s.feed.disposed = false)
    (hnot : ¬ (s.feed.presentationActive = true
      ∧ r.generation = s.feed.recoveryGeneration)) :
    Sound { s with reply := none, feed := s.feed.finishRecovery } := by
  refine h.base.answered.finishRecovery rfl ho
    fun hact hq x hx => Nat.lt_of_not_le fun hle => ?_
  obtain ⟨r', hr', hwhy⟩ := h.awaited hact x hx hle
  rw [hr] at hr'
  cases hr'
  rcases hwhy with hgen | hrq
  · exact hnot ⟨hact, hgen⟩
  · have hq : s.feed.recoveryRequested = false := hq
    rw [hq] at hrq
    cases hrq

variable {feed : LiveFeed}

theorem current_iff :
    current feed r = true ↔ feed.disposed = false
      ∧ feed.presentationActive = true
      ∧ r.generation = feed.recoveryGeneration := by
  simp [current, and_assoc]

theorem receive_eq (hr : feed.recovery = some r)
    (re : Except Unit FeedBackfill) (now : Nat) : feed.receive re now =
      if current feed r then
        match re with
        | .error _ =>
          (feed.insertDiscontinuity r.after
            (feed.lastFeedCursor.getD 0) now).finishRecovery
        | .ok p => feed.receivePage r p now
      else feed.finishRecovery := by
  have hnot : (feed.disposed || !feed.presentationActive
      || r.generation != feed.recoveryGeneration)
      = !current feed r := by
    unfold current
    simp [bne]
  unfold LiveFeed.receive
  rw [hr]
  dsimp only
  rw [hnot]
  cases current feed r <;> rfl

variable {now : Nat}

theorem Sound.receive (h : Sound s) {page : FeedBackfill}
    (hp : s.reply = some page) (ho : s.feed.disposed = false)
    (hl : s.lawful (.receive now) = true) :
    Sound { s with
      reply := none, feed := s.feed.receive (.ok page) now } := by
  obtain ⟨r, hr, -⟩ := h.base.waiting page hp
  rw [receive_eq hr]
  have hl : (!current s.feed r
      || (remembersAll s.feed now page.events && s.reachesBack r page))
      = true := by
    simpa only [lawful, hr, hp] using hl
  split
  · next hc =>
    obtain ⟨-, ha, hg⟩ := current_iff.1 hc
    rw [hc, Bool.not_true, Bool.false_or, Bool.and_eq_true] at hl
    exact h.receivePage hp hr ho hg ha hl.1 hl.2
  · next hc =>
    exact h.abandoned hr ho fun hw =>
      hc (current_iff.2 ⟨ho, hw⟩)

theorem Sound.reject (h : Sound s) (hr : s.feed.recovery = some r)
    (ho : s.feed.disposed = false) (now : Nat) : Sound { s with
      reply := none, feed := s.feed.receive (.error ()) now } := by
  rw [receive_eq hr]
  split
  · next hcur =>
    obtain ⟨-, hact, hgen⟩ := current_iff.1 hcur
    have ha := alike_insertDiscontinuity s.feed r.after
      (s.feed.lastFeedCursor.getD 0) now
    refine (h.base.answered.alike ha).finishRecovery rfl
      (ha.disposed.trans ho) fun _ _ x hx =>
        Nat.lt_of_not_le fun hle => ?_
    rw [ha.last] at hle
    have hann := @announced_insertDiscontinuity s.feed r.after
      (s.feed.lastFeedCursor.getD 0) now x
      ((h.running r hr hgen hact).1 x (hx.alike ha)) hle
    rw [hx.silent] at hann
    cases hann
  · next hcur =>
    exact h.abandoned hr ho fun hwhy =>
      hcur (current_iff.2 ⟨ho, hwhy⟩)

-- ==== events

theorem Base.last_le (h : Base s) :
    s.feed.lastFeedCursor.getD 0 ≤ s.bus.published.length := by
  cases hl : s.feed.lastFeedCursor with
  | none => exact zero_le _
  | some l => exact h.journal l (h.counted.known l hl)

theorem Sound.publish (h : Sound s) (event : UiEvent)
    (hs : isSafeInteger (s.bus.published.length + 1) = true) :
    Sound { s with bus := s.bus.publishDomain event } := by
  have hlen := EventBus.length_publishDomain s.bus event
  have ho : ∀ x, Owed (s.bus.publishDomain event) s.feed x →
      Owed s.bus s.feed x ∨ s.bus.published.length < x := by
    rintro x ⟨⟨f, hfn, hours⟩, hun, hsil, haf⟩
    by_cases hle : x ≤ s.bus.published.length
    · exact .inl ⟨⟨f, EventBus.entry_of_publishDomain hfn hle,
        hours⟩, hun, hsil, haf⟩
    · exact .inr (not_le.1 hle)
  have hl := h.base.last_le
  refine ⟨⟨EventBus.ok_publishDomain h.base.bus event, h.base.counted,
    ?_, h.base.suspended, fun c hc => ?_, ?_, fun x hx => ?_,
    fun r hr => ?_, fun page hp => ?_⟩, fun r hr hgen hact => ?_,
    fun r page hr hgen hact hp x hx hle => ?_,
    fun hact x hx hle => ?_⟩
  · show (s.bus.publishDomain event).published.length ≤ maxSafe
    rw [hlen]
    exact of_decide_eq_true hs
  · show c ≤ (s.bus.publishDomain event).published.length
    rw [hlen]
    exact le_succ_of_le (h.base.journal c hc)
  · show _ ≤ (s.bus.publishDomain event).published.length
    rw [hlen]
    exact le_succ_of_le h.base.floor
  · rcases ho x hx with hx | hx
    · exact h.base.above x hx
    · exact lt_of_le_of_lt h.base.floor hx
  · show _ ≤ (s.bus.publishDomain event).published.length ∧ _
    rw [hlen]
    exact ⟨le_succ_of_le (h.base.request r hr).1, (h.base.request r hr).2⟩
  · obtain ⟨r, hr, han⟩ := h.base.waiting page hp
    exact ⟨r, hr, han.publishDomain event⟩
  · obtain ⟨ha, hf⟩ := h.running r hr hgen hact
    refine ⟨fun x hx => ?_, hf⟩
    rcases ho x hx with hx | hx
    · exact ha x hx
    · exact lt_of_le_of_lt (h.base.request r hr).1 hx
  · rcases ho x hx with hx | hx
    · exact h.late r page hr hgen hact hp x hx hle
    · exact absurd (le_trans hle hl) (not_le.2 hx)
  · rcases ho x hx with hx | hx
    · exact h.awaited hact x hx hle
    · exact absurd (le_trans hle hl) (not_le.2 hx)

theorem Sound.answer (h : Sound s) (hr : s.feed.recovery = some r)
    (l : Nat) :
    Sound { s with reply := some (s.bus.feedBackfill r.after l) } := by
  refine ⟨⟨h.base.bus, h.base.counted, h.base.safe, h.base.suspended,
    h.base.journal, h.base.floor, h.base.above, h.base.request,
    fun p hp => ?_⟩, h.running,
    fun r' p _ _ _ hp x _ hle => ?_, h.awaited⟩
  · cases hp
    exact ⟨r, hr, feedBackfill_answers h.base.bus (h.base.request r hr).1 l⟩
  · cases hp
    left
    rw [latestCursor_feedBackfill h.base.bus]
    exact le_trans hle h.base.last_le

theorem Sound.connected (h : Sound s) {ui ri : String}
    (hl : s.lawful (.connected ui ri) = true) :
    Sound { s with feed := s.feed.liveConnected ui ri } := by
  unfold LiveFeed.liveConnected
  split
  · exact h
  · next ho =>
    have hs : (s.feed.pushed.head?.all fun f =>
        s.settled ⟨ri, ui⟩ f (s.feed.lastFeedCursor.getD 0)) = true := by
      simpa [lawful, ho] using hl
    generalize hf : ({ s.feed with
      seenMsgIds := []
      seenCursors := []
      sessionScope := some (ui, ri)
      session := ⟨ri, ui⟩
      recoveryGeneration := s.feed.recoveryGeneration + 1
      recoveryAfter := none } : LiveFeed) = feed'
    have hd : ∀ x, Owed s.bus feed' x →
        s.feed.lastFeedCursor.getD 0 < x := by
      rintro x ⟨hb, hun, hsil, f, hfr, hlt⟩
      subst hf
      rw [hfr] at hs
      exact not_owed hs hb hun hsil hlt
    subst hf
    refine ⟨⟨h.base.bus, ⟨h.base.counted.once, fun c hc => ?_,
      h.base.counted.last, h.base.counted.known, h.base.counted.nothing⟩,
      h.base.safe, h.base.suspended, h.base.journal, h.base.last_le,
      hd, fun r hr => ?_, h.base.waiting⟩, fun r hr hgen _ => ?_,
      fun r page hr hgen _ _ _ _ _ => ?_, fun _ x hx hle => ?_⟩
    · cases hc
    · exact ⟨(h.base.request r hr).1, le_succ_of_le (h.base.request r hr).2⟩
    · have hle := (h.base.request r hr).2
      have hgen : r.generation = s.feed.recoveryGeneration + 1 := hgen
      omega
    · have hle := (h.base.request r hr).2
      have hgen : r.generation = s.feed.recoveryGeneration + 1 := hgen
      omega
    · exact absurd hle (not_le.2 (hd x hx))

theorem Base.retire (h : Base s) (a : Bool) {feed' : LiveFeed}
    (heq : feed' = { s.feed with
      presentationActive := a
      recoveryGeneration := s.feed.recoveryGeneration + 1
      staged := feed'.staged }) :
    Base { s with feed := feed' } ∧ Running { s with feed := feed' } := by
  have hl : ∀ x, Owed s.bus feed' x → Owed s.bus s.feed x := by
    intro x hx
    rw [heq] at hx
    exact ⟨hx.1, hx.2, hx.3, hx.4⟩
  refine ⟨⟨h.bus, ?_, h.safe, ?_, ?_, ?_, fun x hx => ?_, fun r hr => ?_,
    ?_⟩, fun r hr hg _ => ?_⟩
  · rw [heq]
    exact ⟨h.counted.once, h.counted.seen, h.counted.last, h.counted.known,
      h.counted.nothing⟩
  · rw [heq]
    exact h.suspended
  · rw [heq]
    exact h.journal
  · rw [heq]
    exact h.floor
  · have ha := h.above x (hl x hx)
    rw [heq]
    exact ha
  · rw [heq] at hr ⊢
    exact ⟨(h.request r hr).1, le_succ_of_le (h.request r hr).2⟩
  · rw [heq]
    exact h.waiting
  · rw [heq] at hr hg
    have hle := (h.request r hr).2
    have hg : r.generation = s.feed.recoveryGeneration + 1 := hg
    omega

theorem alike_flushStaged (feed : LiveFeed) (now : Nat) :
    feed.Alike (feed.flushStaged now) := by
  rw [flushStaged_eq]
  exact alike_rows _ _ _ _ _ _ _ _

theorem Sound.presentation (h : Sound s) (active : Bool) (now : Nat) :
    Sound { s with feed := s.feed.setPresentationActive active now } := by
  unfold LiveFeed.setPresentationActive
  split
  · exact h
  · cases active with
    | true =>
      obtain ⟨hb, hr⟩ := @Base.retire s h.base true { s.feed with
        presentationActive := true
        recoveryGeneration := s.feed.recoveryGeneration + 1 } rfl
      exact hb.recoverFeed hr
    | false =>
      have hf := h.alike (alike_flushStaged s.feed now)
      obtain ⟨hb, hr⟩ :=
        @Base.retire _ hf.base false { s.feed.flushStaged now with
          presentationActive := false
          recoveryGeneration :=
            (s.feed.flushStaged now).recoveryGeneration + 1
          staged := [] } rfl
      exact ⟨hb, hr, (fun _ _ _ _ hact => by cases hact),
        fun hact => by cases hact⟩

theorem Sound.lowerFloor (h : Sound s)
    (hls : s.feed.lastFeedCursor.isSome = true) :
    Sound { s with feed := s.feed.lowerFloor } := by
  obtain ⟨last, hls⟩ := isSome_iff_exists.1 hls
  have hl : ∀ x, Owed s.bus s.feed.lowerFloor x
      → Owed s.bus s.feed x := fun x hx => ⟨hx.1, hx.2, hx.3, hx.4⟩
  have hf : s.feed.lowerFloor.floor ≤ s.feed.floor := by
    show min (s.feed.recoveryAfter.getD _) _ ≤ _
    unfold LiveFeed.floor
    cases s.feed.recoveryAfter with
    | none => exact min_le_right _ _
    | some f => exact min_le_left _ _
  refine ⟨⟨h.base.bus, ⟨h.base.counted.once, h.base.counted.seen,
    h.base.counted.last, h.base.counted.known, h.base.counted.nothing⟩,
    h.base.safe, h.base.suspended, h.base.journal,
    le_trans hf h.base.floor, fun x hx =>
      lt_of_le_of_lt hf (h.base.above x (hl x hx)),
    h.base.request, h.base.waiting⟩, fun r hr hgen hact => ?_,
    fun r page hr hgen hact hp x hx =>
      h.late r page hr hgen hact hp x (hl x hx),
    fun hact x hx => h.awaited hact x (hl x hx)⟩
  obtain ⟨ha, f, haf, hle, -⟩ := h.running r hr hgen hact
  refine ⟨fun x hx => ha x (hl x hx), _, rfl, ?_, fun hn => ?_⟩
  · rw [haf]
    exact le_trans (min_le_left _ _) hle
  · have hn : s.feed.lastFeedCursor = none := hn
    rw [hls] at hn
    cases hn

theorem exists_noteSequence (feed : LiveFeed) (sequence : Option Nat) :
    ∃ l, feed.noteSequence sequence
      = { feed with lastDeliverySequence := l } := by
  unfold LiveFeed.noteSequence
  split
  · exact ⟨_, rfl⟩
  · exact ⟨_, rfl⟩

variable {event : UiEvent} {c : Nat}

theorem Base.cursor (h : Base s) (hen : s.bus.entry c = some event)
    (outer : Bool) :
    (((if outer then some c else none).or event.feedCursor).filter
      isSafeInteger) = some c := by
  have hs : isSafeInteger c = true :=
    decide_eq_true (le_trans (EventBus.entry_le hen).2 h.safe)
  rw [h.bus.stamped c event hen]
  cases outer <;> simp [Option.filter, hs]

/-- What a live event may be, where the page stands. -/
def Taken (s : System) (event : UiEvent) (c : Nat) : Prop :=
  s.feed.presentationActive = true →
    s.feed.session.foreign event = false →
      remembers s.feed c = true ∧ (s.feed.lastFeedCursor = none →
        ∀ floor, s.feed.recoveryAfter = some floor →
          s.settled s.feed.session c floor = true)

variable {outer : Bool} {sequence : Option Nat}

theorem taken_of_lawful (hen : s.bus.entry c = some event)
    (hl : s.lawful (.deliver c outer sequence now) = true) :
    s.Taken event c := by
  intro hc h
  have hl : remembers s.feed c = true
      ∧ (s.feed.lastFeedCursor.isSome = true
        ∨ (s.feed.recoveryAfter.all fun f =>
          s.settled s.feed.session c f) = true) := by
    simpa [lawful, hen, hc, h] using hl
  refine ⟨hl.1, fun hn f hf => ?_⟩
  rcases hl.2 with hs | ha
  · rw [hn] at hs
    cases hs
  · rw [hf] at ha
    exact ha

theorem Sound.deliverNext (h : Sound s) (hen : s.bus.entry c = some event)
    (ht : s.Taken event c) (hn : c ≤ s.feed.lastFeedCursor.getD 0 + 1
      ∨ s.feed.lastFeedCursor = none) :
    Sound { s with feed := s.feed.pushFeedEvent event (some c) now } :=
  (h.push hen (fun _ => hn) (fun ha hf => (ht ha hf).1)
    (fun ha hf => (ht ha hf).2)).2.2 (.inr hn)

theorem Sound.deliverAbove (h : Sound s) (hen : s.bus.entry c = some event)
    (ht : s.Taken event c) (hl : s.feed.lastFeedCursor.isSome = true) :
    Sound { s with feed :=
      let pushed := s.feed.lowerFloor.pushFeedEvent event (some c) now
      if pushed.presentationActive then pushed.recoverFeed else pushed } := by
  obtain ⟨hb, hr, hs⟩ :=
    @Sound.push _ (h.lowerFloor hl) event c now hen
      (fun hn => by cases hn)
      (fun hact ho => (ht hact ho).1)
      (fun _ _ hn => by
        have hn : s.feed.lastFeedCursor = none := hn
        rw [hn] at hl
        cases hl)
  dsimp only
  split
  · exact hb.recoverFeed hr
  · next hh =>
    refine hs (.inl ?_)
    rcases s.feed.lowerFloor.pushFeedEvent_cases event c now with
      ⟨heq, -⟩ | ⟨hact, -, -, hp⟩
    · rw [heq] at hh
      exact Bool.eq_false_of_not_eq_true hh
    · rw [hp.eq] at hh
      exact absurd hact hh

theorem Sound.deliver (h : Sound s) (hen : s.bus.entry c = some event)
    (hlw : s.lawful (.deliver c outer sequence now) = true) :
    Sound { s with feed := (s.feed.liveUiEvent event sequence
      (if outer then some c else none) now) } := by
  unfold LiveFeed.liveUiEvent
  rw [h.base.cursor hen outer]
  -- the delivery sequence is no matter here
  obtain ⟨last, heq⟩ := exists_noteSequence s.feed sequence
  have hs : Sound { s with feed := s.feed.noteSequence sequence } := by
    refine h.alike ?_
    rw [heq]
    exact alike_rows _ _ _ _ _ _ _ _
  have ht :
      Taken { s with feed := s.feed.noteSequence sequence } event c := by
    have ht := taken_of_lawful hen hlw
    rw [heq]
    exact ht
  generalize s.feed.noteSequence sequence = feed at hs ht
  dsimp only [any_some]
  rcases Bool.eq_false_or_eq_true
    (feed.lastFeedCursor.any (· + 1 < c)) with hgap | hgap
  · have hls : feed.lastFeedCursor.isSome = true := by
      cases hl : feed.lastFeedCursor with
      | none =>
        rw [hl] at hgap
        cases hgap
      | some l => rfl
    simp only [hgap, Bool.true_and, if_true]
    exact hs.deliverAbove hen ht hls
  · have hn : c ≤ feed.lastFeedCursor.getD 0 + 1
        ∨ feed.lastFeedCursor = none := by
      cases hl : feed.lastFeedCursor with
      | none => exact .inr rfl
      | some l =>
        rw [hl] at hgap
        exact .inl (not_lt.1 (of_decide_eq_false hgap))
    simp only [hgap, Bool.false_and, if_neg Bool.false_ne_true]
    exact hs.deliverNext hen ht hn

-- ==== others

theorem Sound.recoverVisible (h : Sound s) :
    Sound { s with feed := s.feed.recoverVisible } := by
  unfold LiveFeed.recoverVisible
  split
  · exact h.recoverFeed
  · exact h

theorem Sound.projectionStats (h : Sound s)
    (ff fbd : Option Nat) :
    Sound { s with
      feed := s.feed.projectionStats ff fbd } := by
  have hs : ∀ (feed : LiveFeed) (p : Prop) [Decidable p],
      Sound { s with feed := feed } →
        Sound { s with
          feed := if p then feed.recoverVisible else feed } := by
    intro feed p _ h
    split
    · exact h.recoverVisible
    · exact h
  have hf : ∀ l, Sound { s with
      feed := { s.feed with lastDeliverySequence := l } } := fun l =>
    h.alike (alike_rows _ _ _ _ _ _ _ _)
  unfold LiveFeed.projectionStats
  split
  · exact hs _ _ (hf _)
  · exact (hs _ _ (hs _ _ (hf _))).alike (alike_rows _ _ _ _ _ _ _ _)

theorem Sound.refresh (h : Sound s) :
    Sound { s with feed := s.feed.refresh } := by
  unfold LiveFeed.refresh
  split
  · exact h.recoverFeed
  · exact h

theorem Sound.next {a : Action} (h : Sound s)
    (ho : s.feed.disposed = false) (hl : s.lawful a = true)
    (hn : s.next a = some t) : Sound t ∨ t.feed = s.feed.dispose := by
  have hh : ∀ f, s.handle f = some { s with feed := f s.feed } :=
    fun f => if_neg (by simp [ho])
  have hrw : ∀ feed', s.feed.Alike feed' →
      Sound { s with feed := feed' } := fun _ ha => h.alike ha
  cases a with
  | publish event =>
    cases hn
    exact .inl (h.publish event hl)
  | deliver c outer sequence now =>
    obtain ⟨event, hen, hn⟩ := bind_eq_some_iff.1 hn
    rw [hh] at hn
    cases hn
    exact .inl (h.deliver hen hl)
  | answer l =>
    simp only [System.next] at hn
    split at hn
    · next hr _ =>
      cases hn
      exact .inl (h.answer hr l)
    · cases hn
  | receive now =>
    obtain ⟨page, hp, rfl⟩ := map_eq_some_iff.1 hn
    exact .inl (h.receive hp ho hl)
  | reject now =>
    simp only [System.next] at hn
    split at hn
    · next hs =>
      obtain ⟨r, hr⟩ := isSome_iff_exists.1 hs
      cases hn
      exact .inl (h.reject hr ho now)
    · cases hn
  | presentation ac now =>
    cases hn
    exact .inl (h.presentation ac now)
  | connected uniqueId roomId =>
    rw [System.next, hh] at hn
    cases hn
    exact .inl (h.connected hl)
  | gapNotified =>
    rw [System.next, hh] at hn
    cases hn
    exact .inl (h.recoverVisible)
  | stats ff fbd =>
    rw [System.next, hh] at hn
    cases hn
    exact .inl (h.projectionStats ff fbd)
  | refresh =>
    cases hn
    exact .inl (h.refresh)
  | frame now =>
    cases hn
    exact .inl (hrw _ (alike_flushStaged s.feed now))
  | liveError now =>
    rw [System.next, hh] at hn
    cases hn
    refine .inl (hrw _ ?_)
    rw [systemNotice_eq]
    exact alike_rows _ _ _ _ _ _ _ _
  | resetEvents =>
    cases hn
    exact .inl (hrw _ (alike_rows s.feed _ _ _ _ _ _ _))
  | dispose =>
    cases hn
    exact .inr rfl

end System
end TikTools.Feed
