/-
What a live event and a page of a recovery do to what is owed.

A live event moves the last cursor; what it leaves behind is at most the
gap below it, for which a recovery is asked (`Sound.push`). A page is
taken entry by entry (`Fed`). After it nothing of the room is owed up to
where it ends, except what is older than the journal, and that is
announced (`Caught`).
-/
import TikTools.Feed.Floor

namespace TikTools.Feed

open TikTools.Lib List Option Nat

namespace LiveFeed

variable {s t : LiveFeed}

theorem Counted.withCursor (h : Counted s) {c : Nat} (hc : c ∉ s.pushed) :
    Counted (s.withCursor c) where
  once := nodup_append.2 ⟨h.once, nodup_singleton c,
    fun a ha b hb hab => hc (mem_singleton.1 hb ▸ hab ▸ ha)⟩
  seen := fun d hd => by
    rcases mem_append.1 ((keepNewest_sublist _ _).mem hd) with hd | hd
    · exact mem_append_left _ (h.seen d hd)
    · exact mem_append_right _ hd
  last := fun d hd => by
    rcases mem_append.1 hd with hd | hd
    · exact le_trans (h.last d hd) (le_max_left _ _)
    · rw [mem_singleton.1 hd]
      exact le_max_right _ _
  known := fun l hl => by
    cases hl
    rcases le_total (s.lastFeedCursor.getD 0) c with hle | hle
    · rw [max_eq_right hle]
      exact mem_append_right _ (mem_singleton_self c)
    · rw [max_eq_left hle]
      cases hls : s.lastFeedCursor with
      | some la => exact mem_append_left _ (h.known la hls)
      | none =>
        rw [hls] at hle
        rw [le_zero.1 hle]
        exact mem_append_right _ (mem_singleton_self 0)
  nothing := fun hn => by cases hn

theorem Pushed.counted (h : Pushed s c t) (hs : Counted (s.withCursor c)) :
    Counted t := by
  rw [h.eq]
  exact ⟨hs.once, hs.seen, hs.last, hs.known, hs.nothing⟩

/-- A page was taken. -/
structure Fed (s : LiveFeed) (entries : List FeedEntry) (t : LiveFeed) :
    Prop where
  eq : t = { s with
    seenCursors := t.seenCursors
    needsCursorSort := t.needsCursorSort
    events := t.events
    staged := t.staged
    nextEventId := t.nextEventId
    lastFeedCursor := t.lastFeedCursor
    pushed := t.pushed }
  order : InOrder s → InOrder t
  counted : Counted t
  grown : ∃ new, t.pushed = s.pushed ++ new
    ∧ ∀ c ∈ new, ∃ entry ∈ entries, entry.cursor = c
  taken : ∀ entry ∈ entries, s.session.foreign entry.event = false →
    entry.cursor ∈ t.pushed
  last : t.lastFeedCursor = s.lastFeedCursor
    ∨ ∃ entry ∈ entries, t.lastFeedCursor = some entry.cursor

/-- One entry after another, each that the room takes and that was not
pushed before. -/
theorem fed_pushEntries {s : LiveFeed} (h : Counted s)
    (ho : s.disposed = false) (ha : s.presentationActive = true)
    {en : List FeedEntry} {now : Nat}
    (hrm : System.remembersAll s now en = true) :
    Fed s en (s.pushEntries en now) := by
  induction en generalizing s with
  | nil =>
    exact ⟨rfl, id, h, ⟨[], (append_nil _).symm, fun _ hc => by
      cases hc⟩, (fun _ hen => by cases hen), .inl rfl⟩
  | cons entry r ih =>
    obtain ⟨hf, hr⟩ := Bool.and_eq_true_iff.1 hrm
    show Fed s (entry :: r)
      ((s.pushFeedEvent entry.event (some entry.cursor) now).pushEntries
        r now)
    rcases s.pushFeedEvent_cases entry.event entry.cursor now with
      ⟨heq, hwhy⟩ | ⟨-, hfr, hsn, hp⟩
    · rw [heq] at hr ⊢
      have hfed := ih h ho ha hr
      obtain ⟨new, hnew, hfm⟩ := hfed.grown
      refine ⟨hfed.eq, hfed.order, hfed.counted,
        ⟨new, hnew, fun c hc => ?_⟩, fun e he hou => ?_, ?_⟩
      · obtain ⟨e, he, hec⟩ := hfm c hc
        exact ⟨e, mem_cons_of_mem _ he, hec⟩
      · rcases mem_cons.1 he with rfl | he
        · rcases hwhy ho ha with hfr | hsn
          · rw [hou] at hfr
            cases hfr
          · rw [hnew]
            exact mem_append_left _ (h.seen _ hsn)
        · exact hfed.taken e he hou
      · exact hfed.last.imp_right fun ⟨e, he, hl⟩ =>
          ⟨e, mem_cons_of_mem _ he, hl⟩
    · generalize s.pushFeedEvent entry.event (some entry.cursor) now = u
        at hp hr
      have hn : entry.cursor ∉ s.pushed := fun hc => by
        rw [hfr, Bool.false_or, System.remembers, Bool.or_eq_true] at hf
        rcases hf with hf | hf
        · simp [hc] at hf
        · exact hsn (by simpa using hf)
      have hcn := hp.counted (h.withCursor hn)
      have hop : u.disposed = false := by
        rw [hp.eq]
        exact ho
      have hac : u.presentationActive = true := by
        rw [hp.eq]
        exact ha
      have hps : u.pushed = s.pushed ++ [entry.cursor] := by
        rw [hp.eq]
        rfl
      have hls : u.lastFeedCursor
          = some (max (s.lastFeedCursor.getD 0) entry.cursor) := by
        rw [hp.eq]
        rfl
      have hss : u.session = s.session := by
        rw [hp.eq]
        rfl
      have hfed := ih hcn hop hac hr
      obtain ⟨new, hnew, hfm⟩ := hfed.grown
      refine ⟨?_, fun hor => hfed.order (hp.order hor),
        hfed.counted, ⟨entry.cursor :: new, ?_, fun c hc => ?_⟩,
        fun e he hou => ?_, ?_⟩
      · rw [hfed.eq, hp.eq]
        rfl
      · rw [hnew, hps, append_assoc, singleton_append]
      · rcases mem_cons.1 hc with rfl | hc
        · exact ⟨entry, mem_cons_self, rfl⟩
        · obtain ⟨e, he, hec⟩ := hfm c hc
          exact ⟨e, mem_cons_of_mem _ he, hec⟩
      · rcases mem_cons.1 he with rfl | he
        · rw [hnew, hps]
          exact mem_append_left _ (mem_append_right _ (mem_singleton_self _))
        · exact hfed.taken e he (hss ▸ hou)
      · rcases hfed.last with hl | ⟨e, he, hl⟩
        · rw [hl, hls]
          rcases le_total (s.lastFeedCursor.getD 0) entry.cursor
            with hle | hle
          · rw [max_eq_right hle]
            exact .inr ⟨entry, mem_cons_self, rfl⟩
          · rw [max_eq_left hle]
            cases hs : s.lastFeedCursor with
            | some l => exact .inl rfl
            | none =>
              rw [hs] at hle
              refine .inr ⟨entry, mem_cons_self, ?_⟩
              rw [le_zero.1 hle]
              rfl
        · exact .inr ⟨e, mem_cons_of_mem _ he, hl⟩

end LiveFeed

variable {s : System}

namespace System

theorem not_owed {se : Session} {a u c : Nat}
    (h : s.settled se a u = true)
    (hb : ∃ e, s.bus.entry c = some e ∧ se.foreign e = false)
    (hun : c ∉ s.feed.pushed) (hs : announced s.feed c = false)
    (ha : a < c) : u < c := by
  by_contra hle
  have hmem : c ∈ List.range' (a + 1) (u - a) := by
    rw [mem_range'_1]
    omega
  have hnot := all_eq_true.1 h c hmem
  obtain ⟨e, hev, hf⟩ := hb
  have hms : s.missing se c = true := by
    unfold missing
    rw [hev, any_some, hf, hs]
    simpa using hun
  rw [hms] at hnot
  cases hnot

theorem Base.first (h : Base s) (hl : s.feed.lastFeedCursor = none) :
    s.feed.pushed = [] :=
  h.counted.nothing hl

/-- After an event was pushed the page owes what it owed before, without
that event, or what follows the first one seen. -/
theorem owed_of_pushed {bus : EventBus} {feed feed' : LiveFeed} {c x : Nat}
    (h : feed.Pushed c feed') (ho : Owed bus feed' x) :
    x ≠ c ∧ x ∉ feed.pushed ∧ announced feed x = false
      ∧ (∃ event, bus.entry x = some event
        ∧ feed.session.foreign event = false)
      ∧ (Owed bus feed x ∨ feed.pushed = [] ∧ c < x) := by
  rw [h.eq] at ho
  obtain ⟨hb, hun, hsil, first, hf, hlt⟩ := ho
  have hold : x ∉ feed.pushed := fun hx => hun (mem_append_left _ hx)
  have hne : x ≠ c := by
    rintro rfl
    exact hun (mem_append_right _ (mem_singleton_self x))
  refine ⟨hne, hold, hsil, hb, ?_⟩
  have hf : (feed.pushed ++ [c]).head? = some first := hf
  cases hp : feed.pushed with
  | nil =>
    rw [hp] at hf
    cases hf
    exact .inr ⟨rfl, hlt⟩
  | cons a rest =>
    rw [hp] at hf
    cases hf
    exact .inl ⟨hb, hold, hsil, first, by rw [hp]; rfl, hlt⟩

/-- A live event, with the gap below it, if there is one, already noted in
the floor. -/
theorem Sound.push (h : Sound s) {e : UiEvent} {c now : Nat}
    (hen : s.bus.entry c = some e)
    (hgap : s.feed.recoveryAfter = none →
      c ≤ s.feed.lastFeedCursor.getD 0 + 1 ∨ s.feed.lastFeedCursor = none)
    (hrm : s.feed.presentationActive = true →
      s.feed.session.foreign e = false → remembers s.feed c = true)
    (hfi : s.feed.presentationActive = true →
      s.feed.session.foreign e = false →
      s.feed.lastFeedCursor = none → ∀ f,
        s.feed.recoveryAfter = some f → s.settled s.feed.session c f = true) :
    Base { s with feed := s.feed.pushFeedEvent e (some c) now }
      ∧ Running { s with feed := s.feed.pushFeedEvent e (some c) now }
      ∧ (s.feed.presentationActive = false
        ∨ c ≤ s.feed.lastFeedCursor.getD 0 + 1
        ∨ s.feed.lastFeedCursor = none →
        Sound { s with
          feed := s.feed.pushFeedEvent e (some c) now }) := by
  rcases s.feed.pushFeedEvent_cases e c now with
    ⟨heq, -⟩ | ⟨hac, hfo, hs, hp⟩
  · rw [heq]
    exact ⟨h.base, h.running, fun _ => h⟩
  have hrm := hrm hac hfo
  have hfi := hfi hac hfo
  generalize s.feed.pushFeedEvent e (some c) now = feed' at hp
  have hnew : c ∉ s.feed.pushed := fun hc => by
    simp [remembers, hc, hs] at hrm
  have hcn := hp.counted (h.base.counted.withCursor hnew)
  have ho := fun x => @owed_of_pushed s.bus s.feed feed' c x hp
  have heq := hp.eq
  have hrc : feed'.recovery = s.feed.recovery := by rw [heq]; rfl
  have hgen : feed'.recoveryGeneration = s.feed.recoveryGeneration := by
    rw [heq]; rfl
  have hrq : feed'.recoveryRequested = s.feed.recoveryRequested := by
    rw [heq]; rfl
  have hact : feed'.presentationActive = s.feed.presentationActive := by
    rw [heq]; rfl
  have haf : feed'.recoveryAfter = s.feed.recoveryAfter := by
    rw [heq]; rfl
  have hls : feed'.lastFeedCursor
      = some (max (s.feed.lastFeedCursor.getD 0) c) := by rw [heq]; rfl
  have hps : feed'.pushed = s.feed.pushed ++ [c] := by rw [heq]; rfl
  have hle := (EventBus.entry_le hen).2
  have hla : s.feed.lastFeedCursor.getD 0 ≤ s.bus.published.length := by
    cases hl : s.feed.lastFeedCursor with
    | none => exact zero_le _
    | some l => exact h.base.journal l (h.base.counted.known l hl)
  -- before the first event the page owes nothing
  have hnt : s.feed.pushed = [] → s.feed.lastFeedCursor = none := by
    intro hem
    cases hl : s.feed.lastFeedCursor with
    | none => rfl
    | some l =>
      have hmem := h.base.counted.known l hl
      rw [hem] at hmem
      cases hmem
  have hab : ∀ x f, s.feed.recoveryAfter = some f →
      Owed s.bus feed' x → f < x := by
    intro x f hfr hx
    obtain ⟨-, hun, hsil, hb, hwas⟩ := ho x hx
    rcases hwas with hwas | ⟨hem, hlt⟩
    · have hfl := h.base.above x hwas
      rwa [LiveFeed.floor, hfr] at hfl
    · exact not_owed (hfi (hnt hem) f hfr) hb hun hsil hlt
  have hbs : Base { s with feed := feed' } := by
    refine ⟨h.base.bus, hcn, h.base.safe, ?_, ?_, ?_, ?_, ?_, ?_⟩
    · show feed'.unjournaledSuspended = 0
      rw [heq]
      exact h.base.suspended
    · intro d hd
      rw [hps] at hd
      rcases mem_append.1 hd with hd | hd
      · exact h.base.journal d hd
      · rw [mem_singleton.1 hd]
        exact hle
    · show feed'.floor ≤ _
      have hold := h.base.floor
      unfold LiveFeed.floor at hold ⊢
      rw [haf, hls]
      cases hR : s.feed.recoveryAfter with
      | none => exact Nat.max_le.2 ⟨hla, hle⟩
      | some f =>
        rw [hR] at hold
        exact hold
    · intro x hx
      unfold LiveFeed.floor
      rw [haf, hls]
      cases hR : s.feed.recoveryAfter with
      | some f => exact hab x f hR hx
      | none =>
        show max _ c < x
        obtain ⟨hne, -, -, -, hwas⟩ := ho x hx
        rcases hwas with hwas | ⟨hem, hlt⟩
        · have hfl := h.base.above x hwas
          have hfl : s.feed.lastFeedCursor.getD 0 < x := by
            rwa [LiveFeed.floor, hR] at hfl
          rcases hgap hR with hgap | hn
          · omega
          · obtain ⟨-, -, -, fi, hf, -⟩ := hwas
            rw [h.base.first hn] at hf
            cases hf
        · rw [hnt hem]
          exact Nat.max_lt.2 ⟨Nat.zero_lt_of_lt hlt, hlt⟩
    · simpa only [hrc, hgen] using h.base.request
    · simpa only [hrc] using h.base.waiting
  have hrn : Running { s with feed := feed' } := by
    intro r hr hg ha
    rw [hrc] at hr
    rw [hgen] at hg
    obtain ⟨hrb, f, hfr, hfle, hfeq⟩ := h.running r hr hg hac
    refine ⟨fun x hx => ?_, f, haf.trans hfr, hfle, ?_⟩
    · obtain ⟨-, -, -, -, hwas⟩ := ho x hx
      rcases hwas with hwas | ⟨hem, -⟩
      · exact hrb x hwas
      · rw [← hfeq (hnt hem)]
        exact hab x f hfr hx
    · intro hn
      rw [hls] at hn
      cases hn
  refine ⟨hbs, hrn, fun hnr => ?_⟩
  -- no further behind than before
  have hnr : ∀ x, Owed s.bus feed' x → x ≤ feed'.lastFeedCursor.getD 0 →
      Owed s.bus s.feed x ∧ x ≤ s.feed.lastFeedCursor.getD 0 := by
    intro x hx hxle
    rw [hls, getD_some] at hxle
    obtain ⟨hne, -, -, -, hwas⟩ := ho x hx
    rcases hwas with hwas | ⟨hem, hlt⟩
    · rcases hnr with hh | hnr | hn
      · rw [hac] at hh
        cases hh
      · refine ⟨hwas, ?_⟩
        omega
      · obtain ⟨-, -, -, fi, hf, -⟩ := hwas
        rw [h.base.first hn] at hf
        cases hf
    · rw [hnt hem, getD_none] at hxle
      omega
  refine ⟨hbs, hrn, ?_, ?_⟩
  · intro r page hr hg ha hpg x hx hxle
    rw [hrc] at hr
    rw [hgen] at hg
    rw [hrq]
    obtain ⟨hwas, hwle⟩ := hnr x hx hxle
    exact h.late r page hr hg hac hpg x hwas hwle
  · intro ha x hx hxle
    rw [hrc, hgen, hrq]
    obtain ⟨hwas, hwle⟩ := hnr x hx hxle
    exact h.awaited hac x hwas hwle

-- ==== a page

theorem Base.page (h : Base s) {p : FeedBackfill} {r : Recovery}
    (hp : s.reply = some p) (hr : s.feed.recovery = some r) :
    Answers s.bus r.after p ∧ LiveFeed.entriesAfter p r.after = p.events := by
  obtain ⟨r', hr', ha⟩ := h.waiting p hp
  rw [hr] at hr'
  cases hr'
  refine ⟨ha, filter_eq_self.2 fun e hen => ?_⟩
  obtain ⟨haf, hle, -⟩ := ha.held e hen
  have hs : e.cursor ≤ maxSafe := le_trans hle (le_trans ha.published h.safe)
  simp [isSafeInteger, hs, haf]

theorem Sound.caught (h : Sound s) {page : FeedBackfill} {r : Recovery}
    (hpg : s.reply = some page) (hr : s.feed.recovery = some r)
    (hgen : r.generation = s.feed.recoveryGeneration)
    (hac : s.feed.presentationActive = true)
    (hbc : s.reachesBack r page = true) {feed' : LiveFeed}
    (hfed : s.feed.Fed page.events feed') {x : Nat}
    (hx : Owed s.bus feed' x) :
    r.after < x ∧ (Owed s.bus s.feed x ∨ s.feed.pushed = [])
      ∧ (x ≤ page.latestCursor →
        (page.truncated = true ∧ ∀ e ∈ page.events, e.cursor < x)
          ∨ (page.gap = true ∧ ∃ e ∈ page.events, x < e.cursor)) := by
  obtain ⟨ha, -⟩ := h.base.page hpg hr
  obtain ⟨hrb, -⟩ := h.running r hr hgen hac
  obtain ⟨new, hnew, hfm⟩ := hfed.grown
  obtain ⟨hb, hun, hsil, first, hf, hlt⟩ := hx
  have hss : feed'.session = s.feed.session := by
    rw [hfed.eq]
  have hn : announced feed' x = announced s.feed x := by
    unfold announced
    rw [hfed.eq]
  rw [hss] at hb
  rw [hn] at hsil
  have hold : x ∉ s.feed.pushed := fun hx =>
    hun (hnew ▸ mem_append_left _ hx)
  have hwas : Owed s.bus s.feed x
      ∨ s.feed.pushed = [] ∧ ∃ e ∈ page.events, e.cursor < x := by
    rw [hnew] at hf
    cases hp : s.feed.pushed with
    | cons a rest =>
      rw [hp] at hf
      cases hf
      exact .inl ⟨hb, hold, hsil, first, by rw [hp]; rfl, hlt⟩
    | nil =>
      rw [hp, nil_append] at hf
      obtain ⟨e, he, rfl⟩ := hfm first (mem_of_head? hf)
      exact .inr ⟨rfl, e, he, hlt⟩
  have haf : r.after < x := by
    rcases hwas with hwas | ⟨-, e, he, hlt⟩
    · exact hrb x hwas
    · exact lt_trans (ha.held e he).1 hlt
  refine ⟨haf, hwas.imp_right And.left, fun hle => ?_⟩
  rcases ha.complete x haf hle with
    ⟨e, he, rfl⟩ | hfr | ⟨hwhy, hs, ho⟩
  · exfalso
    obtain ⟨event, hev, hours⟩ := hb
    rw [(ha.held e he).2.2] at hev
    cases hev
    exact hun (hfed.taken e he hours)
  · exact .inl hfr
  · rcases hwhy with hz | hgap
    · exfalso
      rcases hwas with hwas | ⟨-, e, he, hbl⟩
      · obtain ⟨-, -, -, first, hf, hlt⟩ := hwas
        have hbc : (page.events.head?.all fun oldest =>
            s.settled s.feed.session first (oldest.cursor - 1)) = true := by
          simpa [reachesBack, hz, hf] using hbc
        obtain ⟨e, he, -⟩ := hs
        obtain ⟨oldest, hh⟩ : ∃ oldest, page.events.head? = some oldest :=
          isSome_iff_exists.1 (by
            simpa using ne_nil_of_mem he)
        rw [hh] at hbc
        have hbl := not_owed hbc hb hold hsil hlt
        have hab := ho oldest (mem_of_head? hh)
        omega
      · exact absurd (ho e he) (not_lt.2 (le_of_lt hbl))
    · exact .inr ⟨hgap, hs⟩

end System
end TikTools.Feed
