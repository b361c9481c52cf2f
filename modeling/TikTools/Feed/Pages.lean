/-
What a page of a recovery leaves behind.

The entries are pushed, a notice stands for what the journal no longer
held, and then the recovery is over, goes on from where the page ended,
or gives up with a notice (`Base.receivePage_eq`). In each case nothing
is owed below the new floor (`Sound.receivePage`).
-/
import TikTools.Feed.Catchup


namespace TikTools.Feed

open TikTools.Lib LiveFeed List Nat

namespace LiveFeed

theorem furthest_spec (after : Nat) (en : List FeedEntry) :
    after ≤ furthest after en
      ∧ (∀ e ∈ en, e.cursor ≤ furthest after en)
      ∧ (furthest after en = after
        ∨ ∃ e ∈ en, furthest after en = e.cursor) := by
  induction en generalizing after with
  | nil => exact ⟨le_refl _, (fun _ he => by cases he), .inl rfl⟩
  | cons entry rest ih =>
    obtain ⟨hle, h, hw⟩ := ih (max after entry.cursor)
    show _ ≤ furthest (max after entry.cursor) rest
      ∧ (∀ e ∈ _, _ ≤ furthest (max after entry.cursor) rest)
      ∧ (furthest (max after entry.cursor) rest = _ ∨ _)
    refine ⟨le_trans (le_max_left _ _) hle, fun e he => ?_, ?_⟩
    · rcases mem_cons.1 he with rfl | he
      · exact le_trans (le_max_right _ _) hle
      · exact h e he
    · rcases hw with hs | ⟨e, he, heq⟩
      · rcases le_total after entry.cursor with hl | hl
        · exact .inr ⟨entry, mem_cons_self, hs.trans (max_eq_right hl)⟩
        · exact .inl (hs.trans (max_eq_left hl))
      · exact .inr ⟨e, mem_cons_of_mem _ he, heq⟩

theorem alike_insertDiscontinuity (feed : LiveFeed)
    (a u now : Nat) :
    feed.Alike (feed.insertDiscontinuity a u now) := by
  rw [insertDiscontinuity_eq]
  exact ⟨rfl, rfl, rfl, rfl, rfl, rfl, rfl, rfl, rfl, rfl, rfl,
    fun n hn => mem_append_left _ hn⟩

variable {feed : LiveFeed}

theorem announced_insertDiscontinuity {a u now x : Nat}
    (ha : a < x) (hle : x ≤ u) :
    announced (feed.insertDiscontinuity a u now) x = true := by
  rw [insertDiscontinuity_eq]
  refine any_eq_true.2 ⟨(a, u), mem_append_right _ (mem_singleton_self _), ?_⟩
  simp [ha, hle]

theorem InOrder.insertDiscontinuity (h : InOrder feed) (a u now : Nat) :
    InOrder (feed.insertDiscontinuity a u now) := by
  have hr := cursors_systemNotice
    { feed with notices := feed.notices ++ [(a, u)] } now
  unfold LiveFeed.insertDiscontinuity
  refine h.mono ?_ hr ?_ ?_
  all_goals rw [systemNotice_eq]

end LiveFeed

variable {s t : System}

variable {page : FeedBackfill}

namespace System

-- ==== a page

/-- The feed after a page, with a notice if the journal is cut off. -/
def afterPage (feed : LiveFeed) (page : FeedBackfill) (after now : Nat) :
    LiveFeed :=
  let taken := feed.pushEntries page.events now
  if page.gap then
    taken.insertDiscontinuity after (furthest after page.events) now
  else taken

/-- What a page leaves. -/
structure Paged (s : System) (page : FeedBackfill) (r : Recovery)
    (feed' : LiveFeed) : Prop where
  base : Base { s with reply := none, feed := feed' }
  recovery : feed'.recovery = some r
  generation : feed'.recoveryGeneration = s.feed.recoveryGeneration
  requested : feed'.recoveryRequested = s.feed.recoveryRequested
  active : feed'.presentationActive = true
  disposed : feed'.disposed = s.feed.disposed
  after : feed'.recoveryAfter = s.feed.recoveryAfter
  further : ∀ x, Owed s.bus feed' x →
    furthest r.after page.events < x
      ∧ (x ≤ page.latestCursor → page.truncated = true)
  behind : ∀ x, Owed s.bus feed' x → x ≤ feed'.lastFeedCursor.getD 0 →
    x ≤ page.latestCursor ∨ s.feed.recoveryRequested = true
  order : InOrder s.feed → InOrder feed'

variable {now : Nat} {r : Recovery}

theorem Sound.paged (h : Sound s)
    (hp : s.reply = some page) (hr : s.feed.recovery = some r)
    (hop : s.feed.disposed = false)
    (hgen : r.generation = s.feed.recoveryGeneration)
    (hac : s.feed.presentationActive = true)
    (hrm : remembersAll s.feed now page.events = true)
    (hbc : s.reachesBack r page = true) :
    Paged s page r (afterPage s.feed page r.after now) := by
  have hfed := fed_pushEntries h.base.counted hop hac hrm
  obtain ⟨han, -⟩ := h.base.page hp hr
  obtain ⟨-, floor, hfr, hfle, -⟩ := h.running r hr hgen hac
  obtain ⟨-, hmax, hw⟩ := furthest_spec r.after page.events
  have hcg := fun x hx => @Sound.caught s h page r hp hr hgen hac
    hbc _ hfed x hx
  unfold afterPage
  generalize s.feed.pushEntries page.events now = taken at hfed hcg
  -- the notice, if any, is the only difference from here
  obtain ⟨feed', hf'⟩ : ∃ feed', feed' = (if page.gap then
      taken.insertDiscontinuity r.after (furthest r.after page.events) now
      else taken) := ⟨_, rfl⟩
  have ha : taken.Alike feed' := by
    rw [hf']
    split
    · exact alike_insertDiscontinuity _ _ _ _
    · exact ⟨rfl, rfl, rfl, rfl, rfl, rfl, rfl, rfl, rfl, rfl, rfl,
        fun _ hn => hn⟩
  have ho : InOrder taken → InOrder feed' := by
    intro ho
    rw [hf']
    split
    · exact ho.insertDiscontinuity _ _ _
    · exact ho
  have hsil : ∀ x, page.gap = true → r.after < x →
      x ≤ furthest r.after page.events → announced feed' x = true := by
    intro x hgap haf hle
    rw [hf', if_pos hgap]
    exact announced_insertDiscontinuity haf hle
  rw [← hf']
  have hf : ∀ x, Owed s.bus feed' x →
      furthest r.after page.events < x
        ∧ (x ≤ page.latestCursor → page.truncated = true) := by
    intro x hx
    obtain ⟨haf, -, hwhy⟩ := hcg x (hx.alike ha)
    have hnot : ∀ e ∈ page.events, page.gap = true → ¬ x ≤ e.cursor := by
      intro e he hgap hle
      have hann := hsil x hgap haf (le_trans hle (hmax e he))
      rw [hx.silent] at hann
      cases hann
    refine ⟨Nat.lt_of_not_le fun hle => ?_, fun hle => ?_⟩
    · rcases hw with hs | ⟨e, he, heq⟩
      · rw [hs] at hle
        exact absurd haf (Nat.not_lt.2 hle)
      · rw [heq] at hle
        rcases hwhy (Nat.le_trans hle (han.held e he).2.1) with
          ⟨-, hb⟩ | ⟨hgap, -⟩
        · exact absurd (hb e he) (not_lt.2 hle)
        · exact hnot e he hgap hle
    · rcases hwhy hle with ⟨ht, -⟩ | ⟨hgap, e, he, hlt⟩
      · exact ht
      · exact absurd (Nat.le_of_lt hlt) (hnot e he hgap)
  have hrs : taken.recovery = s.feed.recovery
      ∧ taken.recoveryGeneration = s.feed.recoveryGeneration
      ∧ taken.recoveryRequested = s.feed.recoveryRequested
      ∧ taken.presentationActive = s.feed.presentationActive
      ∧ taken.disposed = s.feed.disposed
      ∧ taken.recoveryAfter = s.feed.recoveryAfter
      ∧ taken.unjournaledSuspended = s.feed.unjournaledSuspended := by
    rw [hfed.eq]
    exact ⟨rfl, rfl, rfl, rfl, rfl, rfl, rfl⟩
  obtain ⟨hrec, hge, hreq, hact, hdis, haft, hsus⟩ := hrs
  have hbs : Base { s with reply := none, feed := taken } := by
    obtain ⟨new, hnew, hfm⟩ := hfed.grown
    have hfl : taken.floor = floor := by
      unfold LiveFeed.floor
      rw [haft, hfr]
      rfl
    have hfb := h.base.request r hr
    refine ⟨h.base.bus, hfed.counted, h.base.safe,
      hsus.trans h.base.suspended, ?_, ?_, ?_, ?_, ?_⟩
    · intro c hc
      rw [hnew] at hc
      rcases mem_append.1 hc with hc | hc
      · exact h.base.journal c hc
      · obtain ⟨e, he, rfl⟩ := hfm c hc
        exact le_trans (han.held e he).2.1 han.published
    · show taken.floor ≤ _
      rw [hfl]
      exact le_trans hfle hfb.1
    · intro x hx
      rw [hfl]
      exact lt_of_le_of_lt hfle (hcg x hx).1
    · simpa only [hrec, hge] using h.base.request
    · intro _ hnn
      cases hnn
  refine ⟨hbs.alike ha, ha.recovery.trans (hrec.trans hr),
    ha.generation.trans hge, ha.requested.trans hreq,
    ha.active.trans (hact.trans hac), ha.disposed.trans hdis,
    ha.after.trans haft, hf, fun x hx hle => ?_,
    fun hin => ho (hfed.order hin)⟩
  rw [ha.last] at hle
  obtain ⟨haf, hwas, -⟩ := hcg x (hx.alike ha)
  rcases hfed.last with hs | ⟨e, he, hls⟩
  · rw [hs] at hle
    rcases hwas with hwas | hem
    · exact h.late r page hr hgen hac hp x hwas hle
    · cases hl : s.feed.lastFeedCursor with
      | none =>
        rw [hl, Option.getD_none] at hle
        omega
      | some l =>
        have hmem := h.base.counted.known l hl
        rw [hem] at hmem
        cases hmem
  · rw [hls, Option.getD_some] at hle
    have hlt := (hf x hx).1
    have hle' := hmax e he
    omega

theorem Base.receivePage_eq (h : Base s)
    (hp : s.reply = some page) (hr : s.feed.recovery = some r) (now : Nat) :
    s.feed.receivePage r page now =
      let feed := afterPage s.feed page r.after now
      let next := furthest r.after page.events
      if !page.truncated then
        (if feed.recoveryRequested then feed
          else { feed with recoveryAfter := none }).finishRecovery
      else if next ≤ r.after ∨ r.page = lastPage then
        (feed.insertDiscontinuity r.after
          (max next (feed.lastFeedCursor.getD 0)) now).finishRecovery
      else { feed with recoveryAfter := some next }.nextPage r next := by
  obtain ⟨ha, hen⟩ := h.page hp hr
  unfold LiveFeed.receivePage
  rw [if_neg (not_lt.2 ha.latest), h.suspended, if_neg (lt_irrefl 0), hen]
  rfl

theorem Sound.receivePage (h : Sound s)
    (hpg : s.reply = some page) (hr : s.feed.recovery = some r)
    (ho : s.feed.disposed = false)
    (hgen : r.generation = s.feed.recoveryGeneration)
    (hac : s.feed.presentationActive = true)
    (hrm : remembersAll s.feed now page.events = true)
    (hbc : s.reachesBack r page = true) :
    Sound { s with
      reply := none, feed := s.feed.receivePage r page now } := by
  have hp := h.paged hpg hr ho hgen hac hrm hbc
  rw [h.base.receivePage_eq hpg hr now]
  generalize afterPage s.feed page r.after now = feed' at hp
  obtain ⟨han, -⟩ := h.base.page hpg hr
  obtain ⟨hnx, -, hwh⟩ := furthest_spec r.after page.events
  have hf := hp.further
  generalize furthest r.after page.events = next at hf hnx hwh
  have ho' : feed'.disposed = false := hp.disposed.trans ho
  dsimp only
  split
  · next hw =>
    have hw : page.truncated = false := by simpa using hw
    have hby : ∀ x, Owed s.bus feed' x → page.latestCursor < x := by
      intro x hx
      refine Nat.lt_of_not_le fun hle => ?_
      have ht := (hf x hx).2 hle
      rw [hw] at ht
      cases ht
    split
    · next hrq =>
      refine hp.base.finishRecovery rfl ho' fun _ hq => ?_
      rw [hrq] at hq
      cases hq
    · next hq =>
      have hd : ∀ x, Owed s.bus feed' x →
          feed'.lastFeedCursor.getD 0 < x := by
        intro x hx
        refine Nat.lt_of_not_le fun hle => ?_
        rcases hp.behind x hx hle with hle | hrq
        · exact absurd (hby x hx) (Nat.not_lt.2 hle)
        · rw [← hp.requested] at hrq
          exact hq hrq
      have hlk : ∀ x, Owed s.bus { feed' with recoveryAfter := none } x
          → Owed s.bus feed' x := fun x hx => ⟨hx.1, hx.2, hx.3, hx.4⟩
      have hb := hp.base
      have hfl : Base { s with
          reply := none, feed := { feed' with recoveryAfter := none } } := by
        refine ⟨hb.bus, ⟨hb.counted.once, hb.counted.seen,
          hb.counted.last, hb.counted.known, hb.counted.nothing⟩,
          hb.safe, hb.suspended, hb.journal, ?_, ?_,
          hb.request, hb.waiting⟩
        · show feed'.lastFeedCursor.getD 0 ≤ _
          cases hl : feed'.lastFeedCursor with
          | none => exact zero_le _
          | some l => exact hb.journal l (hb.counted.known l hl)
        · exact fun x hx => hd x (hlk x hx)
      exact hfl.finishRecovery rfl ho' fun _ _ x hx =>
        hd x (hlk x hx)
  · split
    · -- no further page is asked for, and a notice says so
      next hst =>
      have ha := alike_insertDiscontinuity feed' r.after
        (max next (feed'.lastFeedCursor.getD 0)) now
      refine (hp.base.alike ha).finishRecovery rfl
        (ha.disposed.trans ho') fun _ _ x hx => ?_
      refine Nat.lt_of_not_le fun hle => ?_
      rw [ha.last] at hle
      have hlt := (hf x (hx.alike ha)).1
      have hann := @announced_insertDiscontinuity feed' r.after
        (max next (feed'.lastFeedCursor.getD 0)) now x
        (lt_of_le_of_lt hnx hlt)
        (le_trans hle (le_max_right _ _))
      rw [hx.silent] at hann
      cases hann
    · next hon =>
      have hlk : ∀ x after re, Owed s.bus { feed' with
          recoveryAfter := after, recovery := re } x
          → Owed s.bus feed' x := fun x _ _ hx => ⟨hx.1, hx.2, hx.3, hx.4⟩
      have hpub : next ≤ s.bus.published.length := by
        rcases hwh with hs | ⟨e, he, heq⟩
        · exact hs ▸ (h.base.request r hr).1
        · exact heq ▸ le_trans (han.held e he).2.1 han.published
      have hb := hp.base
      unfold LiveFeed.nextPage
      rw [if_neg fun hls => hon (.inr hls)]
      refine ⟨⟨hb.bus, ⟨hb.counted.once, hb.counted.seen,
        hb.counted.last, hb.counted.known, hb.counted.nothing⟩,
        hb.safe, hb.suspended, hb.journal, hpub,
        fun x hx => (hf x (hlk x _ _ hx)).1, ?_, ?_⟩,
        ?_, ?_, ?_⟩
      · rintro r' hr'
        cases hr'
        exact ⟨hpub, (hgen.trans hp.generation.symm).le⟩
      · rintro _ hn
        cases hn
      · rintro r' hr' - -
        cases hr'
        exact ⟨fun x hx => (hf x (hlk x _ _ hx)).1, next,
          rfl, le_refl _, fun _ => rfl⟩
      · rintro _ _ _ _ _ hn
        cases hn
      · exact fun _ _ _ _ => ⟨_, rfl, .inl (hgen.trans hp.generation.symm)⟩

end System
end TikTools.Feed
