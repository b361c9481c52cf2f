/-
Paging through the feed while it goes on.

A page is a stretch of the cursors that are kept, so what it says of a
gap and of what follows is arithmetic on three numbers: the cursor asked
for, the last one evicted and the last one given out. A client that goes
on from the last cursor of each page collects what is kept, once and in
order, whatever is published between two pages.
-/
import TikTools.Feed.Journal

namespace TikTools.Feed

open List

-- ==== page after page

inductive Move where
  | publish (event : UiEvent)
  | page (limit : Nat)

/-- A client that pages from `after` on; `more` is what the last page
said. -/
structure Client where
  bus : EventBus
  after : Nat
  collected : List FeedEntry
  more : Bool

namespace Client

def move (c : Client) : Move → Client
  | .publish event => { c with bus := c.bus.publishDomain event }
  | .page limit =>
    let page := c.bus.feedBackfill c.after limit
    { c with
      after := (page.events.getLast?.map (·.cursor)).getD c.after
      collected := c.collected ++ page.events
      more := page.truncated }

/-- What holds of a client that began after the cursor `start`. -/
structure Follows (start : Nat) (c : Client) : Prop where
  ok : c.bus.Ok
  place : c.after = start ∨ start < c.after ∧ c.after ≤ c.bus.uiSequence
  sorted : (c.collected.map (·.cursor)).Pairwise (· < ·)
  held : ∀ e ∈ c.collected, e.cursor ≤ c.after
  complete : ∀ e ∈ c.bus.feedHistory, start < e.cursor →
    e.cursor ≤ c.after → e ∈ c.collected

variable {start : Nat} {c : Client}

theorem follows_start {bus : EventBus} (h : bus.Ok) (start : Nat) :
    Follows start ⟨bus, start, [], true⟩ where
  ok := h
  place := .inl rfl
  sorted := .nil
  held := fun _ he => absurd he not_mem_nil
  complete := fun _ _ hlt hle => absurd hle (Nat.not_le.2 hlt)

theorem Follows.move (h : Follows start c) (m : Move) :
    Follows start (c.move m) := by
  have hs : start ≤ c.after := by
    have := h.place
    omega
  cases m with
  | publish eve =>
    refine ⟨EventBus.ok_publishDomain h.ok eve, ?_, h.sorted, h.held, ?_⟩
    · exact h.place.imp_right fun h => ⟨h.1, Nat.le_succ_of_le h.2⟩
    · intro e he hlt hle
      change e ∈ (c.bus.publishDomain eve).feedHistory at he
      rw [EventBus.feedHistory_publishDomain] at he
      rcases mem_append.1 (mem_of_mem_drop he) with he | he
      · exact h.complete e he hlt hle
      · rw [mem_singleton.1 he] at hlt hle
        change c.bus.uiSequence + 1 ≤ c.after at hle
        change start < c.bus.uiSequence + 1 at hlt
        have := h.place
        omega
  | page l =>
    obtain ⟨ev, hc, -⟩ := h.ok.cursors
    have hp := @cursors_feedBackfill _ c.after l _ hc
    generalize hcn : min (pageSize l)
      (c.bus.uiSequence - max ev c.after) = count at hp
    have hon := @h.ok.mem_feedBackfill _ _ _ _ _ hp
    have hl : (c.move (.page l)).after = _ := last_of_cursors hp
    refine ⟨h.ok, ?_, ?_, ?_, ?_⟩
    · rw [hl]
      split
      · exact h.place
      · right
        show _ ∧ _ ≤ c.bus.uiSequence
        omega
    · show ((c.collected ++ _).map _).Pairwise _
      rw [map_append, pairwise_append, hp]
      refine ⟨h.sorted, pairwise_lt_range', ?_⟩
      intro a ha b hb
      obtain ⟨e, he, rfl⟩ := mem_map.1 ha
      have := h.held e he
      have := (mem_range'_1.1 hb).1
      omega
    · intro e he
      rw [hl]
      rcases mem_append.1 he with he | he
      · have := h.held e he
        split <;> omega
      · have := (hon (kept_feedBackfill he)).1 he
        split <;> omega
    · intro e he hlt hle
      rw [hl] at hle
      by_cases hold : e.cursor ≤ c.after
      · exact mem_append_left _ (h.complete e he hlt hold)
      · refine mem_append_right _ ((hon he).2 ?_)
        have hmem : e.cursor ∈ c.bus.feedHistory.map (·.cursor) :=
          mem_map_of_mem he
        rw [hc, mem_range'_1] at hmem
        split at hle <;> omega

theorem Follows.run {c : Client} (h : Follows start c) (mo : List Move) :
    Follows start (mo.foldl Client.move c) := by
  induction mo generalizing c with
  | nil => exact h
  | cons m rest ih => exact ih (h.move m)

/-- A page after which nothing is said to follow completes the run. -/
theorem Follows.page (h : Follows start c) (l : Nat)
    (hmr : (c.move (.page l)).more = false) :
    ∀ e ∈ c.bus.feedHistory, start < e.cursor →
      e ∈ (c.move (.page l)).collected := by
  intro e he hlt
  by_cases hold : e.cursor ≤ c.after
  · exact mem_append_left _ (h.complete e he hlt hold)
  · refine mem_append_right _ (Classical.byContradiction fun hno => ?_)
    have ht := (feedBackfill_turns h.ok c.after l).truncated.2
      ⟨e, he, Nat.not_le.1 hold, hno⟩
    exact Bool.false_ne_true (hmr.symm.trans ht)

end Client

/-- Every page is as it should be, and whoever pages on from the last
cursor of each, while events are published, has collected everything that
is kept, once and in order, when nothing more is said to follow. -/
theorem feed_paging (events : List UiEvent) (after : Nat) :
    let bus := events.foldl EventBus.publishDomain .new
    (∀ limit, Turns bus after limit (bus.feedBackfill after limit))
      ∧ ∀ (moves : List Move) (limit : Nat),
        let c := (moves.foldl Client.move ⟨bus, after, [], true⟩).move
          (.page limit)
        (c.collected.map (·.cursor)).Pairwise (· < ·)
          ∧ (c.more = false → ∀ e ∈ c.bus.feedHistory, after < e.cursor →
            e ∈ c.collected) := by
  intro bus
  have hok : ∀ (events : List UiEvent) (bus : EventBus), bus.Ok →
      (events.foldl EventBus.publishDomain bus).Ok := by
    intro events
    induction events with
    | nil => exact fun _ h => h
    | cons event rest ih => exact fun _ h => ih _ (EventBus.ok_publishDomain h _)
  have hbus : bus.Ok := hok events _ EventBus.ok_new
  clear_value bus
  refine ⟨fun limit => feedBackfill_turns hbus after limit, ?_⟩
  intro moves limit
  have hs := Client.follows_start hbus after
  have hrun := hs.run moves
  exact ⟨(hrun.move (.page limit)).sorted, hrun.page limit⟩

/-- A page of no events has one. -/
theorem empty_page_holds_one :
    ((EventBus.new.publishDomain ⟨.chat, "ana", none, none, none, none, none,
      none, none, none⟩).feedBackfill 0 0).events.length = 1 := by
  decide

end TikTools.Feed
