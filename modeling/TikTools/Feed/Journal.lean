/-
The host's side of the feed: every render event is numbered as it is
published and kept in a bounded history, from which a client that missed
some asks for a page.

A page asked for from `after` holds the oldest events kept with a higher
cursor. What it leaves out is either older than the history, and then
`gap` says so unless the request was from the very start, or further on,
and then `truncated` says so (`feedBackfill_answers`).
-/
import TikTools.Lib.Js

namespace TikTools.Feed

open TikTools.Lib List

/-- The oldest go while there are too many. -/
def keepNewest {α : Type} (capacity : Nat) : List α → List α
  | [] => []
  | a :: rest =>
    if capacity < rest.length + 1 then keepNewest capacity rest
    else a :: rest

theorem keepNewest_eq_drop {α : Type} (ca : Nat) (l : List α) :
    keepNewest ca l = l.drop (l.length - ca) := by
  induction l with
  | nil => exact drop_nil.symm
  | cons a rest ih =>
    unfold keepNewest
    split
    · next h =>
      rw [ih, length_cons, Nat.sub_add_comm (Nat.le_of_lt_succ h),
        drop_succ_cons]
    · next h =>
      rw [length_cons, Nat.sub_eq_zero_of_le (Nat.not_lt.1 h), drop_zero]

theorem keepNewest_sublist {α : Type} (ca : Nat) (l : List α) :
    (keepNewest ca l).Sublist l := by
  rw [keepNewest_eq_drop]
  exact drop_sublist _ _

inductive Kind where
  | chat
  | gift
  | like
  | member
  | social
  deriving DecidableEq, Repr

structure GiftDetails where
  giftId : Option String
  groupId : Option String
  deriving DecidableEq, Repr

structure UiEvent where
  kind : Kind
  author : String
  sourceType : Option String
  roomId : Option String
  creatorId : Option String
  msgId : Option String
  feedCursor : Option Nat
  giftDetails : Option GiftDetails
  likeUserTotal : Option Nat
  likeViewerKey : Option String
  deriving DecidableEq, Repr

structure FeedEntry where
  cursor : Nat
  event : UiEvent
  deriving DecidableEq, Repr

structure FeedBackfill where
  oldestCursor : Nat
  latestCursor : Nat
  gap : Bool
  truncated : Bool
  events : List FeedEntry
  deriving DecidableEq, Repr

/-- The render events of the bus; `published` is a history variable, all
that was ever published. -/
structure EventBus where
  uiSequence : Nat
  feedHistory : List FeedEntry
  published : List UiEvent
  deriving DecidableEq, Repr

def historyCapacity : Nat := 512

theorem one_le_historyCapacity : 1 ≤ historyCapacity := by decide

namespace EventBus

def new : EventBus := { uiSequence := 0, feedHistory := [], published := [] }

/-- The cursor goes into the payload as well. -/
def publishDomain (bus : EventBus) (event : UiEvent) : EventBus :=
  let sequence := bus.uiSequence + 1
  let stamped := { event with feedCursor := some sequence }
  let history := bus.feedHistory ++ [⟨sequence, stamped⟩]
  { uiSequence := sequence
    feedHistory := keepNewest historyCapacity history
    published := bus.published ++ [stamped] }

def feedBackfill (bus : EventBus) (after limit : Nat) : FeedBackfill :=
  let oldest := (bus.feedHistory.head?.map (·.cursor)).getD 0
  let latest := (bus.feedHistory.getLast?.map (·.cursor)).getD 0
  let events := (bus.feedHistory.filter (after < ·.cursor)).take
    (max 1 (min limit historyCapacity))
  let gap := decide (latest < after)
    || (after != 0
      && events.head?.any fun entry => after + 1 < entry.cursor)
  let last := (events.getLast?.map (·.cursor)).getD after
  { oldestCursor := oldest
    latestCursor := latest
    gap
    truncated := last < latest
    events }

@[simp] theorem uiSequence_publishDomain (bus : EventBus)
    (e : UiEvent) :
    (bus.publishDomain e).uiSequence = bus.uiSequence + 1 := rfl

/-- The event a cursor was given to. -/
def entry (bus : EventBus) : Nat → Option UiEvent
  | 0 => none
  | n + 1 => bus.published[n]?

/-- The history is the last part of what was published. -/
structure Ok (bus : EventBus) : Prop where
  sequence : bus.uiSequence = bus.published.length
  kept : ∀ e ∈ bus.feedHistory, bus.entry e.cursor = some e.event
  stamped : ∀ c event, bus.entry c = some event → event.feedCursor = some c
  cursors : ∃ evicted, bus.feedHistory.map (·.cursor)
      = List.range' (evicted + 1) (bus.uiSequence - evicted)
    ∧ (evicted < bus.uiSequence ∨ bus.uiSequence = 0)

theorem ok_new : Ok new where
  sequence := rfl
  kept := fun _ he => by cases he
  stamped := fun c _ h => by cases c <;> cases h
  cursors := ⟨0, rfl, .inr rfl⟩

variable {bus : EventBus} {c : Nat}

theorem entry_le {e : UiEvent} (h : bus.entry c = some e) :
    1 ≤ c ∧ c ≤ bus.published.length := by
  cases c with
  | zero => cases h
  | succ n => exact ⟨Nat.succ_pos n, (List.getElem?_eq_some_iff.1 h).1⟩

theorem entry_publishDomain {event new : UiEvent}
    (h : bus.entry c = some event) :
    (bus.publishDomain new).entry c = some event := by
  cases c with
  | zero => cases h
  | succ n =>
    have hlt := (List.getElem?_eq_some_iff.1 h).1
    show (bus.published ++ [_])[n]? = _
    rw [List.getElem?_append_left hlt]
    exact h

theorem entry_of_publishDomain {event new : UiEvent}
    (h : (bus.publishDomain new).entry c = some event)
    (hle : c ≤ bus.published.length) : bus.entry c = some event := by
  cases c with
  | zero => cases h
  | succ n =>
    have h' : (bus.published ++ [_])[n]? = some event := h
    rw [getElem?_append_left hle] at h'
    exact h'

theorem length_publishDomain (bus : EventBus) (e : UiEvent) :
    (bus.publishDomain e).published.length = bus.published.length + 1 :=
  length_append

theorem feedHistory_publishDomain (bus : EventBus) (e : UiEvent) :
    (bus.publishDomain e).feedHistory
      = (bus.feedHistory ++ [FeedEntry.mk (bus.uiSequence + 1)
          { e with feedCursor := some (bus.uiSequence + 1) }]).drop
        (bus.feedHistory.length + 1 - historyCapacity) := by
  rw [publishDomain, keepNewest_eq_drop, length_append, length_singleton]

theorem ok_publishDomain (h : Ok bus) (ev : UiEvent) :
    Ok (bus.publishDomain ev) where
  sequence := by
    rw [length_publishDomain, ← h.sequence]
    rfl
  kept := by
    intro e he
    rw [feedHistory_publishDomain] at he
    rcases mem_append.1 (mem_of_mem_drop he) with he | he
    · exact entry_publishDomain (h.kept e he)
    · have hnew := @getElem?_concat_length _ bus.published
        { ev with feedCursor := some (bus.uiSequence + 1) }
      rw [← h.sequence] at hnew
      rw [mem_singleton.1 he]
      exact hnew
  stamped := by
    intro c f hf
    by_cases hle : c ≤ bus.published.length
    · exact h.stamped c f (entry_of_publishDomain hf hle)
    · have hl : c = bus.uiSequence + 1 := by
        have hc := (entry_le hf).2
        rw [length_publishDomain] at hc
        rw [h.sequence]
        omega
      subst hl
      have hnew := @getElem?_concat_length _ bus.published
        { ev with feedCursor := some (bus.uiSequence + 1) }
      rw [← h.sequence] at hnew
      have hf : (bus.published ++ [_])[bus.uiSequence]? = _ := hf
      rw [hnew] at hf
      cases hf
      rfl
  cursors := by
    obtain ⟨evicted, hcursors, hsm⟩ := h.cursors
    have hle : evicted ≤ bus.uiSequence ∨ bus.uiSequence = 0 :=
      hsm.imp_left Nat.le_of_lt
    have hlen : bus.feedHistory.length = bus.uiSequence - evicted := by
      rw [← length_map, hcursors, length_range']
    -- the history with the new event, before the oldest is dropped
    have hall : (bus.feedHistory.map (·.cursor)) ++ [bus.uiSequence + 1]
        = List.range' (bus.uiSequence + 1 - bus.feedHistory.length)
          (bus.feedHistory.length + 1) := by
      rw [hcursors, hlen, range'_concat]
      rcases hsm with hlt | hz
      · congr 2 <;> omega
      · simp [hz]
    obtain ⟨shed, hs, hls⟩ : ∃ shed,
        bus.feedHistory.length + 1 - historyCapacity = shed
          ∧ shed ≤ bus.feedHistory.length :=
      ⟨_, rfl, Nat.sub_le_of_le_add
        (Nat.add_le_add_left one_le_historyCapacity _)⟩
    refine ⟨bus.uiSequence - bus.feedHistory.length + shed, ?_, ?_⟩
    · rw [feedHistory_publishDomain, uiSequence_publishDomain, hs,
        map_drop, map_append, map_singleton, hall,
        drop_range']
      clear hs
      congr 1 <;> omega
    · left
      rw [uiSequence_publishDomain]
      omega

end EventBus

-- ==== a page

/-- How many events a page may have: one at least. -/
def pageSize (limit : Nat) : Nat := max 1 (min limit historyCapacity)

theorem filter_range' (after a n : Nat) :
    (List.range' a n).filter (after < ·)
      = List.range' (max a (after + 1)) (a + n - max a (after + 1)) := by
  induction n generalizing a with
  | zero =>
    rw [show a + 0 - max a (after + 1) = 0 by omega]
    rfl
  | succ n ih =>
    rw [range'_succ, filter_cons, ih]
    split
    · next h =>
      have h : after < a := of_decide_eq_true h
      rw [show max a (after + 1) = a by omega,
        show max (a + 1) (after + 1) = a + 1 by omega,
        show a + (n + 1) - a = a + 1 + n - (a + 1) + 1 by omega,
        range'_succ]
    · next h =>
      have h : ¬ after < a := fun hlt => h (decide_eq_true hlt)
      congr 1 <;> omega

variable {bus : EventBus} {after limit : Nat}

theorem EventBus.Ok.latest (h : bus.Ok) :
    (bus.feedHistory.getLast?.map (·.cursor)).getD 0 = bus.uiSequence := by
  obtain ⟨evicted, hcursors, hs⟩ := h.cursors
  rw [← getLast?_map, hcursors, getLast?_range']
  split
  · simp only [Option.getD_none]
    omega
  · simp only [Option.getD_some]
    omega

section

variable {evicted : Nat}
  (hcursors : bus.feedHistory.map (·.cursor) = List.range' (evicted + 1)
    (bus.uiSequence - evicted))
include hcursors

/-- What the cursors of a page are, from those that are kept. -/
theorem cursors_feedBackfill :
    (bus.feedBackfill after limit).events.map (·.cursor)
      = List.range' (max evicted after + 1)
        (min (pageSize limit) (bus.uiSequence - max evicted after)) := by
  show ((bus.feedHistory.filter _).take (pageSize limit)).map _ = _
  rw [map_take]
  have hf : (bus.feedHistory.filter (after < ·.cursor)).map (·.cursor)
      = (bus.feedHistory.map (·.cursor)).filter (after < ·) := by
    rw [filter_map]
    rfl
  rw [hf, hcursors, filter_range',
    show max (evicted + 1) (after + 1) = max evicted after + 1 by omega]
  rcases Nat.le_total (pageSize limit) (bus.uiSequence - max evicted after)
    with hle | hle
  · rw [take_range'_of_length_ge (by omega), Nat.min_eq_left hle]
  · rw [take_range'_of_length_le (by omega), Nat.min_eq_right hle]
    congr 1
    omega

omit hcursors in
theorem last_of_cursors {events : List FeedEntry} {first count after : Nat}
    (h : events.map (·.cursor) = List.range' (first + 1) count) :
    (events.getLast?.map (·.cursor)).getD after
      = if count = 0 then after else first + count := by
  rw [← getLast?_map, h, getLast?_range']
  split
  · rfl
  · show first + 1 + count - 1 = first + count
    omega

theorem mem_history (c : Nat) :
    (∃ e ∈ bus.feedHistory, e.cursor = c)
      ↔ evicted < c ∧ c ≤ bus.uiSequence := by
  rw [← mem_map, hcursors, mem_range'_1]
  omega

end

theorem EventBus.Ok.eq_of_cursor (h : bus.Ok) {e f : FeedEntry}
    (he : e ∈ bus.feedHistory) (hf : f ∈ bus.feedHistory)
    (hc : f.cursor = e.cursor) : f = e := by
  have hen := h.kept f hf
  rw [hc, h.kept e he] at hen
  cases e
  cases f
  cases hc
  cases hen
  rfl

theorem kept_feedBackfill {e : FeedEntry}
    (he : e ∈ (bus.feedBackfill after limit).events) :
    e ∈ bus.feedHistory :=
  (mem_filter.1 (mem_of_mem_take he)).1

theorem EventBus.Ok.mem_feedBackfill (h : bus.Ok) {first count : Nat}
    (hp : (bus.feedBackfill after limit).events.map (·.cursor)
      = List.range' (first + 1) count) {e : FeedEntry}
    (he : e ∈ bus.feedHistory) :
    e ∈ (bus.feedBackfill after limit).events
      ↔ first < e.cursor ∧ e.cursor ≤ first + count := by
  have hmem : e.cursor ∈ (bus.feedBackfill after limit).events.map
      (·.cursor) ↔ e ∈ (bus.feedBackfill after limit).events := by
    rw [mem_map]
    refine ⟨?_, fun hmem => ⟨e, hmem, rfl⟩⟩
    rintro ⟨f, hf, hc⟩
    rwa [← h.eq_of_cursor he (kept_feedBackfill hf) hc]
  rw [← hmem, hp, mem_range'_1]
  omega

/-- What a page says of the history it is cut from. -/
structure Turns (bus : EventBus) (after limit : Nat) (page : FeedBackfill) :
    Prop where
  kept : ∀ e ∈ page.events, e ∈ bus.feedHistory
  consecutive : ∃ start, after < start
    ∧ page.events.map (·.cursor) = List.range' start page.events.length
  bounded : page.events.length ≤ max 1 limit
  /-- what is left out is further on, and the page is then full -/
  follows : ∀ e ∈ bus.feedHistory, after < e.cursor → e ∉ page.events →
    page.events.length = pageSize limit
      ∧ ∀ f ∈ page.events, f.cursor < e.cursor
  gap : page.gap = true ↔ bus.uiSequence < after
    ∨ after ≠ 0 ∧ ∃ c, after < c ∧ c ≤ bus.uiSequence
      ∧ ∀ e ∈ bus.feedHistory, e.cursor ≠ c
  truncated : page.truncated = true
    ↔ ∃ e ∈ bus.feedHistory, after < e.cursor ∧ e ∉ page.events

theorem feedBackfill_turns (h : bus.Ok) (after limit : Nat) :
    Turns bus after limit (bus.feedBackfill after limit) := by
  obtain ⟨evicted, hcursors, hsm⟩ := h.cursors
  have hp := @cursors_feedBackfill _ after limit _ hcursors
  have hs : 1 ≤ pageSize limit ∧ pageSize limit ≤ max 1 limit := by
    unfold pageSize
    omega
  generalize hcn :
    min (pageSize limit) (bus.uiSequence - max evicted after) = count at hp
  have hlen := congrArg List.length hp
  rw [length_map, length_range'] at hlen
  have hin := mem_history hcursors
  have hon := @h.mem_feedBackfill _ _ _ _ _ hp
  refine ⟨fun _ => kept_feedBackfill, ⟨max evicted after + 1, by omega, by rw [hp, hlen]⟩,
    by omega, fun e he ha hno => ?_, ?_, ?_⟩
  · rw [hon he] at hno
    have hle := (hin e.cursor).1 ⟨e, he, rfl⟩
    refine ⟨by omega, fun f hf => ?_⟩
    have hf := (hon (kept_feedBackfill hf)).1 hf
    omega
  · have hgap : (∃ c, after < c ∧ c ≤ bus.uiSequence
        ∧ ∀ e ∈ bus.feedHistory, e.cursor ≠ c)
        ↔ after < evicted ∧ 0 < bus.uiSequence := by
      constructor
      · rintro ⟨c, hc, hle, hno⟩
        have : ¬ (evicted < c ∧ c ≤ bus.uiSequence) := fun hc => by
          obtain ⟨e, he, heq⟩ := (hin c).2 hc
          exact hno e he heq
        omega
      · rintro ⟨hlt, hpos⟩
        refine ⟨evicted, hlt, by omega, fun e he heq => ?_⟩
        have := (hin e.cursor).1 ⟨e, he, rfl⟩
        omega
    have hh : (bus.feedBackfill after limit).events.head?.any
        (fun e => after + 1 < e.cursor) = true
        ↔ 0 < count ∧ after < evicted := by
      have hmap : (bus.feedBackfill after limit).events.head?.any
          (fun e => after + 1 < e.cursor)
          = ((bus.feedBackfill after limit).events.map (·.cursor)).head?.any
            (after + 1 < ·) := by
        rw [head?_map, Option.any_map]
      rw [hmap, hp, head?_range']
      split <;> simp <;> omega
    show (decide ((bus.feedHistory.getLast?.map (·.cursor)).getD 0 < after)
      || (after != 0 && (bus.feedBackfill after limit).events.head?.any
        (fun e => after + 1 < e.cursor))) = true ↔ _
    rw [h.latest, hgap, Bool.or_eq_true, Bool.and_eq_true, hh]
    simp only [decide_eq_true_eq, bne_iff_ne]
    omega
  · show decide (((bus.feedBackfill after limit).events.getLast?.map
        (·.cursor)).getD after
      < (bus.feedHistory.getLast?.map (·.cursor)).getD 0) = true ↔ _
    rw [h.latest, decide_eq_true_iff, last_of_cursors hp]
    constructor
    · intro hlt
      obtain ⟨e, he, hl⟩ := (hin bus.uiSequence).2 (by omega)
      have ha : after < e.cursor := by
        split at hlt <;> omega
      refine ⟨e, he, ha, fun hmem => ?_⟩
      have := (hon he).1 hmem
      split at hlt <;> omega
    · rintro ⟨e, he, ha, hno⟩
      rw [hon he] at hno
      have := (hin e.cursor).1 ⟨e, he, rfl⟩
      split <;> omega

/-- What a page asked for from `after` says of the bus; what is published
later does not change it. -/
structure Answers (bus : EventBus) (after : Nat) (page : FeedBackfill) :
    Prop where
  latest : after ≤ page.latestCursor
  published : page.latestCursor ≤ bus.published.length
  held : ∀ e ∈ page.events, after < e.cursor
    ∧ e.cursor ≤ page.latestCursor ∧ bus.entry e.cursor = some e.event
  sorted : (page.events.map (·.cursor)).Pairwise (· < ·)
  /-- what is neither on the page nor further on is older than it -/
  complete : ∀ c, after < c → c ≤ page.latestCursor →
    (∃ e ∈ page.events, e.cursor = c)
      ∨ (page.truncated = true ∧ ∀ e ∈ page.events, e.cursor < c)
      ∨ ((after = 0 ∨ page.gap = true)
        ∧ (∃ e ∈ page.events, c < e.cursor)
        ∧ ∀ e ∈ page.events, c < e.cursor)

variable {bus : EventBus}

theorem Answers.publishDomain {after : Nat} {p : FeedBackfill}
    (h : Answers bus after p) (ev : UiEvent) :
    Answers (bus.publishDomain ev) after p where
  latest := h.latest
  published := by
    rw [EventBus.length_publishDomain]
    exact Nat.le_succ_of_le h.published
  held := fun e he =>
    ⟨(h.held e he).1, (h.held e he).2.1,
      EventBus.entry_publishDomain (h.held e he).2.2⟩
  sorted := h.sorted
  complete := h.complete

theorem latestCursor_feedBackfill (h : bus.Ok) (after limit : Nat) :
    (bus.feedBackfill after limit).latestCursor = bus.published.length :=
  h.latest.trans h.sequence

theorem feedBackfill_answers (h : bus.Ok) {after : Nat}
    (ha : after ≤ bus.published.length) (limit : Nat) :
    Answers bus after (bus.feedBackfill after limit) := by
  have hlat := latestCursor_feedBackfill h after limit
  have ht := feedBackfill_turns h after limit
  obtain ⟨evicted, hcursors, hsm⟩ := h.cursors
  obtain ⟨start, hs, hr⟩ := ht.consecutive
  have hin := mem_history hcursors
  have hk : ∀ e ∈ (bus.feedBackfill after limit).events,
      evicted < e.cursor ∧ e.cursor ≤ bus.uiSequence := fun e he =>
    (hin e.cursor).1 ⟨e, ht.kept e he, rfl⟩
  have hseq := h.sequence
  refine ⟨hlat ▸ ha, Nat.le_of_eq hlat, fun e he => ?_, ?_,
    fun c hc hle => ?_⟩
  · have hmem := mem_map_of_mem (f := (·.cursor)) he
    rw [hr, mem_range'_1] at hmem
    have := hk e he
    exact ⟨by omega, by omega, h.kept e (ht.kept e he)⟩
  · rw [hr]
    exact pairwise_lt_range'
  by_cases hout : evicted < c
  · obtain ⟨e, he, rfl⟩ := (hin c).2 ⟨hout, by omega⟩
    by_cases hp : e ∈ (bus.feedBackfill after limit).events
    · exact .inl ⟨e, hp, rfl⟩
    · exact .inr (.inl ⟨ht.truncated.2 ⟨e, he, hc, hp⟩,
        (ht.follows e he hc hp).2⟩)
  · -- older than the history, which is then not empty
    right; right
    have hb : ∀ f ∈ (bus.feedBackfill after limit).events,
        c < f.cursor := fun f hf => by
      have := hk f hf
      omega
    obtain ⟨e, he, hl⟩ := (hin bus.uiSequence).2 (by omega)
    obtain ⟨f, hf⟩ : ∃ f, f ∈ (bus.feedBackfill after limit).events := by
      by_cases hp : e ∈ (bus.feedBackfill after limit).events
      · exact ⟨e, hp⟩
      · have hfl := (ht.follows e he (by omega) hp).1
        refine exists_mem_of_length_pos ?_
        rw [hfl]
        exact Nat.le_max_left _ _
    refine ⟨?_, ⟨f, hf, hb f hf⟩, hb⟩
    by_cases hz : after = 0
    · exact .inl hz
    · refine .inr (ht.gap.2 (.inr ⟨hz, c, hc, by omega, ?_⟩))
      intro e he heq
      have := (hin c).1 ⟨e, he, heq⟩
      omega

end TikTools.Feed
