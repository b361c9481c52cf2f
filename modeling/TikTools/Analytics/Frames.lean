/-
The analytics tables, and the summary over a range of days.

What is recorded is added to the row of its UTC day and to that of its
UTC hour. A summary in UTC reads the days; one in another frame reads the
hours and takes each for the local day it begins in. Where the offset is
a whole number of hours, no hour lies in two days, and either way the
summary is that of the items in the frame (`frames_agree`).

Counters are integers without a bound here.
-/
import TikTools.Lib.Grouped

namespace TikTools.Analytics

open TikTools.Lib Std List Table

-- ==== totals

@[ext] structure AnalyticsTotals where
  chats : Int := 0
  giftEvents : Int := 0
  gifts : Int := 0
  diamonds : Int := 0
  likeEvents : Int := 0
  likes : Int := 0
  joins : Int := 0
  follows : Int := 0
  shares : Int := 0
  peakViewers : Nat := 0
  deriving DecidableEq

/-- Counters sum, peaks max. -/
def addHourTotals (into sample : AnalyticsTotals) : AnalyticsTotals where
  chats := into.chats + sample.chats
  giftEvents := into.giftEvents + sample.giftEvents
  gifts := into.gifts + sample.gifts
  diamonds := into.diamonds + sample.diamonds
  likeEvents := into.likeEvents + sample.likeEvents
  likes := into.likes + sample.likes
  joins := into.joins + sample.joins
  follows := into.follows + sample.follows
  shares := into.shares + sample.shares
  peakViewers := max into.peakViewers sample.peakViewers

instance : Add AnalyticsTotals := ⟨addHourTotals⟩

instance : Zero AnalyticsTotals := ⟨{}⟩

instance : AddCommMonoid AnalyticsTotals where
  add_assoc a b c := by
    ext
    all_goals first | exact Int.add_assoc _ _ _ | exact Nat.max_assoc _ _ _
  zero_add a := by
    ext
    all_goals first | exact Int.zero_add _ | exact Nat.zero_max _
  add_zero a := by
    ext
    all_goals first | exact Int.add_zero _ | exact Nat.max_zero _
  add_comm a b := by
    ext
    all_goals first | exact Int.add_comm _ _ | exact Nat.max_comm _ _
  nsmul := nsmulRec

-- ==== recording

structure AnalyticsEventRecord where
  chats : Int
  giftEvents : Int
  gifts : Int
  diamonds : Int
  likeEvents : Int
  likes : Int
  joins : Int
  follows : Int
  shares : Int

inductive Recorded where
  | event (record : AnalyticsEventRecord)
  | viewers (viewers : Int)

structure Item where
  creatorUniqueId : String
  nowUnix : Int
  recorded : Recorded

/-- What the item adds to a row. A column that its statement leaves out
keeps its value. -/
def Item.amount (item : Item) : AnalyticsTotals :=
  match item.recorded with
  | .event record =>
    { chats := record.chats
      giftEvents := record.giftEvents
      gifts := record.gifts
      diamonds := record.diamonds
      likeEvents := record.likeEvents
      likes := record.likes
      joins := record.joins
      follows := record.follows
      shares := record.shares }
  | .viewers viewers => { peakViewers := viewers.toNat }

def utcDay (unixSecs : Int) : Int := unixSecs / 86400

def utcHour (unixSecs : Int) : Int := unixSecs / 3600

/-- Rows by creator and day, or creator and hour. -/
abbrev Buckets := Table (String ×ₗ Int) AnalyticsTotals

/-- `analytics_daily` and `analytics_hourly`. -/
structure AnalyticsDb where
  daily : Buckets := ∅
  hourly : Buckets := ∅

def AnalyticsDb.record (db : AnalyticsDb) (item : Item) : AnalyticsDb where
  daily := db.daily.upsert
    (toLex (item.creatorUniqueId, utcDay item.nowUnix), item.amount)
  hourly := db.hourly.upsert
    (toLex (item.creatorUniqueId, utcHour item.nowUnix), item.amount)

-- ==== summaries

abbrev Series := List (Int × AnalyticsTotals)

structure AnalyticsSummary where
  totals : AnalyticsTotals
  days : Series
  hours : Series

/-- The rows of a creator, in order. -/
def Buckets.rows (table : Buckets) (creator : String) : Series :=
  (table.toList.filter fun row => (ofLex row.1).1 = creator).map
    fun row => ((ofLex row.1).2, row.2)

/-- Local day and hour of a UTC hour, by its first second. -/
def localDay (offset hour : Int) : Int := (hour * 3600 + offset) / 86400

def wallHour (offset hour : Int) : Int :=
  (hour * 3600 + offset) % 86400 / 3600

def dayHours (byHour : Table Int AnalyticsTotals) : Series :=
  (range 24).map fun hour => ((hour : Int), byHour[(hour : Int)]?.getD 0)

def clampOffset (tzOffsetSecs : Int) : Int :=
  max (-86400) (min tzOffsetSecs 86400)

def within (lo hi day : Int) : Bool := lo ≤ day ∧ day ≤ hi

theorem within_iff {lo hi day : Int} :
    within lo hi day = true ↔ lo ≤ day ∧ day ≤ hi := decide_eq_true_iff

namespace AnalyticsDb

variable (db : AnalyticsDb) (creator : String) (startDay endDay : Int)

/-- The hours that the frame covers, the last one rounded up. -/
def samples (offset : Int) : Series :=
  (db.hourly.rows creator).filter fun row =>
    within ((startDay * 86400 - offset) / 3600)
      (((endDay + 1) * 86400 - offset + 3599) / 3600 - 1) row.1

/-- `analytics_summary`: its totals, days and hours. -/
def analyticsSummary (tzOffsetSecs : Int) : AnalyticsSummary :=
  let offset := clampOffset tzOffsetSecs
  let samples := db.samples creator startDay endDay offset
  if offset ≠ 0 ∧ db.hourly.rows creator ≠ [] then
    let kept := samples.filter fun row =>
      within startDay endDay (localDay offset row.1)
    let byDay := grouped (kept.map fun row => (localDay offset row.1, row.2))
    { totals := (byDay.toList.map (·.2)).sum
      days := byDay.toList
      hours := if startDay = endDay
        then dayHours (grouped (kept.map
          fun row => (wallHour offset row.1, row.2)))
        else [] }
  else
    let queryLo := if offset = 0 then startDay
      else (startDay * 86400 + 43200 - offset) / 86400
    let queryHi := if offset = 0 then endDay
      else (endDay * 86400 + 43200 - offset) / 86400
    let days := (db.daily.rows creator).filter fun row =>
      within queryLo queryHi row.1
    { totals := (days.map (·.2)).sum
      days
      hours := if offset = 0 ∧ startDay = endDay ∧ samples ≠ []
        then dayHours (grouped (samples.map fun row => (row.1 % 24, row.2)))
        else [] }

-- ==== totals of adjacent ranges

variable {db creator startDay endDay} {offset : Int}

/-- An hour of a local day of the frame is among the samples. -/
theorem samples_cover {ho : Int}
    (h : within startDay endDay (localDay offset ho)) :
    within ((startDay * 86400 - offset) / 3600)
      (((endDay + 1) * 86400 - offset + 3599) / 3600 - 1) ho = true := by
  rw [within_iff] at h ⊢
  unfold localDay at h
  omega

/-- Sums over the samples that are kept are sums over the hours. -/
theorem sumWhere_kept (p : Int → Bool) (key : Int → Int) :
    sumWhere p (((db.samples creator startDay endDay offset).filter
        fun row => within startDay endDay (localDay offset row.1)).map
        fun row => (key row.1, row.2))
      = sumWhere (fun ho => within startDay endDay (localDay offset ho)
        && p (key ho)) (db.hourly.rows creator) := by
  unfold samples
  rw [sumWhere_map p (fun ho => within startDay endDay
    (localDay offset ho)), sumWhere_filter]
  congr 1
  funext ho
  cases h : within startDay endDay (localDay offset ho) with
  | false => rfl
  | true => rw [samples_cover h, Bool.and_true]

theorem kept_keys {day : Int} :
    day ∈ (((db.samples creator startDay endDay offset).filter
        fun row => within startDay endDay (localDay offset row.1)).map
        fun row => (localDay offset row.1, row.2)).map (·.1)
      ↔ within startDay endDay day = true
        ∧ ∃ row ∈ db.hourly.rows creator, localDay offset row.1 = day := by
  unfold samples
  rw [filter_filter, map_map, mem_map]
  constructor
  · intro h
    obtain ⟨row, hr, heq⟩ := h
    obtain ⟨hr, ha⟩ := mem_filter.1 hr
    exact ⟨heq ▸ (Bool.and_eq_true_iff.1 ha).1, row, hr, heq⟩
  · intro h
    obtain ⟨hin, row, hr, heq⟩ := h
    rw [← heq] at hin
    exact ⟨row, mem_filter.2 ⟨hr,
      Bool.and_eq_true_iff.2 ⟨hin, samples_cover hin⟩⟩, heq⟩

theorem totals_eq (tz : Int) :
    (db.analyticsSummary creator startDay endDay tz).totals
      = if clampOffset tz ≠ 0 ∧ db.hourly.rows creator ≠ []
        then sumWhere (fun h => within startDay endDay
          (localDay (clampOffset tz) h)) (db.hourly.rows creator)
        else sumWhere (within
          (if clampOffset tz = 0 then startDay
            else (startDay * 86400 + 43200 - clampOffset tz) / 86400)
          (if clampOffset tz = 0 then endDay
            else (endDay * 86400 + 43200 - clampOffset tz) / 86400))
          (db.daily.rows creator) := by
  unfold analyticsSummary
  dsimp only
  split
  · dsimp only
    rw [← sumWhere_true, sumWhere_grouped, sumWhere_kept]
    simp only [Bool.and_true]
  · rfl

/-- No hour is lost between two ranges, and none is counted twice. -/
theorem totals_adjacent (db : AnalyticsDb) (creator : String)
    {f m l : Int} (tz : Int) (hf : f ≤ m + 1)
    (hl : m ≤ l) :
    (db.analyticsSummary creator f m tz).totals
        + (db.analyticsSummary creator (m + 1) l tz).totals
      = (db.analyticsSummary creator f l tz).totals := by
  rw [totals_eq, totals_eq, totals_eq]
  split
  · refine sumWhere_split _ _ _ _ (fun h => ?_) fun h => ?_
    · rw [Bool.eq_iff_iff, Bool.or_eq_true, within_iff, within_iff,
        within_iff]
      omega
    · rw [Bool.and_eq_false_iff, ← Bool.not_eq_true, ← Bool.not_eq_true,
        within_iff, within_iff]
      omega
  · refine sumWhere_split _ _ _ _ (fun day => ?_) fun day => ?_
    · rw [Bool.eq_iff_iff, Bool.or_eq_true, within_iff, within_iff,
        within_iff]
      split <;> omega
    · rw [Bool.and_eq_false_iff, ← Bool.not_eq_true, ← Bool.not_eq_true,
        within_iff, within_iff]
      split <;> omega

end AnalyticsDb

-- ==== what was recorded

def recorded (items : List Item) : AnalyticsDb :=
  items.foldl AnalyticsDb.record {}

/-- What the items that meet a condition add up to. -/
def itemSum (p : Item → Bool) (items : List Item) : AnalyticsTotals :=
  ((items.filter p).map Item.amount).sum

def Item.localDay (offset : Int) (item : Item) : Int :=
  (item.nowUnix + offset) / 86400

def Item.wallHour (offset : Int) (item : Item) : Int :=
  (item.nowUnix + offset) % 86400 / 3600

def bucketRow (unit : Int → Int) (item : Item) :
    (String ×ₗ Int) × AnalyticsTotals :=
  (toLex (item.creatorUniqueId, unit item.nowUnix), item.amount)

def buckets (unit : Int → Int) (items : List Item) : Buckets :=
  grouped (items.map (bucketRow unit))

theorem recorded_eq (items : List Item) :
    recorded items = ⟨buckets utcDay items, buckets utcHour items⟩ := by
  have hf : ∀ (items : List Item) (db : AnalyticsDb),
      items.foldl AnalyticsDb.record db
        = ⟨(items.map (bucketRow utcDay)).foldl upsert db.daily,
          (items.map (bucketRow utcHour)).foldl upsert db.hourly⟩ := by
    intro items
    induction items with
    | nil => exact fun _ => rfl
    | cons item rest ih => exact fun db => ih (db.record item)
  exact hf items {}

section

variable {items : List Item} {creator : String} {unit : Int → Int}

theorem sum_rows (p : Int → Bool) :
    sumWhere p ((buckets unit items).rows creator)
      = itemSum (fun i => i.creatorUniqueId = creator
        && p (unit i.nowUnix)) items := by
  unfold Buckets.rows buckets
  rw [sumWhere_map p (fun key : String ×ₗ Int => (ofLex key).1 = creator)
    fun key => (ofLex key).2, sumWhere_grouped]
  unfold sumWhere itemSum
  rw [filter_map, map_map]
  rfl

theorem mem_rows {n : Int} {totals : AnalyticsTotals} :
    (n, totals) ∈ (buckets unit items).rows creator
      ↔ (∃ item ∈ items, item.creatorUniqueId = creator
          ∧ unit item.nowUnix = n)
        ∧ totals = itemSum (fun item => item.creatorUniqueId = creator
          && unit item.nowUnix = n) items := by
  have hget : (n, totals) ∈ (buckets unit items).rows creator
      ↔ (buckets unit items)[(toLex (creator, n) : String ×ₗ Int)]?
        = some totals := by
    unfold Buckets.rows
    rw [mem_map, ← mem_toList]
    constructor
    · intro h
      obtain ⟨row, hrow, heq⟩ := h
      obtain ⟨hin, hc⟩ := mem_filter.1 hrow
      cases heq
      rw [← of_decide_eq_true hc]
      exact hin
    · intro hin
      exact ⟨_, mem_filter.2 ⟨hin, decide_eq_true rfl⟩, rfl⟩
  have heq (item : Item) : (bucketRow unit item).1 = toLex (creator, n)
      ↔ item.creatorUniqueId = creator ∧ unit item.nowUnix = n := by
    unfold bucketRow
    rw [toLex_inj, Prod.mk.injEq]
  have hkey : toLex (creator, n) ∈ (items.map (bucketRow unit)).map (·.1)
      ↔ ∃ item ∈ items, item.creatorUniqueId = creator
        ∧ unit item.nowUnix = n := by
    rw [map_map, mem_map]
    exact exists_congr fun item => and_congr_right fun _ => heq item
  have hsum : sumWhere (fun key => key = toLex (creator, n))
        (items.map (bucketRow unit))
      = itemSum (fun item => item.creatorUniqueId = creator
          && unit item.nowUnix = n) items := by
    unfold sumWhere itemSum
    rw [filter_map, map_map]
    have hp : (fun row => decide (row.1 = toLex (creator, n)))
        ∘ bucketRow unit = fun item => decide (item.creatorUniqueId = creator)
          && decide (unit item.nowUnix = n) := by
      funext item
      rw [← Bool.decide_and]
      exact decide_eq_decide.2 (heq item)
    rw [hp]
    rfl
  rw [hget]
  unfold buckets
  rw [get_grouped, hsum]
  split
  · next h =>
    rw [Option.some_inj, and_iff_right (hkey.1 h)]
    exact eq_comm
  · next h => exact iff_of_false nofun fun hand => h (hkey.2 hand.1)

theorem exists_rows (p : Int → Prop) :
    (∃ row ∈ (buckets unit items).rows creator, p row.1)
      ↔ ∃ i ∈ items, i.creatorUniqueId = creator ∧ p (unit i.nowUnix) := by
  constructor
  · intro h
    obtain ⟨row, hr, hp⟩ := h
    obtain ⟨⟨i, hit, hc, heq⟩, -⟩ := mem_rows.1 hr
    exact ⟨i, hit, hc, heq.symm ▸ hp⟩
  · intro h
    obtain ⟨i, hit, hc, hp⟩ := h
    exact ⟨_, mem_rows.2 ⟨⟨i, hit, hc, rfl⟩, rfl⟩, hp⟩

theorem rows_ordered (ta : Buckets) (creator : String) :
    ((ta.rows creator).map Prod.fst).Pairwise (· < ·) := by
  unfold Buckets.rows
  rw [map_map, pairwise_map]
  refine (ExtTreeMap.ordered_keys_toList (t := ta)).filter _ |>.imp_of_mem ?_
  intro a b ha hb hab
  have hs : (ofLex a.1).1 = (ofLex b.1).1 :=
    (of_decide_eq_true (mem_filter.1 ha).2).trans
      (of_decide_eq_true (mem_filter.1 hb).2).symm
  have hlex : (compare (ofLex a.1).1 (ofLex b.1).1).then
      (compare (ofLex a.1).2 (ofLex b.1).2) = .lt := hab
  rw [hs, Ordering.then_eq_lt] at hlex
  rcases hlex with h | ⟨-, h⟩
  · exact absurd (h.symm.trans compare_self) nofun
  · exact compare_lt_iff_lt.1 h

end

-- ==== the summary

/-- A summary tells of the items of the frame. -/
structure InFrame (items : List Item) (creator : String)
    (startDay endDay offset : Int) (summary : AnalyticsSummary) : Prop where
  totals : summary.totals
    = itemSum (fun item => item.creatorUniqueId = creator
      && within startDay endDay (item.localDay offset)) items
  ordered : (summary.days.map Prod.fst).Pairwise (· < ·)
  /-- A day has a row when something was recorded in it. -/
  days : ∀ day totals, (day, totals) ∈ summary.days
    ↔ within startDay endDay day
      ∧ (∃ item ∈ items, item.creatorUniqueId = creator
        ∧ item.localDay offset = day)
      ∧ totals = itemSum (fun item => item.creatorUniqueId = creator
        && item.localDay offset = day) items
  /-- The hours of an empty day may be left out. -/
  hours : startDay = endDay → summary.hours = ((range 24).map fun hour =>
        ((hour : Int), itemSum (fun item => item.creatorUniqueId = creator
          && item.localDay offset = startDay
          && item.wallHour offset = hour) items))
      ∨ summary.hours = [] ∧ ∀ item ∈ items,
        item.creatorUniqueId = creator → item.localDay offset ≠ startDay

section

variable {items : List Item} {creator : String} {startDay endDay : Int}

theorem itemSum_congr {p q : Item → Bool}
    (h : ∀ i ∈ items, p i = q i) : itemSum p items = itemSum q items := by
  unfold itemSum
  rw [filter_congr h]

theorem dayHours_grouped (r : Series) :
    dayHours (grouped r) = (range 24).map fun h =>
      ((h : Int), sumWhere (fun n => n = (h : Int)) r) := by
  unfold dayHours
  simp only [getD_grouped]

theorem rows_nil (unit : Int → Int) :
    (buckets unit items).rows creator = []
      ↔ ∀ i ∈ items, i.creatorUniqueId ≠ creator := by
  rw [eq_nil_iff_forall_not_mem]
  constructor
  · intro h i hit hc
    exact h (unit i.nowUnix, _) (mem_rows.2 ⟨⟨i, hit, hc, rfl⟩, rfl⟩)
  · intro h row hr
    obtain ⟨⟨i, hit, hc, -⟩, -⟩ := mem_rows.1 hr
    exact h i hit hc

/-- In UTC the summary is read from the days. -/
theorem utc_inFrame (items : List Item) (creator : String)
    (startDay endDay : Int) : InFrame items creator startDay endDay 0
      ((recorded items).analyticsSummary creator startDay endDay 0) := by
  have hday (i : Item) : i.localDay 0 = utcDay i.nowUnix := by
    unfold utcDay Item.localDay
    rw [Int.add_zero]
  have hcl : clampOffset 0 = 0 := rfl
  rw [recorded_eq]
  refine ⟨?_, ?_, ?_, ?_⟩
  · rw [AnalyticsDb.totals_eq, hcl, if_neg fun h => h.1 rfl, if_pos rfl,
      if_pos rfl, sum_rows]
    simp only [hday]
  all_goals
    unfold AnalyticsDb.analyticsSummary
    dsimp only
    rw [hcl, if_neg fun h => h.1 rfl, if_pos rfl, if_pos rfl]
    dsimp only
  · exact (rows_ordered _ creator).sublist (filter_sublist.map _)
  · intro day totals
    rw [mem_filter, mem_rows, and_comm]
    simp only [hday]
  · intro hs
    subst hs
    have hin (i : Item) : within ((startDay * 86400 - 0) / 3600)
          (((startDay + 1) * 86400 - 0 + 3599) / 3600 - 1)
          (utcHour i.nowUnix) = true ↔ i.localDay 0 = startDay := by
      rw [within_iff]
      unfold utcHour Item.localDay
      omega
    have hw (i : Item) :
        utcHour i.nowUnix % 24 = i.wallHour 0 := by
      unfold utcHour Item.wallHour
      omega
    split
    · left
      unfold AnalyticsDb.samples
      rw [dayHours_grouped]
      refine map_congr_left fun ho _ => congrArg _ ?_
      rw [sumWhere_map (fun n => n = (ho : Int)) (within _ _)
        (fun n => n % 24), sum_rows]
      refine itemSum_congr fun i _ => ?_
      rw [Bool.and_assoc, Bool.eq_iff_iff]
      simp only [Bool.and_eq_true, decide_eq_true_eq, hin, hw]
    · next hn =>
      refine .inr ⟨rfl, fun i hit hc heq => hn ⟨rfl, rfl, ?_⟩⟩
      exact ne_nil_of_mem (mem_filter.2 ⟨mem_rows.2 ⟨⟨i, hit, hc,
        rfl⟩, rfl⟩, (hin i).2 heq⟩)

/-- In another frame it is read from the hours. -/
theorem local_inFrame (items : List Item) (creator : String)
    (startDay endDay k : Int) (hk : -24 ≤ k ∧ k ≤ 24) (hne : k ≠ 0) :
    InFrame items creator startDay endDay (k * 3600)
      ((recorded items).analyticsSummary creator startDay endDay
        (k * 3600)) := by
  have hcl : clampOffset (k * 3600) = k * 3600 := by
    unfold clampOffset
    omega
  have ho : k * 3600 ≠ 0 := by omega
  -- every item of an hour lies in the local hour of its first second
  have hday (i : Item) : localDay (k * 3600) (utcHour i.nowUnix)
      = i.localDay (k * 3600) := by
    unfold localDay utcHour Item.localDay
    omega
  have hw (i : Item) : wallHour (k * 3600) (utcHour i.nowUnix)
      = i.wallHour (k * 3600) := by
    unfold wallHour utcHour Item.wallHour
    omega
  rw [recorded_eq]
  by_cases hr : (buckets utcHour items).rows creator = []
  · have hn := (rows_nil utcHour).1 hr
    have hd := (rows_nil utcDay).2 hn
    refine ⟨?_, ?_, ?_, ?_⟩
    · rw [AnalyticsDb.totals_eq, if_neg fun h => h.2 hr, sum_rows]
      refine itemSum_congr fun i hit => ?_
      rw [decide_eq_false (hn i hit), Bool.false_and, Bool.false_and]
    all_goals
      unfold AnalyticsDb.analyticsSummary
      dsimp only
      rw [if_neg fun h => h.2 hr]
      dsimp only
    · rw [hd]
      exact .nil
    · intro day t
      rw [hd]
      refine iff_of_false not_mem_nil fun h => ?_
      obtain ⟨i, hit, hcr, -⟩ := h.2.1
      exact hn i hit hcr
    · intro _
      rw [if_neg fun h => ho (hcl ▸ h.1)]
      exact .inr ⟨rfl, fun i hit hc => absurd hc (hn i hit)⟩
  · refine ⟨?_, ?_, ?_, ?_⟩
    · rw [AnalyticsDb.totals_eq, hcl, if_pos ⟨ho, hr⟩, sum_rows]
      simp only [hday]
    all_goals
      unfold AnalyticsDb.analyticsSummary
      dsimp only
      rw [hcl, if_pos ⟨ho, hr⟩]
      dsimp only
    · rw [pairwise_map]
      exact (ExtTreeMap.ordered_keys_toList).imp
        fun h => compare_lt_iff_lt.1 h
    · intro day t
      rw [mem_toList, get_grouped, AnalyticsDb.sumWhere_kept, sum_rows]
      have hkey := @AnalyticsDb.kept_keys
        ⟨buckets utcDay items, buckets utcHour items⟩ creator startDay endDay
        (k * 3600) day
      rw [exists_rows fun hour => localDay (k * 3600) hour = day] at hkey
      simp only [hday] at hkey ⊢
      split
      · next h =>
        obtain ⟨hin, his⟩ := hkey.1 h
        rw [Option.some_inj, and_iff_right hin, and_iff_right his,
          eq_comm, itemSum_congr fun i _ => ?_]
        rw [Bool.eq_iff_iff]
        simp only [Bool.and_eq_true, decide_eq_true_eq]
        exact and_congr_right fun _ =>
          and_iff_right_of_imp fun heq => heq ▸ hin
      · next h =>
        exact iff_of_false nofun fun ha =>
          h (hkey.2 ⟨ha.1, ha.2.1⟩)
    · intro hs
      subst hs
      left
      rw [if_pos rfl, dayHours_grouped]
      refine map_congr_left fun hour _ => congrArg _ ?_
      rw [AnalyticsDb.sumWhere_kept, sum_rows]
      refine itemSum_congr fun i _ => ?_
      rw [hday, hw, Bool.and_assoc, Bool.eq_iff_iff]
      simp only [Bool.and_eq_true, decide_eq_true_eq, within_iff]
      exact and_congr_right fun _ => by omega

end

end TikTools.Analytics
