/-
The two accounts of a gift combo.

A combo is announced in packets that carry the count reached so far, and
packets are repeated, delayed and lost. What a packet adds is what it
has over the highest count seen before (`increments`), so in whatever
order the packets come, the parts add up to the highest count.

The competitions keep this high-water mark in the database
(`advance_combo`), the automations in memory (`LiveTotals`). Both are the
same accounting: packet by packet they return the same parts, as long as
the memory neither expires nor is full and nothing exceeds 64 bits.
-/
import TikTools.Lib.KeySet
import TikTools.Competitions.Routing
import Mathlib.Algebra.BigOperators.Ring.List
import Mathlib.Algebra.Ring.Nat

namespace TikTools.Live

open TikTools.Lib Std List Table

-- ==== high-water marks

/-- What each count adds to the highest one before it. -/
def increments : Nat → List Nat → List Nat
  | _, [] => []
  | high, count :: rest =>
    (max high count - high) :: increments (max high count) rest

/-- The highest of some counts. -/
def highest (high : Nat) (counts : List Nat) : Nat := counts.foldl max high

theorem le_highest (high : Nat) (counts : List Nat) :
    high ≤ highest high counts := by
  induction counts generalizing high with
  | nil => exact Nat.le_refl _
  | cons count rest ih =>
    exact Nat.le_trans (Nat.le_max_left high count) (ih _)

theorem add_sum_increments (high : Nat) (counts : List Nat) :
    high + (increments high counts).sum = highest high counts := by
  induction counts generalizing high with
  | nil => rfl
  | cons count rest ih =>
    rw [increments, sum_cons, ← Nat.add_assoc,
      Nat.add_sub_cancel' (Nat.le_max_left high count)]
    exact ih _

-- ==== in memory

/-- What the accounts see of a gift packet. -/
structure GiftPacket where
  userId : Nat
  giftId : Nat
  groupId : Nat
  repeatCount : Nat
  comboCount : Nat
  diamondCount : Nat
  /-- price in the gift catalog, where the gift is known -/
  catalogDiamonds : Option Nat
  repeatEnd : Bool
  deriving DecidableEq, Repr

namespace GiftPacket

def count (packet : GiftPacket) : Nat :=
  max (max packet.repeatCount packet.comboCount) 1

def giftDiamondCount (packet : GiftPacket) : Option Nat :=
  some (if packet.diamondCount = 0 then packet.catalogDiamonds.getD 0
    else packet.diamondCount)

def price (packet : GiftPacket) : Nat :=
  packet.giftDiamondCount.getD packet.diamondCount

end GiftPacket

/-- Creator, room, user, gift and group. -/
abbrev ComboKey := String ×ₗ String ×ₗ Nat ×ₗ Nat ×ₗ Nat

instance : DecidableEq ComboKey :=
  inferInstanceAs (DecidableEq (String × String × Nat × Nat × Nat))

structure Combo where
  quantity : Nat
  diamonds : Nat
  lastSeen : Nat
  deriving DecidableEq, Repr

/-- The combos of `LiveTotals`. -/
structure GiftTotals where
  combos : Table ComboKey Combo
  untrackedCombos : Nat

structure GiftValue where
  increment : Nat
  cumulative : Nat
  diamonds : Nat
  deriving DecidableEq, Repr

def saturatingMul (a b : Nat) : Nat := min (a * b) u64Max

namespace GiftTotals

def maxCombos : Nat := 4096

/-- 300 seconds, in milliseconds. -/
def retention : Nat := 300000

def key (creator room : String) (packet : GiftPacket) : ComboKey :=
  toLex (creator, toLex (room, toLex (packet.userId,
    toLex (packet.giftId, packet.groupId))))

/-- The gift branch of `LiveTotals::observe`. -/
def observe (creator room : String) (packet : GiftPacket) (now : Nat)
    (totals : GiftTotals) : Option GiftValue × GiftTotals :=
  if packet.groupId ≠ 0 ∧ packet.userId ≠ 0 ∧ packet.giftId ≠ 0 then
    let combos := Table.retain
      (fun _ combo => now - combo.lastSeen < retention) totals.combos
    let key := key creator room packet
    if combos[key]? = none ∧ maxCombos ≤ combos.size then
      (none, { totals with
        combos, untrackedCombos := totals.untrackedCombos + 1 })
    else
      let entry := combos[key]?.getD ⟨0, 0, now⟩
      let quantity := max entry.quantity packet.count
      let target := saturatingMul quantity packet.price
      (some {
          increment := packet.count - entry.quantity
          cumulative := quantity
          diamonds := target - entry.diamonds },
        { totals with
          combos := combos.insert key
            ⟨quantity, max entry.diamonds target, now⟩ })
  else
    (some {
        increment := packet.count
        cumulative := packet.count
        diamonds := saturatingMul packet.count packet.price },
      totals)

/-- Packets with the times at which they come. -/
def observeAll (creator room : String) :
    List (GiftPacket × Nat) → GiftTotals →
    List (Option GiftValue) × GiftTotals
  | [], totals => ([], totals)
  | (packet, now) :: rest, totals =>
    let first := observe creator room packet now totals
    let others := observeAll creator room rest first.2
    (first.1 :: others.1, others.2)

/-- No packet comes so late that the one before it is forgotten. -/
def Prompt : Nat → List (GiftPacket × Nat) → Prop
  | _, [] => True
  | last, (_, now) :: rest => now - last < retention ∧ Prompt now rest

/-- The combo stands at a count, last seen at a time; or it has not been
seen and there is room for it. -/
def Stands (totals : GiftTotals) (key : ComboKey) (price quantity last : Nat)
    : Prop :=
  totals.combos[key]? = some ⟨quantity, quantity * price, last⟩
    ∨ totals.combos[key]? = none ∧ totals.combos.size < maxCombos
      ∧ quantity = 0

variable {quantity last : Nat} {creator room : String} {totals : GiftTotals}

theorem observe_stands {p : GiftPacket} {now price : Nat}
    (hids : p.groupId ≠ 0 ∧ p.userId ≠ 0 ∧ p.giftId ≠ 0)
    (hpr : p.price = price)
    (hst : totals.Stands (key creator room p) price quantity last)
    (hp : now - last < retention)
    (hft : max quantity p.count * price ≤ u64Max) :
    ∃ n, observe creator room p now totals
        = (some ⟨max quantity p.count - quantity,
            max quantity p.count,
            (max quantity p.count - quantity) * price⟩, n)
      ∧ n.Stands (key creator room p) price (max quantity p.count) now := by
  subst hpr
  have hs : saturatingMul (max quantity p.count) p.price
      = max quantity p.count * p.price :=
    Nat.min_eq_left hft
  have hl : quantity * p.price
      ≤ max quantity p.count * p.price :=
    Nat.mul_le_mul_right _ (Nat.le_max_left _ _)
  have hin : p.count - quantity = max quantity p.count - quantity := by omega
  -- the entry the packet finds, or the one made for it
  have hen : ∃ e : Combo,
      (totals.combos[key creator room p]?.filter fun c =>
        now - c.lastSeen < retention).getD ⟨0, 0, now⟩ = e
      ∧ e.quantity = quantity
      ∧ e.diamonds = quantity * p.price
      ∧ ¬ (totals.combos[key creator room p]?.filter (fun c =>
          now - c.lastSeen < retention) = none
        ∧ maxCombos ≤ (Table.retain (fun _ c =>
          now - c.lastSeen < retention) totals.combos).size) := by
    rcases hst with hsn | ⟨hn, hr, rfl⟩
    · rw [hsn, Option.filter_some, if_pos (decide_eq_true hp)]
      exact ⟨_, rfl, rfl, rfl, fun h => nomatch h.1⟩
    · rw [hn, Option.filter_none]
      refine ⟨_, rfl, rfl, (Nat.zero_mul _).symm, fun h => ?_⟩
      exact Nat.lt_irrefl _ (Nat.lt_of_le_of_lt h.2
        (Nat.lt_of_le_of_lt (size_retain_le _ _) hr))
  obtain ⟨e, hf, hq, hd, ht⟩ := hen
  unfold observe
  rw [if_pos hids]
  dsimp only
  rw [get_retain, if_neg ht, hf, hq, hd,
    hs, hin, ← Nat.sub_mul, Nat.max_eq_right hl]
  exact ⟨_, rfl, .inl (get_insert_self _ _ _)⟩

theorem observeAll_stands {key : ComboKey} {price : Nat}
    {p : List (GiftPacket × Nat)}
    (hids : ∀ en ∈ p, en.1.groupId ≠ 0 ∧ en.1.userId ≠ 0 ∧ en.1.giftId ≠ 0)
    (h : ∀ en ∈ p, GiftTotals.key creator room en.1 = key)
    (hpr : ∀ en ∈ p, en.1.price = price)
    (hs : totals.Stands key price quantity last)
    (hp : Prompt last p)
    (hft : highest quantity (p.map fun en => en.1.count) * price ≤ u64Max) :
    (observeAll creator room p totals).1.map
        (Option.map fun v => (v.increment, some v.diamonds))
      = (increments quantity (p.map fun en =>
          en.1.count)).map fun pr =>
            some (pr, some (pr * price)) := by
  induction p generalizing totals quantity last with
  | nil => rfl
  | cons en rest ih =>
    obtain ⟨packet, now⟩ := en
    have hf := h _ mem_cons_self
    have hc : max quantity packet.count * price ≤ u64Max :=
      Nat.le_trans (Nat.mul_le_mul_right _ (le_highest _ _)) hft
    rw [← hf] at hs
    obtain ⟨next, ho, hn⟩ := observe_stands
      (hids _ mem_cons_self) (hpr _ mem_cons_self) hs
      hp.1 hc
    rw [hf] at hn
    have hr := ih (fun e he => hids e (mem_cons_of_mem _ he))
      (fun e he => h e (mem_cons_of_mem _ he))
      (fun e he => hpr e (mem_cons_of_mem _ he)) hn hp.2
      hft
    rw [observeAll, ho]
    show some _ :: _ = some _ :: _
    rw [hr]

end GiftTotals

-- ==== in the database

section durable

open Competitions

/-- The packets of one combo, one after the other. -/
def advanceAll (competition : String) (generation : Nat)
    (participant gift group : String) (price : Nat) :
    List Nat → Round → Except DatabaseError (List Round.GiftDelta × Round)
  | [], round => .ok ([], round)
  | count :: rest, round => do
    let (delta, round) ← round.advanceCombo competition generation
      participant gift group count (some price)
    let (deltas, round) ← advanceAll competition generation participant
      gift group price rest round
    return (delta :: deltas, round)

/-- The row of the combo stands at a count; or there is none, and room
for one. -/
def Stands (round : Round) (key : Competitions.ComboKey)
    (price quantity : Nat) : Prop :=
  round.combos[key]? = some ⟨quantity, quantity * price⟩
    ∨ round.combos[key]? = none ∧ round.comboCount.getD 0 < 100000
      ∧ quantity = 0

variable {round : Round} {quantity generation : Nat}
   {participant group competition : String}

section

variable {gift : String} {price : Nat}
  (hids : bounded competition 128 ∧ bounded participant 512 ∧ bounded gift
    128 ∧ bounded group 128)
include hids

theorem advanceCombo_stands {c : Nat} (hg : generation ≤ i64Max)
    (hc : c ≠ 0)
    (hs : Stands round (comboKey participant gift group) price quantity)
    (hf : max quantity c * price ≤ u64Max) :
    ∃ n, round.advanceCombo competition generation participant gift
        group c (some price)
        = .ok (⟨max quantity c - quantity,
            some ((max quantity c - quantity) * price)⟩, n)
      ∧ Stands n (comboKey participant gift group) price
        (max quantity c) := by
  have hl : quantity * price ≤ max quantity c * price :=
    Nat.mul_le_mul_right _ (Nat.le_max_left _ _)
  have ho : ∃ o, round.openCombo (comboKey participant gift group)
      = .ok (⟨quantity, quantity * price⟩, o) := by
    unfold Round.openCombo
    rcases hs with hsn | ⟨hn, hr, rfl⟩
    · rw [hsn]
      exact ⟨_, rfl⟩
    · rw [hn]
      rw [ensure_true hr, Nat.zero_mul]
      exact ⟨_, rfl⟩
  obtain ⟨o, hop⟩ := ho
  have htgt : Round.comboTarget (max quantity c) (some price)
      = .ok (some (max quantity c * price)) := by
    unfold Round.comboTarget
    dsimp only
    rw [checkedMul_eq_some.2 ⟨hf, rfl⟩]
    rfl
  unfold Round.advanceCombo
  rw [ensure_true ⟨hids.1, hids.2.1, hids.2.2.1, hids.2.2.2, hc⟩,
    ensure_true hg]
  show ∃ n, (round.openCombo (comboKey participant gift group) >>= _) = _ ∧ _
  rw [hop]
  show ∃ n, (Round.comboTarget (max quantity c) (some price) >>= _) = _ ∧ _
  rw [htgt, Nat.sub_mul]
  refine ⟨_, rfl, .inl ?_⟩
  show (o.combos.insert (comboKey participant gift group)
    ⟨max quantity c, max (max quantity c * price)
      (quantity * price)⟩)[comboKey participant gift group]? = _
  rw [get_insert_self, Nat.max_eq_left hl]

theorem advanceAll_stands {c : List Nat}
    (hg : generation ≤ i64Max) (hc : ∀ n ∈ c, n ≠ 0)
    (hs : Stands round (comboKey participant gift group) price quantity)
    (hf : highest quantity c * price ≤ u64Max) :
    ∃ ne, advanceAll competition generation participant gift group price
      c round = .ok ((increments quantity c).map fun p =>
        ⟨p, some (p * price)⟩, ne) := by
  induction c generalizing round quantity with
  | nil => exact ⟨round, rfl⟩
  | cons count r ih =>
    obtain ⟨m, h, hm⟩ := advanceCombo_stands hids
      hg (hc _ mem_cons_self) hs
      (Nat.le_trans (Nat.mul_le_mul_right _ (le_highest _ r)) hf)
    obtain ⟨ne, hr⟩ := ih (fun n hn => hc n (mem_cons_of_mem _ hn)) hm hf
    refine ⟨ne, ?_⟩
    rw [advanceAll, h]
    show (advanceAll competition generation participant gift group price
      r m >>= _) = _
    rw [hr]
    rfl

end

/-- What the packets of a combo add in the database is the highest count
and its price, and in memory they add the same, packet by packet. -/
theorem combo_accounting {round : Round} {totals : GiftTotals}
    {competition participant gift group creator room : String}
    {generation price last : Nat} {key : ComboKey}
    {packets : List (GiftPacket × Nat)}
    (hids : bounded competition 128 ∧ bounded participant 512
      ∧ bounded gift 128 ∧ bounded group 128)
    (hgeneration : generation ≤ i64Max)
    (hnew : round.combos[comboKey participant gift group]? = none)
    (hroom : round.comboCount.getD 0 < 100000)
    (hpacketIds : ∀ entry ∈ packets, entry.1.groupId ≠ 0
      ∧ entry.1.userId ≠ 0 ∧ entry.1.giftId ≠ 0)
    (hkey : ∀ entry ∈ packets, GiftTotals.key creator room entry.1 = key)
    (hprice : ∀ entry ∈ packets, entry.1.price = price)
    (hunseen : totals.combos[key]? = none)
    (huntracked : totals.combos.size < GiftTotals.maxCombos)
    (hprompt : GiftTotals.Prompt last packets)
    (hfits : highest 0 (packets.map fun entry => entry.1.count) * price
      ≤ u64Max) :
    ∃ deltas next, advanceAll competition generation participant gift
        group price (packets.map fun entry => entry.1.count) round
        = .ok (deltas, next)
      ∧ (deltas.map Round.GiftDelta.quantity).sum
        = highest 0 (packets.map fun entry => entry.1.count)
      ∧ (deltas.map fun delta => delta.diamonds.getD 0).sum
        = highest 0 (packets.map fun entry => entry.1.count) * price
      ∧ (GiftTotals.observeAll creator room packets totals).1.map
          (Option.map fun value => (value.increment, some value.diamonds))
        = deltas.map fun delta => some (delta.quantity, delta.diamonds) := by
  have hc : ∀ n ∈ packets.map fun entry => entry.1.count, n ≠ 0 := by
    intro n hn
    obtain ⟨entry, -, rfl⟩ := mem_map.1 hn
    exact Nat.ne_of_gt (Nat.le_max_right _ 1)
  have hsum := add_sum_increments 0 (packets.map fun entry =>
    entry.1.count)
  rw [Nat.zero_add] at hsum
  obtain ⟨next, ha⟩ := advanceAll_stands hids hgeneration hc
    (.inr ⟨hnew, hroom, rfl⟩) hfits
  refine ⟨_, next, ha, ?_, ?_, ?_⟩
  · rw [map_map, ← hsum]
    exact congrArg List.sum (map_id _)
  · rw [map_map, ← hsum]
    show ((increments 0 (packets.map fun entry =>
      entry.1.count)).map fun part => part * price).sum = _
    rw [sum_map_mul_right, map_id']
  · rw [map_map]
    exact GiftTotals.observeAll_stands hpacketIds hkey hprice
      (.inr ⟨hunseen, huntracked, rfl⟩) hprompt hfits

/-- A final packet that comes before the one it ends. -/
theorem combo_accounting_reordered :
    ∃ deltas next, advanceAll "poll" 1 "7" "5" "9" 10 [3, 2, 3] {}
        = .ok (deltas, next)
      ∧ (deltas.map Round.GiftDelta.quantity).sum = 3 := by
  let packet (count : Nat) (final : Bool) : GiftPacket :=
    ⟨7, 5, 9, count, 1, 10, none, final⟩
  let packets := [(packet 3 true, 1000), (packet 2 false, 1500),
    (packet 3 true, 2000)]
  obtain ⟨deltas, next, ha, hsum, -, -⟩ :=
    @combo_accounting {} ⟨∅, 0⟩ "poll" "7" "5" "9" "c" "r" 1 10 1000
      (toLex ("c", toLex ("r", toLex (7, toLex (5, 9))))) packets
      (by decide) (by decide) ExtTreeMap.getElem?_empty (by decide)
      (by decide) (by decide) (by decide) ExtTreeMap.getElem?_empty
      (by decide) ⟨by decide, by decide, by decide, trivial⟩ (by decide)
  exact ⟨deltas, next, ha, hsum⟩

end durable

end TikTools.Live
