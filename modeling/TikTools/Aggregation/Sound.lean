/-
What holds of the scores of a ranking: the index agrees with them, the
total is their sum, every key is a key and every score is positive, and
there are no more of them than the ranking has room for.

A change of one score is `put`; it moves the pair of the key in the
index and the total by the difference. The operations are built from
such changes.
-/
import TikTools.Aggregation.State

namespace TikTools.Aggregation

open TikTools.Lib Std Option Table ExtTreeMap

set_option linter.dupNamespace false

theorem positive_getD (score : Nat) : (positive score).getD 0 = score := by
  unfold positive
  split
  · rfl
  · rw [getD_none]
    omega

variable {next : Aggregation} {score : Nat} {key : String}

theorem positive_some {s' : Nat}
    (h : positive score = some s') : score = s' ∧ 0 < score := by
  unfold positive at h
  split at h
  · next hp =>
    cases h
    exact ⟨rfl, hp⟩
  · cases h

theorem positive_pos (h : 0 < score) : positive score = some score := if_pos h

theorem positive_not_pos (h : ¬ 0 < score) : positive score = none := if_neg h

theorem get_put (scores : Table String Nat) (key o : String)
    (next : Option Nat) :
    (put scores key next)[o]? = if key = o then next else scores[o]? := by
  cases next with
  | some score => exact get_insert _ _ _ _
  | none => exact get_erase _ _ _

/-- The index holds the pair of every score and no other. -/
def Indexed (scores : Table String Nat) (index : RankingIndex) : Prop :=
  ∀ key score, index[RankingIndex.position key score]? = some ()
    ↔ scores[key]? = some score

namespace RankingIndex

theorem position_inj {key' : String} {score' : Nat} :
    position key score = position key' score'
      ↔ key = key' ∧ score = score' := by
  unfold position
  rw [toLex_inj, Prod.mk.injEq, OrderDual.toDual_inj]
  exact and_comm

theorem get_update (index : RankingIndex) (key : String)
    (pr next : Option Nat) (other : String) (score : Nat) :
    (index.update key pr next)[position other score]?
      = if key = other ∧ next = some score then some ()
        else if key = other ∧ pr = some score then none
        else index[position other score]? := by
  unfold update
  cases next with
  | some s =>
    rw [get_insert]
    by_cases h : key = other ∧ s = score
    · rw [if_pos (position_inj.2 h), if_pos ⟨h.1, by rw [h.2]⟩]
    · rw [if_neg (fun e => h (position_inj.1 e)),
        if_neg (by simpa using h)]
      cases pr with
      | none => simp
      | some p =>
        rw [get_erase]
        simp only [position_inj, Option.some.injEq]
  | none =>
    rw [if_neg (by simp)]
    cases pr with
    | none => simp
    | some p =>
      rw [get_erase]
      simp only [position_inj, Option.some.injEq]

end RankingIndex

variable {scores : Table String Nat}

theorem Indexed.put {i : RankingIndex} (h : Indexed scores i)
    (key : String) (next : Option Nat) :
    Indexed (put scores key next) (i.update key scores[key]? next) := by
  intro o score
  rw [RankingIndex.get_update, get_put]
  by_cases hkey : key = o
  · subst hkey
    by_cases hn : next = some score
    · simp [hn]
    · by_cases hold : scores[key]? = some score
      · simp [hn, hold]
      · simp only [hn, hold, and_false, if_false, if_true, iff_false]
        exact fun hmem => hold ((h key score).1 hmem)
  · simp only [hkey, false_and, if_false]
    exact h o score

/-- The sum of the scores. -/
def sumOf (scores : Table String Nat) : Nat := scores.sum fun _ score => score

theorem sumOf_put (scores : Table String Nat) (key : String)
    (next : Option Nat) :
    scores[key]?.getD 0 + sumOf (put scores key next)
      = next.getD 0 + sumOf scores := by
  unfold sumOf
  cases hold : scores[key]? with
  | none =>
    cases next with
    | none =>
      show _ + sumOf (scores.erase key) = _
      rw [erase_absent _ hold]
      rfl
    | some score =>
      have hsum := sum_insert_new (f := fun _ score => score)
        scores score hold
      rw [getD_none, Nat.zero_add]
      exact hsum
  | some old =>
    cases next with
    | none =>
      have hsum := sum_erase_add (f := fun _ score => score) scores hold
      simpa [put] using hsum
    | some score =>
      have hsum := sum_insert_add (f := fun _ score => score)
        scores score hold
      simpa [put] using hsum

theorem le_sumOf (h : scores[key]? = some score) :
    score ≤ sumOf scores :=
  le_sum (f := fun _ score => score) scores h

theorem contains_iff (scores : Table String Nat) (key : String) :
    scores.contains key = true ↔ scores[key]? ≠ none := by
  rw [contains_eq_isSome_getElem?, isSome_iff_ne_none]

theorem size_put (scores : Table String Nat) (key : String)
    (next : Option Nat) : (put scores key next).size
      + (if scores[key]? = none then 0 else 1)
        = scores.size + (if next = none then 0 else 1) := by
  have hcn := contains_iff scores key
  cases next with
  | some score =>
    show (scores.insert key score).size + _ = _
    rw [size_insert]
    by_cases hold : scores[key]? = none
    · rw [if_neg (fun hc => hcn.1 hc hold), if_pos hold, if_neg (by simp)]
    · rw [if_pos (hcn.2 hold), if_neg hold, if_neg (by simp)]
  | none =>
    show (scores.erase key).size + _ = _
    by_cases hold : scores[key]? = none
    · rw [erase_absent _ hold, if_pos hold, if_pos rfl]
    · rw [size_erase, if_pos (hcn.2 hold), if_neg hold,
        if_pos rfl]
      have hpos : scores.size ≠ 0 := by
        intro hz
        have hem : scores = ∅ := eq_empty_iff_size_eq_zero.2 hz
        rw [hem] at hold
        exact hold getElem?_empty
      omega

/-- The index and the total of a ranking are those of its scores. -/
structure Aggregation.Represented (state : Aggregation) : Prop where
  indexed : Indexed state.scores state.index
  total : state.total = sumOf state.scores
  keys : ∀ key score, state.scores[key]? = some score →
    validKey key = true ∧ 0 < score

/-- The scores of a ranking are in order. -/
structure Aggregation.Sound (state : Aggregation) : Prop where
  indexed : Indexed state.scores state.index
  total : state.total = sumOf state.scores
  keys : ∀ key score, state.scores[key]? = some score →
    validKey key = true ∧ 0 < score
  room : state.scores.size ≤ state.capacity

namespace Aggregation

variable {state : Aggregation}

theorem Sound.represented (h : state.Sound) :
    state.Represented := ⟨h.indexed, h.total, h.keys⟩

theorem Represented.sound (h : state.Represented)
    (hr : state.scores.size ≤ state.capacity) : state.Sound :=
  ⟨h.indexed, h.total, h.keys, hr⟩

theorem Represented.new (c : Nat) :
    (Aggregation.new c).Represented where
  indexed key score := by
    constructor
    · rintro ⟨⟩
    · rintro ⟨⟩
  total := sum_empty.symm
  keys key score h := by
    have hn : (∅ : Table String Nat)[key]? = none := getElem?_empty
    cases h

theorem Sound.new (c : Nat) : (Aggregation.new c).Sound :=
  (Represented.new c).sound (Nat.zero_le _)

-- ==== operations

/-- What applying a contribution does, if it does anything. -/
structure Applied (state : Aggregation) (key : String) (value : Nat)
    (next : Aggregation) : Prop where
  valid : validKey key = true
  positive : 0 < value
  room : state.scores[key]? ≠ none ∨ state.scores.size < state.capacity
  scores : next.scores
    = put state.scores key (some (state.scores[key]?.getD 0 + value))
  index : next.index = state.index.update key state.scores[key]?
    (some (state.scores[key]?.getD 0 + value))
  total : next.total = state.total + value
  revision : next.revision = state.revision + 1
  metadata : next.metadata = state.metadata
  capacity : next.capacity = state.capacity

variable {weight delta : Nat}

theorem apply_cases (h : state.apply key delta weight = .ok next) :
    delta * weight = 0 ∧ next = state
      ∨ Applied state key (delta * weight) next := by
  obtain ⟨hv, h⟩ := ensure_ok.1 h
  obtain ⟨value, hvl, h⟩ := okOr_ok.1 h
  obtain ⟨-, rfl⟩ := checkedMul_eq_some.1 hvl
  split at h
  · next hz =>
    cases h
    exact .inl ⟨hz, rfl⟩
  · next hp =>
    obtain ⟨hr, h⟩ := ensure_ok.1 h
    obtain ⟨score, hs, h⟩ := okOr_ok.1 h
    obtain ⟨total, ht, h⟩ := okOr_ok.1 h
    obtain ⟨revision, hrev, h⟩ := okOr_ok.1 h
    obtain ⟨-, rfl⟩ := checkedAdd_eq_some.1 hs
    obtain ⟨-, rfl⟩ := checkedAdd_eq_some.1 ht
    obtain ⟨-, rfl⟩ := checkedAdd_eq_some.1 hrev
    cases h
    exact .inr ⟨hv, Nat.pos_of_ne_zero hp, hr, rfl, rfl, rfl, rfl, rfl, rfl⟩

variable {value : Nat}

theorem Represented.applied (h : state.Represented)
    (ha : Applied state key value next) :
    next.Represented where
  indexed := by
    rw [ha.scores, ha.index]
    exact h.indexed.put key _
  total := by
    rw [ha.total, ha.scores, h.total]
    have hsum := sumOf_put state.scores key
      (some (state.scores[key]?.getD 0 + value))
    rw [getD_some] at hsum
    omega
  keys other score hf := by
    rw [ha.scores, get_put] at hf
    split at hf
    · next heq =>
      cases hf
      have hpos := ha.positive
      exact ⟨heq ▸ ha.valid, by omega⟩
    · exact h.keys other score hf

theorem Sound.applied (h : state.Sound)
    (ha : Applied state key value next) : next.Sound := by
  refine (h.represented.applied ha).sound ?_
  have hs := size_put state.scores key
    (some (state.scores[key]?.getD 0 + value))
  rw [ha.scores, ha.capacity]
  rw [if_neg (some_ne_none _)] at hs
  have hr := h.room
  rcases ha.room with hold | hl
  · rw [if_neg hold] at hs
    omega
  · split at hs <;> omega

theorem Sound.apply (h : state.Sound)
    (ha : state.apply key delta weight = .ok next) : next.Sound := by
  rcases apply_cases ha with ⟨-, rfl⟩ | hp
  · exact h
  · exact h.applied hp

theorem Sound.updateMetadata (h : state.Sound) (key : String)
    (d : EntryMetadata) : (state.updateMetadata key d).Sound := by
  unfold Aggregation.updateMetadata
  split
  · exact ⟨h.indexed, h.total, h.keys, h.room⟩
  · exact h

theorem touch_eq (h : state.touch = .ok next) :
    next = { state with revision := state.revision + 1 } := by
  obtain ⟨revision, hr, h⟩ := okOr_ok.1 h
  obtain ⟨-, rfl⟩ := checkedAdd_eq_some.1 hr
  cases h
  rfl

theorem reset_eq (h : state.reset = .ok next) :
    next = { new state.capacity with revision := state.revision + 1 } := by
  obtain ⟨revision, hr, h⟩ := okOr_ok.1 h
  obtain ⟨-, rfl⟩ := checkedAdd_eq_some.1 hr
  cases h
  rfl

/-- What taking an amount out does. -/
structure Expired (state : Aggregation) (key : String) (amount : Nat)
    (next : Aggregation) : Prop where
  present : state.scores[key]? ≠ none
  scores : next.scores = put state.scores key
    (positive (state.scores[key]?.getD 0 - amount))
  index : next.index = state.index.update key state.scores[key]?
    (positive (state.scores[key]?.getD 0 - amount))
  total : next.total = state.total - amount
  revision : next.revision = state.revision + 1
  capacity : next.capacity = state.capacity

variable {amount : Nat}

theorem expire_cases (h : state.expire key amount = .ok next) :
    Expired state key amount next := by
  obtain ⟨revision, hr, h⟩ := okOr_ok.1 h
  obtain ⟨-, rfl⟩ := checkedAdd_eq_some.1 hr
  obtain ⟨previous, hp, h⟩ := okOr_ok.1 h
  cases h
  constructor <;> simp [hp]

theorem Represented.expire (h : state.Represented)
    (ha : amount ≤ state.scores[key]?.getD 0)
    (he : state.expire key amount = .ok next) : next.Represented := by
  have hexp := expire_cases he
  constructor
  · rw [hexp.scores, hexp.index]
    exact h.indexed.put key _
  · have hsum := sumOf_put state.scores key
      (positive (state.scores[key]?.getD 0 - amount))
    rw [positive_getD] at hsum
    rw [hexp.total, hexp.scores, h.total]
    omega
  · intro o score hf
    rw [hexp.scores, get_put] at hf
    split at hf
    · next heq =>
      obtain ⟨rfl, hp⟩ := positive_some hf
      obtain ⟨old, ho⟩ := ne_none_iff_exists'.1 hexp.present
      exact ⟨heq ▸ (h.keys key old ho).1, hp⟩
    · exact h.keys o score hf

/-- What moving scores does. -/
structure Moved (state : Aggregation) (source target : String)
    (amount additional : Nat) (next : Aggregation) : Prop where
  valid : validKey source = true ∧ validKey target = true
  apart : source ≠ target
  held : ∃ old, state.scores[source]? = some old ∧ amount ≤ old
  room : ¬ (0 < state.scores[target]?.getD 0 + amount + additional
    ∧ state.scores[target]? = none
    ∧ 0 < state.scores[source]?.getD 0 - amount
    ∧ state.capacity ≤ state.scores.size)
  scores : next.scores
    = if state.scores[target]?.getD 0 + amount + additional > 0 then
        (put state.scores source
          (positive (state.scores[source]?.getD 0 - amount))).insert target
          (state.scores[target]?.getD 0 + amount + additional)
      else put state.scores source
        (positive (state.scores[source]?.getD 0 - amount))
  index : next.index = (state.index.update source state.scores[source]?
      (positive (state.scores[source]?.getD 0 - amount))).update target
        state.scores[target]?
        (positive (state.scores[target]?.getD 0 + amount + additional))
  total : next.total = state.total + additional
  revision : next.revision = state.revision + 1
  capacity : next.capacity = state.capacity

variable {additional : Nat} {target source : String}

theorem reassign_cases
    (h : state.reassign source target amount additional = .ok next) :
    Moved state source target amount additional next := by
  obtain ⟨⟨hs, htgt, hne⟩, h⟩ := ensure_ok.1 h
  obtain ⟨os, ho, h⟩ := okOr_ok.1 h
  obtain ⟨newSource, hnew, h⟩ := okOr_ok.1 h
  obtain ⟨hle, rfl⟩ := checkedSub_eq_some.1 hnew
  obtain ⟨newTarget, hn, h⟩ := okOr_ok.1 h
  obtain ⟨middle, hm, hl⟩ := bind_eq_some_iff.1 hn
  obtain ⟨-, rfl⟩ := checkedAdd_eq_some.1 hm
  obtain ⟨-, rfl⟩ := checkedAdd_eq_some.1 hl
  obtain ⟨hr, h⟩ := ensure_ok.1 h
  obtain ⟨total, ht, h⟩ := okOr_ok.1 h
  obtain ⟨revision, hrev, h⟩ := okOr_ok.1 h
  obtain ⟨-, rfl⟩ := checkedAdd_eq_some.1 ht
  obtain ⟨-, rfl⟩ := checkedAdd_eq_some.1 hrev
  cases h
  refine ⟨⟨hs, htgt⟩, hne, ⟨os, ho, hle⟩, ?_, ?_, ?_, rfl, rfl, rfl⟩
  · rw [ho]
    exact hr
  · rw [ho]
    rfl
  · rw [ho]
    rfl

/-- A score of zero is not there, so what happens to the target is the
change of one score as well. -/
theorem Moved.scores_put
    (hmv : Moved state source target amount additional next)
    (h : state.Represented) :
    next.scores = put (put state.scores source
      (positive (state.scores[source]?.getD 0 - amount))) target
        (positive (state.scores[target]?.getD 0 + amount + additional)) := by
  rw [hmv.scores]
  split
  · next hp =>
    rw [positive_pos hp]
    rfl
  · next hz =>
    rw [positive_not_pos hz]
    refine (erase_absent _ ?_).symm
    rw [get_put, if_neg hmv.apart]
    cases ht : state.scores[target]? with
    | none => rfl
    | some score =>
      have hpos := (h.keys target score ht).2
      rw [ht, getD_some] at hz
      omega

theorem Represented.reassign (h : state.Represented)
    (hr : state.reassign source target amount additional = .ok next) :
    next.Represented := by
  have hmv := reassign_cases hr
  obtain ⟨old, ho, hle⟩ := hmv.held
  have hk : ∀ ns,
      (put state.scores source ns)[target]? = state.scores[target]? := by
    intro ns
    rw [get_put, if_neg hmv.apart]
  have hs := hmv.scores_put h
  have hsum1 := sumOf_put state.scores source
    (positive (state.scores[source]?.getD 0 - amount))
  have hsum2 := sumOf_put (put state.scores source
    (positive (state.scores[source]?.getD 0 - amount))) target
    (positive (state.scores[target]?.getD 0 + amount + additional))
  rw [positive_getD] at hsum1 hsum2
  rw [hk] at hsum2
  constructor
  · rw [hs, hmv.index]
    have hid := (h.indexed.put source
      (positive (state.scores[source]?.getD 0 - amount))).put target
        (positive (state.scores[target]?.getD 0 + amount + additional))
    rwa [hk] at hid
  · rw [hmv.total, hs, h.total]
    rw [ho, getD_some] at hsum1 hsum2 ⊢
    omega
  · intro key score hf
    rw [hs, get_put, get_put] at hf
    split at hf
    · next heq =>
      obtain ⟨rfl, hp⟩ := positive_some hf
      exact ⟨heq ▸ hmv.valid.2, hp⟩
    · split at hf
      · next heq =>
        obtain ⟨rfl, hp⟩ := positive_some hf
        exact ⟨heq ▸ hmv.valid.1, hp⟩
      · exact h.keys key score hf

theorem Sound.reassign (h : state.Sound)
    (hr : state.reassign source target amount additional = .ok next) :
    next.Sound := by
  refine (h.represented.reassign hr).sound ?_
  have hmv := reassign_cases hr
  obtain ⟨old, hold, hle⟩ := hmv.held
  have hs1 := size_put state.scores source
    (positive (state.scores[source]?.getD 0 - amount))
  have hs2 := size_put (put state.scores source
    (positive (state.scores[source]?.getD 0 - amount))) target
    (positive (state.scores[target]?.getD 0 + amount + additional))
  rw [get_put, if_neg hmv.apart] at hs2
  rw [hold, getD_some] at hs1 hs2
  rw [if_neg (by simp)] at hs1
  have hcap := h.room
  have hrm := hmv.room
  rw [hmv.scores_put h.represented, hmv.capacity, hold, getD_some]
  rw [hold, getD_some] at hrm
  by_cases hs : 0 < old - amount
  · rw [positive_pos hs] at hs1 hs2 ⊢
    rw [if_neg (by simp)] at hs1
    by_cases ht : state.scores[target]? = none
    · rw [if_pos ht] at hs2
      by_cases hnew : 0 < state.scores[target]?.getD 0 + amount + additional
      · have hl : state.scores.size < state.capacity := by
          by_contra hge
          exact hrm ⟨hnew, ht, hs, by omega⟩
        split at hs2 <;> omega
      · rw [positive_not_pos hnew, if_pos rfl] at hs2
        rw [positive_not_pos hnew]
        omega
    · rw [if_neg ht] at hs2
      split at hs2 <;> omega
  · rw [positive_not_pos hs] at hs1 hs2 ⊢
    rw [if_pos rfl] at hs1
    split at hs2 <;> split at hs2 <;> omega

end Aggregation

end TikTools.Aggregation
