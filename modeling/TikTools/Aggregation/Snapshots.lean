/-
What a snapshot of a ranking shows.

The candidates of a snapshot are read off the ordered index, best first;
the ranking step then selects, cuts and sorts them again. Whatever
operations a ranking went through, and whether they failed or not, the
index holds a pair for every score and no other (`Represented`), so that
a snapshot is a prefix of the sorted scores. The ranking step agrees
with the full sort on any entries whose keys differ.
-/
import TikTools.Lib.Runs
import TikTools.Lib.Selection
import TikTools.Aggregation.Sound

namespace TikTools.Aggregation

open TikTools.Lib Std List Table

set_option linter.dupNamespace false

-- ==== the order of entries

instance Entry.before_total : Std.Total Entry.before where
  total a b := by
    unfold Entry.before
    rcases Nat.lt_trichotomy a.score b.score with h | h | h
    · exact .inr (.inl h)
    · rcases Std.le_total (a := a.key) (b := b.key) with hkey | hkey
      · exact .inl (.inr ⟨h, hkey⟩)
      · exact .inr (.inr ⟨h.symm, hkey⟩)
    · exact .inl (.inl h)

instance Entry.before_trans : IsTrans Entry Entry.before where
  trans a b c hab hbc := by
    unfold Entry.before at hab hbc ⊢
    rcases hab with hab | ⟨hab, hkey⟩
    · rcases hbc with hbc | ⟨hbc, -⟩
      · exact .inl (by omega)
      · exact .inl (by omega)
    · rcases hbc with hbc | ⟨hbc, hkey'⟩
      · exact .inl (by omega)
      · exact .inr ⟨hab.trans hbc, Std.le_trans hkey hkey'⟩

variable {b a : Entry}

theorem Entry.before_antisymm (hab : a.before b) (hba : b.before a) :
    a.key = b.key := by
  rcases hab with hab | ⟨hab, hkey⟩
  · rcases hba with hba | ⟨hba, -⟩ <;> omega
  · rcases hba with hba | ⟨-, hkey'⟩
    · omega
    · exact Std.le_antisymm hkey hkey'

/-- No two entries have one key. -/
def DistinctKeys (entries : List Entry) : Prop := (entries.map (·.key)).Nodup

theorem DistinctKeys.eq_of_key {e : List Entry}
    (h : DistinctKeys e) (ha : a ∈ e) (hb : b ∈ e)
    (hk : a.key = b.key) : a = b :=
  inj_on_of_nodup_map h ha hb hk

/-- The entries in order, each with its place. -/
def fullOrder (entries : List Entry) : List Entry :=
  (entries.insertionSort Entry.before).mapIdx fun index entry =>
    { entry with rank := index + 1 }

-- ==== rank(limit)

/-- `Snapshot::rank`: select the best entries, cut the others off, sort
what is left and number it. -/
def Snapshot.rankBy (order : Unstable Entry.before) (snapshot : Snapshot)
    (limit : Nat) : Snapshot :=
  { snapshot with
    entries := (order.best limit snapshot.entries).mapIdx
      fun index entry => { entry with rank := index + 1 } }

/-- Nothing else of the snapshot changes, and with different keys it
does not matter how the library orders equal entries. -/
theorem Snapshot.rankBy_eq (order : Unstable Entry.before)
    (s : Snapshot) (limit : Nat)
    (hk : DistinctKeys s.entries) :
    s.rankBy order limit = s.rank limit := by
  unfold Snapshot.rankBy Snapshot.rank
  rw [order.best_eq limit fun a ha b hb hab hba =>
    hk.eq_of_key ha hb (Entry.before_antisymm hab hba)]

theorem take_mapIdx {α β : Type} (f : Nat → α → β) (n : Nat)
    (l : List α) : (l.take n).mapIdx f = (l.mapIdx f).take n := by
  apply ext_getElem?
  intro i
  simp only [getElem?_mapIdx, getElem?_take]
  split <;> rfl

theorem Snapshot.rank_entries (s : Snapshot) (limit : Nat) :
    (s.rank limit).entries = (fullOrder s.entries).take limit :=
  take_mapIdx _ _ _

-- ==== reading the index

namespace RankingIndex

/-- The pair an index entry stands for. -/
def scored (entry : (Natᵒᵈ ×ₗ String) × Unit) : String × Nat :=
  ((ofLex entry.1).2, OrderDual.ofDual (ofLex entry.1).1)

theorem position_scored (e : (Natᵒᵈ ×ₗ String) × Unit) :
    position (scored e).1 (scored e).2 = e.1 := rfl

theorem scored_injective : Function.Injective scored := by
  intro a b h
  have hkey : (ofLex a.1).2 = (ofLex b.1).2 := congrArg Prod.fst h
  have hs : (ofLex a.1).1 = (ofLex b.1).1 := congrArg Prod.snd h
  exact Prod.ext (ofLex.injective (Prod.ext hs hkey)) rfl

theorem position_lt {key key' : String} {s s' : Nat}
    (h : compare (position key s) (position key' s') = .lt) :
    s' < s ∨ s = s' ∧ key < key' := by
  have h' : (compare s' s).then (compare key key') = .lt := h
  rw [Ordering.then_eq_lt] at h'
  rcases h' with hs | ⟨hs, hk⟩
  · exact .inl (Nat.compare_eq_lt.1 hs)
  · exact .inr ⟨(Nat.compare_eq_eq.1 hs).symm, compareOfLessAndEq_eq_lt.1 hk⟩

end RankingIndex

namespace Aggregation

open RankingIndex

variable {state : Aggregation}

section

variable (h : state.Represented)
include h

theorem Represented.scored_perm :
    (state.index.toList.map scored).Perm state.scores.toList := by
  refine (perm_ext_iff_of_nodup
    ((nodup_map_iff scored_injective).2 (toList_nodup _))
    (toList_nodup _)).2 ?_
  rintro ⟨key, s⟩
  rw [mem_toList, ← h.indexed key s, ← mem_toList]
  constructor
  · intro hm
    obtain ⟨e, hen, heq⟩ := mem_map.1 hm
    have hp := position_scored e
    rw [heq] at hp
    rw [hp]
    exact hen
  · intro hm
    exact mem_map.2 ⟨(position key s, ()), hm, rfl⟩

theorem Represented.index_size :
    state.index.size = state.scores.size := by
  have hlen := h.scored_perm.length_eq
  rwa [length_map, ExtTreeMap.length_toList, ExtTreeMap.length_toList] at hlen

/-- The entries of a ranking, one for every score. -/
def entries (state : Aggregation) : List Entry :=
  state.scores.toList.map state.entry

omit h in
theorem entries_distinct (state : Aggregation) :
    DistinctKeys state.entries := by
  unfold DistinctKeys entries
  rw [map_map]
  exact keys_toList_nodup state.scores

theorem Represented.walk_eq :
    (state.index.toList.map scored).map state.entry
      = state.entries.insertionSort Entry.before := by
  have hp := h.scored_perm.map state.entry
  refine List.Perm.eq_of_pairwise ?_ ?_
    (pairwise_insertionSort Entry.before _)
    (hp.trans (perm_insertionSort Entry.before _).symm)
  · intro a b ha hb hab hba
    exact state.entries_distinct.eq_of_key (hp.mem_iff.1 ha)
      ((mem_insertionSort _).1 hb) (Entry.before_antisymm hab hba)
  · rw [pairwise_map, pairwise_map]
    refine (ExtTreeMap.ordered_keys_toList (t := state.index)).imp ?_
    intro a b hab
    rcases position_lt hab with hs | ⟨hs, hk⟩
    · exact .inl hs
    · exact .inr ⟨hs, Std.le_of_lt hk⟩

theorem Represented.candidates_eq (limit : Nat) :
    (state.snapshotCandidates limit).entries
      = (state.entries.insertionSort Entry.before).take limit := by
  rw [← h.walk_eq, map_map, ← map_take, ← map_map]
  rfl

/-- `Aggregation::snapshot`. -/
def snapshot (state : Aggregation) (order : Unstable Entry.before)
    (limit : Nat) : Snapshot :=
  (state.snapshotCandidates limit).rankBy order limit

theorem Represented.snapshot_eq (order : Unstable Entry.before)
    (limit : Nat) :
    (state.snapshot order limit).entries
      = (fullOrder state.entries).take limit := by
  have hs := (pairwise_insertionSort Entry.before
    state.entries).sublist (take_sublist limit _)
  have hd : DistinctKeys (state.snapshotCandidates limit).entries := by
    rw [h.candidates_eq]
    refine List.Nodup.sublist ((take_sublist limit _).map _) ?_
    exact ((perm_insertionSort Entry.before _).map
      Entry.key).nodup_iff.2 state.entries_distinct
  unfold snapshot
  rw [Snapshot.rankBy_eq _ _ _ hd, Snapshot.rank_entries, h.candidates_eq]
  unfold fullOrder
  rw [hs.insertionSort_eq, ← take_mapIdx, ← take_mapIdx,
    take_take, Nat.min_self]

end

-- ==== calls

def setCapacity (state : Aggregation) (capacity : Nat) : Aggregation :=
  { state with capacity }

/-- The calls that change a ranking. -/
inductive Call where
  | apply (key : String) (delta weight : Nat)
  | reassign (source target : String) (amount additional : Nat)
  | expire (key : String) (amount : Nat)
  | updateMetadata (key : String) (data : EntryMetadata)
  | touch
  | reset
  | setCapacity (capacity : Nat)

def answer (state : Aggregation) : Call → Except Error Aggregation
  | .apply key delta weight => state.apply key delta weight
  | .reassign source target amount additional =>
    state.reassign source target amount additional
  | .expire key amount => state.expire key amount
  | .updateMetadata key data => .ok (state.updateMetadata key data)
  | .touch => state.touch
  | .reset => state.reset
  | .setCapacity capacity => .ok (state.setCapacity capacity)

/-- The state a call leaves. One that fails has changed nothing. -/
def perform (state : Aggregation) (call : Call) : Aggregation :=
  match state.answer call with
  | .ok next => next
  | .error _ => state

/-- Only an amount the key holds is taken out. -/
def Allowed (state : Aggregation) : Call → Prop
  | .expire key amount =>
    ∃ held, state.scores[key]? = some held ∧ amount ≤ held
  | _ => True

/-- Display data is kept for scored keys only. -/
def Described (state : Aggregation) : Prop :=
  ∀ key : String, state.metadata[key]? ≠ none → state.scores[key]? ≠ none

variable {call : Call}

variable {next : Aggregation}

theorem Represented.answer (h : state.Represented)
    (hal : state.Allowed call) (ha : state.answer call = .ok next) :
    next.Represented := by
  cases call with
  | apply key delta weight =>
    rcases apply_cases ha with ⟨-, rfl⟩ | hp
    · exact h
    · exact h.applied hp
  | reassign source target am additional => exact h.reassign ha
  | expire key am =>
    obtain ⟨held, hh, hle⟩ := hal
    refine h.expire ?_ ha
    rwa [hh, Option.getD_some]
  | updateMetadata key data =>
    cases ha
    unfold Aggregation.updateMetadata
    split
    · exact ⟨h.indexed, h.total, h.keys⟩
    · exact h
  | touch =>
    rw [touch_eq ha]
    exact ⟨h.indexed, h.total, h.keys⟩
  | reset =>
    rw [reset_eq ha]
    have hnew := Represented.new state.capacity
    exact ⟨hnew.indexed, hnew.total, hnew.keys⟩
  | setCapacity capacity =>
    cases ha
    exact ⟨h.indexed, h.total, h.keys⟩

theorem Described.put (h : state.Described) (s : String) (sc : Nat)
    (key : String) (hk : (if sc = 0 then state.metadata.erase s
      else state.metadata)[key]? ≠ none) :
    (put state.scores s (positive sc))[key]? ≠ none := by
  rw [get_put]
  by_cases heq : s = key
  · subst heq
    rw [if_pos rfl]
    by_cases hz : sc = 0
    · rw [if_pos hz, get_erase_self] at hk
      exact absurd rfl hk
    · rw [positive_pos (Nat.pos_of_ne_zero hz)]
      exact Option.some_ne_none _
  · rw [if_neg heq]
    apply h
    split at hk
    · rwa [get_erase_ne _ heq] at hk
    · exact hk

theorem expire_metadata {key : String} {am : Nat}
    (h : state.expire key am = .ok next) :
    next.metadata = if state.scores[key]?.getD 0 - am = 0 then
      state.metadata.erase key else state.metadata := by
  obtain ⟨revision, -, h⟩ := okOr_ok.1 h
  obtain ⟨previous, hp, h⟩ := okOr_ok.1 h
  cases h
  rw [hp]
  rfl

theorem reassign_metadata {s t : String} {am ad : Nat}
    (h : state.reassign s t am ad = .ok next) :
    next.metadata = if state.scores[s]?.getD 0 - am = 0 then
      state.metadata.erase s else state.metadata := by
  obtain ⟨-, h⟩ := ensure_ok.1 h
  obtain ⟨oldSource, ho, h⟩ := okOr_ok.1 h
  obtain ⟨newSource, hn, h⟩ := okOr_ok.1 h
  obtain ⟨-, rfl⟩ := checkedSub_eq_some.1 hn
  obtain ⟨newTarget, -, h⟩ := okOr_ok.1 h
  obtain ⟨-, h⟩ := ensure_ok.1 h
  obtain ⟨total, -, h⟩ := okOr_ok.1 h
  obtain ⟨revision, -, h⟩ := okOr_ok.1 h
  cases h
  rw [ho]
  rfl

theorem Described.answer (h : state.Described)
    (hr : state.Represented) (ha : state.answer call = .ok next) :
    next.Described := by
  cases call with
  | apply key delta weight =>
    rcases apply_cases ha with ⟨-, rfl⟩ | happ
    · exact h
    · intro other ho
      rw [happ.metadata] at ho
      rw [happ.scores, get_put]
      split
      · exact Option.some_ne_none _
      · exact h other ho
  | reassign source target amount additional =>
    intro key hkey
    have hmv := reassign_cases ha
    rw [reassign_metadata ha] at hkey
    rw [hmv.scores_put hr, get_put]
    have hput := h.put source _ key hkey
    by_cases heq : target = key
    · subst heq
      rw [if_pos rfl]
      -- a described target is scored already
      rw [get_put, if_neg hmv.apart] at hput
      obtain ⟨score, hs⟩ := Option.ne_none_iff_exists'.1 hput
      have hpos := (hr.keys target score hs).2
      rw [hs, Option.getD_some, positive_pos (by omega)]
      exact Option.some_ne_none _
    · rw [if_neg heq]
      exact hput
  | expire key amount =>
    intro other ho
    rw [expire_metadata ha] at ho
    rw [(expire_cases ha).scores]
    exact h.put key _ other ho
  | updateMetadata key data =>
    cases ha
    unfold Aggregation.updateMetadata
    split
    · next hsc =>
      intro other ho
      by_cases heq : key = other
      · exact heq ▸ hsc
      · apply h
        rwa [get_insert_ne _ _ heq] at ho
    · exact h
  | touch =>
    rw [touch_eq ha]
    exact h
  | reset =>
    rw [reset_eq ha]
    intro key hkey
    exact absurd ExtTreeMap.getElem?_empty hkey
  | setCapacity capacity =>
    cases ha
    exact h

theorem kept_perform (h : state.Represented ∧ state.Described)
    (hal : state.Allowed call) :
    (state.perform call).Represented ∧ (state.perform call).Described := by
  unfold perform
  split
  · next ha => exact ⟨h.1.answer hal ha, h.2.answer h.1 ha⟩
  · exact h

/-- Whatever was called, the index, the total and the display data are
those of the scores, and a snapshot is a prefix of the sorted scores;
the ranking step is one of any entries whose keys differ. -/
theorem snapshots_of_run {capacity : Nat} {state : Aggregation}
    (hrun : Run (fun s call t => perform s call = t) Allowed (new capacity)
      state) :
    ((∀ (key : String) (score : Nat),
        state.index[position key score]? = some ()
          ↔ state.scores[key]? = some score)
      ∧ state.index.size = state.scores.size)
    ∧ (∀ (key : String) (score : Nat), state.scores[key]? = some score →
        0 < score)
    ∧ state.total = sumOf state.scores
    ∧ (∀ key : String,
        state.metadata[key]? ≠ none → state.scores[key]? ≠ none)
    ∧ (∀ order limit, (state.snapshot order limit).entries
        = (fullOrder state.entries).take limit)
    ∧ ∀ order (other : Snapshot) limit, DistinctKeys other.entries →
        (other.rankBy order limit).entries
          = (fullOrder other.entries).take limit := by
  have hk : state.Represented ∧ state.Described := by
    refine @Run.invariant _ _ _ _ _ _
      (fun s => s.Represented ∧ s.Described) hrun
      ⟨Represented.new capacity, ?_⟩ ?_
    · intro key hkey
      exact absurd ExtTreeMap.getElem?_empty hkey
    · rintro s call t h ha rfl
      exact kept_perform h ha
  refine ⟨⟨hk.1.indexed, hk.1.index_size⟩, ?_, hk.1.total, hk.2, ?_, ?_⟩
  · intro key score h
    exact (hk.1.keys key score h).2
  · exact hk.1.snapshot_eq
  · intro order other limit hky
    rw [Snapshot.rankBy_eq _ _ _ hky, Snapshot.rank_entries]

/-- Two keys are scored, the room is taken away, one more is refused and
half of the first is taken out again. -/
theorem snapshots_of_two :
    let first := (new 2).perform (.apply "a" 10 1)
    let second := (first.perform (.apply "b" 7 1)).perform (.setCapacity 0)
    let last := (second.perform (.apply "c" 1 1)).perform (.expire "a" 5)
    last.total = sumOf last.scores
      ∧ (last.snapshot .ofSort 1).entries
        = (fullOrder last.entries).take 1 := by
  intro first second last
  have hrun : Run (fun s call t => perform s call = t) Allowed (new 2)
      last := by
    refine .tail (.expire "a" 5) ?_ ⟨10, by decide +kernel, by decide⟩ rfl
    refine .tail (.apply "c" 1 1) ?_ trivial rfl
    refine .tail (.setCapacity 0) ?_ trivial rfl
    refine .tail (.apply "b" 7 1) ?_ trivial rfl
    exact .tail (.apply "a" 10 1) .refl trivial rfl
  have h := snapshots_of_run hrun
  exact ⟨h.2.2.1, h.2.2.2.2.1 .ofSort 1⟩

end Aggregation

end TikTools.Aggregation
