/-
The keys of a table as a finite set.

A union of the keys of two tables is what a count of distinct
participants counts, so the lemmas say how an insertion moves the set
and its size.
-/
import TikTools.Lib.Table
import Mathlib.Data.Finset.Card

namespace TikTools.Lib.Table

open Std List

universe u v

variable {κ : Type u} {ρ : Type v} [Ord κ] [TransOrd κ] [LawfulEqOrd κ]
  [DecidableEq κ]

def keySet (t : Table κ ρ) : Finset κ := (t.toList.map Prod.fst).toFinset

variable {t : Table κ ρ} {k : κ}

theorem mem_keySet :
    k ∈ keySet t ↔ t[k]? ≠ none := by
  unfold keySet
  rw [mem_toFinset, mem_map]
  constructor
  · rintro ⟨⟨k', v⟩, h, rfl⟩
    rw [mem_toList.1 h]
    exact Option.some_ne_none v
  · intro hk
    obtain ⟨v, hv⟩ := Option.ne_none_iff_exists'.1 hk
    exact ⟨(k, v), mem_toList.2 hv, rfl⟩

omit [LawfulEqOrd κ] in
theorem mem_keys :
    k ∈ t.toList.map Prod.fst ↔ k ∈ keySet t := by
  exact mem_toFinset.symm

theorem mem_keySet_of_get {v : ρ} (h : t[k]? = some v) : k ∈ t.keySet := by
  rw [mem_keySet, h]
  exact Option.some_ne_none v

omit [LawfulEqOrd κ] in
@[simp] theorem keySet_empty : (∅ : Table κ ρ).keySet = ∅ := by
  unfold keySet
  rfl

@[simp] theorem keySet_insert (t : Table κ ρ) (k : κ) (v : ρ) :
    keySet (t.insert k v) = insert k t.keySet := by
  ext a
  rw [mem_keySet, Finset.mem_insert, mem_keySet, get_insert]
  by_cases h : k = a
  · rw [if_pos h]
    exact iff_of_true (Option.some_ne_none v) (.inl h.symm)
  · rw [if_neg h]
    exact ⟨.inr, fun hor => hor.resolve_left fun heq => h heq.symm⟩

theorem keySet_insert_of_get {v : ρ} (w : ρ)
    (h : t[k]? = some v) : keySet (t.insert k w) = t.keySet := by
  rw [keySet_insert, Finset.insert_eq_of_mem (mem_keySet_of_get h)]

theorem card_keySet (t : Table κ ρ) : t.keySet.card = t.size := by
  unfold keySet
  rw [toFinset_card_of_nodup (keys_toList_nodup t), length_map,
    ExtTreeMap.length_toList]

omit [DecidableEq κ] in
theorem size_insert_new (t : Table κ ρ) (v : ρ)
    (h : t[k]? = none) : (t.insert k v).size = t.size + 1 := by
  have hlen := (toList_insert_new t v h).length_eq
  rwa [ExtTreeMap.length_toList, length_cons,
    ExtTreeMap.length_toList] at hlen

theorem size_retain_le (p : κ → ρ → Bool) (t : Table κ ρ) :
    (t.retain p).size ≤ t.size := by
  rw [← card_keySet, ← card_keySet]
  refine Finset.card_le_card fun k hk => ?_
  rw [mem_keySet, get_retain] at hk
  rw [mem_keySet]
  intro hn
  rw [hn] at hk
  exact hk rfl

end TikTools.Lib.Table
