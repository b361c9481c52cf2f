/-
Tables below one another.

A table whose keys are all in another one has no more entries
(`size_le`), and one whose rows weigh no more than those of the other
under the same keys has no larger sum (`sum_le_sum`).
-/
import TikTools.Lib.Table
import Mathlib.Algebra.Order.BigOperators.Group.List
import Mathlib.Algebra.Order.Group.Nat

namespace TikTools.Lib.Table

open Std List

universe u v

variable {κ : Type u} {ρ : Type v} [Ord κ] [TransOrd κ] [LawfulEqOrd κ]

section

variable {s t : Table κ ρ} (h : ∀ k : κ, s[k]? ≠ none → t[k]? ≠ none)
include h

theorem keys_subperm :
    (s.toList.map Prod.fst).Subperm (t.toList.map Prod.fst) := by
  have hs : s.toList.map Prod.fst ⊆ t.toList.map Prod.fst := by
    intro k hk
    obtain ⟨⟨k', v⟩, hm, rfl⟩ := mem_map.1 hk
    have hsm := mem_toList.1 hm
    have hne : s[k']? ≠ none := by
      rw [hsm]
      exact Option.some_ne_none v
    obtain ⟨w, hw⟩ := Option.ne_none_iff_exists'.1 (h k' hne)
    exact mem_map.2 ⟨(k', w), mem_toList.2 hw, rfl⟩
  exact subperm_of_subset (keys_toList_nodup s) hs

theorem size_le : s.size ≤ t.size := by
  have hle := (keys_subperm h).length_le
  rwa [length_map, length_map, ExtTreeMap.length_toList,
    ExtTreeMap.length_toList] at hle

end

variable {f : κ → ρ → Nat}

theorem sum_le_sum {s t : Table κ ρ}
    (h : ∀ (k : κ) (v : ρ), s[k]? = some v →
      ∃ w, t[k]? = some w ∧ f k v ≤ f k w) : sum f s ≤ sum f t := by
  let weight : κ → Nat := fun k => t[k]?.elim 0 (f k)
  have hky : ∀ k : κ, s[k]? ≠ none → t[k]? ≠ none := by
    intro k hk
    obtain ⟨v, hv⟩ := Option.ne_none_iff_exists'.1 hk
    obtain ⟨w, hw, -⟩ := h k v hv
    rw [hw]
    exact Option.some_ne_none w
  obtain ⟨ke, hp, hs⟩ := keys_subperm hky
  calc sum f s ≤ ((s.toList.map Prod.fst).map weight).sum := by
        rw [map_map]
        refine List.sum_le_sum fun kv hkv => ?_
        obtain ⟨w, hw, hle⟩ := h kv.1 kv.2 (mem_toList.1 hkv)
        show f kv.1 kv.2 ≤ t[kv.1]?.elim 0 (f kv.1)
        rw [hw]
        exact hle
    _ = (ke.map weight).sum := ((hp.map weight).sum_eq).symm
    _ ≤ ((t.toList.map Prod.fst).map weight).sum :=
        (hs.map weight).sum_le_sum fun _ _ => Nat.zero_le _
    _ = sum f t := by
        rw [map_map]
        refine congrArg List.sum (map_congr_left fun kv hkv => ?_)
        show t[kv.1]?.elim 0 (f kv.1) = f kv.1 kv.2
        rw [mem_toList.1 hkv]
        rfl

end TikTools.Lib.Table
