/-
Totals by key: the fold that adds the amount of every row to the total
of its key, as a grouped sum of a database or a loop over a map does.

The total of a key is the sum of its rows (`total_credits`), and a key
has a total when it has a row (`present_credits`).
-/
import TikTools.Lib.KeySet

namespace TikTools.Lib

open List

universe u

variable {κ : Type u} [DecidableEq κ]

/-- What the rows of a key add up to. -/
def rowTotal (key : κ) (rows : List (κ × Nat)) : Nat :=
  ((rows.filter fun row => row.1 = key).map (·.2)).sum

theorem rowTotal_cons (key : κ) (row : κ × Nat) (rows : List (κ × Nat)) :
    rowTotal key (row :: rows)
      = (if row.1 = key then row.2 else 0) + rowTotal key rows := by
  unfold rowTotal
  by_cases h : row.1 = key
  · rw [if_pos h, filter_cons_of_pos (by simpa using h)]
    rfl
  · rw [if_neg h, filter_cons_of_neg (by simpa using h), Nat.zero_add]

theorem rowTotal_le (key : κ) (rows : List (κ × Nat)) :
    rowTotal key rows ≤ (rows.map (·.2)).sum := by
  induction rows with
  | nil => exact Nat.zero_le _
  | cons row rest ih =>
    rw [rowTotal_cons, map_cons, sum_cons]
    split
    · omega
    · omega

variable {rows : List (κ × Nat)}

theorem le_rowTotal {row : κ × Nat}
    (h : row ∈ rows) : row.2 ≤ rowTotal row.1 rows := by
  induction rows with
  | nil => exact absurd h not_mem_nil
  | cons first rest ih =>
    rw [rowTotal_cons]
    rcases mem_cons.1 h with rfl | h
    · rw [if_pos rfl]
      exact Nat.le_add_right _ _
    · exact (ih h).trans (Nat.le_add_left _ _)

theorem rowTotal_append (key : κ) (f rest : List (κ × Nat)) :
    rowTotal key (f ++ rest) = rowTotal key f + rowTotal key rest := by
  unfold rowTotal
  rw [filter_append, map_append, sum_append]

theorem rowTotal_absent {key : κ}
    (h : key ∉ rows.map Prod.fst) : rowTotal key rows = 0 := by
  unfold rowTotal
  rw [filter_eq_nil_iff.2]
  · rfl
  · intro row hr hs
    exact h (mem_map.2 ⟨row, hr, of_decide_eq_true hs⟩)

namespace Table

variable [Ord κ] [Std.TransOrd κ] [Std.LawfulEqOrd κ]

/-- Add a row to the total of its key. -/
def credit (totals : Table κ Nat) (row : κ × Nat) : Table κ Nat :=
  totals.insert row.1 (totals[row.1]?.getD 0 + row.2)

def credits (totals : Table κ Nat) (rows : List (κ × Nat)) :
    Table κ Nat :=
  rows.foldl credit totals

variable (totals : Table κ Nat)

theorem total_credits (rows : List (κ × Nat))
    (key : κ) : (totals.credits rows)[key]?.getD 0
      = totals[key]?.getD 0 + rowTotal key rows := by
  induction rows generalizing totals with
  | nil => rfl
  | cons row r ih =>
    show ((totals.credit row).credits r)[key]?.getD 0 = _
    rw [ih, rowTotal_cons]
    unfold credit
    rw [get_insert]
    by_cases h : row.1 = key
    · subst h
      rw [if_pos rfl, if_pos rfl, Option.getD_some, Nat.add_assoc]
    · rw [if_neg h, if_neg h, Nat.zero_add]

theorem present_credits (rows : List (κ × Nat))
    (key : κ) : (totals.credits rows)[key]? ≠ none
      ↔ totals[key]? ≠ none ∨ key ∈ rows.map Prod.fst := by
  induction rows generalizing totals with
  | nil =>
    exact ⟨.inl, fun h => h.resolve_right not_mem_nil⟩
  | cons row rest ih =>
    show ((totals.credit row).credits rest)[key]? ≠ none ↔ _
    rw [ih, map_cons, mem_cons, ← or_assoc]
    refine or_congr_left ?_
    unfold credit
    rw [get_insert]
    by_cases h : row.1 = key
    · rw [if_pos h]
      exact iff_of_true (Option.some_ne_none _) (.inr h.symm)
    · rw [if_neg h]
      exact ⟨.inl, fun hor => hor.resolve_right fun heq => h heq.symm⟩

omit [DecidableEq κ] in
theorem sum_credits (rows : List (κ × Nat)) :
    (totals.credits rows).sum (fun _ t => t)
      = totals.sum (fun _ t => t) + (rows.map (·.2)).sum := by
  induction rows generalizing totals with
  | nil => rfl
  | cons row rest ih =>
    have hc : (totals.credit row).sum (fun _ t => t)
        = totals.sum (fun _ t => t) + row.2 := by
      unfold credit
      cases hold : totals[row.1]? with
      | none =>
        rw [sum_insert_new _ _ hold, Option.getD_none, Nat.zero_add,
          Nat.add_comm]
      | some b =>
        have hsum := sum_insert_add (f := fun _ t => t) totals
          (b + row.2) hold
        rw [Option.getD_some]
        omega
    show ((totals.credit row).credits rest).sum _ = _
    rw [ih, hc, map_cons, sum_cons, Nat.add_assoc]

omit [DecidableEq κ] [Std.LawfulEqOrd κ] in
theorem credits_append (f rest : List (κ × Nat)) :
    totals.credits (f ++ rest) = (totals.credits f).credits rest :=
  foldl_append

theorem rowTotal_toList {ρ : Type*} (t : Table κ ρ) (amount : ρ → Nat)
    (key : κ) :
    rowTotal key (t.toList.map fun row => (row.1, amount row.2))
      = t[key]?.elim 0 amount := by
  have hk : ∀ t : Table κ ρ,
      (t.toList.map fun row => (row.1, amount row.2)).map Prod.fst
        = t.toList.map Prod.fst := by
    intro t
    rw [map_map]
    rfl
  cases hrow : t[key]? with
  | none =>
    refine rowTotal_absent fun hin => ?_
    rw [hk, mem_keys, mem_keySet] at hin
    exact hin hrow
  | some row =>
    have hp := (toList_erase_perm t hrow).map fun row => (row.1, amount row.2)
    have hr : rowTotal key ((t.erase key).toList.map
        fun row => (row.1, amount row.2)) = 0 := by
      refine rowTotal_absent fun hin => ?_
      rw [hk, mem_keys, mem_keySet, get_erase, if_pos rfl] at hin
      exact hin rfl
    have hsum := ((hp.filter fun row => row.1 = key).map (·.2)).sum_eq
    unfold rowTotal at hr ⊢
    rw [hsum, map_cons, filter_cons_of_pos (by simp), map_cons, sum_cons, hr]
    rfl

theorem size_credits_le {totals : Table κ Nat}
    {k : List κ} (h : ∀ key : κ, totals[key]? ≠ none → key ∈ k)
    (hr : ∀ row ∈ rows, row.1 ∈ k) :
    (totals.credits rows).size ≤ k.length := by
  have hsub : (totals.credits rows).keySet ⊆ k.toFinset := by
    intro key hk
    rw [mem_toFinset]
    rcases (present_credits totals rows key).1 (mem_keySet.1 hk)
      with ho | hn
    · exact h key ho
    · obtain ⟨row, hrow, rfl⟩ := mem_map.1 hn
      exact hr row hrow
  calc (totals.credits rows).size
      = (totals.credits rows).keySet.card := (card_keySet _).symm
    _ ≤ k.toFinset.card := Finset.card_le_card hsub
    _ ≤ k.length := toFinset_card_le k

end Table

end TikTools.Lib
