/-
Rows grouped by a key.

A grouped table adds the amount of every row to the row of its key, as an
upsert of a database or an entry of a map does. The amounts are those of
a commutative monoid, so that sums and maxima are both covered. However
the rows are grouped, the sum over the keys that meet a condition is the
sum over the rows (`sumWhere_grouped`).
-/
import TikTools.Lib.Table
import Mathlib.Algebra.BigOperators.Group.List.Basic

namespace TikTools.Lib

open List Std

universe u v

section

variable {κ : Type u} {M : Type v} [AddCommMonoid M]

/-- What the rows whose keys meet the condition add up to. -/
def sumWhere (p : κ → Bool) (rows : List (κ × M)) : M :=
  ((rows.filter fun row => p row.1).map (·.2)).sum

theorem sumWhere_cons (p : κ → Bool) (row : κ × M) (rows : List (κ × M)) :
    sumWhere p (row :: rows)
      = (if p row.1 then row.2 else 0) + sumWhere p rows := by
  unfold sumWhere
  rw [filter_cons]
  split
  · rw [map_cons, sum_cons]
  · rw [zero_add]

theorem sumWhere_perm (p : κ → Bool) {rows other : List (κ × M)}
    (h : rows.Perm other) : sumWhere p rows = sumWhere p other :=
  ((h.filter _).map _).sum_eq

/-- Rows under other keys, for those that are kept. -/
theorem sumWhere_map {ι : Type u} (p : ι → Bool) (keep : κ → Bool)
    (key : κ → ι) (rows : List (κ × M)) :
    sumWhere p ((rows.filter fun row => keep row.1).map
        fun row => (key row.1, row.2))
      = sumWhere (fun k => keep k && p (key k)) rows := by
  induction rows with
  | nil => rfl
  | cons row rest ih =>
    rw [sumWhere_cons, ← ih, filter_cons]
    cases keep row.1 with
    | true => exact sumWhere_cons _ _ _
    | false => exact (zero_add _).symm

theorem sumWhere_filter (p keep : κ → Bool) (rows : List (κ × M)) :
    sumWhere p (rows.filter fun row => keep row.1)
      = sumWhere (fun k => p k && keep k) rows := by
  unfold sumWhere
  rw [filter_filter]

theorem sumWhere_split (p q r : κ → Bool) (rows : List (κ × M))
    (hr : ∀ k, r k = (p k || q k)) (hpq : ∀ k, (p k && q k) = false) :
    sumWhere p rows + sumWhere q rows = sumWhere r rows := by
  induction rows with
  | nil => exact zero_add 0
  | cons row rest ih =>
    rw [sumWhere_cons, sumWhere_cons, sumWhere_cons, add_add_add_comm, ih, hr]
    have hrow := hpq row.1
    cases hp : p row.1 with
    | true =>
      rw [hp, Bool.true_and] at hrow
      simp [hrow]
    | false => simp

theorem sumWhere_true (r : List (κ × M)) :
    sumWhere (fun _ => true) r = (r.map (·.2)).sum := by
  unfold sumWhere
  rw [filter_true]

theorem sumWhere_none (p : κ → Bool) (r : List (κ × M))
    (h : ∀ row ∈ r, p row.1 = false) : sumWhere p r = 0 := by
  unfold sumWhere
  rw [filter_eq_nil_iff.2 fun row hr => by simp [h row hr]]
  rfl

end

namespace Table

variable {κ : Type u} {M : Type v} [AddCommMonoid M] [Ord κ] [TransOrd κ]
  [LawfulEqOrd κ]

/-- Add to the row of a key, which need not be there yet. -/
def upsert (t : Table κ M) (row : κ × M) : Table κ M :=
  t.insert row.1 (t[row.1]?.getD 0 + row.2)

def grouped (rows : List (κ × M)) : Table κ M := rows.foldl upsert ∅

theorem sumWhere_upsert (p : κ → Bool) (t : Table κ M) (row : κ × M) :
    sumWhere p (t.upsert row).toList
      = sumWhere p t.toList + if p row.1 then row.2 else 0 := by
  unfold upsert
  cases h : t[row.1]? with
  | none =>
    rw [sumWhere_perm p (toList_insert_new t _ h), sumWhere_cons,
      Option.getD_none, zero_add, add_comm]
  | some before =>
    have hin : t.insert row.1 (before + row.2)
        = (t.erase row.1).insert row.1 (before + row.2) := by
      classical
      refine ext fun a => ?_
      rw [get_insert, get_insert, get_erase]
      split <;> rfl
    rw [Option.getD_some, hin,
      sumWhere_perm p (toList_insert_new _ _ (get_erase_self t row.1)),
      sumWhere_perm p (toList_erase_perm t h), sumWhere_cons,
      sumWhere_cons, add_right_comm]
    split
    · rfl
    · rw [add_zero]

theorem sumWhere_foldl (p : κ → Bool) (rows : List (κ × M))
    (t : Table κ M) : sumWhere p (rows.foldl upsert t).toList
      = sumWhere p t.toList + sumWhere p rows := by
  induction rows generalizing t with
  | nil => exact (add_zero _).symm
  | cons row rest ih =>
    rw [foldl_cons, ih, sumWhere_upsert, sumWhere_cons, add_assoc]

theorem sumWhere_grouped (p : κ → Bool) (rows : List (κ × M)) :
    sumWhere p (grouped rows).toList = sumWhere p rows :=
  (sumWhere_foldl p rows ∅).trans (zero_add _)

variable [DecidableEq κ]

theorem get_foldl_upsert (rows : List (κ × M)) (t : Table κ M) (k : κ) :
    (rows.foldl upsert t)[k]? = if k ∈ rows.map (·.1)
      then some (t[k]?.getD 0 + sumWhere (fun a => a = k) rows)
      else t[k]? := by
  induction rows generalizing t with
  | nil => rfl
  | cons row rest ih =>
    rw [foldl_cons, ih, sumWhere_cons]
    unfold upsert
    rw [get_insert]
    by_cases h : row.1 = k
    · subst h
      by_cases hin : row.1 ∈ rest.map (·.1)
      · simp [hin, add_assoc]
      · have hn : sumWhere (fun a => a = row.1) rest = 0 := by
          refine sumWhere_none _ _ fun other ho => decide_eq_false ?_
          exact fun heq => hin (heq ▸ mem_map_of_mem ho)
        simp [hin, hn]
    · have hne : ¬ k = row.1 := fun heq => h heq.symm
      simp only [h, hne, map_cons, mem_cons, false_or, if_false, zero_add,
        decide_false, Bool.false_eq_true]

/-- A key has a row when it has been added to, with the sum of it. -/
theorem get_grouped (r : List (κ × M)) (k : κ) :
    (grouped r)[k]? = if k ∈ r.map (·.1)
      then some (sumWhere (fun a => a = k) r) else none := by
  unfold grouped
  rw [get_foldl_upsert]
  split
  · rw [ExtTreeMap.getElem?_empty, Option.getD_none, zero_add]
  · exact ExtTreeMap.getElem?_empty

theorem getD_grouped (rows : List (κ × M)) (k : κ) :
    (grouped rows)[k]?.getD 0 = sumWhere (fun a => a = k) rows := by
  rw [get_grouped]
  split
  · rfl
  · next h =>
    refine (sumWhere_none (fun a => a = k) rows fun row hrow => ?_).symm
    exact decide_eq_false fun heq => h (heq ▸ mem_map_of_mem hrow)

end Table

end TikTools.Lib
