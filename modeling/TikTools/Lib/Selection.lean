/-
Unstable selection and sorting.

An unstable sort may leave equal elements in any order, and a selection
says only what comes before the selected place and what from it on.
`Unstable` is any pair of such functions; which one a program runs is
not known. Taking the best elements of a list selects them first and
sorts only those (`best`). Where no two elements of the list are equal
in the order, none of this can be told from sorting the list and taking
a prefix (`best_eq`).
-/
import Mathlib.Data.List.Sort

namespace TikTools.Lib

open List

universe u

variable {α : Type u}

/-- A selection and a sort whose order of equal elements is open. -/
structure Unstable (r : α → α → Prop) where
  selectNth : Nat → List α → List α
  sort : List α → List α
  select_perm : ∀ n l, n < l.length → (selectNth n l).Perm l
  /-- What comes before the selected place belongs before the rest. -/
  select_split : ∀ n l, n < l.length → ∀ a ∈ (selectNth n l).take n,
    ∀ b ∈ (selectNth n l).drop n, r a b
  sort_perm : ∀ l, (sort l).Perm l
  sort_pairwise : ∀ l, (sort l).Pairwise r

namespace Unstable

variable {r : α → α → Prop}

/-- The best `n` elements, in order. Only they are sorted. -/
def best (order : Unstable r) (n : Nat) (l : List α) : List α :=
  order.sort (if n < l.length then (order.selectNth n l).take n else l)

/-- A sort is one, and so is taking the sorted list for a selection. -/
def ofSort [DecidableRel r] [Std.Total r] [IsTrans α r] : Unstable r where
  selectNth _ l := l.insertionSort r
  sort l := l.insertionSort r
  select_perm _ l _ := perm_insertionSort r l
  select_split n l _ := by
    have hsorted := pairwise_insertionSort r l
    rw [← take_append_drop n (l.insertionSort r), pairwise_append] at hsorted
    exact hsorted.2.2
  sort_perm l := perm_insertionSort r l
  sort_pairwise l := pairwise_insertionSort r l

variable [DecidableRel r] [Std.Total r] [IsTrans α r]

theorem sort_eq (o : Unstable r) {l : List α}
    (hne : ∀ a ∈ l, ∀ b ∈ l, r a b → r b a → a = b) :
    o.sort l = l.insertionSort r := by
  refine List.Perm.eq_of_pairwise ?_ (o.sort_pairwise l)
    (pairwise_insertionSort r l)
    ((o.sort_perm l).trans (perm_insertionSort r l).symm)
  intro a b ha hb
  exact hne a ((o.sort_perm l).mem_iff.1 ha) b ((mem_insertionSort r).1 hb)

theorem best_eq (o : Unstable r) (n : Nat) {l : List α}
    (hne : ∀ a ∈ l, ∀ b ∈ l, r a b → r b a → a = b) :
    o.best n l = (l.insertionSort r).take n := by
  unfold best
  by_cases hn : n < l.length
  · rw [if_pos hn]
    -- what was selected, sorted, with the sorted rest behind it, is a
    -- sorted list of all the elements
    have hp := o.select_perm n l hn
    have hall : ((o.sort ((o.selectNth n l).take n))
        ++ ((o.selectNth n l).drop n).insertionSort r).Perm l := by
      refine List.Perm.trans ((o.sort_perm _).append
        (perm_insertionSort r _)) ?_
      rw [take_append_drop]
      exact hp
    have hw : o.sort ((o.selectNth n l).take n)
        ++ ((o.selectNth n l).drop n).insertionSort r
          = l.insertionSort r := by
      refine List.Perm.eq_of_pairwise ?_ ?_
        (pairwise_insertionSort r l)
        (hall.trans (perm_insertionSort r l).symm)
      · intro a b ha hb
        exact hne a (hall.mem_iff.1 ha) b ((mem_insertionSort r).1 hb)
      · refine pairwise_append.2 ⟨o.sort_pairwise _,
          pairwise_insertionSort r _, ?_⟩
        intro a ha b hb
        exact o.select_split n l hn a
          ((o.sort_perm _).mem_iff.1 ha) b
          ((mem_insertionSort r).1 hb)
    have hlen : (o.sort ((o.selectNth n l).take n)).length
        = n := by
      rw [(o.sort_perm _).length_eq, length_take, hp.length_eq]
      omega
    rw [← hw, take_left' hlen]
  · rw [if_neg hn, o.sort_eq hne, take_of_length_le]
    rw [length_insertionSort]
    omega

end Unstable

end TikTools.Lib
