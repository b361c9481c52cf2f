/-
Tables: finite maps with a computable order on their keys, the model of
hash maps, ordered maps and keyed rows alike.

The representation is the extensional tree map of the standard library,
so two tables with the same entries are EQUAL, and a walk over a table
(`toList`) is a walk in key order. The standard library states what an
update does to a lookup through `compare`; here the same facts are
stated through equality of keys, which is how the developments above
argue.

# Sums

`Table.sum` adds up a weight over the entries. A sum is what a running
total caches, so the lemmas say how one insertion or one removal moves
it (`sum_insert_new`, `sum_insert_add`, `sum_erase_add`).
-/
import Std.Data.ExtTreeMap.Lemmas
import Mathlib.Data.Prod.Lex
import Mathlib.Algebra.BigOperators.Group.List.Basic
import Mathlib.Algebra.GroupWithZero.Nat

namespace TikTools.Lib

open Std List ExtTreeMap

universe u v

/-- Lexicographic pairs compare equal only when they are equal. -/
instance lawfulEqOrdLex {α : Type u} {β : Type v} [Ord α] [Ord β]
    [LawfulEqOrd α] [LawfulEqOrd β] : LawfulEqOrd (α ×ₗ β) where
  compare_self := by
    intro a
    show compareLex _ _ a a = .eq
    simp [compareLex, compareOn]
  eq_of_compare := by
    intro a b h
    have h' : compareLex (compareOn fun x => (ofLex x).1)
        (compareOn fun x => (ofLex x).2) a b = .eq := h
    simp only [compareLex, compareOn, Ordering.then_eq_eq,
      Std.compare_eq_iff_eq] at h'
    exact ofLex.injective (Prod.ext h'.1 h'.2)

/-- The order of keys in three parts. -/
instance transOrdTriple : TransOrd (String ×ₗ String ×ₗ String) :=
  inferInstance

/-- A finite map from ordered keys to rows. -/
abbrev Table (κ : Type u) (ρ : Type v) [Ord κ] := ExtTreeMap κ ρ compare

namespace Table

variable {κ : Type u} {ρ : Type v} [Ord κ] [TransOrd κ] [LawfulEqOrd κ]

/-- The table with one row. -/
def single (k : κ) (v : ρ) : Table κ ρ := (∅ : Table κ ρ).insert k v

-- ==== point updates

variable (t : Table κ ρ)

theorem get_insert (k a : κ) (v : ρ) [DecidableEq κ] :
    (t.insert k v)[a]? = if k = a then some v else t[a]? := by
  rw [ExtTreeMap.getElem?_insert]
  simp only [Std.compare_eq_iff_eq]

@[simp] theorem get_insert_self (k : κ) (v : ρ) :
    (t.insert k v)[k]? = some v := by
  simp

variable {k : κ}

theorem get_insert_ne {a : κ} (v : ρ) (h : k ≠ a) :
    (t.insert k v)[a]? = t[a]? := by
  rw [ExtTreeMap.getElem?_insert]
  simp [h]

theorem get_erase (k a : κ) [DecidableEq κ] :
    (t.erase k)[a]? = if k = a then none else t[a]? := by
  rw [getElem?_erase]
  simp only [Std.compare_eq_iff_eq]

@[simp] theorem get_erase_self (k : κ) :
    (t.erase k)[k]? = none := by
  simp

theorem get_erase_ne {a : κ} (h : k ≠ a) :
    (t.erase k)[a]? = t[a]? := by
  rw [getElem?_erase]
  simp [h]

theorem get_map {σ : Type v} (g : κ → ρ → σ) (t : Table κ ρ) (k : κ) :
    (ExtTreeMap.map g t)[k]? = t[k]?.map (g k) :=
  getElem?_map

theorem ext {s t : Table κ ρ} (h : ∀ k : κ, s[k]? = t[k]?) : s = t :=
  ext_getElem? h

variable {v : ρ}

theorem insert_same (h : t[k]? = some v) :
    t.insert k v = t := by
  classical
  refine ext fun a => ?_
  rw [get_insert]
  split
  · rename_i e
    rw [← e, h]
  · rfl

theorem erase_absent (h : t[k]? = none) : t.erase k = t := by
  classical
  refine ext fun a => ?_
  rw [get_erase]
  split
  · rename_i e
    rw [← e, h]
  · rfl

theorem mem_toList {t : Table κ ρ} : (k, v) ∈ t.toList ↔ t[k]? = some v :=
  mem_toList_iff_getElem?_eq_some

theorem toList_nodup : t.toList.Nodup := by
  refine (distinct_keys_toList (t := t)).imp ?_
  intro a b h e
  exact h (by rw [e]; simp)

theorem keys_toList_nodup :
    (t.toList.map Prod.fst).Nodup := by
  rw [List.Nodup, pairwise_map]
  refine (distinct_keys_toList (t := t)).imp ?_
  intro a b h e
  exact h (by rw [e]; simp)

theorem toList_insert_new (v : ρ) (h : t[k]? = none) :
    (t.insert k v).toList.Perm ((k, v) :: t.toList) := by
  classical
  refine (perm_ext_iff_of_nodup (toList_nodup _) ?_).2 ?_
  · refine nodup_cons.2 ⟨?_, toList_nodup t⟩
    rw [mem_toList, h]
    simp
  · rintro ⟨a, w⟩
    rw [mem_toList, mem_cons, mem_toList, get_insert]
    split
    · rename_i e
      subst e
      simp [h, eq_comm]
    · rename_i e
      simp [Ne.symm e]

theorem toList_erase_perm (h : t[k]? = some v) :
    t.toList.Perm ((k, v) :: (t.erase k).toList) := by
  have hin : (t.erase k).insert k v = t := by
    classical
    refine ext fun a => ?_
    rw [get_insert, get_erase]
    split
    · rename_i e
      rw [← e, h]
    · rfl
  have := toList_insert_new (t.erase k) v (get_erase_self t k)
  rwa [hin] at this

-- ==== retaining

/-- Keep the entries that pass a test, removing the others one by
one. -/
def retain (p : κ → ρ → Bool) (t : Table κ ρ) : Table κ ρ :=
  t.toList.foldl (fun acc kv => if p kv.1 kv.2 then acc
    else acc.erase kv.1) t

private theorem get_foldl_erase (p : κ → ρ → Bool) (a : κ) :
    ∀ (l : List (κ × ρ)) (acc : Table κ ρ),
      (l.foldl (fun acc kv => if p kv.1 kv.2 then acc
          else acc.erase kv.1) acc)[a]?
        = if l.any fun kv => !p kv.1 kv.2 && compare kv.1 a == .eq
          then none else acc[a]? := by
  classical
  intro l
  induction l with
  | nil =>
    intro acc
    simp
  | cons kv l ih =>
    intro acc
    rw [foldl_cons, ih, any_cons]
    by_cases hany : (l.any fun kv => !p kv.1 kv.2
        && compare kv.1 a == .eq) = true
    · simp [hany]
    · simp only [hany, Bool.or_false]
      cases hp : p kv.1 kv.2 with
      | true => simp
      | false =>
        simp only [Bool.false_eq_true, if_false, get_erase]
        by_cases he : kv.1 = a
        · simp [he]
        · simp [he]

theorem get_retain (p : κ → ρ → Bool) (t : Table κ ρ) (a : κ) :
    (t.retain p)[a]? = t[a]?.filter (p a) := by
  unfold retain
  rw [get_foldl_erase]
  cases h : t[a]? with
  | none => simp
  | some v =>
    have ha : (t.toList.any fun kv => !p kv.1 kv.2
        && compare kv.1 a == .eq) = !p a v := by
      rw [Bool.eq_iff_iff, any_eq_true]
      constructor
      · intro hex
        obtain ⟨⟨k, w⟩, hin, hkw⟩ := hex
        simp only [Bool.and_eq_true, beq_iff_eq, Std.compare_eq_iff_eq] at hkw
        obtain ⟨hp, rfl⟩ := hkw
        rw [mem_toList, h] at hin
        injection hin with hin
        rwa [hin]
      · intro hp
        exact ⟨(a, v), mem_toList.2 h, by simpa using hp⟩
    rw [ha]
    cases hp : p a v <;> simp [hp, Option.filter]

-- ==== sums

/-- The sum of a weight over the entries. -/
def sum (f : κ → ρ → Nat) (t : Table κ ρ) : Nat :=
  (t.toList.map fun kv => f kv.1 kv.2).sum

variable {f : κ → ρ → Nat}

omit [LawfulEqOrd κ] in
@[simp] theorem sum_empty : sum f (∅ : Table κ ρ) = 0 := by
  unfold sum
  rfl

theorem sum_insert_new (v : ρ) (h : t[k]? = none) :
    sum f (t.insert k v) = f k v + sum f t := by
  unfold sum
  rw [((toList_insert_new t v h).map _).sum_eq]
  simp

theorem sum_erase_add (h : t[k]? = some v) :
    f k v + sum f (t.erase k) = sum f t := by
  unfold sum
  rw [((toList_erase_perm t h).map _).sum_eq]
  simp

theorem sum_insert_add (w : ρ) (h : t[k]? = some v) :
    f k v + sum f (t.insert k w) = f k w + sum f t := by
  have hin : t.insert k w = (t.erase k).insert k w := by
    classical
    refine ext fun a => ?_
    rw [get_insert, get_insert, get_erase]
    split <;> rfl
  rw [hin, sum_insert_new _ _ (get_erase_self t k), ← sum_erase_add t h]
  omega

theorem le_sum (h : t[k]? = some v) : f k v ≤ sum f t := by
  rw [← sum_erase_add t h]
  omega

end Table

end TikTools.Lib
