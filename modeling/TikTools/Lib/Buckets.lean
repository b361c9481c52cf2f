/-
Buckets: a table of tables, the shape of an index that answers a key
with everything filed under it.

A bucket appears with its first entry and goes with its last. Lookups
through both levels (`entry`) see an insertion and a removal as one
table would; `entries` counts what is filed anywhere.
-/
import TikTools.Lib.Table

namespace TikTools.Lib

open Std List Option Table ExtTreeMap

/-- Entries by owner, filed under keys. -/
abbrev Buckets (κ ι β : Type) [Ord κ] [Ord ι] := Table κ (Table ι β)

namespace Buckets

variable {κ ι β : Type} [Ord κ] [TransOrd κ] [LawfulEqOrd κ]
  [DecidableEq κ] [Ord ι] [TransOrd ι] [LawfulEqOrd ι] [DecidableEq ι]

/-- Everything filed under a key. -/
def bucket (t : Buckets κ ι β) (k : κ) : Table ι β := t[k]?.getD ∅

def entry (t : Buckets κ ι β) (k : κ) (i : ι) : Option β := (t.bucket k)[i]?

/-- How many entries there are. -/
def entries (t : Buckets κ ι β) : Nat := t.sum fun _ bucket => bucket.size

def put (t : Buckets κ ι β) (k : κ) (i : ι) (b : β) : Buckets κ ι β :=
  t.insert k ((t.bucket k).insert i b)

/-- Take an entry out, and its bucket if it was the last. -/
def drop (t : Buckets κ ι β) (k : κ) (i : ι) : Buckets κ ι β :=
  match t[k]? with
  | none => t
  | some bucket =>
    if (bucket.erase i).size = 0 then t.erase k
    else t.insert k (bucket.erase i)

-- ==== entries

variable (t : Buckets κ ι β)

omit [LawfulEqOrd ι] [DecidableEq ι] in
theorem bucket_put (k k' : κ) (i : ι) (b : β) :
    (t.put k i b).bucket k'
      = if k = k' then (t.bucket k).insert i b else t.bucket k' := by
  unfold put bucket
  rw [get_insert]
  split
  · rfl
  · rfl

theorem entry_put (k k' : κ) (i i' : ι) (b : β) :
    (t.put k i b).entry k' i'
      = if k = k' ∧ i = i' then some b else t.entry k' i' := by
  unfold entry
  rw [bucket_put]
  by_cases hk : k = k'
  · rw [if_pos hk, get_insert]
    by_cases hi : i = i'
    · rw [if_pos hi, if_pos ⟨hk, hi⟩]
    · rw [if_neg hi, if_neg fun h => hi h.2, hk]
  · rw [if_neg hk, if_neg fun h => hk h.1]

omit [DecidableEq ι] in
theorem bucket_drop (k k' : κ) (i : ι) :
    (t.drop k i).bucket k'
      = if k = k' then (t.bucket k).erase i else t.bucket k' := by
  have hn : (∅ : Table ι β).erase i = ∅ := erase_absent _ getElem?_empty
  unfold drop bucket
  cases hb : t[k]? with
  | none =>
    dsimp only
    split
    · next hs => rw [← hs, hb, getD_none, hn]
    · rfl
  | some found =>
    dsimp only
    split
    · next hz =>
      rw [get_erase, getD_some]
      split
      · rw [eq_empty_iff_size_eq_zero.2 hz]
        rfl
      · rfl
    · rw [get_insert, getD_some]
      split
      · rfl
      · rfl

theorem entry_drop (k k' : κ) (i i' : ι) :
    (t.drop k i).entry k' i'
      = if k = k' ∧ i = i' then none else t.entry k' i' := by
  unfold entry
  rw [bucket_drop]
  by_cases hk : k = k'
  · rw [if_pos hk, get_erase]
    by_cases hi : i = i'
    · rw [if_pos hi, if_pos ⟨hk, hi⟩]
    · rw [if_neg hi, if_neg fun h => hi h.2, hk]
  · rw [if_neg hk, if_neg fun h => hk h.1]

omit [LawfulEqOrd κ] [DecidableEq κ] [LawfulEqOrd ι] [DecidableEq ι] in
theorem entry_empty (k : κ) (i : ι) :
    (∅ : Buckets κ ι β).entry k i = none := by
  unfold entry bucket
  rw [getElem?_empty, getD_none, getElem?_empty]

-- ==== counts

omit [DecidableEq κ] [LawfulEqOrd ι] [DecidableEq ι] in
theorem entries_put {k : κ} {i : ι} (b : β)
    (hnew : t.entry k i = none) : (t.put k i b).entries = t.entries + 1 := by
  have hs : ((t.bucket k).insert i b).size = (t.bucket k).size + 1 := by
    unfold entry at hnew
    rw [size_insert, contains_eq_isSome_getElem?, hnew]
    rfl
  unfold entries put
  unfold bucket at hs ⊢
  cases hb : t[k]? with
  | none =>
    rw [hb] at hs
    rw [sum_insert_new _ _ hb, hs, getD_none, size_empty]
    omega
  | some fo =>
    rw [hb] at hs
    have hsum := sum_insert_add (f := fun _ bucket =>
      bucket.size) t (fo.insert i b) hb
    rw [getD_some] at hs ⊢
    omega

omit [DecidableEq κ] [LawfulEqOrd ι] [DecidableEq ι] in
theorem entries_drop {k : κ} {i : ι}
    (hold : t.entry k i ≠ none) : (t.drop k i).entries + 1 = t.entries := by
  unfold entries drop
  unfold entry bucket at hold
  cases hb : t[k]? with
  | none =>
    rw [hb, getD_none, getElem?_empty] at hold
    exact absurd rfl hold
  | some fo =>
    rw [hb, getD_some] at hold
    have hpos : fo.size ≠ 0 := fun hz => by
      rw [eq_empty_iff_size_eq_zero.2 hz] at hold
      exact hold getElem?_empty
    have hs : (fo.erase i).size + 1 = fo.size := by
      rw [size_erase, contains_eq_isSome_getElem?,
        if_pos (isSome_iff_ne_none.2 hold)]
      omega
    dsimp only
    split
    · next hz =>
      have hsum := sum_erase_add (f := fun _ bucket =>
        bucket.size) t hb
      omega
    · have hsum := sum_insert_add (f := fun _ bucket =>
        bucket.size) t (fo.erase i) hb
      omega

-- ==== lists

/-- File entries of one owner. -/
def puts (t : Buckets κ ι β) (i : ι) (rows : List (κ × β)) :
    Buckets κ ι β :=
  rows.foldl (fun t row => t.put row.1 i row.2) t

/-- Take out the entries of one owner under some keys. -/
def drops (t : Buckets κ ι β) (i : ι) (keys : List κ) : Buckets κ ι β :=
  keys.foldl (fun t k => t.drop k i) t

theorem entry_puts (i : ι) {r : List (κ × β)}
    (ho : (r.map Prod.fst).Nodup) (k : κ) (i' : ι) :
    (t.puts i r).entry k i'
      = if i = i' ∧ k ∈ r.map Prod.fst then
          (r.find? fun row => row.1 = k).map Prod.snd
        else t.entry k i' := by
  induction r generalizing t with
  | nil =>
    rw [if_neg fun h => not_mem_nil h.2]
    rfl
  | cons row re ih =>
    rw [map_cons, nodup_cons] at ho
    show ((t.put row.1 i row.2).puts i re).entry k i' = _
    rw [ih _ ho.2, entry_put, map_cons]
    by_cases hi : i = i'
    · by_cases hk : row.1 = k
      · rw [if_neg fun h => ho.1 (hk ▸ h.2), if_pos ⟨hk, hi⟩,
          if_pos ⟨hi, hk ▸ mem_cons_self⟩,
          find?_cons_of_pos (by simpa using hk)]
        rfl
      · rw [find?_cons_of_neg (by simpa using hk),
          if_neg (c := row.1 = k ∧ i = i') fun h => hk h.1]
        refine if_congr ?_ rfl rfl
        rw [mem_cons]
        exact ⟨fun h => ⟨h.1, .inr h.2⟩,
          fun h => ⟨h.1, h.2.resolve_left fun e => hk e.symm⟩⟩
    · rw [if_neg fun h => hi h.1, if_neg fun h => hi h.2,
        if_neg fun h => hi h.1]

theorem entry_drops (i : ι) (ke : List κ) (k : κ)
    (i' : ι) : (t.drops i ke).entry k i'
      = if i = i' ∧ k ∈ ke then none else t.entry k i' := by
  induction ke generalizing t with
  | nil =>
    rw [if_neg fun h => not_mem_nil h.2]
    rfl
  | cons f r ih =>
    show ((t.drop f i).drops i r).entry k i' = _
    rw [ih, entry_drop]
    by_cases hi : i = i'
    · by_cases hr : k ∈ r
      · rw [if_pos ⟨hi, hr⟩, if_pos ⟨hi, mem_cons_of_mem _ hr⟩]
      · rw [if_neg fun h => hr h.2]
        refine if_congr ?_ rfl rfl
        rw [mem_cons]
        exact ⟨fun h => ⟨h.2, .inl h.1.symm⟩,
          fun h => ⟨(h.2.resolve_right hr).symm, h.1⟩⟩
    · rw [if_neg fun h => hi h.1, if_neg fun h => hi h.2,
        if_neg fun h => hi h.1]

theorem entries_puts (i : ι) {r : List (κ × β)}
    (ho : (r.map Prod.fst).Nodup)
    (h : ∀ row ∈ r, t.entry row.1 i = none) :
    (t.puts i r).entries = t.entries + r.length := by
  induction r generalizing t with
  | nil => rfl
  | cons row re ih =>
    rw [map_cons, nodup_cons] at ho
    have hput := entries_put t row.2 (h row mem_cons_self)
    show ((t.put row.1 i row.2).puts i re).entries = _
    rw [ih _ ho.2, hput, length_cons, Nat.add_assoc, Nat.add_comm 1]
    intro o hot
    rw [entry_put, if_neg]
    · exact h o (mem_cons_of_mem _ hot)
    · rintro ⟨hs, -⟩
      exact ho.1 (mem_map.2 ⟨o, hot, hs.symm⟩)

theorem entries_drops (i : ι) {ke : List κ}
    (ho : ke.Nodup) (h : ∀ k ∈ ke, t.entry k i ≠ none) :
    (t.drops i ke).entries + ke.length = t.entries := by
  induction ke generalizing t with
  | nil => rfl
  | cons k r ih =>
    rw [nodup_cons] at ho
    have hd := entries_drop t (h k mem_cons_self)
    have hr := ih (t.drop k i) ho.2 fun o hot => by
      rw [entry_drop, if_neg]
      · exact h o (mem_cons_of_mem _ hot)
      · rintro ⟨rfl, -⟩
        exact ho.1 hot
    show ((t.drop k i).drops i r).entries + _ = _
    rw [length_cons]
    omega

end Buckets

end TikTools.Lib
