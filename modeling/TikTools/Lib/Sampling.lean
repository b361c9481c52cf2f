/-
Fair draws: from a raw value to a residue, from a residue to a row.

A raw value below the remainder of the range is rejected and the others
are reduced, so that what is left of the range is a whole number of
blocks and every residue is hit once a block. A row is found by walking
down the amounts, so it is found for as many tickets as its amount.
-/
import Mathlib.Data.Nat.Count
import Mathlib.Algebra.BigOperators.Group.List.Basic
import Mathlib.Algebra.GroupWithZero.Nat

namespace TikTools.Lib.Sampling

open List Nat

theorem count_congr {p q : Nat → Prop} [DecidablePred p] [DecidablePred q]
    {n : Nat} (h : ∀ k < n, p k ↔ q k) : Nat.count p n = Nat.count q n := by
  induction n with
  | zero => rfl
  | succ n ih =>
    rw [count_succ, count_succ, ih fun k hk => h k (lt_succ_of_lt hk)]
    simp only [h n (lt_succ_self n)]

theorem count_none {p : Nat → Prop} [DecidablePred p] {n : Nat}
    (h : ∀ k < n, ¬ p k) : Nat.count p n = 0 := by
  rw [count_congr fun k hk => iff_false_intro (h k hk)]
  exact count_false n

theorem count_all {p : Nat → Prop} [DecidablePred p] {n : Nat}
    (h : ∀ k < n, p k) : Nat.count p n = n := by
  rw [count_congr fun k hk => iff_true_intro (h k hk)]
  exact count_true n

theorem count_eq {r n : Nat} (hr : r < n) : Nat.count (· = r) n = 1 := by
  obtain ⟨rest, rfl⟩ := Nat.exists_eq_add_of_le hr
  rw [Nat.count_add, Nat.count_succ, if_pos rfl,
    count_none fun k hk => Nat.ne_of_lt hk,
    count_none fun k _ => by omega]

-- ==== residues

/-- The residue of a raw value, one of `m` many, unless it is
rejected. -/
def accept (m n value : Nat) : Option Nat :=
  if m % n ≤ value then some (value % n) else none

theorem count_block (P : Nat → Prop) [DecidablePred P] (n a : Nat) :
    Nat.count (fun k => P ((a + k) % n)) n = Nat.count P n := by
  induction a with
  | zero =>
    refine count_congr fun k hk => ?_
    rw [zero_add, mod_eq_of_lt hk]
  | succ a ih =>
    -- One more value on either side: the window moves by one.
    have hf := count_succ (fun k => P ((a + k) % n)) n
    have hl := count_succ' (fun k => P ((a + k) % n)) n
    have hw : (a + n) % n = (a + 0) % n := by
      rw [add_mod_right, add_zero]
    rw [hf, hw, ih] at hl
    have hs : (fun k => P ((a + 1 + k) % n))
        = fun k => P ((a + (k + 1)) % n) := by
      funext k
      rw [add_assoc, add_comm 1 k]
    simp only [hs]
    omega

theorem count_blocks (P : Nat → Prop) [DecidablePred P] (n a q : Nat) :
    Nat.count (fun k => P ((a + k) % n)) (n * q) = q * Nat.count P n := by
  induction q with
  | zero => simp
  | succ q ih =>
    have hb := count_block P n (a + n * q)
    simp only [add_assoc] at hb
    rw [mul_succ, count_add, ih, hb, succ_mul]

/-- The raw values whose residue is accepted and has a property: as many
for every residue that has it. -/
theorem count_accept (P : Nat → Prop) [DecidablePred P] (m n : Nat) :
    Nat.count (fun value => ∃ r ∈ accept m n value, P r) m
      = m / n * Nat.count P n := by
  have hs : m = m % n + n * (m / n) := (mod_add_div m n).symm
  have hlow : Nat.count (fun value => ∃ r ∈ accept m n value, P r) (m % n)
      = 0 := by
    refine count_none fun value hv => ?_
    rintro ⟨r, hr, -⟩
    unfold accept at hr
    rw [if_neg (Nat.not_le_of_lt hv)] at hr
    cases hr
  have hh : Nat.count (fun k => ∃ r ∈ accept m n (m % n + k), P r)
      (n * (m / n)) = m / n * Nat.count P n := by
    rw [← count_blocks P n (m % n) (m / n)]
    refine count_congr fun k _ => ?_
    unfold accept
    simp
  calc Nat.count (fun value => ∃ r ∈ accept m n value, P r) m
      = Nat.count (fun value => ∃ r ∈ accept m n value, P r)
          (m % n + n * (m / n)) := congrArg _ hs
    _ = m / n * Nat.count P n := by
        rw [count_add, hlow, hh, zero_add]

-- ==== rows

variable {κ : Type} [DecidableEq κ]

/-- The row a ticket falls into, walking down the amounts. -/
def pick : List (κ × Nat) → Nat → Option κ
  | [], _ => none
  | row :: rest, ticket =>
    if ticket < row.2 then some row.1 else pick rest (ticket - row.2)

/-- The tickets of all rows. -/
def tickets (rows : List (κ × Nat)) : Nat := (rows.map (·.2)).sum

omit [DecidableEq κ] in
theorem pick_mem {r : List (κ × Nat)} {t : Nat} {key : κ}
    (h : pick r t = some key) :
    ∃ row ∈ r, row.1 = key ∧ row.2 ≠ 0 := by
  induction r generalizing t with
  | nil => cases h
  | cons row rest ih =>
    unfold pick at h
    split at h
    · next hlt =>
      cases h
      exact ⟨row, mem_cons_self, rfl, Nat.ne_zero_of_lt hlt⟩
    · obtain ⟨f, hf, hk⟩ := ih h
      exact ⟨f, mem_cons_of_mem _ hf, hk⟩

omit [DecidableEq κ] in
theorem pick_isSome {r : List (κ × Nat)} {t : Nat}
    (h : t < tickets r) : ∃ key, pick r t = some key := by
  induction r generalizing t with
  | nil => exact absurd h (not_lt_zero _)
  | cons row rest ih =>
    unfold pick
    split
    · exact ⟨row.1, rfl⟩
    · next hge =>
      refine ih ?_
      unfold tickets at h ⊢
      rw [map_cons, sum_cons] at h
      omega

theorem count_pick {rows : List (κ × Nat)}
    (ho : (rows.map (·.1)).Nodup) {row : κ × Nat} (hrow : row ∈ rows) :
    Nat.count (fun t => pick rows t = some row.1) (tickets rows) = row.2 := by
  induction rows with
  | nil => exact absurd hrow not_mem_nil
  | cons f rest ih =>
    rw [map_cons, nodup_cons] at ho
    have hsum : tickets (f :: rest) = f.2 + tickets rest := by
      unfold tickets
      rw [map_cons, sum_cons]
    have hlt : ∀ k, pick (f :: rest) (f.2 + k)
        = pick rest k := by
      intro k
      rw [pick, if_neg (by omega), Nat.add_sub_cancel_left]
    rw [hsum, Nat.count_add]
    simp only [hlt]
    rcases mem_cons.1 hrow with rfl | hl
    · have hown : Nat.count (fun t =>
          pick (row :: rest) t = some row.1) row.2 = row.2 := by
        refine count_all fun k hk => ?_
        rw [pick, if_pos hk]
      have hr : Nat.count (fun k => pick rest k = some row.1)
          (tickets rest) = 0 := by
        refine count_none fun k _ hp => ?_
        obtain ⟨found, hf, hkey, -⟩ := pick_mem hp
        exact ho.1 (hkey ▸ mem_map_of_mem hf)
      rw [hown, hr, add_zero]
    · have hot : Nat.count (fun t =>
          pick (f :: rest) t = some row.1) f.2 = 0 := by
        refine count_none fun k hk hp => ?_
        rw [pick, if_pos hk] at hp
        rw [Option.some.inj hp] at ho
        exact ho.1 (mem_map_of_mem hl)
      rw [hot, ih ho.2 hl, zero_add]

theorem count_place {ke : List κ} (ho : ke.Nodup) {key : κ}
    (h : key ∈ ke) :
    Nat.count (fun p => ke[p]? = some key) ke.length = 1 := by
  obtain ⟨p, hp, rfl⟩ := mem_iff_getElem.1 h
  rw [← count_eq hp]
  refine count_congr fun k hk => ?_
  rw [getElem?_eq_getElem hk, Option.some.injEq, ho.getElem_inj_iff]

end TikTools.Lib.Sampling
