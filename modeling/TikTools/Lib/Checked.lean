/-
Checked computations: the fixed-width arithmetic and the early-return
discipline every component of the host is written in.

A machine word is a `Nat` together with the bound `u64Max`; the
`checked_*` and `saturating_*` families of the standard library become
functions on `Nat` that consult the bound. A fallible function is a
do-block in `Except ε`, one `ensure` per early return, so that the
order of the checks is the order of the source.

The inversion lemmas (`bind_eq_ok`, `ensure_eq_ok`, `okOr_eq_ok`) peel a
successful run apart one line at a time: a caller learns what every
check established without ever unfolding the do-block.
-/

namespace TikTools.Lib

open List

-- ==== machine words

/-- The largest 64-bit unsigned value. -/
def u64Max : Nat := 18446744073709551615

/-- The largest 64-bit signed value, read as a natural number. -/
def i64Max : Nat := 9223372036854775807

/-- Addition that reports overflow. -/
def checkedAdd (a b : Nat) : Option Nat :=
  if a + b ≤ u64Max then some (a + b) else none

/-- Multiplication that reports overflow. -/
def checkedMul (a b : Nat) : Option Nat :=
  if a * b ≤ u64Max then some (a * b) else none

/-- Subtraction that reports underflow. -/
def checkedSub (a b : Nat) : Option Nat :=
  if b ≤ a then some (a - b) else none

/-- Addition that stops at the largest value. -/
def saturatingAdd (a b : Nat) : Nat := min (a + b) u64Max

variable {b c a : Nat}

@[simp] theorem checkedAdd_eq_some :
    checkedAdd a b = some c ↔ a + b ≤ u64Max ∧ c = a + b := by
  unfold checkedAdd
  split
  · simp_all [eq_comm]
  · simp; omega

@[simp] theorem checkedAdd_eq_none :
    checkedAdd a b = none ↔ u64Max < a + b := by
  unfold checkedAdd
  split <;> simp_all

@[simp] theorem checkedMul_eq_some :
    checkedMul a b = some c ↔ a * b ≤ u64Max ∧ c = a * b := by
  unfold checkedMul
  split
  · simp_all [eq_comm]
  · simp; omega

@[simp] theorem checkedSub_eq_some :
    checkedSub a b = some c ↔ b ≤ a ∧ c = a - b := by
  unfold checkedSub
  split
  · simp_all [eq_comm]
  · simp; omega

theorem checkedAdd_of_le (h : a + b ≤ u64Max) :
    checkedAdd a b = some (a + b) :=
  checkedAdd_eq_some.2 ⟨h, rfl⟩

-- ==== early returns

universe u v

variable {ε : Type u} {α β : Type v}

/-- Fail with `e` unless the check holds: one early return. -/
def ensure (check : Prop) [Decidable check] (e : ε) : Except ε Unit :=
  if check then .ok () else .error e

/-- The value, or the error `e` in its absence. -/
def okOr (x : Option α) (e : ε) : Except ε α :=
  match x with
  | some a => .ok a
  | none => .error e

/-- An error about a value that should not be there. -/
def refuse (x : Option α) (e : α → ε) : Except ε Unit :=
  match x with
  | some a => .error (e a)
  | none => .ok ()

variable {e : ε}

variable {check : Prop}

@[simp] theorem ensure_eq_ok [Decidable check] {u : Unit} :
    ensure check e = .ok u ↔ check := by
  unfold ensure
  split <;> simp_all

@[simp] theorem ensure_eq_error [Decidable check] {e' : ε} :
    ensure check e = .error e' ↔ ¬ check ∧ e = e' := by
  unfold ensure
  split <;> simp_all

@[simp] theorem ensure_true [Decidable check] (h : check) :
    ensure check e = .ok () :=
  ensure_eq_ok.2 h

variable {x : Option α}

@[simp] theorem okOr_eq_ok {a : α} : okOr x e = .ok a ↔ x = some a := by
  cases x <;> simp [okOr]

@[simp] theorem okOr_eq_error {e' : ε} :
    okOr x e = .error e' ↔ x = none ∧ e = e' := by
  cases x <;> simp [okOr]

@[simp] theorem okOr_some {a : α} : okOr (some a) e = .ok a := rfl

@[simp] theorem refuse_eq_ok {e : α → ε} {u : Unit} :
    refuse x e = .ok u ↔ x = none := by
  cases x <;> simp [refuse]

theorem error_or_ok (x : Except ε α) :
    (∃ e, x = .error e) ∨ ∃ a, x = .ok a := by
  cases x with
  | error e => exact .inl ⟨e, rfl⟩
  | ok a => exact .inr ⟨a, rfl⟩

variable {f : α → Except ε β}

/-- A sequence succeeded: its first part did, and the rest did on what
it returned. -/
theorem bind_eq_ok {x : Except ε α} {b : β} :
    (x >>= f) = .ok b ↔ ∃ a, x = .ok a ∧ f a = .ok b := by
  cases x with
  | error e => exact ⟨fun h => (nomatch h), fun ⟨_, h, _⟩ => (nomatch h)⟩
  | ok a =>
    constructor
    · intro h
      exact ⟨a, rfl, h⟩
    · rintro ⟨a', h, hf⟩
      cases h
      exact hf

/-- A sequence failed: its first part did, or the rest did on what it
returned. -/
theorem bind_eq_error {x : Except ε α} :
    (x >>= f) = .error e
      ↔ x = .error e ∨ ∃ a, x = .ok a ∧ f a = .error e := by
  cases x with
  | error e' =>
    constructor
    · intro h
      cases h
      exact .inl rfl
    · rintro (h | ⟨a, h, _⟩)
      · cases h
        rfl
      · cases h
  | ok a =>
    constructor
    · intro h
      exact .inr ⟨a, rfl, h⟩
    · rintro (h | ⟨a', h, hf⟩)
      · cases h
      · cases h
        exact hf

theorem ensure_ok {γ : Type} [Decidable check]
    {f : Unit → Except ε γ} {b : γ} :
    (ensure check e >>= f) = .ok b ↔ check ∧ f () = .ok b := by
  rw [bind_eq_ok]
  constructor
  · rintro ⟨u, hu, hf⟩
    exact ⟨ensure_eq_ok.1 hu, hf⟩
  · rintro ⟨hc, hf⟩
    exact ⟨(), ensure_eq_ok.2 hc, hf⟩

theorem okOr_ok {b : β} :
    (okOr x e >>= f) = .ok b ↔ ∃ a, x = some a ∧ f a = .ok b := by
  rw [bind_eq_ok]
  simp only [okOr_eq_ok]

theorem mapError_eq_ok {ε ε' α : Type} {f : ε → ε'} {x : Except ε α}
    {a : α} (h : x.mapError f = .ok a) : x = .ok a := by
  cases x with
  | error e => cases h
  | ok b =>
    cases h
    rfl

@[simp] theorem ok_bind {a : α} :
    ((.ok a : Except ε α) >>= f) = f a := rfl

@[simp] theorem error_bind :
    ((.error e : Except ε α) >>= f) = .error e := rfl

-- ==== loops

theorem foldlM_invariant {P : β → Prop} {f : β → α → Except ε β}
    {l : List α}
    (hs : ∀ a ∈ l, ∀ b b', f b a = .ok b' → P b → P b') {b b' : β}
    (h : l.foldlM f b = .ok b') (hb : P b) : P b' := by
  induction l generalizing b with
  | nil =>
    cases h
    exact hb
  | cons a l ih =>
    rw [foldlM_cons, bind_eq_ok] at h
    obtain ⟨c, hc, h⟩ := h
    have hP := hs a mem_cons_self b c hc hb
    exact ih (fun x hx => hs x (mem_cons_of_mem _ hx)) h hP

theorem forM_eq_ok {γ : Type} {f : γ → Except ε PUnit} {l : List γ}
    {u : PUnit} : l.forM f = .ok u ↔ ∀ a ∈ l, f a = .ok u := by
  induction l with
  | nil => exact ⟨fun _ a ha => absurd ha not_mem_nil, fun _ => rfl⟩
  | cons a l ih =>
    rw [List.forM, bind_eq_ok]
    constructor
    · rintro ⟨v, ha, hl⟩ b hb
      rcases mem_cons.1 hb with rfl | hb
      · exact ha
      · exact ih.1 hl b hb
    · intro h
      exact ⟨u, h a mem_cons_self,
        ih.2 fun b hb => h b (mem_cons_of_mem _ hb)⟩

end TikTools.Lib
