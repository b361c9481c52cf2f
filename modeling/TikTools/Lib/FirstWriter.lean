/-
First writer wins, for a field and a slot inside it.

Contributions come one after the other. Each may offer the field as a
whole, and each may offer the slot. The first offer of each kind is
taken: `whole` replaces the field, `put` writes the slot of the field as
it is.

Whatever the field and the slot are, what the first writers established
stays, except that a field taken after its slot loses the slot. So
`kept_step_iff` has one condition: the first offer of the field does not
come after the first offer of the slot.
-/

namespace TikTools.Lib.FirstWriter

universe u v w

/-- A field with values in `X` that is offered as a `C`, with a slot that
holds a `T`. `Holds c x` says that the field still shows what `c` said,
the slot apart. -/
structure Field (X : Type u) (C : Type v) (T : Type w) where
  whole : C → X
  put : T → X → X
  slot : X → Option T
  Holds : C → X → Prop
  slot_whole : ∀ c, slot (whole c) = none
  slot_put : ∀ t x, slot (put t x) = some t
  holds_whole : ∀ c, Holds c (whole c)
  holds_put : ∀ c t x, Holds c x → Holds c (put t x)

/-- The field, and the first offers so far. -/
structure State (X : Type u) (C : Type v) (T : Type w) where
  value : X
  first : Option C
  firstSlot : Option T

namespace Field

variable {X : Type u} {C : Type v} {T : Type w} (f : Field X C T)

/-- The field is offered. -/
def offer (c : Option C) (s : State X C T) : State X C T :=
  match s.first, c with
  | none, some c => { s with value := f.whole c, first := some c }
  | _, _ => s

/-- The slot is offered. -/
def offerSlot (t : Option T) (s : State X C T) : State X C T :=
  match s.firstSlot, t with
  | none, some t => { s with value := f.put t s.value, firstSlot := some t }
  | _, _ => s

/-- One contribution: first the field, then the slot. -/
def step (c : Option C) (t : Option T) (s : State X C T) : State X C T :=
  f.offerSlot t (f.offer c s)

/-- What the first writers established is still there. -/
structure Kept (s : State X C T) : Prop where
  field : ∀ c, s.first = some c → f.Holds c s.value
  slot : ∀ t, s.firstSlot = some t → f.slot s.value = some t

variable {f} {s : State X C T}

@[simp] theorem step_none : f.step none none s = s := by
  unfold step offer offerSlot
  cases s.first <;> cases s.firstSlot <;> simp

theorem first_step (c : Option C) (t : Option T) :
    (f.step c t s).first = s.first.or c := by
  unfold step offer offerSlot
  cases hf : s.first <;> cases c <;> cases hs : s.firstSlot <;>
    cases t <;> simp [hf]

theorem firstSlot_step (c : Option C) (t : Option T) :
    (f.step c t s).firstSlot = s.firstSlot.or t := by
  unfold step offer offerSlot
  cases hf : s.first <;> cases c <;> cases hs : s.firstSlot <;>
    cases t <;> simp [hs]

theorem step_eq (c : Option C) (t : Option T) :
    ⟨(f.step c t s).value, s.first.or c, s.firstSlot.or t⟩
      = f.step c t s := by
  rw [← first_step (f := f) c t, ← firstSlot_step (f := f) c t]

theorem kept_offer_iff (h : f.Kept s) (c : Option C) :
    f.Kept (f.offer c s)
      ↔ (s.first = none → c.isSome → s.firstSlot = none) := by
  unfold offer
  cases hf : s.first with
  | some c₀ =>
    simp only [reduceCtorEq, false_implies, iff_true]
    exact h
  | none =>
    cases c with
    | none =>
      simp only [Option.isSome_none, Bool.false_eq_true, false_implies,
        implies_true, iff_true]
      exact h
    | some c =>
      simp only [Option.isSome_some, forall_const]
      constructor
      · intro hk
        cases hsl : s.firstSlot with
        | none => rfl
        | some t =>
          have hs := hk.slot t hsl
          rw [f.slot_whole] at hs
          cases hs
      · intro hn
        constructor
        · intro c' hc
          obtain rfl := Option.some.inj hc
          exact f.holds_whole _
        · intro t ht
          simp only [hn, reduceCtorEq] at ht

theorem Kept.offerSlot (h : f.Kept s) (t : Option T) :
    f.Kept (f.offerSlot t s) := by
  unfold Field.offerSlot
  cases hs : s.firstSlot with
  | some t₀ => exact h
  | none =>
    cases t with
    | none => exact h
    | some t =>
      constructor
      · intro c hc
        exact f.holds_put c t _ (h.field c hc)
      · intro t' ht
        obtain rfl := Option.some.inj ht
        exact f.slot_put _ _

/-- One contribution keeps what was established exactly if it does not
bring the field after the slot. -/
theorem kept_step_iff (h : f.Kept s) (c : Option C) (t : Option T) :
    f.Kept (f.step c t s)
      ↔ (s.first = none → c.isSome → s.firstSlot = none) := by
  rw [← kept_offer_iff h c]
  constructor
  · intro hk
    rw [kept_offer_iff h c]
    intro hf hc
    cases hs : s.firstSlot with
    | none => rfl
    | some t₀ =>
      -- The slot is owned, so nothing puts it back.
      obtain ⟨c, rfl⟩ := Option.isSome_iff_exists.1 hc
      have hst := hk.slot t₀ (by
        simp [step, offer, offerSlot, hf, hs])
      simp [step, offer, offerSlot, hf, hs, f.slot_whole] at hst
  · exact fun hk => hk.offerSlot t

end Field

end TikTools.Lib.FirstWriter
