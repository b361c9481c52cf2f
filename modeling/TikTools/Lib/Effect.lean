/-
Effects: programs that act on a state and may fail on the way.

A failure keeps what was done before it: that is the difference from a
do-block in `Except`, and the reason a failed call of such a program is
worth reasoning about at all.

`Keeps view m` is the frame rule: running `m`, however it ends, leaves
what `view` sees of the state as it was. It composes along a do-block
without looking at results.
-/
import Mathlib.Init

namespace TikTools.Lib

/-- A program on states `σ` with errors `ε`. -/
def Effect (σ ε α : Type) := σ → Except ε α × σ

namespace Effect

variable {σ ε α β γ : Type}

instance : Monad (Effect σ ε) where
  pure a := fun s => (.ok a, s)
  bind m f := fun s =>
    match m s with
    | (.ok a, t) => f a t
    | (.error e, t) => (.error e, t)

/-- Stop with an error. -/
def fail (e : ε) : Effect σ ε α := fun s => (.error e, s)

/-- Look at the state; the look may fail. -/
def look (f : σ → Except ε α) : Effect σ ε α := fun s => (f s, s)

/-- A result that does not depend on the state. -/
def lift (x : Except ε α) : Effect σ ε α := fun s => (x, s)

/-- Replace the state by another, or fail and leave it. -/
def change (f : σ → Except ε σ) : Effect σ ε Unit := fun s =>
  match f s with
  | .ok t => (.ok (), t)
  | .error e => (.error e, s)

/-- Run a program for every element of a list, in order. -/
def forEach (l : List α) (f : α → Effect σ ε Unit) : Effect σ ε Unit :=
  match l with
  | [] => pure ()
  | a :: rest => f a >>= fun _ => forEach rest f

variable {t s : σ} {m : Effect σ ε α} {f : α → Effect σ ε β} {a : α}

theorem bind_ok (h : m s = (.ok a, t)) : (m >>= f) s = f a t := by
  show (match m s with
    | (.ok a, t) => f a t
    | (.error e, t) => (.error e, t)) = _
  rw [h]

theorem bind_eq_ok {u : σ} {b : β} : (m >>= f) s = (.ok b, u)
      ↔ ∃ a t, m s = (.ok a, t) ∧ f a t = (.ok b, u) := by
  constructor
  · intro h
    cases hm : m s with
    | mk r t =>
      cases r with
      | error e =>
        have herr : (m >>= f) s = (.error e, t) := by
          show (match m s with
            | (.ok a, t) => f a t
            | (.error e, t) => (.error e, t)) = _
          rw [hm]
        rw [herr] at h
        cases h
      | ok a =>
        rw [bind_ok hm] at h
        exact ⟨a, t, rfl, h⟩
  · rintro ⟨a, t, hm, h⟩
    rw [bind_ok hm]
    exact h

variable {e : ε}

theorem bind_error (h : m s = (.error e, t)) :
    (m >>= f) s = (.error e, t) := by
  show (match m s with
    | (.ok a, t) => f a t
    | (.error e, t) => (.error e, t)) = _
  rw [h]

theorem bind_congr {m' : Effect σ ε α} (h : m s = m' s) :
    (m >>= f) s = (m' >>= f) s := by
  show (match m s with
    | (.ok a, t) => f a t
    | (.error e, t) => (.error e, t)) = _
  rw [h]
  rfl

variable {x : Except ε α}

theorem lift_ok (h : x = .ok a) (s : σ) : lift x s = (.ok a, s) := by
  rw [h]
  rfl

theorem lift_error (h : x = .error e) (s : σ) : lift x s = (.error e, s) := by
  rw [h]
  rfl

theorem look_ok {f : σ → Except ε α} (h : f s = .ok a) :
    look f s = (.ok a, s) := by
  unfold look
  rw [h]

theorem look_error {f : σ → Except ε α} (h : f s = .error e) :
    (look f s : Except ε α × σ) = (.error e, s) := by
  unfold look
  rw [h]

variable {g : α → Effect σ ε β}

theorem look_spec {f : σ → Except ε α} {P : Except ε β × σ → Prop}
    (herr : ∀ e, f s = .error e → P (.error e, s))
    (hok : ∀ a, f s = .ok a → P (g a s)) : P ((look f >>= g) s) := by
  cases hf : f s with
  | error e =>
    rw [bind_error (look_error hf)]
    exact herr e hf
  | ok a =>
    rw [bind_ok (look_ok hf)]
    exact hok a hf

theorem lift_spec {P : Except ε β × σ → Prop}
    (h : ∀ e, x = .error e → P (.error e, s))
    (hok : ∀ a, x = .ok a → P (g a s)) : P ((lift x >>= g) s) :=
  look_spec h hok

theorem look_bind {f : σ → Except ε α} :
    (look f >>= g) s = match f s with
      | .ok a => g a s
      | .error e => (.error e, s) := by
  cases h : f s with
  | ok a => rw [bind_ok (look_ok h)]
  | error e => rw [bind_error (look_error h)]

theorem change_ok {f : σ → Except ε σ} (h : f s = .ok t) :
    change f s = (.ok (), t) := by
  unfold change
  rw [h]

theorem change_error {f : σ → Except ε σ} (h : f s = .error e) :
    change f s = (.error e, s) := by
  unfold change
  rw [h]

-- ==== frame rule

/-- However `m` ends, what `view` sees stays as it was. -/
def Keeps (view : σ → γ) (m : Effect σ ε α) : Prop :=
  ∀ s, view (m s).2 = view s

variable {view : σ → γ}

theorem Keeps.pure (a : α) : Keeps view (pure a : Effect σ ε α) :=
  fun _ => rfl

theorem Keeps.fail (e : ε) : Keeps view (fail e : Effect σ ε α) :=
  fun _ => rfl

theorem Keeps.look (f : σ → Except ε α) : Keeps view (look f) := fun _ => rfl

theorem Keeps.lift (x : Except ε α) :
    Keeps view (lift x : Effect σ ε α) :=
  fun _ => rfl

theorem Keeps.change {f : σ → Except ε σ}
    (h : ∀ s t, f s = .ok t → view t = view s) :
    Keeps view (change f) := by
  intro s
  cases hf : f s with
  | ok t =>
    rw [change_ok hf]
    exact h s t hf
  | error e => rw [change_error hf]

theorem Keeps.bind (hm : Keeps view m) (hf : ∀ a, Keeps view (f a)) :
    Keeps view (m >>= f) := by
  intro s
  cases hs : m s with
  | mk r t =>
    have ht : view t = view s := by
      rw [← hm s, hs]
    cases r with
    | ok a => rw [bind_ok hs, hf a t, ht]
    | error e => rw [bind_error hs, ht]

theorem Keeps.forEach {f : α → Effect σ ε Unit}
    (h : ∀ a, Keeps view (f a)) (l : List α) :
    Keeps view (forEach l f) := by
  induction l with
  | nil => exact .pure ()
  | cons a rest ih => exact .bind (h a) fun _ => ih

-- ==== invariants

/-- However `m` ends, it leaves a state that meets `inv` if it started
in one. -/
def Maintains (inv : σ → Prop) (m : Effect σ ε α) : Prop :=
  ∀ s, inv s → inv (m s).2

variable {inv : σ → Prop}

theorem Maintains.pure (a : α) : Maintains inv (pure a : Effect σ ε α) :=
  fun _ h => h

theorem Maintains.fail (e : ε) : Maintains inv (fail e : Effect σ ε α) :=
  fun _ h => h

theorem Maintains.look (f : σ → Except ε α) : Maintains inv (look f) :=
  fun _ h => h

theorem Maintains.lift (x : Except ε α) :
    Maintains inv (lift x : Effect σ ε α) :=
  fun _ h => h

theorem Maintains.change {f : σ → Except ε σ}
    (h : ∀ s t, f s = .ok t → inv s → inv t) :
    Maintains inv (change f) := by
  intro s hs
  cases hf : f s with
  | ok t =>
    rw [change_ok hf]
    exact h s t hf hs
  | error e =>
    rw [change_error hf]
    exact hs

theorem Maintains.bind (hm : Maintains inv m) (hf : ∀ a, Maintains inv (f a)) :
    Maintains inv (m >>= f) := by
  intro s hs
  have ht := hm s hs
  cases hms : m s with
  | mk r t =>
    rw [hms] at ht
    cases r with
    | ok a =>
      rw [bind_ok hms]
      exact hf a t ht
    | error e =>
      rw [bind_error hms]
      exact ht

theorem Maintains.forEach {f : α → Effect σ ε Unit}
    (h : ∀ a, Maintains inv (f a)) (l : List α) :
    Maintains inv (forEach l f) := by
  induction l with
  | nil => exact .pure ()
  | cons a rest ih => exact .bind (h a) fun _ => ih

end Effect

end TikTools.Lib
