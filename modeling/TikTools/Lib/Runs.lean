/-
Runs of a transition system whose steps all meet a condition.

A system is a relation `step s a t`: from state `s` the action `a` may
lead to `t`. `Run step ok s t` says that `t` is reached from `s` by
steps whose actions meet `ok` in the states they start from. With `ok`
always true this is plain reachability; with a real condition it is the
shape of a conditional guarantee: IF every step was of this kind, THEN
so and so holds of every state reached.

`Run.invariant` packages the induction: a property of the start that
every admitted step preserves holds at the end.

`reaches_iff` is for runs given as a list of actions: a condition that is
exact for one step is exact for the run. `reaches_invariant` is the case
without a condition, `reaches_given` the one with a condition on every
step, and `reaches_iff_within` the one where the property rests on an
invariant. `run_unchanged_iff` is for a quantity that only grows.
-/
import Mathlib.Data.List.Induction

namespace TikTools.Lib

open Option

universe u v

variable {σ : Type u} {α : Type v}

/-- `t` is reached from `s` by steps that all meet `ok`. -/
inductive Run (step : σ → α → σ → Prop) (ok : σ → α → Prop) (s : σ) :
    σ → Prop
  | refl : Run step ok s s
  | tail {t u : σ} (a : α) : Run step ok s t → ok t a → step t a u →
      Run step ok s u

namespace Run

variable {step : σ → α → σ → Prop} {ok : σ → α → Prop} {s t : σ}

theorem invariant {inv : σ → Prop} (h : Run step ok s t)
    (hin : inv s)
    (hs : ∀ t a u, inv t → ok t a → step t a u → inv u) : inv t := by
  induction h with
  | refl => exact hin
  | tail a _ hok hst ih => exact hs _ a _ ih hok hst

theorem weaken {ok' : σ → α → Prop} (h : ∀ t a, ok t a → ok' t a)
    (hr : Run step ok s t) : Run step ok' s t := by
  induction hr with
  | refl => exact .refl
  | tail a _ hok hst ih => exact .tail a ih (h _ _ hok) hst

end Run

/-- Run a list of actions through a partial step function, stopping at
the first one that is disabled. -/
def runActions (next : σ → α → Option σ) : σ → List α → Option σ
  | s, [] => some s
  | s, a :: rest => (next s a).bind fun t => runActions next t rest

/-- Run a list of actions that all meet a condition, where they start
from. -/
def runWhile (next : σ → α → Option σ) (check : σ → α → Bool) :
    σ → List α → Option σ
  | s, [] => some s
  | s, a :: rest =>
    if check s a then (next s a).bind fun t => runWhile next check t rest
    else none

section

variable {next : σ → α → Option σ}

theorem Run.of_runWhile {c : σ → α → Bool} {ok : σ → α → Prop}
    (hok : ∀ s a, c s a = true → ok s a) {s r t : σ}
    (hp : Run (fun s a t => next s a = some t) ok s r) (ac : List α)
    (h : runWhile next c r ac = some t) :
    Run (fun s a t => next s a = some t) ok s t := by
  induction ac generalizing r with
  | nil =>
    cases h
    exact hp
  | cons a rest ih =>
    unfold runWhile at h
    split at h
    · next hc =>
      obtain ⟨u, hu, hr⟩ := bind_eq_some_iff.1 h
      exact ih (hp.tail a (hok r a hc) hu) hr
    · cases h

theorem runWhile_checks {c : σ → α → Bool} {s u : σ} {ac : List α}
    (h : runWhile next c s ac = some u) :
    ∀ done a rest t, ac = done ++ a :: rest →
      runActions next s done = some t → c t a = true := by
  induction ac generalizing s with
  | nil =>
    intro done a rest t ha
    cases done <;> cases ha
  | cons b tail ih =>
    unfold runWhile at h
    split at h
    · next hc =>
      obtain ⟨r, hr, hrs⟩ := bind_eq_some_iff.1 h
      intro done a rest t ha ht
      cases done with
      | nil =>
        cases ha
        cases ht
        exact hc
      | cons b' done =>
        cases ha
        change (next s b).bind _ = _ at ht
        rw [hr, bind_some] at ht
        exact ih hrs done a rest t rfl ht
    · cases h

theorem runActions_map {τ : Type u} {next' : τ → α → Option τ} {f : σ → τ}
    (h : ∀ s a, next' (f s) a = (next s a).map f) (s : σ) (ac : List α) :
    runActions next' (f s) ac = (runActions next s ac).map f := by
  induction ac generalizing s with
  | nil => rfl
  | cons a rest ih =>
    simp only [runActions, h]
    cases next s a with
    | none => rfl
    | some t => exact ih t

end

/-- The states a list of actions passes through. -/
def Reaches (next : σ → α → Option σ) (s : σ) (actions : List α) (t : σ) :
    Prop :=
  ∃ done rest, actions = done ++ rest ∧ runActions next s done = some t

section exact

variable {next : σ → α → Option σ} {inv : σ → Prop} {ok : σ → α → Prop}
  {s : σ}

theorem runActions_append {done rest : List α} :
    runActions next s (done ++ rest)
      = (runActions next s done).bind fun t => runActions next t rest := by
  induction done generalizing s with
  | nil => rfl
  | cons a done ih =>
    cases h : next s a with
    | none => simp [runActions, h]
    | some t => simp [runActions, h, ih]

/-- When a step keeps the invariant exactly if it meets a condition, the
invariant holds all along a run exactly if every step meets it. -/
theorem reaches_iff (hin : inv s)
    (hs : ∀ t a u, inv t → next t a = some u → (inv u ↔ ok t a))
    (ac : List α) :
    (∀ t, Reaches next s ac t → inv t)
      ↔ ∀ done a rest t u, ac = done ++ a :: rest →
        runActions next s done = some t → next t a = some u → ok t a := by
  constructor
  · rintro h done a rest t u rfl ht hu
    have hinv : inv t := h t ⟨done, a :: rest, rfl, ht⟩
    refine (hs t a u hinv hu).1 (h u ⟨done ++ [a], rest, ?_, ?_⟩)
    · rw [List.append_assoc, List.singleton_append]
    · rw [runActions_append, ht]
      simp [runActions, hu]
  · rintro h t ⟨done, rest, rfl, ht⟩
    induction done using List.reverseRecOn generalizing t rest with
    | nil =>
      cases ht
      exact hin
    | append_singleton done a ih =>
      rw [runActions_append] at ht
      obtain ⟨u, hu, ha⟩ := bind_eq_some_iff.1 ht
      have hn : next u a = some t := by simpa [runActions] using ha
      have hinv : inv u := ih u (a :: rest) hu (by simpa using h)
      exact (hs u a t hinv hn).2 (h done a rest u t (by simp) hu hn)

theorem reaches_invariant (hin : inv s)
    (hs : ∀ t a u, inv t → next t a = some u → inv u)
    {ac : List α} {t : σ} (h : Reaches next s ac t) : inv t := by
  have het : ∀ t a u, inv t → next t a = some u → (inv u ↔ True) :=
    fun t a u ht hn => iff_true_intro (hs t a u ht hn)
  exact (reaches_iff hin het ac).2 (fun _ _ _ _ _ _ _ _ => trivial) t h

/-- The same exactness for a property that rests on an invariant which no
step breaks. -/
theorem reaches_iff_within (wf inv : σ → Prop) {ok : σ → α → Prop}
    (hwf : wf s) (hin : inv s)
    (hk : ∀ t a u, wf t → next t a = some u → wf u)
    (hs : ∀ t a u, wf t → inv t → next t a = some u → (inv u ↔ ok t a))
    (ac : List α) :
    (∀ t, Reaches next s ac t → inv t)
      ↔ ∀ d a r t u, ac = d ++ a :: r →
        runActions next s d = some t → next t a = some u → ok t a := by
  have hb : (∀ t, Reaches next s ac t → inv t)
      ↔ ∀ t, Reaches next s ac t → wf t ∧ inv t :=
    forall_congr' fun t => imp_congr_right fun ht =>
      (and_iff_right (reaches_invariant hwf hk ht)).symm
  rw [hb]
  refine @reaches_iff _ _ next (fun t => wf t ∧ inv t) ok s ⟨hwf, hin⟩ ?_ ac
  rintro t a u ⟨h, htn⟩ hn
  rw [← hs t a u h htn hn]
  exact and_iff_right (hk t a u h hn)

/-- In a run whose steps all meet a condition, what such steps keep holds
all along. -/
theorem reaches_given {ac : List α}
    (hok : ∀ done a rest t u, ac = done ++ a :: rest →
      runActions next s done = some t → next t a = some u → ok t a)
    (hin : inv s)
    (hs : ∀ t a u, inv t → ok t a → next t a = some u → inv u)
    {t : σ} (h : Reaches next s ac t) : inv t := by
  obtain ⟨done, rest, rfl, ht⟩ := h
  induction done using List.reverseRecOn generalizing t rest with
  | nil =>
    cases ht
    exact hin
  | append_singleton done a ih =>
    rw [runActions_append] at ht
    obtain ⟨u, hu, ha⟩ := bind_eq_some_iff.1 ht
    have hn : next u a = some t := by simpa [runActions] using ha
    have hinv : inv u := ih (a :: rest) hu (by simpa using hok)
    exact hs u a t hinv (hok done a rest u t (by simp) hu hn) hn

end exact

/-- What every step adds to is the same at the end exactly if no step has
added anything. -/
theorem run_unchanged_iff {next : σ → α → Option σ} {m : σ → Int}
    {ad : σ → α → Nat}
    (hs : ∀ t a u, next t a = some u → m u = m t + ad t a)
    {s u : σ} {ac : List α} (h : runActions next s ac = some u) :
    m u = m s
      ↔ ∀ done a rest t, ac = done ++ a :: rest →
        runActions next s done = some t → ad t a = 0 := by
  have hg : ∀ (ac : List α) (s u : σ),
      runActions next s ac = some u → m s ≤ m u := by
    intro ac
    induction ac with
    | nil =>
      intro s u h
      cases h
      exact Int.le_refl _
    | cons a rest ih =>
      intro s u h
      obtain ⟨t, ht, hrs⟩ := bind_eq_some_iff.1 h
      have hf := hs s a t ht
      have hl := ih t u hrs
      omega
  induction ac generalizing s with
  | nil =>
    cases h
    refine iff_of_true rfl ?_
    intro done a rest t ha
    cases done <;> cases ha
  | cons a rest ih =>
    obtain ⟨t, ht, hrs⟩ := bind_eq_some_iff.1 h
    have hf := hs s a t ht
    have hl := hg rest t u hrs
    constructor
    · intro hsm done b tail r ha hr
      cases done with
      | nil =>
        cases ha
        cases hr
        omega
      | cons b' done =>
        cases ha
        change (next s a).bind _ = _ at hr
        rw [ht, bind_some] at hr
        exact (ih hrs).1 (by omega) done b tail r rfl hr
    · intro hn
      have hz := hn [] a rest s rfl rfl
      have hsm := (ih hrs).2 fun done b tail r ha hr =>
        hn (a :: done) b tail r (by rw [ha]; rfl) (by
          show (next s a).bind _ = _
          rw [ht]
          exact hr)
      omega

end TikTools.Lib
