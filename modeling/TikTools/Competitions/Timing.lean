/-
The time of a competition is conserved.

A deadline is what is left of the duration counted from now, and a pause
keeps what is left and forgets the deadline. Beside the state stands the
time it has really been active since it started (`Timed`), counted from
the moments of the transitions alone. What is left and what was spent
add up to the duration at every moment (`InTime`), so a competition is
due exactly when it has been active that long, however often it paused.
-/
import TikTools.Lib.Effect
import TikTools.Lib.Runs
import TikTools.Competitions.Lifecycle

namespace TikTools.Competitions

open TikTools.Lib Effect LifecycleState

namespace LifecycleState

-- ==== in place

/-- A transition as it is made: the checks and what is written, in the
order of the source. -/
def transitionInPlace (transition : Transition) (now : Nat)
    (duration : Option Nat) : Effect LifecycleState Error Unit :=
  match transition with
  | .start => do
    Effect.look fun state =>
      ensure (state.lifecycle = .draft) .invalidTransition
    let deadline ← Effect.lift (deadlineAfter now duration)
    let generation ← Effect.look fun state =>
      okOr (checkedAdd state.generation 1) .overflow
    Effect.change fun state => .ok { state with deadlineMs := deadline }
    Effect.change fun state => .ok { state with generation }
    Effect.change fun state => .ok { state with lifecycle := .active }
  | .pause => do
    Effect.look fun state =>
      ensure (state.lifecycle = .active ∧ ¬ state.isDue now)
        .invalidTransition
    Effect.change fun state => .ok { state with
      remainingMs := state.deadlineMs.map fun deadline =>
        deadline - now }
    Effect.change fun state => .ok { state with deadlineMs := none }
    Effect.change fun state => .ok { state with lifecycle := .paused }
  | .resume => do
    Effect.look fun state =>
      ensure (state.lifecycle = .paused) .invalidTransition
    let deadline ← Effect.look fun state =>
      deadlineAfter now state.remainingMs
    Effect.change fun state => .ok { state with deadlineMs := deadline }
    Effect.change fun state => .ok { state with remainingMs := none }
    Effect.change fun state => .ok { state with lifecycle := .active }
  | .cancel => do
    Effect.look fun state =>
      ensure (state.lifecycle = .draft ∨ state.lifecycle.running)
        .invalidTransition
    Effect.change fun state => .ok { state with lifecycle := .cancelled }
    Effect.change fun state => .ok { state with deadlineMs := none }
    Effect.change fun state => .ok { state with remainingMs := none }
  | .finish => do
    Effect.look fun state =>
      ensure state.lifecycle.running .invalidTransition
    Effect.change fun state => .ok { state with lifecycle := .finalizing }
    Effect.change fun state => .ok { state with deadlineMs := none }
    Effect.change fun state => .ok { state with remainingMs := none }
  | .expire => do
    Effect.look fun state => ensure (state.isDue now) .invalidTransition
    Effect.change fun state => .ok { state with lifecycle := .finalizing }
    Effect.change fun state => .ok { state with deadlineMs := none }

variable {state next : LifecycleState} {now : Nat}

/-- Nothing is written before the last check, so a transition is made or
leaves the state alone. -/
theorem transitionInPlace_eq (state : LifecycleState) (t : Transition)
    (now : Nat) (d : Option Nat) :
    transitionInPlace t now d state
      = match state.transition t now d with
        | .ok next => (.ok (), next)
        | .error error => (.error error, state) := by
  cases t with
  | start =>
    show (Effect.look _ >>= _) state = _
    rw [look_bind]
    unfold transition
    by_cases hd : state.lifecycle = .draft
    · rw [ensure_true hd]
      cases hdl : deadlineAfter now d with
      | error error => rfl
      | ok de =>
        rw [bind_ok (lift_ok rfl state), look_bind]
        cases checkedAdd state.generation 1 with
        | none => rfl
        | some generation => rfl
    · rw [ensure_eq_error.2 ⟨hd, rfl⟩]
      rfl
  | pause =>
    show (Effect.look _ >>= _) state = _
    rw [look_bind]
    unfold transition
    by_cases hc : state.lifecycle = .active ∧ ¬ state.isDue now
    · rw [ensure_true hc]
      rfl
    · rw [ensure_eq_error.2 ⟨hc, rfl⟩]
      rfl
  | resume =>
    show (Effect.look _ >>= _) state = _
    rw [look_bind]
    unfold transition
    by_cases hp : state.lifecycle = .paused
    · rw [ensure_true hp]
      rw [look_bind]
      cases hdl : deadlineAfter now state.remainingMs with
      | error error => rfl
      | ok de => rfl
    · rw [ensure_eq_error.2 ⟨hp, rfl⟩]
      rfl
  | cancel =>
    show (Effect.look _ >>= _) state = _
    rw [look_bind]
    unfold transition
    by_cases hc : state.lifecycle = .draft ∨ state.lifecycle.running
    · rw [ensure_true hc]
      rfl
    · rw [ensure_eq_error.2 ⟨hc, rfl⟩]
      rfl
  | finish =>
    show (Effect.look _ >>= _) state = _
    rw [look_bind]
    unfold transition
    by_cases hc : state.lifecycle.running = true
    · rw [ensure_true hc]
      rfl
    · rw [ensure_eq_error.2 ⟨hc, rfl⟩]
      rfl
  | expire =>
    show (Effect.look _ >>= _) state = _
    rw [look_bind]
    unfold transition
    by_cases hdue : state.isDue now = true
    · rw [ensure_true hdue]
      rfl
    · rw [ensure_eq_error.2 ⟨hdue, rfl⟩]
      rfl

theorem isDue_iff : state.isDue now = true ↔ state.lifecycle = .active
    ∧ ∃ d, state.deadlineMs = some d ∧ d ≤ now := by
  unfold isDue
  rw [Bool.and_eq_true, decide_eq_true_eq]
  refine and_congr_right fun _ => ?_
  cases state.deadlineMs with
  | none => exact ⟨nofun, nofun⟩
  | some d =>
    constructor
    · exact fun h => ⟨d, rfl, of_decide_eq_true h⟩
    · rintro ⟨_, hs, hle⟩
      cases hs
      exact decide_eq_true hle

end LifecycleState

-- ==== time

/-- A transition that is asked for, with the time and the duration it is
asked with. -/
structure Attempt where
  transition : Transition
  now : Nat
  duration : Option Nat
  deriving DecidableEq, Repr

/-- A lifecycle, and beside it what the clock says: the duration of the
last start, the time spent active since then, and the time of the last
attempt. -/
structure Timed where
  state : LifecycleState := {}
  configured : Option Nat := none
  spent : Nat := 0
  last : Nat := 0
  deriving DecidableEq, Repr

namespace Timed

/-- The time spent active until now. -/
def activeTime (timed : Timed) (now : Nat) : Nat :=
  timed.spent
    + if timed.state.lifecycle = .active then now - timed.last else 0

/-- Only a start that is made sets the duration and counts anew. -/
def next (timed : Timed) (attempt : Attempt) : Timed :=
  match timed.state.transitionInPlace attempt.transition attempt.now
      attempt.duration with
  | (.ok (), state) =>
    if attempt.transition = .start then
      { state, configured := attempt.duration, spent := 0
        last := attempt.now }
    else { state, configured := timed.configured
           spent := timed.activeTime attempt.now, last := attempt.now }
  | (.error _, state) =>
    { timed with
      state, spent := timed.activeTime attempt.now, last := attempt.now }

/-- What is left and what was spent are the duration. -/
def InTime (timed : Timed) : Prop :=
  match timed.state.lifecycle with
  | .active => timed.state.remainingMs = none
      ∧ Option.Rel (fun deadline duration =>
          deadline + timed.spent = timed.last + duration)
        timed.state.deadlineMs timed.configured
  | .paused => timed.state.deadlineMs = none
      ∧ Option.Rel (fun remaining duration =>
          0 < remaining ∧ remaining + timed.spent = duration)
        timed.state.remainingMs timed.configured
  | _ => timed.state.deadlineMs = none ∧ timed.state.remainingMs = none

variable {timed : Timed} {attempt : Attempt}

theorem next_cases (timed : Timed) (attempt : Attempt) :
    (∃ error, timed.state.transition attempt.transition attempt.now
          attempt.duration = .error error
        ∧ timed.next attempt = { timed with
          spent := timed.activeTime attempt.now, last := attempt.now })
      ∨ ∃ state, timed.state.transition attempt.transition attempt.now
          attempt.duration = .ok state
        ∧ timed.next attempt
          = if attempt.transition = .start then
              { state, configured := attempt.duration, spent := 0
                last := attempt.now }
            else { state, configured := timed.configured
                   spent := timed.activeTime attempt.now
                   last := attempt.now } := by
  unfold next
  rw [transitionInPlace_eq]
  cases timed.state.transition attempt.transition attempt.now
      attempt.duration with
  | error error => exact .inl ⟨error, rfl, rfl⟩
  | ok state => exact .inr ⟨state, rfl, rfl⟩

theorem rel_imp {α β : Type} {R Q : α → β → Prop} {x : Option α}
    {y : Option β} (h : ∀ a b, R a b → Q a b) (hr : Option.Rel R x y) :
    Option.Rel Q x y := by
  cases hr with
  | none => exact .none
  | some hab => exact .some (h _ _ hab)

variable {now : Nat}

theorem InTime.pass (h : timed.InTime) (hnow : timed.last ≤ now) :
    InTime { timed with spent := timed.activeTime now, last := now } := by
  unfold InTime activeTime at *
  cases hl : timed.state.lifecycle with
  | active =>
    rw [hl] at h
    obtain ⟨hrem, hdl⟩ := h
    refine ⟨hrem, ?_⟩
    rw [if_pos rfl]
    refine rel_imp (fun deadline duration hsum => ?_) hdl
    dsimp only
    omega
  | paused =>
    rw [hl] at h
    rwa [if_neg (by decide), Nat.add_zero]
  | draft =>
    rw [hl] at h
    exact h
  | finalizing =>
    rw [hl] at h
    exact h
  | finished =>
    rw [hl] at h
    exact h
  | cancelled =>
    rw [hl] at h
    exact h
  | failed =>
    rw [hl] at h
    exact h

theorem InTime.isDue (h : timed.InTime) (hnow : timed.last ≤ now) :
    timed.state.isDue now = true ↔ timed.state.lifecycle = .active
      ∧ ∃ d, timed.configured = some d ∧ d ≤ timed.activeTime now := by
  rw [isDue_iff]
  refine and_congr_right fun hact => ?_
  unfold InTime activeTime at *
  rw [hact] at h ⊢
  obtain ⟨-, hdl⟩ := h
  rw [if_pos rfl]
  generalize timed.state.deadlineMs = deadlineMs at hdl ⊢
  generalize timed.configured = configured at hdl ⊢
  cases hdl with
  | none =>
    constructor
    · rintro ⟨_, hn, -⟩
      cases hn
    · rintro ⟨_, hn, -⟩
      cases hn
  | @some de d hsum =>
    constructor
    · rintro ⟨_, hs, hle⟩
      cases hs
      exact ⟨d, rfl, by omega⟩
    · rintro ⟨_, hs, hle⟩
      cases hs
      exact ⟨de, rfl, by omega⟩

theorem deadlineAfter_rel {span d : Option Nat}
    (h : LifecycleState.deadlineAfter now span = .ok d) :
    Option.Rel (fun d span => d = now + span) d span := by
  cases span with
  | none =>
    cases h
    exact .none
  | some span =>
    obtain ⟨total, ht, h⟩ := okOr_ok.1 h
    obtain ⟨-, rfl⟩ := checkedAdd_eq_some.1 ht
    cases h
    exact .some rfl

theorem InTime.made (h : timed.InTime) {t : Transition}
    {du : Option Nat} {state : LifecycleState}
    (hs : timed.state.transition t timed.last du = .ok state) :
    InTime (if t = .start then
        { state, configured := du, spent := 0, last := timed.last }
      else { timed with state }) := by
  unfold InTime at h
  cases t with
  | start =>
    obtain ⟨hd, hs⟩ := ensure_ok.1 hs
    obtain ⟨deadline, hdl, hs⟩ := bind_eq_ok.1 hs
    obtain ⟨generation, -, hs⟩ := okOr_ok.1 hs
    cases hs
    rw [hd] at h
    exact ⟨h.2, rel_imp (fun _ _ hsum => hsum) (deadlineAfter_rel hdl)⟩
  | pause =>
    obtain ⟨⟨hact, hdue⟩, hs⟩ := ensure_ok.1 hs
    cases hs
    rw [hact] at h
    obtain ⟨-, hdl⟩ := h
    refine ⟨rfl, ?_⟩
    have hea := mt isDue_iff.2 hdue
    generalize timed.state.deadlineMs = deadlineMs at hdl hea ⊢
    generalize timed.configured = configured at hdl ⊢
    cases hdl with
    | none => exact .none
    | @some deadline span hsum =>
      have hbef : timed.last < deadline := Nat.lt_of_not_le
        fun hle => hea ⟨hact, deadline, rfl, hle⟩
      refine .some ⟨?_, ?_⟩
      · exact Nat.sub_pos_of_lt hbef
      · show deadline - timed.last + timed.spent = span
        omega
  | resume =>
    obtain ⟨hp, hs⟩ := ensure_ok.1 hs
    obtain ⟨deadline, hdl, hs⟩ := bind_eq_ok.1 hs
    cases hs
    rw [hp] at h
    obtain ⟨-, hrem⟩ := h
    refine ⟨rfl, ?_⟩
    have ha := deadlineAfter_rel hdl
    generalize timed.state.remainingMs = remainingMs at hrem ha
    generalize timed.configured = configured at hrem ⊢
    cases hrem with
    | none =>
      cases ha with
      | none => exact .none
    | @some remaining du hl =>
      cases ha with
      | @some deadline _ hsum =>
        refine .some ?_
        show deadline + timed.spent = timed.last + du
        omega
  | cancel =>
    obtain ⟨-, hs⟩ := ensure_ok.1 hs
    cases hs
    exact ⟨rfl, rfl⟩
  | finish =>
    obtain ⟨-, hs⟩ := ensure_ok.1 hs
    cases hs
    exact ⟨rfl, rfl⟩
  | expire =>
    obtain ⟨hdue, hs⟩ := ensure_ok.1 hs
    cases hs
    rw [(isDue_iff.1 hdue).1] at h
    exact ⟨rfl, h.1⟩

theorem inTime_start : InTime {} := ⟨rfl, rfl⟩

theorem InTime.next (h : timed.InTime) (hnow : timed.last ≤ attempt.now) :
    (timed.next attempt).InTime := by
  have hp := h.pass hnow
  rcases next_cases timed attempt with ⟨error, -, hn⟩
    | ⟨state, hs, hn⟩
  · rw [hn]
    exact hp
  · rw [hn]
    exact hp.made hs

-- ==== runs

/-- The lifecycle and its clock after some attempts, from a draft. The
times of the attempts never go back. -/
def Reached (timed : Timed) : Prop :=
  Lib.Run (fun timed attempt after => after = timed.next attempt)
    (fun timed attempt => timed.last ≤ attempt.now) {} timed

theorem Reached.inTime (h : timed.Reached) : timed.InTime :=
  h.invariant inTime_start fun _ _ _ hb hnow hn =>
    hn ▸ hb.next hnow

theorem InTime.paused (h : timed.InTime)
    (hp : timed.state.lifecycle = .paused) (now : Nat) :
    timed.state.deadlineMs = none
      ∧ Option.Rel (fun r d =>
          timed.activeTime now < d ∧ r = d - timed.activeTime now)
        timed.state.remainingMs timed.configured := by
  unfold InTime activeTime at *
  rw [hp] at h ⊢
  rw [if_neg (by decide), Nat.add_zero]
  exact ⟨h.1, rel_imp (fun _ _ hl => by omega) h.2⟩

theorem InTime.active (h : timed.InTime)
    (ha : timed.state.lifecycle = .active) :
    timed.state.remainingMs = none
      ∧ Option.Rel (fun d du =>
          d + timed.spent = timed.last + du)
        timed.state.deadlineMs timed.configured := by
  unfold InTime at h
  rwa [ha] at h

end Timed

open Timed in
/-- However often a competition is paused and resumed, it is due exactly
when it is active and the time it has spent active since it started is
the duration it was started with, and only then it expires. A paused
state has no deadline and keeps what is left, an active state has nothing
left over and a deadline unless it was started without a duration. A
pause is never made at or past the deadline, only a start changes the
generation, nothing leads out of a closed state, and a transition that
is refused writes nothing. -/
theorem active_time_conserved {timed : Timed} (hreached : timed.Reached)
    {now : Nat} (hnow : timed.last ≤ now) :
    (timed.state.isDue now = true ↔ timed.state.lifecycle = .active
        ∧ ∃ duration, timed.configured = some duration
          ∧ duration ≤ timed.activeTime now)
      ∧ (∀ duration, (∃ state, timed.state.transition .expire now duration
          = .ok state) ↔ timed.state.isDue now = true)
      ∧ (timed.state.lifecycle = .paused → timed.state.deadlineMs = none
        ∧ Option.Rel (fun remaining duration =>
            timed.activeTime now < duration
              ∧ remaining = duration - timed.activeTime now)
          timed.state.remainingMs timed.configured)
      ∧ (timed.state.lifecycle = .active → timed.state.remainingMs = none
        ∧ Option.Rel (fun deadline duration =>
            deadline + timed.spent = timed.last + duration)
          timed.state.deadlineMs timed.configured)
      ∧ (∀ t duration state,
        timed.state.transition t now duration = .ok state →
          (t = .pause → ∀ deadline,
            timed.state.deadlineMs = some deadline → now < deadline)
          ∧ state.generation = (if t = .start
            then timed.state.generation + 1 else timed.state.generation)
          ∧ timed.state.lifecycle ∈ [.draft, .active, .paused])
      ∧ ∀ t duration error state,
        timed.state.transitionInPlace t now duration
          = (.error error, state) → state = timed.state := by
  have hin := hreached.inTime
  refine ⟨hin.isDue hnow, ?_, fun hp => hin.paused hp now, hin.active, ?_, ?_⟩
  · intro duration
    constructor
    · rintro ⟨state, hs⟩
      exact (ensure_ok.1 hs).1
    · intro hdue
      exact ⟨_, by unfold LifecycleState.transition; rw [ensure_true hdue];
                   rfl⟩
  · intro t duration state hs
    refine ⟨?_, ?_, ?_⟩
    · rintro rfl deadline hdl
      obtain ⟨⟨hact, hdue⟩, -⟩ := ensure_ok.1 hs
      exact Nat.lt_of_not_le fun hle =>
        hdue (isDue_iff.2 ⟨hact, deadline, hdl, hle⟩)
    · rcases transition_cases hs with
        ⟨hst, -, -, hgen⟩ | ⟨ho, hgen, -⟩
      · rw [if_pos hst]
        exact hgen
      · rw [if_neg ho]
        exact hgen
    · rcases transition_cases hs with
        ⟨-, hd, -⟩ | ⟨-, -, ⟨hd, -⟩ | ⟨hrn, -⟩⟩
      · rw [hd]
        decide
      · rw [hd]
        decide
      · unfold Lifecycle.running at hrn
        split at hrn
        · next hact =>
          rw [hact]
          decide
        · next hp =>
          rw [hp]
          decide
        · cases hrn
  · intro t duration error state hr
    rw [transitionInPlace_eq] at hr
    split at hr
    · cases hr
    · cases hr
      rfl

/-- Started for fifty milliseconds, paused after twenty, and resumed. -/
def resumedOnce : Timed :=
  ((({} : Timed).next ⟨.start, 100, some 50⟩).next
    ⟨.pause, 120, some 50⟩).next ⟨.resume, 500, some 50⟩

theorem resumedOnce_reached : resumedOnce.Reached :=
  .tail ⟨.resume, 500, some 50⟩
    (.tail ⟨.pause, 120, some 50⟩
      (.tail ⟨.start, 100, some 50⟩ .refl (by decide) rfl) (by decide) rfl)
    (by decide) rfl

/-- The thirty milliseconds left are over at 530. -/
theorem active_time_conserved_resumed :
    resumedOnce.state.isDue 530 = true
      ∧ resumedOnce.state.isDue 529 = false := by
  obtain ⟨hl, -⟩ := @active_time_conserved _
    resumedOnce_reached 530 (by decide)
  obtain ⟨hea, -⟩ := @active_time_conserved _
    resumedOnce_reached 529 (by decide)
  refine ⟨hl.2 ⟨rfl, 50, rfl, by decide⟩, ?_⟩
  refine Bool.eq_false_iff.2 fun hdue => ?_
  obtain ⟨-, duration, hdur, hle⟩ := hea.1 hdue
  cases hdur
  exact absurd hle (by decide)

/-- A competition without a duration is active without a deadline. -/
theorem untimed_no_deadline :
    ¬ ∀ timed : Timed, timed.Reached →
      timed.state.lifecycle = .active → timed.state.deadlineMs ≠ none := by
  intro h
  exact h (({} : Timed).next ⟨.start, 5, none⟩)
    (.tail ⟨.start, 5, none⟩ .refl (by decide) rfl) rfl rfl

end TikTools.Competitions
