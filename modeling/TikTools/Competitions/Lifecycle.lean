/-
What a competition may look like and how it moves: the checks a
definition passes before it is stored, the option a chat command names,
and the lifecycle of one generation.

A generation begins with `start`, which only a draft allows, so that it
is the only transition that changes the generation number. None leads to
`finished`: a competition finishes by the commit of its result.
Lower-casing is a parameter.
-/
import TikTools.Lib.Text
import TikTools.Competitions.Ledger

namespace TikTools.Competitions

open TikTools.Lib

-- ==== definitions

/-- Action ids have 1 to 128 bytes. -/
def WinnerAction.valid (action : WinnerAction) : Bool :=
  action.actionId ≠ "" && action.actionId.utf8ByteSize ≤ 128

/-- A command is a trimmed word of at most 128 bytes behind a `!`. -/
def validCommand (command : String) : Bool :=
  command.utf8ByteSize ≤ 128 && startsWith command "!"
    && trim command.toList = command.toList

/-- The checks on one option alone. -/
def OptionDefinition.valid (option : OptionDefinition) : Bool :=
  option.id ≠ "" && option.id.utf8ByteSize ≤ 128
    && trim option.label.toList ≠ [] && option.label.utf8ByteSize ≤ 256
    && option.commands.length ≤ 64 && option.giftIds.length ≤ 256
    && option.onWin.all WinnerAction.valid
    && option.commands.all validCommand
    && option.giftIds.all fun gift =>
      gift ≠ "" && gift.utf8ByteSize ≤ 128

/-- The checks on the definition's own fields. -/
def Definition.fieldsValid (definition : Definition) : Bool :=
  let challenge := decide (definition.kind = .leaderboardChallenge)
  definition.schemaVersion = 1
    && definition.id ≠ "" && definition.id.utf8ByteSize ≤ 128
    && trim definition.name.toList ≠ []
    && definition.name.utf8ByteSize ≤ 256
    && definition.rankingId ≠ "" && definition.rankingId.utf8ByteSize ≤ 128
    && definition.options.isEmpty == challenge
    && definition.options.length ≤ 256
    && (!challenge || definition.selectionMode = .highestScore)
    && (definition.targetScore.isNone || challenge)
    && definition.targetScore ≠ some 0
    && (definition.onUserWin.isNone || definition.kind.userWinner)
    && definition.onUserWin.all WinnerAction.valid
    && (definition.kind ≠ .randomDraw
      || definition.selectionMode = .uniformRandom)
    && (definition.kind ≠ .weightedDraw
      || definition.selectionMode = .weightedRandom)
    && definition.voteLimit ≠ 0 && definition.durationMs ≠ some 0

/-- A definition is stored only when its fields and options are in
bounds and no option id, command or gift is used twice. -/
def Definition.validate (lower : String → String)
    (definition : Definition) : Except Error Unit := do
  ensure (definition.fieldsValid ∧ definition.options.all (·.valid))
    .invalidCandidate
  ensure ((definition.options.map (·.id)).Nodup
      ∧ ((definition.options.flatMap (·.commands)).map lower).Nodup
      ∧ (definition.options.flatMap (·.giftIds)).Nodup)
    .invalidCandidate

/-- The option a whole comment names, whatever its case. -/
def Definition.optionForCommand (lower : String → String)
    (definition : Definition) (comment : String) : Option String :=
  if 128 < comment.utf8ByteSize then none
  else
    let command := lower (String.ofList (trim comment.toList))
    (definition.options.find? fun option =>
      option.commands.any fun candidate =>
        lower candidate == command).map (·.id)

/-- The option a gift is bound to. -/
def Definition.optionForGift (definition : Definition) (gift : String) :
    Option String :=
  (definition.options.find? fun option =>
    option.giftIds.any fun id => id == gift).map (·.id)

variable {lower : String → String}

variable {definition : Definition}

/-- A stored definition has at most 256 options and lets everyone vote
at least once. -/
theorem Definition.validate_bounds (h : definition.validate lower = .ok ()) :
    definition.options.length ≤ 256 ∧ 0 < definition.voteLimit := by
  obtain ⟨⟨hf, -⟩, -⟩ := ensure_ok.1 h
  unfold Definition.fieldsValid at hf
  simp only [Bool.and_eq_true, decide_eq_true_eq] at hf
  exact ⟨hf.1.1.1.1.1.1.1.1.1.2, Nat.pos_of_ne_zero hf.1.2⟩

variable {option : String}

theorem Definition.optionForCommand_mem {c : String}
    (h : definition.optionForCommand lower c = some option) :
    option ∈ definition.options.map (·.id) := by
  unfold Definition.optionForCommand at h
  split at h
  · cases h
  · obtain ⟨f, hf, rfl⟩ := Option.map_eq_some_iff.1 h
    exact List.mem_map.2 ⟨f, List.mem_of_find?_eq_some hf, rfl⟩

theorem Definition.optionForGift_mem {g : String}
    (h : definition.optionForGift g = some option) :
    option ∈ definition.options.map (·.id) := by
  obtain ⟨f, hf, rfl⟩ := Option.map_eq_some_iff.1 h
  exact List.mem_map.2 ⟨f, List.mem_of_find?_eq_some hf, rfl⟩

-- ==== lifecycle

inductive Transition where
  | start | pause | resume | cancel | finish | expire
  deriving DecidableEq, Repr

/-- A lifecycle in which contributions are answered by their content. -/
def Lifecycle.running : Lifecycle → Bool
  | .active | .paused => true
  | _ => false

namespace LifecycleState

/-- The deadline of an active competition has passed. -/
def isDue (state : LifecycleState) (now : Nat) : Bool :=
  state.lifecycle = .active && state.deadlineMs.any (· ≤ now)

/-- A time span counted from now. -/
def deadlineAfter (now : Nat) (span : Option Nat) :
    Except Error (Option Nat) :=
  match span with
  | none => .ok none
  | some span => do
    let deadline ← okOr (checkedAdd now span) .overflow
    return some deadline

def transition (state : LifecycleState) (transition : Transition)
    (now : Nat) (duration : Option Nat) : Except Error LifecycleState :=
  match transition with
  | .start => do
    ensure (state.lifecycle = .draft) .invalidTransition
    let deadline ← deadlineAfter now duration
    let generation ← okOr (checkedAdd state.generation 1) .overflow
    return { state with
      deadlineMs := deadline, generation, lifecycle := .active }
  | .pause => do
    ensure (state.lifecycle = .active ∧ ¬ state.isDue now) .invalidTransition
    return { state with
      remainingMs := state.deadlineMs.map fun deadline => deadline - now
      deadlineMs := none
      lifecycle := .paused }
  | .resume => do
    ensure (state.lifecycle = .paused) .invalidTransition
    let deadline ← deadlineAfter now state.remainingMs
    return { state with
      deadlineMs := deadline, remainingMs := none, lifecycle := .active }
  | .cancel => do
    ensure (state.lifecycle = .draft ∨ state.lifecycle.running)
      .invalidTransition
    return { state with
      lifecycle := .cancelled, deadlineMs := none, remainingMs := none }
  | .finish => do
    ensure state.lifecycle.running .invalidTransition
    return { state with
      lifecycle := .finalizing, deadlineMs := none, remainingMs := none }
  | .expire => do
    ensure (state.isDue now) .invalidTransition
    return { state with lifecycle := .finalizing, deadlineMs := none }

variable {duration : Option Nat} {t : Transition} {now : Nat}
   {next state : LifecycleState}

section

variable (h : state.transition t now duration = .ok next)
include h

/-- What a transition may do: a draft starts the next generation or is
cancelled, and a running competition goes on, is cancelled, or waits for
its result. -/
theorem transition_cases :
    (t = .start ∧ state.lifecycle = .draft ∧ next.lifecycle = .active
        ∧ next.generation = state.generation + 1)
      ∨ (t ≠ .start ∧ next.generation = state.generation
        ∧ ((state.lifecycle = .draft ∧ next.lifecycle = .cancelled)
          ∨ (state.lifecycle.running = true
            ∧ (next.lifecycle.running = true
              ∨ next.lifecycle = .cancelled
              ∨ next.lifecycle = .finalizing)))) := by
  cases t with
  | start =>
    obtain ⟨hd, h⟩ := ensure_ok.1 h
    obtain ⟨d, -, h⟩ := bind_eq_ok.1 h
    obtain ⟨generation, hn, h⟩ := okOr_ok.1 h
    obtain ⟨-, rfl⟩ := checkedAdd_eq_some.1 hn
    cases h
    exact .inl ⟨rfl, hd, rfl, rfl⟩
  | pause =>
    obtain ⟨⟨ha, -⟩, h⟩ := ensure_ok.1 h
    cases h
    exact .inr ⟨nofun, rfl, .inr ⟨by rw [ha]; rfl, .inl rfl⟩⟩
  | resume =>
    obtain ⟨hp, h⟩ := ensure_ok.1 h
    obtain ⟨d, -, h⟩ := bind_eq_ok.1 h
    cases h
    exact .inr ⟨nofun, rfl, .inr ⟨by rw [hp]; rfl, .inl rfl⟩⟩
  | cancel =>
    obtain ⟨ho, h⟩ := ensure_ok.1 h
    cases h
    rcases ho with hd | hr
    · exact .inr ⟨nofun, rfl, .inl ⟨hd, rfl⟩⟩
    · exact .inr ⟨nofun, rfl, .inr ⟨hr, .inr (.inl rfl)⟩⟩
  | finish =>
    obtain ⟨hr, h⟩ := ensure_ok.1 h
    cases h
    exact .inr ⟨nofun, rfl, .inr ⟨hr, .inr (.inr rfl)⟩⟩
  | expire =>
    obtain ⟨hdue, h⟩ := ensure_ok.1 h
    cases h
    unfold isDue at hdue
    rw [Bool.and_eq_true, decide_eq_true_eq] at hdue
    exact .inr ⟨nofun, rfl, .inr ⟨by rw [hdue.1]; rfl, .inr (.inr rfl)⟩⟩

theorem transition_not_finished :
    next.lifecycle ≠ .finished := by
  intro hf
  rcases transition_cases h with ⟨-, -, hn, -⟩
    | ⟨-, -, ⟨-, hn⟩ | ⟨-, hn | hn | hn⟩⟩
  all_goals rw [hf] at hn
  all_goals cases hn

theorem transition_from_finished :
    state.lifecycle ≠ .finished := by
  intro hf
  rcases transition_cases h with ⟨-, hd, -⟩
    | ⟨-, -, ⟨hd, -⟩ | ⟨hr, -⟩⟩
  · rw [hf] at hd
    cases hd
  · rw [hf] at hd
    cases hd
  · rw [hf] at hr
    cases hr

end

end LifecycleState

end TikTools.Competitions
