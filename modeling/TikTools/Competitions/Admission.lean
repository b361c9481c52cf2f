/-
What a route may do to the rows of a generation.

A command is refused and leaves the rows alone, is recorded without
effect, or votes (`Commanded`). A like or a share is refused or recorded
with what it earned (`Scored`). A gift packet is refused or received,
and then perhaps credited (`Gifted`).

Whatever the answer, the event is refused from then on, because every
reason to refuse lasts: an identity that is recorded, an exhausted
budget, a command that names nothing, a newcomer after the last place
was taken. `Later` says what the rows of a generation never take back.
-/
import TikTools.Competitions.Routing

namespace TikTools.Competitions

open TikTools.Lib Option Nat

-- ==== outcomes

/-- The event counts for an option. -/
def ParticipationOutcome.counts : ParticipationOutcome → Bool
  | .accepted .. => true
  | _ => false

def ScoredOutcome.counts : ScoredOutcome → Bool
  | .accepted .. => true
  | _ => false

def GiftOutcome.counts : GiftOutcome → Bool
  | .accepted .. => true
  | _ => false

/-- The keys a scored event and a credited gift are kept under. -/
def ScoredInput.key (input : ScoredInput) : SourceKey :=
  toLex (input.source, input.eventIdentity)

def GiftInput.key (input : GiftInput) : SourceKey :=
  toLex ("tiktok.gift", input.eventIdentity)

namespace Round

-- ==== members

/-- The participant has voted or was credited with a gift. -/
def entered (round : Round) (participant : String) : Prop :=
  round.participants[participant]? ≠ none
    ∨ round.giftParticipants[participant]? ≠ none

/-- No more contributions are recorded. -/
def exhausted (round : Round) : Prop :=
  maxContributions ≤ round.contributionCount

/-- The participant came after the last place was taken. -/
def crowdedOut (round : Round) (participant : String) : Prop :=
  ¬ round.entered participant ∧ maxParticipants ≤ round.participantCount

-- ==== commands

/-- The reasons a command is answered without a change. -/
def refusesCommand (round : Round) (option : Option String)
    (input : CommandParticipation) : Prop :=
  round.contributions[input.eventIdentity]? ≠ none ∨ round.exhausted
    ∨ option = none ∨ round.crowdedOut input.participantId

/-- The receipt of a command. -/
def receiptOf (input : CommandParticipation) (option : String) :
    ContributionRow :=
  { participantId := input.participantId
    optionId := option
    createdAt := input.receivedAt }

/-- What routing a command does. -/
inductive Commanded (round : Round) (definition : Definition)
    (option : Option String) (input : CommandParticipation) :
    ParticipationOutcome → Round → Option (String × Nat) → Prop
  | refused (outcome : ParticipationOutcome) :
      outcome.counts = false →
      round.refusesCommand option input →
      Commanded round definition option input outcome round none
  | ignored (outcome : ParticipationOutcome) (chosen : String) :
      outcome.counts = false →
      option = some chosen →
      round.contributions[input.eventIdentity]? = none →
      ¬ round.exhausted →
      Commanded round definition option input outcome
        ((round.count false).record input.eventIdentity
          (receiptOf input chosen)) none
  | voted (chosen : String) (prior : ParticipantRow) (votes : Nat)
      (switched : Bool) :
      option = some chosen →
      round.contributions[input.eventIdentity]? = none →
      ¬ round.exhausted →
      round.participants[input.participantId]? = some prior →
      (votes = prior.votes + 1 ∧ prior.votes < definition.voteLimit
        ∨ votes = prior.votes ∧ prior.votes ≠ 0) →
      Commanded round definition option input
        (.accepted chosen votes switched)
        (round.vote false input chosen votes)
        (some (prior.optionId, prior.votes))
  | joined (chosen : String) (new : Bool) :
      option = some chosen →
      round.contributions[input.eventIdentity]? = none →
      ¬ round.exhausted →
      round.participants[input.participantId]? = none →
      (new = true ↔ round.giftParticipants[input.participantId]? = none) →
      (new = true → round.participantCount < maxParticipants) →
      Commanded round definition option input (.accepted chosen 1 false)
        (round.vote new input chosen 1) none

section

variable {round : Round} {definition : Definition}
  {input : CommandParticipation} {outcome : ParticipationOutcome}

theorem commanded_ignored {chosen : String} (hc : outcome.counts = false)
    (hn : round.contributions[input.eventIdentity]? = none) :
    Commanded round definition (some chosen) input
      (round.recordIgnoredCommand input.eventIdentity
        (receiptOf input chosen) outcome).1
      (round.recordIgnoredCommand input.eventIdentity
        (receiptOf input chosen) outcome).2 none := by
  unfold recordIgnoredCommand
  split
  · next hfl => exact .refused _ rfl (.inr (.inl hfl))
  · next hf => exact .ignored _ chosen hc rfl hn hf

theorem voteFor_commanded {next : Round} {chosen : String}
    {previous : Option (String × Nat)}
    (hn : round.contributions[input.eventIdentity]? = none)
    (h : round.voteFor definition input chosen
      = .ok (outcome, next, previous)) :
    Commanded round definition (some chosen) input outcome next previous := by
  unfold voteFor at h
  dsimp only at h
  split at h
  · next hf =>
    cases h
    exact .refused _ rfl (.inr (.inl hf))
  next hfr =>
  split at h
  · next p hp =>
    split at h
    · cases h
      exact commanded_ignored rfl hn
    · obtain ⟨hv, h⟩ := ensure_ok.1 h
      split at h
      · cases h
        exact commanded_ignored rfl hn
      · obtain ⟨-, h⟩ := ensure_ok.1 h
        cases h
        refine .voted chosen p _ _ rfl hn hfr hp ?_
        by_cases hl : definition.voteLimit ≤ p.votes
        · rw [if_pos (decide_eq_true hl)]
          exact .inr ⟨rfl, hv⟩
        · rw [if_neg (by rwa [decide_eq_true_eq])]
          exact .inl ⟨rfl, Nat.lt_of_not_le hl⟩
  · next hp =>
    split at h
    · next hc =>
      cases h
      have habs : round.giftParticipants[input.participantId]? = none :=
        Decidable.not_not.1 (decide_eq_false_iff_not.1 hc.2)
      refine .refused _ rfl (.inr (.inr (.inr ⟨?_, hc.1⟩)))
      rintro (hin | hin)
      · exact hin hp
      · exact hin habs
    · next hr =>
      cases h
      refine .joined chosen _ rfl hn hfr hp ?_ ?_
      · rw [Bool.not_eq_true', decide_eq_false_iff_not, Decidable.not_not]
      · intro hen
        rw [Bool.not_eq_true'] at hen
        by_contra hf
        exact hr ⟨Nat.le_of_not_lt hf, hen⟩

theorem command_commanded {next : Round} {s : LifecycleState}
    {option : Option String} {previous : Option (String × Nat)}
    (h : round.command definition s option input
      = .ok (outcome, next, previous)) :
    Commanded round definition option input outcome next previous := by
  unfold command at h
  split at h
  · next p hp =>
    have hs : round.refusesCommand option input :=
      .inl (by rw [hp]; exact some_ne_none p)
    split at h
    · cases h
      exact .refused _ rfl hs
    · cases h
      exact .refused _ rfl hs
  · next hn =>
    split at h
    · split at h
      · cases h
        exact commanded_ignored rfl hn
      · cases h
        exact .refused _ rfl (.inr (.inr (.inl rfl)))
    · split at h
      · cases h
        exact .refused _ rfl (.inr (.inr (.inl rfl)))
      · exact voteFor_commanded hn h

end

-- ==== scores

/-- The reasons a like or a share is answered without a change. -/
def refusesScore (round : Round) (input : ScoredInput) : Prop :=
  round.scored[input.key]? ≠ none ∨ round.exhausted

/-- The round with one more scored event. -/
def recordScore (round : Round) (input : ScoredInput)
    (option : Option String) : Round :=
  { round.count false with
    scored := round.scored.insert input.key
      { participantId := input.participantId
        optionId := option
        score := input.score
        createdAt := input.receivedAt } }

/-- What routing a like or a share does: it counts exactly for the
option its participant has voted for. -/
inductive Scored (round : Round) (input : ScoredInput) :
    ScoredOutcome → Round → Prop
  | refused (outcome : ScoredOutcome) : outcome.counts = false →
      round.refusesScore input → Scored round input outcome round
  | ignored (outcome : ScoredOutcome) : outcome.counts = false →
      round.scored[input.key]? = none → ¬ round.exhausted →
      Scored round input outcome (round.recordScore input none)
  | counted (row : ParticipantRow) :
      round.scored[input.key]? = none → ¬ round.exhausted →
      round.participants[input.participantId]? = some row →
      Scored round input (.accepted row.optionId)
        (round.recordScore input (some row.optionId))

theorem score_scored (round : Round) (s : LifecycleState)
    (input : ScoredInput) :
    Scored round input (round.score s input).1 (round.score s input).2 := by
  unfold score
  dsimp only
  split
  · next p hp =>
    have hs : round.refusesScore input := by
      refine .inl ?_
      show round.scored[(toLex (input.source, input.eventIdentity) :
        SourceKey)]? ≠ none
      rw [hp]
      exact some_ne_none p
    split
    · exact .refused _ rfl hs
    · exact .refused _ rfl hs
  · next hnew =>
    by_cases hf : maxContributions ≤ round.contributionCount
    · rw [if_pos hf]
      exact .refused _ rfl (.inr hf)
    rw [if_neg hf]
    by_cases ha : s.lifecycle = .active ∧ ¬ s.isDue input.receivedAt = true
    · rw [if_pos ha, if_neg (not_not.2 ha)]
      cases hrow : round.participants[input.participantId]? with
      | none => exact .ignored _ rfl hnew hf
      | some row => exact .counted row hnew hf hrow
    · rw [if_neg ha, if_pos ha]
      exact .ignored _ rfl hnew hf

-- ==== gifts

/-- The reasons a gift packet is answered without a change. -/
def refusesGift (round : Round) (input : GiftInput) : Prop :=
  round.giftReceipts[input.eventIdentity]? ≠ none ∨ round.exhausted
    ∨ round.crowdedOut input.participantId

/-- The rounds differ in the marks of streaks at most. -/
structure SameAccounts (round next : Round) : Prop where
  counts : next.counts = round.counts
  participants : next.participants = round.participants
  contributions : next.contributions = round.contributions
  scored : next.scored = round.scored
  giftReceipts : next.giftReceipts = round.giftReceipts
  giftParticipants : next.giftParticipants = round.giftParticipants

/-- A packet was received, and credited if there is a credit. -/
structure Received (round : Round) (input : GiftInput) (new : Bool)
    (credit : Option (String × Nat)) (next : Round) : Prop where
  counts : next.counts = (round.count new).counts
  participants : next.participants = round.participants
  contributions : next.contributions = round.contributions
  giftReceipts : next.giftReceipts
    = round.giftReceipts.insert input.eventIdentity (giftReceipt input)
  giftParticipants : next.giftParticipants
    = if new then round.giftParticipants.insert input.participantId ()
      else round.giftParticipants
  scored : match credit with
    | none => next.scored = round.scored
    | some (option, score) => round.scored[input.key]? = none
      ∧ next.scored = round.scored.insert input.key
        { participantId := input.participantId
          optionId := some option
          score
          createdAt := input.receivedAt }

/-- What routing a gift packet does: a credited one makes its sender a
participant. -/
inductive Gifted (round : Round)
    (definition : Except DatabaseError Definition) (input : GiftInput) :
    GiftOutcome → Round → Prop
  | refused (outcome : GiftOutcome) : outcome.counts = false →
      round.refusesGift input → Gifted round definition input outcome round
  | ignored (outcome : GiftOutcome) {next : Round} :
      outcome.counts = false →
      round.giftReceipts[input.eventIdentity]? = none →
      ¬ round.exhausted → Received round input false none next →
      Gifted round definition input outcome next
  | credited (option : String) (score : Nat) (new : Bool) {next : Round} :
      round.giftReceipts[input.eventIdentity]? = none →
      ¬ round.exhausted →
      ((∃ bound, definition = .ok bound
          ∧ bound.optionForGift input.giftId = some option)
        ∨ ∃ row, round.participants[input.participantId]? = some row
          ∧ row.optionId = option) →
      (new = true ↔ ¬ round.entered input.participantId) →
      (new = true → round.participantCount < maxParticipants) →
      Received round input new (some (option, score)) next →
      Gifted round definition input (.accepted option score) next

theorem openCombo_same {round next : Round} {key : ComboKey}
    {c : ComboRow} (h : round.openCombo key = .ok (c, next)) :
    SameAccounts round next := by
  unfold openCombo at h
  split at h
  · cases h
    exact ⟨rfl, rfl, rfl, rfl, rfl, rfl⟩
  · obtain ⟨-, h⟩ := ensure_ok.1 h
    cases h
    exact ⟨rfl, rfl, rfl, rfl, rfl, rfl⟩

section

variable {round next : Round} {input : GiftInput}

theorem giftDelta_same {id : String} {g : Nat} {d : GiftDelta}
    (h : round.giftDelta id g input = .ok (d, next)) :
    SameAccounts round next := by
  obtain ⟨-, h⟩ := ensure_ok.1 h
  obtain ⟨-, h⟩ := ensure_ok.1 h
  obtain ⟨-, h⟩ := ensure_ok.1 h
  obtain ⟨-, h⟩ := ensure_ok.1 h
  obtain ⟨⟨combo, opened⟩, ho, h⟩ := bind_eq_ok.1 h
  obtain ⟨target, -, h⟩ := bind_eq_ok.1 h
  cases h
  have hs := openCombo_same ho
  split at hs
  all_goals exact ⟨hs.counts, hs.participants, hs.contributions,
    hs.scored, hs.giftReceipts, hs.giftParticipants⟩

theorem receiveGift_received {a : Round} {new : Bool}
    {credit : Option (String × Nat)} (hs : SameAccounts round a)
    (h : { a with
        giftParticipants :=
          if new then a.giftParticipants.insert input.participantId ()
          else a.giftParticipants }.receiveGift input new credit
      = .ok next) : Received round input new credit next := by
  have hc : (a.count new).counts = (round.count new).counts := by
    unfold count participantCount contributionCount
    rw [hs.counts]
  cases credit with
  | none =>
    cases h
    exact ⟨hc, hs.participants, hs.contributions,
      by rw [← hs.giftReceipts]; rfl,
      by rw [← hs.giftParticipants]; rfl, hs.scored⟩
  | some pair =>
    obtain ⟨hf, h⟩ := ensure_ok.1 h
    cases h
    refine ⟨hc, hs.participants, hs.contributions,
      by rw [← hs.giftReceipts]; rfl,
      by rw [← hs.giftParticipants]; rfl, ?_, ?_⟩
    · rw [← hs.scored]
      exact hf
    · rw [← hs.scored]
      rfl

theorem admitGift_gifted {a : Round} {definition : Definition}
    {st : LifecycleState} {s : Nat} {outcome : GiftOutcome}
    (hs : SameAccounts round a)
    (hn : round.giftReceipts[input.eventIdentity]? = none)
    (hf : ¬ round.exhausted)
    (h : round.admitGift a input (giftOutcome definition st input
        (round.participants[input.participantId]?.map (·.optionId)) s)
      = .ok (outcome, next)) :
    Gifted round (.ok definition) input outcome next := by
  have hen : (a.participants[input.participantId]? ≠ none
      ∨ a.giftParticipants[input.participantId]? ≠ none)
      ↔ round.entered input.participantId := by
    unfold entered
    rw [hs.participants, hs.giftParticipants]
  have hc : a.participantCount = round.participantCount := by
    unfold participantCount
    rw [hs.counts]
  have hp : ∀ (f : GiftOutcome), f.counts = false →
      (do let round ← a.receiveGift input false none
          return (f, round) : Except DatabaseError _)
        = .ok (outcome, next) →
      Gifted round (.ok definition) input outcome next := by
    intro f hfn h
    obtain ⟨r, hr, h⟩ := bind_eq_ok.1 h
    cases h
    exact .ignored _ hfn hn hf (receiveGift_received hs hr)
  unfold giftOutcome at h
  split at h
  · exact hp _ rfl h
  split at h
  · exact hp _ rfl h
  split at h
  · next option hopt =>
    have hsrc : (∃ bound, Except.ok (ε := DatabaseError) definition
            = .ok bound ∧ bound.optionForGift input.giftId = some option)
        ∨ ∃ row, round.participants[input.participantId]? = some row
          ∧ row.optionId = option := by
      rcases or_eq_some_iff.1 hopt with hb | ⟨-, ha⟩
      · exact .inl ⟨definition, rfl, hb⟩
      · obtain ⟨row, hrow, hid⟩ := map_eq_some_iff.1 ha
        exact .inr ⟨row, hrow, hid⟩
    unfold admitGift at h
    dsimp only at h
    split at h
    · next hin =>
      obtain ⟨r, hr, h⟩ := bind_eq_ok.1 h
      cases h
      refine .credited option s false hn hf hsrc ?_ nofun
        (receiveGift_received hs hr)
      exact ⟨nofun, fun ho => absurd (hen.1 hin) ho⟩
    · next ho =>
      split at h
      · next hfl =>
        cases h
        exact .refused _ rfl (.inr (.inr
          ⟨fun hin => ho (hen.2 hin), hc ▸ hfl⟩))
      · next hrm =>
        obtain ⟨r, hr, h⟩ := bind_eq_ok.1 h
        cases h
        refine .credited option s true hn hf hsrc ?_ ?_
          (receiveGift_received hs hr)
        · exact ⟨fun _ hin => ho (hen.2 hin), fun _ => rfl⟩
        · exact fun _ => hc ▸ Nat.lt_of_not_le hrm
  · exact hp _ rfl h

theorem gift_gifted {id : String}
    {definition : Except DatabaseError Definition} {st : LifecycleState}
    {s : Nat → Nat → String → Except DatabaseError Nat}
    {outcome : GiftOutcome}
    (h : round.gift id definition st input s = .ok (outcome, next)) :
    Gifted round definition input outcome next := by
  unfold gift at h
  split at h
  · next p hp =>
    have hs : round.refusesGift input :=
      .inl (by rw [hp]; exact some_ne_none p)
    split at h
    · cases h
      exact .refused _ rfl hs
    · cases h
      exact .refused _ rfl hs
  · next hn =>
    split at h
    · next hfl =>
      cases h
      exact .refused _ rfl (.inr (.inl hfl))
    · next hf =>
      obtain ⟨⟨delta, after⟩, hd, h⟩ := bind_eq_ok.1 h
      obtain ⟨points, -, h⟩ := bind_eq_ok.1 h
      obtain ⟨bound, hb, h⟩ := bind_eq_ok.1 h
      rw [hb]
      exact admitGift_gifted (giftDelta_same hd) hn hf h

end

-- ==== later

/-- What the rows of a generation never take back. -/
structure Later (round later : Round) : Prop where
  contributions : ∀ identity : String,
    round.contributions[identity]? ≠ none →
      later.contributions[identity]? ≠ none
  scored : ∀ key : SourceKey, round.scored[key]? ≠ none →
    later.scored[key]? ≠ none
  giftReceipts : ∀ identity : String,
    round.giftReceipts[identity]? ≠ none →
      later.giftReceipts[identity]? ≠ none
  budget : round.contributionCount ≤ later.contributionCount
  places : round.participantCount ≤ later.participantCount
  closed : maxParticipants ≤ round.participantCount →
    ∀ participant, later.entered participant → round.entered participant

theorem Later.refl (round : Round) : Later round round :=
  ⟨fun _ => id, fun _ => id, fun _ => id, le_refl _, le_refl _, fun _ _ => id⟩

theorem Later.trans {round later last : Round} (h : Later round later)
    (h' : Later later last) : Later round last :=
  ⟨fun i hin => h'.contributions i
      (h.contributions i hin),
    fun key hin => h'.scored key (h.scored key hin),
    fun i hin => h'.giftReceipts i (h.giftReceipts i hin),
    h.budget.trans h'.budget, h.places.trans h'.places,
    fun hf p hin => h.closed hf p (h'.closed (hf.trans h.places) p hin)⟩

variable {round next : Round}

section

variable {later : Round} (h : Later round later)
include h

theorem Later.exhausted (hf : round.exhausted) : later.exhausted :=
  hf.trans h.budget

theorem Later.crowdedOut {participant : String}
    (hout : round.crowdedOut participant) :
    later.crowdedOut participant :=
  ⟨fun hin => hout.1 (h.closed hout.2 participant hin), hout.2.trans h.places⟩

theorem Later.refusesCommand {option : Option String}
    {input : CommandParticipation}
    (hr : round.refusesCommand option input) :
    later.refusesCommand option input := by
  rcases hr with hs | hf | hn | ho
  · exact .inl (h.contributions _ hs)
  · exact .inr (.inl (h.exhausted hf))
  · exact .inr (.inr (.inl hn))
  · exact .inr (.inr (.inr (h.crowdedOut ho)))

theorem Later.refusesScore {input : ScoredInput}
    (hr : round.refusesScore input) :
    later.refusesScore input := by
  rcases hr with hs | hf
  · exact .inl (h.scored _ hs)
  · exact .inr (h.exhausted hf)

theorem Later.refusesGift {input : GiftInput}
    (hr : round.refusesGift input) :
    later.refusesGift input := by
  rcases hr with hs | hf | ho
  · exact .inl (h.giftReceipts _ hs)
  · exact .inr (.inl (h.exhausted hf))
  · exact .inr (.inr (h.crowdedOut ho))

end

theorem get_insert_ne_none {κ ρ : Type} [Ord κ] [Std.TransOrd κ]
    [Std.LawfulEqOrd κ] [DecidableEq κ] {t : Table κ ρ} {a : κ}
    (h : t[a]? ≠ none) (k : κ) (v : ρ) : (t.insert k v)[a]? ≠ none := by
  rw [Table.get_insert]
  split
  · exact some_ne_none v
  · exact h

theorem get_insert_self_ne_none {κ ρ : Type} [Ord κ] [Std.TransOrd κ]
    [Std.LawfulEqOrd κ] (t : Table κ ρ) (k : κ) (v : ρ) :
    (t.insert k v)[k]? ≠ none := by
  rw [Table.get_insert_self]
  exact some_ne_none v

variable {definition : Definition}

section

variable {new : Bool} {input : CommandParticipation} {chosen : String}
  {votes : Nat}

theorem entered_vote {participant : String}
    (h : (round.vote new input chosen votes).entered participant) :
    input.participantId = participant ∨ round.entered participant := by
  rcases h with hv | hg
  · have hv : (round.participants.insert input.participantId
        (⟨chosen, votes, input.receivedAt⟩ : ParticipantRow))[participant]?
          ≠ none := hv
    rw [Table.get_insert] at hv
    split at hv
    · next hs => exact .inl hs
    · exact .inr (.inl hv)
  · exact .inr (.inr hg)

theorem vote_later
    (hen : new = false → round.entered input.participantId)
    (hr : new = true → round.participantCount < maxParticipants) :
    Later round (round.vote new input chosen votes) := by
  refine ⟨fun _ hin => get_insert_ne_none hin _ _, fun _ => id, fun _ => id,
    le_succ _, le_add_right _ _, ?_⟩
  intro hf participant hin
  rcases entered_vote hin with rfl | hin
  · cases new with
    | false => exact hen rfl
    | true => exact absurd (hr rfl) (Nat.not_lt_of_le hf)
  · exact hin

end

section

variable {option : Option String} {input : CommandParticipation}
  {outcome : ParticipationOutcome} {previous : Option (String × Nat)}
  (h : Commanded round definition option input outcome next previous)
include h

theorem Commanded.later :
    Later round next := by
  cases h with
  | refused _ _ _ => exact .refl round
  | ignored _ chosen _ _ _ _ =>
    exact ⟨fun _ hin => get_insert_ne_none hin _ _, fun _ => id,
      fun _ => id, le_succ _, le_refl _, fun _ _ => id⟩
  | voted chosen prior votes switched _ _ _ hp _ =>
    refine vote_later (fun _ => .inl ?_) nofun
    rw [hp]
    exact some_ne_none prior
  | joined chosen new _ _ _ _ hg hr =>
    refine vote_later (fun hold => .inr fun hn => ?_) hr
    rw [hg.2 hn] at hold
    cases hold

theorem Commanded.settled :
    next.refusesCommand option input := by
  cases h with
  | refused _ _ hr => exact hr
  | ignored _ _ _ _ _ _ => exact .inl (get_insert_self_ne_none _ _ _)
  | voted _ _ _ _ _ _ _ _ _ => exact .inl (get_insert_self_ne_none _ _ _)
  | joined _ _ _ _ _ _ _ _ => exact .inl (get_insert_self_ne_none _ _ _)

theorem Commanded.unchanged_or_new :
    next = round
      ∨ round.contributions[input.eventIdentity]? = none
        ∧ next.contributions[input.eventIdentity]? ≠ none := by
  cases h with
  | refused _ _ _ => exact .inl rfl
  | ignored _ _ _ _ hn _ =>
    exact .inr ⟨hn, get_insert_self_ne_none _ _ _⟩
  | voted _ _ _ _ _ hn _ _ _ =>
    exact .inr ⟨hn, get_insert_self_ne_none _ _ _⟩
  | joined _ _ _ hn _ _ _ _ =>
    exact .inr ⟨hn, get_insert_self_ne_none _ _ _⟩

theorem Commanded.of_refuses (hr : round.refusesCommand option input) :
    outcome.counts = false := by
  have hcs : ∀ chosen, option = some chosen →
      round.contributions[input.eventIdentity]? = none →
      ¬ round.exhausted → round.crowdedOut input.participantId := by
    intro chosen hc hnew hf
    rcases hr with hs | hfl | hn | ho
    · exact absurd hnew hs
    · exact absurd hfl hf
    · rw [hc] at hn
      cases hn
    · exact ho
  cases h with
  | refused _ hcn _ => exact hcn
  | ignored _ _ hcn _ _ _ => exact hcn
  | voted chosen p votes switched hc hnew hf hp _ =>
    refine absurd (.inl ?_) (hcs chosen hc hnew hf).1
    rw [hp]
    exact some_ne_none p
  | joined chosen new hc hnew hf hp hg hrm =>
    obtain ⟨ho, hfl⟩ := hcs chosen hc hnew hf
    refine absurd (hrm (hg.2 ?_)) (Nat.not_lt_of_le hfl)
    exact Decidable.not_not.1 fun hsm => ho (.inr hsm)

end

-- ==== scores and gifts later

variable {outcome : ScoredOutcome} {input : ScoredInput}

section

variable (h : Scored round input outcome next)
include h

theorem Scored.later :
    Later round next := by
  cases h with
  | refused _ _ _ => exact .refl round
  | ignored _ _ _ _ =>
    exact ⟨fun _ => id, fun _ hin => get_insert_ne_none hin _ _,
      fun _ => id, le_succ _, le_refl _, fun _ _ => id⟩
  | counted _ _ _ _ =>
    exact ⟨fun _ => id, fun _ hin => get_insert_ne_none hin _ _,
      fun _ => id, le_succ _, le_refl _, fun _ _ => id⟩

theorem Scored.settled :
    next.refusesScore input := by
  cases h with
  | refused _ _ hr => exact hr
  | ignored _ _ _ _ => exact .inl (get_insert_self_ne_none _ _ _)
  | counted _ _ _ _ => exact .inl (get_insert_self_ne_none _ _ _)

theorem Scored.unchanged_or_new :
    next = round ∨ round.scored[input.key]? = none
      ∧ next.scored[input.key]? ≠ none := by
  cases h with
  | refused _ _ _ => exact .inl rfl
  | ignored _ _ hn _ => exact .inr ⟨hn, get_insert_self_ne_none _ _ _⟩
  | counted _ hn _ _ => exact .inr ⟨hn, get_insert_self_ne_none _ _ _⟩

theorem Scored.of_refuses
    (hr : round.refusesScore input) : outcome.counts = false := by
  cases h with
  | refused _ hc _ => exact hc
  | ignored _ hc _ _ => exact hc
  | counted _ hn hf _ =>
    rcases hr with hs | hfl
    · exact absurd hn hs
    · exact absurd hfl hf

end

variable {bound : Except DatabaseError Definition} {result : GiftOutcome}
  {packet : GiftInput}

section

variable {new : Bool} {credit : Option (String × Nat)}
  (h : Received round packet new credit next)
include h

theorem Received.later
    (hr : new = true → round.participantCount < maxParticipants) :
    Later round next := by
  have hc : next.contributionCount
      = round.contributionCount + 1 := by
    unfold contributionCount
    rw [h.counts]
    rfl
  have hp : next.participantCount
      = round.participantCount + new.toNat := by
    unfold participantCount
    rw [h.counts]
    rfl
  constructor
  · rw [h.contributions]
    exact fun _ => id
  · have hs := h.scored
    intro key hin
    cases credit with
    | none =>
      rw [show next.scored = round.scored from hs]
      exact hin
    | some pair =>
      rw [hs.2]
      exact get_insert_ne_none hin _ _
  · rw [h.giftReceipts]
    exact fun _ hin => get_insert_ne_none hin _ _
  · omega
  · omega
  · intro hf participant hin
    unfold entered at hin
    rw [h.participants, h.giftParticipants] at hin
    cases new with
    | false => exact hin
    | true => exact absurd (hr rfl) (Nat.not_lt_of_le hf)

theorem Received.recorded :
    next.giftReceipts[packet.eventIdentity]? ≠ none := by
  rw [h.giftReceipts]
  exact get_insert_self_ne_none _ _ _

end

section

variable (h : Gifted round bound packet result next)
include h

theorem Gifted.later :
    Later round next := by
  cases h with
  | refused _ _ _ => exact .refl round
  | ignored _ _ _ _ hr => exact hr.later nofun
  | credited _ _ _ _ _ _ _ hrm hr => exact hr.later hrm

theorem Gifted.settled :
    next.refusesGift packet := by
  cases h with
  | refused _ _ hrf => exact hrf
  | ignored _ _ _ _ hr => exact .inl hr.recorded
  | credited _ _ _ _ _ _ _ _ hr => exact .inl hr.recorded

theorem Gifted.unchanged_or_new :
    next = round ∨ round.giftReceipts[packet.eventIdentity]? = none
      ∧ next.giftReceipts[packet.eventIdentity]? ≠ none := by
  cases h with
  | refused _ _ _ => exact .inl rfl
  | ignored _ _ hn _ hr => exact .inr ⟨hn, hr.recorded⟩
  | credited _ _ _ hn _ _ _ _ hr =>
    exact .inr ⟨hn, hr.recorded⟩

theorem Gifted.of_refuses
    (hr : round.refusesGift packet) : result.counts = false := by
  cases h with
  | refused _ hc _ => exact hc
  | ignored _ hc _ _ _ => exact hc
  | credited _ _ new hn hf _ hen hrm _ =>
    rcases hr with hs | hfl | ⟨ho, hcr⟩
    · exact absurd hn hs
    · exact absurd hfl hf
    · exact absurd (hrm (hen.2 ho)) (Nat.not_lt_of_le hcr)

end

end Round

end TikTools.Competitions
