/-
Routing: how a chat command, a scored event or a gift is admitted to a
running competition.

Each route finds the competition in the creator's room, reads its
lifecycle, and answers from the rows of the current generation: an
identity it has seen before is a duplicate or a conflict; a new one is
counted, and what it earns depends on the lifecycle, on the limits and
on the option it names. An event that may not count is recorded as well,
so that a replay cannot make it count later.

A gift is one packet of a streak. `advanceCombo` keeps the high-water
mark of the streak and returns what the packet adds to it; the score of
that difference is asked of the caller.
-/
import TikTools.Competitions.Store

namespace TikTools.Competitions

open TikTools.Lib

-- ==== inputs

structure CommandParticipation where
  creatorId : String
  roomId : String
  participantId : String
  eventIdentity : String
  command : String
  receivedAt : Nat
  deriving DecidableEq, Repr

structure ScoredInput where
  creatorId : String
  roomId : String
  participantId : String
  eventIdentity : String
  source : String
  score : Nat
  receivedAt : Nat
  deriving DecidableEq, Repr

structure GiftInput where
  creatorId : String
  roomId : String
  participantId : String
  eventIdentity : String
  giftId : String
  groupId : String
  observedQuantity : Nat
  price : Nat
  receivedAt : Nat
  deriving DecidableEq, Repr

inductive ParticipationOutcome where
  | accepted (optionId : String) (votes : Nat) (switched : Bool)
  | duplicate (optionId : String)
  | identityConflict | closed | unknownCommand | switchForbidden
  | voteLimit | capacity
  deriving DecidableEq, Repr

inductive ScoredOutcome where
  | accepted (optionId : String)
  | duplicate | identityConflict | unassigned | closed | capacity
  deriving DecidableEq, Repr

inductive GiftOutcome where
  | accepted (optionId : String) (score : Nat)
  | duplicate | identityConflict | closed | unassigned | zero | capacity
  deriving DecidableEq, Repr

/-- Non-empty and within a bound of bytes. -/
def bounded (text : String) (bytes : Nat) : Bool :=
  text ≠ "" && text.utf8ByteSize ≤ bytes

def maxParticipants : Nat := 100000

def maxContributions : Nat := 500000

namespace Round

-- ==== small steps

def participantCount (round : Round) : Nat :=
  (round.counts.map (·.participants)).getD 0

def contributionCount (round : Round) : Nat :=
  (round.counts.map (·.contributions)).getD 0

/-- Count one more event, and the participant if it is a new one. -/
def count (round : Round) (newParticipant : Bool) : Round :=
  { round with
    counts := some
      { participants := round.participantCount + newParticipant.toNat
        contributions := round.contributionCount + 1 } }

def record (round : Round) (identity : String) (row : ContributionRow) :
    Round :=
  { round with contributions := round.contributions.insert identity row }

/-- Keep the identity of a recognized command that may not count now. -/
def recordIgnoredCommand (round : Round) (identity : String)
    (row : ContributionRow) (outcome : ParticipationOutcome) :
    ParticipationOutcome × Round :=
  if maxContributions ≤ round.contributionCount then (.capacity, round)
  else (outcome, (round.count false).record identity row)

-- ==== commands

/-- Write an accepted vote. -/
def vote (round : Round) (newParticipant : Bool)
    (input : CommandParticipation) (option : String) (votes : Nat) :
    Round :=
  let counted := round.count newParticipant
  { counted with
    participants := counted.participants.insert input.participantId
      { optionId := option, votes, updatedAt := input.receivedAt }
    contributions := counted.contributions.insert input.eventIdentity
      { participantId := input.participantId
        optionId := option
        createdAt := input.receivedAt } }

/-- A command of an active competition that names an option. The last
component is what the participant held before, when it is accepted. -/
def voteFor (round : Round) (definition : Definition)
    (input : CommandParticipation) (option : String) :
    Except DatabaseError
      (ParticipationOutcome × Round × Option (String × Nat)) := do
  let row : ContributionRow :=
    { participantId := input.participantId
      optionId := option
      createdAt := input.receivedAt }
  if maxContributions ≤ round.contributionCount then
    return (.capacity, round, none)
  else
    match round.participants[input.participantId]? with
    | some prior => do
      let switched := prior.optionId != option
      let atLimit := decide (definition.voteLimit ≤ prior.votes)
      if switched && !definition.allowSwitch then
        let (outcome, round) := round.recordIgnoredCommand
          input.eventIdentity row .switchForbidden
        return (outcome, round, none)
      else
        ensure (prior.votes ≠ 0) (.invalid "invalid participant vote count")
        if atLimit && !switched then
          let (outcome, round) := round.recordIgnoredCommand
            input.eventIdentity row .voteLimit
          return (outcome, round, none)
        else
          -- a participant at the limit takes their votes along
          let votes := if atLimit then prior.votes else prior.votes + 1
          ensure (votes ≤ i64Max) (.invalid "vote count overflow")
          return (.accepted option votes switched,
            round.vote false input option votes,
            some (prior.optionId, prior.votes))
    | none =>
      let entered := decide
        (round.giftParticipants[input.participantId]? ≠ none)
      if maxParticipants ≤ round.participantCount ∧ entered = false then
        return (.capacity, round, none)
      else
        return (.accepted option 1 false,
          round.vote (!entered) input option 1, none)

/-- Route a command to the current generation of a running
competition. -/
def command (round : Round) (definition : Definition)
    (state : LifecycleState) (option : Option String)
    (input : CommandParticipation) :
    Except DatabaseError
      (ParticipationOutcome × Round × Option (String × Nat)) :=
  match round.contributions[input.eventIdentity]? with
  | some prior =>
    if prior.participantId = input.participantId
        ∧ option = some prior.optionId then
      .ok (.duplicate prior.optionId, round, none)
    else .ok (.identityConflict, round, none)
  | none =>
    if state.lifecycle ≠ .active ∨ state.isDue input.receivedAt then
      match option with
      | some option =>
        let (outcome, round) :=
          round.recordIgnoredCommand input.eventIdentity
            { participantId := input.participantId
              optionId := option
              createdAt := input.receivedAt } .closed
        .ok (outcome, round, none)
      | none => .ok (.closed, round, none)
    else
      match option with
      | none => .ok (.unknownCommand, round, none)
      | some option => round.voteFor definition input option

-- ==== scores

/-- Route a like or a share to the current generation of a running
competition. -/
def score (round : Round) (state : LifecycleState)
    (input : ScoredInput) : ScoredOutcome × Round :=
  let key : SourceKey := toLex (input.source, input.eventIdentity)
  match round.scored[key]? with
  | some prior =>
    if prior.participantId = input.participantId
        ∧ prior.score = input.score then (.duplicate, round)
    else (.identityConflict, round)
  | none =>
    let admits := state.lifecycle = .active ∧ ¬ state.isDue input.receivedAt
    let option :=
      if admits then
        round.participants[input.participantId]?.map (·.optionId)
      else none
    let outcome :=
      if ¬ admits then .closed
      else
        match option with
        | some optionId => .accepted optionId
        | none => .unassigned
    if maxContributions ≤ round.contributionCount then
      (.capacity, round)
    else
      let counted := round.count false
      (outcome, { counted with
        scored := counted.scored.insert key
          { participantId := input.participantId
            optionId := option
            score := input.score
            createdAt := input.receivedAt } })

-- ==== gifts

/-- What a packet adds to its streak. No diamonds means no trustworthy
price was supplied. -/
structure GiftDelta where
  quantity : Nat
  diamonds : Option Nat
  deriving DecidableEq, Repr

/-- The quantity and the diamonds a streak has reached, counting a new
streak. -/
def openCombo (round : Round) (key : ComboKey) :
    Except DatabaseError (ComboRow × Round) :=
  match round.combos[key]? with
  | some combo => .ok (combo, round)
  | none => do
    ensure (round.comboCount.getD 0 < 100000)
      (.invalid "gift combo capacity exceeded")
    return (⟨0, 0⟩, { round with
      comboCount := some (round.comboCount.getD 0 + 1) })

/-- The diamonds of a streak at a price. -/
def comboTarget (quantity : Nat) (price : Option Nat) :
    Except DatabaseError (Option Nat) :=
  match price with
  | none => .ok none
  | some price => do
    let target ← okOr (checkedMul quantity price)
      (.invalid "gift diamonds overflow")
    return some target

/-- Move the high-water mark of a streak to what a packet observed. -/
def advanceCombo (round : Round) (competition : String)
    (generation : Nat) (participant gift group : String)
    (observedQuantity : Nat) (price : Option Nat) :
    Except DatabaseError (GiftDelta × Round) := do
  ensure (bounded competition 128 ∧ bounded participant 512
      ∧ bounded gift 128 ∧ bounded group 128 ∧ observedQuantity ≠ 0)
    (.invalid "invalid gift combo identity")
  ensure (generation ≤ i64Max) (.invalid "invalid generation")
  let key := comboKey participant gift group
  let (previous, round) ← round.openCombo key
  let quantity := max previous.quantity observedQuantity
  let target ← comboTarget quantity price
  let diamonds := target.map fun target => target - previous.diamonds
  let high := target.elim previous.diamonds fun target =>
    max target previous.diamonds
  return ({ quantity := quantity - previous.quantity, diamonds },
    { round with combos := round.combos.insert key ⟨quantity, high⟩ })

/-- The difference a gift packet makes, after its price was found to be
the one of its streak. -/
def giftDelta (round : Round) (id : String) (generation : Nat)
    (input : GiftInput) : Except DatabaseError (GiftDelta × Round) := do
  let key := comboKey input.participantId input.giftId input.groupId
  let previousPrice := round.comboPrices[key]?
  ensure (∀ price ∈ previousPrice, price = input.price)
    (.invalid "gift combo price changed")
  ensure (¬ (previousPrice = none ∧ 1 < input.observedQuantity))
    (.invalid "gift combo began before observation")
  let round :=
    if previousPrice = none then
      { round with comboPrices := round.comboPrices.insert key input.price }
    else round
  round.advanceCombo id generation input.participantId input.giftId
    input.groupId input.observedQuantity (some input.price)

/-- The score of what a packet adds; one that adds nothing is not
scored. -/
def giftScore (delta : GiftDelta) (input : GiftInput)
    (score : Nat → Nat → String → Except DatabaseError Nat) :
    Except DatabaseError Nat :=
  if delta.quantity = 0 then .ok 0
  else do
    let diamonds ← okOr delta.diamonds (.invalid "gift price missing")
    score delta.quantity diamonds input.giftId

def giftReceipt (input : GiftInput) : GiftReceiptRow :=
  { participantId := input.participantId
    giftId := input.giftId
    groupId := input.groupId
    observedQuantity := input.observedQuantity
    price := input.price }

/-- What a new gift packet counts for. -/
def giftOutcome (definition : Definition) (state : LifecycleState)
    (input : GiftInput) (assigned : Option String) (score : Nat) :
    GiftOutcome :=
  if state.lifecycle ≠ .active ∨ state.isDue input.receivedAt then .closed
  else if score = 0 then .zero
  else
    match (definition.optionForGift input.giftId).or assigned with
    | some optionId => .accepted optionId score
    | none => .unassigned

/-- Write the receipt of a gift packet, and its score under the option
it is credited to. -/
def receiveGift (round : Round) (input : GiftInput)
    (newParticipant : Bool) (credited : Option (String × Nat)) :
    Except DatabaseError Round := do
  let counted := round.count newParticipant
  let received := { counted with
    giftReceipts := counted.giftReceipts.insert input.eventIdentity
      (giftReceipt input) }
  match credited with
  | none => return received
  | some (option, score) => do
    let key : SourceKey := toLex ("tiktok.gift", input.eventIdentity)
    ensure (received.scored[key]? = none) .constraint
    return { received with
      scored := received.scored.insert key
        { participantId := input.participantId
          optionId := some option
          score
          createdAt := input.receivedAt } }

/-- Admit a gift packet whose outcome is known. A credited packet makes
its sender a participant; past the limit the whole packet is rolled
back. -/
def admitGift (before round : Round) (input : GiftInput)
    (outcome : GiftOutcome) :
    Except DatabaseError (GiftOutcome × Round) :=
  match outcome with
  | .accepted option score =>
    if round.participants[input.participantId]? ≠ none
        ∨ round.giftParticipants[input.participantId]? ≠ none then do
      let round ← round.receiveGift input false (some (option, score))
      return (outcome, round)
    else if maxParticipants ≤ round.participantCount then
      .ok (.capacity, before)
    else do
      let entered := { round with
        giftParticipants :=
          round.giftParticipants.insert input.participantId () }
      let round ← entered.receiveGift input true (some (option, score))
      return (outcome, round)
  | outcome => do
    let round ← round.receiveGift input false none
    return (outcome, round)

/-- Route a gift to the current generation of a running competition. -/
def gift (round : Round) (id : String)
    (definition : Except DatabaseError Definition)
    (state : LifecycleState) (input : GiftInput)
    (score : Nat → Nat → String → Except DatabaseError Nat) :
    Except DatabaseError (GiftOutcome × Round) :=
  match round.giftReceipts[input.eventIdentity]? with
  | some prior =>
    if prior = giftReceipt input then .ok (.duplicate, round)
    else .ok (.identityConflict, round)
  | none =>
    if maxContributions ≤ round.contributionCount then
      .ok (.capacity, round)
    else do
      let (delta, after) ← round.giftDelta id state.generation input
      let points ← giftScore delta input score
      let definition ← definition
      let assigned :=
        round.participants[input.participantId]?.map (·.optionId)
      round.admitGift after input
        (giftOutcome definition state input assigned points)

end Round

-- ==== routes

variable {T : Type} (S : Codec T)

/-- The definition and state texts of a competition whose ranking
belongs to the creator's room. -/
def Store.competitionIn (store : Store T) (id creatorId roomId : String) :
    Option (DefinitionRow T × T) := do
  let row ← store.definitions[id]?
  let text ← store.states[id]?
  let place ← store.aggregations[row.rankingId]?
  if place = ⟨creatorId, roomId⟩ then some (row, text) else none

/-- A running competition is routed to only by its owner. -/
def Store.admit (store : Store T) (id : String) (state : LifecycleState)
    (owner : Option String) : Except DatabaseError Unit := do
  ensure (state.generation ≤ i64Max) (.invalid "invalid generation")
  ensure (store.ownedBy id state.generation owner)
    (.invalid "competition owner changed")

/-- Persist a command vote and its replay identity. Nothing is answered
where there is no such competition. The last component is what the
participant of an accepted command held before. -/
def routeCompetitionCommandWithPrevious (lower : String → String)
    (store : Store T) (id : String) (input : CommandParticipation)
    (owner : Option String) :
    Except DatabaseError
      (Store T × Option ParticipationOutcome × Option (String × Nat)) := do
  ensure (bounded input.creatorId 256 ∧ bounded input.roomId 256
      ∧ bounded input.participantId 512 ∧ bounded input.eventIdentity 512
      ∧ input.receivedAt ≤ i64Max)
    (.invalid "invalid participation identity")
  match store.competitionIn id input.creatorId input.roomId with
  | none => return (store, none, none)
  | some (row, text) => do
    let definition ← okOr (S.definition.fromText row.definitionJson) .json
    let state ← okOr (S.state.fromText text) .json
    if ¬ state.lifecycle.running then return (store, some .closed, none)
    else do
      store.admit id state owner
      let (outcome, round, previous) ←
        (store.round id state.generation).command definition state
          (definition.optionForCommand lower input.command) input
      return (store.setRound id state.generation round, some outcome,
        previous)

/-- Admit a like or a share and its identity. -/
def routeCompetitionScore (store : Store T) (id : String)
    (input : ScoredInput) (owner : Option String) :
    Except DatabaseError (Store T × Option ScoredOutcome) := do
  ensure (bounded input.creatorId 256 ∧ bounded input.roomId 256
      ∧ bounded input.participantId 512 ∧ bounded input.eventIdentity 512
      ∧ input.source ∈ ["tiktok.like", "tiktok.share"]
      ∧ input.score ≠ 0 ∧ input.receivedAt ≤ i64Max)
    (.invalid "invalid scored participation")
  match store.competitionIn id input.creatorId input.roomId with
  | none => return (store, none)
  | some (_, text) => do
    let state ← okOr (S.state.fromText text) .json
    if ¬ state.lifecycle.running then return (store, some .closed)
    else do
      store.admit id state owner
      let (outcome, round) :=
        (store.round id state.generation).score state input
      return (store.setRound id state.generation round, some outcome)

/-- Admit a gift packet, the mark of its streak and the score that
follows. -/
def routeCompetitionGift (store : Store T) (id : String)
    (input : GiftInput) (owner : String)
    (score : Nat → Nat → String → Except DatabaseError Nat) :
    Except DatabaseError (Store T × Option GiftOutcome) := do
  ensure (bounded input.creatorId 256 ∧ bounded input.roomId 256
      ∧ bounded input.participantId 512 ∧ bounded input.eventIdentity 512
      ∧ bounded input.giftId 128 ∧ bounded input.groupId 128
      ∧ input.observedQuantity ≠ 0 ∧ input.price ≠ 0
      ∧ input.receivedAt ≤ i64Max ∧ owner ≠ "")
    (.invalid "invalid gift contribution")
  match store.competitionIn id input.creatorId input.roomId with
  | none => return (store, none)
  | some (row, text) => do
    let state ← okOr (S.state.fromText text) .json
    if ¬ state.lifecycle.running then return (store, some .closed)
    else do
      store.admit id state (some owner)
      let (outcome, round) ←
        (store.round id state.generation).gift id
          (okOr (S.definition.fromText row.definitionJson) .json) state
          input score
      return (store.setRound id state.generation round, some outcome)

-- ==== spec lemmas

/-- The competition's definition row and the lifecycle its state reads
back as. -/
def Store.reads (store : Store T) (id : String) (row : DefinitionRow T)
    (state : LifecycleState) : Prop :=
  store.definitions[id]? = some row
    ∧ store.states[id]?.bind S.state.fromText = some state

variable {store : Store T} {id : String}

theorem Store.competitionIn_reads {ci roomId : String}
    {row : DefinitionRow T} {text : T} {state : LifecycleState}
    (h : store.competitionIn id ci roomId = some (row, text))
    (hr : S.state.fromText text = some state) :
    store.reads S id row state := by
  obtain ⟨row', hrow, h⟩ := Option.bind_eq_some_iff.1 h
  obtain ⟨text', ht, h⟩ := Option.bind_eq_some_iff.1 h
  obtain ⟨place, -, h⟩ := Option.bind_eq_some_iff.1 h
  split at h
  · cases h
    refine ⟨hrow, ?_⟩
    rw [ht]
    exact hr
  · cases h

/-- The competition is found, but it is not running. -/
def Store.atRest (store : Store T) (id : String) : Prop :=
  ∃ row state, store.reads S id row state ∧ state.lifecycle.running = false

variable {owner : Option String} {next : Store T}

/-- A command is not for this competition, finds it closed, or is
answered from the rows of its generation. -/
theorem route_command_cases {lower : String → String}
    {input : CommandParticipation} {answer : Option ParticipationOutcome}
    {previous : Option (String × Nat)}
    (h : routeCompetitionCommandWithPrevious S lower store id input owner
      = .ok (next, answer, previous)) :
    (next = store ∧ previous = none
        ∧ (answer = none ∨ answer = some .closed ∧ store.atRest S id))
      ∨ ∃ row definition state outcome round,
        store.reads S id row state
          ∧ S.definition.fromText row.definitionJson = some definition
          ∧ state.lifecycle.running = true
          ∧ bounded input.participantId 512 = true
          ∧ (store.round id state.generation).command definition state
              (definition.optionForCommand lower input.command) input
            = .ok (outcome, round, previous)
          ∧ next = store.setRound id state.generation round
          ∧ answer = some outcome := by
  obtain ⟨hbds, h⟩ := ensure_ok.1 h
  split at h
  · cases h
    exact .inl ⟨rfl, rfl, .inl rfl⟩
  · next row text hf =>
    obtain ⟨definition, hdef, h⟩ := okOr_ok.1 h
    obtain ⟨state, hrd, h⟩ := okOr_ok.1 h
    have hr := store.competitionIn_reads S hf hrd
    split at h
    · next hrs =>
      cases h
      exact .inl ⟨rfl, rfl, .inr ⟨rfl, row, state, hr,
        Bool.eq_false_iff.2 hrs⟩⟩
    · next hru =>
      obtain ⟨_, -, h⟩ := bind_eq_ok.1 h
      obtain ⟨⟨outcome, round, prior⟩, hrn, h⟩ := bind_eq_ok.1 h
      cases h
      exact .inr ⟨row, definition, state, outcome, round, hr,
        hdef, Decidable.not_not.1 hru, hbds.2.2.1, hrn,
        rfl, rfl⟩

theorem route_score_cases {input : ScoredInput}
    {answer : Option ScoredOutcome}
    (h : routeCompetitionScore S store id input owner = .ok (next, answer)) :
    (next = store
        ∧ (answer = none ∨ answer = some .closed ∧ store.atRest S id))
      ∨ ∃ row state,
        store.reads S id row state ∧ state.lifecycle.running = true
          ∧ input.source ∈ ["tiktok.like", "tiktok.share"]
          ∧ next = store.setRound id state.generation
            ((store.round id state.generation).score state input).2
          ∧ answer = some
            ((store.round id state.generation).score state input).1 := by
  obtain ⟨hbds, h⟩ := ensure_ok.1 h
  split at h
  · cases h
    exact .inl ⟨rfl, .inl rfl⟩
  · next row text hf =>
    obtain ⟨state, hrd, h⟩ := okOr_ok.1 h
    have hr := store.competitionIn_reads S hf hrd
    split at h
    · next hrs =>
      cases h
      exact .inl ⟨rfl, .inr ⟨rfl, row, state, hr, Bool.eq_false_iff.2 hrs⟩⟩
    · next hrn =>
      obtain ⟨_, -, h⟩ := bind_eq_ok.1 h
      cases h
      exact .inr ⟨row, state, hr, Decidable.not_not.1 hrn,
        hbds.2.2.2.2.1, rfl, rfl⟩

theorem route_gift_cases {input : GiftInput} {owner : String}
    {score : Nat → Nat → String → Except DatabaseError Nat}
    {answer : Option GiftOutcome}
    (h : routeCompetitionGift S store id input owner score
      = .ok (next, answer)) :
    (next = store
        ∧ (answer = none ∨ answer = some .closed ∧ store.atRest S id))
      ∨ ∃ row state outcome round,
        store.reads S id row state ∧ state.lifecycle.running = true
          ∧ bounded input.participantId 512 = true
          ∧ (store.round id state.generation).gift id
              (okOr (S.definition.fromText row.definitionJson) .json) state
              input score = .ok (outcome, round)
          ∧ next = store.setRound id state.generation round
          ∧ answer = some outcome := by
  obtain ⟨hbds, h⟩ := ensure_ok.1 h
  split at h
  · cases h
    exact .inl ⟨rfl, .inl rfl⟩
  · next row text hf =>
    obtain ⟨state, hrd, h⟩ := okOr_ok.1 h
    have hr := store.competitionIn_reads S hf hrd
    split at h
    · next hrs =>
      cases h
      exact .inl ⟨rfl, .inr ⟨rfl, row, state, hr, Bool.eq_false_iff.2 hrs⟩⟩
    · next hru =>
      obtain ⟨_, -, h⟩ := bind_eq_ok.1 h
      obtain ⟨⟨outcome, round⟩, hrn, h⟩ := bind_eq_ok.1 h
      cases h
      exact .inr ⟨row, state, outcome, round, hr,
        Decidable.not_not.1 hru, hbds.2.2.1, hrn, rfl, rfl⟩

end TikTools.Competitions
