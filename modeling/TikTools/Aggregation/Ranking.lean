/-
One ranking of the aggregation engine: its definition, its scores, and
what limits and windows need to know beyond the scores.

Every operation here is on one ranking, and the engine applies it to the
rankings a call concerns. Where the source stops at an error after it
has changed something, the operation is an effect and keeps the change.
-/
import TikTools.Lib.Effect
import TikTools.Aggregation.State

namespace TikTools.Aggregation

open TikTools.Lib Std

structure UserState where
  count : Nat
  lastTime : Nat
  deriving DecidableEq, Repr

/-- A contribution in a rolling window: when, for which key, how much. -/
abbrev WindowEvent := Nat × String × Nat

structure Ranking where
  definition : Definition
  /-- Number of the ranking within this engine. -/
  number : Nat
  instanceId : String
  state : Aggregation
  paused : Bool
  rejected : Nat
  dropped : Nat
  windowEvents : List WindowEvent
  lastTime : Nat
  users : Table String UserState
  limited : Nat
  cooldownRejected : Nat

inductive UserDecision where
  | allowed
  | limited
  | cooldown
  deriving DecidableEq, Repr

/-- The rules a competition may have besides its votes. -/
def assignable (rule : SourceRule) : Bool :=
  [("competition.vote", "event.count"), ("tiktok.like", "like.count"),
    ("tiktok.like", "event.count"), ("tiktok.share", "share.count"),
    ("tiktok.share", "event.count"), ("tiktok.gift", "gift.count"),
    ("tiktok.gift", "gift.diamonds"), ("tiktok.gift", "event.count")].contains
      (rule.source, rule.metric)
  && (rule.source = "tiktok.gift" || rule.giftMultipliers = [])

namespace Definition

/-- Weight of a vote of the durable vote projection. -/
def assignmentWeight (definition : Definition) : Except Error Nat := do
  ensure (definition.groupBy = .option ∧ definition.window = .session
    ∧ definition.userLimits = none
    ∧ definition.sources.all assignable) .incompatibleDefinition
  (definition.sources.filter fun rule =>
    rule.enabled && rule.source = "competition.vote").foldlM
      (fun sum rule => okOr (checkedAdd sum rule.weight) .overflow) 0

/-- Whether the scores of the ranking are votes. -/
def voted (definition : Definition) : Bool :=
  definition.sources.any fun rule => rule.source = "competition.vote"

end Definition

namespace Ranking

/-- Count a refused contribution. -/
def reject (ranking : Ranking) : Ranking :=
  { ranking with rejected := saturatingAdd ranking.rejected 1 }

/-- Advance the revision, where it can be. -/
def touched (state : Aggregation) : Aggregation :=
  match state.touch with
  | .ok next => next
  | .error _ => state

/-- Count a refused contribution and show it. -/
def fault (ranking : Ranking) : Ranking :=
  { ranking.reject with state := touched ranking.state }

-- ==== windows

def dayOf (utcOffsetMinutes : Int) (time : Nat) : Int :=
  min (min time i64Max + utcOffsetMinutes * 60000) i64Max / 86400000

def expireDaily (utcOffsetMinutes : Int) (now : Nat) :
    Effect Ranking Error Unit := do
  let previous ← Effect.look fun ranking => .ok ranking.lastTime
  Effect.change fun ranking =>
    .ok { ranking with lastTime := max previous now }
  if previous ≠ 0 ∧ dayOf utcOffsetMinutes (max previous now)
      ≠ dayOf utcOffsetMinutes previous then
    Effect.change fun ranking => do
      let state ← ranking.state.reset
      return { ranking with
        state, users := ∅, rejected := 0, dropped := 0, limited := 0
        cooldownRejected := 0 }

/-- Take out the contributions at the front that left the window. -/
def expireRolling (durationMs : Nat) :
    List WindowEvent → Effect Ranking Error Unit
  | [] => pure ()
  | (at_, key, amount) :: rest => do
    let last ← Effect.look fun ranking => .ok ranking.lastTime
    if last - at_ < durationMs then pure ()
    else
      Effect.change fun ranking => do
        let state ← ranking.state.expire key amount
        return { ranking with state, windowEvents := rest }
      expireRolling durationMs rest

def expireRanking (now : Nat) : Effect Ranking Error Unit := fun ranking =>
  match ranking.definition.window with
  | .daily utcOffsetMinutes => expireDaily utcOffsetMinutes now ranking
  | .session =>
    (.ok (), { ranking with lastTime := max ranking.lastTime now })
  | .rolling durationMs _ =>
    expireRolling durationMs ranking.windowEvents
      { ranking with lastTime := max ranking.lastTime now }

-- ==== contributions

def userDecision (ranking : Ranking) (user : Option String) :
    Except Error UserDecision :=
  match ranking.definition.userLimits with
  | none => .ok .allowed
  | some limits => do
    let user ← okOr (user.filter validKey) .invalidKey
    match ranking.users[user]? with
    | some known =>
      if limits.maxContributions.any fun max => known.count ≥ max then
        return .limited
      if limits.cooldownMs.any fun cooldown =>
          ranking.lastTime - known.lastTime < cooldown then
        return .cooldown
      let _ ← okOr (checkedAdd known.count 1) .overflow
      return .allowed
    | none =>
      ensure (ranking.users.size < limits.maxUsers) .capacity
      return .allowed
where
  validKey (user : String) : Bool := Aggregation.validKey user

/-- The key a contribution counts for. -/
def groupKey (groupBy : GroupBy) (contribution : Contribution) :
    Option String :=
  match groupBy with
  | .user => contribution.user
  | .gift => contribution.gift
  | .eventType => some contribution.source
  | .option => contribution.option
  | .team => contribution.team
  | .customKey => contribution.customKey

def Full (ranking : Ranking) : Prop :=
  match ranking.definition.window with
  | .rolling _ maxEvents => ranking.windowEvents.length ≥ maxEvents
  | _ => False

instance (ranking : Ranking) : Decidable ranking.Full := by
  unfold Full
  split <;> infer_instance

/-- The display data of a key comes from what the key is. -/
def entryMetadata (groupBy : GroupBy) (user gift : Option EntryMetadata) :
    Option EntryMetadata :=
  match groupBy with
  | .user => user
  | .gift => gift
  | _ => none

/-- An accepted contribution of a user. -/
def countUser (ranking : Ranking) (user : Option String) :
    Table String UserState :=
  match ranking.definition.userLimits, user with
  | some _, some user =>
    ranking.users.insert user {
      count := (ranking.users[user]?.elim 0 UserState.count) + 1
      lastTime := ranking.lastTime }
  | _, _ => ranking.users

def windowWith (ranking : Ranking) (key : String) (score : Nat) :
    List WindowEvent :=
  match ranking.definition.window with
  | .rolling _ _ => ranking.windowEvents ++ [(ranking.lastTime, key, score)]
  | _ => ranking.windowEvents

def accept (ranking : Ranking) (contribution : Contribution) (key : String)
    (score : Nat) (user gift : Option EntryMetadata) :
    Except Error Ranking := do
  let state ← ranking.state.apply key score 1
  return { ranking with
    state := match entryMetadata ranking.definition.groupBy user gift with
      | some data => state.updateMetadata key data
      | none => state
    users := countUser ranking contribution.user
    windowEvents := windowWith ranking key score }

/-- Score a contribution and add it, all of it or nothing. -/
def account (ranking : Ranking) (contribution : Contribution)
    (user gift : Option EntryMetadata) : Except Error Ranking := do
  let value ← score ranking.definition.sources contribution
  if value = 0 then return ranking
  let key ← okOr (groupKey ranking.definition.groupBy contribution)
    .invalidKey
  ensure (¬ ranking.Full) .windowCapacity
  match ← ranking.userDecision contribution.user with
  | .limited =>
    let state ← ranking.state.touch
    return { ranking with
      state, limited := saturatingAdd ranking.limited 1 }
  | .cooldown =>
    let state ← ranking.state.touch
    return { ranking with
      state
      cooldownRejected := saturatingAdd ranking.cooldownRejected 1 }
  | .allowed => ranking.accept contribution key value user gift

def InScope (ranking : Ranking) (creatorId roomId : String) : Prop :=
  ¬ ranking.paused ∧ ranking.definition.creatorId = creatorId
    ∧ ranking.definition.roomId = roomId

instance (ranking : Ranking) (creatorId roomId : String) :
    Decidable (ranking.InScope creatorId roomId) :=
  inferInstanceAs (Decidable (_ ∧ _ ∧ _))

/-- One turn of `apply_at_with_metadata`: the ranking afterwards and the
failure to report. -/
def contribute (ranking : Ranking) (contribution : Contribution)
    (now : Nat) (user gift : Option EntryMetadata) :
    Ranking × Option Error :=
  if ¬ ranking.InScope contribution.creatorId contribution.roomId then
    (ranking, none)
  else match expireRanking now ranking with
    | (.error error, expired) => (expired.reject, some error)
    | (.ok (), expired) =>
      -- routed competition sources are handled by the native adapter
      if contribution.option = none ∧ expired.definition.voted then
        (expired, none)
      else match expired.account contribution user gift with
        | .error error => (expired.fault, some error)
        | .ok next => (next, none)

-- ==== votes

/-- Apply amounts to the keys of a list that names each key once. -/
def applyOnce (weight : Nat) : List (String × Nat) → List String →
    Aggregation → Except Error Aggregation
  | [], _, state => .ok state
  | (option, amount) :: rest, seen, state => do
    ensure (option ∉ seen) .invalidKey
    let state ← state.apply option amount weight
    applyOnce weight rest (option :: seen) state

def restoreAssignmentsWithScores (ranking : Ranking)
    (totals scored : List (String × Nat)) : Except Error Ranking := do
  let weight ← ranking.definition.assignmentWeight
  let revision ← okOr (checkedAdd ranking.state.revision 1) .overflow
  let votes ← applyOnce weight totals []
    (Aggregation.new ranking.definition.capacity)
  let candidate ← applyOnce 1 scored [] votes
  return { ranking with state := { candidate with revision } }

/-- Do as an operation says, or show that it failed. -/
def orFault (change : Ranking → Except Error Ranking) :
    Effect Ranking Error Unit := fun ranking =>
  match change ranking with
  | .ok next => (.ok (), next)
  | .error error => (.error error, ranking.fault)

/-- The move of one committed assignment, up to its checks. -/
def assignmentMove (weight oldVotes delta : Nat)
    (oldOption option : String) :
    Except Error (Ranking → Except Error Ranking) :=
  if oldOption = option then
    .ok fun ranking => do
      let state ← ranking.state.apply option delta weight
      return { ranking with state }
  else if weight = 0 then .ok .ok
  else do
    let amount ← okOr (checkedMul oldVotes weight) .overflow
    let additional ← okOr (checkedMul delta weight) .overflow
    return fun ranking => do
      let state ← ranking.state.reassign oldOption option amount additional
      return { ranking with state }

def applyAssignment (before : Option (String × Nat))
    (next : String × Nat) : Effect Ranking Error Unit := do
  let change ← Effect.look fun ranking => do
    let weight ← ranking.definition.assignmentWeight
    ensure (ranking.paused = false) .incompatibleDefinition
    let old := before.getD (next.1, 0)
    let delta ← okOr (checkedSub next.2 old.2) .insufficientScore
    assignmentMove weight old.2 delta old.1 next.1
  orFault change

def applyCommittedScore (option : String) (value : Nat) :
    Effect Ranking Error Unit := do
  Effect.look fun ranking => do
    let _ ← ranking.definition.assignmentWeight
    ensure (ranking.paused = false) .incompatibleDefinition
  orFault fun ranking => do
    let state ← ranking.state.apply option value 1
    return { ranking with state }

-- ==== control

def setEntryMetadata (key : String) (data : EntryMetadata)
    (ranking : Ranking) : Except Error Ranking :=
  if ranking.state.scores[key]? = none then .ok ranking
  else
    let next := (ranking.state.metadata[key]?.getD {}).merge data.bounded
    if ranking.state.metadata[key]? = some next then .ok ranking
    else do
      let state ← ranking.state.touch
      return { ranking with
        state := { state with
          metadata := state.metadata.insert key next } }

def markRankingGap (ranking : Ranking) : Ranking :=
  if ranking.paused then ranking else ranking.fault

/-- A recovery gap counts also while the ranking is paused, and also when
the revision cannot show it. -/
def markRecoveryGap : Effect Ranking Error Unit := do
  Effect.change fun ranking => .ok ranking.reject
  Effect.change fun ranking => do
    let state ← ranking.state.touch
    return { ranking with state }

/-- A gap of a source concerns the running rankings of its scope that
have a rule for which it matters. -/
def markGap (creatorId roomId source : String)
    (concerns : SourceRule → Bool) (ranking : Ranking) : Ranking :=
  if ranking.InScope creatorId roomId
      ∧ (source = "competition.vote" ∨ ranking.definition.voted = false)
      ∧ ranking.definition.sources.any concerns then
    ranking.fault
  else ranking

def markIngressLoss (count : Nat) (ranking : Ranking) : Ranking :=
  if ranking.paused then ranking
  else { ranking with
    dropped := saturatingAdd ranking.dropped count
    state := touched ranking.state }

def reset (ranking : Ranking) : Except Error Ranking := do
  let state ← ranking.state.reset
  return { ranking with
    state, rejected := 0, dropped := 0, windowEvents := [], lastTime := 0
    users := ∅, limited := 0, cooldownRejected := 0 }

def setPaused (paused : Bool) (ranking : Ranking) : Except Error Ranking :=
  if ranking.paused ≠ paused then do
    let state ← ranking.state.touch
    return { ranking with state, paused }
  else .ok ranking

/-- Take over a changed definition. -/
def redefine (definition : Definition) (reset : Bool) (ranking : Ranking) :
    Except Error Ranking :=
  if reset then do
    let cleared ← ranking.reset
    return { cleared with
      state := { cleared.state with capacity := definition.capacity }
      definition }
  else do
    let state ← ranking.state.touch
    return { ranking with state, definition }

-- ==== snapshots

/-- Fill in what the scores alone do not know. -/
def describe (ranking : Ranking) (snapshot : Snapshot) : Snapshot :=
  { snapshot with
    rankingId := ranking.definition.id
    instanceId := some ranking.instanceId
    creatorId := ranking.definition.creatorId
    roomId := ranking.definition.roomId
    window := ranking.definition.window
    rejected := ranking.rejected
    dropped := ranking.dropped
    limited := ranking.limited
    cooldownRejected := ranking.cooldownRejected
    paused := ranking.paused
    integrityStatus := if ranking.rejected > 0 ∨ ranking.dropped > 0
      then "degraded" else snapshot.integrityStatus }

def snapshotUnrankedCapped (ranking : Ranking) (cap : Nat) :
    Snapshot × Nat :=
  let limit := min ranking.definition.limit cap
  (ranking.describe (ranking.state.snapshotCandidates limit), limit)

/-- All entries of the ranking, whatever it displays. -/
def selectionSnapshot (ranking : Ranking) : Snapshot :=
  (ranking.describe (ranking.state.snapshotCandidates
    ranking.definition.capacity)).rank ranking.definition.capacity

end Ranking

end TikTools.Aggregation
