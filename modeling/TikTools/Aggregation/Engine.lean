/-
The aggregation engine: the rankings by id, which rankings a source
concerns, and everything that can be asked of them.

A new ranking gets an instance id of 16 random bytes; the random source
is an argument, absent when it fails. `Engine.Op` lists what the host may
do to an engine, and `Engine.perform` does it.
-/
import TikTools.Aggregation.Ranking

namespace TikTools.Aggregation

open TikTools.Lib Std

inductive DefinitionError where
  | invalid
  | duplicate
  | capacity
  | notFound
  | notPaused
  | resetRequired
  | revisionOverflow
  | identityUnavailable
  deriving DecidableEq, Repr

def Window.valid : Window → Bool
  | .session => true
  | .rolling durationMs maxEvents =>
    durationMs ≠ 0 && maxEvents ≠ 0 && maxEvents ≤ 100000
  | .daily utcOffsetMinutes =>
    -840 ≤ utcOffsetMinutes && utcOffsetMinutes ≤ 840

def UserLimits.valid (limits : UserLimits) : Bool :=
  limits.maxUsers ≠ 0 && limits.maxUsers ≤ 100000
    && limits.maxContributions ≠ some 0 && limits.cooldownMs ≠ some 0
    && (limits.maxContributions ≠ none || limits.cooldownMs ≠ none)

def SourceRule.valid (rule : SourceRule) : Bool :=
  rule.source ≠ "" && rule.weight ≤ 1000000000
    && rule.giftMultipliers.length ≤ 512
    && (rule.giftMultipliers.all fun entry => entry.1 ≠ ""
      && entry.1.utf8ByteSize ≤ 128 && entry.2 ≤ 1000000000)
    && rule.source.utf8ByteSize ≤ 128 && rule.metric ≠ ""
    && rule.metric.utf8ByteSize ≤ 128

def Definition.valid (definition : Definition) : Bool :=
  definition.schemaVersion = 1 && definition.id ≠ ""
    && definition.creatorId ≠ "" && definition.roomId ≠ ""
    && definition.id.utf8ByteSize ≤ 128
    && definition.creatorId.utf8ByteSize ≤ 256
    && definition.roomId.utf8ByteSize ≤ 256
    && definition.sources.length ≤ 64
    && definition.capacity ≤ 100000 && definition.capacity ≠ 0
    && definition.limit ≠ 0 && definition.window.valid
    && definition.userLimits.all UserLimits.valid
    && definition.sources ≠ []
    && (!definition.voted || definition.assignmentWeight.toOption.isSome)
    && definition.sources.all SourceRule.valid

structure Engine where
  rankings : Table String Ranking
  bySource : Table String (List String)
  nextInstance : Nat

structure SessionCheckpoint where
  schemaVersion : Nat
  definition : Definition
  snapshot : Snapshot
  windowEvents : List WindowEvent
  lastTime : Nat
  users : Table String UserState

/-- The 16 bytes of an instance, if the random source gives any. -/
abbrev Identity := Option (Vector UInt8 16)

/-- `{byte:02x}` for every byte. -/
def hexId (bytes : Vector UInt8 16) : String :=
  String.ofList (bytes.toList.flatMap fun byte =>
    [Nat.digitChar (byte.toNat / 16), Nat.digitChar (byte.toNat % 16)])

-- ==== checkpoints

namespace Ranking

def sessionCheckpoint (ranking : Ranking) : SessionCheckpoint where
  schemaVersion := 1
  definition := ranking.definition
  snapshot := ranking.selectionSnapshot
  windowEvents := ranking.windowEvents
  lastTime := ranking.lastTime
  users := ranking.users

def isHexId (id : String) : Bool :=
  id.utf8ByteSize = 32 && id.toList.all fun c => c.isDigit
    || 'a' ≤ c && c ≤ 'f' || 'A' ≤ c && c ≤ 'F'

/-- Whether a snapshot is one of the ranking, before its first change. -/
def fits (ranking : Ranking) (checkpoint : SessionCheckpoint) : Bool :=
  let snapshot := checkpoint.snapshot
  checkpoint.schemaVersion = 1 && ranking.definition = checkpoint.definition
    && ranking.state.revision = 0 && snapshot.schemaVersion = 1
    && snapshot.rankingId = ranking.definition.id
    && snapshot.creatorId = ranking.definition.creatorId
    && snapshot.roomId = ranking.definition.roomId
    && snapshot.window = ranking.definition.window
    && snapshot.instanceId.all isHexId
    && snapshot.entries.length = snapshot.totalParticipants
    && snapshot.entries.length ≤ ranking.definition.capacity
    && (snapshot.integrityStatus = "unknown" && snapshot.rejected = 0
        && snapshot.dropped = 0
      || snapshot.integrityStatus = "degraded"
        && !(snapshot.rejected = 0 && snapshot.dropped = 0))

/-- Count the entries of a snapshot again. -/
def restoreEntries : List Entry → List String → Aggregation →
    Except Error Aggregation
  | [], _, state => .ok state
  | entry :: rest, seen, state => do
    ensure (entry.score ≠ 0 ∧ entry.key ∉ seen) .invalidKey
    let state ← state.apply entry.key entry.score 1
    restoreEntries rest (entry.key :: seen)
      (state.updateMetadata entry.key
        { entry.metadata with label := some entry.label })

/-- What the contributions of a rolling window add up to, in order. -/
def eventTotals (lastTime : Nat) : List WindowEvent → Nat →
    Table String Nat → Except Error (Table String Nat)
  | [], _, totals => .ok totals
  | (at_, key, amount) :: rest, last, totals => do
    ensure (last ≤ at_ ∧ at_ ≤ lastTime ∧ amount ≠ 0) .incompatibleDefinition
    let total ← okOr (checkedAdd (totals[key]?.getD 0) amount) .overflow
    eventTotals lastTime rest at_ (totals.insert key total)

def sameTotals (scores totals : Table String Nat) : Bool :=
  totals.size = scores.size
    && scores.toList.all fun score => totals[score.1]? = some score.2

def checkWindow (definition : Definition) (state : Aggregation)
    (checkpoint : SessionCheckpoint) : Except Error Unit :=
  match definition.window with
  | .rolling _ maxEvents => do
    ensure (checkpoint.windowEvents.length ≤ maxEvents)
      .incompatibleDefinition
    let totals ← eventTotals checkpoint.lastTime checkpoint.windowEvents 0 ∅
    ensure (sameTotals state.scores totals) .incompatibleDefinition
  | _ => ensure (checkpoint.windowEvents = []) .incompatibleDefinition

def checkUsers (definition : Definition) (state : Aggregation)
    (checkpoint : SessionCheckpoint) : Bool :=
  match definition.userLimits with
  | none => checkpoint.users.size = 0
  | some limits =>
    checkpoint.users.size ≤ limits.maxUsers
      && !(state.scores.size ≠ 0 && checkpoint.users.size = 0)
      && checkpoint.users.toList.all fun user =>
        Aggregation.validKey user.1 && user.2.count ≠ 0
          && user.2.lastTime ≤ checkpoint.lastTime
          && limits.maxContributions.all fun max => user.2.count ≤ max

def restoreSessionCheckpoint (checkpoint : SessionCheckpoint)
    (ranking : Ranking) : Except Error Ranking := do
  let snapshot := checkpoint.snapshot
  ensure (ranking.fits checkpoint) .incompatibleDefinition
  let state ← restoreEntries snapshot.entries []
    (Aggregation.new ranking.definition.capacity)
  ensure (state.total = snapshot.totalScore
    ∧ state.revision ≤ snapshot.revision) .incompatibleDefinition
  checkWindow ranking.definition state checkpoint
  ensure (checkUsers ranking.definition state checkpoint)
    .incompatibleDefinition
  return { ranking with
    state := { state with revision := snapshot.revision }
    paused := snapshot.paused
    rejected := snapshot.rejected
    dropped := snapshot.dropped
    limited := snapshot.limited
    cooldownRejected := snapshot.cooldownRejected
    windowEvents := checkpoint.windowEvents
    lastTime := checkpoint.lastTime
    users := checkpoint.users
    instanceId := snapshot.instanceId.getD ranking.instanceId }

end Ranking

namespace Engine

def empty : Engine := ⟨∅, ∅, 0⟩

/-- Name a ranking under every source it counts. -/
def indexSources (bySource : Table String (List String))
    (definition : Definition) : Table String (List String) :=
  definition.sources.foldl (fun index rule =>
    let ids := index[rule.source]?.getD []
    index.insert rule.source
      (if definition.id ∈ ids then ids else ids ++ [definition.id])) bySource

/-- No longer name a ranking under any source. -/
def dropSources (bySource : Table String (List String)) (id : String) :
    Table String (List String) :=
  Table.retain (fun _ ids => ids ≠ [])
    (ExtTreeMap.map (fun _ ids => ids.filter (· ≠ id)) bySource)

def create (identity : Identity) (definition : Definition) :
    Effect Engine DefinitionError Unit := do
  Effect.look fun engine => ensure (engine.rankings.size < 128) .capacity
  Effect.look fun _ => ensure definition.valid .invalid
  Effect.look fun engine =>
    ensure (engine.rankings[definition.id]?.isNone) .duplicate
  let bytes ← Effect.lift (okOr identity .identityUnavailable)
  Effect.change fun engine =>
    .ok { engine with bySource := indexSources engine.bySource definition }
  Effect.change fun engine => do
    let number ← okOr (checkedAdd engine.nextInstance 1) .revisionOverflow
    return { engine with
      nextInstance := number
      rankings := engine.rankings.insert definition.id {
        definition, number
        instanceId := hexId bytes
        state := Aggregation.new definition.capacity
        paused := false
        rejected := 0
        dropped := 0
        windowEvents := []
        lastTime := 0
        users := ∅
        limited := 0
        cooldownRejected := 0 } }

/-- A changed definition is one that could be created; the ranking is
paused, and counts anew where the change is not one of display only. -/
def validateUpdate (identity : Identity) (definition : Definition)
    (reset : Bool) (engine : Engine) : Except DefinitionError Unit := do
  (create identity definition empty).1
  let current ← okOr engine.rankings[definition.id]? .notFound
  ensure (current.paused = true) .notPaused
  ensure ({ current.definition with limit := definition.limit } = definition
    ∨ reset) .resetRequired
  ensure (current.state.revision ≠ u64Max) .revisionOverflow

def update (identity : Identity) (definition : Definition)
    (reset : Bool) : Effect Engine DefinitionError Unit := do
  Effect.look (validateUpdate identity definition reset)
  Effect.change fun engine => .ok { engine with
    bySource := indexSources (dropSources engine.bySource definition.id)
      definition }
  Effect.change fun engine => do
    let ranking ← okOr engine.rankings[definition.id]? .notFound
    match ranking.redefine definition reset with
    | .ok next => return { engine with
        rankings := engine.rankings.insert definition.id next }
    | .error _ => .error .revisionOverflow

/-- Do something to one ranking. -/
def within (id : String) (act : Effect Ranking Error Unit) :
    Effect Engine Error Unit := fun engine =>
  match engine.rankings[id]? with
  | none => (.error .notFound, engine)
  | some ranking =>
    let result := act ranking
    (result.1, { engine with
      rankings := engine.rankings.insert id result.2 })

/-- Do something to the rankings a source names, in their order. -/
def forSource (source : String) (act : Ranking → Ranking × Option Error)
    (engine : Engine) : Engine × List (String × Error) :=
  (engine.bySource[source]?.getD []).foldl (fun (engine, failures) id =>
    match engine.rankings[id]? with
    | none => (engine, failures)
    | some ranking =>
      let result := act ranking
      ({ engine with rankings := engine.rankings.insert id result.1 },
        failures ++ result.2.toList.map fun error => (id, error)))
    (engine, [])

/-- `apply_at_with_metadata`. -/
def applyAt (contribution : Contribution) (now : Nat)
    (user gift : Option EntryMetadata) (engine : Engine) :
    Engine × List (String × Error) :=
  engine.forSource contribution.source fun ranking =>
    ranking.contribute contribution now user gift

/-- Do something to every ranking. -/
def forAll (act : Ranking → Ranking) (engine : Engine) : Engine :=
  { engine with
    rankings := ExtTreeMap.map (fun _ ranking => act ranking)
      engine.rankings }

def expireAt (now : Nat) (engine : Engine) : Engine :=
  engine.forAll fun ranking =>
    match Ranking.expireRanking now ranking with
    | (.ok (), expired) => expired
    | (.error _, expired) => expired.reject

def markIngressLoss (count : Nat) (engine : Engine) : Engine :=
  if count = 0 then engine
  else engine.forAll (Ranking.markIngressLoss count)

def remove (id : String) (engine : Engine) : Engine :=
  if engine.rankings[id]?.isNone then engine
  else { engine with
    rankings := engine.rankings.erase id
    bySource := dropSources engine.bySource id }

/-- `snapshot_unranked_capped` and the ranking of its entries. -/
def snapshotCapped (engine : Engine) (id : String) (cap : Nat) :
    Option Snapshot :=
  engine.rankings[id]?.map fun ranking =>
    let candidates := ranking.snapshotUnrankedCapped cap
    candidates.1.rank candidates.2

def snapshot (engine : Engine) (id : String) : Option Snapshot :=
  engine.snapshotCapped id u64Max

-- ==== runs

/-- What the host may do to an engine. -/
inductive Op where
  | create (identity : Identity) (definition : Definition)
  | update (identity : Identity) (definition : Definition) (reset : Bool)
  | restoreSessionCheckpoint (checkpoint : SessionCheckpoint)
  | restoreAssignments (id : String) (totals scored : List (String × Nat))
  | applyAssignment (id : String) (before : Option (String × Nat))
      (next : String × Nat)
  | applyCommittedScore (id option : String) (value : Nat)
  | setEntryMetadata (id key : String) (data : EntryMetadata)
  | apply (contribution : Contribution) (now : Nat)
      (user gift : Option EntryMetadata)
  | expireAt (now : Nat)
  | markRankingGap (id : String)
  | markRecoveryGap (id : String)
  | markGap (creatorId roomId source : String)
  | markMetricGap (creatorId roomId source metric : String)
  | markIngressLoss (count : Nat)
  | reset (id : String)
  | setPaused (id : String) (paused : Bool)
  | remove (id : String)

/-- The engine after an operation, whether it succeeded or not. -/
def perform (engine : Engine) : Op → Engine
  | .create identity definition => (create identity definition engine).2
  | .update identity definition reset =>
    (update identity definition reset engine).2
  | .restoreSessionCheckpoint checkpoint =>
    (within checkpoint.definition.id (Effect.change
      (Ranking.restoreSessionCheckpoint checkpoint)) engine).2
  | .restoreAssignments id totals scored =>
    (within id (Effect.change fun ranking =>
      ranking.restoreAssignmentsWithScores totals scored) engine).2
  | .applyAssignment id before next =>
    (within id (Ranking.applyAssignment before next) engine).2
  | .applyCommittedScore id option value =>
    (within id (Ranking.applyCommittedScore option value) engine).2
  | .setEntryMetadata id key data =>
    (within id (Effect.change (Ranking.setEntryMetadata key data)) engine).2
  | .apply contribution now user gift =>
    (applyAt contribution now user gift engine).1
  | .expireAt now => expireAt now engine
  | .markRankingGap id =>
    (within id (Effect.change fun ranking => .ok ranking.markRankingGap)
      engine).2
  | .markRecoveryGap id => (within id Ranking.markRecoveryGap engine).2
  | .markGap creatorId roomId source =>
    (engine.forSource source fun ranking =>
      (ranking.markGap creatorId roomId source fun rule =>
        rule.enabled && rule.source = source, none)).1
  | .markMetricGap creatorId roomId source metric =>
    (engine.forSource source fun ranking =>
      (ranking.markGap creatorId roomId source fun rule =>
        rule.enabled && rule.weight > 0 && rule.source = source
          && rule.metric = metric, none)).1
  | .markIngressLoss count => markIngressLoss count engine
  | .reset id => (within id (Effect.change Ranking.reset) engine).2
  | .setPaused id paused =>
    (within id (Effect.change (Ranking.setPaused paused)) engine).2
  | .remove id => remove id engine

/-- What an engine can come to hold. -/
inductive Reachable : Engine → Prop where
  | empty : Reachable empty
  | perform {engine : Engine} (op : Op) :
      Reachable engine → Reachable (engine.perform op)

end Engine

end TikTools.Aggregation
