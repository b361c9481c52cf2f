/-
The competition store: the ledger's tables together with everything a
generation records while it runs, and the operations on them that move a
competition through its life.

Every table of participation has the competition and the generation at
the head of its key, so the rows of one generation are one record here,
a `Round`; a row missing from every table is the empty round. Deleting a
competition deletes all of its rounds.

Each operation is one transaction: it answers with an error and changes
nothing, or with the store it commits. Counters are natural numbers
(the columns start at zero and only ever grow), and the decimal texts of
64-bit words are kept as the numbers they are.
-/
import TikTools.Competitions.Lifecycle

namespace TikTools.Competitions

open TikTools.Lib

-- ==== rounds

inductive Checkpoint where
  | open | clean | degraded
  deriving DecidableEq, Repr

/-- How many took part and how many events were received. -/
structure Counts where
  participants : Nat
  contributions : Nat
  deriving DecidableEq, Repr

structure ParticipantRow where
  optionId : String
  votes : Nat
  updatedAt : Nat
  deriving DecidableEq, Repr

structure ContributionRow where
  participantId : String
  optionId : String
  createdAt : Nat
  deriving DecidableEq, Repr

structure ScoredRow where
  participantId : String
  optionId : Option String
  score : Nat
  createdAt : Nat
  deriving DecidableEq, Repr

structure GiftReceiptRow where
  participantId : String
  giftId : String
  groupId : String
  observedQuantity : Nat
  price : Nat
  deriving DecidableEq, Repr

structure ComboRow where
  quantity : Nat
  diamonds : Nat
  deriving DecidableEq, Repr

/-- A source and the identity of an event of it. -/
abbrev SourceKey := String ×ₗ String

/-- A participant, a gift and the group its streak belongs to. -/
abbrev ComboKey := String ×ₗ String ×ₗ String

def comboKey (participant gift group : String) : ComboKey :=
  toLex (participant, toLex (gift, group))

/-- The rows of one competition generation. -/
structure Round where
  checkpoint : Option Checkpoint := none
  counts : Option Counts := none
  participants : Table String ParticipantRow := ∅
  contributions : Table String ContributionRow := ∅
  scored : Table SourceKey ScoredRow := ∅
  giftReceipts : Table String GiftReceiptRow := ∅
  giftParticipants : Table String Unit := ∅
  comboPrices : Table ComboKey Nat := ∅
  combos : Table ComboKey ComboRow := ∅
  comboCount : Option Nat := none

/-- The creator and the room a ranking aggregates. -/
structure Place where
  creatorId : String
  roomId : String
  deriving DecidableEq, Repr

structure Store (T : Type) extends Db T where
  aggregations : Table String Place := ∅
  rounds : Table Scope Round := ∅

variable {T : Type} (S : Codec T)

/-- The rows of a generation; empty where nothing was recorded. -/
def Store.round (store : Store T) (id : String) (generation : Nat) :
    Round :=
  store.rounds[scope id generation]?.getD {}

def Store.setRound (store : Store T) (id : String) (generation : Nat)
    (round : Round) : Store T :=
  { store with rounds := store.rounds.insert (scope id generation) round }

/-- The lifecycle of a state text. -/
def lifecycleOf (text : T) : Option Lifecycle :=
  (S.state.fromText text).map (·.lifecycle)

/-- The competition has a stored result, of whatever generation. -/
def Db.hasResult (db : Db T) (id : String) : Bool :=
  db.results.toList.any fun row => (ofLex row.1).1 == id

/-- The process named holds the generation. -/
def Db.ownedBy (db : Db T) (id : String) (generation : Nat)
    (owner : Option String) : Prop :=
  ∀ name ∈ owner, db.owners[scope id generation]? = some name

instance (db : Db T) (id : String) (generation : Nat)
    (owner : Option String) : Decidable (db.ownedBy id generation owner) :=
  inferInstanceAs (Decidable (∀ name ∈ owner, _))

-- ==== definitions

/-- Store a new definition as a draft. -/
def insertCompetitionDefinition (lower : String → String) (db : Db T)
    (definition : Definition) : Except DatabaseError (Db T) := do
  ensure (definition.validate lower = .ok ())
    (.invalid "invalid competition definition")
  ensure (db.definitions[definition.id]? = none
      ∧ db.states[definition.id]? = none) .constraint
  return { db with
    definitions := db.definitions.insert definition.id
      { rankingId := definition.rankingId
        definitionJson := S.definition.toText definition }
    states := db.states.insert definition.id (S.state.toText {}) }

/-- Replace the definition of a draft. The flag says whether there was
one to replace. -/
def updateCompetitionDefinition (lower : String → String) (db : Db T)
    (definition : Definition) : Except DatabaseError (Db T × Bool) := do
  ensure (definition.validate lower = .ok ())
    (.invalid "invalid competition definition")
  if db.definitions[definition.id]? ≠ none
      ∧ db.states[definition.id]?.bind (lifecycleOf S) = some .draft
      ∧ db.hasResult definition.id = false then
    return ({ db with
      definitions := db.definitions.insert definition.id
        { rankingId := definition.rankingId
          definitionJson := S.definition.toText definition } }, true)
  else return (db, false)

/-- Delete a draft or cancelled competition without a result, and with
it everything recorded under its id. -/
def deleteCompetitionDefinition (store : Store T) (id : String) :
    Store T × Bool :=
  if store.definitions[id]? ≠ none
      ∧ store.states[id]?.bind (lifecycleOf S)
        ∈ [some Lifecycle.draft, some .cancelled]
      ∧ store.hasResult id = false then
    ({ store with
      definitions := store.definitions.erase id
      states := store.states.erase id
      owners := store.owners.retain fun key _ => (ofLex key).1 != id
      rounds := store.rounds.retain fun key _ => (ofLex key).1 != id },
      true)
  else (store, false)

/-- What every opening of the database does: a definition without a
state is a draft. -/
def openAutomation (db : Db T) : Db T :=
  { db with
    states := db.definitions.toList.foldl (fun states row =>
      if states[row.1]? = none then states.insert row.1 (S.state.toText {})
      else states) db.states }

-- ==== lifecycle

/-- Open the integrity checkpoint of a generation that begins. -/
def Store.openCheckpoint (store : Store T) (id : String)
    (generation : Nat) : Except DatabaseError (Store T) := do
  let round := store.round id generation
  ensure (round.checkpoint = none) .constraint
  return store.setRound id generation { round with checkpoint := some .open }

/-- Apply a lifecycle transition for its owner. A draft has none yet. A
start opens the generation's checkpoint and claims it. -/
def transitionCompetitionOwned (store : Store T) (id : String)
    (transition : Transition) (now : Nat) (owner : Option String) :
    Except DatabaseError (Store T × Option LifecycleState) := do
  match store.definitions[id]?, store.states[id]? with
  | some row, some text => do
    let definition ← okOr (S.definition.fromText row.definitionJson) .json
    let state ← okOr (S.state.fromText text) .json
    ensure (transition = .start ∨ state.lifecycle = .draft
        ∨ store.ownedBy id state.generation owner)
      (.invalid "competition owner changed")
    let next ← (state.transition transition now
      definition.durationMs).mapError fun _ =>
        .invalid "invalid lifecycle transition"
    let store := { store with
      states := store.states.insert id (S.state.toText next) }
    if transition = .start then do
      ensure (next.generation ≤ i64Max) (.invalid "invalid generation")
      let store ← store.openCheckpoint id next.generation
      match owner with
      | none => return (store, some next)
      | some name => do
        let key := scope id next.generation
        ensure (store.owners[key]? = none) .constraint
        return ({ store with
          owners := store.owners.insert key name }, some next)
    else return (store, some next)
  | _, _ => return (store, none)

/-- Expire one competition of a scan, if it is due and owned. -/
def expireOne (now : Nat) (owner : Option String) (db : Db T)
    (row : String × T) : Except DatabaseError (Db T) := do
  let state ← okOr (S.state.fromText row.2) .json
  if state.isDue now ∧ db.ownedBy row.1 state.generation owner then do
    let next ← (state.transition .expire now none).mapError fun _ =>
      .invalid "invalid expiry"
    return { db with
      states := db.states.insert row.1 (S.state.toText next) }
  else return db

/-- Move every due competition of the owner to finalizing. -/
def expireDueCompetitionsOwned (db : Db T) (now : Nat)
    (owner : Option String) : Except DatabaseError (Db T) :=
  db.states.toList.foldlM (expireOne S now owner) db

/-- Take over a generation after a restart: its checkpoint is open again
and its owner is the new process. The flag says whether it was closed
cleanly. -/
def beginCompetitionRecovery (store : Store T) (id : String)
    (generation : Nat) (owner : String) :
    Except DatabaseError (Store T × Bool) := do
  ensure (generation ≤ i64Max) (.invalid "invalid generation")
  let round := store.round id generation
  let store := store.setRound id generation
    { round with checkpoint := some .open }
  return ({ store with
      owners := store.owners.insert (scope id generation) owner },
    round.checkpoint = some .clean)

/-- Close the checkpoints of a shutdown, all of them or none. -/
def saveCompetitionIntegrity (store : Store T)
    (checkpoints : List (String × Nat × Bool)) (owner : String) :
    Except DatabaseError (Store T) :=
  checkpoints.foldlM (fun store (id, generation, clean) => do
    ensure (generation ≤ i64Max) (.invalid "invalid generation")
    let round := store.round id generation
    ensure (round.checkpoint = some .open
        ∧ store.owners[scope id generation]? = some owner)
      (.invalid "competition integrity checkpoint missing")
    return store.setRound id generation
      { round with
        checkpoint := some (if clean then .clean else .degraded) }) store

-- ==== outbox

/-- An operator's decision about an uncertain action. -/
inductive ActionResolution where
  | completed | failed
  deriving DecidableEq, Repr

def ActionResolution.status : ActionResolution → ActionStatus
  | .completed => .completed
  | .failed => .failed

/-- Settle an uncertain entry. -/
def resolveUncertainCompetitionAction (db : Db T) (id : String)
    (generation : Nat) (resolution : ActionResolution) (now : Nat) :
    Except DatabaseError (Db T × Bool) := do
  ensure (generation ≤ i64Max) (.invalid "invalid generation")
  ensure (now ≤ i64Max) (.invalid "invalid timestamp")
  let key := scope id generation
  match db.outbox[key]? with
  | none => return (db, false)
  | some row =>
    if row.status ≠ .uncertain then return (db, false)
    else return ({ db with
      outbox := db.outbox.insert key
        { row with status := resolution.status, updatedAt := now } },
      true)

/-- An operator stops waiting for a running action. -/
def markCompetitionActionUncertain (db : Db T) (id : String)
    (generation now : Nat) : Except DatabaseError (Db T × Bool) :=
  recordCompetitionActionOutcome db id generation .uncertain
    (some "operator_marked_uncertain") now

/-- After a restart nobody knows how a running action ended. -/
def markInterruptedCompetitionActionsUncertain (db : Db T) (now : Nat) :
    Db T :=
  { db with
    outbox := db.outbox.map fun _ row =>
      if row.status = .running then
        { row with status := .uncertain, updatedAt := now }
      else row }

end TikTools.Competitions
