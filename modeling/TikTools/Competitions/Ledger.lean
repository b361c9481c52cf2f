/-
The competition ledger: the tables of the automation database a
finished competition writes to, and the transactions on them.

A row keeps its records as JSON TEXT, so reading a record back is a
decoding step that can fail or return something else. The serializer is
a library outside the repository and enters as a `Codec`: the texts it
writes, the values it reads, and the one law the development uses —
records made of strings and integers (lifecycle states, results) read
back as themselves. No such law is assumed of winner actions: their
inputs are arbitrary JSON.

# Transactions

`storeCompetitionResultOnce` commits the result, the lifecycle and the
outbox entry together; a retry reads the committed record.
`claimCompetitionActionDetailed` moves one pending entry to running
after checking it against its own columns.
`recordCompetitionActionOutcome` closes a running entry.
-/
import TikTools.Lib.Table
import TikTools.Competitions.Model

namespace TikTools.Competitions

open TikTools.Lib

-- ==== states

inductive Lifecycle where
  | draft | active | paused | finalizing | finished | cancelled | failed
  deriving DecidableEq, Repr

/-- Durable lifecycle; absolute deadlines are supplied by the host
clock. -/
structure LifecycleState where
  lifecycle : Lifecycle := .draft
  generation : Nat := 0
  deadlineMs : Option Nat := none
  remainingMs : Option Nat := none
  deriving DecidableEq, Repr

inductive ActionStatus where
  | pending | running | completed | failed | uncertain
  deriving DecidableEq, Repr

structure ActionClaim (T : Type) where
  competitionId : String
  generation : Nat
  idempotencyKey : T
  action : WinnerAction

/-- What claiming an entry found. -/
inductive ActionClaimOutcome (T : Type) where
  | missing
  | invalid (actionId : String)
  | claimed (claim : ActionClaim T)

-- ==== codecs

/-- Writing a value as JSON text and reading one from it. -/
structure Serde (T α : Type) where
  toText : α → T
  fromText : T → Option α

/-- The serializer, at the record types of the ledger. The key of an
outbox entry is the text of the triple
`("competition-winner", id, generation)`. -/
structure Codec (T : Type) where
  definition : Serde T Definition
  state : Serde T LifecycleState
  result : Serde T ResultRecord
  action : Serde T WinnerAction
  winnerKey : String → Nat → T
  state_readsBack : ∀ s, state.fromText (state.toText s) = some s
  result_readsBack : ∀ r, result.fromText (result.toText r) = some r

-- ==== tables

/-- The key of a competition generation. -/
abbrev Scope := String ×ₗ Nat

def scope (id : String) (generation : Nat) : Scope := toLex (id, generation)

structure DefinitionRow (T : Type) where
  rankingId : String
  definitionJson : T

structure ResultRow (T : Type) where
  rankingId : String
  createdAt : Nat
  resultJson : T

structure OutboxRow (T : Type) where
  actionId : String
  idempotencyKey : T
  actionJson : T
  status : ActionStatus
  createdAt : Nat
  updatedAt : Nat

/-- The tables of the automation database under a competition's
outcome. -/
structure Db (T : Type) where
  definitions : Table String (DefinitionRow T) := ∅
  states : Table String T := ∅
  owners : Table Scope String := ∅
  results : Table Scope (ResultRow T) := ∅
  outbox : Table Scope (OutboxRow T) := ∅
  diagnostics : Table Scope String := ∅

inductive DatabaseError where
  | invalid (message : String)
  | json
  | constraint
  deriving DecidableEq, Repr

variable {T : Type} [DecidableEq T] (S : Codec T)

-- ==== results

/-- Read a stored result, checking it against the columns beside it. -/
def decodeResult (id : String) (generation : Nat) (ranking : String)
    (createdAt : Nat) (json : T) : Except DatabaseError ResultRecord := do
  let result ← okOr (S.result.fromText json) .json
  ensure (result.schemaVersion = 1 ∧ id ≠ "" ∧ id.utf8ByteSize ≤ 128
      ∧ ranking ≠ "" ∧ ranking.utf8ByteSize ≤ 128 ∧ 0 < generation
      ∧ result.competitionId = id ∧ result.rankingId = ranking
      ∧ result.generation = generation
      ∧ result.finalizedAt = createdAt)
    (.invalid "stored competition result identity mismatch")
  ensure (result.selection.validate = .ok ())
    (.invalid "invalid stored competition selection")
  return result

def loadCompetitionResult (db : Db T) (id : String) (generation : Nat) :
    Except DatabaseError (Option ResultRecord) := do
  ensure (generation ≤ i64Max) (.invalid "invalid generation")
  match db.results[scope id generation]? with
  | none => return none
  | some row => do
    let result ←
      decodeResult S id generation row.rankingId row.createdAt row.resultJson
    return some result

/-- The checks on a proposed result and action that read no table. -/
def checkProposal (result : ResultRecord)
    (action : Option WinnerAction) : Except DatabaseError Unit := do
  ensure (result.schemaVersion = 1 ∧ result.competitionId ≠ ""
      ∧ result.competitionId.utf8ByteSize ≤ 128
      ∧ result.rankingId ≠ "" ∧ result.rankingId.utf8ByteSize ≤ 128
      ∧ result.generation ≤ i64Max ∧ result.finalizedAt ≤ i64Max
      ∧ result.selection.eligible.length ≤ 100000)
    (.invalid "invalid competition result")
  ensure (result.selection.validate = .ok ()) (.invalid "invalid selection")
  match action with
  | none => return ()
  | some action =>
    ensure (action.actionId ≠ "" ∧ action.actionId.utf8ByteSize ≤ 128
        ∧ result.selection.winner ≠ none)
      (.invalid "invalid winner action")

/-- Queue the action under its generation. The table's primary key and
the unique idempotency key make a second entry an error. -/
def insertOutbox (db : Db T) (result : ResultRecord)
    (action : WinnerAction) : Except DatabaseError (Db T) := do
  let key := scope result.competitionId result.generation
  let idempotencyKey := S.winnerKey result.competitionId result.generation
  ensure (db.outbox[key]? = none
      ∧ ∀ row ∈ db.outbox.toList, row.2.idempotencyKey ≠ idempotencyKey)
    .constraint
  return { db with
    outbox := db.outbox.insert key
      { actionId := action.actionId
        idempotencyKey
        actionJson := S.action.toText action
        status := .pending
        createdAt := result.finalizedAt
        updatedAt := result.finalizedAt } }

/-- Commit a fresh result: the lifecycle moves to finished, the result
row appears, and the winner's action is queued, all or nothing. -/
def commitResult (db : Db T) (result : ResultRecord)
    (action : Option WinnerAction) (owner : Option String) :
    Except DatabaseError (Db T) := do
  let key := scope result.competitionId result.generation
  ensure (∀ name ∈ owner, db.owners[key]? = some name)
    (.invalid "competition owner changed")
  let row ← okOr db.definitions[result.competitionId]?
    (.invalid "competition not found")
  let state ← okOr db.states[result.competitionId]?
    (.invalid "competition not found")
  let definition ← okOr (S.definition.fromText row.definitionJson) .json
  let state ← okOr (S.state.fromText state) .json
  ensure (state.lifecycle = .finalizing
      ∧ state.generation = result.generation
      ∧ definition.rankingId = result.rankingId
      ∧ definition.selectionMode = result.selection.mode
      ∧ definition.tiePolicy = result.selection.tiePolicy)
    (.invalid "result does not match finalizing competition")
  ensure (action = definition.expectedAction result.selection.winner)
    (.invalid "winner action does not match definition")
  let state := { state with
    lifecycle := .finished, deadlineMs := none, remainingMs := none }
  let db := { db with
    states := db.states.insert result.competitionId (S.state.toText state)
    results := db.results.insert key
      { rankingId := result.rankingId
        createdAt := result.finalizedAt
        resultJson := S.result.toText result } }
  match action with
  | none => return db
  | some action => insertOutbox S db result action

/-- Insert at most one result for a competition generation. The flag
says whether this call committed it. -/
def storeCompetitionResultOnce (db : Db T) (result : ResultRecord)
    (action : Option WinnerAction) (owner : Option String) :
    Except DatabaseError (Db T × ResultRecord × Bool) := do
  checkProposal result action
  match db.results[scope result.competitionId result.generation]? with
  | some row => do
    let stored ←
      decodeResult S result.competitionId result.generation
        row.rankingId row.createdAt row.resultJson
    return (db, stored, false)
  | none => do
    let db ← commitResult S db result action owner
    return (db, result, true)

-- ==== outbox

/-- An entry's JSON must read back with the action id of its column,
and its key must be the key of its generation. -/
def validEntry (id : String) (generation : Nat) (row : OutboxRow T) :
    Option WinnerAction :=
  match S.action.fromText row.actionJson with
  | none => none
  | some action =>
    if action.actionId = row.actionId ∧ row.actionId ≠ ""
        ∧ row.actionId.utf8ByteSize ≤ 128
        ∧ row.idempotencyKey = S.winnerKey id generation
    then some action else none

/-- Claim one pending entry. A running or uncertain one is never
claimed; an entry that fails its own check is closed as failed. -/
def claimCompetitionActionDetailed (db : Db T) (id : String)
    (generation now : Nat) :
    Except DatabaseError (Db T × ActionClaimOutcome T) := do
  ensure (generation ≤ i64Max) (.invalid "invalid generation")
  let key := scope id generation
  match db.outbox[key]? with
  | none => return (db, .missing)
  | some row =>
    if row.status ≠ .pending then return (db, .missing)
    else
      match validEntry S id generation row with
      | none =>
        let closed := { row with status := .failed, updatedAt := now }
        return ({ db with
          outbox := db.outbox.insert key closed
          diagnostics := db.diagnostics.insert key "invalid_outbox_record" },
          .invalid row.actionId)
      | some action =>
        let running := { row with status := .running, updatedAt := now }
        return ({ db with outbox := db.outbox.insert key running },
          .claimed
            { competitionId := id
              generation
              idempotencyKey := row.idempotencyKey
              action })

/-- The reasons an outcome may carry. -/
def outcomeReasons : List String :=
  ["result_unavailable", "competition_unavailable",
    "ranking_unavailable", "action_unavailable", "action_disabled",
    "invalid_inputs", "invalid_action", "winner_unavailable",
    "preparation_interrupted", "execution_failed",
    "execution_interrupted", "operator_marked_uncertain",
    "invalid_outbox_record", "action_reference_mismatch"]

omit [DecidableEq T] in
/-- Close a running entry, with the reason beside it. The flag says
whether the entry was running. -/
def recordCompetitionActionOutcome (db : Db T) (id : String)
    (generation : Nat) (status : ActionStatus) (reason : Option String)
    (now : Nat) : Except DatabaseError (Db T × Bool) := do
  ensure (generation ≤ i64Max) (.invalid "invalid generation")
  ensure (status = .completed ∨ status = .failed ∨ status = .uncertain)
    (.invalid "invalid action outcome")
  ensure (∀ text ∈ reason, text ∈ outcomeReasons)
    (.invalid "invalid action reason")
  let key := scope id generation
  match db.outbox[key]? with
  | none => return (db, false)
  | some row =>
    if row.status ≠ .running then return (db, false)
    else
      let closed := { row with status, updatedAt := now }
      let diagnostics :=
        match reason with
        | none => db.diagnostics
        | some text => db.diagnostics.insert key text
      return ({ db with
        outbox := db.outbox.insert key closed, diagnostics }, true)

end TikTools.Competitions
