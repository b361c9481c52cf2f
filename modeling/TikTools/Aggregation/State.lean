/-
The scores of one ranking, with the ordered index over them.

The index is not a counter: it holds a pair for every score, best score
first, and every change of a score moves its pair. `Aggregation.Sound`
says that it agrees with the scores, that the total is their sum, and
that there are no more of them than the ranking may have; each operation
keeps it.
-/
import TikTools.Lib.Table
import TikTools.Aggregation.Model

namespace TikTools.Aggregation

open TikTools.Lib Std

set_option linter.dupNamespace false

instance transOrdPosition : Std.TransOrd (Natᵒᵈ ×ₗ String) := inferInstance

/-- `BTreeSet<(Reverse<u64>, String)>`: best score first, then by key. -/
abbrev RankingIndex := Table (Natᵒᵈ ×ₗ String) Unit

namespace RankingIndex

def position (key : String) (score : Nat) : Natᵒᵈ ×ₗ String :=
  toLex (OrderDual.toDual score, key)

/-- Replace a previously indexed score. -/
def update (index : RankingIndex) (key : String)
    (previous next : Option Nat) : RankingIndex :=
  let without := match previous with
    | some score => index.erase (position key score)
    | none => index
  match next with
  | some score => without.insert (position key score) ()
  | none => without

def top (index : RankingIndex) (limit : Nat) : List (String × Nat) :=
  (index.toList.take limit).map fun entry =>
    ((ofLex entry.1).2, OrderDual.ofDual (ofLex entry.1).1)

end RankingIndex

/-- State of a single ranking. -/
structure Aggregation where
  scores : Table String Nat
  metadata : Table String EntryMetadata
  index : RankingIndex
  capacity : Nat
  total : Nat
  revision : Nat

/-- Set or remove the score of a key. -/
def put (scores : Table String Nat) (key : String) :
    Option Nat → Table String Nat
  | some score => scores.insert key score
  | none => scores.erase key

/-- A score, unless it is zero. -/
def positive (score : Nat) : Option Nat :=
  if score > 0 then some score else none

namespace Aggregation

def new (capacity : Nat) : Aggregation := ⟨∅, ∅, ∅, capacity, 0, 0⟩

def validKey (key : String) : Bool := key ≠ "" && key.utf8ByteSize ≤ 512

def apply (state : Aggregation) (key : String) (delta weight : Nat) :
    Except Error Aggregation := do
  ensure (validKey key) .invalidKey
  let value ← okOr (checkedMul delta weight) .overflow
  if value = 0 then return state
  ensure (state.scores[key]? ≠ none ∨ state.scores.size < state.capacity)
    .capacity
  let score ← okOr (checkedAdd (state.scores[key]?.getD 0) value) .overflow
  let total ← okOr (checkedAdd state.total value) .overflow
  let revision ← okOr (checkedAdd state.revision 1) .overflow
  return { state with
    scores := state.scores.insert key score
    index := state.index.update key state.scores[key]? (some score)
    total, revision }

def updateMetadata (state : Aggregation) (key : String)
    (data : EntryMetadata) : Aggregation :=
  if state.scores[key]? ≠ none then
    { state with
      metadata := state.metadata.insert key
        ((state.metadata[key]?.getD {}).merge data.bounded) }
  else state

/-- Move scored amounts to another key and add to it. -/
def reassign (state : Aggregation) (source target : String)
    (amount additional : Nat) : Except Error Aggregation := do
  ensure (validKey source ∧ validKey target ∧ source ≠ target) .invalidKey
  let oldSource ← okOr state.scores[source]? .insufficientScore
  let newSource ← okOr (checkedSub oldSource amount) .insufficientScore
  let oldTarget := state.scores[target]?
  let newTarget ← okOr ((checkedAdd (oldTarget.getD 0) amount).bind
    fun n => checkedAdd n additional) .overflow
  ensure (¬ (newTarget > 0 ∧ oldTarget = none ∧ newSource > 0
    ∧ state.scores.size ≥ state.capacity)) .capacity
  let total ← okOr (checkedAdd state.total additional) .overflow
  let revision ← okOr (checkedAdd state.revision 1) .overflow
  let scores := put state.scores source (positive newSource)
  return {
    scores := if newTarget > 0 then scores.insert target newTarget else scores
    metadata := if newSource = 0 then state.metadata.erase source
      else state.metadata
    index := (state.index.update source (some oldSource)
      (positive newSource)).update target oldTarget (positive newTarget)
    capacity := state.capacity
    total, revision }

/-- Take an amount out again. The key has at least that much whenever
this is called. -/
def expire (state : Aggregation) (key : String) (amount : Nat) :
    Except Error Aggregation := do
  let revision ← okOr (checkedAdd state.revision 1) .overflow
  let previous ← okOr state.scores[key]? .notFound
  let score := previous - amount
  return {
    scores := put state.scores key (positive score)
    metadata := if score = 0 then state.metadata.erase key
      else state.metadata
    index := state.index.update key (some previous) (positive score)
    capacity := state.capacity
    total := state.total - amount
    revision }

def touch (state : Aggregation) : Except Error Aggregation := do
  let revision ← okOr (checkedAdd state.revision 1) .overflow
  return { state with revision }

def reset (state : Aggregation) : Except Error Aggregation := do
  let revision ← okOr (checkedAdd state.revision 1) .overflow
  return { new state.capacity with revision }

/-- The entry of a key: its label stands apart from the other data. -/
def entry (state : Aggregation) (scored : String × Nat) : Entry :=
  let data := state.metadata[scored.1]?.getD {}
  { key := scored.1
    rank := 0
    score := scored.2
    label := data.label.getD scored.1
    metadata := { data with label := none } }

def snapshotCandidates (state : Aggregation) (limit : Nat) : Snapshot where
  rankingId := ""
  schemaVersion := 1
  creatorId := ""
  roomId := ""
  window := .session
  revision := state.revision
  instanceId := none
  integrityStatus := "unknown"
  rejected := 0
  dropped := 0
  limited := 0
  cooldownRejected := 0
  paused := false
  entries := (state.index.top limit).map state.entry
  totalScore := state.total
  totalParticipants := state.scores.size

end Aggregation

end TikTools.Aggregation
