/-
The readers of a generation's rows: what a restart restores a ranking
from, and what a draw is held over.

All of them are bounded scans that refuse to run on more rows than a
generation may hold, or on rows that do not belong together. A sum of
the database itself is an error past the signed 64-bit range.
-/
import TikTools.Lib.KeySet
import TikTools.Competitions.Routing
import Mathlib.Data.Finset.Sort
import Mathlib.Data.String.Basic

namespace TikTools.Competitions

open TikTools.Lib

namespace Round

-- ==== totals

/-- Add votes to the sum of an option. -/
def addVotes (totals : Table String Nat) (row : String × ParticipantRow) :
    Except DatabaseError (Table String Nat) := do
  let total := totals[row.2.optionId]?.getD 0 + row.2.votes
  ensure (total ≤ i64Max) .constraint
  return totals.insert row.2.optionId total

/-- The votes of every option, by option. -/
def voteTotals (round : Round) :
    Except DatabaseError (List (String × Nat)) := do
  let totals ← round.participants.toList.foldlM addVotes ∅
  let rows := totals.toList.take 257
  ensure (rows.length ≤ 256 ∧ ∀ row ∈ rows, row.2 ≠ 0)
    (.invalid "invalid vote projection")
  return rows

/-- The scored rows that name an option. -/
def creditedRows (round : Round) : List (ScoredRow × String) :=
  round.scored.toList.filterMap fun row =>
    row.2.optionId.map fun option => (row.2, option)

/-- Add a score to the sum of its option. -/
def addScore (totals : Table String Nat) (row : ScoredRow × String) :
    Except DatabaseError (Table String Nat) := do
  let total ← okOr (checkedAdd (totals[row.2]?.getD 0) row.1.score)
    (.invalid "score overflow")
  let totals := totals.insert row.2 total
  ensure (totals.size ≤ 256) (.invalid "option capacity exceeded")
  return totals

/-- The scores of every option, by option. -/
def scoredTotals (round : Round) :
    Except DatabaseError (List (String × Nat)) := do
  let rows := round.creditedRows.take 500001
  let totals ← (rows.take 500000).foldlM addScore ∅
  ensure (rows.length ≤ 500000)
    (.invalid "scored contribution capacity exceeded")
  return totals.toList

-- ==== draws

/-- Everyone who voted or was credited with a gift. -/
def entrants (round : Round) : Finset String :=
  round.participants.keySet ∪ round.giftParticipants.keySet

/-- The participants of a uniform draw, in order. -/
def drawParticipants (round : Round) :
    Except DatabaseError (List Candidate) := do
  let keys := (round.entrants.sort (· ≤ ·)).take 100001
  ensure (∀ key ∈ keys.take 100000, bounded key 512)
    (.invalid "invalid participant")
  ensure (keys.length ≤ 100000) (.invalid "draw capacity exceeded")
  return keys.map fun key => { key, weight := 1 }

/-- The tickets of a voter's votes. -/
def addVoter (voteWeight : Nat) (weights : Table String Nat)
    (row : String × ParticipantRow) :
    Except DatabaseError (Table String Nat) := do
  ensure (bounded row.1 512 ∧ row.2.votes ≠ 0 ∧ weights.size < 100000)
    (.invalid "invalid draw participants")
  let weight ← okOr (checkedMul row.2.votes voteWeight)
    (.invalid "draw weight overflow")
  return weights.insert row.1 weight

/-- A gift participant who did not vote has no tickets yet. -/
def addGiver (weights : Table String Nat) (participant : String) :
    Except DatabaseError (Table String Nat) := do
  ensure (bounded participant 512
      ∧ (weights[participant]? ≠ none ∨ weights.size < 100000))
    (.invalid "invalid draw participants")
  return if weights[participant]? = none then
      weights.insert participant 0
    else weights

/-- The tickets of a score. -/
def addTickets (weights : Table String Nat) (row : ScoredRow × String) :
    Except DatabaseError (Table String Nat) := do
  let weight ← okOr weights[row.1.participantId]?
    (.invalid "draw participant missing")
  let weight ← okOr (checkedAdd weight row.1.score)
    (.invalid "draw weight overflow")
  return weights.insert row.1.participantId weight

/-- The participants of a weighted draw with their tickets. -/
def weightedDrawParticipants (round : Round) (voteWeight : Nat) :
    Except DatabaseError (List Candidate) := do
  let weights ← (round.participants.toList.take 100001).foldlM
    (addVoter voteWeight) ∅
  let weights ← ((round.giftParticipants.toList.map Prod.fst).take
    100001).foldlM addGiver weights
  let rows := round.creditedRows.take 500001
  let weights ← (rows.take 500000).foldlM addTickets weights
  ensure (rows.length ≤ 500000)
    (.invalid "draw contribution capacity exceeded")
  return weights.toList.map fun (key, weight) => { key, weight }

end Round

-- ==== readers

variable {T : Type}

/-- Read a generation whose number fits the column. -/
def Store.readRound {α : Type} (store : Store T) (id : String)
    (generation : Nat) (reader : Round → Except DatabaseError α) :
    Except DatabaseError α := do
  ensure (generation ≤ i64Max) (.invalid "invalid generation")
  reader (store.round id generation)

def competitionVoteTotals (store : Store T) (id : String)
    (generation : Nat) : Except DatabaseError (List (String × Nat)) :=
  store.readRound id generation Round.voteTotals

def competitionScoredTotals (store : Store T) (id : String)
    (generation : Nat) : Except DatabaseError (List (String × Nat)) :=
  store.readRound id generation Round.scoredTotals

def competitionDrawParticipants (store : Store T) (id : String)
    (generation : Nat) : Except DatabaseError (List Candidate) :=
  store.readRound id generation Round.drawParticipants

def competitionWeightedDrawParticipants (store : Store T) (id : String)
    (generation voteWeight : Nat) : Except DatabaseError (List Candidate) :=
  store.readRound id generation fun round =>
    round.weightedDrawParticipants voteWeight

def competitionParticipantCount (store : Store T) (id : String)
    (generation : Nat) : Except DatabaseError Nat :=
  store.readRound id generation fun round => .ok round.participantCount

end TikTools.Competitions
