/-
The competition data model: definitions, winner actions, selections and
result records, with the validation a selection passes before it is
stored and again when it is read back.

A competition either picks one of its OPTIONS (polls, battles, the
roulette) or one of its PARTICIPANTS (draws and leaderboard
challenges). The first kind names the consequence of winning on the
option (`OptionDefinition.onWin`), the second on the definition
(`Definition.onUserWin`); `expectedAction` is the choice the ledger
makes between the two.
-/
import TikTools.Lib.Checked
import TikTools.Lib.Json

namespace TikTools.Competitions

open TikTools.Lib

-- ==== definitions

/-- How a winner is picked from the eligible set. -/
inductive SelectionMode where
  | highestScore | uniformRandom | weightedRandom
  deriving DecidableEq, Repr

/-- What a highest-score tie turns into. -/
inductive TiePolicy where
  | manual | stable | random | noWinner
  deriving DecidableEq, Repr

inductive CompetitionKind where
  | poll | weightedPoll | leaderboardChallenge | teamBattle
  | randomDraw | weightedDraw | roulette
  deriving DecidableEq, Repr

/-- A reference to an existing automation action; the host's automation
runtime executes it. -/
structure WinnerAction where
  actionId : String
  inputs : Json
  deriving DecidableEq

structure OptionDefinition where
  id : String
  label : String
  commands : List String := []
  giftIds : List String := []
  imageUrl : Option String := none
  onWin : Option WinnerAction := none
  deriving DecidableEq

structure Definition where
  schemaVersion : Nat := 1
  id : String
  name : String
  kind : CompetitionKind
  rankingId : String
  options : List OptionDefinition
  selectionMode : SelectionMode
  tiePolicy : TiePolicy
  durationMs : Option Nat := none
  voteLimit : Nat
  allowSwitch : Bool := false
  minimumParticipants : Nat := 0
  /-- Leaderboard challenges: the leader must reach this score. -/
  targetScore : Option Nat := none
  /-- The action of winners that are users rather than options. -/
  onUserWin : Option WinnerAction := none
  deriving DecidableEq

/-- Draws and challenges pick a user; every other kind picks an
option. -/
def CompetitionKind.userWinner : CompetitionKind → Bool
  | .randomDraw | .weightedDraw | .leaderboardChallenge => true
  | _ => false

/-- The action of the first option whose id is the winner. -/
def Definition.optionAction (definition : Definition)
    (winner : String) : Option WinnerAction :=
  (definition.options.find? fun option => option.id == winner).bind
    fun option => option.onWin

/-- The action the ledger expects beside a result: the definition's own
for a user winner, the winning option's otherwise. -/
def Definition.expectedAction (definition : Definition)
    (winner : Option String) : Option WinnerAction :=
  winner.bind fun winner =>
    if definition.kind.userWinner then definition.onUserWin
    else definition.optionAction winner

-- ==== selections

structure Candidate where
  key : String
  weight : Nat
  deriving DecidableEq, Repr

structure Selection where
  mode : SelectionMode
  tiePolicy : TiePolicy
  eligible : List Candidate
  winner : Option String
  deriving DecidableEq, Repr

/-- The failures of the competition crate. -/
inductive Error where
  | invalidTransition | invalidCandidate | duplicateCandidate | empty
  | zeroWeight | overflow | manualTie | randomUnavailable
  | unknownOption | switchForbidden | capacity | voteLimit
  deriving DecidableEq, Repr

/-- The candidates sharing the highest weight, in list order. -/
def leaders (eligible : List Candidate) : List Candidate :=
  let highest := (eligible.map Candidate.weight).foldl max 0
  eligible.filter fun c => c.weight == highest

/-- Keys strictly increase along the list: every adjacent pair does. -/
def keysIncrease : List Candidate → Bool
  | [] | [_] => true
  | a :: b :: rest => a.key < b.key && keysIncrease (b :: rest)

/-- The total weight, unless it overflows. -/
def totalWeight (eligible : List Candidate) : Option Nat :=
  eligible.foldlM (fun sum c => checkedAdd sum c.weight) 0

/-- The mode's own condition on the chosen candidate. -/
def Selection.validateChoice (selection : Selection)
    (chosen : Option Candidate) : Except Error Unit :=
  match selection.mode with
  | .highestScore =>
    let top := leaders selection.eligible
    let tied := 1 < top.length
    match chosen with
    | none =>
      ensure (selection.tiePolicy = .noWinner ∧ tied) .invalidCandidate
    | some c =>
      ensure (c ∈ top ∧ ¬ (tied ∧ selection.tiePolicy = .noWinner)
        ∧ ¬ (tied ∧ selection.tiePolicy = .stable
          ∧ some c.key ≠ top.head?.map Candidate.key))
        .invalidCandidate
  | .uniformRandom => ensure chosen.isSome .invalidCandidate
  | .weightedRandom => do
    let total ← okOr (totalWeight selection.eligible) .overflow
    ensure (total ≠ 0 ∧ chosen.any fun c => c.weight != 0) .zeroWeight

/-- A record is stored and read back only when its eligible set is
sorted, unique and bounded and its winner belongs to it. An empty set
is the explicit no-winner outcome. -/
def Selection.validate (selection : Selection) : Except Error Unit :=
  if selection.eligible = [] then
    ensure (selection.winner = none) .empty
  else do
    ensure (selection.eligible.length ≤ 100000) .empty
    ensure (∀ c ∈ selection.eligible,
      c.key ≠ "" ∧ c.key.utf8ByteSize ≤ 512) .invalidCandidate
    ensure (keysIncrease selection.eligible) .duplicateCandidate
    match selection.winner with
    | none => selection.validateChoice none
    | some key => do
      let chosen ← okOr
        (selection.eligible.find? fun c => c.key == key)
        .invalidCandidate
      selection.validateChoice (some chosen)

/-- A finalized generation's immutable selection. -/
structure ResultRecord where
  schemaVersion : Nat
  competitionId : String
  generation : Nat
  rankingId : String
  rankingRevision : Nat
  finalizedAt : Nat
  selection : Selection
  deriving DecidableEq, Repr

theorem Definition.expectedAction_option (d : Definition)
    (winner : String) (h : d.kind.userWinner = false) :
    d.expectedAction (some winner) = d.optionAction winner := by
  simp [Definition.expectedAction, h]

end TikTools.Competitions
