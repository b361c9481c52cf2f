/-
The winner reveal: the host's bounded projection of a committed result,
and the overlay that reads it.

The host writes a `RevealSnapshot` of a `ResultRecord` and publishes it;
`parseRevealResult` checks it again in the overlay, with lengths in code
units and numbers as safe integers, and `RevealController` decides
whether it is shown.
-/
import TikTools.Lib.Js
import TikTools.Competitions.Outbox

namespace TikTools.Overlays

open TikTools.Lib TikTools.Competitions

-- ==== projection

/-- Presentation-only subset of a selection. -/
structure RevealSelection where
  mode : SelectionMode
  eligible : List Candidate
  winner : Option String
  deriving DecidableEq, Repr

structure RevealSnapshot where
  schemaVersion : Nat
  competitionId : String
  rankingId : String
  generation : Nat
  selection : RevealSelection
  eligibleCount : Nat
  otherWeight : Nat
  deriving DecidableEq, Repr

/-- Candidates shown at most. -/
def revealLimit : Nat := 256

/-- The candidates shown: the first ones, the last of them replaced where
the winner is not among them. -/
def revealEligible (selection : Selection) :
    Except Error (List Candidate) :=
  let first := selection.eligible.take revealLimit
  match selection.winner with
  | none => .ok first
  | some winner =>
    if first.any fun entry => entry.key == winner then .ok first
    else do
      let chosen ← okOr
        (selection.eligible.find? fun entry => entry.key == winner)
        .invalidCandidate
      return first.dropLast ++ [chosen]

/-- What a candidate counts for in the draw. -/
def drawWeight (mode : SelectionMode) (entry : Candidate) : Nat :=
  if mode = .weightedRandom then entry.weight else 1

def revealSnapshot (result : ResultRecord) :
    Except Error RevealSnapshot := do
  result.selection.validate
  let eligible ← revealEligible result.selection
  let included := eligible.map Candidate.key
  let otherWeight ← okOr ((result.selection.eligible.filter fun entry =>
      entry.key ∉ included).foldlM (fun sum entry =>
        checkedAdd sum (drawWeight result.selection.mode entry)) 0) .overflow
  return {
    schemaVersion := result.schemaVersion
    competitionId := result.competitionId
    rankingId := result.rankingId
    generation := result.generation
    selection := {
      mode := result.selection.mode
      eligible
      winner := result.selection.winner }
    eligibleCount := result.selection.eligible.length
    otherWeight }

def candidateJson (entry : Candidate) : Json :=
  .object [("key", .string entry.key), ("weight", .ofNat entry.weight)]

def RevealSnapshot.toJson (snapshot : RevealSnapshot) : Json :=
  .object [
    ("schemaVersion", .ofNat snapshot.schemaVersion),
    ("competitionId", .string snapshot.competitionId),
    ("rankingId", .string snapshot.rankingId),
    ("generation", .ofNat snapshot.generation),
    ("selection", .object [
      ("mode", .string snapshot.selection.mode.text),
      ("eligible", .array (snapshot.selection.eligible.map candidateJson)),
      ("winner", snapshot.selection.winner.elim .null .string)]),
    ("eligibleCount", .ofNat snapshot.eligibleCount),
    ("otherWeight", .ofNat snapshot.otherWeight)]

/-- The envelope of a domain event. -/
def topicEnvelope (topic : String) (data : Json) : Json :=
  .object [("topic", .string topic), ("data", data)]

def RevealSnapshot.envelope (snapshot : RevealSnapshot) : Json :=
  topicEnvelope "competition.result" (.object [("result", snapshot.toJson)])

-- ==== overlay

/-- A parsed result. The mode is the text the host sent. -/
structure RevealResult where
  competitionId : String
  rankingId : String
  generation : Nat
  winner : Option String
  mode : Json
  eligible : List Candidate
  eligibleCount : Nat
  otherWeight : Nat
  deriving DecidableEq

/-- `data` of an envelope with a topic. -/
def envelopeData (topic : String) (envelope : Json) :
    Option (List (String × Json)) := do
  let members ← envelope.asObject
  guard (Json.member "topic" members = some (.string topic))
  (← Json.member "data" members).asObject

/-- A text that is not empty. -/
def nonEmptyText (value : Option Json) : Option String :=
  (value.bind Json.asStr).filter (· ≠ "")

/-- `String(value)`, where that is the name of a mode: an array of one
item is written as the item. -/
def modeText : Json → Option String
  | .string s => some s
  | .array [item] => modeText item
  | _ => none

def modeNames : List String :=
  ["highest_score", "uniform_random", "weighted_random"]

/-- `value ?? other`. -/
def orElseNullish (value : Option Json) (other : Json) : Json :=
  match value with
  | none | some .null => other
  | some value => value

def parseEligible : List Json → List String → Option (List Candidate)
  | [], _ => some []
  | entry :: rest, keys => do
    let members ← entry.asObject
    let key ← nonEmptyText (Json.member "key" members)
    guard (jsLength key ≤ 512 ∧ key ∉ keys)
    let weight ← (Json.member "weight" members).bind Json.safeNat
    let others ← parseEligible rest (key :: keys)
    return ⟨key, weight⟩ :: others

/-- The winner of a selection: a text, or `null` for none. -/
def parseWinner : Option Json → Option (Option String)
  | some .null => some none
  | some (.string winner) => some (some winner)
  | _ => none

def parseRevealResult (envelope : Json) : Option RevealResult := do
  let data ← envelopeData "competition.result" envelope
  let result ← (← Json.member "result" data).asObject
  guard ((Json.member "schemaVersion" result).bind Json.safeNat = some 1)
  let competitionId ← nonEmptyText (Json.member "competitionId" result)
  let rankingId ← nonEmptyText (Json.member "rankingId" result)
  let generation ← (Json.member "generation" result).bind Json.safeNat
  guard (1 ≤ generation)
  let selection ← (← Json.member "selection" result).asObject
  let mode ← Json.member "mode" selection
  guard ((modeText mode).any modeNames.contains)
  let items ← (← Json.member "eligible" selection).asArray
  guard (items.length ≠ 0 ∧ items.length ≤ revealLimit)
  let winner ← parseWinner (Json.member "winner" selection)
  let eligible ← parseEligible items []
  guard (winner.all fun key => (eligible.map Candidate.key).contains key)
  let eligibleCount ← (orElseNullish (Json.member "eligibleCount" result)
    (.ofNat eligible.length)).safeNat
  guard (eligible.length ≤ eligibleCount)
  let otherWeight ← (orElseNullish (Json.member "otherWeight" result)
    (.ofNat 0)).safeNat
  let weighted := mode = .string "weighted_random"
  let total := eligible.foldl (fun sum entry =>
    sum + if weighted then entry.weight else 1) otherWeight
  guard (total ≤ maxSafe ∧ 0 < total)
  guard ¬ (weighted ∧ winner.any fun key =>
    (eligible.find? fun entry => entry.key = key).all fun entry =>
      entry.weight = 0)
  return {
    competitionId, rankingId, generation, winner, mode, eligible
    eligibleCount, otherWeight }

/-- The overlay of one ranking, or of one competition of it. -/
structure RevealController where
  rankingId : String
  competitionId : Option String
  current : Option RevealResult

namespace RevealController

/-- Whether a result is shown. -/
def Accepts (controller : RevealController) (result : RevealResult) : Prop :=
  result.rankingId = controller.rankingId
    ∧ (∀ id ∈ controller.competitionId, id = "" ∨ result.competitionId = id)
    ∧ ∀ current ∈ controller.current,
      result.competitionId = current.competitionId
        ∧ ¬ result.generation < current.generation
        ∧ result.generation ≠ current.generation

instance (controller : RevealController) (result : RevealResult) :
    Decidable (controller.Accepts result) :=
  inferInstanceAs (Decidable (_ ∧ _ ∧ _))

/-- `handleEnvelope`: the controller afterwards and what it shows. -/
def handleEnvelope (controller : RevealController) (envelope : Json) :
    RevealController × Option RevealResult :=
  match parseRevealResult envelope with
  | none => (controller, none)
  | some result =>
    if controller.Accepts result then
      ({ controller with current := some result }, some result)
    else (controller, none)

/-- What is shown of a sequence of envelopes, in order. -/
def shown : RevealController → List Json → List RevealResult
  | _, [] => []
  | controller, envelope :: rest =>
    let handled := controller.handleEnvelope envelope
    handled.2.toList ++ shown handled.1 rest

end RevealController

end TikTools.Overlays
