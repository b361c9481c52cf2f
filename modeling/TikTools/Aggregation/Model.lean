/-
The aggregation engine's vocabulary: ranking definitions and the
contributions they count.
-/
import TikTools.Lib.Checked
import TikTools.Lib.Text
import Mathlib.Data.List.Sort

namespace TikTools.Aggregation

open TikTools.Lib

/-- An integer multiplier of a metric. -/
structure SourceRule where
  source : String
  metric : String
  weight : Nat
  enabled : Bool
  /-- Per-gift multipliers, 1 where there is none. -/
  giftMultipliers : List (String × Nat) := []
  deriving DecidableEq, Repr

/-- Limits of scored contributions per user until the next reset. -/
structure UserLimits where
  maxContributions : Option Nat
  cooldownMs : Option Nat
  maxUsers : Nat
  deriving DecidableEq, Repr

inductive Window where
  | session
  | rolling (durationMs maxEvents : Nat)
  /-- One calendar day at an offset. -/
  | daily (utcOffsetMinutes : Int)
  deriving DecidableEq, Repr

inductive GroupBy where
  | user
  | gift
  | eventType
  | option
  | team
  | customKey
  deriving DecidableEq, Repr

structure Definition where
  schemaVersion : Nat
  id : String
  creatorId : String
  roomId : String
  groupBy : GroupBy := .user
  window : Window := .session
  userLimits : Option UserLimits := none
  sources : List SourceRule
  limit : Nat
  capacity : Nat
  deriving DecidableEq, Repr

/-- A single accepted event with all of its incremental metrics. -/
structure Contribution where
  creatorId : String
  roomId : String
  source : String
  user : Option String
  gift : Option String
  option : Option String
  team : Option String
  customKey : Option String
  metrics : List (String × Nat)
  deriving DecidableEq, Repr

/-- Display data of an entry; never its identity or score. -/
structure EntryMetadata where
  label : Option String := none
  userId : Option String := none
  uniqueId : Option String := none
  nickname : Option String := none
  avatarUrl : Option String := none
  giftId : Option String := none
  iconUrl : Option String := none
  deriving DecidableEq, Repr

namespace EntryMetadata

/-- The fields that are neither empty nor too long. -/
def bounded (data : EntryMetadata) : EntryMetadata :=
  let value := fun (field : Option String) (max : Nat) =>
    field.filter fun text => text ≠ "" && text.utf8ByteSize ≤ max
  { label := value data.label 512
    userId := value data.userId 512
    uniqueId := value data.uniqueId 512
    nickname := value data.nickname 512
    avatarUrl := value data.avatarUrl 2048
    giftId := value data.giftId 512
    iconUrl := value data.iconUrl 2048 }

/-- Take over the fields an update has. -/
def merge (data update : EntryMetadata) : EntryMetadata where
  label := update.label.or data.label
  userId := update.userId.or data.userId
  uniqueId := update.uniqueId.or data.uniqueId
  nickname := update.nickname.or data.nickname
  avatarUrl := update.avatarUrl.or data.avatarUrl
  giftId := update.giftId.or data.giftId
  iconUrl := update.iconUrl.or data.iconUrl

end EntryMetadata

inductive Error where
  | capacity
  | overflow
  | invalidKey
  | insufficientScore
  | incompatibleDefinition
  | notFound
  | windowCapacity
  deriving DecidableEq, Repr

structure Entry where
  key : String
  rank : Nat
  score : Nat
  label : String
  metadata : EntryMetadata
  deriving DecidableEq, Repr

structure Snapshot where
  rankingId : String
  schemaVersion : Nat
  creatorId : String
  roomId : String
  window : Window
  revision : Nat
  instanceId : Option String
  integrityStatus : String
  rejected : Nat
  dropped : Nat
  limited : Nat
  cooldownRejected : Nat
  paused : Bool
  entries : List Entry
  totalScore : Nat
  totalParticipants : Nat
  deriving DecidableEq, Repr

/-- Highest score first, then by key. -/
def Entry.before (a b : Entry) : Prop :=
  b.score < a.score ∨ a.score = b.score ∧ a.key ≤ b.key

instance (a b : Entry) : Decidable (a.before b) :=
  inferInstanceAs (Decidable (_ ∨ _ ∧ _))

/-- `Snapshot::rank`: keep the best `limit` entries and number them. -/
def Snapshot.rank (snapshot : Snapshot) (limit : Nat) : Snapshot :=
  { snapshot with
    entries := ((snapshot.entries.insertionSort Entry.before).take
      limit).mapIdx fun index entry => { entry with rank := index + 1 } }

-- ==== scoring

/-- The score one rule gives a contribution; nothing to add for a rule
that does not measure it. -/
def ruleScore (rule : SourceRule) (contribution : Contribution) :
    Except Error (List Nat) :=
  if !(rule.enabled && rule.weight > 0
      && rule.source = contribution.source) then .ok []
  else if !contribution.metrics.any fun metric =>
      metric.1 = rule.metric && metric.2 > 0 then .ok []
  else if contribution.source = "tiktok.gift" ∧ contribution.gift = none
      ∧ rule.giftMultipliers ≠ [] then .error .invalidKey
  else
    let multiplier := (contribution.gift.bind fun gift =>
      rule.giftMultipliers.lookup gift).getD 1
    if multiplier = 0 then .ok []
    else
      (contribution.metrics.filter fun metric =>
        metric.1 = rule.metric).mapM fun metric =>
          okOr ((checkedMul metric.2 rule.weight).bind fun value =>
            checkedMul value multiplier) .overflow

/-- `score`: the sum over the rules. An overflow refuses the whole. -/
def score (rules : List SourceRule) (contribution : Contribution) :
    Except Error Nat :=
  rules.foldlM (fun total rule => do
    let values ← ruleScore rule contribution
    values.foldlM (fun total value =>
      okOr (checkedAdd total value) .overflow) total) 0

end TikTools.Aggregation
