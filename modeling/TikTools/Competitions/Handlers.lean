/-
The handlers of routed live events: a command, a like or a share, a gift
packet, each for one competition it was routed to.

A handler commits to the store first and then moves the ranking of the
engine by the outcome it was answered with; the outcomes that count move
it, the others leave it, and an answer nobody expects marks a gap. A
failure of either side is not undone, so every handler also says whether
all the calls it made of the store and of the engine succeeded.
-/
import TikTools.Aggregation.Turns
import TikTools.Competitions.Calls

namespace TikTools.Competitions

open TikTools.Lib
open Aggregation (Engine Ranking Contribution)

/-- A like or a share counts what it reports. -/
inductive Social where
  | like (count : Nat)
  | share
  deriving DecidableEq, Repr

def Social.source : Social → String
  | .like _ => "tiktok.like"
  | .share => "tiktok.share"

def Social.metrics : Social → List (String × Nat)
  | .like count => [("like.count", count), ("event.count", 1)]
  | .share => [("share.count", 1), ("event.count", 1)]

/-- A like or a share that was admitted to the room. -/
structure SocialEvent where
  creatorId : String
  roomId : String
  participantId : String
  eventIdentity : String
  social : Social
  receivedAt : Nat
  deriving DecidableEq, Repr

def SocialEvent.contribution (event : SocialEvent) : Contribution where
  creatorId := event.creatorId
  roomId := event.roomId
  source := event.social.source
  user := some event.participantId
  gift := none
  option := none
  team := none
  customKey := none
  metrics := event.social.metrics

def SocialEvent.input (event : SocialEvent) (score : Nat) : ScoredInput where
  creatorId := event.creatorId
  roomId := event.roomId
  participantId := event.participantId
  eventIdentity := event.eventIdentity
  source := event.social.source
  score
  receivedAt := event.receivedAt

/-- What a gift packet adds, as the ranking scores it. -/
def GiftInput.contribution (input : GiftInput) (quantity diamonds : Nat)
    (gift : String) : Contribution where
  creatorId := input.creatorId
  roomId := input.roomId
  source := "tiktok.gift"
  user := some input.participantId
  gift := some gift
  option := none
  team := none
  customKey := none
  metrics := [("gift.count", quantity), ("gift.diamonds", diamonds),
    ("event.count", if quantity > 0 then 1 else 0)]

/-- The score of a routed contribution; the ranking stays as it is. -/
def scoreRouted (engine : Engine) (id : String)
    (contribution : Contribution) : Except Aggregation.Error Nat := do
  let ranking ← okOr engine.rankings[id]? .notFound
  let _ ← ranking.definition.assignmentWeight
  ensure (ranking.definition.voted
    ∧ ranking.definition.creatorId = contribution.creatorId
    ∧ ranking.definition.roomId = contribution.roomId
    ∧ contribution.source ∈ ["tiktok.like", "tiktok.share", "tiktok.gift"])
    .incompatibleDefinition
  Aggregation.score ranking.definition.sources contribution

/-- What the handlers read and change. -/
structure Host (T : Type) where
  store : Store T
  engine : Engine
  definitions : Table String Definition
  loadFailed : Bool

variable {T : Type} (S : Codec T) (lower : String → String)

namespace Host

def competitionGet (host : Host T) (id : String) : Option Definition :=
  if host.loadFailed then none else host.definitions[id]?

/-- `mark_competition_ranking_failure`. -/
def markFailure (host : Host T) (id creatorId roomId : String) : Host T :=
  { host with
    engine := host.engine.perform (match host.competitionGet id with
      | some definition => .markRankingGap definition.rankingId
      | none => .markGap creatorId roomId "competition.vote") }

/-- Show an option as its definition does. -/
def showOption (definition : Definition) (option : String) :
    Effect Engine Aggregation.Error Unit :=
  match definition.options.find? fun found => found.id == option with
  | none => pure ()
  | some found => Engine.within definition.rankingId
      (Effect.change (Ranking.setEntryMetadata option
        { label := some found.label, iconUrl := found.imageUrl }))

/-- Project an accepted vote. -/
def projectVote (host : Host T) (id : String)
    (previous : Option (String × Nat)) (next : String × Nat) :
    Host T × Bool :=
  match host.competitionGet id with
  | none => (host, false)
  | some definition =>
    match Engine.within definition.rankingId
        (Ranking.applyAssignment previous next) host.engine with
    | (.ok (), engine) =>
      match showOption definition next.1 engine with
      | (.ok (), engine) => ({ host with engine }, true)
      | (.error _, engine) => ({ host with
          engine := engine.perform
            (.markRankingGap definition.rankingId) }, false)
    | (.error .incompatibleDefinition, engine) =>
      ({ host with engine }, false)
    | (.error _, engine) => ({ host with
        engine := engine.perform
          (.markRankingGap definition.rankingId) }, false)

/-- Project an accepted score. -/
def projectScore (host : Host T) (definition : Definition)
    (option : String) (score : Nat) : Host T × Bool :=
  match Engine.within definition.rankingId
      (Ranking.applyCommittedScore option score) host.engine with
  | (.ok (), engine) =>
    match showOption definition option engine with
    | (.ok (), engine) => ({ host with engine }, true)
    | (.error _, engine) => ({ host with engine }, false)
  | (.error _, engine) => ({ host with engine }, false)

/-- A route whose projection failed marks a gap. -/
def orMark (id creatorId roomId : String) (handled : Host T × Bool) :
    Host T × Bool :=
  if handled.2 then handled
  else (handled.1.markFailure id creatorId roomId, false)

/-- One route of `route_live_competition_command`. -/
def routeCommand (host : Host T) (id : String)
    (input : CommandParticipation) (owner : String) : Host T × Bool :=
  match routeCompetitionCommandWithPrevious S lower host.store id input
      (some owner) with
  | .ok (store, some (.accepted option votes _), previous) =>
    { host with store }.projectVote id previous (option, votes)
  | .ok (store, some (.duplicate _), _) | .ok (store, some .closed, _)
  | .ok (store, some .unknownCommand, _)
  | .ok (store, some .switchForbidden, _)
  | .ok (store, some .voteLimit, _) => ({ host with store }, true)
  | .ok (store, _, _) =>
    (({ host with store } : Host T).markFailure id input.creatorId
      input.roomId, true)
  | .error _ => (host.markFailure id input.creatorId input.roomId, false)

/-- One route of `route_live_competition_score`. -/
def routeScore (host : Host T) (id : String) (event : SocialEvent)
    (owner : String) : Host T × Bool :=
  orMark id event.creatorId event.roomId
    (match host.competitionGet id with
    | none => (host, false)
    | some definition =>
      match scoreRouted host.engine definition.rankingId
          event.contribution with
      | .error _ => (host, false)
      | .ok score =>
        if score = 0 then (host, true)
        else
          match routeCompetitionScore S host.store id
              (event.input score) (some owner) with
          | .ok (store, some (.accepted option)) =>
            { host with store }.projectScore definition option score
          | .ok (store, some .duplicate) | .ok (store, some .closed)
          | .ok (store, some .unassigned) => ({ host with store }, true)
          | .ok (store, _) =>
            (({ host with store } : Host T).markFailure id
              event.creatorId event.roomId, true)
          | .error _ => (host, false))

/-- One route of `route_live_competition_gift`. -/
def routeGift (host : Host T) (id : String) (input : GiftInput)
    (owner : String) : Host T × Bool :=
  orMark id input.creatorId input.roomId
    (match host.competitionGet id with
    | none => (host, false)
    | some definition =>
      match routeCompetitionGift S host.store id input owner
          (fun quantity diamonds gift =>
            (scoreRouted host.engine definition.rankingId
              (input.contribution quantity diamonds gift)).mapError
              fun _ => .invalid "gift scoring failed") with
      | .ok (store, some (.accepted option score)) =>
        { host with store }.projectScore definition option score
      | .ok (store, some .duplicate) | .ok (store, some .closed)
      | .ok (store, some .unassigned) | .ok (store, some .zero) =>
        ({ host with store }, true)
      | .ok (store, _) =>
        (({ host with store } : Host T).markFailure id input.creatorId
          input.roomId, true)
      | .error _ => (host, false))

end Host

/-- An event that was routed to a competition. -/
inductive Routed where
  | command (id : String) (input : CommandParticipation) (owner : String)
  | social (id : String) (event : SocialEvent) (owner : String)
  | gift (id : String) (input : GiftInput) (owner : String)

def Routed.id : Routed → String
  | .command id _ _ | .social id _ _ | .gift id _ _ => id

/-- Handle one routed event. The flag says whether every call
succeeded. -/
def Host.handle (host : Host T) : Routed → Host T × Bool
  | .command id input owner => host.routeCommand S lower id input owner
  | .social id event owner => host.routeScore S id event owner
  | .gift id input owner => host.routeGift S id input owner

end TikTools.Competitions
