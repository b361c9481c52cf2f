/-
The routing index of chat commands and native sources.

A registration files every command of a definition, lower-cased and with
the scope of its ranking, under the competition; a list of the keys is
kept to take them out again, and the number of routes is counted along.
The sources of a competition are filed the same way, after it is
registered. Every check stands before the first write.
-/
import TikTools.Lib.Buckets
import TikTools.Lib.Effect
import TikTools.Competitions.Lifecycle

namespace TikTools.Competitions

open TikTools.Lib

def maxCompetitions : Nat := 128
def maxRoutes : Nat := 32768
def maxRoutesPerCompetition : Nat := 2048

/-- A creator, a room, and a command or a source. -/
abbrev RouteKey := String ×ₗ String ×ₗ String

def routeKey (creator room name : String) : RouteKey :=
  toLex (creator, toLex (room, name))

structure CommandRoute where
  competitionId : String
  optionId : String
  deriving DecidableEq, Repr

structure CommandIndex where
  routes : Buckets RouteKey String String := ∅
  registrations : Table String (List RouteKey) := ∅
  routeCount : Nat := 0
  sourceRoutes : Buckets RouteKey String Unit := ∅
  sourceRegistrations : Table String (List RouteKey) := ∅

/-- The lower-cased commands of a definition with their options. -/
def Definition.commandRoutes (lower : String → String)
    (definition : Definition) : List (String × String) :=
  definition.options.flatMap fun option =>
    option.commands.map fun command => (lower command, option.id)

/-- Creators and rooms have 1 to 256 bytes. -/
def validScope (creator room : String) : Prop :=
  creator ≠ "" ∧ creator.utf8ByteSize ≤ 256
    ∧ room ≠ "" ∧ room.utf8ByteSize ≤ 256

instance (creator room : String) : Decidable (validScope creator room) :=
  inferInstanceAs (Decidable (_ ∧ _))

namespace CommandIndex

-- ==== changes

/-- Take the sources of a competition out of the index. -/
def dropSources (index : CommandIndex) (id : String) : CommandIndex :=
  match index.sourceRegistrations[id]? with
  | none => index
  | some keys => { index with
      sourceRegistrations := index.sourceRegistrations.erase id
      sourceRoutes := index.sourceRoutes.drops id keys }

/-- The flag says whether there was anything to remove. -/
def remove (index : CommandIndex) (id : String) : CommandIndex × Bool :=
  match index.registrations[id]? with
  | none => (index, false)
  | some keys =>
    let index := { index with
      registrations := index.registrations.erase id
      routeCount := index.routeCount - keys.length }
    let index := index.dropSources id
    ({ index with routes := index.routes.drops id keys }, true)

/-- File the routes of a competition that has none. -/
def file (index : CommandIndex) (id : String)
    (rows : List (RouteKey × String)) : CommandIndex :=
  { index with
    routes := index.routes.puts id rows
    routeCount := index.routeCount + rows.length
    registrations := index.registrations.insert id (rows.map Prod.fst) }

def register (lower : String → String) (definition : Definition)
    (creator room : String) : Effect CommandIndex Error Unit := do
  Effect.lift (definition.validate lower)
  Effect.lift (ensure (validScope creator room) .invalidCandidate)
  Effect.look fun index =>
    ensure (index.registrations[definition.id]? ≠ none
      ∨ index.registrations.size < maxCompetitions) .capacity
  let commands := definition.commandRoutes lower
  Effect.lift (ensure (commands.length ≤ maxRoutesPerCompetition
    ∧ ∀ row ∈ commands, row.1.utf8ByteSize ≤ 512) .capacity)
  Effect.look fun index =>
    let previous := index.registrations[definition.id]?.elim 0 List.length
    ensure (index.routeCount - previous + commands.length ≤ maxRoutes)
      .capacity
  Effect.change fun index => .ok (index.remove definition.id).1
  Effect.change fun index => .ok (index.file definition.id
    (commands.map fun row => (routeKey creator room row.1, row.2)))

/-- The distinct keys of some sources, in order. -/
def sourceKeys (creator room : String) (sources : List String) :
    List RouteKey :=
  ((sources.foldl (fun keys source =>
    keys.insert (routeKey creator room source) ())
      (∅ : Table RouteKey Unit)).toList).map Prod.fst

def registerSources (id creator room : String) (sources : List String) :
    Effect CommandIndex Error Unit := do
  Effect.look fun index =>
    ensure (index.registrations[id]? ≠ none ∧ validScope creator room
      ∧ sources.length ≤ 3
      ∧ ∀ source ∈ sources,
        source ∈ ["tiktok.like", "tiktok.share", "tiktok.gift"])
      .invalidCandidate
  let keys := sourceKeys creator room sources
  Effect.change fun index => .ok (index.dropSources id)
  Effect.change fun index => .ok { index with
    sourceRoutes := index.sourceRoutes.puts id (keys.map (·, ()))
    sourceRegistrations := index.sourceRegistrations.insert id keys }

-- ==== answers

def matchingSource (index : CommandIndex)
    (creator room source : String) : List String :=
  (index.sourceRoutes.bucket (routeKey creator room source)).toList.map
    Prod.fst

def matching (lower : String → String) (index : CommandIndex)
    (creator room comment : String) : List CommandRoute :=
  if 128 < comment.utf8ByteSize then []
  else
    (index.routes.bucket (routeKey creator room
      (lower (String.ofList (trim comment.toList))))).toList.map
        fun (competitionId, optionId) => { competitionId, optionId }

-- ==== runs

inductive Call where
  | register (definition : Definition) (creator room : String)
  | registerSources (id creator room : String) (sources : List String)
  | remove (id : String)

/-- The index after a call, and whether the call succeeded. -/
def perform (lower : String → String) (index : CommandIndex) :
    Call → CommandIndex × Bool
  | .register definition creator room =>
    let result := register lower definition creator room index
    (result.2, result.1.toOption.isSome)
  | .registerSources id creator room sources =>
    let result := registerSources id creator room sources index
    (result.2, result.1.toOption.isSome)
  | .remove id => index.remove id

end CommandIndex

-- ==== registered

/-- A competition as it was registered last, with the scope and the
sources that were given for it since. -/
structure Registered where
  definition : Definition
  creator : String
  room : String
  sources : Option (String × String × List String) := none

/-- The competitions that are registered after a call. -/
def registry (before : Table String Registered) (succeeded : Bool) :
    CommandIndex.Call → Table String Registered
  | .register definition creator room =>
    if succeeded then
      before.insert definition.id { definition, creator, room }
    else before
  | .registerSources id creator room sources =>
    match before[id]? with
    | some entry =>
      if succeeded then
        before.insert id
          { entry with sources := some (creator, room, sources) }
      else before
    | none => before
  | .remove id => before.erase id

/-- The option of a comment in the scope of a competition. -/
def Registered.optionFor (lower : String → String) (entry : Registered)
    (creator room comment : String) : Option String :=
  if entry.creator = creator ∧ entry.room = room then
    entry.definition.optionForCommand lower comment
  else none

/-- Whether a source was registered in a scope. -/
def Registered.listens (entry : Registered)
    (creator room source : String) : Bool :=
  entry.sources.any fun (scopeCreator, scopeRoom, sources) =>
    scopeCreator = creator && scopeRoom = room && sources.contains source

end TikTools.Competitions
