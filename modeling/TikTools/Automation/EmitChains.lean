/-
Chains of emissions: events whose rules emit further events.

A published event runs the rules that match it, and an action of a rule
may publish an event of its own before it returns. The dispatch is a
recursion, so a chain of emissions is the stack of a task: the external
event at the bottom, and one frame for each emission still under way.
The depth of a chain is not kept with the recursion. It travels in the
payload of the emitted event, and is believed there only for events that
the snapshot in memory knows to be emitted: the internal `plugin.emit`,
and the types a plugin owns in it.

# The bound

The snapshot loaded at startup has no event types, and neither does one
that is older than a plugin. A typed event read against such a snapshot
counts as a chain of its own, so a rule on a plugin's type whose action
emits that type runs for ever (`typed_chain_runs_on`). The bound of three
emissions holds in every run in which an emitted event whose depth is
read has a type that is tracked at that moment (`StepOk`). The invariant
is `Stacked`: the depth an emission carries is no less than its place in
the stack, and below three once it has passed the gate.
-/
import TikTools.Automation.Template
import TikTools.Lib.Js
import TikTools.Lib.Table
import TikTools.Lib.Text
import TikTools.Processors.Merge
import TikTools.Rankings.Emissions
import TikTools.Lib.Runs
import Mathlib.Logic.Function.Basic

namespace TikTools.Automation.EmitChains

open TikTools.Lib
open TikTools.Processors.Merge (Contract ProcessorOutcome Members
  mergeProcessorOutcomes)
open TikTools.Rankings (Emission EmittingPlugin makeInternalAutomationEvent
  nextSequence normalizeEmitType)
open Option Function

/-- What the service takes from elsewhere: the contract of the
processors, a number with a fraction as a counter, and the comparison of
one filter with an event. -/
structure Env where
  contract : Contract
  floatU64 : String → Option Nat
  matchesFilter : Json → Json → Bool

-- ==== snapshots

/-- A plugin's state as it is stored. -/
structure PluginRow where
  id : String
  installed : Bool
  enabled : Bool

/-- The tables the behavior snapshot is loaded from. -/
structure Database where
  actions : List Json
  events : List Json
  plugins : List PluginRow

/-- A plugin of the registry; `actionTypes` are the ids it declares. -/
structure DiscoveredPlugin where
  manifest : EmittingPlugin
  actionTypes : List String
  available : Bool

/-- A plugin as a snapshot lists it. -/
structure PluginEntry where
  id : String
  installed : Bool
  enabled : Bool
  available : Bool

/-- A behavior snapshot. An event type stands with the plugin that
declares it. -/
structure Snapshot where
  actions : List Json
  events : List Json
  plugins : List PluginEntry
  eventTypes : List (String × String)

def emptyBehaviorSnapshot : Snapshot := ⟨[], [], [], []⟩

def loadBehaviorSnapshot (db : Database) : Snapshot where
  actions := db.actions
  events := db.events
  plugins := db.plugins.map fun row => ⟨row.id, row.installed, row.enabled,
    true⟩
  eventTypes := []

/-- The event types of the registry, whatever the state of a plugin; a
later declaration overrides an earlier one. -/
def catalogEventTypes (registry : List DiscoveredPlugin) :
    List (String × String) :=
  registry.flatMap fun plugin =>
    plugin.manifest.eventTypes.map fun type => (type, plugin.manifest.id)

def mergeRuntimeCatalog (registry : List DiscoveredPlugin)
    (snapshot : Snapshot) : Snapshot :=
  { snapshot with
    plugins := registry.map fun plugin =>
      let state := snapshot.plugins.find? fun row =>
        row.id = plugin.manifest.id
      { id := plugin.manifest.id
        installed := (state.map PluginEntry.installed).getD true
        enabled := (state.map PluginEntry.enabled).getD true
        available := plugin.available }
    eventTypes := catalogEventTypes registry }

/-- The records of a list by id. -/
def recordsById (records : List Json) : Table String Json :=
  records.foldl (fun acc record =>
    match (record.get "id").bind Json.asStr with
    | some id => acc.insert id record
    | none => acc) ∅

/-- The owner of each trigger. -/
def triggerOwnersOf (eventTypes : List (String × String)) :
    Table String String :=
  eventTypes.foldl (fun acc entry => acc.insert entry.1 entry.2) ∅

/-- What the service keeps in memory. -/
structure AutomationService where
  actions : Table String Json
  events : Table String Json
  triggerOwners : Table String String
  enabledPlugins : List String
  cooldowns : Table String Nat

namespace AutomationService

def default : AutomationService := ⟨∅, ∅, ∅, [], ∅⟩

def replaceSnapshot (a : AutomationService) (snapshot : Snapshot) :
    AutomationService :=
  { a with
    actions := recordsById snapshot.actions
    events := recordsById snapshot.events
    triggerOwners := triggerOwnersOf snapshot.eventTypes
    enabledPlugins := (snapshot.plugins.filter fun plugin =>
      plugin.installed && plugin.enabled && plugin.available).map
        PluginEntry.id }

end AutomationService

-- ==== events

/-- The type of an event. -/
def typeOf (event : Json) : Option String :=
  (event.get "type").bind Json.asStr

/-- `parse::<u64>` of a text. -/
def parseU64 (text : String) : Option Nat :=
  let digits := match text.toList with
    | '+' :: digits => digits
    | digits => digits
  if digits ≠ [] ∧ digits.all Char.isDigit
  then some (Nat.ofDigitChars 10 digits 0) |>.filter (· ≤ u64Max)
  else none

section
variable (env : Env)

def numberU64 : Json → Option Nat
  | .number text => (Json.number text).asU64.or (env.floatU64 text)
  | .string text => parseU64 text
  | _ => none

/-- The depth an event carries, zero when it carries none. -/
def stampedDepth (event : Json) : Nat :=
  (((event.get "data").bind (Json.get "depth")).bind (numberU64 env)).getD 0

end

namespace AutomationService

/-- Whether the snapshot knows events of this type to be emitted. -/
def tracked (a : AutomationService) (event : Json) : Bool :=
  match typeOf event with
  | some type => type == "plugin.emit" || a.triggerOwners.contains type
  | none => false

def emitDepth (env : Env) (a : AutomationService) (event : Json) : Nat :=
  if a.tracked event then stampedDepth env event else 0

/-- Built-in triggers always match; a plugin's only while it is
active. -/
def triggerAllowed (a : AutomationService) : Option String → Bool
  | none => false
  | some trigger =>
    match a.triggerOwners[trigger]? with
    | none => true
    | some pluginId => a.enabledPlugins.contains pluginId

end AutomationService

section
variable (env : Env)

def eventRecordMatches (record event : Json) : Bool :=
  match record.get "filters" with
  | some (.array filters) =>
    filters.all fun filter => env.matchesFilter filter event
  | _ => true

end

/-- The trigger of a record. -/
def triggerOf (record : Json) : Option String :=
  (record.get "trigger").bind Json.asStr

/-- The id of a record. -/
def idOf (record : Json) : Option String := (record.get "id").bind Json.asStr

/-- The `enabled` member of a record. -/
def enabledOf (record : Json) : Option Bool :=
  (record.get "enabled").bind Json.asBool

namespace AutomationService

def matchingEvents (env : Env) (a : AutomationService) (event : Json) :
    List Json :=
  (a.events.toList.map Prod.snd).filter fun record =>
    enabledOf record == some true
      && triggerOf record == typeOf event
      && a.triggerAllowed (triggerOf record)
      && eventRecordMatches env record event

/-- Whether a matched record may still run. -/
def isRecordLive (a : AutomationService) (record : Json) : Bool :=
  match (idOf record).bind fun id => a.events[id]? with
  | none => false
  | some live =>
    enabledOf live != some false && a.triggerAllowed (triggerOf live)

/-- The actions of a record, or the one that `pick` draws. -/
def actionsForEvent (a : AutomationService) (record : Json) (pick : Nat) :
    List Json :=
  let ids := match record.get "actionIds" with
    | some (.array ids) => ids.filterMap Json.asStr
    | _ => []
  let selected := (ids.filterMap fun id => a.actions[id]?).filter
    fun action => enabledOf action != some false
  if (record.get "runMode").bind Json.asStr = some "random"
      ∧ 1 < selected.length
  then (selected[pick % selected.length]?).toList
  else selected

def maxCooldownMs : Nat := 24 * 60 * 60 * 1000
def cooldownSweepThreshold : Nat := 1024
def cooldownMapBound : Nat := 8192

/-- Whose cooldown a claim takes: everyone's or the viewer's. -/
def cooldownScope (record event : Json) : String :=
  if (record.get "cooldownScope").bind Json.asStr = some "global"
  then "global"
  else (((event.get "user").bind (Json.get "uniqueId")).bind
    Json.asStr).getD "anonymous"

/-- Claim a record for an event, unless it cools down. -/
def claimEvent (env : Env) (a : AutomationService) (record event : Json)
    (now : Nat) : Bool × AutomationService :=
  if ¬ eventRecordMatches env record event then (false, a)
  else
    let cooldownMs := min (((record.get "cooldownMs").bind
      (numberU64 env)).getD 0) maxCooldownMs
    if cooldownMs = 0 then (true, a)
    else
      let key := (idOf record).getD "event" ++ ":"
        ++ cooldownScope record event
      let swept :=
        if cooldownSweepThreshold ≤ a.cooldowns.size
        then a.cooldowns.retain fun _ previous =>
          now - previous ≤ maxCooldownMs
        else a.cooldowns
      let kept := if cooldownMapBound ≤ swept.size then ∅ else swept
      if kept[key]?.any fun previous => now - previous < cooldownMs
      then (false, { a with cooldowns := kept })
      else (true, { a with cooldowns := kept.insert key now })

end AutomationService

-- ==== actions

/-- An event an action is about to emit: on the internal channel, or
through a plugin's manifest. -/
inductive Intent where
  | internal (eventType : String) (payload : Members)
  | plugin (plugin : EmittingPlugin) (eventType : String) (data : Members)

/-- One intent of a plugin's result. -/
inductive HostIntent where
  | audioPlay (played : Bool)
  | emit (eventType : String) (data : Json)

/-- What an action gets from outside the host: the value of its script,
the answer to its request, the result of its plugin. -/
structure Outcome where
  script : Option Json
  response : Option (Nat × Json)
  plugin : Option (List HostIntent)

def renderJsonMap (value event : Json) (globals : Globals) : Members :=
  (Processors.Merge.membersOf value).map fun member =>
    (member.1, match member.2 with
      | .string text =>
        .string (String.ofList (renderTemplate text.toList event globals))
      | value => value)

/-- The text under a key. -/
def textAt (key : String) (config : Members) : Option String :=
  (Json.member key config).bind Json.asStr

/-- The event that carries an answer, where the action asks for one. -/
def responseIntents (config : Members) (outcome : Outcome) : List Intent :=
  match outcome.response, textAt "emitResponseAs" config with
  | some (status, body), some name =>
    if trim name.toList = [] then []
    else
      match normalizeEmitType name with
      | .error _ => []
      | .ok eventType =>
        [.internal eventType
          [("body", body), ("ok", .bool (200 ≤ status ∧ status < 300)),
            ("status", .number (toString status))]]
  | _, _ => []

def asValues : Json → List Json
  | .array values => values
  | value => [value]

/-- The emits of a script's value, and whether none of them failed. -/
def scriptIntents (event : Json) (globals : Globals) :
    List Json → List Intent × Bool
  | [] => ([], true)
  | .object members :: rest =>
    match textAt "type" members with
    | none => scriptIntents event globals rest
    | some name =>
      match normalizeEmitType name with
      | .error _ => ([], false)
      | .ok eventType =>
        let payload := ((Json.member "data" members).map
          fun data => renderJsonMap data event globals).getD []
        let (intents, completed) := scriptIntents event globals rest
        (.internal eventType payload :: intents, completed)
  | _ :: rest => scriptIntents event globals rest

/-- What a script action emits: its own events, then the answer to the
request it asks for. -/
def codeIntents (event : Json) (globals : Globals) (outcome : Outcome)
    (result : Json) : List Intent :=
  let (intents, completed) := scriptIntents event globals
    (((result.get "emit").map asValues).getD [])
  match completed, (result.get "fetch").bind Json.asObject with
  | true, some fetch =>
    let config := match result.get "emitResponseAs" with
      | some name => Json.setMember "emitResponseAs" name fetch
      | none => fetch
    intents ++ responseIntents config outcome
  | _, _ => intents

/-- The emits of a plugin's result, up to the first audio that fails. -/
def pluginIntents (plugin : EmittingPlugin) (event : Json)
    (globals : Globals) : List HostIntent → List Intent
  | [] => []
  | .audioPlay played :: rest =>
    if played then pluginIntents plugin event globals rest else []
  | .emit eventType data :: rest =>
    .plugin plugin eventType (renderJsonMap data event globals)
      :: pluginIntents plugin event globals rest

/-- The plugin that declares an action. -/
def pluginForAction (registry : List DiscoveredPlugin) (typeId : String) :
    Option DiscoveredPlugin :=
  registry.find? fun plugin => plugin.actionTypes.contains typeId

def typeIdOf (action : Json) : String :=
  (((action.get "typeId").or (action.get "type")).bind Json.asStr).getD ""

/-- What an action emits; the actions that play, wait, log or give
points emit nothing. -/
def executeAction (registry : List DiscoveredPlugin) (action event : Json)
    (globals : Globals) (outcome : Outcome) : List Intent :=
  let config := ((action.get "config").bind Json.asObject).getD []
  match typeIdOf action with
  | "core.emit" =>
    match normalizeEmitType ((textAt "type" config).getD "overlay.alert") with
    | .error _ => []
    | .ok eventType =>
      [.internal eventType (((Json.member "data" config).map
        fun data => renderJsonMap data event globals).getD [])]
  | "core.code" =>
    match textAt "source" config, outcome.script with
    | some _, some result => codeIntents event globals outcome result
    | _, _ => []
  | "core.fetch" => responseIntents config outcome
  | "core.log" | "core.points" | "core.points.subtract" | "core.delay"
  | "audio.play" | "core.audio.play" | "" => []
  | typeId =>
    match pluginForAction registry typeId, outcome.plugin with
    | some plugin, some intents =>
      pluginIntents plugin.manifest event globals intents
    | _, _ => []

-- ==== system

/-- Where the dispatch of an event stands: before the gate, before
matching, or with records, actions of the current record and emissions
of the current action still to come. -/
inductive Phase where
  | arriving
  | matching
  | running (records actions : List Json) (intents : List Intent)

structure Frame where
  event : Json
  phase : Phase

/-- The application. A task is the stack of events it dispatches, the
innermost first; its last frame is an external event. -/
structure System where
  db : Database
  registry : List DiscoveredPlugin
  automation : AutomationService
  sequence : Nat
  tasks : Nat → List Frame

/-- A process start: the snapshot is what the database holds. -/
def System.start (db : Database) (registry : List DiscoveredPlugin) :
    System where
  db := db
  registry := registry
  automation := AutomationService.default.replaceSnapshot
    (loadBehaviorSnapshot db)
  sequence := 0
  tasks := fun _ => []

/-- The emissions of a chain: all frames but the external event. -/
def System.links (s : System) (k : Nat) : Nat := (s.tasks k).length - 1

def System.setTask (s : System) (k : Nat) (stack : List Frame) : System :=
  { s with tasks := Function.update s.tasks k stack }

theorem System.setTask_self (s : System) (k : Nat) (stack : List Frame) :
    (s.setTask k stack).tasks k = stack := update_self ..

inductive Action where
  /-- Records or plugin states are stored. -/
  | edit (db : Database)
  /-- Plugins are installed, updated, uninstalled or rescanned. -/
  | scan (registry : List DiscoveredPlugin)
  /-- The merged snapshot replaces the one in memory; a failed load
  counts as an empty snapshot. -/
  | refresh (loaded : Bool)
  | restart
  /-- An event from outside: LIVE, polled, pushed or queued. -/
  | external (k : Nat) (event : Json) (outcomes : List ProcessorOutcome)
  /-- The operator fires an event, with the draft in the editor. -/
  | fire (k : Nat) (event : Json) (draft : Option Json)
      (outcomes : List ProcessorOutcome)
  /-- The depth of the innermost event is compared with the limit. -/
  | gate (k : Nat)
  | select (k : Nat)
  | claim (k : Nat) (now pick : Nat)
  | act (k : Nat) (globals : Globals) (outcome : Outcome)
  | emit (k : Nat) (now : Nat) (outcomes : List ProcessorOutcome)
  | finish (k : Nat)
  /-- An action runs into its deadline: what it awaits is dropped. -/
  | deadline (k : Nat) (inner : Nat)

def maxEmitDepth : Nat := 3

def encodedLength (value : Json) : Nat :=
  (String.ofList value.encode).utf8ByteSize

section
variable (env : Env)

/-- The event an intent publishes, with the next number; none when it
fails. -/
def publish (s : System) (now : Nat) (source : Json) :
    Intent → Option Json
  | .internal eventType payload =>
    some (makeInternalAutomationEvent (nextSequence s.sequence) now source
      (s.automation.emitDepth env source) eventType payload)
  | .plugin plugin eventType data =>
    let emission : Emission :=
      { plugin, eventType, data, event := source
        depth := s.automation.emitDepth env source
        test := false, now }
    match emission.accepted encodedLength with
    | .error _ => none
    | .ok (eventType, typed) =>
      some (emission.published (nextSequence s.sequence) eventType typed)

/-- The records a fired event runs: the stored ones without the draft's
twin, then the draft. -/
def firedRecords (a : AutomationService) (event : Json)
    (draft : Option Json) : List Json :=
  let saved := (a.matchingEvents env event).filter fun record =>
    match draft.bind idOf with
    | some id => idOf record != some id
    | none => true
  saved ++ (draft.filter fun record =>
    triggerOf record == typeOf event
      && eventRecordMatches env record event).toList

namespace System

def next (s : System) : Action → Option System
  | .edit db => some { s with db := db }
  | .scan registry => some { s with registry := registry }
  | .refresh loaded =>
    let snapshot :=
      if loaded then loadBehaviorSnapshot s.db else emptyBehaviorSnapshot
    let merged := mergeRuntimeCatalog s.registry snapshot
    some { s with automation := s.automation.replaceSnapshot merged }
  | .restart => some (start s.db s.registry)
  | .external k event outcomes =>
    match s.tasks k with
    | [] => some (s.setTask k
        [⟨mergeProcessorOutcomes env.contract event outcomes, .arriving⟩])
    | _ => none
  | .fire k event draft outcomes =>
    let event := mergeProcessorOutcomes env.contract event outcomes
    match s.tasks k with
    | [] =>
      if maxEmitDepth ≤ s.automation.emitDepth env event then some s
      else some (s.setTask k [⟨event,
        .running (firedRecords env s.automation event draft) [] []⟩])
    | _ => none
  | .gate k =>
    match s.tasks k with
    | ⟨event, .arriving⟩ :: below =>
      if maxEmitDepth ≤ s.automation.emitDepth env event
      then some (s.setTask k below)
      else some (s.setTask k (⟨event, .matching⟩ :: below))
    | _ => none
  | .select k =>
    match s.tasks k with
    | ⟨event, .matching⟩ :: below =>
      some (s.setTask k (⟨event, .running
        ((s.automation.matchingEvents env event).filter
          s.automation.isRecordLive) [] []⟩ :: below))
    | _ => none
  | .claim k now pick =>
    match s.tasks k with
    | ⟨event, .running (record :: records) [] []⟩ :: below =>
      let (claimed, automation) :=
        s.automation.claimEvent env record event now
      let actions := if claimed
        then automation.actionsForEvent record pick else []
      let claiming := { s with automation := automation }
      some (claiming.setTask k
        (⟨event, .running records actions []⟩ :: below))
    | _ => none
  | .act k globals outcome =>
    match s.tasks k with
    | ⟨event, .running records (action :: actions) []⟩ :: below =>
      some (s.setTask k (⟨event, .running records actions
        (executeAction s.registry action event globals outcome)⟩ :: below))
    | _ => none
  | .emit k now outcomes =>
    match s.tasks k with
    | ⟨event, .running records actions (intent :: intents)⟩ :: below =>
      match publish env s now event intent with
      | none => some (s.setTask k
          (⟨event, .running records actions []⟩ :: below))
      | some emitted =>
        let numbered := { s with sequence := nextSequence s.sequence }
        some (numbered.setTask k
          (⟨mergeProcessorOutcomes env.contract emitted outcomes,
              .arriving⟩
            :: ⟨event, .running records actions intents⟩ :: below))
    | _ => none
  | .finish k =>
    match s.tasks k with
    | ⟨_, .running [] [] []⟩ :: below => some (s.setTask k below)
    | _ => none
  | .deadline k inner =>
    match (s.tasks k).drop inner with
    | ⟨event, .running records actions _⟩ :: below =>
      some (s.setTask k (⟨event, .running records actions []⟩ :: below))
    | _ => none

/-- One step. -/
def Step (s : System) (a : Action) (t : System) : Prop :=
  next env s a = some t

end System

-- ==== the depth in an event

end

variable {n : Nat}

theorem typeOf_merge (env : Env) (event : Json)
    (o : List ProcessorOutcome) :
    typeOf (mergeProcessorOutcomes env.contract event o) = typeOf event := by
  unfold typeOf
  rw [Processors.Merge.get_mergeProcessorOutcomes (by decide)]

theorem stampedDepth_merge (env : Env) (event : Json)
    (o : List ProcessorOutcome) :
    stampedDepth env (mergeProcessorOutcomes env.contract event o)
      = stampedDepth env event := by
  unfold stampedDepth
  rw [Processors.Merge.get_mergeProcessorOutcomes (by decide)]

variable {event : Json}

theorem stampedDepth_of_data (env : Env) {d : Members}
    (hev : event.get "data" = some (.object d))
    (hd : Json.member "depth" d = some (.number (toString n)))
    (h : n ≤ u64Max) : stampedDepth env event = n := by
  have hget : (Json.object d).get "depth" = some (.number (toString n)) := hd
  have hr : (Json.number (toString n)).asU64 = some n := Json.asU64_ofNat h
  simp only [stampedDepth, hev, bind_some, hget, numberU64, hr,
    some_or, getD_some]

theorem saturatingAdd_le (a b : Nat) : saturatingAdd a b ≤ u64Max :=
  min_le_right _ _

theorem stampedDepth_internal (env : Env) (nu now : Nat)
    (so : Json) (d : Nat) (et : String) (p : Members) :
    stampedDepth env (makeInternalAutomationEvent nu now so d
      et p) = saturatingAdd d 1 := by
  have hd : (makeInternalAutomationEvent nu now so d
      et p).get "data" = some (.object (Json.extend []
        [("emitType", .string et),
          ("depth", .number (toString (saturatingAdd d 1))),
          ("payload", .object p)])) := by
    show Json.member "data" (Rankings.inherit so _) = _
    rw [Rankings.member_inherit so (by decide)]
    exact Json.member_setMember_self _ _ _
  refine stampedDepth_of_data env hd ?_ (saturatingAdd_le d 1)
  exact Rankings.member_foldl_setMember [_] (by simp)
    (Json.member_setMember_self "depth" _ _)

theorem stampedDepth_plugin (env : Env) (nu now : Nat)
    (p : String) (so : Json) (d : Nat) (et : String)
    (da : Members) :
    stampedDepth env (Rankings.makePluginEvent nu now p so
      d et da) = saturatingAdd d 1 := by
  refine stampedDepth_of_data env ?_
    (Json.member_setMember_self "depth" _ da) (saturatingAdd_le d 1)
  show Json.member "data" (Rankings.inherit so _) = _
  rw [Rankings.member_inherit so (by decide)]
  exact Json.member_setMember_self _ _ _

theorem stampedDepth_publish {env : Env} {s : System} {now : Nat}
    {source : Json} {intent : Intent} {e : Json}
    (h : publish env s now source intent = some e) :
    stampedDepth env e
      = saturatingAdd (s.automation.emitDepth env source) 1 := by
  cases intent with
  | internal et payload =>
    cases h
    exact stampedDepth_internal env _ _ _ _ _ _
  | plugin plugin et data =>
    simp only [publish] at h
    split at h
    · cases h
    · next type ty _ =>
      cases h
      cases ty with
      | true => exact stampedDepth_plugin env _ _ _ _ _ _ _
      | false => exact stampedDepth_internal env _ _ _ _ _ _

-- ==== the stacks

/-- Whether an event has passed its gate. -/
def Phase.Passed (phase : Phase) : Prop := phase ≠ .arriving

/-- An emission carries at least its place in the stack, and whatever
has passed the gate is below the limit. -/
def Stacked (env : Env) : List Frame → Prop
  | [] => True
  | frame :: below =>
    (below ≠ [] → below.length ≤ stampedDepth env frame.event)
      ∧ (frame.phase.Passed → below.length < maxEmitDepth)
      ∧ (∀ parent ∈ below.head?, parent.phase.Passed)
      ∧ Stacked env below

namespace Stacked

variable {env : Env} {frame : Frame} {below : List Frame}

theorem tail (h : Stacked env (frame :: below)) : Stacked env below := h.2.2.2

variable {stack : List Frame}

theorem drop (h : Stacked env stack) (n : Nat) :
    Stacked env (stack.drop n) := by
  induction n generalizing stack with
  | zero => exact h
  | succ n ih =>
    cases stack with
    | nil => exact h
    | cons frame below => exact ih h.tail

theorem length_le (h : Stacked env stack) :
    stack.length ≤ maxEmitDepth + 1 := by
  cases stack with
  | nil => exact Nat.zero_le _
  | cons frame below =>
    obtain ⟨-, -, hpar, hb⟩ := h
    cases below with
    | nil => exact Nat.succ_le_succ (Nat.zero_le _)
    | cons p rest =>
      have hp : rest.length < maxEmitDepth := hb.2.1 (hpar p rfl)
      simp only [List.length_cons]
      omega

theorem advance {p p' : Phase}
    (h : Stacked env (⟨event, p⟩ :: below)) (hp : p.Passed) :
    Stacked env (⟨event, p'⟩ :: below) :=
  ⟨h.1, fun _ => h.2.1 hp, h.2.2⟩

theorem single (frame : Frame) : Stacked env [frame] :=
  ⟨fun h => absurd rfl h, fun _ => Nat.zero_lt_succ _,
    fun _ h => by simp at h, trivial⟩

end Stacked

-- ==== runs

namespace System

/-- Whether the innermost event of a stack is tracked, or external. -/
def innermostTracked (a : AutomationService) : List Frame → Bool
  | [] | [_] => true
  | frame :: _ :: _ => a.tracked frame.event

/-- The condition on a step: an emitted event whose depth is about to be
read, at the gate or when it is emitted from, has a type that the
snapshot in memory tracks. -/
def StepOk (s : System) : Action → Bool
  | .gate k | .emit k _ _ => innermostTracked s.automation (s.tasks k)
  | _ => true

variable {env : Env} {s t : System}

/-- All tasks are within the bound. -/
def Bounded (env : Env) (s : System) : Prop := ∀ k, Stacked env (s.tasks k)

variable {k : Nat} {stack : List Frame}

theorem Bounded.setTask (h : Bounded env s) (hs : Stacked env stack) :
    Bounded env (s.setTask k stack) := by
  intro j
  by_cases hj : j = k
  · subst hj
    simpa [System.setTask] using hs
  · simpa [System.setTask, update_of_ne hj] using h j

theorem setTask_of_tasks (h : Bounded env s) (ht : t.tasks = s.tasks)
    (hs : Stacked env stack) : Bounded env (t.setTask k stack) :=
  Bounded.setTask (fun j => ht ▸ h j) hs

theorem Bounded.task (h : Bounded env s) (ht : s.tasks k = stack) :
    Stacked env stack :=
  ht ▸ h k

theorem emitDepth_innermost {frame : Frame} {below : List Frame}
    (h : innermostTracked s.automation (s.tasks k))
    (ht : s.tasks k = frame :: below) (hb : below ≠ []) :
    s.automation.emitDepth env frame.event
      = stampedDepth env frame.event := by
  rw [ht] at h
  cases below with
  | nil => exact absurd rfl hb
  | cons parent rest => exact if_pos h

theorem stacked_gate {below : List Frame}
    (ht : s.tasks k = ⟨event, .arriving⟩ :: below)
    (hr : innermostTracked s.automation (s.tasks k))
    (hd : ¬ maxEmitDepth ≤ s.automation.emitDepth env event)
    (h : Stacked env (⟨event, .arriving⟩ :: below)) :
    Stacked env (⟨event, .matching⟩ :: below) := by
  refine ⟨h.1, fun _ => ?_, h.2.2⟩
  by_cases hb : below = []
  · rw [hb]
    exact Nat.zero_lt_succ _
  · rw [emitDepth_innermost hr ht hb] at hd
    have hp : below.length ≤ stampedDepth env event := h.1 hb
    exact Nat.lt_of_le_of_lt hp (Nat.lt_of_not_le hd)

theorem stacked_emit {e : Json} {below : List Frame}
    {r a : List Json} {int : Intent} {i : List Intent}
    {now : Nat} (o : List ProcessorOutcome) (ht : s.tasks k
      = ⟨event, .running r a (int :: i)⟩ :: below)
    (hr : innermostTracked s.automation (s.tasks k))
    (hem : publish env s now event int = some e) (h : Stacked env
      (⟨event, .running r a (int :: i)⟩ :: below)) :
    Stacked env
      (⟨mergeProcessorOutcomes env.contract e o, .arriving⟩
        :: ⟨event, .running r a i⟩ :: below) := by
  have hpl : below.length < maxEmitDepth := h.2.1 nofun
  have hsrc : below.length ≤ s.automation.emitDepth env event := by
    by_cases hb : below = []
    · rw [hb]
      exact Nat.zero_le _
    · rw [emitDepth_innermost hr ht hb]
      exact h.1 hb
  refine ⟨fun _ => ?_, fun hp => absurd rfl hp, ?_, h.advance nofun⟩
  · rw [stampedDepth_merge, stampedDepth_publish hem, saturatingAdd,
      List.length_cons]
    have hl : maxEmitDepth ≤ u64Max := by decide
    omega
  · rintro parent ⟨⟩
    nofun

theorem bounded_step {a : Action} (h : Bounded env s) (hok : s.StepOk a)
    (hs : Step env s a t) : Bounded env t := by
  unfold Step at hs
  cases a with
  | edit db =>
    cases hs
    exact h
  | scan registry =>
    cases hs
    exact h
  | refresh loaded =>
    cases hs
    exact h
  | restart =>
    cases hs
    exact fun _ => trivial
  | external k event o =>
    simp only [next] at hs
    split at hs
    · cases hs
      exact h.setTask (.single _)
    · cases hs
  | fire k event draft o =>
    simp only [next] at hs
    split at hs
    · split at hs
      · cases hs
        exact h
      · cases hs
        exact h.setTask (.single _)
    · cases hs
  | gate k =>
    simp only [next] at hs
    split at hs
    · next event below ht =>
      have hst := h.task ht
      split at hs
      · cases hs
        exact h.setTask hst.tail
      · next hd =>
        cases hs
        exact h.setTask (stacked_gate ht hok hd hst)
    · cases hs
  | select k =>
    simp only [next] at hs
    split at hs
    · next event below ht =>
      have hst := h.task ht
      cases hs
      exact h.setTask (hst.advance nofun)
    · cases hs
  | claim k now pick =>
    simp only [next] at hs
    split at hs
    · next event record r below ht =>
      have hst := h.task ht
      cases hs
      exact setTask_of_tasks h rfl (hst.advance nofun)
    · cases hs
  | act k globals outcome =>
    simp only [next] at hs
    split at hs
    · next event r action ac below ht =>
      have hst := h.task ht
      cases hs
      exact h.setTask (hst.advance nofun)
    · cases hs
  | emit k now o =>
    simp only [next] at hs
    split at hs
    · next event r ac intent i below ht =>
      have hst := h.task ht
      split at hs
      · cases hs
        exact h.setTask (hst.advance nofun)
      · next emitted hem =>
        cases hs
        exact setTask_of_tasks h rfl (stacked_emit o ht hok hem hst)
    · cases hs
  | finish k =>
    simp only [next] at hs
    split at hs
    · next event below ht =>
      cases hs
      exact h.setTask (h.task ht).tail
    · cases hs
  | deadline k inn =>
    simp only [next] at hs
    split at hs
    · next event r ac i below ht =>
      cases hs
      have hst : Stacked env
          (⟨event, .running r ac i⟩ :: below) :=
        ht ▸ (h k).drop inn
      exact h.setTask (hst.advance nofun)
    · cases hs

-- ---- what the merged catalog tracks

theorem typeOf_plugin (number now : Nat) (pluginId : String)
    (source : Json) (depth : Nat) (eventType : String) (data : Members) :
    typeOf (Rankings.makePluginEvent number now pluginId source depth
      eventType data) = some eventType := by
  have hget : (Rankings.makePluginEvent number now pluginId source depth
      eventType data).get "type" = some (.string eventType) := by
    show Json.member "type" (Rankings.inherit source _) = _
    rw [Rankings.member_inherit source (by decide)]
    exact Rankings.member_foldl_setMember [_, _, _] (by simp)
      (Json.member_setMember_self "type" _ _)
  rw [typeOf, hget]
  rfl

-- ---- where it goes wrong

/-- A rule on the quiz plugin's event type, whose action emits that
type. -/
def quizRule : Json :=
  .object [("actionIds", .array [.string "celebrate"]),
    ("enabled", .bool true), ("id", .string "rule"),
    ("trigger", .string "quiz.won")]

def quizAction : Json :=
  .object [("id", .string "celebrate"), ("typeId", .string "quiz.celebrate")]

def quizDatabase : Database :=
  ⟨[quizAction], [quizRule], [⟨"quiz", true, true⟩]⟩

def quizPlugin : DiscoveredPlugin :=
  ⟨⟨"quiz", ["quiz.won"], ["events.publish"]⟩, ["quiz.celebrate"], true⟩

def quizEnv : Env :=
  ⟨Processors.Merge.plainContract, fun _ => none, fun _ _ => true⟩

def quizStart : System := start quizDatabase [quizPlugin]

/-- The result of the plugin's action. -/
def quizOutcome : Outcome :=
  ⟨none, none, some [.emit "quiz.won" (.object [])]⟩

/-- One link: the event passes the gate, the rule matches, and its action
emits. -/
def quizRound : List Action :=
  [.gate 0, .select 0, .claim 0 0 0, .act 0 [] quizOutcome, .emit 0 0 []]

/-- The event in hand is a quiz event, and memory is as it was loaded. -/
structure Celebrating (n : Nat) (s : System) : Prop where
  automation : s.automation = quizStart.automation
  registry : s.registry = [quizPlugin]
  task : ∃ event below, s.tasks 0 = ⟨event, .arriving⟩ :: below
    ∧ below.length = n ∧ typeOf event = some "quiz.won"

theorem quiz_untracked :
    quizStart.automation.triggerOwners.contains "quiz.won" = false := by
  decide +kernel

theorem quiz_emitDepth (h : typeOf event = some "quiz.won") :
    quizStart.automation.emitDepth quizEnv event = 0 := by
  have hu : quizStart.automation.tracked event = false := by
    simp [AutomationService.tracked, h, quiz_untracked]
  simp [AutomationService.emitDepth, hu]

theorem quiz_matching (h : typeOf event = some "quiz.won") :
    (quizStart.automation.matchingEvents quizEnv event).filter
      quizStart.automation.isRecordLive = [quizRule] := by
  have hs : quizStart.automation.events.toList.map Prod.snd
      = [quizRule] := by decide +kernel
  have ha : quizStart.automation.triggerAllowed
      (some "quiz.won") = true := by decide +kernel
  have hl : quizStart.automation.isRecordLive quizRule = true := by
    decide +kernel
  have ht : triggerOf quizRule = some "quiz.won" := by decide +kernel
  have hen : enabledOf quizRule = some true := by decide +kernel
  have hmat : eventRecordMatches quizEnv quizRule event = true := rfl
  unfold AutomationService.matchingEvents
  rw [hs]
  simp [h, ht, hen, ha, hmat, hl]

theorem quiz_claim (event : Json) :
    quizStart.automation.claimEvent quizEnv quizRule event 0
      = (true, quizStart.automation) := by
  have hmat : eventRecordMatches quizEnv quizRule event = true := rfl
  have hc : ((quizRule.get "cooldownMs").bind
      (numberU64 quizEnv)).getD 0 = 0 := by decide +kernel
  simp [AutomationService.claimEvent, hmat, hc]

theorem quiz_actions :
    quizStart.automation.actionsForEvent quizRule 0 = [quizAction] := by
  decide +kernel

theorem quiz_execute (event : Json) :
    executeAction [quizPlugin] quizAction event [] quizOutcome
      = [.plugin quizPlugin.manifest "quiz.won" []] := rfl

theorem quiz_publish (s : System) (event : Json) :
    publish quizEnv s 0 event (.plugin quizPlugin.manifest "quiz.won" [])
      = some (Rankings.makePluginEvent (nextSequence s.sequence) 0 "quiz"
          event (s.automation.emitDepth quizEnv event) "quiz.won" []) := by
  have hnr : (normalizeEmitType "quiz.won").toOption
      = some "quiz.won" := by decide +kernel
  have hcp : (quizPlugin.manifest.requireCapability
      Rankings.eventsPublish).toOption = some () := by decide +kernel
  have hs : encodedLength (.object [])
      ≤ Rankings.maxPluginEventBytes := by decide +kernel
  have hacc : ∀ e : Emission, e.plugin = quizPlugin.manifest →
      e.eventType = "quiz.won" → e.data = [] →
      e.accepted encodedLength = .ok ("quiz.won", true) := by
    rintro ⟨plugin, eventType, data, _, _, _, _⟩ rfl rfl rfl
    unfold Emission.accepted
    cases hn : normalizeEmitType "quiz.won" with
    | error _ => simp [hn, Except.toOption] at hnr
    | ok no =>
      cases hc : quizPlugin.manifest.requireCapability
          Rankings.eventsPublish with
      | error _ => simp [hc, Except.toOption] at hcp
      | ok _ =>
        obtain rfl : no = "quiz.won" := by
          simpa [hn, Except.toOption] using hnr
        simp [bind, Except.bind, ensure, hs, quizPlugin, pure, Except.pure]
  simp only [publish]
  rw [hacc _ rfl rfl rfl]
  rfl

theorem quiz_round {n : Nat} {s : System} (h : Celebrating n s) :
    ∃ t, runWhile (next quizEnv) (fun _ _ => true) s quizRound = some t
      ∧ Celebrating (n + 1) t := by
  obtain ⟨ha, hrgy, event, below, ht, hlen, hty⟩ := h
  obtain ⟨db, registry, automation, sequence, tasks⟩ := s
  dsimp only at ha hrgy ht
  subst ha hrgy
  have hg : ¬ maxEmitDepth
      ≤ quizStart.automation.emitDepth quizEnv event := by
    rw [quiz_emitDepth hty]
    decide
  have hs : ∀ (tasks : Nat → List Frame) (stack : List Frame),
      Function.update tasks 0 stack 0 = stack := fun _ _ =>
    update_self ..
  simp only [quizRound, runWhile, if_true, next, ht, if_neg hg,
    bind_some, System.setTask, update_self,
    quiz_matching hty, quiz_claim, quiz_actions, quiz_execute,
    quiz_publish]
  let won := Rankings.makePluginEvent (nextSequence sequence) 0 "quiz" event
    (quizStart.automation.emitDepth quizEnv event) "quiz.won" []
  let parent : Frame := ⟨event, .running [] [] []⟩
  refine ⟨_, rfl, rfl, rfl, mergeProcessorOutcomes quizEnv.contract won [],
    parent :: below, ?_, ?_, ?_⟩
  · dsimp only
    exact hs _ _
  · simp [hlen]
  · rw [typeOf_merge, typeOf_plugin]

/-- The chain that one quiz event starts passes every length: nothing
but the deadline of the outermost action ends it. -/
theorem typed_chain_grows (n : Nat) :
    ∃ t, Run (Step quizEnv) (fun _ _ => True) quizStart t
      ∧ t.links 0 = n := by
  have hc : ∃ t, Run (Step quizEnv) (fun _ _ => True) quizStart t
      ∧ Celebrating n t := by
    induction n with
    | zero =>
      let won := Rankings.makePluginEvent 1 0 "quiz" (.object []) 0
        "quiz.won" []
      let frame : Frame :=
        ⟨mergeProcessorOutcomes quizEnv.contract won [], .arriving⟩
      refine ⟨quizStart.setTask 0 [frame],
        .tail (.external 0 won []) .refl trivial rfl, rfl, rfl,
        frame.event, [], setTask_self .., rfl, ?_⟩
      rw [typeOf_merge, typeOf_plugin]
    | succ n ih =>
      obtain ⟨s, h, hs⟩ := ih
      obtain ⟨t, hr, ht⟩ := quiz_round hs
      exact ⟨t, Run.of_runWhile (fun _ _ _ => trivial) h quizRound hr, ht⟩
  obtain ⟨t, h, -, -, event, below, hts, hl, -⟩ := hc
  refine ⟨t, h, ?_⟩
  simp [links, hts, hl]

end System

end TikTools.Automation.EmitChains
