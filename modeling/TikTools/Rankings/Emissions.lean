/-
Plugin emissions and the rankings they feed.

A plugin answers an event with emit intents. The host names each
emission by an in-memory counter (`plugin-event-N` for the plugin's
declared event types, `plugin-emit-N` otherwise) and reports it as an
external contribution of the source `plugin.<plugin>.<type>`. The
database remembers the pair of source and event id, so that a
contribution reported twice counts once.

# The counter and the table

The counter starts at zero with every process; the table survives the
process. An emission of a later process run that comes as the same draw
of the counter as one of an earlier run, for the same source, gets the
pair the table already holds and is dropped as a replay.
`feeds_exactly_once_iff` states this as the exact condition on a run.
-/
import TikTools.Aggregation.Model
import TikTools.Lib.Json

namespace TikTools.Rankings

open TikTools.Lib
open TikTools.Aggregation List

-- ==== external contributions

/-- A contribution reported by a plugin or an agent. -/
structure ExternalContribution where
  eventId : String
  creatorId : String
  roomId : String
  source : String
  user : Option String
  label : Option String
  team : Option String
  customKey : Option String
  option : Option String
  metrics : List (String × Nat)

structure ContributionOutcome where
  duplicate : Bool
  deriving DecidableEq, Repr

inductive OperationError where
  | invalid (message : String)
  | unavailable (message : String)
  deriving DecidableEq, Repr

/-- The part of the aggregation engine contributions go through. -/
structure RankingEngine (E : Type) where
  hasSource : E → String → Bool
  applyAtWithMetadata : E → Contribution → Nat → Option EntryMetadata → E

structure LiveContext where
  uniqueId : String
  roomId : String
  connectionId : String
  deriving DecidableEq, Repr

/-- The application: its memory, and the admission table of its
database. `applied` is ghost state, the contributions the engine was
given in this and earlier process runs. -/
structure App (E : Type) where
  sequence : Nat
  connectionContext : Option LiveContext
  engine : E
  externalEvents : List (String × Int)
  applied : List Contribution

variable {E : Type} (api : RankingEngine E)

def retentionMs : Int := 7 * 24 * 60 * 60 * 1000

/-- Record an external contribution identity. False for a replay; keys
older than seven days are pruned now and then. -/
def admitExternalContribution (rows : List (String × Int))
    (eventId : String) (now : Int) : Bool × List (String × Int) :=
  if rows.any (fun row => row.1 == eventId) then (false, rows)
  else if now % 64 = 0 then
    (true, (rows ++ [(eventId, now)]).filter
      fun row => ¬ row.2 < now - retentionMs)
  else (true, rows ++ [(eventId, now)])

def bounded (value : Option String) : Bool :=
  value.all fun v => v ≠ "" ∧ v.utf8ByteSize ≤ 512

/-- The checks every external contribution passes. -/
def ExternalContribution.isValid (input : ExternalContribution) : Bool :=
  input.eventId ≠ ""
    ∧ input.eventId.utf8ByteSize ≤ 256
    ∧ (startsWith input.source "plugin." ∨ startsWith input.source "custom.")
    ∧ input.source.utf8ByteSize ≤ 128
    ∧ input.creatorId ≠ ""
    ∧ input.roomId ≠ ""
    ∧ input.metrics ≠ []
    ∧ input.metrics.length ≤ 16
    ∧ input.metrics.all (fun m => m.1 ≠ "" ∧ m.1.utf8ByteSize ≤ 128)
    ∧ bounded input.user
    ∧ bounded input.label
    ∧ bounded input.team
    ∧ bounded input.customKey
    ∧ bounded input.option

/-- The row the table keeps for a contribution. -/
def admissionKey (source eventId : String) : String :=
  source ++ ":" ++ eventId

def ExternalContribution.contribution (input : ExternalContribution) :
    Contribution where
  creatorId := input.creatorId
  roomId := input.roomId
  source := input.source
  user := input.user
  gift := none
  option := input.option
  team := input.team
  customKey := input.customKey
  metrics := input.metrics

def ExternalContribution.metadata (input : ExternalContribution) :
    Option EntryMetadata :=
  input.label.map fun label => { label := some label }

/-- Apply an external contribution once. -/
def rankingContribute (app : App E) (now : Nat)
    (input : ExternalContribution) :
    Except OperationError ContributionOutcome × App E :=
  if ¬ input.isValid then
    (.error (.invalid "invalid ranking contribution"), app)
  else if ¬ api.hasSource app.engine input.source then
    -- no consumer: nothing to account, and no row to write
    (.ok { duplicate := false }, app)
  else
    match admitExternalContribution app.externalEvents
        (admissionKey input.source input.eventId) (min now i64Max : Nat) with
    | (false, _) => (.ok { duplicate := true }, app)
    | (true, rows) =>
      (.ok { duplicate := false },
        { app with
          externalEvents := rows
          engine := api.applyAtWithMetadata app.engine
            input.contribution now input.metadata
          applied := app.applied ++ [input.contribution] })

-- ==== emissions

/-- What an emission's manifest says about the plugin: its id, the event
types it declares, its capabilities. -/
structure EmittingPlugin where
  id : String
  eventTypes : List String
  capabilities : List String

/-- An emit intent as it is executed: the data after rendering, the
event the plugin answers and that event's emit depth, and the clock. -/
structure Emission where
  plugin : EmittingPlugin
  eventType : String
  data : List (String × Json)
  event : Json
  depth : Nat
  test : Bool
  now : Nat

def normalizeEmitType (value : String) : Except String String :=
  let normalized :=
    (((trim value.toList).map Char.toLower).filter fun c =>
      c.isAlphanum ∨ c = '.' ∨ c = '_' ∨ c = '-').take 64
  if normalized.isEmpty then .error "Internal event needs a name."
  else .ok (String.ofList normalized)

def capabilityMatches (declared requested : String) : Bool :=
  declared = "*" ∨ declared = requested
    ∨ (['.', '*'].isSuffixOf declared.toList
      ∧ (declared.toList.reverse.dropWhile (· = '*')).reverse.isPrefixOf
        requested.toList)

def eventsPublish : String := "events.publish"

def EmittingPlugin.requireCapability (plugin : EmittingPlugin)
    (requested : String) : Except String Unit :=
  ensure
    (plugin.capabilities.any fun declared =>
      capabilityMatches declared requested)
    s!"plugin `{plugin.id}` does not declare capability `{requested}`"

def maxPluginEventBytes : Nat := 64 * 1024

/-- `fetch_add(1) + 1` on a 64-bit counter. -/
def nextSequence (sequence : Nat) : Nat := (sequence + 1) % (u64Max + 1)

/-- Members a published event takes over from the event it answers. -/
def inherit (source : Json) (members : List (String × Json)) :
    List (String × Json) :=
  let members := ["connectionId", "creator", "user"].foldl
    (fun acc key => match source.get key with
      | some value => Json.setMember key value acc
      | none => acc) members
  match source.get "id" with
  | some id => Json.setMember "sourceEventId" id members
  | none => members

def typedId (number : Nat) : String := "plugin-event-" ++ toString number

def internalId (number : Nat) : String := "plugin-emit-" ++ toString number

/-- A typed event of the calling plugin. -/
def makePluginEvent (number now : Nat) (pluginId : String)
    (source : Json) (depth : Nat) (eventType : String)
    (data : List (String × Json)) : Json :=
  .object <| inherit source <| Json.extend []
    [("id", .string (typedId number)), ("type", .string eventType),
      ("timestamp", .number (toString now)),
      ("source", .object (Json.extend []
        [("kind", .string "plugin"), ("pluginId", .string pluginId)])),
      ("data", .object (Json.setMember "depth"
        (.number (toString (saturatingAdd depth 1))) data))]

/-- The internal event of an emission no declared type covers. -/
def makeInternalAutomationEvent (number now : Nat) (source : Json)
    (depth : Nat) (eventType : String) (payload : List (String × Json)) :
    Json :=
  .object <| inherit source <| Json.extend []
    [("id", .string (internalId number)), ("type", .string "plugin.emit"),
      ("timestamp", .number (toString now)),
      ("data", .object (Json.extend []
        [("emitType", .string eventType),
          ("depth", .number (toString (saturatingAdd depth 1))),
          ("payload", .object payload)]))]

/-- The checks before an emission draws its number: the normalized type,
and whether it is one of the plugin's declared event types. -/
def Emission.accepted (encodedLength : Json → Nat) (e : Emission) :
    Except String (String × Bool) := do
  let eventType ← normalizeEmitType e.eventType
  if eventType ∈ e.plugin.eventTypes then
    e.plugin.requireCapability eventsPublish
    ensure (encodedLength (.object e.data) ≤ maxPluginEventBytes)
      s!"Plugin event `{eventType}` needs an object payload under 64 KB."
    pure (eventType, true)
  else pure (eventType, false)

/-- The event an accepted emission publishes. -/
def Emission.published (e : Emission) (number : Nat) (eventType : String)
    (typed : Bool) : Json :=
  if typed then
    makePluginEvent number e.now e.plugin.id e.event e.depth eventType e.data
  else
    makeInternalAutomationEvent number e.now e.event e.depth eventType e.data

/-- The text of the first of these members that has one. -/
def textOf (payload : List (String × Json)) (names : List String) :
    Option String :=
  names.findSome? fun name => match Json.member name payload with
    | some (.string value) => if value = "" then none else some value
    | some (.number text) => some text
    | _ => none

def metricsOf (payload : List (String × Json)) : List (String × Nat) :=
  match ((Json.member "value" payload).bind Json.asU64).filter (0 < ·) with
  | some value => [("event.count", 1), ("value", value)]
  | none => [("event.count", 1)]

/-- The ranking source of a plugin's event type. -/
def pluginSource (pluginId eventType : String) : String :=
  "plugin." ++ pluginId ++ "." ++ eventType

/-- What an emission reports to the rankings, in the LIVE it happens
in. -/
def pluginContribution (context : LiveContext) (pluginId : String)
    (eventType : String) (payload : List (String × Json))
    (eventId : String) : ExternalContribution where
  eventId
  creatorId := context.uniqueId
  roomId := context.roomId
  source := pluginSource pluginId eventType
  user := textOf payload ["userId", "user", "uniqueId"]
  label := textOf payload ["nickname", "label", "uniqueId"]
  team := textOf payload ["team"]
  customKey := textOf payload ["key"]
  option := none
  metrics := metricsOf payload

/-- Plugin emits feed rankings; without a LIVE context the event is not
attributable and is skipped. -/
def observePluginRankingEvent (app : App E) (now : Nat)
    (pluginId eventType : String) (payload : List (String × Json))
    (published : Json) : App E :=
  match (published.get "id").bind Json.asStr, app.connectionContext with
  | some eventId, some context =>
    let input := pluginContribution context pluginId eventType payload eventId
    if 128 < input.source.utf8ByteSize then app
    else (rankingContribute api app now input).2
  | _, _ => app

/-- Execute one emit intent. -/
def executeEmit (encodedLength : Json → Nat) (app : App E)
    (e : Emission) : Except String String × App E :=
  match e.accepted encodedLength with
  | .error message => (.error message, app)
  | .ok (eventType, typed) =>
    let number := nextSequence app.sequence
    let app := { app with sequence := number }
    if e.test then (.ok s!"would emit {eventType}", app)
    else
      (.ok s!"emit {eventType}",
        observePluginRankingEvent api app e.now e.plugin.id eventType
          e.data (e.published number eventType typed))

-- ==== runs

/-- What happens to the application, as far as emissions can tell. -/
inductive Step (E : Type) where
  /-- A plugin's emit intent is executed. -/
  | emit (e : Emission)
  /-- Any other event takes a number. -/
  | draw
  /-- A LIVE is connected or left. -/
  | connection (context : Option LiveContext)
  /-- Rankings are created, removed or reset, or count native events. -/
  | rankings (engine : E)
  /-- The process ends and another starts on the same database. -/
  | restart (engine : E)

variable (encodedLength : Json → Nat)

def step (app : App E) : Step E → App E
  | .emit e => (executeEmit api encodedLength app e).2
  | .draw => { app with sequence := nextSequence app.sequence }
  | .connection context => { app with connectionContext := context }
  | .rankings engine => { app with engine }
  | .restart engine =>
    { app with sequence := 0, connectionContext := none, engine }

def run (app : App E) (steps : List (Step E)) : App E :=
  steps.foldl (step api encodedLength) app

/-- The first start on a new database. -/
def App.fresh (engine : E) : App E where
  sequence := 0
  connectionContext := none
  engine
  externalEvents := []
  applied := []

/-- How many numbers the process run has drawn after a step, from the
steps alone. -/
def drawn (n : Nat) : Step E → Nat
  | .emit e => if (e.accepted encodedLength).isOk then n + 1 else n
  | .draw => n + 1
  | .restart _ => 0
  | .connection _ | .rankings _ => n

/-- The id of a number, by the kind of the emission. -/
def idOf (typed : Bool) (number : Nat) : String :=
  if typed then typedId number else internalId number

/-- The contribution passes the checks and a ranking has its source. -/
def Wanted (engine : E) (input : ExternalContribution) : Prop :=
  input.isValid ∧ api.hasSource engine input.source

instance (engine : E) (input : ExternalContribution) :
    Decidable (Wanted api engine input) :=
  inferInstanceAs (Decidable (_ ∧ _))

/-- An emission that was accepted and matches a ranking source. -/
structure Sighting where
  typed : Bool
  input : ExternalContribution

/-- What an emission owes the rankings: nothing when it is refused or a
test, when no LIVE is connected, or when no ranking has its source. -/
def sighting (app : App E) (e : Emission) : Option Sighting :=
  match e.accepted encodedLength, app.connectionContext with
  | .ok (eventType, typed), some context =>
    let input := pluginContribution context e.plugin.id eventType e.data
      (idOf typed (nextSequence app.sequence))
    if ¬ e.test ∧ Wanted api app.engine input then some ⟨typed, input⟩
    else none
  | _, _ => none

def owed (app : App E) : Step E → Option Sighting
  | .emit e => sighting api encodedLength app e
  | _ => none

/-- The matching emissions of a run, each with the number of draws the
process run had made before it. -/
def matching (app : App E) (n : Nat) :
    List (Step E) → List (Nat × Sighting)
  | [] => []
  | s :: rest =>
    (owed api encodedLength app s).toList.map (fun seen => (n, seen))
      ++ matching (step api encodedLength app s)
        (drawn encodedLength n s) rest

/-- Every matching emission of the run contributed, once and in its own
order, and no two of them were admitted under one key. -/
structure FedExactlyOnce (app : App E) (steps : List (Step E)) : Prop where
  applied : (run api encodedLength app steps).applied
    = app.applied ++ (matching api encodedLength app 0 steps).map
        fun seen => seen.2.input.contribution
  keys : ((matching api encodedLength app 0 steps).map fun seen =>
    (seen.2.input.source, seen.2.input.eventId)).Nodup

/-- Two matching emissions have one source and one kind of id and come
as the same draw of their process runs. -/
def SameDraw (a b : Nat × Sighting) : Prop :=
  a.2.input.source = b.2.input.source ∧ a.2.typed = b.2.typed
    ∧ a.1 % (u64Max + 1) = b.1 % (u64Max + 1)

-- ==== the keys

theorem notMem_typedId (n : Nat) : ':' ∉ (typedId n).toList := by
  intro h
  rw [typedId, String.toList_append, mem_append] at h
  rcases h with h | h
  · revert h
    decide
  · exact absurd (isDigit_of_mem_toString h) (by decide)

theorem notMem_internalId (n : Nat) : ':' ∉ (internalId n).toList := by
  intro h
  rw [internalId, String.toList_append, mem_append] at h
  rcases h with h | h
  · revert h
    decide
  · exact absurd (isDigit_of_mem_toString h) (by decide)

theorem notMem_idOf (t : Bool) (n : Nat) :
    ':' ∉ (idOf t n).toList := by
  cases t with
  | true => exact notMem_typedId n
  | false => exact notMem_internalId n

theorem typedId_ne_internalId (m n : Nat) : typedId m ≠ internalId n := by
  intro h
  have hl := congrArg (fun s : String => s.toList.take 9) h
  simp only [typedId, internalId, String.toList_append] at hl
  rw [take_append_of_le_length (by decide),
    take_append_of_le_length (by decide)] at hl
  exact absurd hl (by decide)

variable {app : App E} {e : Emission} {input : ExternalContribution} {n : Nat}
  {seen : Sighting} {s : Step E}

theorem append_toString_inj {he : String} {m : Nat}
    (h : he ++ toString m = he ++ toString n) : m = n := by
  have hl := congrArg String.toList h
  rw [String.toList_append, String.toList_append] at hl
  exact toString_nat_inj (String.toList_injective (append_cancel_left hl))

theorem idOf_inj {typed typed' : Bool} {m : Nat} :
    idOf typed m = idOf typed' n ↔ typed = typed' ∧ m = n := by
  constructor
  · intro h
    cases typed with
    | true =>
      cases typed' with
      | true => exact ⟨rfl, append_toString_inj h⟩
      | false => exact absurd h (typedId_ne_internalId m n)
    | false =>
      cases typed' with
      | true => exact absurd h.symm (typedId_ne_internalId n m)
      | false => exact ⟨rfl, append_toString_inj h⟩
  · rintro ⟨rfl, rfl⟩
    rfl

theorem admissionKey_inj {so s' id id' : String}
    (h : admissionKey so id = admissionKey s' id')
    (hid : ':' ∉ id.toList) (hid' : ':' ∉ id'.toList) :
    so = s' ∧ id = id' := by
  have hl := congrArg String.toList h
  simp only [admissionKey, String.toList_append, append_assoc] at hl
  obtain ⟨hs, hi⟩ := append_cons_inj hl hid hid'
  exact ⟨String.toList_injective hs, String.toList_injective hi⟩

-- ==== emit steps

/-- A published event keeps its own members when it takes over those of
the event it answers. -/
theorem member_inherit (source : Json) {name : String}
    (h : name ∉ ["connectionId", "creator", "user", "sourceEventId"])
    (members : List (String × Json)) :
    Json.member name (inherit source members) = Json.member name members := by
  have hk : ∀ keys : List String, name ∉ keys → ∀ acc,
      Json.member name (keys.foldl
        (fun acc key => match source.get key with
          | some value => Json.setMember key value acc
          | none => acc) acc) = Json.member name acc := by
    intro keys
    induction keys with
    | nil => exact fun _ _ => rfl
    | cons key keys ih =>
      intro hmem acc
      obtain ⟨hne, hr⟩ := ne_and_not_mem_of_not_mem_cons hmem
      rw [foldl_cons, ih hr]
      split
      · exact Json.member_setMember_ne _ (Ne.symm hne) acc
      · rfl
  simp only [mem_cons, not_mem_nil, or_false, not_or] at h
  obtain ⟨hcn, hc, hu, hsrc⟩ := h
  have ht := hk ["connectionId", "creator", "user"] (by simp [hcn, hc, hu])
  unfold inherit
  split
  · rw [Json.member_setMember_ne _ (Ne.symm hsrc), ht]
  · exact ht _

theorem member_id_inherit (source : Json)
    (members : List (String × Json)) :
    Json.member "id" (inherit source members) = Json.member "id" members :=
  member_inherit source (by decide) members

theorem member_foldl_setMember {key : String} {value : Json}
    (extra : List (String × Json)) (h : key ∉ extra.map Prod.fst)
    {m : List (String × Json)}
    (hm : Json.member key m = some value) :
    Json.member key (extra.foldl
      (fun acc kv => Json.setMember kv.1 kv.2 acc) m)
      = some value := by
  induction extra generalizing m with
  | nil => exact hm
  | cons kv rest ih =>
    obtain ⟨hne, hr⟩ := ne_and_not_mem_of_not_mem_cons h
    refine ih hr ?_
    rw [Json.member_setMember_ne _ (Ne.symm hne)]
    exact hm

theorem published_id (e : Emission) (number : Nat) (eventType : String)
    (typed : Bool) :
    ((e.published number eventType typed).get "id").bind Json.asStr
      = some (idOf typed number) := by
  have hid : ∀ {rest : List (String × Json)} {value : Json},
      "id" ∉ rest.map Prod.fst →
      Json.member "id" (Json.extend [] (("id", value) :: rest))
        = some value := by
    intro rest value h
    exact member_foldl_setMember rest h
      (Json.member_setMember_self "id" value [])
  cases typed with
  | true =>
    show (Json.member "id" (inherit e.event _)).bind Json.asStr = _
    rw [member_id_inherit, hid (by simp)]
    rfl
  | false =>
    show (Json.member "id" (inherit e.event _)).bind Json.asStr = _
    rw [member_id_inherit, hid (by simp)]
    rfl

theorem isValid_source_le
    (h : input.isValid) : input.source.utf8ByteSize ≤ 128 := by
  exact (of_decide_eq_true h).2.2.2.1

/-- A contribution that is refused, or that no ranking wants, leaves the
application as it is. -/
theorem rankingContribute_skip {now : Nat}
    (h : ¬ Wanted api app.engine input) :
    (rankingContribute api app now input).2 = app := by
  unfold rankingContribute
  by_cases hv : input.isValid
  · rw [if_neg (not_not_intro hv), if_pos fun hs => h ⟨hv, hs⟩]
  · rw [if_pos hv]

theorem executeEmit_error {m : String}
    (h : e.accepted encodedLength = .error m) :
    (executeEmit api encodedLength app e).2 = app := by
  unfold executeEmit
  rw [h]

theorem executeEmit_ok (app : App E) {et : String}
    {t : Bool} (h : e.accepted encodedLength = .ok (et, t)) :
    (executeEmit api encodedLength app e).2
      = match sighting api encodedLength app e with
        | none => { app with sequence := nextSequence app.sequence }
        | some seen => (rankingContribute api
            { app with sequence := nextSequence app.sequence } e.now
            seen.input).2 := by
  unfold executeEmit sighting
  rw [h]
  dsimp only
  by_cases ht : e.test
  · rw [if_pos ht]
    cases app.connectionContext with
    | none => rfl
    | some c =>
      dsimp only
      rw [if_neg fun hs => hs.1 ht]
  · rw [if_neg ht]
    unfold observePluginRankingEvent
    rw [published_id]
    cases hctx : app.connectionContext with
    | none => rfl
    | some c =>
      dsimp only
      by_cases hw : Wanted api app.engine (pluginContribution c
          e.plugin.id et e.data
          (idOf t (nextSequence app.sequence)))
      · rw [if_neg (Nat.not_lt.2 (isValid_source_le hw.1)), if_pos ⟨ht, hw⟩]
      · have hnot : ¬ (¬ e.test = true ∧ Wanted api app.engine
            (pluginContribution c e.plugin.id et e.data
              (idOf t (nextSequence app.sequence)))) :=
          fun hs => hw hs.2
        split
        · rfl
        · exact rankingContribute_skip api hw

-- ==== numbers and draws

/-- A matching emission's id is made of the draw it came as. -/
def Numbered (seen : Nat × Sighting) : Prop :=
  seen.2.input.eventId = idOf seen.2.typed ((seen.1 + 1) % (u64Max + 1))

theorem sameDraw_iff {a b : Nat × Sighting} (ha : Numbered a)
    (hb : Numbered b) :
    SameDraw a b ↔ (a.2.input.source, a.2.input.eventId)
      = (b.2.input.source, b.2.input.eventId) := by
  unfold SameDraw
  rw [Prod.mk.injEq, ha, hb, idOf_inj]
  have hmod : (a.1 + 1) % (u64Max + 1) = (b.1 + 1) % (u64Max + 1)
      ↔ a.1 % (u64Max + 1) = b.1 % (u64Max + 1) := by
    unfold u64Max
    omega
  rw [hmod]

theorem nextSequence_mod (n : Nat) :
    nextSequence (n % (u64Max + 1)) = (n + 1) % (u64Max + 1) := by
  unfold nextSequence u64Max
  omega

/-- What a matching emission is: accepted, no test, wanted, and named by
the next number. -/
theorem sighting_eq_some (h : sighting api encodedLength app e = some seen) :
    (∃ et, e.accepted encodedLength = .ok (et, seen.typed))
      ∧ seen.input.eventId = idOf seen.typed (nextSequence app.sequence)
      ∧ Wanted api app.engine seen.input := by
  unfold sighting at h
  split at h
  · next et typed context ha hctx =>
    dsimp only at h
    split at h
    · next hmt =>
      cases h
      exact ⟨⟨et, ha⟩, rfl, hmt.2⟩
    · cases h
  · cases h

theorem rankingContribute_sequence (app : App E) (now : Nat)
    (input : ExternalContribution) :
    (rankingContribute api app now input).2.sequence = app.sequence := by
  unfold rankingContribute
  split
  · rfl
  · split
    · rfl
    · split <;> rfl

theorem step_sequence (s : Step E) (h : app.sequence = n % (u64Max + 1)) :
    (step api encodedLength app s).sequence
      = drawn encodedLength n s % (u64Max + 1) := by
  cases s with
  | emit e =>
    show (executeEmit api encodedLength app e).2.sequence
      = (if (e.accepted encodedLength).isOk then n + 1 else n) % (u64Max + 1)
    cases hacc : e.accepted encodedLength with
    | error message =>
      rw [executeEmit_error api encodedLength hacc]
      exact h
    | ok typed =>
      rw [executeEmit_ok api encodedLength app hacc]
      show _ = (n + 1) % (u64Max + 1)
      rw [← nextSequence_mod, ← h]
      split
      · rfl
      · exact rankingContribute_sequence api _ _ _
  | draw =>
    show nextSequence app.sequence = _
    rw [h, nextSequence_mod]
    rfl
  | connection context => exact h
  | rankings engine => exact h
  | restart engine => rfl

theorem owed_numbered (h : app.sequence = n % (u64Max + 1))
    (ho : owed api encodedLength app s = some seen) :
    Numbered (n, seen) := by
  cases s with
  | emit e =>
    obtain ⟨-, hid, -⟩ := sighting_eq_some api encodedLength ho
    unfold Numbered
    rw [hid, h, nextSequence_mod]
  | _ => cases ho

variable (steps : List (Step E))

theorem matching_numbered (h : app.sequence = n % (u64Max + 1)) :
    ∀ seen ∈ matching api encodedLength app n steps, Numbered seen := by
  induction steps generalizing app n with
  | nil => exact fun _ hs => absurd hs not_mem_nil
  | cons s rest ih =>
    intro seen hs
    rw [matching, mem_append] at hs
    rcases hs with hs | hs
    · obtain ⟨sighted, hsg, rfl⟩ := mem_map.1 hs
      exact owed_numbered api encodedLength h (Option.mem_toList.1 hsg)
    · exact ih (step_sequence api encodedLength s h) seen hs

-- ==== the admissions

theorem admit_new {r : List (String × Int)} {key : String}
    (now : Int) (h : ∀ row ∈ r, row.1 ≠ key) :
    ∃ r', admitExternalContribution r key now = (true, r')
      ∧ ∀ row ∈ r', row ∈ r ∨ row.1 = key := by
  have hany : ¬ r.any (fun row => row.1 == key) := by
    rw [any_eq_true]
    rintro ⟨row, hr, heq⟩
    exact h row hr (beq_iff_eq.1 heq)
  have hmem : ∀ row ∈ r ++ [(key, now)], row ∈ r ∨ row.1 = key := by
    intro row hr
    rcases mem_append.1 hr with hr | hr
    · exact .inl hr
    · exact .inr (congrArg Prod.fst (mem_singleton.1 hr))
  unfold admitExternalContribution
  rw [if_neg hany]
  split
  · exact ⟨_, rfl, fun row hr => hmem row (mem_filter.1 hr).1⟩
  · exact ⟨_, rfl, hmem⟩

theorem rankingContribute_new {now : Nat}
    (hw : Wanted api app.engine input)
    (hnew : ∀ row ∈ app.externalEvents,
      row.1 ≠ admissionKey input.source input.eventId) :
    (rankingContribute api app now input).2.applied
        = app.applied ++ [input.contribution]
      ∧ ∀ row ∈ (rankingContribute api app now input).2.externalEvents,
        row ∈ app.externalEvents
          ∨ row.1 = admissionKey input.source input.eventId := by
  obtain ⟨rows, ha, hr⟩ := admit_new (min now i64Max : Nat) hnew
  unfold rankingContribute
  rw [if_neg (not_not_intro hw.1), if_neg (not_not_intro hw.2), ha]
  exact ⟨rfl, hr⟩

theorem step_applied (h : owed api encodedLength app s = none) :
    (step api encodedLength app s).applied = app.applied
      ∧ (step api encodedLength app s).externalEvents
        = app.externalEvents := by
  cases s with
  | emit e =>
    show (executeEmit api encodedLength app e).2.applied = _
      ∧ (executeEmit api encodedLength app e).2.externalEvents = _
    cases hacc : e.accepted encodedLength with
    | error message =>
      rw [executeEmit_error api encodedLength hacc]
      exact ⟨rfl, rfl⟩
    | ok typed =>
      rw [executeEmit_ok api encodedLength app hacc,
        show sighting api encodedLength app e = none from h]
      exact ⟨rfl, rfl⟩
  | _ => exact ⟨rfl, rfl⟩

theorem step_contributes (h : owed api encodedLength app s = some seen)
    (hnew : ∀ row ∈ app.externalEvents,
      row.1 ≠ admissionKey seen.input.source seen.input.eventId) :
    (step api encodedLength app s).applied
        = app.applied ++ [seen.input.contribution]
      ∧ ∀ row ∈ (step api encodedLength app s).externalEvents,
        row ∈ app.externalEvents
          ∨ row.1 = admissionKey seen.input.source seen.input.eventId := by
  cases s with
  | emit e =>
    obtain ⟨⟨eventType, hacc⟩, -, hw⟩ := sighting_eq_some api encodedLength h
    have hs := executeEmit_ok api encodedLength app hacc
    rw [show sighting api encodedLength app e = some seen from h] at hs
    show (executeEmit api encodedLength app e).2.applied = _
      ∧ ∀ row ∈ (executeEmit api encodedLength app e).2.externalEvents, _
    rw [hs]
    exact rankingContribute_new api hw hnew
  | _ => cases h

theorem sameDraw_of_key {a b : Nat × Sighting} (ha : Numbered a)
    (hb : Numbered b)
    (h : admissionKey a.2.input.source a.2.input.eventId
      = admissionKey b.2.input.source b.2.input.eventId) :
    SameDraw a b := by
  obtain ⟨hs, hid⟩ := admissionKey_inj h
    (ha ▸ notMem_idOf a.2.typed _) (hb ▸ notMem_idOf b.2.typed _)
  rw [sameDraw_iff ha hb, hs, hid]

/-- While no draw repeats, every matching emission contributes: the
table holds only keys of matching emissions before it. -/
theorem run_applied (hseq : app.sequence = n % (u64Max + 1))
    (ea : List (Nat × Sighting))
    (hea : ∀ seen ∈ ea, Numbered seen)
    (hr : ∀ row ∈ app.externalEvents, ∃ seen ∈ ea,
      row.1 = admissionKey seen.2.input.source seen.2.input.eventId)
    (hp : (ea ++ matching api encodedLength app n steps).Pairwise
      fun a b => ¬ SameDraw a b) :
    (run api encodedLength app steps).applied
      = app.applied ++ (matching api encodedLength app n steps).map
          fun seen => seen.2.input.contribution := by
  induction steps generalizing app n ea with
  | nil => exact (append_nil _).symm
  | cons s rest ih =>
    have hseq' := step_sequence api encodedLength s hseq
    show (run api encodedLength (step api encodedLength app s)
      rest).applied = _
    rw [matching] at hp ⊢
    cases hown : owed api encodedLength app s with
    | none =>
      obtain ⟨ha, he⟩ := step_applied api encodedLength hown
      rw [hown] at hp
      rw [← ha]
      exact ih hseq' ea hea (he ▸ hr) hp
    | some seen =>
      rw [hown] at hp
      have hs := owed_numbered api encodedLength hseq hown
      have hnew : ∀ row ∈ app.externalEvents, row.1
          ≠ admissionKey seen.input.source seen.input.eventId := by
        intro row h heq
        obtain ⟨old, hl, hk⟩ := hr row h
        exact (pairwise_append.1 hp).2.2 old hl _
          mem_cons_self
          (sameDraw_of_key (hea old hl) hs (hk.symm.trans heq))
      obtain ⟨ha, he⟩ := step_contributes api encodedLength hown hnew
      have hrs := ih hseq' (ea ++ [(n, seen)])
        (by
          intro o ho
          rcases mem_append.1 ho with ho | ho
          · exact hea o ho
          · rw [mem_singleton.1 ho]
            exact hs)
        (by
          intro row h
          rcases he row h with h | h
          · obtain ⟨old, hl, hk⟩ := hr row h
            exact ⟨old, mem_append_left _ hl, hk⟩
          · exact ⟨(n, seen), mem_append_right _ (mem_singleton_self _), h⟩)
        (by rw [append_assoc]; exact hp)
      rw [hrs, ha, append_assoc]
      rfl

/-- The keys of a run from a new database are distinct exactly when its
draws are. -/
theorem keys_nodup_iff (engine : E) (steps : List (Step E)) :
    ((matching api encodedLength (.fresh engine) 0 steps).map
        fun seen => (seen.2.input.source, seen.2.input.eventId)).Nodup
      ↔ (matching api encodedLength (.fresh engine) 0 steps).Pairwise
          fun a b => ¬ SameDraw a b := by
  have hn := matching_numbered api encodedLength steps
    (show (App.fresh engine).sequence = 0 % (u64Max + 1) from rfl)
  rw [nodup_iff_pairwise_ne, pairwise_map]
  exact List.Pairwise.iff_of_mem fun ha hb =>
    not_congr (sameDraw_iff (hn _ ha) (hn _ hb)).symm

theorem fedExactlyOnce_of_pairwise {en : E} {steps : List (Step E)}
    (h : (matching api encodedLength (.fresh en) 0 steps).Pairwise
      fun a b => ¬ SameDraw a b) :
    FedExactlyOnce api encodedLength (.fresh en) steps where
  applied := run_applied api encodedLength steps rfl []
    (fun _ hs => absurd hs not_mem_nil)
    (fun _ hr => absurd hr not_mem_nil) h
  keys := (keys_nodup_iff api encodedLength en steps).2 h

/-- Plugin emissions feed the rankings exactly once if and only if no
two matching emissions of one source and kind come as the same draw of
their process runs. -/
theorem feeds_exactly_once_iff (engine : E) (steps : List (Step E)) :
    FedExactlyOnce api encodedLength (.fresh engine) steps
      ↔ (matching api encodedLength (.fresh engine) 0 steps).Pairwise
          fun a b => ¬ SameDraw a b := by
  constructor
  · intro h
    exact (keys_nodup_iff api encodedLength engine steps).1 h.keys
  · exact fedExactlyOnce_of_pairwise api encodedLength

/-- A plugin's answer, reported by `user`. -/
def quizAnswer (user : String) : Emission where
  plugin := { id := "quiz", eventTypes := [], capabilities := [] }
  eventType := "answer"
  data := [("user", .string user)]
  event := .object []
  depth := 0
  test := false
  now := 1000

/-- One answer before and one after a restart, in one LIVE. -/
def quizAcrossRestart : List (Step Unit) :=
  [.connection (some ⟨"creator", "room", "first"⟩),
    .emit (quizAnswer "ana"),
    .restart (),
    .connection (some ⟨"creator", "room", "second"⟩),
    .emit (quizAnswer "bo")]

/-- The answer after the restart gets the key of the one before. -/
theorem quiz_answer_lost_after_restart :
    ¬ FedExactlyOnce ⟨fun _ _ => true, fun _ _ _ _ => ()⟩ (fun _ => 0)
      (.fresh ()) quizAcrossRestart := by
  intro h
  exact absurd h.keys (by decide)

-- ==== one process run

theorem owed_drawn (n : Nat) (h : owed api encodedLength app s = some seen) :
    drawn encodedLength n s = n + 1 := by
  cases s with
  | emit e =>
    obtain ⟨⟨eventType, ha⟩, -, -⟩ := sighting_eq_some api encodedLength h
    show (if (e.accepted encodedLength).isOk then n + 1 else n) = n + 1
    rw [ha]
    rfl
  | _ => cases h

theorem drawn_le (n : Nat) (h : ∀ en, s ≠ .restart en) :
    n ≤ drawn encodedLength n s ∧ drawn encodedLength n s ≤ n + 1 := by
  cases s with
  | emit e =>
    show n ≤ (if (e.accepted encodedLength).isOk then n + 1 else n)
      ∧ (if (e.accepted encodedLength).isOk then n + 1 else n) ≤ n + 1
    split <;> omega
  | draw => exact ⟨Nat.le_succ n, Nat.le_refl _⟩
  | restart en => exact absurd rfl (h en)
  | connection context => exact ⟨Nat.le_refl n, Nat.le_succ n⟩
  | rankings en => exact ⟨Nat.le_refl n, Nat.le_succ n⟩

theorem matching_increasing (h : ∀ engine, .restart engine ∉ steps) :
    (matching api encodedLength app n steps).Pairwise
        (fun a b => a.1 < b.1)
      ∧ ∀ seen ∈ matching api encodedLength app n steps,
        n ≤ seen.1 ∧ seen.1 < n + steps.length := by
  induction steps generalizing app n with
  | nil =>
    exact ⟨.nil, fun _ hsn => absurd hsn not_mem_nil⟩
  | cons s rest ih =>
    have hd := drawn_le encodedLength n
      (fun engine hs => h engine (hs ▸ mem_cons_self))
    obtain ⟨hr, hb⟩ := @ih (step api encodedLength app s)
      (drawn encodedLength n s)
      fun engine hmem => h engine (mem_cons_of_mem _ hmem)
    rw [matching, length_cons]
    cases hown : owed api encodedLength app s with
    | none =>
      refine ⟨hr, fun seen hsn => ?_⟩
      have := hb seen hsn
      omega
    | some seen =>
      have hn := owed_drawn api encodedLength n hown
      refine ⟨pairwise_cons.2 ⟨?_, hr⟩, ?_⟩
      · intro later hl
        have := hb later hl
        show n < later.1
        omega
      · intro other ho
        rcases mem_cons.1 ho with rfl | ho
        · show n ≤ n ∧ n < n + (rest.length + 1)
          omega
        · have := hb other ho
          omega

/-- A process run of fewer than 2^64 steps feeds the rankings exactly
once, whatever it emits. -/
theorem feeds_exactly_once_without_restart (engine : E)
    (steps : List (Step E)) (h : ∀ engine, .restart engine ∉ steps)
    (hlen : steps.length ≤ u64Max) :
    FedExactlyOnce api encodedLength (.fresh engine) steps := by
  obtain ⟨hin, hbn⟩ := matching_increasing api encodedLength steps h
  apply fedExactlyOnce_of_pairwise
  refine List.Pairwise.imp_of_mem ?_ hin
  intro a b ha hb hlt hs
  have ha' := (hbn a ha).2
  have hb' := (hbn b hb).2
  have hmod := hs.2.2
  rw [Nat.mod_eq_of_lt (by omega), Nat.mod_eq_of_lt (by omega)] at hmod
  omega

/-- Two answers in one LIVE. -/
theorem feeds_exactly_once_two_answers :
    FedExactlyOnce ⟨fun _ _ => true, fun _ _ _ _ => ()⟩ (fun _ => 0)
      (.fresh ()) [.connection (some ⟨"creator", "room", "first"⟩),
        .emit (quizAnswer "ana"), .emit (quizAnswer "bo")] :=
  feeds_exactly_once_without_restart _ _ () _ (by simp) (by decide)

end TikTools.Rankings
