/-
The messages of the WebView outbox: how a JSON value is classified, which
key it coalesces under, which revision it carries, and how many bytes it
takes in a lane.

A prepared message is at most as large as a batch
(`fromValue_bytes`). Its body and its JavaScript literal are bounded when
they are encoded and the route of a plugin by its syntax; the one part
that comes from the value unbounded, the id in a coalesce key, stands in
the body as well, and no text of a value is shorter than the strings in
it (`Json.weight`). Texts that a producer hands in are read by `parse`,
of which that is all that is assumed.

`tag` names a message from outside. No function of the outbox reads it.
-/
import TikTools.Lib.Weight

namespace TikTools.Desktop

open TikTools.Lib Option

-- ==== the bounds

def maxPendingWebviewMessages : Nat := 512

def maxReliableMessages : Nat := 4096

def maxReliableBytes : Nat := 16 * 1024 * 1024

def maxBatchPerTick : Nat := 128

def maxBatchBytes : Nat := 4 * 1024 * 1024

def maxOutboundBytes : Nat := 1024 * 1024

def maxLossyBytes : Nat := 8 * 1024 * 1024

/-- `encode_with_limit`: the compact text, if it is within the limit. -/
def encodeWithLimit (value : Json) (limit : Nat) : Option String :=
  let text := String.ofList value.encode
  if text.utf8ByteSize ≤ limit then some text else none

def encodeBounded (value : Json) : Option String :=
  encodeWithLimit value maxOutboundBytes

-- ==== what a message is

inductive WebviewMessageClass where
  | critical
  | coalescable
  | droppable
  deriving DecidableEq, Repr

structure PluginRoute where
  pluginId : String
  topic : String

structure QueuedWebviewMessage (τ : Type) where
  body : String
  javascriptLiteral : Option String
  cls : WebviewMessageClass
  coalesceKey : Option String
  coalesceGeneration : Option Nat
  rankingRevision : Option (String × Nat)
  plugin : Option PluginRoute
  tag : τ

/-- The value at a path of keys. -/
def pointer (value : Json) : List String → Option Json
  | [] => some value
  | key :: rest => (value.get key).bind fun v => pointer v rest

/-- The topic of an event. -/
def topicOf (value : Json) : Option String :=
  (pointer value ["params", "topic"]).bind Json.asStr

def coalescableKinds : List String :=
  ["room-stats", "leaderboard", "analytics-summary", "processor-status",
    "automation-context", "gift-catalog"]

def coalescableTopics : List String :=
  ["room.stats", "analytics.updated", "gifts.catalog", "ranking.updated",
    "competition.result", "live.likes-ranking", "live.likes-ranking-full",
    "ui.points.snapshot", "ui.automation.runs", "ui.projection.stats"]

def classifyValue (value : Json) : WebviewMessageClass :=
  match (value.get "type").bind Json.asStr with
  | some kind =>
    if kind ∈ ["live-event", "points-awarded"] then .droppable
    else if kind ∈ coalescableKinds then .coalescable
    else .critical
  | none =>
    if (value.get "method").bind Json.asStr = some "event" then
      let topic := (topicOf value).getD ""
      if topic ∈ coalescableTopics then .coalescable
      else if topic ∈ ["live.event", "live.ui-event"] then .droppable
      else .critical
    else .critical

def webviewCoalesceKey (value : Json) : Option String :=
  if classifyValue value ≠ .coalescable then none
  else
    match (value.get "type").bind Json.asStr with
    | some kind => some ("legacy:" ++ kind)
    | none =>
      (topicOf value).bind fun topic =>
        if topic = "ranking.updated" then
          (pointer value ["params", "data", "snapshot", "rankingId"]).bind
            Json.asStr |>.map fun ranking =>
              "domain:ranking.updated:" ++ ranking
        else if topic = "competition.result" then
          (pointer value ["params", "data", "result", "competitionId"]).bind
            Json.asStr |>.map fun competition =>
              "domain:competition.result:" ++ competition
        else if topic = "plugin.progress" then
          some ("domain:plugin.progress:"
            ++ ((pointer value ["params", "data", "pluginId"]).bind
              Json.asStr).getD "?")
        else some ("domain:" ++ topic)

def isValidUiId (value : String) : Bool :=
  match value.toList with
  | first :: rest =>
    (first.isAlpha || first == '_') && value.utf8ByteSize ≤ 128
      && rest.all fun c => c.isAlphanum || c == '.' || c == '_' || c == '-'
  | [] => false

def pluginRoute (value : Json) : Option PluginRoute :=
  if (value.get "method").bind Json.asStr = some "event" then
    (topicOf value).bind fun topic =>
      if !"plugin.".isPrefixOf topic || 128 < topic.utf8ByteSize then none
      else
        (pointer value ["params", "data", "pluginId"]).bind Json.asStr
          |>.bind fun pluginId =>
            if isValidUiId pluginId then some ⟨pluginId, topic⟩ else none
  else none

def isHexDigit (c : Char) : Bool :=
  c.isDigit || ('a' ≤ c && c ≤ 'f') || ('A' ≤ c && c ≤ 'F')

/-- The instance and revision of a ranking update. -/
def rankingRevisionOf (value : Json) : Option (String × Nat) :=
  if topicOf value = some "ranking.updated" then
    (pointer value ["params", "data", "snapshot", "instanceId"]).bind
      Json.asStr |>.bind fun id =>
        if id.utf8ByteSize ≠ 32 || !id.toList.all isHexDigit then none
        else
          (pointer value ["params", "data", "snapshot", "revision"]).bind
            Json.asU64 |>.map fun revision => (id, revision)
  else none

/-- The generation of a competition result. -/
def coalesceGenerationOf (value : Json) : Option Nat :=
  if topicOf value = some "competition.result" then
    (pointer value ["params", "data", "result", "generation"]).bind Json.asU64
  else none

/-- The value with the version that older plugin pages ask for. -/
def compatible (value : Json) : Json :=
  match value with
  | .object members => .object (("apiVersion", .number "1") :: members)
  | _ => value

namespace QueuedWebviewMessage

variable {τ : Type}

def bytes (m : QueuedWebviewMessage τ) : Nat :=
  m.body.utf8ByteSize
    + (m.javascriptLiteral.map String.utf8ByteSize).getD 0
    + (m.coalesceKey.map String.utf8ByteSize).getD 0
    + (m.rankingRevision.map fun r => r.1.utf8ByteSize).getD 0
    + (m.plugin.map fun route =>
        route.pluginId.utf8ByteSize + route.topic.utf8ByteSize).getD 0

/-- A critical message without a key or a route. -/
def plain (body : String) (javascriptLiteral : Option String) (tag : τ) :
    QueuedWebviewMessage τ where
  body := body
  javascriptLiteral := javascriptLiteral
  cls := .critical
  coalesceKey := none
  coalesceGeneration := none
  rankingRevision := none
  plugin := none
  tag := tag

/-- The text that is sent for a value. -/
def bodyOf (value : Json) (body : Option String) : Option String :=
  if (pluginRoute value).isSome ∧ (value.get "apiVersion").isNone then
    encodeBounded (compatible value)
  else
    match body with
    | some body => some body
    | none => encodeBounded value

def fromValue (value : Json) (body : Option String) (tag : τ) :
    Option (QueuedWebviewMessage τ) :=
  (bodyOf value body).bind fun body =>
    (encodeWithLimit (.string body) (2 * maxOutboundBytes + 2)).map
      fun literal =>
        { body
          javascriptLiteral := some literal
          cls := classifyValue value
          coalesceKey := webviewCoalesceKey value
          coalesceGeneration := coalesceGenerationOf value
          rankingRevision := rankingRevisionOf value
          plugin := pluginRoute value
          tag }

end QueuedWebviewMessage

-- ==== the sizes

section

variable {value : Json}

theorem encodeWithLimit_eq_some {limit : Nat} {text : String} :
    encodeWithLimit value limit = some text ↔
      text = String.ofList value.encode ∧ text.utf8ByteSize ≤ limit := by
  simp only [encodeWithLimit]
  split
  · simp only [Option.some.injEq]
    constructor
    · rintro rfl
      exact ⟨rfl, by assumption⟩
    · exact fun h => h.1.symm
  · next hbig =>
    refine iff_of_false nofun ?_
    rintro ⟨rfl, hle⟩
    exact hbig hle

theorem weight_of_encoded {limit : Nat} {text : String}
    (h : encodeWithLimit value limit = some text) :
    text.utf8ByteSize ≤ limit ∧ value.weight ≤ limit := by
  obtain ⟨rfl, hle⟩ := encodeWithLimit_eq_some.1 h
  exact ⟨hle, Nat.le_trans (Json.weight_le_encode value) hle⟩

theorem weight_compatible (value : Json) :
    value.weight ≤ (compatible value).weight := by
  unfold compatible
  split
  · rw [Json.weight, Json.weight, Json.weightMembers]
    omega
  · exact Nat.le_refl _

/-- The id that a key is made of, and the topic beside it, weigh less
than the value. -/
theorem weight_topic_id {k key t id : String}
    (ht : topicOf value = some t)
    (hid : (pointer value ["params", "data", k, key]).bind Json.asStr
      = some id) :
    t.utf8ByteSize + k.utf8ByteSize + key.utf8ByteSize
      + id.utf8ByteSize + 40 ≤ value.weight := by
  simp only [topicOf, pointer, bind_eq_some_iff, Option.some.injEq] at ht hid
  obtain ⟨_, ⟨params, hp, text, htx, rfl⟩, h⟩ := ht
  obtain ⟨_, ⟨params', hp', data, hd, inner, hin, leaf, hlf, rfl⟩, hl⟩ := hid
  rw [hp] at hp'
  cases hp'
  have hv := Json.weight_get hp
  have hb := Json.weight_gets (by decide) htx hd
  have hk := Json.weight_get hin
  have hkey := Json.weight_get hlf
  rw [Json.weight_of_asStr h] at hb
  rw [Json.weight_of_asStr hl] at hkey
  have hs : "params".utf8ByteSize = 6 ∧ "topic".utf8ByteSize = 5
      ∧ "data".utf8ByteSize = 4 := by decide
  omega

theorem kind_of_coalescable (h : classifyValue value = .coalescable) :
    (∃ kind, (value.get "type").bind Json.asStr = some kind
      ∧ kind ∈ coalescableKinds)
    ∨ ((value.get "type").bind Json.asStr = none
      ∧ ∃ t, topicOf value = some t ∧ t ∈ coalescableTopics) := by
  unfold classifyValue at h
  split at h
  · next kind hk =>
    split at h
    · cases h
    · split at h
      · exact .inl ⟨kind, hk, by assumption⟩
      · cases h
  · next hn =>
    split at h
    · simp only at h
      split at h
      · next hmem =>
        cases ht : topicOf value with
        | some t =>
          rw [ht] at hmem
          exact .inr ⟨hn, t, rfl, hmem⟩
        | none =>
          rw [ht] at hmem
          exact absurd hmem (by decide)
      · split at h <;> cases h
    · cases h

/-- A key is short, or it is made of an id that stands in the value
beside a topic that is no plugin's. -/
theorem webviewCoalesceKey_bytes {key : String}
    (h : webviewCoalesceKey value = some key) :
    key.utf8ByteSize ≤ 64
      ∨ key.utf8ByteSize + 48 ≤ value.weight
        ∧ (topicOf value = some "ranking.updated"
          ∨ topicOf value = some "competition.result") := by
  unfold webviewCoalesceKey at h
  split at h
  · cases h
  · next hcls =>
    obtain ⟨kind, hk, hmem⟩ | ⟨hn, t, ht, hmem⟩ :=
      kind_of_coalescable (Decidable.not_not.1 hcls)
    · simp only [hk, Option.some.injEq] at h
      subst h
      have hs : ∀ kind ∈ coalescableKinds, kind.utf8ByteSize ≤ 20 := by
        decide
      have hkindSize := hs kind hmem
      have hl : "legacy:".utf8ByteSize = 7 := by decide
      rw [String.utf8ByteSize_append]
      omega
    · simp only [hn, ht, bind_some] at h
      split at h
      · next heq =>
        subst heq
        obtain ⟨id, hid, rfl⟩ := map_eq_some_iff.1 h
        have hwt := weight_topic_id ht hid
        have hsz : "ranking.updated".utf8ByteSize = 15
            ∧ "snapshot".utf8ByteSize = 8 ∧ "rankingId".utf8ByteSize = 9
            ∧ "domain:ranking.updated:".utf8ByteSize = 23 := by decide
        refine .inr ⟨?_, .inl ht⟩
        rw [String.utf8ByteSize_append]
        omega
      · split at h
        · next heq =>
          subst heq
          obtain ⟨id, hid, rfl⟩ := map_eq_some_iff.1 h
          have hwt := weight_topic_id ht hid
          have hsz : "competition.result".utf8ByteSize = 18
              ∧ "result".utf8ByteSize = 6
              ∧ "competitionId".utf8ByteSize = 13
              ∧ "domain:competition.result:".utf8ByteSize = 26 := by decide
          refine .inr ⟨?_, .inr ht⟩
          rw [String.utf8ByteSize_append]
          omega
        · split at h
          · next heq =>
            subst heq
            exact absurd hmem (by decide)
          · cases h
            have hs : ∀ t ∈ coalescableTopics,
                t.utf8ByteSize ≤ 30 := by decide
            have htopicSize := hs t hmem
            have hd : "domain:".utf8ByteSize = 7 := by decide
            rw [String.utf8ByteSize_append]
            omega

theorem rankingRevisionOf_bytes {r : String × Nat}
    (h : rankingRevisionOf value = some r) :
    r.1.utf8ByteSize = 32 := by
  unfold rankingRevisionOf at h
  split at h
  · obtain ⟨id, -, hid⟩ := bind_eq_some_iff.1 h
    split at hid
    · cases hid
    · next hv =>
      obtain ⟨r, -, rfl⟩ := map_eq_some_iff.1 hid
      simp only [Bool.or_eq_true, decide_eq_true_eq, not_or,
        Decidable.not_not] at hv
      exact hv.1
  · cases h

theorem pluginRoute_bytes {r : PluginRoute}
    (h : pluginRoute value = some r) :
    r.pluginId.utf8ByteSize ≤ 128 ∧ r.topic.utf8ByteSize ≤ 128
      ∧ topicOf value = some r.topic
      ∧ "plugin.".isPrefixOf r.topic = true := by
  unfold pluginRoute at h
  split at h
  · obtain ⟨topic, ht, hr⟩ := bind_eq_some_iff.1 h
    split at hr
    · cases hr
    · next hp =>
      simp only [Bool.or_eq_true, Bool.not_eq_true', decide_eq_true_eq,
        not_or, Bool.not_eq_false, Nat.not_lt] at hp
      obtain ⟨id, -, hid⟩ := bind_eq_some_iff.1 hr
      split at hid
      · next hv =>
        cases hid
        refine ⟨?_, hp.2, ht, hp.1⟩
        unfold isValidUiId at hv
        split at hv
        · simp only [Bool.and_eq_true, decide_eq_true_eq] at hv
          exact hv.1.2
        · cases hv
      · cases hid
  · cases h

end

namespace QueuedWebviewMessage

variable {τ : Type} {value : Json} {body : Option String} {text : String}

/-- The text that is sent is within the limit, and so is the weight of
its value. -/
theorem bodyOf_bytes (h : bodyOf value body = some text)
    (hb : ∀ g, body = some g →
      g.utf8ByteSize ≤ maxOutboundBytes ∧ value.weight ≤ g.utf8ByteSize) :
    text.utf8ByteSize ≤ maxOutboundBytes
      ∧ value.weight ≤ maxOutboundBytes := by
  unfold bodyOf at h
  split at h
  · obtain ⟨hs, hwt⟩ := weight_of_encoded h
    exact ⟨hs, Nat.le_trans (weight_compatible value) hwt⟩
  · split at h
    · cases h
      obtain ⟨hs, hwt⟩ := hb _ rfl
      exact ⟨hs, Nat.le_trans hwt hs⟩
    · exact weight_of_encoded h

theorem fromValue_bytes {tag : τ} {m : QueuedWebviewMessage τ}
    (h : fromValue value body tag = some m)
    (hb : ∀ given, body = some given →
      given.utf8ByteSize ≤ maxOutboundBytes
        ∧ value.weight ≤ given.utf8ByteSize) :
    m.bytes ≤ maxBatchBytes := by
  obtain ⟨text, htx, hrs⟩ := bind_eq_some_iff.1 h
  obtain ⟨literal, hlit, rfl⟩ := map_eq_some_iff.1 hrs
  obtain ⟨hs, hwt⟩ := bodyOf_bytes htx hb
  have hliteralSize := (encodeWithLimit_eq_some.1 hlit).2
  have hrev : ((rankingRevisionOf value).map fun r =>
      r.1.utf8ByteSize).getD 0 ≤ 32 := by
    cases hr : rankingRevisionOf value with
    | none => exact Nat.zero_le _
    | some revision => exact Nat.le_of_eq (rankingRevisionOf_bytes hr)
  have hpr : ((webviewCoalesceKey value).map String.utf8ByteSize).getD 0
      + ((pluginRoute value).map fun route =>
        route.pluginId.utf8ByteSize + route.topic.utf8ByteSize).getD 0 + 34
      ≤ maxOutboundBytes := by
    have hrt : ((pluginRoute value).map fun route =>
        route.pluginId.utf8ByteSize + route.topic.utf8ByteSize).getD 0
        ≤ 256 := by
      cases hr : pluginRoute value with
      | none => exact Nat.zero_le _
      | some route =>
        obtain ⟨hid, ht, -⟩ := pluginRoute_bytes hr
        show route.pluginId.utf8ByteSize + route.topic.utf8ByteSize ≤ 256
        omega
    unfold maxOutboundBytes at hwt ⊢
    cases hkey : webviewCoalesceKey value with
    | none =>
      simp only [map_none, getD_none]
      omega
    | some key =>
      simp only [map_some, getD_some]
      obtain hsh | ⟨hl, ht⟩ := webviewCoalesceKey_bytes hkey
      · omega
      · -- such a topic has no route
        cases hr : pluginRoute value with
        | none =>
          simp only [map_none, getD_none]
          omega
        | some route =>
          obtain ⟨-, -, hro, hp⟩ := pluginRoute_bytes hr
          rw [hro] at ht
          obtain heq | heq := ht
          · rw [Option.some.inj heq] at hp
            exact absurd hp (by decide +kernel)
          · rw [Option.some.inj heq] at hp
            exact absurd hp (by decide +kernel)
  unfold bytes maxBatchBytes
  simp only [map_some, getD_some]
  unfold maxOutboundBytes at hs hliteralSize hpr
  omega

theorem plain_bytes {body : String} {l : Option String} {tag : τ}
    (hb : body.utf8ByteSize ≤ maxOutboundBytes)
    (hlit : ∀ text, l = some text →
      text.utf8ByteSize ≤ 2 * maxOutboundBytes + 2) :
    (plain body l tag).bytes ≤ maxBatchBytes := by
  unfold maxOutboundBytes at hb hlit
  unfold plain bytes maxBatchBytes
  cases l with
  | none =>
    simp only [map_none, getD_none]
    omega
  | some text =>
    have ht := hlit text rfl
    simp only [map_some, map_none, getD_some, getD_none]
    omega

end QueuedWebviewMessage

end TikTools.Desktop
