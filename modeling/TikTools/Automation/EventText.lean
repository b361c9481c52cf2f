/-
What becomes of event text in a declarative request.

The first pass puts the text of a value into a template as it is. The
second pass reads the result as a template again: an opening pair that
came in with the text of a value is a span to it. What a viewer writes
is therefore data exactly as long as no place the manifest fills with
event text, and the second pass renders again, holds an opening pair
once it is filled (`literal_iff`).

A structured body that is not itself a string is serialized and not
rendered again.
-/
import TikTools.Automation.Declarative

namespace TikTools.Automation

open TikTools.Lib

-- ==== places of the event

/-- `spanPaths` of a text of at most `fuel` characters. -/
def spanPathsIn : Nat → Text → List Text
  | 0, _ => []
  | fuel + 1, source =>
    match splitPair '{' source with
    | none => []
    | some (_, expression) =>
      match splitPair '}' expression with
      | none => []
      | some (path, rest) => trim path :: spanPathsIn fuel rest

/-- The paths of a template's spans. -/
def spanPaths (template : Text) : List Text :=
  spanPathsIn template.length template

/-- The path reads the event of a scope. -/
def readsEvent (path : Text) : Bool := (pathParts path).head? == some "event"

/-- The template references the event directly. -/
def refersToEvent (template : Text) : Bool :=
  (spanPaths template).any readsEvent

mutual

/-- A structured template references the event directly. -/
def jsonRefers : Json → Bool
  | .object members =>
    if (Json.member "$value" members).isSome
        ∨ (Json.member "$number" members).isSome then
      ["$value", "$number", "fallback"].any fun key =>
        (asText (Json.member key members)).any readsEvent
    else membersRefer members
  | .array items => itemsRefer items
  | .string s => refersToEvent s.toList
  | _ => false

def itemsRefer : List Json → Bool
  | [] => false
  | v :: rest => jsonRefers v || itemsRefer rest

def membersRefer : List (String × Json) → Bool
  | [] => false
  | (_, v) :: rest => jsonRefers v || membersRefer rest

end

namespace Execution

variable (packages : Packages) (e : Execution)

/-- The manifest's HTTP block. -/
def http : List (String × Json) := (e.plugin.http.bind Json.asObject).getD []

def urlRefers : Bool :=
  refersToEvent ((asText (Json.member "baseUrl" e.http)).getD [])
    || (asText (Json.member "path" e.block)).any refersToEvent

/-- A header of the fetch that some template filled with event text. -/
def FilledHeader (fetch : Fetch) (name : String) (text : Text) : Prop :=
  (name, Json.string (String.ofList text)) ∈ fetch.headers
    ∧ ∃ template, (name, template) ∈ headerTemplates e.http e.block
      ∧ refersToEvent template = true
      ∧ renderScopedTemplate template e.scope = text

def bodyRefers : Bool :=
  match Json.member "bodyJson" e.block with
  | none => (asText (Json.member "body" e.block)).any refersToEvent
  | some template =>
    match structuredTemplate template e.block e.filledConfig e.settings with
    | .ok template => jsonRefers template
    | .error _ => false

end Execution

-- ==== the second pass

/-- The body of a fetch as it stands. -/
def Fetch.plainBody (fetch : Fetch) : Option Text :=
  match fetch.body with
  | none | some .null => none
  | some body => some (valueToString body)

/-- The second pass leaves the places with event text as the first one
filled them. -/
structure Literal (e : Execution) (fetch : Fetch) (event : Json)
    (globals : Globals) : Prop where
  url : e.urlRefers = true →
    renderGlobalsOnly fetch.url globals = fetch.url
      ∧ renderTemplate (renderGlobalsOnly fetch.url globals) event globals
        = fetch.url
  headers : ∀ name text, e.FilledHeader fetch name text →
    renderHeader event globals (name, .string (String.ofList text))
      = (name, text)
  body : e.bodyRefers = true →
    renderBody fetch.config event globals = fetch.plainBody

/-- No place with event text holds an opening pair. -/
structure Unopened (e : Execution) (fetch : Fetch) : Prop where
  url : e.urlRefers = true → ¬ ['{', '{'] <:+: fetch.url
  headers : ∀ name text, e.FilledHeader fetch name text →
    ¬ ['{', '{'] <:+: text
  body : e.bodyRefers = true → ∀ text, fetch.body = some (.string text) →
    ¬ ['{', '{'] <:+: text.toList

@[simp] theorem Fetch.member_url (fetch : Fetch) :
    Json.member "url" fetch.config
      = some (.string (String.ofList fetch.url)) := by
  cases hb : fetch.body <;> cases hem : fetch.emitResponseAs <;>
    simp [Fetch.config, hb, hem, Json.member]

@[simp] theorem Fetch.member_headers (fetch : Fetch) :
    Json.member "headers" fetch.config = some (.object fetch.headers) := by
  cases hb : fetch.body <;> cases hem : fetch.emitResponseAs <;>
    simp [Fetch.config, hb, hem, Json.member]

@[simp] theorem Fetch.member_body (fetch : Fetch) :
    Json.member "body" fetch.config = fetch.body := by
  cases hb : fetch.body <;> cases hem : fetch.emitResponseAs <;>
    simp [Fetch.config, hb, hem, Json.member]

theorem renderBody_fetch (fetch : Fetch) (ev : Json)
    (g : Globals) :
    renderBody fetch.config ev g = fetch.plainBody
      ∨ ∃ text, fetch.body = some (.string text)
        ∧ fetch.plainBody = some text.toList
        ∧ renderBody fetch.config ev g
          = some (renderTemplate text.toList ev g) := by
  unfold renderBody Fetch.plainBody
  rw [Fetch.member_body]
  cases hb : fetch.body with
  | none => exact Or.inl rfl
  | some body =>
    cases body with
    | string text => exact Or.inr ⟨text, rfl, rfl, rfl⟩
    | null => exact Or.inl rfl
    | bool b => exact Or.inl rfl
    | number text => exact Or.inl rfl
    | array items => exact Or.inl rfl
    | object members => exact Or.inl rfl

variable {fetch : Fetch} {e : Execution}

theorem unopened_of_literal
    (h : ∀ ev g, Literal e fetch ev g) :
    Unopened e fetch where
  url hr := by
    refine renderTemplate_fixed_iff.1 fun ev g => ?_
    obtain ⟨hg, hbt⟩ := (h ev g).url hr
    rwa [hg] at hbt
  headers name text hf := by
    refine renderTemplate_fixed_iff.1 fun ev g => ?_
    have hh := (h ev g).headers name text hf
    simpa [renderHeader, valueToString] using hh
  body hr text ht := by
    refine renderTemplate_fixed_iff.1 fun ev g => ?_
    have hb := (h ev g).body hr
    simpa [renderBody, Fetch.plainBody, Fetch.member_body, ht,
      valueToString] using hb

theorem literal_of_unopened (h : Unopened e fetch) (ev : Json)
    (g : Globals) :
    Literal e fetch ev g where
  url hr := by
    have hf := h.url hr
    have hg : renderGlobalsOnly fetch.url g = fetch.url :=
      substituteSpans_eq_self hf _
    rw [hg]
    exact ⟨rfl, substituteSpans_eq_self hf _⟩
  headers name text hfl := by
    have hf : renderTemplate text ev g = text :=
      substituteSpans_eq_self (h.headers name text hfl) _
    simp [renderHeader, valueToString, hf]
  body hr := by
    rcases renderBody_fetch fetch ev g with
      hp | ⟨text, hb, hp, hrn⟩
    · exact hp
    · have hf : renderTemplate text.toList ev g
          = text.toList :=
        substituteSpans_eq_self (h.body hr text hb) _
      rw [hrn, hp, hf]

/-- A server on this machine. -/
def localUrl (path : String) : Url where
  text := "http://127.0.0.1:8080/".toList ++ path.toList
  scheme := "http".toList
  username := []
  password := none
  host := some (.ipv4 ⟨127, 0, 0, 1⟩)
  hostStr := some "127.0.0.1".toList
  portOrKnownDefault := some 8080

/-- Parsing as far as the announcements need it. -/
def localPackages : Packages where
  parse t :=
    if t = "http://127.0.0.1:8080".toList then some (localUrl "")
    else if t = (localUrl "say").text then some (localUrl "say")
    else none
  join _ _ := none
  appendPair url _ _ := url
  bindNumber _ _ := .invalid
  fromStr _ := none
  timeoutMs _ := 10000
  builds _ := true

/-- An action that passes a viewer's comment on in a header. -/
def announce (comment : String) : Execution where
  plugin :=
    { id := "announcer"
      schemaVersion := 3
      http := some (.object [("baseUrl", .string "http://127.0.0.1:8080")])
      networkBind := false }
  block :=
    [("headers", .object [("x-comment", .string "{{ event.comment }}")]),
      ("path", .string "/say")]
  config := []
  settings := .object []
  event := .object [("comment", .string comment)]
  key := []

def quietNetwork : Network where
  lookup _ _ := none
  attempts := 1
  tries _ _ := true
  replies := []

/-- The request that carries `comment` in its header. -/
def announcement (comment : String) : HardenedHttpRequest where
  method := "POST".toList
  url := (localUrl "say").text
  headers := [("x-comment", comment.toList)]
  body := none
  timeoutMs := 10000

def announceGlobals : Globals := [("token", "s3cret")]

def announceFetch (comment : String) : Fetch where
  url := (localUrl "say").text
  method := "POST".toList
  headers := [("x-comment", .string comment)]
  body := none
  timeoutMs := 10000
  allowPrivateNetwork := true
  emitResponseAs := none

theorem announce_hello_unopened :
    Unopened (announce "hello") (announceFetch "hello") where
  url _ := splitPair_eq_none_iff.1 (by decide)
  headers name text hf := by
    have hmem := List.mem_singleton.1 hf.1
    have ht : String.ofList text = "hello" :=
      Json.string.inj (congrArg Prod.snd hmem)
    have hl : text = "hello".toList := by
      rw [← ht, String.toList_ofList]
    rw [hl]
    exact splitPair_eq_none_iff.1 (by decide)
  body _ text ht := by cases ht

theorem announce_hello_filled :
    (announce "hello").FilledHeader (announceFetch "hello") "x-comment"
      "hello".toList :=
  ⟨by decide, "{{ event.comment }}".toList, by decide, by decide, by decide⟩

end TikTools.Automation
