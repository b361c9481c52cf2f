/-
Declarative actions: the HTTP request a plugin's manifest describes.

The manifest's templates are rendered against a scope of the event, the
plugin's settings and the action's configuration. The rendered request
is then handed to the HTTP action of the automation runtime as if it
were a configuration of its own, which renders its URL, its headers and
a text body once more, against the globals and the event.
-/
import TikTools.Automation.Http

namespace TikTools.Automation

open TikTools.Lib

-- ==== the inputs

/-- What the host knows of a plugin: its manifest's HTTP block, and
whether the manifest declares the permission `network.bind`. -/
structure DeclarativePlugin where
  id : String
  schemaVersion : Nat
  http : Option Json
  networkBind : Bool

/-- A value that is there and not the empty string. -/
def isGiven (value : Json) : Bool := value ≠ .null && value.asStr ≠ some ""

/-- One step of a JSON pointer, unescaped. -/
def pointerToken : Text → Text
  | '~' :: '1' :: rest => '/' :: pointerToken rest
  | '~' :: '0' :: rest => '~' :: pointerToken rest
  | c :: rest => c :: pointerToken rest
  | [] => []

/-- The element a pointer token names. -/
def pointerStep (value : Json) (token : Text) : Option Json :=
  match value with
  | .object members => Json.member (String.ofList token) members
  | .array items =>
    if token = [] ∨ ¬ token.all Char.isDigit
        ∨ (token.head? = some '0' ∧ 1 < token.length) then none
    else items[Nat.ofDigitChars 10 token 0]?
  | _ => none

/-- `Value::pointer`. -/
def readPointer (value : Json) (pointer : Text) : Option Json :=
  match pointer with
  | [] => some value
  | '/' :: rest =>
    ((rest.splitOn '/').map pointerToken).foldlM pointerStep value
  | _ => none

/-- The first of the pointers that leads to a given value. -/
def firstPointed (settings : Json) (pointers : Json) : Option Json :=
  let pointers := match pointers with
    | .array items => items.filterMap Json.asStr
    | _ => []
  (pointers.filterMap fun p => readPointer settings p.toList).find? isGiven

/-- Fields the action leaves open are filled in from the settings. -/
def applySettingsDefaults (config : List (String × Json)) (settings : Json)
    (defaults : Option Json) : List (String × Json) :=
  ((defaults.bind Json.asObject).getD []).take 32 |>.foldl
    (fun config (field, pointers) =>
      if (Json.member field config).any isGiven then config
      else
        match firstPointed settings pointers with
        | some value => Json.setMember field value config
        | none => config) config

/-- `{"event": …, "settings": …, "config": …}`. -/
def requestScope (event settings : Json) (config : List (String × Json)) :
    Json :=
  .object [("config", .object config), ("event", event),
    ("settings", settings)]

-- ==== structured JSON

/-- The value a `$value` or `$number` binding stands for. -/
def renderBinding (packages : Packages) (spec : List (String × Json))
    (scope : Json) : Except String Json := do
  let numeric := (Json.member "$number" spec).isSome
  let path ← okOr
    ((Json.member (if numeric then "$number" else "$value") spec).bind
      Json.asStr)
    "JSON binding requires a scope path"
  let fallback := ((Json.member "fallback" spec).bind Json.asStr).bind
    fun p => readScopePath scope p.toList
  let found := match (readScopePath scope path.toList).filter isGiven with
    | some value => some value
    | none => fallback.filter isGiven
  let resolved ← okOr found ("Missing required configuration: " ++ path)
  if numeric then
    match packages.bindNumber spec resolved with
    | .invalid => .error ("Invalid number: " ++ path)
    | .outOfRange => .error ("Number out of range: " ++ path)
    | .number text => pure (.number text)
  else pure resolved

mutual

/-- Fill in a structured template: no value is ever substituted into
serialized text. -/
def renderJson (packages : Packages) (scope : Json) :
    Json → Except String Json
  | .object members =>
    if (Json.member "$value" members).isSome
        ∨ (Json.member "$number" members).isSome then
      renderBinding packages members scope
    else do
      let members ← renderMembers packages scope members
      pure (.object members)
  | .array items => do
    let items ← renderItems packages scope items
    pure (.array items)
  | .string s =>
    pure (.string (String.ofList (renderScopedTemplate s.toList scope)))
  | value => pure value

def renderItems (packages : Packages) (scope : Json) :
    List Json → Except String (List Json)
  | [] => pure []
  | v :: rest => do
    let v ← renderJson packages scope v
    let rest ← renderItems packages scope rest
    pure (v :: rest)

def renderMembers (packages : Packages) (scope : Json) :
    List (String × Json) → Except String (List (String × Json))
  | [] => pure []
  | (k, v) :: rest => do
    let v ← renderJson packages scope v
    let rest ← renderMembers packages scope rest
    pure ((k, v) :: rest)

end

-- ==== the request

/-- One fully rendered declarative request. -/
structure DeclarativeEndpoint where
  method : Text
  url : Text
  headers : List (String × Text)
  body : Option Text
  timeoutMs : Nat
  allowPrivateNetwork : Bool

/-- Loopback by the host's text. -/
def isLoopbackHost (host : Text) : Bool :=
  let normalized := toAsciiLowercase (trimBrackets host)
  normalized == "localhost".toList
    || ".localhost".toList.isSuffixOf normalized
    || (parseIpAddr normalized).any fun address =>
        match address with
        | .v4 a => a.o0 == 127
        | .v6 a => a == ⟨0, 0, 0, 0, 0, 0, 0, 1⟩

def member (key : String) (value : Json) : Option Json := value.get key

def asText (value : Option Json) : Option Text :=
  (value.bind Json.asStr).map String.toList

def flag (key : String) (members : List (String × Json)) : Bool :=
  ((Json.member key members).bind Json.asBool).getD false

/-- The request budget: by the provider the configuration selects, by
the action, by the manifest, or ten seconds. -/
def resolveActionTimeout (http block : List (String × Json))
    (scope : Json) : Nat :=
  let fromField := do
    let spec ← (Json.member "timeoutByField" block).bind Json.asObject
    let field ← (Json.member "field" spec).bind Json.asStr
    let selected := do
      let config ← (member "config" scope).bind Json.asObject
      (Json.member field config).bind Json.asStr
    let listed := do
      let value ← selected
      let values ← (Json.member "values" spec).bind Json.asObject
      (Json.member value values).bind Json.asU64
    match listed with
    | some ms => some ms
    | none => (Json.member "defaultMs" spec).bind Json.asU64
  let candidates := [fromField,
    (Json.member "timeoutMs" block).bind Json.asU64,
    (Json.member "timeoutMs" http).bind Json.asU64, some 10000]
  min (max ((candidates.findSome? id).getD 10000) 100) 180000

/-- `char::is_control`. -/
def isControl (c : Char) : Bool :=
  c.toNat < 32 || (127 ≤ c.toNat && c.toNat ≤ 159)

def trimEndSlashes (text : Text) : Text :=
  (text.reverse.dropWhile (· = '/')).reverse

/-- The parsed base URL and its host. -/
structure Base where
  rendered : Text
  host : Text
  loopback : Bool

/-- The base URL of the manifest, where it may lead. -/
def renderBase (packages : Packages) (plugin : DeclarativePlugin)
    (http : List (String × Json)) (scope : Json) : Except String Base := do
  let template := (asText (Json.member "baseUrl" http)).getD []
  let rendered := trim (renderScopedTemplate template scope)
  ensure (rendered ≠ []
      ∧ (String.ofList rendered).utf8ByteSize ≤ 8192)
    ("Plugin `" ++ plugin.id ++ "` has an invalid server URL.")
  let base ← okOr (packages.parse rendered)
    ("Plugin `" ++ plugin.id ++ "` has an invalid server URL.")
  ensure (base.scheme = "http".toList ∨ base.scheme = "https".toList)
    ("Plugin `" ++ plugin.id ++ "` must use an http(s) server URL.")
  ensure (base.username = [] ∧ base.password = none)
    ("Plugin `" ++ plugin.id
      ++ "` must not embed credentials in its server URL.")
  let host ← okOr (base.hostStr.map toAsciiLowercase)
    ("Plugin `" ++ plugin.id ++ "` has a server URL with no host.")
  let loopback := isLoopbackHost host
  ensure (loopback = true ∨ plugin.networkBind = true)
    ("plugin `" ++ plugin.id ++ "` is not permitted to use `network.bind`")
  ensure (loopback = true ∨ isPrivateHost host = false
      ∨ flag "allowPrivateNetwork" http = true)
    ("Plugin `" ++ plugin.id ++ "` reaches a private host; its manifest"
      ++ " must opt in with allowPrivateNetwork.")
  pure { rendered, host, loopback }

/-- The URL of the request, on the host of the base URL. -/
def renderUrl (packages : Packages) (plugin : DeclarativePlugin)
    (base : Base) (pathTemplate : Text) (scope : Json) :
    Except String Url := do
  let path := trim (renderScopedTemplate pathTemplate scope)
  ensure (path.head? = some '/')
    ("Plugin `" ++ plugin.id ++ "` must keep declarative paths"
      ++ " base-relative.")
  ensure (¬ path.any fun c => isWhitespace c || isControl c)
    ("Plugin `" ++ plugin.id ++ "` rendered an invalid request path.")
  let url ← okOr (packages.parse (trimEndSlashes base.rendered ++ path))
    ("Plugin `" ++ plugin.id ++ "` rendered an invalid request URL.")
  ensure (url.hostStr.map toAsciiLowercase = some base.host)
    ("Plugin `" ++ plugin.id
      ++ "` must not change the destination host per request.")
  pure url

/-- The URL and the header the credentials end up in. -/
def authorize (packages : Packages) (plugin : DeclarativePlugin)
    (http : List (String × Json)) (base : Base) (url : Url)
    (scope : Json) : Except String (Url × List (String × Text)) := do
  let auth := ((Json.member "auth" http).bind Json.asObject).getD []
  let authType := (asText (Json.member "type" auth)).getD "none".toList
  if authType = "none".toList then
    ensure (base.loopback = true)
      ("Plugin `" ++ plugin.id
        ++ "` reaches beyond loopback without authentication.")
    pure (url, [])
  else if authType = "bearer".toList ∨ authType = "header".toList
      ∨ authType = "query".toList then
    let tokenSetting :=
      ((Json.member "tokenSetting" auth).bind Json.asStr).getD ""
    let token := trim ((asText
      ((member "settings" scope).bind (member tokenSetting))).getD [])
    if token = [] then
      ensure (base.loopback = true)
        ("Plugin `" ++ plugin.id ++ "` needs its `" ++ tokenSetting
          ++ "` setting to reach " ++ String.ofList base.host ++ ".")
      pure (url, [])
    else if authType = "bearer".toList then
      let scheme := (asText (Json.member "scheme" auth)).getD "Bearer".toList
      pure (url, [("authorization", scheme ++ ' ' :: token)])
    else if authType = "header".toList then
      let name := ((Json.member "header" auth).bind Json.asStr).getD
        "X-Api-Token"
      pure (url, [(name, token)])
    else
      let param := (asText (Json.member "param" auth)).getD "token".toList
      pure (packages.appendPair url param token, [])
  else
    .error ("Plugin `" ++ plugin.id ++ "` declares an unknown auth type.")

/-- The header templates of one block. -/
def blockHeaders (members : List (String × Json)) :
    List (String × Text) :=
  (((Json.member "headers" members).bind Json.asObject).getD []).map
    fun header => (header.1, valueToString header.2)

/-- The header templates of the manifest and of the action. -/
def headerTemplates (http block : List (String × Json)) :
    List (String × Text) :=
  blockHeaders http ++ blockHeaders block

/-- Render and authorize one declarative request. -/
def buildDeclarativeRequest (packages : Packages)
    (plugin : DeclarativePlugin) (block : List (String × Json))
    (method pathTemplate : Text) (scope : Json) :
    Except String DeclarativeEndpoint := do
  ensure (3 ≤ plugin.schemaVersion)
    ("Plugin `" ++ plugin.id ++ "` is not a declarative (schema v3) plugin.")
  let http ← okOr (plugin.http.bind Json.asObject)
    ("Plugin `" ++ plugin.id ++ "` declares no HTTP integration.")
  let base ← renderBase packages plugin http scope
  let url ← renderUrl packages plugin base pathTemplate scope
  let (url, authHeaders) ← authorize packages plugin http base url scope
  let headers := (headerTemplates http block).map
    (fun (name, template) => (name, renderScopedTemplate template scope))
    ++ authHeaders
  ensure (headers.length ≤ 64)
    ("Plugin `" ++ plugin.id ++ "` declares too many headers.")
  pure
    { method := method.map Char.toUpper
      url := url.text
      headers
      body := (asText (Json.member "body" block)).map
        fun template => renderScopedTemplate template scope
      timeoutMs := resolveActionTimeout http block scope
      allowPrivateNetwork :=
        base.loopback || flag "allowPrivateNetwork" http }

/-- The structured template of an action, with the members of the
selected variant. -/
def structuredTemplate (template : Json) (block config : List (String × Json))
    (settings : Json) : Except String Json :=
  match Json.member "bodyVariants" block with
  | none => pure template
  | some spec => do
    let field ← okOr ((member "field" spec).bind Json.asStr)
      "Missing variant field"
    let value := match (Json.member field config).filter
        (fun v => v.asStr ≠ some "") with
      | some value => some value
      | none => member field settings
    let selected ← okOr (value.bind Json.asStr) "Select a request variant"
    let variant ← okOr
      ((((member "values" spec).bind (member selected))).bind Json.asObject)
      "Invalid request variant"
    let members ← okOr template.asObject "bodyJson must be an object"
    pure (.object (Json.extend members variant))

/-- The body of the request, as the HTTP action gets it: a structured
body is serialized and parsed again. -/
def fetchBody (packages : Packages) (block config : List (String × Json))
    (settings scope : Json) (endpoint : DeclarativeEndpoint) :
    Except String (Option Json) :=
  match Json.member "bodyJson" block with
  | none =>
    pure (endpoint.body.map fun body => .string (String.ofList body))
  | some template => do
    let template ← structuredTemplate template block config settings
    let rendered ← renderJson packages scope template
    let body ← okOr (packages.fromStr rendered.encode)
      "Invalid structured body"
    pure (some body)

/-- With the idempotency key, when the action asks for one. -/
def keyedHeaders (block : List (String × Json)) (key : Text)
    (headers : List (String × Text)) : List (String × Text) :=
  let idempotency := Json.member "idempotency" block
  if (idempotency.bind (member "enabled")).bind Json.asBool = some true then
    let header := ((idempotency.bind (member "header")).bind
      Json.asStr).getD "Idempotency-Key"
    headers.filter (fun h => toAsciiLowercase h.1.toList
      ≠ toAsciiLowercase header.toList) ++ [(header, key)]
  else headers

/-- The configuration the HTTP action of the runtime is given. -/
structure Fetch where
  url : Text
  method : Text
  headers : List (String × Json)
  body : Option Json
  timeoutMs : Nat
  allowPrivateNetwork : Bool
  emitResponseAs : Option Json
  deriving DecidableEq

/-- Its members, in key order. -/
def Fetch.config (fetch : Fetch) : List (String × Json) :=
  [("allowPrivateNetwork", Json.bool fetch.allowPrivateNetwork)]
    ++ (fetch.body.map fun body => ("body", body)).toList
    ++ (fetch.emitResponseAs.map fun emit => ("emitResponseAs", emit)).toList
    ++ [("headers", .object fetch.headers),
      ("method", .string (String.ofList fetch.method)),
      ("timeoutCeilingMs", .number (toString 180000)),
      ("timeoutMs", .number (toString fetch.timeoutMs)),
      ("url", .string (String.ofList fetch.url))]

/-- One execution of a declarative action: what it is run with. -/
structure Execution where
  plugin : DeclarativePlugin
  /-- The `http` block of the action descriptor. -/
  block : List (String × Json)
  /-- The configuration of the action. -/
  config : List (String × Json)
  settings : Json
  event : Json
  /-- The random idempotency key of this execution. -/
  key : Text

namespace Execution

variable (packages : Packages) (e : Execution)

/-- The configuration with the defaults from the settings. -/
def filledConfig : List (String × Json) :=
  applySettingsDefaults e.config e.settings
    (Json.member "defaultsFromSettings" e.block)

def scope : Json := requestScope e.event e.settings e.filledConfig

/-- The first pass: everything up to the call of the HTTP action. -/
def fetch : Except String Fetch := do
  let _ ← okOr e.plugin.http
    ("Plugin `" ++ e.plugin.id ++ "` declares no HTTP integration.")
  let method := (asText (Json.member "method" e.block)).getD "POST".toList
  let path ← okOr (asText (Json.member "path" e.block))
    ("Plugin `" ++ e.plugin.id ++ "` action has no HTTP path.")
  let endpoint ← buildDeclarativeRequest packages e.plugin e.block method
    path e.scope
  let body ← fetchBody packages e.block e.filledConfig e.settings e.scope
    endpoint
  pure
    { url := endpoint.url
      method := endpoint.method
      headers := (keyedHeaders e.block e.key endpoint.headers).foldl
        (fun headers (name, value) => Json.setMember name
          (.string (String.ofList value)) headers) []
      body
      timeoutMs := endpoint.timeoutMs
      allowPrivateNetwork := endpoint.allowPrivateNetwork
      emitResponseAs := Json.member "emitResponseAs" e.block }

end Execution

/-- `execute_declarative_action`, up to the request it sends. -/
def executeDeclarativeAction (packages : Packages) (net : Network)
    (globals : Globals) (e : Execution) : Except String Prepared := do
  let fetch ← e.fetch packages
  let host := (((packages.parse fetch.url).bind Url.hostStr).map
    toAsciiLowercase).getD []
  prepareHttpAction packages net fetch.config e.event globals
    (some [host]) false

end TikTools.Automation
