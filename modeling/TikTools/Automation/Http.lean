/-
HTTP actions: what an `action.http` node sends, and where to.

The action renders its URL twice: first the operator's globals, which
fixes the host, then the event. The rendered URL must keep the host; its
host must not be private, by its text and by the addresses a lookup
gives for it; and the client that sends the request follows no redirect.

The URL parser and the client are packages of their own. They enter as
the parameter `Packages`, the network as `Network`: the answer to every
lookup, by its number, which of the addresses the client gets it
tries, and the replies.
-/
import TikTools.Automation.Template
import TikTools.Lib.Checked
import TikTools.Lib.IpAddr

namespace TikTools.Automation

open TikTools.Lib

-- ==== URLs

/-- `url::Host`. -/
inductive Host where
  | domain (name : Text)
  | ipv4 (address : Ipv4)
  | ipv6 (address : Ipv6)

/-- A parsed URL; `text` is its serialization. -/
structure Url where
  text : Text
  scheme : Text
  username : Text
  password : Option Text
  host : Option Host
  hostStr : Option Text
  portOrKnownDefault : Option Nat

/-- A request for the hardened sender. -/
structure HardenedHttpRequest where
  method : Text
  url : Text
  headers : List (String × Text)
  body : Option Text
  timeoutMs : Nat
  deriving DecidableEq

/-- What a numeric binding makes of a value. -/
inductive NumberBinding where
  | invalid
  | outOfRange
  | number (text : String)

/-- The functions of other packages, and those that compute with
floating-point numbers. -/
structure Packages where
  /-- `Url::parse`. -/
  parse : Text → Option Url
  /-- `Url::join`. -/
  join : Url → Text → Option Url
  /-- `query_pairs_mut().append_pair`. -/
  appendPair : Url → Text → Text → Url
  /-- The number a `$number` binding with these options reads. -/
  bindNumber : List (String × Json) → Json → NumberBinding
  /-- `serde_json::from_str`. -/
  fromStr : Text → Option Json
  /-- The budget the numbers of a configuration ask for. -/
  timeoutMs : List (String × Json) → Nat
  /-- The client takes the request's headers. -/
  builds : HardenedHttpRequest → Bool

/-- A serialized URL is parsed back to the same URL. -/
def Packages.Reparses (packages : Packages) : Prop :=
  ∀ t u, packages.parse t = some u → packages.parse u.text = some u

/-- The characters of a serialized IPv6 address. -/
def isIpv6Char (c : Char) : Bool :=
  c.isDigit || ('a' ≤ c && c ≤ 'f') || c == ':' || c == '.'

/-- The host text of a parsed URL spells its host: a name as it is, an
IPv4 address in dotted decimals, an IPv6 address in lower case between
brackets. -/
structure Packages.HostText (packages : Packages) : Prop where
  none : ∀ t u, packages.parse t = some u → u.host = none → u.hostStr = none
  domain : ∀ t u name, packages.parse t = some u →
    u.host = some (.domain name) → u.hostStr = some name
  ipv4 : ∀ t u a, packages.parse t = some u →
    u.host = some (.ipv4 a) → u.hostStr = some a.text
  ipv6 : ∀ t u a, packages.parse t = some u →
    u.host = some (.ipv6 a) → ∃ inner,
      u.hostStr = some ('[' :: inner ++ [']'])
        ∧ inner.all isIpv6Char
        ∧ parseIpAddr inner = some (.v6 a)

-- ==== host policy

def toAsciiLowercase (text : Text) : Text := text.map Char.toLower

def isBracket (c : Char) : Bool := c == '[' || c == ']'

/-- `trim_matches(['[', ']'])`. -/
def trimBrackets (text : Text) : Text :=
  ((text.dropWhile isBracket).reverse.dropWhile isBracket).reverse

def isPrivateIp : IpAddr → Bool
  | .v4 a =>
    a.o0 == 0 || a.o0 == 10 || a.o0 == 127
      || (a.o0 == 100 && (64 ≤ a.o1 && a.o1 ≤ 127))
      || (a.o0 == 169 && a.o1 == 254)
      || (a.o0 == 172 && (16 ≤ a.o1 && a.o1 ≤ 31))
      || (a.o0 == 192 && a.o1 == 168)
  | .v6 a =>
    -- `is_loopback` and `is_unspecified`
    a == ⟨0, 0, 0, 0, 0, 0, 0, 1⟩ || a == ⟨0, 0, 0, 0, 0, 0, 0, 0⟩
      || (a.s0 &&& 0xfe00) == 0xfc00
      || (a.s0 &&& 0xffc0) == 0xfe80

def isPrivateHost (host : Text) : Bool :=
  let normalized := toAsciiLowercase (trimBrackets host)
  normalized == "localhost".toList
    || ".localhost".toList.isSuffixOf normalized
    || ".local".toList.isSuffixOf normalized
    || normalized == "::".toList
    || normalized == "::1".toList
    || (parseIpAddr normalized).any isPrivateIp

def validateHttpUrlShape (url : Url) (configuredHost : Text)
    (allowedHosts : Option (List Text)) (allowPrivateNetwork : Bool) :
    Except String Unit := do
  ensure (url.scheme = "http".toList ∨ url.scheme = "https".toList)
    "Only http:// and https:// URLs are allowed."
  ensure (url.username = [] ∧ url.password = none)
    "HTTP URLs cannot contain embedded credentials."
  let host ← okOr (url.hostStr.map toAsciiLowercase) "HTTP URL has no host."
  ensure (host = configuredHost)
    "The rendered HTTP URL changed its configured host."
  ensure (∀ hosts ∈ allowedHosts, host ∈ hosts)
    ("HTTP host is not allowed by the script: " ++ String.ofList host)
  ensure (¬ (isPrivateHost host = true ∧ allowPrivateNetwork = false))
    ("HTTP request to a private host is blocked: " ++ String.ofList host)

/-- A response of a server. -/
structure Reply where
  status : Nat
  location : Option Text

/-- What the network does during one action. -/
structure Network where
  /-- The answer to the lookup with this number. -/
  lookup : Nat → Text → Option (List IpAddr)
  /-- How often the client connects for one request. -/
  attempts : Nat
  /-- The addresses it tries at this attempt. -/
  tries : Nat → IpAddr → Bool
  replies : List Reply

/-- `tokio::net::lookup_host`: an address stands for itself. -/
def lookupHost (net : Network) (number : Nat) (host : Text) :
    Option (List IpAddr) :=
  match parseIpAddr host with
  | some address => some [address]
  | none => net.lookup number host

def validateHttpUrl (net : Network) (url : Url) (configuredHost : Text)
    (allowedHosts : Option (List Text)) (allowPrivateNetwork : Bool) :
    Except String Unit := do
  validateHttpUrlShape url configuredHost allowedHosts allowPrivateNetwork
  let host ← okOr (url.hostStr.map toAsciiLowercase) "HTTP URL has no host."
  let _port ← okOr url.portOrKnownDefault "HTTP URL has no valid port."
  let addresses ← okOr (lookupHost net 0 host)
    ("HTTP host could not be resolved: " ++ String.ofList host)
  ensure (¬ (allowPrivateNetwork = false ∧ addresses.any isPrivateIp = true))
    ("HTTP host resolves to a private address: " ++ String.ofList host)

-- ==== the action

/-- The characters of a request method. -/
def isMethodChar (c : Char) : Bool :=
  c.isAlphanum || "!#$%&'*+-.^_|~".toList.contains c || c.toNat == 96

def isMethod (name : Text) : Bool := !name.isEmpty && name.all isMethodChar

/-- The two texts a URL template goes through: with the globals, and
with everything. -/
structure ConfiguredUrl where
  url : Url
  configuredHost : Text

def configureUrl (packages : Packages)
    (config : List (String × Json)) (event : Json) (globals : Globals) :
    Except String ConfiguredUrl := do
  let rawUrl ← okOr ((Json.member "url" config).bind Json.asStr)
    "HTTP action has no URL."
  let globalsRenderedUrl := renderGlobalsOnly rawUrl.toList globals
  ensure (hasEmptyAuthority globalsRenderedUrl = false)
    "HTTP URL has no host after rendering globals."
  let configuredUrl ← okOr (packages.parse globalsRenderedUrl)
    "HTTP URL is invalid before template rendering."
  let configuredHost ← okOr (configuredUrl.hostStr.map toAsciiLowercase)
    "HTTP URL has no host."
  let renderedUrl := renderTemplate globalsRenderedUrl event globals
  let url ← okOr (packages.parse renderedUrl)
    "HTTP URL is invalid after template rendering."
  pure { url, configuredHost }

def allowPrivateNetwork (config : List (String × Json)) : Bool :=
  ((Json.member "allowPrivateNetwork" config).bind Json.asBool).getD false

def methodName (config : List (String × Json)) : Text :=
  (trim ((((Json.member "method" config).bind Json.asStr).getD
    "POST").toList)).map Char.toUpper

def renderHeader (event : Json) (globals : Globals)
    (header : String × Json) : String × Text :=
  (header.1, renderTemplate (valueToString header.2) event globals)

def renderHeaders (config : List (String × Json)) (event : Json)
    (globals : Globals) : Except String (List (String × Text)) := do
  let headers := ((Json.member "headers" config).bind Json.asObject).getD []
  ensure (headers.length ≤ 64) "HTTP action has too many headers."
  pure (headers.map (renderHeader event globals))

def renderBody (config : List (String × Json)) (event : Json)
    (globals : Globals) : Option Text :=
  match Json.member "body" config with
  | none | some .null => none
  | some (.string value) =>
    some (renderTemplate value.toList event globals)
  | some value => some (valueToString value)

/-- `haystack.contains(needle)`. -/
def containsText (needle haystack : Text) : Bool :=
  haystack.tails.any needle.isPrefixOf

/-- The value of the last header with this name. -/
def contentType (headers : List (String × Text)) : Text :=
  ((headers.filter fun h =>
    toAsciiLowercase h.1.toList = "content-type".toList).getLast?.map
      Prod.snd).getD []

/-- A body that says it is JSON is JSON. -/
def bodyIsValid (packages : Packages) (method : Text)
    (headers : List (String × Text)) (body : Option Text) : Bool :=
  body.all fun body =>
    method = "GET".toList ∨ method = "HEAD".toList
      ∨ ¬ containsText "application/json".toList
          (toAsciiLowercase (contentType headers))
      ∨ trim body = []
      ∨ (packages.fromStr body).isSome

/-- A request that passed every check, or what a test run reports. -/
inductive Prepared where
  | test (summary : Text)
  | send (request : HardenedHttpRequest) (configuredHost : Text)
  deriving DecidableEq

/-- Everything `execute_http_action` does before it sends. -/
def prepareHttpAction (packages : Packages) (net : Network)
    (config : List (String × Json)) (event : Json) (globals : Globals)
    (allowedHosts : Option (List Text)) (test : Bool) :
    Except String Prepared := do
  let configured ← configureUrl packages config event globals
  if test then
    validateHttpUrlShape configured.url configured.configuredHost
      allowedHosts (allowPrivateNetwork config)
  else
    validateHttpUrl net configured.url configured.configuredHost
      allowedHosts (allowPrivateNetwork config)
  let method := methodName config
  ensure (isMethod method = true)
    ("HTTP method is invalid: " ++ String.ofList method)
  let headers ← renderHeaders config event globals
  let body := renderBody config event globals
  ensure (bodyIsValid packages method headers body = true)
    "The JSON body is invalid after applying the template."
  if test then
    pure (.test ("would ".toList ++ method ++ " request to ".toList
      ++ configured.configuredHost))
  else
    pure (.send
      { method, url := configured.url.text, headers, body,
        timeoutMs := packages.timeoutMs config }
      configured.configuredHost)

theorem prepareHttpAction_send {packages : Packages} {net : Network}
    {config : List (String × Json)} {event : Json} {globals : Globals}
    {allowedHosts : Option (List Text)} {test : Bool}
    {request : HardenedHttpRequest} {configuredHost : Text}
    (h : prepareHttpAction packages net config event globals allowedHosts
      test = .ok (.send request configuredHost)) :
    ∃ rawUrl url, (Json.member "url" config).bind Json.asStr = some rawUrl
      ∧ packages.parse (renderTemplate
          (renderGlobalsOnly rawUrl.toList globals) event globals)
        = some url
      ∧ request.url = url.text
      ∧ validateHttpUrlShape url configuredHost allowedHosts
          (allowPrivateNetwork config) = .ok ()
      ∧ request.headers
        = (((Json.member "headers" config).bind Json.asObject).getD
            []).map (renderHeader event globals)
      ∧ request.body = renderBody config event globals := by
  unfold prepareHttpAction at h
  rw [bind_eq_ok] at h
  obtain ⟨configured, hc, h⟩ := h
  simp only [configureUrl, okOr_ok, ensure_ok] at hc
  obtain ⟨rawUrl, hraw, -, _, -, _, -, url, hurl, hp⟩ := hc
  cases hp
  cases test with
  | true =>
    simp only [if_true, bind_eq_ok] at h
    obtain ⟨_, _, _, _, _, _, _, _, hs⟩ := h
    cases hs
  | false =>
    simp only [Bool.false_eq_true, if_false, bind_eq_ok] at h
    obtain ⟨_, hv, _, _, headers, hh, _, _, hs⟩ := h
    cases hs
    simp only [validateHttpUrl, bind_eq_ok] at hv
    obtain ⟨_, hsh, -⟩ := hv
    simp only [renderHeaders, ensure_ok] at hh
    obtain ⟨-, hmap⟩ := hh
    cases hmap
    exact ⟨rawUrl, url, hraw, hurl, rfl, hsh, rfl, rfl⟩

-- ==== the client

/-- `reqwest::redirect::Policy`. -/
inductive RedirectPolicy where
  | none
  | limited (redirects : Nat)

/-- The hardened client follows no redirect. -/
def hardenedPolicy : RedirectPolicy := .none

def isRedirection (reply : Reply) : Bool :=
  300 ≤ reply.status && reply.status < 400

/-- The URLs the client asks for, in order. -/
def visited (packages : Packages) : (redirects : Nat) → Url →
    List Reply → List Url
  | redirects + 1, url, reply :: replies =>
    match (reply.location.bind (packages.join url)) with
    | some target =>
      if isRedirection reply then
        url :: visited packages redirects target replies
      else [url]
    | none => [url]
  | _, url, _ => [url]

def RedirectPolicy.visited (packages : Packages) (url : Url)
    (replies : List Reply) : RedirectPolicy → List Url
  | .none => [url]
  | .limited redirects =>
    Automation.visited packages redirects url replies

/-- The addresses the client connects to at one attempt: the address
the URL spells, or those it tries of a lookup of its own. -/
def dial (net : Network) (attempt : Nat) (url : Url) : List IpAddr :=
  match url.host with
  | some (.ipv4 a) => [.v4 a]
  | some (.ipv6 a) => [.v6 a]
  | some (.domain name) =>
    ((net.lookup (attempt + 1) name).getD []).filter (net.tries attempt)
  | none => []

def connections (packages : Packages) (net : Network)
    (policy : RedirectPolicy) (url : Url) : List IpAddr :=
  (policy.visited packages url net.replies).flatMap fun url =>
    (List.range net.attempts).flatMap fun attempt => dial net attempt url

/-- The connections the hardened sender makes for a request. -/
def sendHardenedHttpRequest (packages : Packages) (net : Network)
    (request : HardenedHttpRequest) : List IpAddr :=
  match packages.parse request.url with
  | some url =>
    if packages.builds request then
      connections packages net hardenedPolicy url
    else []
  | none => []

/-- The connections of one action. -/
def executeHttpAction (packages : Packages) (net : Network)
    (config : List (String × Json)) (event : Json) (globals : Globals)
    (allowedHosts : Option (List Text)) (test : Bool) : List IpAddr :=
  match prepareHttpAction packages net config event globals allowedHosts
      test with
  | .ok (.send request _) => sendHardenedHttpRequest packages net request
  | .ok (.test _) => []
  | .error _ => []

end TikTools.Automation
