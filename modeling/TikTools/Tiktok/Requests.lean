/-
The calls of one client: connections with their retried requests, and the
lookups, browses and discoveries beside them, all of them sharing the
cooldown.

A call runs up to its next wait in one step. A request is answered by
`reply`; `poll` is everything a call does by itself: it looks at the
cooldown, starts an attempt, notes a rate limit, wakes up, or sees its
stop signal. Any number of calls are under way at once, and between two
steps of one the others take theirs and time passes.

Every step writes what it did to the log.
-/
import TikTools.Tiktok.Retry
import TikTools.Lib.Runs

namespace TikTools.Tiktok

open TikTools.Lib

-- ==== requests

/-- What is asked of TikTok. -/
inductive Request where
  | session
  | room
  | channels
  | page
  | roomInfo
  | gifts
  | bundle
  | socket
  | nothing
  deriving DecidableEq

/-- The requests that discovery makes. -/
def Request.isDiscovery : Request → Bool
  | .room | .channels | .page | .roomInfo | .gifts => true
  | _ => false

inductive Reply where
  | ok
  /-- an answer that the call gives up on -/
  | unusable
  | failed (error : TikTokError)
  | refused (error : DiscoveryError)
  deriving DecidableEq

namespace Reply

def error : Reply → Option TikTokError
  | .failed error => some error
  | .refused error => some (.fromDiscovery error)
  | _ => none

/-- Discovery requests fail with an error of discovery, or with the
deadline of the network. -/
def fits (request : Request) : Reply → Bool
  | .ok => true
  | .unusable => request != .nothing
  | .failed error =>
    request != .nothing
      && (!request.isDiscovery || error == .retryableTransport)
  | .refused _ => request.isDiscovery

end Reply

-- ==== calls

/-- How a call makes a request. -/
inductive Stage where
  /-- `RetryContext::run` -/
  | retried (request : Request)
  /-- once, with a failure passed over -/
  | bestEffort (request : Request)
  /-- once, with a failure ending the call -/
  | once (request : Request)
  deriving DecidableEq

/-- `connect` and `pick` may be given the room. -/
inductive Entry where
  | connect (named : Bool)
  | pick (named : Bool)
  | observe
  | browse
  | discover
  deriving DecidableEq

/-- `initialize_connection`. -/
def initializeConnection (named : Bool) : List Stage :=
  [.retried .session] ++ (if named then [] else [.retried .room])
    ++ [.bestEffort .roomInfo, .retried .nothing, .bestEffort .gifts,
      .retried .bundle, .retried .socket]

namespace Entry

def stages : Entry → List Stage
  | .connect named => initializeConnection named
  | .pick named =>
    [.retried .session, .retried .channels] ++ initializeConnection named
  | .observe => [.once .room]
  | .browse => [.once .session, .once .page]
  | .discover => [.once .session, .once .room, .bestEffort .roomInfo]

def isConnection : Entry → Bool
  | .connect _ | .pick _ => true
  | _ => false

/-- The delay a call remembers of a failed request that is not retried:
`remember_failure` and its kin. -/
def remembers (entry : Entry) (request : Request) (reply : Reply) :
    Option Nat :=
  match entry, request, reply with
  | .discover, _, _ => none
  | .browse, .page, .refused error =>
    if DiscoveryFailureKind.fromError error = .rateLimited then
      some defaultDelay
    else none
  | _, _, reply => (reply.error.bind (·.limit)).map (·.getD defaultDelay)

/-- What the caller is told of a failed request: no room is no failure
of a lookup. -/
def answer (entry : Entry) (reply : Reply) : Option TikTokError :=
  match entry, reply with
  | .observe, .refused .noRoom => none
  | _, reply => reply.error

end Entry

inductive Phase where
  /-- at the head of the loop, or asleep until the cooldown is over -/
  | waiting (request : Request) (attempt : Nat) (cause : Option TikTokError)
      (wake : Nat)
  /-- an attempt is under way; the first one may have failed already -/
  | running (request : Request) (attempt : Nat) (cause : Option TikTokError)
  /-- an attempt was rate limited, which is to be recorded -/
  | limited (request : Request) (attempt : Nat) (error : TikTokError)
      (wait : Nat)
  | sleeping (request : Request) (attempt : Nat) (wake : Nat)
  | asking (request : Request) (bestEffort : Bool)
  /-- a request was rate limited, which is to be recorded -/
  | noting (delay : Nat) (answer : Option TikTokError)
  | live
  deriving DecidableEq

/-- `number` counts the stages begun, `stages` are those to come. -/
structure Call where
  entry : Entry
  stages : List Stage
  number : Nat
  phase : Phase
  stopped : Bool
  deriving DecidableEq

/-- What a step did. -/
inductive Note where
  /-- an operation was started: an attempt of a retried request, or a
  lookup, a browse or a discovery -/
  | started (id number attempt : Nat)
  /-- a request failed as rate limited -/
  | limited (id number attempt : Nat) (retryAfter : Option Nat)
  /-- the cooldown was extended -/
  | recorded (id delay : Nat)
  /-- the caller got its answer -/
  | told (id : Nat) (error : Option TikTokError)
  deriving DecidableEq

/-- What becomes of a call and the cooldown, and what was done. -/
structure Moved where
  call : Option Call
  cooldown : Cooldown
  notes : List Note

namespace Call

/-- The rate limit in an error, as a note. -/
def notes (id number attempt : Nat) (error : TikTokError) : List Note :=
  (error.limit.map (Note.limited id number attempt)).toList

/-- On to the next stage. -/
def advance (call : Call) (id : Nat) : Option Call × List Note :=
  match call.stages with
  | .retried request :: stages =>
    (some { call with
      stages, number := call.number + 1
      phase := .waiting request 0 none 0 }, [])
  | .bestEffort request :: stages =>
    (some { call with
      stages, number := call.number + 1
      phase := .asking request true }, [])
  | .once request :: stages =>
    (some { call with
      stages, number := call.number + 1
      phase := .asking request false }, [])
  | [] =>
    if call.entry.isConnection then
      (some { call with phase := .live }, [.told id none])
    else (none, [.told id none])

/-- The rest of an iteration of the loop after a failed attempt, up to
the recording of a rate limit or to the sleep. -/
def fails (policy : ReconnectPolicy) (call : Call) (id now : Nat)
    (request : Request) (attempt : Nat) (error : TikTokError)
    (sample : Nat) : Option Call × List Note :=
  match delay error (attempt + 1) policy sample with
  | none => (none, [.told id (some error)])
  | some wait =>
    match error.limit with
    | some retryAfter =>
      (some { call with
        phase := .limited request (attempt + 1) error wait },
        [.limited id call.number (attempt + 1) retryAfter])
    | none =>
      if policy.retries error < attempt + 1 then
        (none, [.told id (some error)])
      else
        (some { call with
          phase := .sleeping request (attempt + 1) (now + wait) }, [])

/-- What a call does by itself. -/
def poll (policy : ReconnectPolicy) (call : Call) (id now : Nat)
    (cooldown : Cooldown) (sample : Nat) : Option Moved :=
  match call.phase with
  | .waiting request attempt cause wake =>
    if call.stopped then some ⟨none, cooldown, [.told id (some .task)]⟩
    else if now < wake then none
    else
      match cooldown.remaining now with
      | some _ =>
        some ⟨some { call with
          phase := .waiting request attempt cause cooldown.expiry },
          cooldown, []⟩
      | none =>
        some ⟨some { call with phase := .running request attempt cause },
          cooldown, [.started id call.number (attempt + 1)]⟩
  | .running request attempt cause =>
    if call.stopped then some ⟨none, cooldown, [.told id (some .task)]⟩
    else
      cause.map fun error =>
        let (call, notes) :=
          call.fails policy id now request attempt error sample
        ⟨call, cooldown, notes⟩
  | .limited request attempt error wait =>
    let cooldown := cooldown.extend now wait
    if policy.retries error < attempt then
      some ⟨none, cooldown, [.recorded id wait, .told id (some error)]⟩
    else
      some ⟨some { call with
        phase := .sleeping request attempt (now + wait) },
        cooldown, [.recorded id wait]⟩
  | .sleeping request attempt wake =>
    if call.stopped then some ⟨none, cooldown, [.told id (some .task)]⟩
    else if now < wake then none
    else
      some ⟨some { call with phase := .waiting request attempt none 0 },
        cooldown, []⟩
  | .asking _ _ =>
    if call.stopped then some ⟨none, cooldown, [.told id (some .task)]⟩
    else none
  | .noting delay answer =>
    let cooldown := cooldown.extend now delay
    match answer with
    | some error =>
      some ⟨none, cooldown, [.recorded id delay, .told id (some error)]⟩
    | none =>
      let (call, notes) := call.advance id
      some ⟨call, cooldown, .recorded id delay :: notes⟩
  | .live => if call.stopped then some ⟨none, cooldown, []⟩ else none

/-- What a call does with the answer to its request. -/
def reply (policy : ReconnectPolicy) (call : Call) (id now : Nat)
    (cooldown : Cooldown) (reply : Reply) (sample : Nat) : Option Moved :=
  if call.stopped then none
  else
    match call.phase with
    | .running request attempt none =>
      if reply.fits request then
        match reply, reply.error with
        | .ok, _ =>
          let (call, notes) := call.advance id
          some ⟨call, cooldown, notes⟩
        | _, none => some ⟨none, cooldown, [.told id (some .discovery)]⟩
        | _, some error =>
          let (call, notes) :=
            call.fails policy id now request attempt error sample
          some ⟨call, cooldown, notes⟩
      else none
    | .asking request bestEffort =>
      if reply.fits request then
        match reply, reply.error with
        | .ok, _ =>
          let (call, notes) := call.advance id
          some ⟨call, cooldown, notes⟩
        | _, none => some ⟨none, cooldown, [.told id (some .discovery)]⟩
        | _, some error =>
          let limited := notes id call.number 0 error
          match call.entry.remembers request reply with
          | some delay =>
            some ⟨some { call with
              phase := .noting delay
                (if bestEffort then none else some error) },
              cooldown, limited⟩
          | none =>
            if bestEffort then
              let (call, notes) := call.advance id
              some ⟨call, cooldown, limited ++ notes⟩
            else
              some ⟨none, cooldown,
                limited ++ [.told id (call.entry.answer reply)]⟩
      else none
    | .live =>
      match reply with
      | .failed error =>
        -- only these have the connection opened again
        if error.limit.isSome || error == .retryableTransport then
          some ⟨some { call with
            number := call.number + 1
            phase := .waiting .socket 0 (some error) 0 }, cooldown, []⟩
        else some ⟨none, cooldown, [.told id (some error)]⟩
      | _ => none
    | _ => none

end Call

-- ==== client

structure Client where
  now : Nat := 0
  cooldown : Cooldown := none
  calls : Nat → Option Call := fun _ => none
  next : Nat := 0
  /-- What was done, and when. -/
  log : List (Nat × Note) := []

inductive Event where
  | pass (elapsed : Nat)
  | call (entry : Entry)
  | poll (id sample : Nat)
  | reply (id : Nat) (reply : Reply) (sample : Nat)
  /-- the connection is replaced or disconnected -/
  | stop (id : Nat)
  /-- the caller goes away -/
  | drop (id : Nat)
  deriving DecidableEq

namespace Client

/-- What became of a call is written back. -/
def put (s : Client) (id : Nat) (moved : Moved) : Client :=
  { s with
    cooldown := moved.cooldown
    calls := fun other => if other = id then moved.call else s.calls other
    log := s.log ++ moved.notes.map (s.now, ·) }

/-- A call begins: a connection with its first stage, the others after a
look at the cooldown (`check_cooldown`). -/
def begin (s : Client) (entry : Entry) : Moved :=
  let call : Call :=
    { entry, stages := entry.stages, number := 0, phase := .live
      stopped := false }
  let (first, notes) := call.advance s.next
  if entry.isConnection then ⟨first, s.cooldown, notes⟩
  else
    match s.cooldown.remaining s.now with
    | some remaining =>
      ⟨none, s.cooldown,
        [.told s.next (some (.rateLimited (some remaining)))]⟩
    | none => ⟨first, s.cooldown, .started s.next 1 1 :: notes⟩

def step (policy : ReconnectPolicy) (s : Client) : Event → Option Client
  | .pass elapsed => some { s with now := s.now + elapsed }
  | .call entry =>
    some { s.put s.next (s.begin entry) with next := s.next + 1 }
  | .poll id sample => do
    let call ← s.calls id
    let moved ← call.poll policy id s.now s.cooldown sample
    return s.put id moved
  | .reply id reply sample => do
    let call ← s.calls id
    let moved ← call.reply policy id s.now s.cooldown reply sample
    return s.put id moved
  | .stop id => do
    let call ← s.calls id
    if call.entry.isConnection then
      return s.put id ⟨some { call with stopped := true }, s.cooldown, []⟩
    else none
  | .drop id => do
    let call ← s.calls id
    match call.phase with
    -- not between a rate limit and its record
    | .limited .. | .noting .. => none
    | _ => return s.put id ⟨none, s.cooldown, []⟩

end Client

end TikTools.Tiktok
