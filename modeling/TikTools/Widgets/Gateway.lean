/-
The client an overlay has of the event gateway: its socket, its two
timers and its status.

A change of the status is told to handlers, and a handler may call the
client again before the call that told it goes on. What is left to do
then is kept on a stack (`Rest`): public calls are possible at any time,
`resume` goes on with what is left once the handlers are through, and
timers, sockets and the network are heard only when nothing is left.

Sockets and timers are numbered as they are made. A socket has handlers
until it is detached. What arrived, what was delivered and what was sent
is kept in logs.
-/
import TikTools.Lib.Json
import TikTools.Lib.Runs

namespace TikTools.Widgets

open TikTools.Lib

-- ==== frames

inductive ControlMessage where
  | authenticated
  | subscribed
  | pong
  | error
  deriving DecidableEq

/-- What a frame is to the client. -/
inductive Frame where
  | empty
  | ignored
  | control (message : ControlMessage)
  | gap
  | event
  deriving DecidableEq

def eventGapTopic : String := "event.gap"

def isString : Json → Bool
  | .string _ => true
  | _ => false

def isGatewayControlMessage (value : Json) : Option ControlMessage :=
  match (value.get "type").bind Json.asStr with
  | some "authenticated" => some .authenticated
  | some "pong" => some .pong
  | some "subscribed" =>
    match value.get "topics" with
    | some (.array topics) =>
      if topics.all isString then some .subscribed else none
    | _ => none
  | some "error" =>
    if (value.get "error").any isString then some .error else none
  | _ => none

/-- The topic of an envelope. -/
def isDomainEventEnvelope (value : Json) : Option String :=
  match value.get "topic", value.get "data" with
  | some (.string topic), some _ => some topic
  | _, _ => none

/-- Numerals are finite numbers. -/
def parseEventGap (value : Json) : Bool :=
  match (value.get "data").bind (Json.get "lost"),
      (value.get "data").bind (Json.get "resync") with
  | some (.number _), some (.bool _) => true
  | _, _ => false

/-- The way a text takes through `handleFrame`; `parse` is
`JSON.parse`. -/
def readFrame (parse : String → Option Json) (text : String) : Frame :=
  if text = "" then .empty
  else
    match parse text with
    | none => .ignored
    | some value =>
      match isGatewayControlMessage value, isDomainEventEnvelope value with
      | some message, _ => .control message
      | none, none => .ignored
      | none, some topic =>
        if topic = eventGapTopic then
          if parseEventGap value then .gap else .ignored
        else .event

-- ==== state

inductive GatewayStatus where
  | idle
  | connecting
  | authenticating
  | connected
  | reconnecting
  | authFailed
  | closed
  deriving DecidableEq

/-- An overlay with this status expects something to happen. -/
def GatewayStatus.waits : GatewayStatus → Bool
  | .connecting | .authenticating | .connected | .reconnecting => true
  | _ => false

inductive ReadyState where
  | connecting
  | opened
  | closing
  | closed
  deriving DecidableEq

/-- `token` is what its handlers were made with. -/
structure Socket where
  readyState : ReadyState
  token : String
  attached : Bool
  deriving DecidableEq

inductive Message where
  | auth (token : String)
  | subscribe
  | ping
  deriving DecidableEq

/-- What a call has left to do when the status handlers are through.
Whether the constructor of a socket throws is part of the call. -/
inductive Rest where
  | attach (token : String) (constructs : Bool)
  | sendAuth (token : String)
  | startHeartbeat
  | arm
  | nothing
  deriving DecidableEq

/-- `disconnected` is since a call of `disconnect` and up to the next one
of `connect`. A delivered frame is kept with the socket it came from and
the socket the client had. -/
structure Gateway where
  impl : Bool := true
  window : Bool := true
  heartbeatMs : Nat := 20000
  socket : Option Nat := none
  status : GatewayStatus := .idle
  attempt : Nat := 0
  reconnectTimer : Option Nat := none
  heartbeatTimer : Option Nat := none
  lastFrameAt : Nat := 0
  intentionalClose : Bool := false
  onlineHandler : Bool := false
  sockets : Nat → Option Socket := fun _ => none
  made : Nat := 0
  timeouts : List Nat := []
  intervals : List Nat := []
  timers : Nat := 0
  stack : List Rest := []
  disconnected : Bool := false
  arrived : List (Nat × Frame) := []
  delivered : List (Nat × Option Nat) := []
  sent : List (Nat × Message) := []

def heartbeatMissedLimit : Nat := 3

namespace Gateway

-- ==== functions

/-- Change the status; the handlers are told, and the rest waits for
them. Nobody is told of a status that stays. -/
def setStatus (g : Gateway) (status : GatewayStatus) (rest : Rest)
    (go : Gateway → Gateway) : Gateway :=
  if g.status = status then go g
  else { g with status, stack := rest :: g.stack }

def putSocket (g : Gateway) (id : Nat) (socket : Socket) : Gateway :=
  { g with
    sockets := fun other =>
      if other = id then some socket else g.sockets other }

def send (g : Gateway) (message : Message) : Gateway :=
  match g.socket with
  | none => g
  | some id =>
    if (g.sockets id).any (·.readyState == .opened) then
      { g with sent := g.sent ++ [(id, message)] }
    else g

def clearReconnectTimer (g : Gateway) : Gateway :=
  match g.reconnectTimer with
  | none => g
  | some id =>
    { g with timeouts := g.timeouts.erase id, reconnectTimer := none }

def clearHeartbeat (g : Gateway) : Gateway :=
  match g.heartbeatTimer with
  | none => g
  | some id =>
    { g with intervals := g.intervals.erase id, heartbeatTimer := none }

/-- The socket is let go of: without handlers, and closed. -/
def closeSocket (g : Gateway) : Gateway :=
  match g.socket with
  | none => g
  | some id =>
    let g := { g with socket := none }
    match g.sockets id with
    | none => g
    | some socket =>
      g.putSocket id { socket with
        attached := false
        readyState :=
          if socket.readyState = .closed then .closed else .closing }

def arm (g : Gateway) : Gateway :=
  { g with
    attempt := g.attempt + 1
    timeouts := g.timeouts ++ [g.timers]
    reconnectTimer := some g.timers
    timers := g.timers + 1 }

def scheduleReconnect (g : Gateway) : Gateway :=
  if g.intentionalClose ∨ g.reconnectTimer ≠ none then g
  else g.setStatus .reconnecting .arm arm

def startHeartbeat (now : Nat) (g : Gateway) : Gateway :=
  let g := g.clearHeartbeat
  { g with
    lastFrameAt := now
    intervals := g.intervals ++ [g.timers]
    heartbeatTimer := some g.timers
    timers := g.timers + 1 }

/-- The end of `connect`: the socket is made and gets its handlers. -/
def attach (token : String) (constructs : Bool) (g : Gateway) : Gateway :=
  if constructs then
    let g := g.putSocket g.made
      { readyState := .connecting, token, attached := true }
    { g with
      socket := some g.made
      made := g.made + 1
      onlineHandler := g.onlineHandler || g.window }
  else g.scheduleReconnect

/-- The token a resolver gave, if it is one. -/
def usable (g : Gateway) (token : Option String) : Option String :=
  if g.impl then token.filter (· ≠ "") else none

def connect (g : Gateway) (token : Option String) (constructs : Bool) :
    Gateway :=
  let g := { g with intentionalClose := false }.clearReconnectTimer
  if g.socket ≠ none then g
  else
    match g.usable token with
    | none => g
    | some token =>
      g.setStatus (if g.attempt = 0 then .connecting else .reconnecting)
        (.attach token constructs) (attach token constructs)

def disconnect (g : Gateway) : Gateway :=
  let g := { g with
    intentionalClose := true }.clearReconnectTimer.clearHeartbeat
  let g := { g with onlineHandler := false }.closeSocket
  { g with attempt := 0 }.setStatus .closed .nothing (fun g => g)

def retryNow (g : Gateway) (token : Option String) (constructs : Bool) :
    Gateway :=
  if g.socket ≠ none ∨ g.intentionalClose then g
  else { g with attempt := 0 }.connect token constructs

/-- The `online` event. -/
def online (g : Gateway) (token : Option String) (constructs : Bool) :
    Gateway :=
  if g.socket = none ∧ ¬ g.intentionalClose ∧ g.status ≠ .authFailed then
    { g.clearReconnectTimer with attempt := 0 }.connect token constructs
  else g

def handleControl (g : Gateway) (message : ControlMessage) (now : Nat) :
    Gateway :=
  match message with
  | .authenticated => g.send .subscribe
  | .subscribed =>
    { g with attempt := 0 }.setStatus .connected .startHeartbeat
      (startHeartbeat now)
  | .pong => g
  | .error =>
    if g.status = .authenticating then
      { g.clearReconnectTimer.closeSocket with attempt := 0 }.setStatus
        .authFailed .nothing (fun g => g)
    else g

/-- A frame that came over a socket with handlers. -/
def handleFrame (g : Gateway) (id : Nat) (frame : Frame) (now : Nat) :
    Gateway :=
  match frame with
  | .empty => g
  | .ignored => { g with lastFrameAt := now }
  | .control message =>
    { g with lastFrameAt := now }.handleControl message now
  | .gap | .event =>
    { g with
      lastFrameAt := now, delivered := g.delivered ++ [(id, g.socket)] }

def handleClose (g : Gateway) : Gateway :=
  let g := g.closeSocket.clearHeartbeat
  if g.intentionalClose then g
  else if g.status = .authFailed then g
  else g.scheduleReconnect

/-- The callback of the heartbeat timer. -/
def heartbeat (g : Gateway) (now : Nat) : Gateway :=
  if g.heartbeatMs * heartbeatMissedLimit < now - g.lastFrameAt then
    g.closeSocket.clearHeartbeat.scheduleReconnect
  else g.send .ping

/-- The call that was interrupted last goes on. -/
def resume (g : Gateway) (now : Nat) : Option Gateway :=
  match g.stack with
  | [] => none
  | rest :: stack =>
    let g := { g with stack }
    some (match rest with
      | .attach token constructs => g.attach token constructs
      | .sendAuth token => g.send (.auth token)
      | .startHeartbeat => g.startHeartbeat now
      | .arm => g.arm
      | .nothing => g)

-- ==== events

inductive Event where
  | connect (token : Option String) (constructs : Bool)
  | disconnect
  | retryNow (token : Option String) (constructs : Bool)
  | resume (now : Nat)
  | online (token : Option String) (constructs : Bool)
  | timeout (id : Nat) (token : Option String) (constructs : Bool)
  | interval (id : Nat) (now : Nat)
  | opened (id : Nat) (now : Nat)
  | frame (id : Nat) (text : String) (now : Nat)
  | closed (id : Nat)

/-- What happens to a socket. -/
def onSocket (g : Gateway) (id : Nat)
    (f : Socket → Option Gateway) : Option Gateway :=
  if g.stack = [] then (g.sockets id).bind f else none

def step (parse : String → Option Json) (g : Gateway) :
    Event → Option Gateway
  | .connect token constructs =>
    some ({ g with disconnected := false }.connect token constructs)
  | .disconnect => some (disconnect { g with disconnected := true })
  | .retryNow token constructs => some (g.retryNow token constructs)
  | .resume now => g.resume now
  | .online token constructs =>
    if g.stack = [] ∧ g.onlineHandler then
      some (g.online token constructs)
    else none
  | .timeout id token constructs =>
    if g.stack = [] ∧ id ∈ g.timeouts then
      some ({ g with
        timeouts := g.timeouts.erase id
        reconnectTimer := none }.connect token constructs)
    else none
  | .interval id now =>
    if g.stack = [] ∧ id ∈ g.intervals then some (g.heartbeat now)
    else none
  | .opened id now =>
    g.onSocket id fun socket =>
      if socket.readyState = .connecting then
        let g := g.putSocket id { socket with readyState := .opened }
        if socket.attached then
          some ({ g with lastFrameAt := now }.setStatus .authenticating
            (.sendAuth socket.token) (send · (.auth socket.token)))
        else some g
      else none
  | .frame id text now =>
    g.onSocket id fun socket =>
      if socket.readyState = .opened then
        let frame := readFrame parse text
        if socket.attached then
          some ({ g with
            arrived := g.arrived ++ [(id, frame)] }.handleFrame id frame now)
        else some g
      else none
  | .closed id =>
    g.onSocket id fun socket =>
      if socket.readyState = .closed then none
      else
        let g := g.putSocket id { socket with readyState := .closed }
        if socket.attached then some g.handleClose else some g

end Gateway

end TikTools.Widgets
