/-
The local browser adapter: one pairing code, one session, and the
sockets that a session authorised.

A request holds the lock of `Auth` while it is decided, so a request is a
step; a socket is upgraded in one step and starts its loop in a later
one. Times are in milliseconds of a clock that never goes back. What
happened is recorded beside the state: the codes compared and accepted,
and every call and event a socket forwarded.
-/
import TikTools.Lib.Table
import TikTools.Lib.Runs

namespace TikTools.Web

open TikTools.Lib Std

def sessionLifetime : Nat := 3600000

def pairingLifetime : Nat := 300000

def renewCooldown : Nat := 30000

/-- Between two expiry checks of a socket. -/
def checkInterval : Nat := 10000

structure Session where
  token : Nat
  since : Nat
  deriving DecidableEq, Repr

/-- A code that was accepted: which issue it was, and when. -/
structure Acceptance where
  issue : Nat
  issued : Nat
  accepted : Nat
  deriving DecidableEq, Repr

/-- A call or an event: since when the session lived that authorised its
socket, and when it was forwarded. -/
structure Forward where
  since : Nat
  forwarded : Nat
  deriving DecidableEq, Repr

structure Socket where
  /-- since when the authorising session lived -/
  since : Nat
  /-- when the loop started and when its next check is due -/
  loop : Option (Nat × Nat)
  deriving DecidableEq, Repr

structure App where
  now : Nat
  pairing : Option String
  issued : Nat
  session : Option Session
  attempts : Nat
  renewedAt : Option Nat
  sockets : Table Nat Socket
  /-- codes issued and sessions set up so far -/
  issue : Nat
  sessions : Nat
  compared : Nat
  acceptances : List Acceptance
  forwards : List Forward

inductive Action where
  | elapse (time : Nat)
  | pair (sameOrigin : Bool) (candidate : Option String)
  | renew (sameOrigin : Bool) (code : String)
  | upgrade (id : Nat) (sameOrigin : Bool) (cookies : List Nat)
  | connected (id : Nat)
  | tick (id : Nat) (hostClosed : Bool)
  | forward (id : Nat)
  | close (id : Nat)
  deriving DecidableEq, Repr

/-- Six decimal digits. -/
def sixDigits (code : String) : Bool :=
  code.toList.length = 6 && code.toList.all Char.isDigit

def Session.live (session : Session) (now : Nat) : Bool :=
  now - session.since < sessionLifetime

namespace App

/-- Whether a code is looked at. -/
def Open (app : App) : Prop :=
  ¬ (app.attempts ≥ 8 ∨ app.now - app.issued > pairingLifetime
    ∨ app.pairing = none)

instance (app : App) : Decidable app.Open :=
  inferInstanceAs (Decidable (¬ (_ ∨ _ ∨ _)))

/-- Whether a code is the one. -/
def Matches (app : App) (candidate : Option String) : Prop :=
  candidate.any sixDigits ∧ candidate = app.pairing

instance (app : App) (candidate : Option String) :
    Decidable (app.Matches candidate) :=
  inferInstanceAs (Decidable (_ ∧ _))

def pair (app : App) (sameOrigin : Bool) (candidate : Option String) :
    App :=
  if !sameOrigin then app
  else if ¬ app.Open then app
  else
    let tried := { app with
      attempts := app.attempts + 1
      compared := app.compared + 1 }
    if app.Matches candidate then
      { tried with
        pairing := none
        session := some ⟨app.sessions, app.now⟩
        sessions := app.sessions + 1
        acceptances := ⟨app.issue, app.issued, app.now⟩ :: app.acceptances }
    else tried

/-- Renewal changes only the code. -/
def renew (app : App) (sameOrigin : Bool) (code : String) : App :=
  if !sameOrigin then app
  else if app.session.any (·.live app.now) then app
  else if app.attempts ≥ 8 then app
  else if app.renewedAt.any (app.now - · < renewCooldown) then app
  else if !sixDigits code then app
  else { app with
    pairing := some code
    issued := app.now
    renewedAt := some app.now
    issue := app.issue + 1 }

/-- Whether one of the cookies names the live session. -/
def authorized (app : App) (cookies : List Nat) : Bool :=
  app.session.any fun session =>
    session.live app.now && cookies.contains session.token

def upgrade (app : App) (id : Nat) (sameOrigin : Bool)
    (cookies : List Nat) : App :=
  match app.session with
  | some session =>
    if sameOrigin && app.authorized cookies
        && decide (app.sockets.size < 8) then
      { app with
        sockets := app.sockets.insert id ⟨session.since, none⟩ }
    else app
  | none => app

/-- A check looks at the session there is, and at the age of the loop. -/
def check (app : App) (started : Nat) (hostClosed : Bool) : Bool :=
  app.session.any (·.live app.now) && !hostClosed
    && decide (app.now - started < sessionLifetime)

/-- One step. A socket keeps its number while it is open. -/
def next (app : App) : Action → Option App
  | .elapse time => some { app with now := app.now + time }
  | .pair sameOrigin candidate => some (app.pair sameOrigin candidate)
  | .renew sameOrigin code => some (app.renew sameOrigin code)
  | .upgrade id sameOrigin cookies =>
    if app.sockets[id]? = none then
      some (app.upgrade id sameOrigin cookies)
    else none
  | .connected id =>
    match app.sockets[id]? with
    | some ⟨since, none⟩ => some { app with
        sockets := app.sockets.insert id ⟨since, some (app.now, app.now)⟩ }
    | _ => none
  | .tick id hostClosed =>
    match app.sockets[id]? with
    | some ⟨since, some (started, due)⟩ =>
      if due ≤ app.now then
        if app.check started hostClosed then
          some { app with
            sockets := app.sockets.insert id
              ⟨since, some (started, due + checkInterval)⟩ }
        else some { app with sockets := app.sockets.erase id }
      else none
    | _ => none
  | .forward id =>
    match app.sockets[id]? with
    | some ⟨since, some _⟩ => some { app with
        forwards := ⟨since, app.now⟩ :: app.forwards }
    | _ => none
  | .close id => some { app with sockets := app.sockets.erase id }

/-- What a process starts with: one code, nothing else. -/
structure Start (app : App) : Prop where
  code : app.pairing.isSome
  issued : app.issued ≤ app.now
  session : app.session = none
  attempts : app.attempts = 0
  sockets : app.sockets = ∅
  compared : app.compared = 0
  acceptances : app.acceptances = []
  forwards : app.forwards = []

/-- A code is accepted only once every socket of the expired session is
gone, and a check that is due comes before anything is forwarded. -/
def Ordered (app : App) : Action → Prop
  | .pair sameOrigin candidate =>
    sameOrigin = true → app.Open → app.Matches candidate →
      app.sockets.toList = []
  | .forward id =>
    ∀ socket ∈ app.sockets[id]?, ∀ loop ∈ socket.loop, app.now < loop.2
  | _ => True

instance (app : App) (action : Action) :
    Decidable (app.Ordered action) := by
  unfold Ordered
  split <;> infer_instance

end App

end TikTools.Web
