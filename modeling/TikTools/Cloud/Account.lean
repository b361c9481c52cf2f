/-
The cloud account of the host: one session, the credential store behind
it, and the sidecar file that names the saved account.

Calls run beside each other, and each lock hold, each operation of the
credential store and each access to the sidecar is a step of its own.
A step that only waits (for the network, for the bound receiver) is one
with the step after it. `next` is the machine; what the provider, the
store or the disk answers comes with the action: nothing where it
failed, and the account where the provider names one.
-/
import TikTools.Lib.Table
import TikTools.Lib.Runs

namespace TikTools.Cloud

open TikTools.Lib Std

/-- An account at an origin: the key of a credential. -/
structure Identity where
  origin : String
  account : String
  deriving DecidableEq, Repr

/-- The file that remembers which account was signed in. -/
inductive Sidecar where
  | absent
  | unreadable
  | names (identity : Identity)
  deriving DecidableEq, Repr

/-- A login from its registration on. The stamp is how many logouts had
returned when its `begin_login` was called. -/
structure Login where
  attempt : Nat
  stamp : Nat
  deriving DecidableEq, Repr

inductive RestoreAt where
  | reading
  | checking (saved : Identity)
  | loading (saved : Identity)
  | connecting (saved : Identity)
  | installing (saved : Identity)
  deriving DecidableEq, Repr

/-- Where a running call stands. -/
inductive Call where
  /-- `begin_login` between its two lock holds -/
  | binding (stamp : Nat)
  /-- `complete_login` waits; whether the attempt was told to stop -/
  | waiting (login : Login) (origin : String) (told : Bool)
  | answered (login : Login) (origin : String) (result : Option String)
  | storing (login : Login) (identity : Identity)
  | saving (login : Login) (identity : Identity)
  | unsaving (identity : Identity)
  | installing (login : Login) (identity : Identity)
  /-- `restore`, of its own or as the first part of a `logout` -/
  | restoring (stamp : Nat) (logout : Bool) (at_ : RestoreAt)
  | leaving
  | taking
  | deleting (identity : Identity)
  | rereading
  | rechecking (saved : Identity)
  | dropping (saved : Identity)
  | removingFirst
  | removing
  | returning
  deriving DecidableEq, Repr

namespace Call

/-- A `complete_login` that has not cleared the cancel handle. -/
def holding : Call → Bool
  | waiting .. | answered .. => true
  | _ => false

/-- A `logout` that has taken the session. -/
def wiping : Call → Bool
  | deleting _ | rereading | rechecking _ | dropping _ | removingFirst
  | removing | returning => true
  | _ => false

/-- Tell the attempt a handle belongs to. -/
def tell (handle : Option Nat) : Call → Call
  | waiting login origin told =>
    waiting login origin (told || handle = some login.attempt)
  | call => call

end Call

structure State where
  origin : Option String
  session : Option Identity
  pending : Option Login
  /-- the attempt whose cancel handle is kept -/
  cancelTx : Option Nat
  tokens : List Identity
  sidecar : Sidecar
  calls : Table Nat Call
  attempts : Nat
  /-- logouts that have returned -/
  returned : Nat
  /-- whether a login was begun since the last of them -/
  begun : Bool

inductive Action where
  | beginLogin (id : Nat)
  | completeLogin (id : Nat)
  | cancelLogin
  | restore (id : Nat)
  | logout (id : Nat)
  /-- the next step of a call, and how it went -/
  | proceed (id : Nat) (outcome : Option String)
  deriving DecidableEq, Repr

namespace State

def goto (state : State) (id : Nat) (call : Call) : State :=
  { state with calls := state.calls.insert id call }

def finish (state : State) (id : Nat) : State :=
  { state with calls := state.calls.erase id }

def store (state : State) (identity : Identity) : State :=
  { state with
    tokens := identity :: state.tokens.filter (· ≠ identity) }

def delete (state : State) (identity : Identity) : State :=
  { state with tokens := state.tokens.filter (· ≠ identity) }

/-- Drop the attempt that is not waited for yet, and tell the other. -/
def cancelAttempts (state : State) : State :=
  { state with
    pending := none
    cancelTx := none
    calls := ExtTreeMap.map (fun _ call => call.tell state.cancelTx)
      state.calls }

-- ==== calls

/-- The first lock hold of `begin_login`. -/
def beginLogin (state : State) (id : Nat) : State :=
  if state.session ≠ none ∨ state.pending ≠ none ∨ state.origin = none then
    state
  else
    { state.goto id (.binding state.returned) with begun := true }

/-- The second one. -/
def register (state : State) (id stamp : Nat) : State :=
  if state.session ≠ none ∨ state.pending ≠ none then state.finish id
  else
    { state.finish id with
      pending := some ⟨state.attempts, stamp⟩
      cancelTx := some state.attempts
      attempts := state.attempts + 1 }

/-- `complete_login` takes the attempt. -/
def completeLogin (state : State) (id : Nat) : State :=
  match state.pending, state.origin with
  | none, _ => state
  | some _, none => { state with pending := none }
  | some login, some origin =>
    { state.goto id (.waiting login origin false) with pending := none }

/-- `finish_login` after the exchange. -/
def clearHandle (state : State) (id : Nat) (login : Login) (origin : String)
    (result : Option String) : State :=
  let cleared := { state with cancelTx := none }
  match result with
  | none => cleared.finish id
  | some account => cleared.goto id (.storing login ⟨origin, account⟩)

def install (state : State) (identity : Identity) : State :=
  { state with
    origin := some identity.origin
    session := some identity }

/-- `restore` is done, in one way or the other. -/
def restored (state : State) (id : Nat) (logout : Bool) : State :=
  if logout then state.goto id .taking else state.finish id

def restoreStep (state : State) (id stamp : Nat) (logout : Bool)
    (outcome : Option String) : RestoreAt → State
  | .reading =>
    match outcome, state.sidecar with
    | some _, .names saved =>
      state.goto id (.restoring stamp logout (.checking saved))
    | _, _ => state.restored id logout
  | .checking saved =>
    if state.origin.all (· = saved.origin) then
      state.goto id (.restoring stamp logout (.loading saved))
    else state.restored id logout
  | .loading saved =>
    if outcome ≠ none ∧ saved ∈ state.tokens then
      state.goto id (.restoring stamp logout (.connecting saved))
    else state.restored id logout
  | .connecting saved =>
    if outcome = some saved.account then
      state.goto id (.restoring stamp logout (.installing saved))
    else state.restored id logout
  | .installing saved => (state.install saved).restored id logout

/-- `logout` takes the session. -/
def take (state : State) (id : Nat) : State :=
  let taken := { state.cancelAttempts with session := none }
  match state.session, state.origin with
  | some session, some origin =>
    taken.goto id (.deleting ⟨origin, session.account⟩)
  | some _, none => taken.goto id .removing
  | none, _ => taken.goto id .rereading

def step (state : State) (id : Nat) (outcome : Option String) :
    Call → State
  | .binding stamp =>
    if outcome = none then state.finish id else state.register id stamp
  | .waiting login origin _ =>
    state.goto id (.answered login origin outcome)
  | .answered login origin result =>
    state.clearHandle id login origin result
  | .storing login identity =>
    if outcome = none then state.finish id
    else (state.store identity).goto id (.saving login identity)
  | .saving login identity =>
    if outcome = none then state.goto id (.unsaving identity)
    else { state.goto id (.installing login identity) with
      sidecar := .names identity }
  | .unsaving identity =>
    if outcome = none then state.finish id
    else (state.delete identity).finish id
  | .installing _ identity => (state.install identity).finish id
  | .restoring stamp logout at_ =>
    state.restoreStep id stamp logout outcome at_
  | .leaving =>
    if state.session = none then
      state.goto id (.restoring state.returned true .reading)
    else state.goto id .taking
  | .taking => state.take id
  | .deleting identity =>
    if outcome = none then state.goto id .removing
    else (state.delete identity).goto id .removing
  | .rereading =>
    match outcome, state.sidecar with
    | some _, .names saved => state.goto id (.rechecking saved)
    | _, _ => state.goto id .removing
  | .rechecking saved =>
    if state.origin.all (· = saved.origin) then
      state.goto id (.dropping saved)
    else state.goto id .removing
  | .dropping saved =>
    if outcome = none then state.goto id .removingFirst
    else (state.delete saved).goto id .removingFirst
  | .removingFirst =>
    if outcome = none then state.goto id .removing
    else { state.goto id .removing with sidecar := .absent }
  | .removing =>
    if outcome = none then state.goto id .returning
    else { state.goto id .returning with sidecar := .absent }
  | .returning =>
    { state.finish id with
      returned := state.returned + 1
      begun := false }

/-- One step. A call keeps its number while it runs. -/
def next (state : State) : Action → Option State
  | .beginLogin id =>
    if state.calls[id]? = none then some (state.beginLogin id) else none
  | .completeLogin id =>
    if state.calls[id]? = none then some (state.completeLogin id)
    else none
  | .cancelLogin => some state.cancelAttempts
  | .restore id =>
    if state.calls[id]? = none then
      some (state.goto id (.restoring state.returned false .reading))
    else none
  | .logout id =>
    if state.calls[id]? = none then some (state.goto id .leaving)
    else none
  | .proceed id outcome =>
    state.calls[id]?.map fun call => state.step id outcome call

/-- What a run starts from: nothing runs, nobody is signed in, and what
an earlier run left is one saved account at most. -/
structure Start (state : State) : Prop where
  calls : state.calls = ∅
  session : state.session = none
  pending : state.pending = none
  saved : ∀ identity ∈ state.tokens, state.sidecar = .names identity
  returned : state.returned = 0
  begun : state.begun = false

-- ==== order

def Wiping (state : State) : Prop :=
  ∃ entry ∈ state.calls.toList, entry.2.wiping

/-- A login or a restore goes on only while nobody is signed in, and only
if no logout took the session since it was begun. -/
def GoesOn (state : State) (stamp : Nat) : Prop :=
  state.session = none ∧ stamp = state.returned ∧ ¬ state.Wiping

/-- No credential but that of one account. -/
def Only (state : State) (identity : Identity) : Prop :=
  ∀ token ∈ state.tokens, token = identity

/-- Every stored credential is of the saved account. -/
def Saved (state : State) : Prop :=
  ∀ token ∈ state.tokens, state.sidecar = .names token

instance (state : State) : Decidable state.Wiping :=
  inferInstanceAs (Decidable (∃ entry ∈ _, _))

instance (state : State) (stamp : Nat) : Decidable (state.GoesOn stamp) :=
  inferInstanceAs (Decidable (_ ∧ _ ∧ _))

instance (state : State) (identity : Identity) :
    Decidable (state.Only identity) :=
  inferInstanceAs (Decidable (∀ token ∈ _, _))

instance (state : State) : Decidable state.Saved :=
  inferInstanceAs (Decidable (∀ token ∈ _, _))

/-- What a step of a call must meet for the account to stay in order. -/
def OrderedCall (state : State) (outcome : Option String) : Call → Prop
  | .binding _ => ¬ ∃ entry ∈ state.calls.toList, entry.2.holding
  | .storing login identity | .saving login identity =>
    outcome ≠ none → state.GoesOn login.stamp ∧ state.Only identity
  | .installing login identity =>
    state.GoesOn login.stamp ∧ state.sidecar = .names identity
  | .restoring stamp _ (.installing saved) =>
    state.GoesOn stamp ∧ state.sidecar = .names saved
  | .taking => state.Saved
  | .unsaving _ | .deleting _ | .rereading | .dropping _ | .removing =>
    outcome ≠ none
  | .rechecking saved => state.origin.all (· = saved.origin)
  | _ => True

instance (state : State) (outcome : Option String) (call : Call) :
    Decidable (state.OrderedCall outcome call) := by
  unfold OrderedCall
  split <;> infer_instance

def Ordered (state : State) : Action → Prop
  | .proceed id outcome =>
    ∀ call ∈ state.calls[id]?, state.OrderedCall outcome call
  | _ => True

instance (state : State) (action : Action) :
    Decidable (state.Ordered action) := by
  unfold Ordered
  split <;> infer_instance

end State

end TikTools.Cloud
