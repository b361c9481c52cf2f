/-
The control client: concurrent calls over one connection.

A call takes an id, registers under it, writes its line while it holds
the writer, and waits for the outcome. One reader hands the host's
responses to the registered calls by id; when the stream ends it fails
every call registered at that moment. A caller may give up at any await
point: its future is dropped and nothing runs in its place.

# The law

`Demultiplexes` is what a client promises its callers. Four kinds of
step break it: a future dropped while its call is still registered, a
future dropped or a write failed in the middle of a line, and a call
that registers behind the end of the reader and is written nevertheless.
In every run without them it holds in every state
(`calls_are_demultiplexed`). The invariant says where the outcome of a
call is, phase by phase (`CallOk`), and what the stream consists of
(`Wire`).
-/
import TikTools.Control.Framing
import Mathlib.Data.List.Nodup
import Mathlib.Logic.Function.Basic

namespace TikTools.Control

open TikTools.Lib List Option Function

-- ==== host lines

structure ClientError where
  code : String
  message : String
  data : Option Json
  deriving DecidableEq

def ClientError.transport (message : String) : ClientError :=
  ⟨"transport", message, none⟩

def ClientError.protocol (message : String) : ClientError :=
  ⟨"protocol", message, none⟩

def ClientError.hostClosed : ClientError :=
  .transport "host closed the connection"

abbrev Outcome := Except ClientError Json

/-- `Value::as_i64`: the canonical text of an integer of 64 bits. -/
def asI64 : Json → Option Int
  | .number text =>
    match text.toList with
    | '-' :: digits => inRange digits fun n => -(n : Int)
    | digits => inRange digits fun n => (n : Int)
  | _ => none
where
  inRange (digits : Text) (sign : Nat → Int) : Option Int :=
    let value := sign (Nat.ofDigitChars 10 digits 0)
    if digits ≠ [] ∧ digits.all Char.isDigit ∧ -2 ^ 63 ≤ value
        ∧ value < 2 ^ 63 then some value
    else none

/-- What the reader makes of a line: something for the subscribers, or a
response. -/
inductive HostLine where
  | invalid
  | gap (lost : Nat)
  | event (params : Option Json)
  | response (id : Int) (outcome : Outcome)

def textAt (key : String) (value : Json) (fallback : String) : String :=
  ((value.get key).bind Json.asStr).getD fallback

/-- The outcome a response carries. -/
def responseOutcome (value : Json) : Outcome :=
  match value.get "error" with
  | some error =>
    .error
      { code := textAt "code" error "error"
        message := textAt "message" error "request failed"
        data := error.get "data" }
  | none =>
    match value.get "result" with
    | some result => .ok result
    | none =>
      .error (.protocol "malformed response: missing result and error")

/-- The head of `handle_client_line`; `fromStr` is the JSON parser. -/
def readHostLine (fromStr : Text → Option Json) (line : Text) :
    HostLine :=
  match fromStr (trim line) with
  | none => .invalid
  | some value =>
    let method := (value.get "method").bind Json.asStr
    if method = some "event.gap" then
      .gap ((((value.get "params").bind (Json.get "lost")).bind
        Json.asU64).getD 0)
    else if method = some "event" then .event (value.get "params")
    else
      .response (((value.get "id").bind asI64).getD (-1))
        (responseOutcome value)

/-- The outcome a line has for the call with this id. -/
def HostLine.outcomeFor (id : Nat) : HostLine → Option Outcome
  | .response responseId outcome =>
    if responseId = id then some outcome else none
  | _ => none

-- ==== calls

/-- Where a call is. -/
inductive CallPhase where
  /-- Its id is taken. -/
  | created
  /-- Registered; it waits for the writer. -/
  | queued
  /-- It holds the writer and has this much to write. -/
  | writing (rest : Bytes)
  /-- It waits for its outcome. -/
  | waiting
  | returned (outcome : Outcome)
  | dropped

/-- One call. `since` is how many lines the reader had handled when the
call registered: no step reads it. -/
structure Call where
  line : Bytes
  phase : CallPhase
  /-- What the channel to the call holds. -/
  slot : Option Outcome
  since : Nat

/-- A client. `handled` is what the reader has handled: no step reads
it. -/
structure Client where
  nextId : Nat
  calls : Nat → Option Call
  pending : Nat → Bool
  /-- The call that holds the writer. -/
  writer : Option Nat
  /-- What has been written. -/
  stream : Bytes
  ended : Bool
  handled : List HostLine

def Client.start : Client where
  nextId := 1
  calls := fun _ => none
  pending := fun _ => false
  writer := none
  stream := []
  ended := false
  handled := []

inductive ClientAction where
  /-- A call begins; `none` when its parameters do not serialize. -/
  | call (request : Option Bytes)
  | register (id : Nat)
  | lock (id : Nat)
  /-- The stream takes so many bytes of the line. -/
  | write (id count : Nat)
  /-- The line is written and flushed. -/
  | flush (id : Nat)
  | writeFails (id : Nat) (message : String)
  | receive (id : Nat)
  | timeout (id : Nat)
  /-- The caller gives up: the future is dropped. -/
  | drop (id : Nat)
  | line (text : Text)
  /-- The read side ends or fails: the reader drains. -/
  | close

namespace Client

variable (fromStr : Text → Option Json) (s : Client)

/-- A call goes on. -/
def setCall (id : Nat) (call : Call) : Client :=
  { s with calls := Function.update s.calls id (some call) }

/-- A call goes to another phase. -/
def goTo (id : Nat) (call : Call) (phase : CallPhase) : Client :=
  s.setCall id { call with phase }

def forget (id : Nat) : Client :=
  { s with pending := Function.update s.pending id false }

def release : Client := { s with writer := none }

/-- The channel to a call gets its outcome. -/
def deliver (id : Nat) (outcome : Outcome) : Client :=
  match s.calls id with
  | some call => s.setCall id { call with slot := some outcome }
  | none => s

/-- A request that serializes is one line of text. -/
def begin (request : Option Bytes) : Option Client :=
  let refused (error : ClientError) : Call :=
    ⟨[], .returned (.error error), none, 0⟩
  let taken := { s with nextId := s.nextId + 1 }
  match request with
  | none =>
    some (taken.setCall s.nextId
      (refused (.protocol "params do not serialize")))
  | some bytes =>
    if newline ∈ bytes then none
    else if maxRequestBytes < bytes.length + 1 then
      some (taken.setCall s.nextId (refused
        ⟨"too_large", "request exceeds the size limit", none⟩))
    else
      some (taken.setCall s.nextId ⟨bytes ++ [newline], .created, none, 0⟩)

def handleLine (line : HostLine) : Client :=
  let s := { s with handled := s.handled ++ [line] }
  match line with
  | .response responseId outcome =>
    if 0 ≤ responseId ∧ s.pending responseId.toNat = true then
      (s.forget responseId.toNat).deliver responseId.toNat outcome
    else s
  | _ => s

/-- The reader's end: every call that is registered fails. -/
def drain : Client :=
  { s with
    ended := true
    pending := fun _ => false
    calls := fun id => (s.calls id).map fun call =>
      if s.pending id then { call with slot := some (.error .hostClosed) }
      else call }

/-- One action, where it can happen. -/
def next (s : Client) : ClientAction → Option Client
  | .call request => s.begin request
  | .register id => do
    let call ← s.calls id
    match call.phase with
    | .created =>
      some (({ s with
        pending := Function.update s.pending id true }).setCall id
          { call with phase := .queued, since := s.handled.length })
    | _ => none
  | .lock id => do
    let call ← s.calls id
    match call.phase with
    | .queued =>
      if s.writer = none then
        some ({ s with writer := some id }.goTo id call (.writing call.line))
      else none
    | _ => none
  | .write id count => do
    let call ← s.calls id
    match call.phase with
    | .writing rest =>
      if 0 < count ∧ count ≤ rest.length then
        some ({ s with stream := s.stream ++ rest.take count }.goTo id
          call (.writing (rest.drop count)))
      else none
    | _ => none
  | .flush id => do
    let call ← s.calls id
    match call.phase with
    | .writing [] => some (s.release.goTo id call .waiting)
    | _ => none
  | .writeFails id message => do
    let call ← s.calls id
    match call.phase with
    | .writing _ =>
      some ((s.release.forget id).goTo id call
        (.returned (.error (.transport message))))
    | _ => none
  | .receive id => do
    let call ← s.calls id
    match call.phase, call.slot with
    | .waiting, some outcome => some (s.goTo id call (.returned outcome))
    | _, _ => none
  | .timeout id => do
    let call ← s.calls id
    match call.phase, call.slot with
    | .waiting, none =>
      some ((s.forget id).goTo id call
        (.returned (.error ⟨"timeout", "request timed out", none⟩)))
    | _, _ => none
  | .drop id => do
    let call ← s.calls id
    match call.phase with
    | .queued | .waiting => some (s.goTo id call .dropped)
    -- the guard of the writer goes with the future
    | .writing _ => some (s.release.goTo id call .dropped)
    | _ => none
  | .line text =>
    if s.ended then none
    else some (s.handleLine (readHostLine fromStr text))
  | .close => if s.ended then none else some s.drain

-- ==== the law

def lineOf (id : Nat) : Bytes := ((s.calls id).map Call.line).getD []

/-- The outcome of the first response line with this id that was handled
since the call registered. -/
def firstOutcome (id : Nat) (call : Call) : Option Outcome :=
  (s.handled.drop call.since).findSome? (HostLine.outcomeFor id)

end Client

/-- The line is one line. -/
def IsLine (line : Bytes) : Prop :=
  ∃ text, newline ∉ text ∧ line = text ++ [newline]

/-- What a client promises its callers. -/
structure Demultiplexes (s : Client) : Prop where
  /-- The stream consists of whole lines of different calls, and the
  beginning of the one that is being written. -/
  unbroken : ∃ (ids : List Nat) (part : Bytes), ids.Nodup
    ∧ s.stream = ids.flatMap s.lineOf ++ part
    ∧ (∀ id ∈ ids, IsLine (s.lineOf id))
    ∧ (part = [] ∨ ∃ id call rest, id ∉ ids ∧ s.calls id = some call
      ∧ call.phase = .writing rest ∧ IsLine call.line
      ∧ call.line = part ++ rest)
  returned : ∀ id call outcome, s.calls id = some call →
    call.phase = .returned outcome →
      (∃ error, outcome = .error error)
        ∨ s.firstOutcome id call = some outcome
  dropped : ∀ id call, s.calls id = some call → call.phase = .dropped →
    s.pending id = false
  /-- Nothing is left to wait for when the reader has ended. -/
  ended : s.ended = true → ∀ id call, s.calls id = some call →
    call.phase = .waiting → ∃ outcome, call.slot = some outcome
      ∧ (s.firstOutcome id call = some outcome
        ∨ ∃ error, outcome = .error error)

/-- Nothing of the line has been written, or all of it. -/
def AtLineEnd (s : Client) (id : Nat) : Prop :=
  ∀ call rest, s.calls id = some call → call.phase = .writing rest →
    rest = [] ∨ rest = call.line

/-- A future is dropped only when its call is no longer registered and
no line of its is half written; no write fails within a line; and no call
is written whole that registered when the reader had ended. -/
def Careful (s : Client) : ClientAction → Prop
  | .drop id => s.pending id = false ∧ AtLineEnd s id
  | .writeFails id _ => AtLineEnd s id
  | .flush id => s.ended = true → ∀ call, s.calls id = some call →
      call.slot ≠ none
  | _ => True

-- ==== the stream

/-- The call is done with the writer. -/
def CallPhase.past : CallPhase → Bool
  | .waiting | .returned _ | .dropped => true
  | _ => false

def CallPhase.isWriting : CallPhase → Bool
  | .writing _ => true
  | _ => false

/-- What the stream consists of, and who holds the writer. -/
structure Wire (s : Client) : Prop where
  fresh : ∀ id, s.nextId ≤ id → s.calls id = none
  lines : ∀ id call, s.calls id = some call →
    IsLine call.line ∨ ∃ outcome, call.phase = .returned outcome
  holder : ∀ id, s.writer = some id ↔ ∃ call rest,
    s.calls id = some call ∧ call.phase = .writing rest
  stream : ∃ (ids : List Nat) (part : Bytes), ids.Nodup
    ∧ s.stream = ids.flatMap s.lineOf ++ part
    ∧ (∀ id ∈ ids, IsLine (s.lineOf id) ∧ ∃ call, s.calls id = some call
      ∧ call.phase.past = true)
    ∧ (s.writer = none → part = [])
    ∧ ∀ id call rest, s.calls id = some call →
      call.phase = .writing rest → call.line = part ++ rest

variable {s t : Client} {id : Nat} {call call' : Call}

theorem lineOf_of_calls (hcall : s.calls id = some call) :
    s.lineOf id = call.line := by
  rw [Client.lineOf, hcall]
  rfl

theorem lineOf_update (hcall : s.calls id = some call)
    (hc : t.calls = Function.update s.calls id (some call'))
    (hl : call'.line = call.line) : t.lineOf = s.lineOf := by
  funext o
  unfold Client.lineOf
  rw [hc]
  by_cases ho : o = id
  · rw [ho, update_self, hcall, map_some, map_some, hl]
  · rw [update_of_ne ho]

namespace Wire

theorem start : Wire .start where
  fresh _ _ := rfl
  lines _ _ h := nomatch h
  holder _ := ⟨nofun, fun ⟨_, _, h, _⟩ => nomatch h⟩
  stream := ⟨[], [], nodup_nil, rfl, fun _ h => absurd h
    not_mem_nil, fun _ => rfl, fun _ _ _ h => nomatch h⟩

theorem same (h : Wire s) (hid : t.nextId = s.nextId)
    (hwr : t.writer = s.writer) (hs : t.stream = s.stream)
    (hc : ∀ id, (t.calls id).map (fun c => (c.line, c.phase))
      = (s.calls id).map fun c => (c.line, c.phase)) : Wire t := by
  have hb : ∀ id call, t.calls id = some call → ∃ call',
      s.calls id = some call' ∧ call'.line = call.line
        ∧ call'.phase = call.phase := by
    intro id call hcall
    have hmap := hc id
    rw [hcall, map_some] at hmap
    obtain ⟨call', hc', heq⟩ := map_eq_some_iff.1 hmap.symm
    exact ⟨call', hc', (Prod.mk.inj heq).1, (Prod.mk.inj heq).2⟩
  have hf : ∀ id call, s.calls id = some call → ∃ call',
      t.calls id = some call' ∧ call'.line = call.line
        ∧ call'.phase = call.phase := by
    intro id call hcall
    have hmap := hc id
    rw [hcall, map_some] at hmap
    obtain ⟨call', hc', heq⟩ := map_eq_some_iff.1 hmap
    exact ⟨call', hc', (Prod.mk.inj heq).1, (Prod.mk.inj heq).2⟩
  have hlineOf : t.lineOf = s.lineOf := by
    funext id
    have hmap := congrArg (Option.map Prod.fst) (hc id)
    rw [Option.map_map, Option.map_map] at hmap
    exact congrArg (Option.getD · []) hmap
  obtain ⟨ids, p, hn, hwn, hi, hnn, hw⟩ := h.stream
  refine ⟨fun id hge => ?_, fun id call hcall => ?_, fun id => ?_,
    ids, p, hn, ?_, ?_, ?_, ?_⟩
  · have hmap := hc id
    rw [h.fresh id (hid ▸ hge)] at hmap
    exact map_eq_none_iff.1 hmap
  · obtain ⟨call', hc', hl, hp⟩ := hb id call hcall
    rw [← hl, ← hp]
    exact h.lines id call' hc'
  · rw [hwr, h.holder id]
    constructor
    · rintro ⟨call, r, hcall, hr⟩
      obtain ⟨call', hc', -, hp⟩ := hf id call hcall
      exact ⟨call', r, hc', hp.trans hr⟩
    · rintro ⟨call, r, hcall, hr⟩
      obtain ⟨call', hc', -, hp⟩ := hb id call hcall
      exact ⟨call', r, hc', hp.trans hr⟩
  · rw [hs, hlineOf, hwn]
  · intro id hm
    obtain ⟨hl, call, hcall, hps⟩ := hi id hm
    obtain ⟨call', hc', -, hp⟩ := hf id call hcall
    rw [hlineOf]
    exact ⟨hl, call', hc', hp ▸ hps⟩
  · rw [hwr]
    exact hnn
  · intro id call r hcall hr
    obtain ⟨call', hc', hl, hp⟩ := hb id call hcall
    rw [← hl]
    exact hw id call' r hc' (hp.trans hr)

theorem move (h : Wire s) (hcall : s.calls id = some call)
    (hid : t.nextId = s.nextId) (hwr : t.writer = s.writer)
    (hst : t.stream = s.stream)
    (hcl : t.calls = Function.update s.calls id (some call'))
    (hl : call'.line = call.line)
    (hlv : ∀ o, call.phase ≠ .returned o)
    (hbef : ∀ rest, call.phase ≠ .writing rest)
    (ha : ∀ rest, call'.phase ≠ .writing rest)
    (hp : call.phase.past = true → call'.phase.past = true) :
    Wire t := by
  have hlineOf := lineOf_update hcall hcl hl
  have hne : ∀ other, other ≠ id → t.calls other = s.calls other :=
    fun other ho => by rw [hcl, update_of_ne ho]
  have hs : t.calls id = some call' := by
    rw [hcl, update_self]
  have hws : ∀ other c rest, t.calls other = some c →
      c.phase = .writing rest → s.calls other = some c := by
    intro other c rest hc hr
    by_cases ho : other = id
    · subst ho
      rw [hs] at hc
      cases hc
      exact absurd hr (ha rest)
    · rwa [hne other ho] at hc
  obtain ⟨ids, part, hn, hwn, hids, hnn, hw⟩ := h.stream
  refine ⟨fun other hge => ?_, fun other c hc => ?_, fun other => ?_,
    ids, part, hn, ?_, ?_, ?_, ?_⟩
  · have ho : other ≠ id := by
      rintro rfl
      have hnil := h.fresh other (hid ▸ hge)
      rw [hcall] at hnil
      cases hnil
    rw [hne other ho]
    exact h.fresh other (hid ▸ hge)
  · by_cases ho : other = id
    · subst ho
      rw [hs] at hc
      cases hc
      rw [hl]
      exact .inl ((h.lines other call hcall).resolve_right
        fun ⟨o, hrt⟩ => hlv o hrt)
    · exact h.lines other c (hne other ho ▸ hc)
  · rw [hwr, h.holder other]
    constructor
    · rintro ⟨c, rest, hc, hr⟩
      have ho : other ≠ id := by
        rintro rfl
        rw [hcall] at hc
        cases hc
        exact hbef rest hr
      exact ⟨c, rest, (hne other ho).trans hc, hr⟩
    · rintro ⟨c, rest, hc, hr⟩
      exact ⟨c, rest, hws other c rest hc hr, hr⟩
  · rw [hst, hlineOf, hwn]
  · intro other hmem
    obtain ⟨hi, c, hc, hcp⟩ := hids other hmem
    rw [hlineOf]
    refine ⟨hi, ?_⟩
    by_cases ho : other = id
    · subst ho
      rw [hcall] at hc
      cases hc
      exact ⟨call', hs, hp hcp⟩
    · exact ⟨c, (hne other ho).trans hc, hcp⟩
  · rw [hwr]
    exact hnn
  · intro other c rest hc hr
    exact hw other c rest (hws other c rest hc hr) hr

theorem begin (h : Wire s) (hid : t.nextId = s.nextId + 1)
    (hwr : t.writer = s.writer) (hst : t.stream = s.stream)
    (hcl : t.calls = Function.update s.calls s.nextId (some call'))
    (hl : IsLine call'.line ∨ ∃ o, call'.phase = .returned o)
    (hp : ∀ rest, call'.phase ≠ .writing rest) : Wire t := by
  have hnew : s.calls s.nextId = none := h.fresh _ (Nat.le_refl _)
  have hne : ∀ other, other ≠ s.nextId →
      t.calls other = s.calls other :=
    fun other ho => by rw [hcl, update_of_ne ho]
  have hs : t.calls s.nextId = some call' := by
    rw [hcl, update_self]
  have hold : ∀ other c, s.calls other = some c → other ≠ s.nextId := by
    rintro other c hc rfl
    rw [hnew] at hc
    cases hc
  obtain ⟨ids, part, hn, hwn, hids, hnn, hw⟩ := h.stream
  have hlineOf : ∀ other ∈ ids, t.lineOf other = s.lineOf other := by
    intro other hmem
    obtain ⟨-, c, hc, -⟩ := hids other hmem
    unfold Client.lineOf
    rw [hne other (hold other c hc)]
  have hws : ∀ other c rest, t.calls other = some c →
      c.phase = .writing rest → s.calls other = some c := by
    intro other c rest hc hr
    by_cases ho : other = s.nextId
    · subst ho
      rw [hs] at hc
      cases hc
      exact absurd hr (hp rest)
    · rwa [hne other ho] at hc
  refine ⟨fun other hge => ?_, fun other c hc => ?_, fun other => ?_,
    ids, part, hn, ?_, ?_, ?_, ?_⟩
  · rw [hid] at hge
    rw [hne other (by omega)]
    exact h.fresh other (by omega)
  · by_cases ho : other = s.nextId
    · subst ho
      rw [hs] at hc
      cases hc
      exact hl
    · exact h.lines other c (hne other ho ▸ hc)
  · rw [hwr, h.holder other]
    constructor
    · rintro ⟨c, rest, hc, hr⟩
      exact ⟨c, rest, (hne other (hold other c hc)).trans hc, hr⟩
    · rintro ⟨c, rest, hc, hr⟩
      exact ⟨c, rest, hws other c rest hc hr, hr⟩
  · rw [hst, hwn, flatMap_congr hlineOf]
  · intro other hmem
    obtain ⟨hi, c, hc, hps⟩ := hids other hmem
    rw [hlineOf other hmem]
    exact ⟨hi, c, (hne other (hold other c hc)).trans hc, hps⟩
  · rw [hwr]
    exact hnn
  · intro other c rest hc hr
    exact hw other c rest (hws other c rest hc hr) hr

theorem writes (h : Wire s) (hcall : s.calls id = some call)
    (hid : t.nextId = s.nextId)
    (hcl : t.calls = Function.update s.calls id (some call'))
    (hl : call'.line = call.line)
    (hlv : ∀ o, call.phase ≠ .returned o)
    (hbef : s.writer = none ∨ s.writer = some id)
    (ha : t.writer = some id
      ∧ (∃ rest, call'.phase = .writing rest)
      ∨ t.writer = none ∧ ∀ rest, call'.phase ≠ .writing rest)
    (hst : ∃ (ids : List Nat) (part : Bytes), ids.Nodup
      ∧ t.stream = ids.flatMap s.lineOf ++ part
      ∧ (∀ other ∈ ids, IsLine (s.lineOf other)
        ∧ ∃ c, t.calls other = some c ∧ c.phase.past = true)
      ∧ (t.writer = none → part = [])
      ∧ ∀ rest, call'.phase = .writing rest → call.line = part ++ rest) :
    Wire t := by
  have hlineOf := lineOf_update hcall hcl hl
  have hne : ∀ other, other ≠ id → t.calls other = s.calls other :=
    fun other ho => by rw [hcl, update_of_ne ho]
  have hs : t.calls id = some call' := by
    rw [hcl, update_self]
  -- no other call writes, before or after
  have hsl : ∀ other c rest, t.calls other = some c →
      c.phase = .writing rest → other = id := by
    intro other c rest hc hr
    by_contra ho
    rw [hne other ho] at hc
    have hh := (h.holder other).2 ⟨c, rest, hc, hr⟩
    rcases hbef with hbef | hbef
    · cases hbef.symm.trans hh
    · exact ho (Option.some.inj (hh.symm.trans hbef))
  obtain ⟨ids, part, hn, hwr, hids, hnn, hw⟩ := hst
  refine ⟨fun other hge => ?_, fun other c hc => ?_, fun other => ?_,
    ids, part, hn, ?_, ?_, hnn, ?_⟩
  · have ho : other ≠ id := by
      rintro rfl
      have hnil := h.fresh other (hid ▸ hge)
      rw [hcall] at hnil
      cases hnil
    rw [hne other ho]
    exact h.fresh other (hid ▸ hge)
  · by_cases ho : other = id
    · subst ho
      rw [hs] at hc
      cases hc
      rw [hl]
      exact .inl ((h.lines other call hcall).resolve_right
        fun ⟨o, hrt⟩ => hlv o hrt)
    · exact h.lines other c (hne other ho ▸ hc)
  · constructor
    · intro hh
      rcases ha with ⟨ha, rest, hr⟩ | ⟨ha, -⟩
      · cases ha.symm.trans hh
        exact ⟨call', rest, hs, hr⟩
      · cases ha.symm.trans hh
    · rintro ⟨c, rest, hc, hr⟩
      have ho := hsl other c rest hc hr
      subst ho
      rw [hs] at hc
      cases hc
      rcases ha with ⟨ha, -⟩ | ⟨-, ha⟩
      · exact ha
      · exact absurd hr (ha rest)
  · rw [hlineOf, hwr]
  · rw [hlineOf]
    exact hids
  · intro other c rest hc hr
    have ho := hsl other c rest hc hr
    subst ho
    rw [hs] at hc
    cases hc
    rw [hl]
    exact hw rest hr

end Wire

-- ==== the answers

/-- The channel holds the first response, or the error the reader's end
left in its place. -/
def Settled (s : Client) (id : Nat) (call : Call) (outcome : Outcome) :
    Prop :=
  s.firstOutcome id call = some outcome
    ∨ s.ended = true ∧ outcome = .error .hostClosed

/-- The call is registered and has no response, or it has its outcome. -/
def Registered (s : Client) (id : Nat) (call : Call) : Prop :=
  s.pending id = true ∧ call.slot = none ∧ s.firstOutcome id call = none
    ∨ s.pending id = false ∧ ∃ outcome, call.slot = some outcome
      ∧ Settled s id call outcome

/-- Where the outcome of a call is, by its phase. -/
def PhaseOk (s : Client) (id : Nat) (call : Call) : CallPhase → Prop
  | .created => s.pending id = false ∧ call.slot = none
  | .queued | .writing _ => Registered s id call
  | .waiting =>
    Registered s id call ∧ (s.ended = true → call.slot ≠ none)
  | .returned outcome => s.pending id = false
      ∧ ((∃ error, outcome = .error error)
        ∨ s.firstOutcome id call = some outcome)
  | .dropped => s.pending id = false

structure CallOk (s : Client) (id : Nat) (call : Call) : Prop where
  since : call.since ≤ s.handled.length
  phase : PhaseOk s id call call.phase

structure Answers (s : Client) : Prop where
  calls : ∀ id call, s.calls id = some call → CallOk s id call
  pending : ∀ id, s.calls id = none → s.pending id = false

theorem CallOk.congr (h : CallOk s id call)
    (hpn : t.pending id = s.pending id)
    (hh : t.handled = s.handled) (hen : t.ended = s.ended) :
    CallOk t id call := by
  have hf : t.firstOutcome id call = s.firstOutcome id call := by
    rw [Client.firstOutcome, hh]
    rfl
  refine ⟨hh ▸ h.since, ?_⟩
  have hp := h.phase
  cases hcall : call.phase <;>
    simpa only [hcall, PhaseOk, Registered, Settled, hpn, hf, hen] using hp

theorem firstOutcome_append {l : HostLine}
    (hh : t.handled = s.handled ++ [l])
    (hs : call.since ≤ s.handled.length) :
    t.firstOutcome id call
      = (s.firstOutcome id call).or (l.outcomeFor id) := by
  unfold Client.firstOutcome
  rw [hh, drop_append_of_le_length hs, findSome?_append]
  cases (s.handled.drop call.since).findSome? (HostLine.outcomeFor id) <;>
    simp

theorem CallOk.line (h : CallOk s id call) {line : HostLine}
    (hop : s.ended = false)
    (hh : t.handled = s.handled ++ [line])
    (hen : t.ended = s.ended) (hpn : t.pending id = s.pending id)
    (hot : s.pending id = true → line.outcomeFor id = none) :
    CallOk t id call := by
  have hf : t.firstOutcome id call
      = (s.firstOutcome id call).or (line.outcomeFor id) :=
    firstOutcome_append hh h.since
  have hk : ∀ outcome, s.firstOutcome id call = some outcome →
      t.firstOutcome id call = some outcome := by
    intro outcome ho
    rw [hf, ho, some_or]
  have hreg : Registered s id call → Registered t id call := by
    rintro (⟨hp, hsl, hn⟩ | ⟨hp, outcome, hsl, hs⟩)
    · refine .inl ⟨hpn.trans hp, hsl, ?_⟩
      rw [hf, hn, hot hp, none_or]
    · refine .inr ⟨hpn.trans hp, outcome, hsl, .inl ?_⟩
      rcases hs with hs | ⟨hnow, -⟩
      · exact hk outcome hs
      · cases hop.symm.trans hnow
  have hsn : call.since ≤ t.handled.length := by
    rw [hh, length_append]
    exact Nat.le_add_right_of_le h.since
  refine ⟨hsn, ?_⟩
  have hph := h.phase
  cases hcall : call.phase with
  | created => simpa only [hcall, PhaseOk, hpn] using hph
  | queued =>
    rw [hcall] at hph
    exact hreg hph
  | writing rest =>
    rw [hcall] at hph
    exact hreg hph
  | waiting =>
    rw [hcall] at hph
    exact ⟨hreg hph.1, hen ▸ hph.2⟩
  | returned outcome =>
    rw [hcall] at hph
    exact ⟨hpn.trans hph.1, hph.2.imp_right (hk outcome)⟩
  | dropped =>
    rw [hcall] at hph
    exact hpn.trans hph

theorem CallOk.deliver (h : CallOk s id call)
    (hpn : s.pending id = true) {o : Outcome}
    (hh : s.handled.length ≤ t.handled.length)
    (hf : t.pending id = false)
    (hs : s.firstOutcome id call = none →
      Settled t id { call with slot := some o } o) :
    CallOk t id { call with slot := some o } := by
  have hreg : Registered s id call →
      Registered t id { call with slot := some o } := by
    rintro (⟨-, -, hn⟩ | ⟨hp, -⟩)
    · exact .inr ⟨hf, o, rfl, hs hn⟩
    · cases hp.symm.trans hpn
  refine ⟨Nat.le_trans h.since hh, ?_⟩
  have hph := h.phase
  cases hcall : call.phase with
  | created =>
    rw [hcall] at hph
    cases hph.1.symm.trans hpn
  | queued =>
    rw [hcall] at hph
    exact hreg hph
  | writing rest =>
    rw [hcall] at hph
    exact hreg hph
  | waiting =>
    rw [hcall] at hph
    exact ⟨hreg hph.1, fun _ => some_ne_none o⟩
  | returned o =>
    rw [hcall] at hph
    cases hph.1.symm.trans hpn
  | dropped =>
    rw [hcall] at hph
    cases hph.symm.trans hpn

namespace Answers

theorem start : Answers .start where
  calls _ _ h := nomatch h
  pending _ _ := rfl

theorem move (h : Answers s)
    (hcl : t.calls = Function.update s.calls id (some call'))
    (hp : ∀ o, o ≠ id → t.pending o = s.pending o)
    (hh : t.handled = s.handled) (hen : t.ended = s.ended)
    (hok : CallOk t id call') : Answers t where
  calls o c hc := by
    by_cases ho : o = id
    · subst ho
      rw [hcl, update_self] at hc
      cases hc
      exact hok
    · rw [hcl, update_of_ne ho] at hc
      exact (h.calls o c hc).congr (hp o ho) hh hen
  pending o hc := by
    by_cases ho : o = id
    · subst ho
      rw [hcl, update_self] at hc
      cases hc
    · rw [hcl, update_of_ne ho] at hc
      rw [hp o ho]
      exact h.pending o hc

end Answers

-- ==== one step

structure Sound (s : Client) : Prop where
  wire : Wire s
  answers : Answers s

namespace Sound

variable {fromStr : Text → Option Json}

theorem start : Sound .start := ⟨.start, .start⟩

variable {phase : CallPhase}

section

variable (h : Sound s)
include h

section

variable (hcall : s.calls id = some call)
include hcall

theorem phaseOk (hp : call.phase = phase) : PhaseOk s id call phase :=
  hp ▸ (h.answers.calls id call hcall).phase

omit hcall in
theorem begin {r : Option Bytes}
    (hn : s.begin r = some t) : Sound t := by
  have hf : s.pending s.nextId = false :=
    h.answers.pending _ (h.wire.fresh _ (Nat.le_refl _))
  -- the three ways to begin differ in the call that is added
  have hadd : ∀ call : Call, (call.since = 0) →
      (IsLine call.line ∧ call.phase = .created ∧ call.slot = none
        ∨ ∃ e, call.phase = .returned (.error e)) →
      Sound (({ s with nextId := s.nextId + 1 }).setCall s.nextId call) := by
    intro call hs hcall
    refine ⟨h.wire.begin rfl rfl rfl rfl ?_ ?_,
      h.answers.move rfl (fun _ _ => rfl) rfl rfl ⟨?_, ?_⟩⟩
    · exact hcall.imp (·.1) fun ⟨e, herr⟩ => ⟨_, herr⟩
    · rcases hcall with ⟨-, hp, -⟩ | ⟨e, hp⟩ <;> simp [hp]
    · rw [hs]
      exact Nat.zero_le _
    · rcases hcall with ⟨-, hp, hsl⟩ | ⟨e, hp⟩
      · rw [hp]
        exact ⟨hf, hsl⟩
      · rw [hp]
        exact ⟨hf, .inl ⟨e, rfl⟩⟩
  unfold Client.begin at hn
  cases r with
  | none =>
    cases hn
    exact hadd _ rfl (.inr ⟨_, rfl⟩)
  | some b =>
    simp only at hn
    split at hn
    · cases hn
    · next hl =>
      split at hn
      · cases hn
        exact hadd _ rfl (.inr ⟨_, rfl⟩)
      · cases hn
        exact hadd _ rfl (.inl ⟨⟨b, hl, rfl⟩, rfl, rfl⟩)

theorem register (hp : call.phase = .created) :
    Sound (({ s with pending := Function.update s.pending id true }).setCall
      id { call with phase := .queued, since := s.handled.length }) := by
  obtain ⟨-, hs⟩ := h.phaseOk hcall hp
  refine ⟨h.wire.move hcall rfl rfl rfl rfl rfl (by simp [hp])
    (by simp [hp]) (by simp) (by simp [hp, CallPhase.past]),
    h.answers.move rfl (fun other ho => update_of_ne ho ..)
      rfl rfl ⟨Nat.le_refl _, .inl ⟨update_self .., hs, ?_⟩⟩⟩
  show (s.handled.drop s.handled.length).findSome? _ = none
  rw [drop_length]
  rfl

theorem lock (hp : call.phase = .queued) (hw : s.writer = none) :
    Sound ({ s with writer := some id }.goTo id call
      (.writing call.line)) := by
  have hreg := h.phaseOk hcall hp
  have hs := (h.answers.calls id call hcall).since
  obtain ⟨ids, p, hn, hwr, hi, hnn, -⟩ := h.wire.stream
  have hpr : p = [] := hnn hw
  refine ⟨h.wire.writes hcall rfl rfl rfl (by simp [hp]) (.inl hw)
    (.inl ⟨rfl, _, rfl⟩) ⟨ids, p, hn, hwr, ?_, fun _ => hpr, ?_⟩,
    h.answers.move rfl (fun _ _ => rfl) rfl rfl ⟨hs, hreg⟩⟩
  · intro o hm
    obtain ⟨hl, c, hc, hps⟩ := hi o hm
    have ho : o ≠ id := by
      rintro rfl
      rw [hcall] at hc
      cases hc
      rw [hp] at hps
      cases hps
    exact ⟨hl, c, (update_of_ne ho ..).trans hc, hps⟩
  · rintro rest ⟨⟩
    rw [hpr, nil_append]

theorem write
    {r : Bytes} (hp : call.phase = .writing r) (co : Nat) :
    Sound ({ s with stream := s.stream ++ r.take co }.goTo id call
      (.writing (r.drop co))) := by
  have hreg := h.phaseOk hcall hp
  have hs := (h.answers.calls id call hcall).since
  have hw : s.writer = some id := (h.wire.holder id).2 ⟨call, r, hcall, hp⟩
  obtain ⟨ids, p, hn, hwn, hd, -, hwr⟩ := h.wire.stream
  have hl := hwr id call r hcall hp
  refine ⟨h.wire.writes hcall rfl rfl rfl (by simp [hp])
    (.inr hw) (.inl ⟨hw, _, rfl⟩)
    ⟨ids, p ++ r.take co, hn, ?_, ?_, ?_, ?_⟩,
    h.answers.move rfl (fun _ _ => rfl) rfl rfl ⟨hs, hreg⟩⟩
  · show s.stream ++ r.take co = _
    rw [hwn, append_assoc]
  · intro o hm
    obtain ⟨hi, c, hc, hps⟩ := hd o hm
    have ho : o ≠ id := by
      rintro rfl
      rw [hcall] at hc
      cases hc
      rw [hp] at hps
      cases hps
    exact ⟨hi, c, (update_of_ne ho ..).trans hc, hps⟩
  · intro hnn
    cases hw.symm.trans hnn
  · rintro rest' ⟨⟩
    rw [append_assoc, take_append_drop, hl]

theorem unlock {rest : Bytes}
    (hp : call.phase = .writing rest)
    (hend : rest = [] ∨ rest = call.line) (hps : phase.past = true)
    (pending : Nat → Bool)
    (hpn : ∀ other, other ≠ id → pending other = s.pending other)
    (hok : PhaseOk { s with pending } id call phase) :
    Sound ({ s with writer := none, pending }.goTo id call phase) := by
  have hs := (h.answers.calls id call hcall).since
  have hwrt : s.writer = some id :=
    (h.wire.holder id).2 ⟨call, rest, hcall, hp⟩
  obtain ⟨ids, part, hn, hwr, hids, -, hw⟩ := h.wire.stream
  have hl := hw id call rest hcall hp
  have hnot : id ∉ ids := by
    intro hmem
    obtain ⟨-, c, hc, hcp⟩ := hids id hmem
    rw [hcall] at hc
    cases hc
    rw [hp] at hcp
    cases hcp
  have hisLine : IsLine call.line :=
    (h.wire.lines id call hcall).resolve_right
      fun ⟨outcome, hr⟩ => nomatch hp.symm.trans hr
  have ho : ∀ other ∈ ids, IsLine (s.lineOf other) ∧ ∃ c,
      Function.update s.calls id (some { call with phase }) other = some c
        ∧ c.phase.past = true := by
    intro other hmem
    obtain ⟨hotherLine, c, hc, hcp⟩ := hids other hmem
    have hot : other ≠ id := fun heq => hnot (heq ▸ hmem)
    exact ⟨hotherLine, c, (update_of_ne hot ..).trans hc, hcp⟩
  have hnotWriting : ∀ rest, phase ≠ .writing rest := by
    rintro rest' rfl
    cases hps
  refine ⟨h.wire.writes hcall rfl rfl rfl (by simp [hp])
    (.inr hwrt) (.inr ⟨rfl, hnotWriting⟩) ?_,
    h.answers.move rfl hpn rfl rfl ⟨hs, ?_⟩⟩
  · rcases hend with rfl | hwh
    · -- the line is written: it joins the whole ones
      rw [append_nil] at hl
      refine ⟨ids ++ [id], [], ?_, ?_, ?_, fun _ => rfl,
        fun rest' hr' => absurd hr' (hnotWriting rest')⟩
      · exact nodup_append.2 ⟨hn, nodup_singleton id,
          fun a ha b hb => by
            rw [mem_singleton.1 hb]
            rintro rfl
            exact hnot ha⟩
      · show s.stream = _
        rw [hwr, flatMap_append, flatMap_singleton,
          lineOf_of_calls hcall, hl, append_nil]
      · intro other hmem
        rcases mem_append.1 hmem with hmem | hmem
        · exact ho other hmem
        · obtain rfl := mem_singleton.1 hmem
          rw [lineOf_of_calls hcall]
          exact ⟨hisLine, _, update_self .., hps⟩
    · -- nothing of the line is written
      have hpr : part = [] := by
        rw [hwh] at hl
        exact self_eq_append_left.1 hl
      refine ⟨ids, [], hn, ?_, ho, fun _ => rfl,
        fun rest' hr' => absurd hr' (hnotWriting rest')⟩
      show s.stream = _
      rw [hwr, hpr]
  · exact hok

theorem settle (hl : ∀ outcome, call.phase ≠ .returned outcome)
    (hbef : ∀ rest, call.phase ≠ .writing rest) (hp : phase.past = true)
    (pending : Nat → Bool)
    (hpn : ∀ other, other ≠ id → pending other = s.pending other)
    (hok : PhaseOk { s with pending } id call phase) :
    Sound ({ s with pending }.goTo id call phase) := by
  have hs := (h.answers.calls id call hcall).since
  refine ⟨h.wire.move hcall rfl rfl rfl rfl rfl hl hbef ?_
    (fun _ => hp), h.answers.move rfl hpn rfl rfl ⟨hs, hok⟩⟩
  rintro rest rfl
  cases hp

theorem receive (hp : call.phase = .waiting) {o : Outcome}
    (hs : call.slot = some o) :
    Sound (s.goTo id call (.returned o)) := by
  obtain ⟨hr, -⟩ := h.phaseOk hcall hp
  refine h.settle hcall (by simp [hp]) (by simp [hp]) rfl s.pending
    (fun _ _ => rfl) ?_
  rcases hr with ⟨-, hn, -⟩ | ⟨hfr, _, hs', hst⟩
  · cases hn.symm.trans hs
  · cases hs'.symm.trans hs
    refine ⟨hfr, ?_⟩
    rcases hst with hf | ⟨-, hc⟩
    · exact .inr hf
    · exact .inl ⟨_, hc⟩

end

theorem handleLine (hop : s.ended = false)
    (line : HostLine) : Sound (s.handleLine line) := by
  have hs : (∀ id, s.pending id = true → line.outcomeFor id = none) →
      Sound { s with handled := s.handled ++ [line] } := fun ho =>
    ⟨h.wire.same rfl rfl rfl fun _ => rfl,
      ⟨fun id call hcall => (h.answers.calls id call hcall).line hop rfl
        rfl rfl (ho id), h.answers.pending⟩⟩
  cases line with
  | invalid => exact hs fun _ _ => rfl
  | gap lost => exact hs fun _ _ => rfl
  | event params => exact hs fun _ _ => rfl
  | response responseId o =>
    unfold Client.handleLine
    simp only
    split
    · next hr =>
      obtain ⟨hpos, hp⟩ := hr
      have hid : ((responseId.toNat : Nat) : Int) = responseId :=
        Int.toNat_of_nonneg hpos
      obtain ⟨call, hcall⟩ : ∃ call,
          s.calls responseId.toNat = some call := by
        refine ne_none_iff_exists'.1 fun hn => ?_
        rw [h.answers.pending _ hn] at hp
        cases hp
      have hok := h.answers.calls _ call hcall
      have hd : (Client.forget { s with
            handled := s.handled ++ [.response responseId o] }
            responseId.toNat).deliver responseId.toNat o
          = (Client.forget { s with
              handled := s.handled ++ [.response responseId o] }
              responseId.toNat).setCall responseId.toNat
                { call with slot := some o } := by
        simp only [Client.deliver, Client.forget, hcall]
      rw [hd]
      refine ⟨h.wire.same rfl rfl rfl fun other => ?_,
        fun other c hc => ?_, fun other hc => ?_⟩
      · by_cases ho : other = responseId.toNat
        · rw [ho, hcall]
          simp [Client.setCall, update_self]
        · simp [Client.setCall, Client.forget, update_of_ne ho]
      · by_cases ho : other = responseId.toNat
        · subst ho
          simp only [Client.setCall, update_self, Option.some.injEq] at hc
          subst hc
          refine hok.deliver hp ?_ (update_self ..) fun hn => .inl ?_
          · simp [Client.setCall, Client.forget]
          · show Client.firstOutcome _ _ call = _
            rw [firstOutcome_append (s := s) rfl hok.since, hn, none_or]
            exact if_pos hid.symm
        · have hcs : s.calls other = some c := by
            simpa [Client.setCall, Client.forget, update_of_ne ho] using hc
          refine (h.answers.calls other c hcs).line hop rfl rfl
            (update_of_ne ho ..) fun _ => if_neg ?_
          intro heq
          rw [heq, Int.toNat_natCast] at ho
          exact ho rfl
      · have ho : other ≠ responseId.toNat := by
          rintro rfl
          simp [Client.setCall] at hc
        have hcs : s.calls other = none := by
          simpa [Client.setCall, Client.forget, update_of_ne ho] using hc
        exact (update_of_ne ho ..).trans (h.answers.pending other hcs)
    · next hr =>
      refine hs fun id hid => if_neg ?_
      rintro rfl
      exact hr ⟨Int.natCast_nonneg id, by simpa using hid⟩

theorem drain : Sound s.drain := by
  have hb : ∀ id call, s.drain.calls id = some call → ∃ call',
      s.calls id = some call' ∧ call = if s.pending id then
        { call' with slot := some (.error .hostClosed) } else call' := by
    intro id call hcall
    obtain ⟨call', hc', rfl⟩ := map_eq_some_iff.1 hcall
    exact ⟨call', hc', rfl⟩
  refine ⟨h.wire.same rfl rfl rfl fun id => ?_,
    fun id call hcall => ?_, fun _ _ => rfl⟩
  · simp only [Client.drain, Option.map_map]
    congr 1
    funext call
    split <;> rfl
  · obtain ⟨call', hc', rfl⟩ := hb id call hcall
    have hok := h.answers.calls id call' hc'
    by_cases hpn : s.pending id = true
    · rw [if_pos hpn]
      exact hok.deliver hpn (Nat.le_refl _) rfl fun _ => .inr ⟨rfl, rfl⟩
    · have hf : s.pending id = false := by simpa using hpn
      rw [if_neg hpn]
      refine ⟨hok.since, ?_⟩
      have hph := hok.phase
      have hreg : Registered s id call' →
          Registered s.drain id call' := by
        rintro (⟨hp, -⟩ | ⟨-, o, hs, hst⟩)
        · cases hf.symm.trans hp
        · exact .inr ⟨rfl, o, hs, hst.imp_right fun ⟨_, hc⟩ => ⟨rfl, hc⟩⟩
      cases hc'' : call'.phase with
      | created =>
        rw [hc''] at hph
        exact ⟨rfl, hph.2⟩
      | queued =>
        rw [hc''] at hph
        exact hreg hph
      | writing rest =>
        rw [hc''] at hph
        exact hreg hph
      | waiting =>
        rw [hc''] at hph
        refine ⟨hreg hph.1, fun _ => ?_⟩
        rcases hph.1 with ⟨hp, -⟩ | ⟨-, o, hs, -⟩
        · cases hf.symm.trans hp
        · rw [hs]
          exact some_ne_none o
      | returned o =>
        rw [hc''] at hph
        exact ⟨rfl, hph.2⟩
      | dropped => exact rfl

omit h in
theorem next {action : ClientAction} (h : Sound s)
    (hc : Careful s action)
    (hn : s.next fromStr action = some t) : Sound t := by
  cases action with
  | call request => exact h.begin hn
  | line text =>
    simp only [Client.next] at hn
    split at hn
    · cases hn
    · next hop =>
      cases hn
      exact h.handleLine (by simpa using hop) _
  | close =>
    simp only [Client.next] at hn
    split at hn
    · cases hn
    · cases hn
      exact h.drain
  | register id =>
    obtain ⟨call, hcall, hn⟩ := bind_eq_some_iff.1 hn
    cases hp : call.phase <;> simp only [hp] at hn <;> cases hn
    exact h.register hcall hp
  | lock id =>
    obtain ⟨call, hcall, hn⟩ := bind_eq_some_iff.1 hn
    cases hp : call.phase <;> simp only [hp] at hn <;> try cases hn
    split at hn
    · next hw =>
      cases hn
      exact h.lock hcall hp hw
    · cases hn
  | write id count =>
    obtain ⟨call, hcall, hn⟩ := bind_eq_some_iff.1 hn
    cases hp : call.phase <;> simp only [hp] at hn <;> try cases hn
    split at hn
    · cases hn
      exact h.write hcall hp count
    · cases hn
  | flush id =>
    obtain ⟨call, hcall, hn⟩ := bind_eq_some_iff.1 hn
    cases hp : call.phase with
    | writing rest =>
      cases rest with
      | nil =>
        simp only [hp, Option.some.injEq] at hn
        subst hn
        exact h.unlock hcall hp (.inl rfl) rfl s.pending
          (fun _ _ => rfl) ⟨h.phaseOk hcall hp, fun hen => hc hen call hcall⟩
      | cons b rest =>
        simp only [hp] at hn
        cases hn
    | _ =>
      simp only [hp] at hn
      cases hn
  | writeFails id message =>
    obtain ⟨call, hcall, hn⟩ := bind_eq_some_iff.1 hn
    cases hp : call.phase <;> simp only [hp] at hn <;> cases hn
    exact h.unlock hcall hp (hc call _ hcall hp) rfl _
      (fun other ho => update_of_ne ho ..)
      ⟨update_self .., .inl ⟨_, rfl⟩⟩
  | receive id =>
    obtain ⟨call, hcall, hn⟩ := bind_eq_some_iff.1 hn
    cases hp : call.phase <;> cases hs : call.slot <;>
      simp only [hp, hs] at hn <;> cases hn
    exact h.receive hcall hp hs
  | timeout id =>
    obtain ⟨call, hcall, hn⟩ := bind_eq_some_iff.1 hn
    cases hp : call.phase <;> cases hs : call.slot <;>
      simp only [hp, hs] at hn <;> cases hn
    exact h.settle hcall (by simp [hp]) (by simp [hp]) rfl _
      (fun other ho => update_of_ne ho ..)
      ⟨update_self .., .inl ⟨_, rfl⟩⟩
  | drop id =>
    obtain ⟨call, hcall, hn⟩ := bind_eq_some_iff.1 hn
    cases hp : call.phase <;> simp only [hp] at hn <;> cases hn
    · exact h.settle hcall (by simp [hp]) (by simp [hp]) rfl
        s.pending (fun _ _ => rfl) hc.1
    · exact h.unlock hcall hp (hc.2 call _ hcall hp) rfl
        s.pending (fun _ _ => rfl) hc.1
    · exact h.settle hcall (by simp [hp]) (by simp [hp]) rfl
        s.pending (fun _ _ => rfl) hc.1

theorem demultiplexes : Demultiplexes s := by
  refine ⟨?_, fun id call o hcall hp => ?_,
    fun id call hcall hp => ?_, fun hen id call hcall hp => ?_⟩
  · obtain ⟨ids, p, hnd, hwn, hi, hn, hw⟩ :=
      h.wire.stream
    refine ⟨ids, p, hnd, hwn, fun id hm => (hi id hm).1, ?_⟩
    cases hwr : s.writer with
    | none => exact .inl (hn hwr)
    | some id =>
      obtain ⟨call, r, hcall, hp⟩ := (h.wire.holder id).1 hwr
      refine .inr ⟨id, call, r, fun hm => ?_, hcall, hp, ?_,
        hw id call r hcall hp⟩
      · obtain ⟨-, c, hc, hps⟩ := hi id hm
        rw [hcall] at hc
        cases hc
        rw [hp] at hps
        cases hps
      · exact (h.wire.lines id call hcall).resolve_right
          fun ⟨o, hr⟩ => nomatch hp.symm.trans hr
  · exact (h.phaseOk hcall hp).2
  · exact h.phaseOk hcall hp
  · obtain ⟨hreg, hsl⟩ := h.phaseOk hcall hp
    rcases hreg with ⟨-, hn, -⟩ | ⟨-, o, hsm, hs⟩
    · exact absurd hn (hsl hen)
    · exact ⟨o, hsm, hs.imp_right fun ⟨_, hcl⟩ => ⟨_, hcl⟩⟩

end

end Sound

/-- In every run whose steps are all careful, the stream carries whole
lines, every call gets its own first response or an error, no dropped
call stays registered, and no call waits behind the end of the reader. -/
theorem calls_are_demultiplexed {fromStr : Text → Option Json}
    (hrun : Run (fun s action t => s.next fromStr action = some t) Careful
      .start s) : Demultiplexes s := by
  have hs : Sound s := hrun.invariant Sound.start
    fun _ _ _ h hc hn => h.next hc hn
  exact hs.demultiplexes

-- ==== runs

/-- A parser that knows two responses. -/
def twoResponses (text : Text) : Option Json :=
  if text = ['1'] then
    some (.object [("id", .number "1"), ("result", .bool true)])
  else if text = ['2'] then
    some (.object [("id", .number "2"), ("result", .bool false)])
  else none

/-- No caller gives up and no write fails before the reader ends. -/
def undisturbed (s : Client) : ClientAction → Bool
  | .drop _ => false
  | .writeFails _ _ => false
  | .flush _ => !s.ended
  | _ => true

theorem careful_of_undisturbed (s : Client) (action : ClientAction)
    (h : undisturbed s action = true) : Careful s action := by
  cases action with
  | drop id => cases h
  | writeFails id message => cases h
  | flush id =>
    intro hen
    simp [undisturbed, hen] at h
  | _ => trivial

def returnedOk (s : Client) (id : Nat) (value : Json) : Bool :=
  match (s.calls id).map Call.phase with
  | some (.returned (.ok outcome)) => outcome = value
  | _ => false

/-- Two calls at once, answered in the other order. -/
theorem calls_are_demultiplexed_crossed :
    ∃ s : Client, Demultiplexes s ∧ s.stream = [97, 10, 98, 10]
      ∧ returnedOk s 1 (.bool true) ∧ returnedOk s 2 (.bool false) := by
  have hex : ((runWhile (Client.next twoResponses) undisturbed .start
      [.call (some [97]), .call (some [98]), .register 2, .register 1,
        .lock 1, .write 1 1, .write 1 1, .flush 1, .lock 2, .write 2 2,
        .flush 2, .line ['2'], .line ['1'], .receive 1, .close,
        .receive 2]).map
      fun s => (s.stream, returnedOk s 1 (.bool true),
        returnedOk s 2 (.bool false)))
      = some ([97, 10, 98, 10], true, true) := by
    decide +kernel
  obtain ⟨s, hs, hres⟩ := map_eq_some_iff.1 hex
  simp only [Prod.mk.injEq] at hres
  have hrun := Run.of_runWhile careful_of_undisturbed .refl _ hs
  exact ⟨s, calls_are_demultiplexed hrun, hres⟩

/-- A caller that gives up while it waits for the writer leaves its entry
behind. -/
theorem dropped_call_stays_registered :
    ¬ ∀ s : Client,
      Run (fun s action t => s.next twoResponses action = some t)
        (fun _ _ => True) .start s → Demultiplexes s := by
  intro h
  have hex : ((runWhile (Client.next twoResponses) (fun _ _ => true)
      .start [.call (some [97]), .register 1, .drop 1]).map
      fun s => (s.pending 1, (s.calls 1).any fun call =>
        match call.phase with
        | .dropped => true
        | _ => false)) = some (true, true) := by
    decide +kernel
  obtain ⟨s, hs, hres⟩ := map_eq_some_iff.1 hex
  have hrun := Run.of_runWhile (fun _ _ _ => trivial) .refl _ hs
  obtain ⟨hpn, hd⟩ := Prod.mk.inj hres
  obtain ⟨call, hcall, hp⟩ := (Option.any_eq_true ..).1 hd
  have hisDropped : call.phase = .dropped := by
    split at hp
    · assumption
    · cases hp
  have hf := (h s hrun).dropped 1 call hcall hisDropped
  cases hf.symm.trans hpn

end TikTools.Control
