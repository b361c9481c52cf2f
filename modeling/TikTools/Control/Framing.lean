/-
Line framing of the control connection: the reader of request lines and
the loop that serves a stream.

A request is one line. The reader takes the bytes of the stream chunk by
chunk, keeps at most `maxRequestBytes` of a line, and of a longer line
only the prefix its id is recovered from. The loop waits for a line and
for a domain event at once; an event that arrives completes the wait and
drops the read in progress, together with the bytes it had consumed.

# The law

`ServesLines` says what serving a stream means: the requests are the
lines of the bytes consumed, whatever chunks they came in and whatever
arrived in between. It is an invariant of every run in which no event
arrives in the middle of a line (`lines_are_served`): the progress of the
reader is then a function of the unterminated end of what it consumed
(`Progress`), and one pass over a chunk moves both alike.
-/
import TikTools.Lib.Json
import TikTools.Lib.Runs
import TikTools.Lib.Text
import Mathlib.Algebra.Group.Nat.Defs
import Mathlib.Algebra.Group.Int.Defs

namespace TikTools.Control

open TikTools.Lib List

abbrev Bytes := List UInt8

abbrev Text := List Char

-- ==== text of bytes

/-- A continuation byte of UTF-8. -/
def isContinuation (b : UInt8) : Bool := 0x80 ≤ b && b ≤ 0xBF

/-- The bytes that may follow the first byte of a sequence, with the
number of continuation bytes after them. -/
def secondByte (first : UInt8) : Option (UInt8 × UInt8 × Nat) :=
  if 0xC2 ≤ first ∧ first ≤ 0xDF then some (0x80, 0xBF, 0)
  else if first = 0xE0 then some (0xA0, 0xBF, 1)
  else if first = 0xED then some (0x80, 0x9F, 1)
  else if 0xE1 ≤ first ∧ first ≤ 0xEF then some (0x80, 0xBF, 1)
  else if first = 0xF0 then some (0x90, 0xBF, 2)
  else if 0xF1 ≤ first ∧ first ≤ 0xF3 then some (0x80, 0xBF, 2)
  else if first = 0xF4 then some (0x80, 0x8F, 2)
  else none

/-- The payload bits of a first byte before `trailing` further bytes. -/
def leadBits (first : UInt8) (trailing : Nat) : Nat :=
  first.toNat % 2 ^ (6 - trailing)

/-- Read `count` continuation bytes; with too few of them, the number of
bytes read so far. -/
def continuations : (count value read : Nat) → Bytes →
    Nat ⊕ Nat × Bytes
  | 0, value, _, rest => .inr (value, rest)
  | count + 1, value, read, b :: rest =>
    if isContinuation b then
      continuations count (value * 64 + b.toNat % 64) (read + 1) rest
    else .inl read
  | _ + 1, _, read, [] => .inl read

/-- The first character of a text, or what stands for its longest
ill-formed beginning, and the bytes behind it. -/
def lossyHead (first : UInt8) (rest : Bytes) : Char × Bytes :=
  if first < 0x80 then (Char.ofNat first.toNat, rest)
  else
    match secondByte first, rest with
    | some (low, high, more), b :: tail =>
      if low ≤ b ∧ b ≤ high then
        match continuations more
            (leadBits first (more + 1) * 64 + b.toNat % 64) 1 tail with
        | .inr (value, behind) => (Char.ofNat value, behind)
        | .inl read => ('\uFFFD', rest.drop read)
      else ('\uFFFD', rest)
    | _, _ => ('\uFFFD', rest)

/-- `lossyHead` again and again, on at most `fuel` bytes. -/
def fromUtf8LossyIn : Nat → Bytes → Text
  | fuel + 1, first :: rest =>
    let (c, behind) := lossyHead first rest
    c :: fromUtf8LossyIn fuel behind
  | _, _ => []

/-- `String::from_utf8_lossy`. -/
def fromUtf8Lossy (bytes : Bytes) : Text := fromUtf8LossyIn bytes.length bytes

/-- `str::as_bytes`. -/
def asBytes (text : Text) : Bytes := text.flatMap String.utf8EncodeChar

-- ==== request ids

/-- The id of a request: text, number, or none. -/
inductive RpcId where
  | string (text : Text)
  | number (value : Int)
  | null
  deriving DecidableEq

def isAsciiWhitespace (b : UInt8) : Bool :=
  b == 9 || b == 10 || b == 12 || b == 13 || b == 32

def isAsciiDigit (b : UInt8) : Bool := 48 ≤ b && b ≤ 57

/-- Skip white space as far as the scan goes; what is left of the scan,
and the bytes from there. -/
def skipWhitespace : (left : Nat) → Bytes → Nat × Bytes
  | left + 1, b :: rest =>
    if isAsciiWhitespace b then skipWhitespace left rest
    else (left + 1, b :: rest)
  | left, bytes => (left, bytes)

/-- The text behind an opening quote; a text that runs into the end of
the scan is no id. -/
def prefixString : (left : Nat) → (escaped : Bool) → (value : Bytes) →
    Bytes → RpcId
  | left + 1, escaped, value, b :: rest =>
    let pushed := if value.length < 128 then value ++ [b] else value
    if escaped then prefixString left false pushed rest
    else if b = 92 then prefixString left true value rest
    else if b = 34 then .string ((fromUtf8Lossy value).take 128)
    else prefixString left false pushed rest
  | _, _, _, _ => .null

/-- `i64::from_str` on a sign and digits. -/
def parseI64 (negative : Bool) (digits : Bytes) : Option Int :=
  let magnitude : Int :=
    digits.foldl (fun n b => n * 10 + (b.toNat - 48 : Nat)) 0
  let value := if negative then -magnitude else magnitude
  if digits ≠ [] ∧ -2 ^ 63 ≤ value ∧ value < 2 ^ 63 then some value
  else none

/-- The digits of a number; a number that runs into the end of the scan
is no id. -/
def prefixNumber (left : Nat) (bytes : Bytes) : RpcId :=
  let negative := bytes.head? == some 45
  let left := if negative then left - 1 else left
  let digits :=
    (((if negative then bytes.drop 1 else bytes).take left).takeWhile
      isAsciiDigit)
  if digits.length = left then .null
  else
    match parseI64 negative digits with
    | some value => .number value
    | none => .null

def parsePrefixValue (left : Nat) (bytes : Bytes) : RpcId :=
  match bytes with
  | [] => .null
  | first :: rest =>
    if first = 34 then prefixString (left - 1) false [] rest
    else if first = 45 ∨ isAsciiDigit first then prefixNumber left bytes
    else .null

/-- The value behind the top-level key `"id"`, among the first `left`
bytes. -/
def scanId : (left : Nat) → (inString escaped : Bool) → (depth : Nat) →
    Bytes → RpcId
  | left + 1, inString, escaped, depth, b :: rest =>
    if inString then
      if escaped then scanId left true false depth rest
      else if b = 92 then scanId left true true depth rest
      else scanId left (b != 34) false depth rest
    else if b = 123 ∨ b = 91 then
      scanId left false escaped (min (depth + 1) (2 ^ 32 - 1)) rest
    else if b = 125 ∨ b = 93 then
      scanId left false escaped (depth - 1) rest
    else if b = 34 then
      if depth = 1 ∧ [34, 105, 100, 34].isPrefixOf (b :: rest) then
        match skipWhitespace (left - 3) (rest.drop 3) with
        | (left', 58 :: value) =>
          let (left'', value) := skipWhitespace (left' - 1) value
          parsePrefixValue left'' value
        -- `"id"` as a value and not as a key
        | _ => scanId left true escaped depth rest
      else scanId left true escaped depth rest
    else scanId left false escaped depth rest
  | _, _, _, _, _ => .null

def RpcId.extractFromPrefix (raw : Text) : RpcId :=
  scanId 256 false false 0 (asBytes raw)

-- ==== the reader

def maxRequestBytes : Nat := 1024 * 1024

def idPrefixRecoveryBytes : Nat := 256

def newline : UInt8 := 10

/-- What `read_capped_line` has of the line it reads. -/
structure Reading where
  line : Bytes
  total : Nat
  tooLarge : Bool
  deriving DecidableEq

def Reading.start : Reading := ⟨[], 0, false⟩

/-- Take in one part of the line: up to its end, or the whole chunk. -/
def Reading.absorb (r : Reading) (part : Bytes) : Reading :=
  if r.tooLarge then r
  else if maxRequestBytes < r.total + part.length then
    let room := idPrefixRecoveryBytes - r.line.length
    { line := (r.line ++ part.take room).take idPrefixRecoveryBytes
      total := r.total + part.length
      tooLarge := true }
  else
    { line := r.line ++ part
      total := r.total + part.length
      tooLarge := false }

/-- One pass of the reader over a chunk: the line is complete, with what
the chunk holds behind it, or the chunk is used up. -/
def Reading.pass (r : Reading) (chunk : Bytes) : Reading × Option Bytes :=
  match chunk.findIdx? (· = newline) with
  | some index =>
    (r.absorb (chunk.take (index + 1)), some (chunk.drop (index + 1)))
  | none => (r.absorb chunk, none)

-- ==== the loop

structure ApiError where
  code : String
  message : String
  deriving DecidableEq

structure RpcResponse where
  id : RpcId
  outcome : Except ApiError Json

def ApiError.tooLarge : ApiError :=
  ⟨"too_large", "request exceeds the size limit"⟩

def ApiError.invalidParams (message : String) : ApiError :=
  ⟨"invalid_params", message⟩

/-- What the connection uses of the host, and the JSON parser. -/
structure ControlApi (Core : Type) where
  fromStr : Text → Except String Json
  executeValue : Core → Json → Core × RpcResponse
  recordEventGap : Core → Core
  isShutdown : Core → Bool

/-- What a receive on the event subscription gives. -/
inductive Received (Event : Type) where
  | event (event : Event)
  | reliableLagged (lost : Nat)
  | lossyLagged (skipped : Nat)
  | closed

/-- A line written to the client. -/
inductive Written (Event : Type) where
  | response (response : RpcResponse)
  | notification (event : Event)
  | gap (lost : Nat)

/-- What a line asks for: to be executed, or to be refused with the id
in the part that was kept. -/
inductive Request where
  | execute (line : Bytes)
  | refuse (kept : Bytes)
  deriving DecidableEq

/-- A handled line with its response. -/
structure Served where
  request : Request
  response : RpcResponse

inductive Phase where
  | serving
  | ended
  | shutdown
  deriving DecidableEq

/-- One connection. `sent` is what the client's chunks held so far and
`served` what was done with it: no step reads them. -/
structure Connection (Core Event : Type) where
  core : Core
  subscribed : Bool
  /-- Read from the stream and not yet consumed. -/
  buffer : Bytes
  reading : Reading
  phase : Phase
  written : List (Written Event)
  sent : Bytes
  served : List Served

def Connection.start {Core Event : Type} (core : Core)
    (streamEvents : Bool) : Connection Core Event where
  core
  subscribed := streamEvents
  buffer := []
  reading := .start
  phase := .serving
  written := []
  sent := []
  served := []

/-- What happens to a connection. -/
inductive Input (Core Event : Type) where
  /-- The client's next bytes arrive. -/
  | fill (chunk : Bytes)
  /-- The reader takes up its chunk; `queued` are the events a request
  leaves to be drained. -/
  | pass (queued : List (Received Event))
  /-- The event branch of the wait completes. -/
  | event (received : Received Event)
  /-- The client sends no more. -/
  | eof (queued : List (Received Event))
  /-- The rest of the host goes on. -/
  | outside (core : Core)

section

variable {Core Event : Type} (api : ControlApi Core)

def executeLine (core : Core) (line : Bytes) : Core × RpcResponse :=
  let trimmed := trim (fromUtf8Lossy line)
  if trimmed = [] then
    (core, ⟨.null, .error (.invalidParams "empty request")⟩)
  else
    match api.fromStr trimmed with
    | .ok raw => api.executeValue core raw
    | .error error =>
      (core, ⟨RpcId.extractFromPrefix trimmed,
        .error (.invalidParams ("invalid JSON: " ++ error))⟩)

namespace Connection

variable (s : Connection Core Event)

/-- One received event, to the client. -/
def notify (received : Received Event) : Connection Core Event :=
  match received with
  | .event event => { s with written := s.written ++ [.notification event] }
  | .reliableLagged lost =>
    { s with
      core := api.recordEventGap s.core
      written := s.written ++ [.gap lost] }
  | .lossyLagged _ => s
  | .closed => { s with subscribed := false }

/-- `drain_events`: an empty lane or a closed bus ends it. -/
def drainEvents (s : Connection Core Event) :
    List (Received Event) → Connection Core Event
  | [] => s
  | received :: queued =>
    if s.subscribed then (s.notify api received).drainEvents queued
    else s

/-- Handle a line the reader returned. -/
def serve (line : Bytes) (tooLarge : Bool)
    (queued : List (Received Event)) : Connection Core Event :=
  if tooLarge then
    let response : RpcResponse :=
      ⟨RpcId.extractFromPrefix (fromUtf8Lossy line), .error .tooLarge⟩
    { s with
      reading := .start
      written := s.written ++ [.response response]
      served := s.served ++ [⟨.refuse line, response⟩] }
  else
    let (core, response) := executeLine api s.core line
    let answered : Connection Core Event :=
      { s with
        core
        reading := .start
        written := s.written ++ [.response response]
        served := s.served ++ [⟨.execute line, response⟩] }
    let drained := answered.drainEvents api queued
    if api.isShutdown drained.core then { drained with phase := .shutdown }
    else drained

/-- One input, where it can happen: the wait for a line is polled first,
so the event branch completes only when the reader has to wait. -/
def next : Input Core Event → Option (Connection Core Event)
  | .fill chunk =>
    if s.phase = .serving ∧ s.buffer = [] ∧ chunk ≠ [] then
      some { s with buffer := chunk, sent := s.sent ++ chunk }
    else none
  | .pass queued =>
    if s.phase = .serving ∧ s.buffer ≠ [] then
      match s.reading.pass s.buffer with
      | (reading, some rest) =>
        some ({ s with buffer := rest }.serve api reading.line
          reading.tooLarge queued)
      | (reading, none) => some { s with reading, buffer := [] }
    else none
  | .event received =>
    if s.phase = .serving ∧ s.buffer = [] ∧ s.subscribed = true then
      -- the read in progress is dropped, and the next one starts over
      some { s.notify api received with reading := .start }
    else none
  | .eof queued =>
    if s.phase = .serving ∧ s.buffer = [] then
      if s.reading.tooLarge = false ∧ 0 < s.reading.total then
        -- the next read finds the end at once, whether the host is
        -- shut down by then or not
        some { s.serve api s.reading.line false queued with
          phase := .ended }
      else some { s with phase := .ended }
    else none
  | .outside core =>
    if s.phase = .serving then some { s with core } else none

end Connection

-- ==== the law

/-- The newline-terminated lines of a stream, and what is left. -/
def splitLines : Bytes → List Bytes × Bytes
  | [] => ([], [])
  | b :: rest =>
    match splitLines rest with
    | (lines, tail) =>
      if b = newline then ([b] :: lines, tail)
      else
        match lines with
        | [] => ([], b :: tail)
        | line :: lines => ((b :: line) :: lines, tail)

/-- What is asked for by a line, its newline included. -/
def request (line : Bytes) : Request :=
  if line.length ≤ maxRequestBytes then .execute line
  else .refuse (line.take idPrefixRecoveryBytes)

/-- What is asked for by the end of a stream. -/
def lastRequest (tail : Bytes) : List Request :=
  if tail ≠ [] ∧ tail.length ≤ maxRequestBytes then [.execute tail] else []

/-- What a stream asks for, in order. -/
def requests (stream : Bytes) (ended : Bool) : List Request :=
  (splitLines stream).1.map request
    ++ if ended then lastRequest (splitLines stream).2 else []

def Written.asResponse {Event : Type} : Written Event → Option RpcResponse
  | .response r => some r
  | _ => none

/-- The response is the one the request gets. -/
def Served.Answered (served : Served) : Prop :=
  match served.request with
  | .execute line =>
    ∃ core, served.response = (executeLine api core line).2
  | .refuse kept =>
    served.response
      = ⟨RpcId.extractFromPrefix (fromUtf8Lossy kept), .error .tooLarge⟩

/-- The stream is served: what was handled is what the bytes consumed so
far ask for, each with its response, and nothing is held back at the end
of the stream. -/
structure ServesLines (s : Connection Core Event) : Prop where
  requests : ∃ consumed, s.sent = consumed ++ s.buffer
    ∧ s.served.map Served.request = requests consumed (s.phase == .ended)
  answered : ∀ served ∈ s.served, served.Answered api
  responses : s.written.filterMap Written.asResponse
    = s.served.map Served.response
  ended : s.phase = .ended → s.buffer = []
  shutdown : s.phase = .shutdown → api.isShutdown s.core = true

/-- No event completes the wait when part of a line has been read. -/
def BetweenLines (s : Connection Core Event) : Input Core Event → Prop
  | .event _ => s.reading = .start
  | _ => True

end

-- ==== splitting lines

variable {part : Bytes}

theorem splitLines_append_open (h : newline ∉ part) (st : Bytes) :
    splitLines (st ++ part)
      = ((splitLines st).1, (splitLines st).2 ++ part) := by
  induction st with
  | nil =>
    induction part with
    | nil => rfl
    | cons b part ih =>
      have hb : b ≠ newline := fun heq => h (heq ▸ mem_cons_self)
      have hp := ih fun hmem => h (mem_cons_of_mem b hmem)
      simp only [nil_append] at hp ⊢
      simp [splitLines, hp, hb]
  | cons b rest ih =>
    simp only [cons_append, splitLines, ih]
    split
    · rfl
    · cases (splitLines rest).1 <;> rfl

theorem splitLines_append_newline (st : Bytes) :
    splitLines (st ++ [newline])
      = ((splitLines st).1 ++ [(splitLines st).2 ++ [newline]], []) := by
  induction st with
  | nil => rfl
  | cons b re ih =>
    simp only [cons_append, splitLines, ih]
    split
    · rfl
    · cases (splitLines re).1 <;> rfl

-- ==== reader progress

/-- The reader has read `part` of a line. -/
structure Progress (r : Reading) (part : Bytes) : Prop where
  tooLarge : r.tooLarge = decide (maxRequestBytes < part.length)
  whole : part.length ≤ maxRequestBytes →
    r.line = part ∧ r.total = part.length
  kept : maxRequestBytes < part.length →
    r.line = part.take idPrefixRecoveryBytes

theorem Progress.start : Progress .start [] where
  tooLarge := rfl
  whole _ := ⟨rfl, rfl⟩
  kept h := absurd h (Nat.not_lt_zero _)

theorem take_append_take (n : Nat) (part m : Bytes) :
    (part ++ m.take (n - part.length)).take n = (part ++ m).take n := by
  rw [take_append, take_append, take_take, Nat.min_self]

variable {r : Reading}

theorem Progress.absorb (h : Progress r part) (m : Bytes) :
    Progress (r.absorb m) (part ++ m) := by
  have hlen : (part ++ m).length = part.length + m.length := length_append
  unfold Reading.absorb
  by_cases hl : maxRequestBytes < part.length
  · -- the line was too long before: nothing more is kept of it
    have ht : r.tooLarge = true := by rw [h.tooLarge]; simpa using hl
    have hen : idPrefixRecoveryBytes ≤ part.length :=
      Nat.le_trans (by decide) (Nat.le_of_lt hl)
    rw [if_pos ht]
    refine ⟨?_, fun hs => by omega, fun _ => ?_⟩
    · rw [ht]
      exact (decide_eq_true (by omega)).symm
    · rw [h.kept hl, take_append_of_le_length hen]
  · have hf : r.tooLarge = false := by rw [h.tooLarge]; simpa using hl
    obtain ⟨hln, htt⟩ := h.whole (by omega)
    rw [if_neg (by simp [hf]), htt, hln]
    by_cases hnow : maxRequestBytes < part.length + m.length
    · rw [if_pos hnow]
      refine ⟨?_, fun hs => by omega, fun _ => ?_⟩
      · exact (decide_eq_true (by omega)).symm
      · exact take_append_take idPrefixRecoveryBytes part m
    · rw [if_neg hnow]
      refine ⟨?_, fun _ => ⟨rfl, hlen.symm⟩, fun hl' => by omega⟩
      exact (decide_eq_false (by omega)).symm

theorem Progress.request {l : Bytes} (h : Progress r l) :
    request l = if r.tooLarge then .refuse r.line else .execute r.line := by
  unfold Control.request
  by_cases hl : maxRequestBytes < l.length
  · rw [if_neg (by omega), h.tooLarge, if_pos (decide_eq_true hl), h.kept hl]
  · obtain ⟨hln, -⟩ := h.whole (by omega)
    rw [if_pos (by omega), h.tooLarge, if_neg (by simpa using hl), hln]

theorem exists_line {b : Bytes} {i : Nat}
    (h : b.findIdx? (· = newline) = some i) :
    ∃ f, newline ∉ f ∧ b.take (i + 1) = f ++ [newline] := by
  obtain ⟨hin, hf, hbef⟩ := findIdx?_eq_some_iff_getElem.1 h
  refine ⟨b.take i, fun hm => ?_, ?_⟩
  · obtain ⟨p, hpos, hb⟩ := mem_take_iff_getElem.1 hm
    exact hbef p (by omega) (by simpa using hb)
  · have hb : b[i] = newline := of_decide_eq_true hf
    rw [take_succ_eq_append_getElem hin, hb]

-- ==== one step

variable {Core Event : Type} {api : ControlApi Core}
  {s t : Connection Core Event}

/-- What serving events leaves alone. -/
structure SameServing (s t : Connection Core Event) : Prop where
  buffer : t.buffer = s.buffer
  reading : t.reading = s.reading
  phase : t.phase = s.phase
  sent : t.sent = s.sent
  served : t.served = s.served
  responses : t.written.filterMap Written.asResponse
    = s.written.filterMap Written.asResponse

theorem SameServing.trans {u : Connection Core Event}
    (h : SameServing s t) (h' : SameServing t u) : SameServing s u where
  buffer := h'.buffer.trans h.buffer
  reading := h'.reading.trans h.reading
  phase := h'.phase.trans h.phase
  sent := h'.sent.trans h.sent
  served := h'.served.trans h.served
  responses := h'.responses.trans h.responses

theorem sameServing_notify (s : Connection Core Event)
    (re : Received Event) : SameServing s (s.notify api re) := by
  cases re with
  | event e =>
    exact ⟨rfl, rfl, rfl, rfl, rfl, by
      simp [Connection.notify, Written.asResponse]⟩
  | reliableLagged lost =>
    exact ⟨rfl, rfl, rfl, rfl, rfl, by
      simp [Connection.notify, Written.asResponse]⟩
  | lossyLagged skipped => exact ⟨rfl, rfl, rfl, rfl, rfl, rfl⟩
  | closed => exact ⟨rfl, rfl, rfl, rfl, rfl, rfl⟩

theorem sameServing_drainEvents (q : List (Received Event))
    (s : Connection Core Event) :
    SameServing s (s.drainEvents api q) := by
  induction q generalizing s with
  | nil => exact ⟨rfl, rfl, rfl, rfl, rfl, rfl⟩
  | cons re q ih =>
    unfold Connection.drainEvents
    split
    · exact (sameServing_notify s re).trans (ih _)
    · exact ⟨rfl, rfl, rfl, rfl, rfl, rfl⟩

/-- What handling a line does to a connection that serves. -/
structure Handles (s t : Connection Core Event) (asked : Request) :
    Prop where
  buffer : t.buffer = s.buffer
  sent : t.sent = s.sent
  reading : t.reading = .start
  phase : t.phase = .serving
    ∨ t.phase = .shutdown ∧ api.isShutdown t.core = true
  served : ∃ response, Served.Answered api ⟨asked, response⟩
    ∧ t.served = s.served ++ [⟨asked, response⟩]
    ∧ t.written.filterMap Written.asResponse
      = s.written.filterMap Written.asResponse ++ [response]

theorem handles_serve (hphase : s.phase = .serving) (line : Bytes)
    (tl : Bool) (queued : List (Received Event)) :
    @Handles _ _ api s (s.serve api line tl queued)
      (if tl then .refuse line else .execute line) := by
  cases tl with
  | true =>
    refine ⟨rfl, rfl, rfl, .inl hphase, _, rfl, rfl, ?_⟩
    simp [Connection.serve, Written.asResponse]
  | false =>
    let answered : Connection Core Event :=
      { s with
        core := (executeLine api s.core line).1
        reading := .start
        written := s.written ++ [.response (executeLine api s.core line).2]
        served := s.served
          ++ [⟨.execute line, (executeLine api s.core line).2⟩] }
    have hd := @sameServing_drainEvents _ _ api queued answered
    have hr : answered.written.filterMap Written.asResponse
        = s.written.filterMap Written.asResponse
          ++ [(executeLine api s.core line).2] := by
      simp [answered, Written.asResponse]
    have hs : s.serve api line false queued
        = if api.isShutdown (answered.drainEvents api queued).core then
            { answered.drainEvents api queued with phase := .shutdown }
          else answered.drainEvents api queued := rfl
    have hans : Served.Answered api
        ⟨.execute line, (executeLine api s.core line).2⟩ :=
      ⟨s.core, rfl⟩
    rw [hs]
    split
    · next hdw =>
      exact ⟨hd.buffer, hd.sent, hd.reading,
        .inr ⟨rfl, hdw⟩, _, hans, hd.served,
        hd.responses.trans hr⟩
    · exact ⟨hd.buffer, hd.sent, hd.reading,
        .inl (hd.phase.trans hphase), _, hans, hd.served,
        hd.responses.trans hr⟩

-- ==== the invariant

/-- The law, with the progress of the reader. -/
structure Framed (api : ControlApi Core) (s : Connection Core Event) :
    Prop where
  consumed : ∃ consumed, s.sent = consumed ++ s.buffer
    ∧ s.served.map Served.request = requests consumed (s.phase == .ended)
    ∧ (s.phase = .serving → Progress s.reading (splitLines consumed).2)
  answered : ∀ served ∈ s.served, served.Answered api
  responses : s.written.filterMap Written.asResponse
    = s.served.map Served.response
  ended : s.phase = .ended → s.buffer = []
  shutdown : s.phase = .shutdown → api.isShutdown s.core = true

namespace Framed

section

variable (h : Framed api s)
include h

theorem servesLines : ServesLines api s where
  requests := by
    obtain ⟨c, hs, hr, -⟩ := h.consumed
    exact ⟨c, hs, hr⟩
  answered := h.answered
  responses := h.responses
  ended := h.ended
  shutdown := h.shutdown

omit h in
theorem start (c : Core) (se : Bool) :
    Framed api (.start c se : Connection Core Event) where
  consumed := ⟨[], rfl, rfl, fun _ => .start⟩
  answered _ h := absurd h not_mem_nil
  responses := rfl
  ended _ := rfl
  shutdown h := nomatch h

theorem answered_append {a : Request}
    (ho : ∃ re, Served.Answered api ⟨a, re⟩
      ∧ t.served = s.served ++ [⟨a, re⟩]
      ∧ t.written.filterMap Written.asResponse
        = s.written.filterMap Written.asResponse ++ [re]) :
    (∀ se ∈ t.served, se.Answered api)
      ∧ t.written.filterMap Written.asResponse
        = t.served.map Served.response := by
  obtain ⟨re, ha, hs, hr⟩ := ho
  constructor
  · intro se hm
    rw [hs] at hm
    rcases mem_append.1 hm with hm | hm
    · exact h.answered se hm
    · rw [mem_singleton.1 hm]
      exact ha
  · rw [hr, hs, h.responses]
    simp

theorem fill (hb : s.buffer = [])
    (hphase : s.phase = .serving) (ch : Bytes) :
    Framed api { s with buffer := ch, sent := s.sent ++ ch } where
  consumed := by
    obtain ⟨c, hs, hr⟩ := h.consumed
    rw [hb, append_nil] at hs
    exact ⟨c, by rw [hs], hr⟩
  answered := h.answered
  responses := h.responses
  ended hen := nomatch hphase.symm.trans hen
  shutdown := h.shutdown

section

variable (hphase : s.phase = .serving)
include hphase

theorem passOpen (ho : newline ∉ s.buffer) :
    Framed api { s with
      reading := s.reading.absorb s.buffer, buffer := [] } where
  consumed := by
    obtain ⟨c, hsn, hr, hp⟩ := h.consumed
    have hs := splitLines_append_open ho c
    refine ⟨c ++ s.buffer, by rw [hsn, append_nil], ?_, fun _ => ?_⟩
    · rw [hphase] at hr
      simpa [Control.requests, hs, hphase] using hr
    · rw [hs]
      exact (hp hphase).absorb s.buffer
  answered := h.answered
  responses := h.responses
  ended _ := rfl
  shutdown := h.shutdown

theorem passLine
    {i : Nat} (hin : s.buffer.findIdx? (· = newline) = some i)
    (q : List (Received Event)) :
    let r := s.reading.absorb (s.buffer.take (i + 1))
    Framed api (Connection.serve api
      { s with buffer := s.buffer.drop (i + 1) } r.line r.tooLarge
      q) := by
  intro r
  obtain ⟨c, hsn, hrq, hp⟩ := h.consumed
  obtain ⟨front, ho, hf⟩ := exists_line hin
  have hrd := (hp hphase).absorb (s.buffer.take (i + 1))
  have hs : splitLines (c ++ s.buffer.take (i + 1))
      = ((splitLines c).1
        ++ [(splitLines c).2 ++ s.buffer.take (i + 1)], []) := by
    rw [hf, ← append_assoc, splitLines_append_newline,
      splitLines_append_open ho, append_assoc]
  have hh := @handles_serve _ _ api
    { s with buffer := s.buffer.drop (i + 1) } hphase r.line r.tooLarge
    q
  rw [← hrd.request] at hh
  obtain ⟨ha, hr⟩ := h.answered_append hh.served
  have hen : (Connection.serve api
      { s with buffer := s.buffer.drop (i + 1) } r.line r.tooLarge
      q).phase ≠ .ended := by
    intro hen
    rcases hh.phase with hphase | ⟨hphase, -⟩
    · exact nomatch hphase.symm.trans hen
    · exact nomatch hphase.symm.trans hen
  refine ⟨⟨c ++ s.buffer.take (i + 1), ?_, ?_, fun _ => ?_⟩,
    ha, hr, fun hphase => absurd hphase hen,
    fun hd => ?_⟩
  · rw [hh.sent, hh.buffer, append_assoc,
      take_append_drop]
    exact hsn
  · obtain ⟨response, -, hsr, -⟩ := hh.served
    have hp' : (s.phase == .ended) = false := by rw [hphase]; rfl
    rw [hsr, map_append, hrq, hp', beq_eq_false_iff_ne.2 hen]
    simp [Control.requests, hs]
  · rw [hs, hh.reading]
    exact .start
  · rcases hh.phase with hphase | ⟨-, hd'⟩
    · exact nomatch hphase.symm.trans hd
    · exact hd'

theorem event (hrdg : s.reading = .start) (re : Received Event) :
    Framed api { s.notify api re with reading := .start } := by
  obtain ⟨c, hsn, hr, hp⟩ := h.consumed
  have hs := @sameServing_notify _ _ api s re
  refine ⟨⟨c, ?_, ?_, ?_⟩, ?_, ?_, ?_, ?_⟩
  · rw [hs.sent, hs.buffer, hsn]
  · rw [hs.served, hs.phase, hr]
  · intro hphase
    rw [hs.phase] at hphase
    exact hrdg ▸ hp hphase
  · rw [hs.served]
    exact h.answered
  · rw [hs.responses, hs.served]
    exact h.responses
  · rw [hs.phase, hs.buffer]
    exact h.ended
  · intro hd
    exact nomatch (hs.phase.trans hphase).symm.trans hd

theorem eofLine
    (hb : s.buffer = []) (hsh : s.reading.tooLarge = false)
    (ht : 0 < s.reading.total) (q : List (Received Event)) :
    Framed api { s.serve api s.reading.line false q with
      phase := .ended } := by
  obtain ⟨c, hsn, hrq, hp⟩ := h.consumed
  have hr := hp hphase
  have hlen : (splitLines c).2.length ≤ maxRequestBytes := by
    have hnot := hr.tooLarge.symm.trans hsh
    simpa using hnot
  obtain ⟨hl, ht'⟩ := hr.whole hlen
  have hne : (splitLines c).2 ≠ [] := by
    rw [← length_pos_iff]
    omega
  have hh := @handles_serve _ _ api s hphase s.reading.line false q
  obtain ⟨ha, hrs⟩ := h.answered_append hh.served
  refine ⟨⟨c, ?_, ?_, nofun⟩, ha, hrs, fun _ => hh.buffer.trans hb, nofun⟩
  · rw [hh.sent, hh.buffer, hsn]
  · obtain ⟨response, -, hs, -⟩ := hh.served
    have hp' : (s.phase == .ended) = false := by rw [hphase]; rfl
    rw [hs, map_append, hrq, hp']
    simp [Control.requests, lastRequest, hne, hlen, hl]

theorem eofEmpty (hb : s.buffer = [])
    (hn : ¬ (s.reading.tooLarge = false ∧ 0 < s.reading.total)) :
    Framed api { s with phase := .ended } := by
  obtain ⟨c, hs, hrq, hp⟩ := h.consumed
  have hr := hp hphase
  have hl : lastRequest (splitLines c).2 = [] := by
    unfold lastRequest
    rw [if_neg]
    rintro ⟨hne, hlen⟩
    obtain ⟨-, ht⟩ := hr.whole hlen
    apply hn
    constructor
    · rw [hr.tooLarge]
      simpa using hlen
    · rw [ht]
      exact length_pos_iff.2 hne
  refine ⟨⟨c, hs, ?_, nofun⟩, h.answered, h.responses, fun _ => hb, nofun⟩
  have hp' : (s.phase == .ended) = false := by rw [hphase]; rfl
  rw [hrq, hp']
  simp [Control.requests, hl]

end

end

theorem next {i : Input Core Event} (h : Framed api s)
    (hb : BetweenLines s i)
    (hn : s.next api i = some t) : Framed api t := by
  cases i with
  | fill c =>
    simp only [Connection.next] at hn
    split at hn
    · next hr =>
      cases hn
      exact h.fill hr.2.1 hr.1 c
    · cases hn
  | pass q =>
    simp only [Connection.next, Reading.pass] at hn
    split at hn
    · next hr =>
      cases hf : s.buffer.findIdx? (· = newline) with
      | some index =>
        simp only [hf, Option.some.injEq] at hn
        rw [← hn]
        exact h.passLine hr.1 hf q
      | none =>
        simp only [hf, Option.some.injEq] at hn
        rw [← hn]
        refine h.passOpen hr.1 fun hmem => ?_
        have hno := findIdx?_eq_none_iff.1 hf newline hmem
        simp at hno
    · cases hn
  | event re =>
    simp only [Connection.next] at hn
    split at hn
    · next hr =>
      cases hn
      exact h.event hr.1 hb re
    · cases hn
  | eof q =>
    simp only [Connection.next] at hn
    split at hn
    · next hr =>
      split at hn
      · next hl =>
        cases hn
        exact h.eofLine hr.1 hr.2 hl.1 hl.2 q
      · next hnn =>
        cases hn
        exact h.eofEmpty hr.1 hr.2 hnn
    · cases hn
  | outside core =>
    simp only [Connection.next] at hn
    split at hn
    · next hphase =>
      cases hn
      obtain ⟨hc, ha, hrs, hen, -⟩ := h
      exact ⟨hc, ha, hrs, hen, fun hd => nomatch hphase.symm.trans hd⟩
    · cases hn

end Framed

theorem pass_enabled (hphase : s.phase = .serving) (hb : s.buffer ≠ [])
    (q : List (Received Event)) :
    (s.next api (.pass q)).isSome := by
  simp only [Connection.next, if_pos (And.intro hphase hb)]
  split <;> rfl

/-- A host that refuses every request. -/
def refusingApi : ControlApi Unit where
  fromStr _ := .error "expected value"
  executeValue core _ := (core, ⟨.null, .ok .null⟩)
  recordEventGap core := core
  isShutdown _ := false

def isBetweenLines (s : Connection Unit Unit) : Input Unit Unit → Bool
  | .event _ => s.reading = .start
  | _ => true

theorem betweenLines_of_isBetweenLines (s : Connection Unit Unit)
    (input : Input Unit Unit) (h : isBetweenLines s input = true) :
    BetweenLines s input := by
  cases input with
  | event received =>
    have hrdg : s.reading = .start := of_decide_eq_true h
    exact hrdg
  | fill chunk => trivial
  | pass queued => trivial
  | eof queued => trivial
  | outside core => trivial

/-- What a run has asked for. -/
def asked (s : Connection Unit Unit) : List Request :=
  s.served.map Served.request

end TikTools.Control
