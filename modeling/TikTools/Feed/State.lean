/-
The feed of the page: the cursors it has seen, the recovery that asks the
host for what was missed, and the rows it stages and commits.

A recovery is an `async` function with one request under way; what it
keeps between two pages is in `Recovery`, and `receive` is what runs when
the reply is there, up to the next request or to its end. The requests
are made by `recoverFeed`; while one runs, a further call leaves a note.

`pushed` and `notices` are history variables: no function reads them. A
notice stands for the cursors of the recovery that inserted it, those
above the first number and up to the second.
-/
import TikTools.Feed.Rows

namespace TikTools.Feed

open TikTools.Lib

def liveIdentityTtlMs : Nat := 300000

def liveIdentityCapacity : Nat := 4096

def maxStagedEvents : Nat := 900

/-- `Number.isSafeInteger`. -/
def isSafeInteger (n : Nat) : Bool := n ≤ maxSafe

/-- Creator, room, type and message. -/
abbrev MessageIdentity := String × String × String × String

def Kind.name : Kind → String
  | .chat => "chat"
  | .gift => "gift"
  | .like => "like"
  | .member => "member"
  | .social => "social"

def liveMessageIdentity (type : String) (msgId : Option String)
    (room creator : String) : Option MessageIdentity :=
  (identifier msgId).map fun message => (creator, room, type, message)

/-- What a recovery keeps while it waits for a page. -/
structure Recovery where
  generation : Nat
  page : Nat
  after : Nat
  deriving DecidableEq, Repr

structure LiveFeed where
  systemAuthor : String
  seenMsgIds : List (MessageIdentity × Nat)
  seenCursors : List Nat
  recoveryGeneration : Nat
  recovery : Option Recovery
  recoveryRequested : Bool
  recoveryAfter : Option Nat
  unjournaledSuspended : Nat
  needsCursorSort : Bool
  sessionScope : Option (String × String)
  session : Session
  events : List DisplayEvent
  staged : List DisplayEvent
  nextEventId : Nat
  disposed : Bool
  presentationActive : Bool
  lastHostBusDropped : Option Nat
  lastDeliverySequence : Option Nat
  lastFeedCursor : Option Nat
  pushed : List Nat
  notices : List (Nat × Nat)
  deriving DecidableEq, Repr

def createLiveFeedState (systemAuthor : String) : LiveFeed :=
  { systemAuthor
    seenMsgIds := []
    seenCursors := []
    recoveryGeneration := 0
    recovery := none
    recoveryRequested := false
    recoveryAfter := none
    unjournaledSuspended := 0
    needsCursorSort := false
    sessionScope := none
    session := ⟨"", ""⟩
    events := []
    staged := []
    nextEventId := 0
    disposed := false
    presentationActive := true
    lastHostBusDropped := none
    lastDeliverySequence := none
    lastFeedCursor := none
    pushed := []
    notices := [] }

/-- Two texts that are both there and differ. -/
def differs (given : Option String) (current : String) : Bool :=
  given.any fun text => text != "" && current != "" && text != current

/-- The event is of another room or creator than the session. -/
def Session.foreign (session : Session) (event : UiEvent) : Bool :=
  differs event.roomId session.room
    || differs event.creatorId session.creator

namespace LiveFeed

-- ==== showing

def stageEvent (s : LiveFeed) (row : DisplayEvent) : LiveFeed :=
  if s.disposed || !s.presentationActive then s
  else
    { s with staged := keepNewest maxStagedEvents (s.staged ++ [row]) }

def tryMergeGiftStreak (s : LiveFeed) (event : UiEvent) (now : Nat) :
    Option LiveFeed :=
  if event.kind ≠ .gift then none
  else
    match mergeStreak s.session s.staged event now with
    | some staged => some { s with staged }
    | none =>
      (mergeStreak s.session s.events event now).map fun events =>
        { s with events }

def tryMergeLikeBurst (s : LiveFeed) (event : UiEvent)
    (cursor : Option Nat) (now : Nat) : Option LiveFeed :=
  match takeBurst s.session s.staged event now with
  | some (candidate, staged) =>
    some { s with
      staged := staged ++ [updatedRow candidate event cursor now] }
  | none =>
    match takeBurst s.session s.events event now with
    | some (candidate, events) =>
      some ({ s with events }.stageEvent
        (updatedRow candidate event cursor now))
    | none => none

/-- What is committed and what is staged, in order. -/
def combined (s : LiveFeed) (now : Nat) : List DisplayEvent :=
  let rows :=
    s.events ++ s.staged.map fun row => { row with receivedAt := now }
  if s.needsCursorSort then sortByCursor rows else rows

def flushStaged (s : LiveFeed) (now : Nat) : LiveFeed :=
  if s.disposed || !s.presentationActive || s.staged.isEmpty then s
  else
    { s with
      staged := []
      events := evictToVisibleLimit (s.combined now)
      needsCursorSort := false }

def resetEvents (s : LiveFeed) : LiveFeed :=
  { s with nextEventId := 0, staged := [], events := [] }

def systemNotice (s : LiveFeed) (now : Nat) : LiveFeed :=
  { s with nextEventId := s.nextEventId + 1 }.stageEvent
    { kind := .member
      author := s.systemAuthor
      sourceType := none
      roomId := none
      creatorId := none
      msgId := none
      feedCursor := none
      giftDetails := none
      likeUserTotal := none
      likeViewerKey := none
      id := s.nextEventId
      receivedAt := now }

/-- The two numbers are for the history only. -/
def insertDiscontinuity (s : LiveFeed) (after upTo now : Nat) : LiveFeed :=
  { s with notices := s.notices ++ [(after, upTo)] }.systemNotice now

-- ==== pushing

def withCursor (s : LiveFeed) (cursor : Nat) : LiveFeed :=
  { s with
    seenCursors := keepNewest liveIdentityCapacity (s.seenCursors ++ [cursor])
    needsCursorSort := s.needsCursorSort
      || s.lastFeedCursor.any (cursor < ·)
    lastFeedCursor := some (max (s.lastFeedCursor.getD 0) cursor)
    pushed := s.pushed ++ [cursor] }

/-- A cursor is noted; one that was seen is not. -/
def noteCursor (s : LiveFeed) (cursor : Nat) : Option LiveFeed :=
  if cursor ∈ s.seenCursors then none else some (s.withCursor cursor)

/-- A message without a cursor is known by its identity, for a time. -/
def noteMessage (s : LiveFeed) (event : UiEvent) (now : Nat) :
    Option LiveFeed :=
  match liveMessageIdentity (event.sourceType.getD event.kind.name)
      event.msgId (event.roomId.getD s.session.room)
      (event.creatorId.getD s.session.creator) with
  | none => some s
  | some identity =>
    if s.seenMsgIds.any fun seen =>
        seen.1 == identity && now - seen.2 < liveIdentityTtlMs then none
    else
      let kept := s.seenMsgIds.filter (·.1 != identity) ++ [(identity, now)]
      some { s with
        seenMsgIds := keepNewest liveIdentityCapacity kept }

def present (s : LiveFeed) (event : UiEvent) (cursor : Option Nat)
    (now : Nat) : LiveFeed :=
  match s.tryMergeGiftStreak event now with
  | some merged => merged
  | none =>
    match s.tryMergeLikeBurst event cursor now with
    | some merged => merged
    | none =>
      { s with nextEventId := s.nextEventId + 1 }.stageEvent
        { event with
          feedCursor := cursor, id := s.nextEventId, receivedAt := now }

def pushFeedEvent (s : LiveFeed) (event : UiEvent) (cursor : Option Nat)
    (now : Nat) : LiveFeed :=
  if s.disposed then s
  else if !s.presentationActive then
    if cursor.isNone then
      { s with unjournaledSuspended := s.unjournaledSuspended + 1 }
    else s
  else if s.session.foreign event then s
  else
    match cursor.elim (s.noteMessage event now) s.noteCursor with
    | none => s
    | some noted => noted.present event cursor now

-- ==== recovery

def recoverFeed (s : LiveFeed) : LiveFeed :=
  if s.recovery.isSome then { s with recoveryRequested := true }
  else
    let after := (s.recoveryAfter.or s.lastFeedCursor).getD 0
    { s with
      recoveryAfter := some after
      recovery := some
        { generation := s.recoveryGeneration, page := 0, after } }

/-- The `finally` of a recovery. -/
def finishRecovery (s : LiveFeed) : LiveFeed :=
  let s := { s with recovery := none }
  if s.recoveryRequested && !s.disposed && s.presentationActive then
    { s with recoveryRequested := false }.recoverFeed
  else s

def lastPage : Nat := 15

/-- The next request, or the end after so many pages. -/
def nextPage (s : LiveFeed) (recovery : Recovery) (after : Nat) :
    LiveFeed :=
  if recovery.page = lastPage then s.finishRecovery
  else
    { s with
      recovery := some { recovery with page := recovery.page + 1, after } }

/-- The entries of a page that are pushed. -/
def entriesAfter (page : FeedBackfill) (after : Nat) :
    List FeedEntry :=
  page.events.filter fun entry =>
    isSafeInteger entry.cursor && after < entry.cursor

def pushEntries (s : LiveFeed) (entries : List FeedEntry) (now : Nat) :
    LiveFeed :=
  entries.foldl (fun s entry =>
    s.pushFeedEvent entry.event (some entry.cursor) now) s

/-- The highest cursor of the entries. -/
def furthest (after : Nat) (entries : List FeedEntry) : Nat :=
  entries.foldl (fun next entry => max next entry.cursor) after

/-- The host's journal ends before the cursor: it was started anew. -/
def restarted (s : LiveFeed) (recovery : Recovery) (now : Nat) : LiveFeed :=
  ({ s with
      seenCursors := []
      lastFeedCursor := none
      recoveryAfter := some 0 }.insertDiscontinuity 0 0 now).nextPage
    recovery 0

def receivePage (s : LiveFeed) (recovery : Recovery) (page : FeedBackfill)
    (now : Nat) : LiveFeed :=
  if page.latestCursor < recovery.after then s.restarted recovery now
  else
    let s :=
      if 0 < s.unjournaledSuspended then
        { s with unjournaledSuspended := 0 }.insertDiscontinuity 0 0 now
      else s
    let entries := entriesAfter page recovery.after
    let next := furthest recovery.after entries
    let s := s.pushEntries entries now
    let s :=
      if page.gap then s.insertDiscontinuity recovery.after next now else s
    if !page.truncated then
      (if s.recoveryRequested then s
        else { s with recoveryAfter := none }).finishRecovery
    else if next ≤ recovery.after ∨ recovery.page = lastPage then
      (s.insertDiscontinuity recovery.after
        (max next (s.lastFeedCursor.getD 0)) now).finishRecovery
    else { s with recoveryAfter := some next }.nextPage recovery next

/-- The reply of a request, or its failure. -/
def receive (s : LiveFeed) (reply : Except Unit FeedBackfill) (now : Nat) :
    LiveFeed :=
  match s.recovery with
  | none => s
  | some recovery =>
    if s.disposed || !s.presentationActive
        || recovery.generation != s.recoveryGeneration then
      s.finishRecovery
    else
      match reply with
      | .error _ =>
        (s.insertDiscontinuity recovery.after
          (s.lastFeedCursor.getD 0) now).finishRecovery
      | .ok page => s.receivePage recovery page now

-- ==== handlers

/-- `onGap`, and what the host's statistics come to. -/
def recoverVisible (s : LiveFeed) : LiveFeed :=
  if !s.disposed && s.presentationActive then s.recoverFeed else s

def projectionStats (s : LiveFeed) (feedForwarded feedBusDropped :
    Option Nat) : LiveFeed :=
  let s := { s with
    lastDeliverySequence := s.lastDeliverySequence.or feedForwarded }
  let s :=
    if s.lastDeliverySequence.any fun last => feedForwarded.any (last < ·)
    then s.recoverVisible else s
  match feedBusDropped with
  | none => s
  | some dropped =>
    let before := s.lastHostBusDropped.getD dropped
    let s := if before < dropped then s.recoverVisible else s
    { s with lastHostBusDropped := some dropped }

def setPresentationActive (s : LiveFeed) (active : Bool) (now : Nat) :
    LiveFeed :=
  if s.disposed || active == s.presentationActive then s
  else
    let s := if active then s else s.flushStaged now
    let s := { s with
      presentationActive := active
      recoveryGeneration := s.recoveryGeneration + 1 }
    if active then s.recoverFeed else { s with staged := [] }

def liveConnected (s : LiveFeed) (uniqueId roomId : String) : LiveFeed :=
  if s.sessionScope = some (uniqueId, roomId) then s
  else
    { s with
      seenMsgIds := []
      seenCursors := []
      sessionScope := some (uniqueId, roomId)
      session := ⟨roomId, uniqueId⟩
      recoveryGeneration := s.recoveryGeneration + 1
      recoveryAfter := none }

def noteSequence (s : LiveFeed) (sequence : Option Nat) : LiveFeed :=
  match sequence.filter isSafeInteger with
  | some n =>
    let last := max (s.lastDeliverySequence.getD 0) n
    { s with lastDeliverySequence := some last }
  | none => s

/-- A gap above the last cursor: the next recovery asks from there, or
from where it would ask anyway. -/
def lowerFloor (s : LiveFeed) : LiveFeed :=
  let previous := s.lastFeedCursor.getD 0
  let floor := min (s.recoveryAfter.getD previous) previous
  { s with recoveryAfter := some floor }

def liveUiEvent (s : LiveFeed) (event : UiEvent)
    (sequence cursor : Option Nat) (now : Nat) : LiveFeed :=
  let s := s.noteSequence sequence
  let cursor := (cursor.or event.feedCursor).filter isSafeInteger
  let gap := cursor.any fun c => s.lastFeedCursor.any (· + 1 < c)
  let s := (if gap then s.lowerFloor else s).pushFeedEvent event cursor now
  if gap && s.presentationActive then s.recoverFeed else s

def refresh (s : LiveFeed) : LiveFeed :=
  if s.lastFeedCursor.isNone then s.recoverFeed else s

def dispose (s : LiveFeed) : LiveFeed :=
  { s with
    disposed := true, seenMsgIds := [], seenCursors := [], staged := [] }

end LiveFeed
end TikTools.Feed
