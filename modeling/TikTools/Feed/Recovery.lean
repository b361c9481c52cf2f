/-
The host and a page that follows its feed: what is published is delivered
or lost, in any order, while a recovery waits for a page and the user
hides the page or moves to another room.

`Recovered` is what a page owes its user; `lawful` says which steps keep
it (`Feed.Recovered`). A room that is changed while a recovery is under
way drops the floor the recovery started from, but not the cursor that
has moved past it, and what lies between is then lost without a notice.
-/
import TikTools.Feed.State
import TikTools.Lib.Runs

namespace TikTools.Feed

open TikTools.Lib

/-- `reply` is on its way to the recovery that waits for it. -/
structure System where
  bus : EventBus
  reply : Option FeedBackfill
  feed : LiveFeed
  deriving DecidableEq, Repr

inductive Action where
  | publish (event : UiEvent)
  /-- some carriers keep the cursor in the payload only -/
  | deliver (cursor : Nat) (outer : Bool) (sequence : Option Nat)
      (now : Nat)
  | answer (limit : Nat)
  | receive (now : Nat)
  | reject (now : Nat)
  | presentation (active : Bool) (now : Nat)
  | connected (uniqueId roomId : String)
  | gapNotified
  | stats (feedForwarded feedBusDropped : Option Nat)
  | refresh
  | frame (now : Nat)
  | liveError (now : Nat)
  | resetEvents
  | dispose
  deriving DecidableEq, Repr

/-- A notice stands in the place of the cursor. -/
def announced (feed : LiveFeed) (c : Nat) : Bool :=
  feed.notices.any fun notice => notice.1 < c && c ≤ notice.2

namespace System

def new (systemAuthor : String) : System :=
  { bus := .new, reply := none, feed := createLiveFeedState systemAuthor }

/-- A handler of a topic, until the feed unsubscribes. -/
def handle (s : System) (handler : LiveFeed → LiveFeed) : Option System :=
  if s.feed.disposed then none
  else some { s with feed := handler s.feed }

def next (s : System) : Action → Option System
  | .publish event => some { s with bus := s.bus.publishDomain event }
  | .deliver cursor outer sequence now =>
    (s.bus.entry cursor).bind fun event =>
      s.handle fun feed => feed.liveUiEvent event sequence
        (if outer then some cursor else none) now
  | .answer limit =>
    match s.feed.recovery, s.reply with
    | some recovery, none =>
      some { s with
        reply := some (s.bus.feedBackfill recovery.after limit) }
    | _, _ => none
  | .receive now =>
    s.reply.map fun page =>
      { s with reply := none, feed := s.feed.receive (.ok page) now }
  | .reject now =>
    if s.feed.recovery.isSome then
      some { s with
        reply := none, feed := s.feed.receive (.error ()) now }
    else none
  | .presentation active now =>
    some { s with feed := s.feed.setPresentationActive active now }
  | .connected uniqueId roomId =>
    s.handle fun feed => feed.liveConnected uniqueId roomId
  | .gapNotified => s.handle fun feed => feed.recoverVisible
  | .stats feedForwarded feedBusDropped =>
    s.handle fun feed =>
      feed.projectionStats feedForwarded feedBusDropped
  | .refresh => some { s with feed := s.feed.refresh }
  | .frame now => some { s with feed := s.feed.flushStaged now }
  | .liveError now => s.handle fun feed => feed.systemNotice now
  | .resetEvents => some { s with feed := s.feed.resetEvents }
  | .dispose => some { s with feed := s.feed.dispose }

-- ==== what is promised

/-- The rows are in the order of their cursors, no cursor was pushed
twice, and while the page is seen and waits for nothing, every event of
its room after the first one seen and up to the last was pushed, or a
notice stands in its place. -/
structure Recovered (s : System) : Prop where
  order : (cursors s.feed.events).Pairwise (· ≤ ·)
  once : ∀ c, s.feed.pushed.count c ≤ 1
  complete : s.feed.disposed = false → s.feed.presentationActive = true →
    s.feed.recovery = none →
    ∀ c event first last, s.bus.entry c = some event →
      s.feed.session.foreign event = false →
      s.feed.pushed.head? = some first → first < c →
      s.feed.lastFeedCursor = some last → c ≤ last →
        s.feed.pushed.count c = 1 ∨ announced s.feed c = true

-- ==== the condition

/-- An event of the room that was neither pushed nor announced. -/
def missing (s : System) (session : Session) (c : Nat) : Bool :=
  ((s.bus.entry c).any fun event => !session.foreign event)
    && !s.feed.pushed.contains c && !announced s.feed c

/-- Nothing is missing above the one cursor and up to the other. -/
def settled (s : System) (session : Session) (above upTo : Nat) : Bool :=
  (List.range' (above + 1) (upTo - above)).all fun c =>
    !s.missing session c

/-- A cursor that was pushed is still among those the feed has seen. -/
def remembers (feed : LiveFeed) (c : Nat) : Bool :=
  !feed.pushed.contains c || feed.seenCursors.contains c

/-- The feed remembers each entry of a page when it comes to it. -/
def remembersAll (feed : LiveFeed) (now : Nat) : List FeedEntry → Bool
  | [] => true
  | entry :: rest =>
    (feed.session.foreign entry.event || remembers feed entry.cursor)
      && remembersAll
        (feed.pushFeedEvent entry.event (some entry.cursor) now) now rest

/-- The recovery has not been abandoned. -/
def current (feed : LiveFeed) (recovery : Recovery) : Bool :=
  !feed.disposed && feed.presentationActive
    && recovery.generation == feed.recoveryGeneration

/-- A page for a recovery from the very start, asked for before anything
was seen, still goes back to the first cursor seen. -/
def reachesBack (s : System) (recovery : Recovery) (page : FeedBackfill) :
    Bool :=
  recovery.after != 0
    || s.feed.pushed.head?.all fun first =>
      page.events.head?.all fun oldest =>
        s.settled s.feed.session first (oldest.cursor - 1)

/-- The room is not changed while one of its events is still missing
below the last cursor, what was pushed is not delivered again after the
feed has forgotten it, and nothing is missing at the lower end. -/
def lawful (s : System) : Action → Bool
  | .publish _ => isSafeInteger (s.bus.published.length + 1)
  | .connected uniqueId roomId =>
    s.feed.sessionScope == some (uniqueId, roomId)
      || s.feed.pushed.head?.all fun first =>
        s.settled ⟨roomId, uniqueId⟩ first (s.feed.lastFeedCursor.getD 0)
  | .deliver c _ _ _ =>
    !s.feed.presentationActive
      || (s.bus.entry c).all fun event =>
        s.feed.session.foreign event
          || (remembers s.feed c
            && (s.feed.lastFeedCursor.isSome
              || s.feed.recoveryAfter.all fun floor =>
                s.settled s.feed.session c floor))
  | .receive now =>
    match s.feed.recovery, s.reply with
    | some recovery, some page =>
      !current s.feed recovery
        || (remembersAll s.feed now page.events
          && s.reachesBack recovery page)
    | _, _ => true
  | _ => true

end System
end TikTools.Feed
