/-
Alerts of follows, shares and subscriptions on a widget.

The three controllers are one but for the kind of event they take. An
alert waits in a bounded queue, one is on display at a time, and a timer
hides it and makes room for the next. The timer is an action of the run
that may come at any moment it is pending; `shown` and `hidden` are what
the handlers were told.
-/
import TikTools.Widgets.RecentIds

namespace TikTools.Widgets

open TikTools.Lib List

inductive QueueDropPolicy
  | dropOldest
  | dropNewest

structure AlertQueue (α : Type) where
  capacity : Nat
  policy : QueueDropPolicy
  items : List α := []

/-- The queue with one more, and what it gave up for it. -/
def AlertQueue.enqueue {α : Type} (queue : AlertQueue α) (alert : α) :
    AlertQueue α × List α :=
  if queue.items.length < queue.capacity then
    ({ queue with items := queue.items ++ [alert] }, [])
  else match queue.policy with
    | .dropNewest => (queue, [alert])
    | .dropOldest => ({ queue with items := queue.items.tail ++ [alert] },
      queue.items.take 1)

inductive LiveEventKind
  | follow
  | gift
  | chat
  | share
  | subscribe
  | like
deriving DecidableEq

structure Alert where
  id : String
  displayName : String
  uniqueId : String
  avatarUrl : Option String
deriving DecidableEq

/-- What `routeLiveEvent` makes of an envelope: the alert goes by the
event's id and by `displayNameFor` and `handleFor` of its user, and
`identity` is its `eventIdentity`. -/
structure RoutedLiveEvent where
  kind : LiveEventKind
  identity : String
  isHistory : Bool
  alert : Alert

structure AlertOptions where
  queueCapacity : Nat := 100
  queuePolicy : QueueDropPolicy := .dropOldest
  recentCapacity : Nat := 1000

structure AlertController where
  kind : LiveEventKind
  queue : AlertQueue Alert
  recentIds : RecentEventIds
  current : Option Alert := none
  hideTimer : Bool := false
  shown : List Alert := []
  hidden : List String := []
  accepted : List Alert := []
  lost : List Alert := []

inductive AlertHandleResult
  | shown | queued | ignored | history | duplicate
deriving DecidableEq

namespace AlertController

def new (kind : LiveEventKind) (o : AlertOptions) : AlertController where
  kind
  queue := { capacity := o.queueCapacity, policy := o.queuePolicy }
  recentIds := { capacity := o.recentCapacity }

variable (c : AlertController)

def pump : AlertController :=
  if c.current.isSome then c
  else match c.queue.items with
    | [] => c
    | next :: rest => { c with
      queue := { c.queue with items := rest }
      current := some next
      shown := c.shown ++ [next]
      hideTimer := true }

def handleEnvelope (routed : Option RoutedLiveEvent) (now : Int) :
    AlertHandleResult × AlertController :=
  match routed with
  | none => (.ignored, c)
  | some event =>
    if event.kind ≠ c.kind then (.ignored, c)
    else if event.isHistory then (.history, c)
    else
      let added := c.recentIds.add event.identity now
      if !added.1 then (.duplicate, c)
      else
        let wasIdle := c.current.isNone && c.queue.items.isEmpty
        let queued := c.queue.enqueue event.alert
        (if wasIdle then .shown else .queued, pump { c with
          recentIds := added.2
          queue := queued.1
          accepted := c.accepted ++ [event.alert]
          lost := c.lost ++ queued.2 })

/-- Take the alert off the display. -/
def blank : AlertController := { c with
  current := none
  hideTimer := false
  hidden := c.hidden ++ (c.current.map Alert.id).toList }

/-- The callback of the hide timer. -/
def hideTimeout : AlertController :=
  if c.hideTimer then c.blank.pump else c

def clear : AlertController := { c.blank with
  queue := { c.queue with items := [] }
  lost := c.lost ++ c.queue.items }

def dispose : AlertController :=
  { c.clear with recentIds := c.recentIds.clear }

inductive Action
  | envelope (routed : Option RoutedLiveEvent) (now : Int)
  | hideTimeout
  | clear
  | dispose

def next : Action → AlertController
  | .envelope routed now => (c.handleEnvelope routed now).2
  | .hideTimeout => c.hideTimeout
  | .clear => c.clear
  | .dispose => c.dispose

end AlertController

def FollowController := AlertController.new .follow

def ShareController := AlertController.new .share

def SubscribeController := AlertController.new .subscribe

namespace AlertController

variable {c d : AlertController}

/-- Every alert has its place: the places hold what was accepted, and
what was shown and what waits is in the order of acceptance. -/
structure Placed (c : AlertController) : Prop where
  places : c.accepted ~ c.shown ++ c.queue.items ++ c.lost
  order : c.shown ++ c.queue.items <+ c.accepted
  bound : c.queue.items.length ≤ max c.queue.capacity 1

/-- Each alert shown is hidden once before the next. -/
structure Displayed (c : AlertController) : Prop where
  hidden : c.shown.map Alert.id
    = c.hidden ++ (c.current.map Alert.id).toList
  timer : c.hideTimer = c.current.isSome

/-- What alerts promise in every state. -/
structure Law (c : AlertController) : Prop where
  placed : Placed c
  displayed : Displayed c
  idle : c.current = none → c.queue.items = []

theorem Placed.pump (h : Placed c) (hd : Displayed c) : Law c.pump := by
  unfold AlertController.pump
  split
  · next hcur =>
    refine ⟨h, hd, fun hn => ?_⟩
    rw [hn] at hcur
    cases hcur
  next hcur =>
  have hcur : c.current = none := by simpa using hcur
  split
  · next hq => exact ⟨h, hd, fun _ => hq⟩
  next alert rest hq =>
  have hs : c.shown ++ [alert] ++ rest = c.shown ++ c.queue.items := by
    rw [hq, append_assoc]
    rfl
  refine ⟨⟨?_, ?_, ?_⟩, ⟨?_, rfl⟩, by rintro ⟨⟩⟩
  · show _ ~ c.shown ++ [alert] ++ rest ++ c.lost
    rw [hs]
    exact h.places
  · show c.shown ++ [alert] ++ rest <+ _
    rw [hs]
    exact h.order
  · have := h.bound
    rw [hq] at this
    exact Nat.le_of_succ_le this
  · show (c.shown ++ [alert]).map _ = _
    rw [map_append, hd.hidden, hcur]
    simp

theorem enqueue_spec {α : Type} (queue : AlertQueue α) (alert : α) :
    queue.items ++ [alert]
        ~ (queue.enqueue alert).1.items ++ (queue.enqueue alert).2
      ∧ (queue.enqueue alert).1.items <+ queue.items ++ [alert]
      ∧ (queue.items.length ≤ max queue.capacity 1 →
        (queue.enqueue alert).1.items.length
          ≤ max (queue.enqueue alert).1.capacity 1) := by
  unfold AlertQueue.enqueue
  split
  · next hroom =>
    refine ⟨by simp, Sublist.refl _, fun _ => ?_⟩
    show (queue.items ++ [alert]).length ≤ max queue.capacity 1
    rw [length_append, length_singleton]
    omega
  · split
    · exact ⟨Perm.refl _, sublist_append_left _ _, id⟩
    · refine ⟨?_, (tail_sublist _).append (Sublist.refl _),
        fun hlen => ?_⟩
      · show _ ~ queue.items.tail ++ [alert] ++ queue.items.take 1
        cases queue.items with
        | nil => simp
        | cons first rest =>
          exact (perm_append_singleton first (rest ++ [alert])).symm
      · show (queue.items.tail ++ [alert]).length ≤ max queue.capacity 1
        rw [length_append, length_tail, length_singleton]
        omega

theorem Law.next (h : Law c) (a : Action) : Law (c.next a) := by
  have hb : Displayed c.blank := by
    refine ⟨?_, rfl⟩
    show c.shown.map _ = c.hidden ++ _ ++ []
    rw [append_nil]
    exact h.displayed.hidden
  have hc : Law c.clear := by
    refine ⟨⟨?_, ?_, Nat.zero_le _⟩, ⟨hb.hidden, rfl⟩, fun _ => rfl⟩
    · show c.accepted ~ c.shown ++ [] ++ (c.lost ++ c.queue.items)
      rw [append_nil]
      refine h.placed.places.trans ?_
      rw [append_assoc]
      exact perm_append_comm.append_left _
    · show c.shown ++ [] <+ c.accepted
      rw [append_nil]
      exact (sublist_append_left _ _).trans h.placed.order
  cases a with
  | clear => exact hc
  | dispose => exact ⟨⟨hc.placed.places, hc.placed.order, hc.placed.bound⟩,
      ⟨hc.displayed.hidden, hc.displayed.timer⟩, hc.idle⟩
  | hideTimeout =>
    show Law c.hideTimeout
    unfold hideTimeout
    split
    · refine Placed.pump ⟨?_, ?_, ?_⟩ hb
      · exact h.placed.places
      · exact h.placed.order
      · exact h.placed.bound
    · exact h
  | envelope routed now =>
    show Law (c.handleEnvelope routed now).2
    unfold handleEnvelope
    split
    · exact h
    next event =>
    split
    · exact h
    split
    · exact h
    dsimp only
    split
    · exact h
    obtain ⟨hp, hs, hlen⟩ := enqueue_spec c.queue event.alert
    refine Placed.pump ⟨?_, ?_, ?_⟩
      ⟨h.displayed.hidden, h.displayed.timer⟩
    · show c.accepted ++ [event.alert] ~ c.shown ++ _ ++ (c.lost ++ _)
      calc c.accepted ++ [event.alert]
          ~ c.shown ++ c.queue.items ++ c.lost ++ [event.alert] :=
            h.placed.places.append_right _
        _ ~ c.shown ++ (c.queue.items ++ [event.alert]) ++ c.lost := by
            simp only [append_assoc]
            exact (perm_append_comm.append_left _).append_left _
        _ ~ c.shown ++ (_ ++ _) ++ c.lost :=
            (hp.append_left _).append_right _
        _ ~ _ := by
            simp only [append_assoc]
            exact (perm_append_comm.append_left _).append_left _
    · show c.shown ++ _ <+ c.accepted ++ [event.alert]
      refine (hs.append_left _).trans ?_
      rw [← append_assoc]
      exact h.placed.order.append (Sublist.refl _)
    · exact hlen h.placed.bound

/-- Follow, share and subscribe alerts keep their promises in every
run. -/
theorem alerts_lawful (kind : LiveEventKind) (o : AlertOptions)
    (actions : List Action) : Law (actions.foldl next (new kind o)) := by
  have h0 : Law (new kind o) :=
    ⟨⟨Perm.refl _, Sublist.refl _, Nat.zero_le _⟩, ⟨rfl, rfl⟩, fun _ => rfl⟩
  generalize new kind o = c at h0
  induction actions generalizing c with
  | nil => exact h0
  | cons a rest ih => exact ih (c.next a) (h0.next a)

end AlertController

end TikTools.Widgets
