/-
The rows of the feed: what stands for one viewer's gift streak or burst
of likes, the order the rows are brought into, and which of them go when
there are too many.

A row that stands for several events carries the cursor of one of them.
Only the rows with a cursor are ever sorted; system notices keep their
places (`cursors_sortByCursor`).
-/
import Mathlib.Data.List.Sort
import Mathlib.Logic.Function.Iterate
import TikTools.Feed.Journal

namespace TikTools.Feed

open TikTools.Lib List Option

/-- What the feed shows of an event, or of a system notice. -/
structure DisplayEvent extends UiEvent where
  id : Nat
  receivedAt : Nat
  deriving DecidableEq, Repr

/-- Where the page takes itself to be; empty while it does not know. -/
structure Session where
  room : String
  creator : String
  deriving DecidableEq, Repr

/-- A text that identifies something: not blank and not all zeros. -/
def identifier (text : Option String) : Option String :=
  let trimmed := jsTrim (text.getD "").toList
  if trimmed.all (· == '0') then none else some (String.ofList trimmed)

-- ==== streaks

def giftGroupKey (session : Session) (event : UiEvent) :
    Option (List String) := do
  let details ← event.giftDetails
  let group ← identifier details.groupId
  let giftId ← identifier details.giftId
  some [event.roomId.getD session.room,
    event.creatorId.getD session.creator, event.author, giftId, group]

def applyGiftProgress (target : DisplayEvent) (update : UiEvent)
    (now : Nat) : DisplayEvent :=
  let old := target.giftDetails
  let new := update.giftDetails
  { target with
    giftDetails := some
      { giftId := (new.bind (·.giftId)).or (old.bind (·.giftId))
        groupId := (new.bind (·.groupId)).or (old.bind (·.groupId)) }
    msgId := update.msgId.or target.msgId
    receivedAt := now }

/-- The last item that meets a condition, with what is around it. -/
def splitLast {α : Type} (p : α → Bool) :
    List α → Option (List α × α × List α)
  | [] => none
  | a :: rest =>
    match splitLast p rest with
    | some (before, found, after) => some (a :: before, found, after)
    | none => if p a then some ([], a, rest) else none

theorem splitLast_eq_some {α : Type} {p : α → Bool} {l before after : List α}
    {found : α} (h : splitLast p l = some (before, found, after)) :
    l = before ++ found :: after := by
  induction l generalizing before with
  | nil => cases h
  | cons a rest ih =>
    unfold splitLast at h
    split at h
    · next b f r hs =>
      cases h
      rw [ih hs]
      rfl
    · split at h
      · cases h
        rfl
      · cases h

/-- The row an event of a streak goes on with is replaced. -/
def mergeStreak (session : Session) (rows : List DisplayEvent)
    (event : UiEvent) (now : Nat) : Option (List DisplayEvent) := do
  let key ← giftGroupKey session event
  let (before, found, after) ← splitLast (fun row => row.kind == .gift
    && giftGroupKey session row.toUiEvent == some key) rows
  some (before ++ applyGiftProgress found event now :: after)

-- ==== bursts

def likeBurstWindowMs : Nat := 3000

def likeGroupKey (session : Session) (event : UiEvent) :
    Option (List String) := do
  if event.kind ≠ .like then none
  let viewer ← event.likeViewerKey
  let total ← event.likeUserTotal
  if viewer = "" ∨ maxSafe < total ∨ total = 0 then none
  some [event.creatorId.getD session.creator,
    event.roomId.getD session.room, viewer]

def canMerge (session : Session) (key : List String) (event : UiEvent)
    (now : Nat) (candidate : DisplayEvent) : Bool :=
  likeGroupKey session candidate.toUiEvent == some key
    && candidate.receivedAt ≤ now
    && now - candidate.receivedAt ≤ likeBurstWindowMs
    && (candidate.likeUserTotal.any fun before =>
      event.likeUserTotal.any (before < ·))

/-- What the new event does not say is kept from the row. -/
def updatedRow (candidate : DisplayEvent) (event : UiEvent)
    (cursor : Option Nat) (now : Nat) : DisplayEvent :=
  { kind := event.kind
    author := event.author
    sourceType := event.sourceType.or candidate.sourceType
    roomId := event.roomId.or candidate.roomId
    creatorId := event.creatorId.or candidate.creatorId
    msgId := event.msgId.or candidate.msgId
    feedCursor := (cursor.or event.feedCursor).or candidate.feedCursor
    giftDetails := event.giftDetails.or candidate.giftDetails
    likeUserTotal := event.likeUserTotal.or candidate.likeUserTotal
    likeViewerKey := event.likeViewerKey.or candidate.likeViewerKey
    id := candidate.id
    receivedAt := now }

/-- The row a burst goes on with is taken out. -/
def takeBurst (session : Session) (rows : List DisplayEvent)
    (event : UiEvent) (now : Nat) :
    Option (DisplayEvent × List DisplayEvent) := do
  let key ← likeGroupKey session event
  let (before, found, after) ← splitLast (canMerge session key event now) rows
  some (found, before ++ after)

-- ==== order

/-- The cursors of the rows that have one. -/
def cursors (rows : List DisplayEvent) : List Nat :=
  rows.filterMap (·.feedCursor)

/-- The rows with a cursor are put back in another order. -/
def placeOrdered : List DisplayEvent → List DisplayEvent →
    List DisplayEvent
  | _, [] => []
  | ordered, row :: rest =>
    if row.feedCursor.isSome then
      ordered.headD row :: placeOrdered ordered.tail rest
    else row :: placeOrdered ordered rest

def cursorLe (a b : DisplayEvent) : Prop :=
  a.feedCursor.getD 0 ≤ b.feedCursor.getD 0

instance (a b : DisplayEvent) : Decidable (cursorLe a b) :=
  inferInstanceAs (Decidable (_ ≤ _))

instance : Std.Total cursorLe := ⟨fun _ _ => Nat.le_total _ _⟩

instance : IsTrans DisplayEvent cursorLe := ⟨fun _ _ _ => Nat.le_trans⟩

def sortByCursor (rows : List DisplayEvent) : List DisplayEvent :=
  placeOrdered
    ((rows.filter (·.feedCursor.isSome)).insertionSort cursorLe) rows

def maxVisibleFeed : Nat := 300

/-- One row less, a gift only when there is nothing else. -/
def dropVictim (rows : List DisplayEvent) : List DisplayEvent :=
  match rows.findIdx? (·.kind != .gift) with
  | none => rows.tail
  | some victim => rows.eraseIdx victim

def evictToVisibleLimit (rows : List DisplayEvent) : List DisplayEvent :=
  dropVictim^[rows.length - maxVisibleFeed] rows

variable (rows : List DisplayEvent)

theorem dropVictim_sublist :
    (dropVictim rows).Sublist rows := by
  unfold dropVictim
  split
  · exact tail_sublist rows
  · exact eraseIdx_sublist rows _

theorem evictToVisibleLimit_sublist :
    (evictToVisibleLimit rows).Sublist rows := by
  unfold evictToVisibleLimit
  generalize rows.length - maxVisibleFeed = n
  induction n generalizing rows with
  | zero => exact List.Sublist.refl rows
  | succ n ih => exact (ih _).trans (dropVictim_sublist rows)

theorem cursors_cons_some {row : DisplayEvent} {c : Nat}
    (h : row.feedCursor = some c) (rows : List DisplayEvent) :
    cursors (row :: rows) = c :: cursors rows := by
  rw [cursors, filterMap_cons, h]
  rfl

theorem cursors_cons_none {row : DisplayEvent}
    (h : row.feedCursor = none) (rows : List DisplayEvent) :
    cursors (row :: rows) = cursors rows := by
  rw [cursors, filterMap_cons, h]
  rfl

@[simp] theorem cursors_append (rows' : List DisplayEvent) :
    cursors (rows ++ rows') = cursors rows ++ cursors rows' :=
  filterMap_append

variable {rows' : List DisplayEvent}

theorem cursors_sublist {rows : List DisplayEvent} (h : rows.Sublist rows') :
    (cursors rows).Sublist (cursors rows') :=
  h.filterMap _

variable {session : Session} {event : UiEvent} {now : Nat}

theorem cursors_mergeStreak {rows : List DisplayEvent}
    (h : mergeStreak session rows event now = some rows') :
    cursors rows' = cursors rows := by
  obtain ⟨key, -, h⟩ := bind_eq_some_iff.1 h
  obtain ⟨⟨before, found, after⟩, hs, h⟩ := bind_eq_some_iff.1 h
  cases h
  rw [splitLast_eq_some hs]
  simp only [cursors, filterMap_append, filterMap_cons]
  rfl

theorem takeBurst_eq_some {rows rest : List DisplayEvent}
    {found : DisplayEvent}
    (h : takeBurst session rows event now = some (found, rest)) :
    rest.Sublist rows := by
  obtain ⟨key, -, h⟩ := bind_eq_some_iff.1 h
  obtain ⟨⟨before, found, after⟩, hs, h⟩ := bind_eq_some_iff.1 h
  cases h
  rw [splitLast_eq_some hs]
  exact (List.Sublist.refl before).append (sublist_cons_self _ _)

theorem cursors_placeOrdered {rows ordered : List DisplayEvent}
    (hlen : ordered.length = (rows.filter (·.feedCursor.isSome)).length)
    (hsm : ∀ row ∈ ordered, row.feedCursor.isSome) :
    cursors (placeOrdered ordered rows) = cursors ordered := by
  induction rows generalizing ordered with
  | nil => rw [eq_nil_of_length_eq_zero hlen]; rfl
  | cons row rest ih =>
    unfold placeOrdered
    split
    · next hs =>
      rw [filter_cons, if_pos hs, length_cons] at hlen
      obtain ⟨first, ordered, rfl⟩ := exists_cons_of_length_eq_add_one hlen
      have hr := @ih ordered (Nat.succ.inj hlen)
        fun row hrow => hsm row (mem_cons_of_mem _ hrow)
      obtain ⟨c, hc⟩ := isSome_iff_exists.1 (hsm first mem_cons_self)
      show cursors (first :: placeOrdered ordered rest) = _
      rw [cursors_cons_some hc, cursors_cons_some hc, hr]
    · next hs =>
      rw [filter_cons, if_neg hs] at hlen
      rw [cursors_cons_none (not_isSome_iff_eq_none.1 hs)]
      exact ih hlen hsm

theorem cursors_sortByCursor :
    (cursors (sortByCursor rows)).Pairwise (· ≤ ·)
      ∧ (cursors (sortByCursor rows)).Perm (cursors rows) := by
  have hs : ∀ row ∈ (rows.filter
      (·.feedCursor.isSome)).insertionSort cursorLe,
        row.feedCursor.isSome := fun row hrow =>
    (mem_filter.1 ((mem_insertionSort _).1 hrow)).2
  have hp := perm_insertionSort cursorLe (rows.filter (·.feedCursor.isSome))
  have hsr := pairwise_insertionSort cursorLe
    (rows.filter (·.feedCursor.isSome))
  rw [sortByCursor, cursors_placeOrdered (length_insertionSort _ _) hs]
  constructor
  · refine List.Pairwise.filterMap _ (fun a b hle x hx y hy => ?_) hsr
    rw [cursorLe, hx, hy] at hle
    exact hle
  · refine (hp.filterMap _).trans (List.Perm.of_eq ?_)
    rw [filterMap_filter]
    refine filterMap_congr fun row _ => ?_
    cases row.feedCursor <;> rfl

end TikTools.Feed
