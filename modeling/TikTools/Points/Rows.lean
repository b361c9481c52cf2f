/-
Viewer rows: what an award does to a cached row, and what the durable
operations do to the stored one.

Amounts are 64-bit floats in the source. Nothing proved about the
service depends on their arithmetic, so the amounts are a type `P` with
the operations the service applies to them (`Floats P`).

# Ghost state

A row carries `awards`, the sequence numbers of the awards and
adjustments its points are made of: a reset empties it, and it travels
with the points through every snapshot and operation. An adjustment
carries the time it was made at. No function of the service reads
either.
-/
import TikTools.Lib.Checked
import TikTools.Lib.Table

namespace TikTools.Points

open TikTools.Lib Table

-- ==== amounts

/-- The operations on amounts. -/
structure Floats (P : Type) where
  ofNat : Nat → P
  add : P → P → P
  mul : P → P → P
  div : P → P → P
  max : P → P → P
  round : P → P
  lt : P → P → Bool
  isZero : P → Bool
  isFinite : P → Bool
  floorU32 : P → Nat
  roundI64 : P → Int

variable {P : Type} (f : Floats P)

def u32Max : Nat := 4294967295

/-- Addition of 64-bit signed values that stops at the bounds. -/
def saturatingAddI64 (a b : Int) : Int :=
  max (-(i64Max : Int) - 1) (min (i64Max : Int) (a + b))

def roundPoints (value : P) : P :=
  f.div (f.round (f.mul value (f.ofNat 100))) (f.ofNat 100)

def nonnegativeOrOne (value : Option P) : P :=
  (value.filter fun v => f.isFinite v && !f.lt v (f.ofNat 0)).getD (f.ofNat 1)

-- ==== rows

structure ViewerState (P : Type) where
  uniqueId : String
  userId : Option String
  nickname : String
  avatarUrl : Option String
  points : P
  level : Nat
  isSubscriber : Bool
  totalChats : Int
  totalCoins : Int
  totalLikes : Int
  totalShares : Int
  firstSeen : Int
  lastSeen : Int
  awards : List Nat
  deriving DecidableEq

inductive PointAction where
  | chat | gift | like | share | follow | join | manual
  deriving DecidableEq, Repr

namespace PointAction

def asStr : PointAction → String
  | chat => "chat"
  | gift => "gift"
  | like => "like"
  | share => "share"
  | follow => "follow"
  | join => "join"
  | manual => "manual"

end PointAction

structure AwardOptions (P : Type) where
  userId : Option String := none
  nickname : Option String := none
  avatarUrl : Option String := none
  count : Option P := none
  diamondCount : Option P := none
  isSubscriber : Option Bool := none
  customAmount : Option P := none

structure PointsConfig (P : Type) where
  currencyName : String
  pointsPerCoin : P
  pointsPerCoinEnabled : Bool
  pointsPerShare : P
  pointsPerShareEnabled : Bool
  pointsPerChat : P
  pointsPerChatEnabled : Bool
  pointsPerLike : P
  pointsPerLikeEnabled : Bool
  pointsPerFollow : P
  pointsPerFollowEnabled : Bool
  pointsPerJoin : P
  pointsPerJoinEnabled : Bool
  subBonusMultiplier : P
  pointsPerLevel : P

/-- The answer to an award or an adjustment. -/
structure PointAward (P : Type) where
  uniqueId : String
  delta : P
  totalPoints : P
  level : Nat
  currencyName : String

/-- The characters the standard library trims. -/
def isWhitespace (c : Char) : Bool :=
  let n := c.toNat
  (9 ≤ n && n ≤ 13) || n == 32 || n == 133 || n == 160 || n == 5760
    || (8192 ≤ n && n ≤ 8202) || n == 8232 || n == 8233 || n == 8239
    || n == 8287 || n == 12288

def trim (chars : List Char) : List Char :=
  ((chars.dropWhile isWhitespace).reverse.dropWhile isWhitespace).reverse

/-- The identity without surrounding blanks and leading at-signs; an
empty one names nobody. -/
def cleanUniqueId (value : String) : Option String :=
  let cleaned := (trim value.toList).dropWhile (· == '@')
  if cleaned.isEmpty then none else some (String.ofList cleaned)

/-- The points an action earns before the subscriber bonus. -/
def basePoints (config : PointsConfig P) (action : PointAction)
    (options : AwardOptions P) : P :=
  let earned (enabled : Bool) (amount : P) :=
    if enabled then amount else f.ofNat 0
  match action with
  | .manual => options.customAmount.getD (f.ofNat 0)
  | .chat => earned config.pointsPerChatEnabled config.pointsPerChat
  | .gift =>
    earned config.pointsPerCoinEnabled
      (f.mul (nonnegativeOrOne f (options.diamondCount.or options.count))
        config.pointsPerCoin)
  | .like =>
    earned config.pointsPerLikeEnabled
      (f.mul (nonnegativeOrOne f options.count) config.pointsPerLike)
  | .share => earned config.pointsPerShareEnabled config.pointsPerShare
  | .follow => earned config.pointsPerFollowEnabled config.pointsPerFollow
  | .join => earned config.pointsPerJoinEnabled config.pointsPerJoin

/-- The amount awarded: subscribers earn the bonus on a positive
amount. -/
def awardedPoints (config : PointsConfig P) (base : P)
    (isSubscriber : Bool) : P :=
  let bonus := config.subBonusMultiplier
  let awarded :=
    if isSubscriber && f.lt (f.ofNat 0) bonus && f.lt (f.ofNat 0) base then
      f.add base (f.mul base (f.div bonus (f.ofNat 100)))
    else base
  roundPoints f awarded

/-- The points after a change, never below zero. -/
def totalAfter (current delta : P) : P :=
  roundPoints f (f.max (f.add current delta) (f.ofNat 0))

def levelIndex (config : PointsConfig P) (total : P) : Nat :=
  f.floorU32 (f.div total (f.max config.pointsPerLevel (f.ofNat 10)))

def newViewerState (uniqueId : String) (options : AwardOptions P)
    (now : Int) : ViewerState P where
  uniqueId
  userId := options.userId
  nickname := options.nickname.getD uniqueId
  avatarUrl := options.avatarUrl
  points := f.ofNat 0
  level := 1
  isSubscriber := false
  totalChats := 0
  totalCoins := 0
  totalLikes := 0
  totalShares := 0
  firstSeen := now
  lastSeen := now
  awards := []

/-- Counters advance even when the award itself is zero. -/
def updateExistingViewer (state : ViewerState P) (options : AwardOptions P)
    (points : P) (level : Nat) (isSubscriber : Bool)
    (action : PointAction) (now : Int) : ViewerState P :=
  { state with
    userId := options.userId.or state.userId
    nickname := options.nickname.getD state.nickname
    avatarUrl := options.avatarUrl.or state.avatarUrl
    points, level, isSubscriber
    totalChats :=
      if action = .chat then saturatingAddI64 state.totalChats 1
      else state.totalChats
    totalCoins :=
      if action = .gift then saturatingAddI64 state.totalCoins
        (f.roundI64 (nonnegativeOrOne f options.diamondCount))
      else state.totalCoins
    totalLikes :=
      if action = .like then saturatingAddI64 state.totalLikes
        (f.roundI64 (nonnegativeOrOne f options.count))
      else state.totalLikes
    totalShares :=
      if action = .share then saturatingAddI64 state.totalShares 1
      else state.totalShares
    lastSeen := now }

/-- One award on the cached row, if there is one: the new row and the
amount. The level wraps at the top of its type. -/
def awardRow (uniqueId : String) (action : PointAction)
    (options : AwardOptions P) (config : PointsConfig P) (now : Int)
    (seq : Nat) (resident : Option (ViewerState P)) : ViewerState P × P :=
  let subscribed := (resident.map ViewerState.isSubscriber).getD false
  let isSubscriber := options.isSubscriber.getD subscribed
  let awarded := awardedPoints f config (basePoints f config action options)
    isSubscriber
  let current := (resident.map ViewerState.points).getD (f.ofNat 0)
  let total := totalAfter f current awarded
  let level := (levelIndex f config total + 1) % (u32Max + 1)
  let state := resident.getD (newViewerState f uniqueId options now)
  let updated :=
    updateExistingViewer f state options total level isSubscriber action now
  ({ updated with awards := seq :: state.awards }, awarded)

/-- One adjustment of a cached row. The level stops at the top of its
type. -/
def adjustRow (delta : P) (config : PointsConfig P) (now : Int) (seq : Nat)
    (resident : ViewerState P) : ViewerState P :=
  let points := totalAfter f resident.points delta
  { resident with
    points
    level := min (levelIndex f config points + 1) u32Max
    lastSeen := now
    awards := seq :: resident.awards }

def ViewerState.reset (row : ViewerState P) : ViewerState P :=
  { row with points := f.ofNat 0, level := 1, awards := [] }

-- ==== tables

/-- Rows under their identities. -/
structure Rows (P : Type) where
  table : Table String (ViewerState P)
  keyed : ∀ (id : String) (row : ViewerState P),
    table[id]? = some row → row.uniqueId = id

namespace Rows

def empty : Rows P := ⟨∅, by simp⟩

def get (rows : Rows P) (id : String) : Option (ViewerState P) :=
  rows.table[id]?

/-- Store a row under its identity. -/
def put (rows : Rows P) (row : ViewerState P) : Rows P where
  table := rows.table.insert row.uniqueId row
  keyed := by
    intro id other h
    rw [get_insert] at h
    split at h
    · cases h
      assumption
    · exact rows.keyed id other h

def erase (rows : Rows P) (id : String) : Rows P where
  table := rows.table.erase id
  keyed := by
    intro k row h
    rw [get_erase] at h
    split at h
    · cases h
    · exact rows.keyed k row h

/-- The rows of some viewers. -/
def only (rows : Rows P) (ids : List String) : Rows P where
  table := Table.retain (fun id _ => decide (id ∈ ids)) rows.table
  keyed := by
    intro k row h
    rw [get_retain] at h
    exact rows.keyed k row (Option.filter_eq_some_iff.1 h).1

/-- Every row reset. -/
def resetAll (rows : Rows P) : Rows P where
  table := rows.table.map fun _ row => row.reset f
  keyed := by
    intro k row h
    rw [get_map] at h
    obtain ⟨old, hold, rfl⟩ := Option.map_eq_some_iff.1 h
    exact rows.keyed k old hold

/-- The rows as the store holds them at the start: their amounts were
awarded before. -/
def opened (rows : Rows P) : Rows P where
  table := rows.table.map fun _ row => { row with awards := [0] }
  keyed := by
    intro k row h
    rw [get_map] at h
    obtain ⟨old, hold, rfl⟩ := Option.map_eq_some_iff.1 h
    exact rows.keyed k old hold

/-- The row of a viewer reset, if there is one. -/
def resetOne (rows : Rows P) (id : String) : Rows P :=
  match rows.get id with
  | none => rows
  | some row => rows.put (row.reset f)

variable {f} {rows : Rows P} {id : String} {row : ViewerState P}

theorem uniqueId_of_get (h : rows.get id = some row) : row.uniqueId = id :=
  rows.keyed id row h

theorem get_put (rows : Rows P) (row : ViewerState P) (id : String) :
    (rows.put row).get id
      = if row.uniqueId = id then some row else rows.get id :=
  get_insert ..

theorem get_erase (rows : Rows P) (k id : String) :
    (rows.erase k).get id = if k = id then none else rows.get id :=
  Table.get_erase ..

theorem get_only (rows : Rows P) (ids : List String) (id : String) :
    (rows.only ids).get id
      = (rows.get id).filter fun _ => decide (id ∈ ids) :=
  get_retain ..

@[simp] theorem get_resetAll (rows : Rows P) (id : String) :
    (rows.resetAll f).get id = (rows.get id).map (ViewerState.reset f) :=
  get_map ..

theorem get_resetOne (rows : Rows P) (k id : String) :
    (rows.resetOne f k).get id
      = if k = id then (rows.get id).map (ViewerState.reset f)
        else rows.get id := by
  unfold resetOne
  cases hget : rows.get k with
  | none =>
    by_cases e : k = id
    · subst e
      simp [hget]
    · simp [e]
  | some row =>
    have hrow : row.uniqueId = k := uniqueId_of_get hget
    have hk : (row.reset f).uniqueId = k := hrow
    by_cases e : k = id
    · subst e
      simp [get_put, hk, hget]
    · simp [get_put, hk, e]

end Rows

-- ==== durable operations

/-- One durable intent of the service. -/
inductive PointsWriteOp (P : Type) where
  | save (seq : Nat) (viewer : ViewerState P) (reason : String)
      (awarded : P)
  | adjust (seq : Nat) (uniqueId : String) (points : P) (level : Nat)
      (awards : List Nat) (time : Int)
  | reset (seq : Nat) (uniqueId : Option String)

structure Transaction (P : Type) where
  uniqueId : String
  amount : P
  reason : String
  createdAt : Int

/-- The stored rows and the transaction history. -/
structure Durable (P : Type) where
  viewers : Rows P
  transactions : List (Transaction P)

namespace PointsWriteOp

def seq : PointsWriteOp P → Nat
  | save seq .. => seq
  | adjust seq .. => seq
  | reset seq _ => seq

/-- Whether the operation resets a viewer. -/
def resets (id : String) : PointsWriteOp P → Bool
  | reset _ (some uniqueId) => decide (uniqueId = id)
  | reset _ none => true
  | _ => false

/-- Whether the operation writes the row of a viewer. -/
def touches (id : String) : PointsWriteOp P → Bool
  | save _ viewer .. => decide (viewer.uniqueId = id)
  | adjust _ uniqueId .. => decide (uniqueId = id)
  | reset _ (some uniqueId) => decide (uniqueId = id)
  | reset _ none => true

end PointsWriteOp

/-- An upsert keeps what the new row does not know, and the time the
viewer was first seen. -/
def upsert (old : Option (ViewerState P)) (new : ViewerState P) :
    ViewerState P :=
  match old with
  | none => new
  | some old =>
    { new with
      userId := new.userId.or old.userId
      avatarUrl := new.avatarUrl.or old.avatarUrl
      firstSeen := old.firstSeen }

/-- Apply one operation, written at a clock reading. -/
def applyOp (now : Int) (durable : Durable P) :
    PointsWriteOp P → Durable P
  | .save _ viewer reason awarded =>
    { viewers := durable.viewers.put
        (upsert (durable.viewers.get viewer.uniqueId) viewer)
      transactions :=
        if f.isZero awarded then durable.transactions
        else durable.transactions
          ++ [⟨viewer.uniqueId, awarded, reason, now⟩] }
  | .adjust _ uniqueId points level awards _ =>
    match durable.viewers.get uniqueId with
    | none => durable
    | some row =>
      let adjusted := { row with points, level, lastSeen := now, awards }
      { durable with viewers := durable.viewers.put adjusted }
  | .reset _ (some uniqueId) =>
    { viewers := durable.viewers.resetOne f uniqueId
      transactions := durable.transactions
        ++ [⟨uniqueId, f.ofNat 0, "reset", now⟩] }
  | .reset _ none =>
    { viewers := durable.viewers.resetAll f, transactions := [] }

/-- Apply a batch in order. -/
def applyBatch (now : Int) (durable : Durable P)
    (batch : List (PointsWriteOp P)) : Durable P :=
  batch.foldl (applyOp f now) durable

/-- What an operation does to the row of one viewer. -/
def opOn (now : Int) (id : String) (op : PointsWriteOp P)
    (row : Option (ViewerState P)) : Option (ViewerState P) :=
  if op.touches id then
    match op with
    | .save _ viewer .. => some (upsert row viewer)
    | .adjust _ _ points level awards _ =>
      row.map fun row =>
        { row with points, level, lastSeen := now, awards }
    | .reset .. => row.map (ViewerState.reset f)
  else row

variable {f}

@[simp] theorem upsert_uniqueId (old : Option (ViewerState P))
    (new : ViewerState P) : (upsert old new).uniqueId = new.uniqueId := by
  cases old <;> rfl

theorem get_applyOp (now : Int) (d : Durable P)
    (op : PointsWriteOp P) (id : String) :
    (applyOp f now d op).viewers.get id
      = opOn f now id op (d.viewers.get id) := by
  unfold opOn
  cases op with
  | save seq v reason awarded =>
    show (d.viewers.put _).get id = _
    rw [Rows.get_put, upsert_uniqueId]
    by_cases e : v.uniqueId = id
    · subst e
      simp [PointsWriteOp.touches]
    · simp [PointsWriteOp.touches, e]
  | adjust seq ui points level awards time =>
    cases hget : d.viewers.get ui with
    | none =>
      simp only [applyOp, hget]
      by_cases e : ui = id
      · subst e
        simp [hget]
      · simp [PointsWriteOp.touches, e]
    | some row =>
      have hid := Rows.uniqueId_of_get hget
      simp only [applyOp, hget, Rows.get_put, hid]
      by_cases e : ui = id
      · subst e
        simp [PointsWriteOp.touches, hget, hid]
      · simp [PointsWriteOp.touches, e]
  | reset seq ui =>
    cases ui with
    | none => simp [applyOp, PointsWriteOp.touches]
    | some ui =>
      simp only [applyOp, Rows.get_resetOne]
      by_cases e : ui = id <;> simp [PointsWriteOp.touches, e]

theorem get_applyBatch (now : Int) (id : String)
    (b : List (PointsWriteOp P)) :
    ∀ d : Durable P,
      (applyBatch f now d b).viewers.get id
        = b.foldl (fun row op => opOn f now id op row)
          (d.viewers.get id) := by
  induction b with
  | nil =>
    intro d
    rfl
  | cons op b ih =>
    intro d
    unfold applyBatch at ih ⊢
    rw [List.foldl_cons, ih, get_applyOp, List.foldl_cons]

end TikTools.Points
