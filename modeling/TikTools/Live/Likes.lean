/-
The like counters of a LIVE: a total for every room and a ranking of its
viewers.

Rooms and ranked viewers share one capacity. What does not fit, or
exceeds 64 bits, is not counted, and the room's status then says that its
figures are incomplete. It keeps saying so (`Degraded.step`): a room that
was refused for want of room is refused for good, since nothing is ever
given back.
-/
import TikTools.Lib.KeySet
import TikTools.Aggregation.Snapshots
import TikTools.Points.Rows

namespace TikTools.Live

open TikTools.Lib TikTools.Aggregation Table Option Nat List

-- ==== the counters

/-- Creator and room. -/
abbrev Scope := String ×ₗ String

structure LikeUser where
  id : Nat
  uniqueId : String
  nickname : String
  avatarUrl : Option String
  deriving DecidableEq, Repr

structure Like where
  scope : Scope
  user : LikeUser
  count : Nat

/-- The name the viewer is ranked under; empty for nobody. -/
def Like.key (like : Like) : String :=
  if like.user.id ≠ 0 then toString like.user.id else like.user.uniqueId

structure LikeIdentity where
  uniqueId : String
  nickname : String
  avatarUrl : Option String
  deriving DecidableEq, Repr

def Like.identity (like : Like) : LikeIdentity where
  uniqueId := (Points.cleanUniqueId like.user.uniqueId).getD like.key
  nickname := like.user.nickname
  avatarUrl := like.user.avatarUrl

/-- The like fields of `LiveTotals`. -/
structure LikeTotals where
  likes : Table Scope Nat := ∅
  likeRankings : Table Scope Aggregation := ∅
  likeParticipants : Nat := 0
  likeIdentities : Table (Scope ×ₗ String) LikeIdentity := ∅
  likeRevision : Nat := 0
  likeDegradedScopes : Table Scope Unit := ∅
  likeUntrackedScopeFailure : Bool := false
  likeUnknownIngressLoss : Bool := false
  untracked : Nat := 0
  likeOverflow : Nat := 0

structure LikeProgress where
  previous : Nat
  total : Nat
  deriving DecidableEq, Repr

/-- What `observe` returns of a like: nothing where it was not counted,
and no viewer part where nobody is named. -/
structure LikeValue where
  global : Option LikeProgress
  user : Option (Option LikeProgress)
  deriving DecidableEq, Repr

structure Leader where
  rank : Nat
  score : Nat
  uniqueId : String
  nickname : String
  userId : String
  avatarUrl : Option String
  deriving DecidableEq, Repr

def likeCapacity : Nat := 4096

def likeWidgetLimit : Nat := 500

namespace LikeTotals

/-- Scopes and ranked viewers together. -/
def held (s : LikeTotals) : Nat := s.likes.size + s.likeParticipants

/-- A change moves the revision on. -/
def revised (s : LikeTotals) (changed : Bool) : LikeTotals :=
  { s with
    likeRevision := if changed then saturatingAdd s.likeRevision 1
      else s.likeRevision }

def score (s : LikeTotals) (scope : Scope) (user : String) : Option Nat :=
  s.likeRankings[scope]?.bind fun ranking => ranking.scores[user]?

/-- The ranking of the scope, empty before its first viewer. -/
def ranking (s : LikeTotals) (scope : Scope) : Aggregation :=
  s.likeRankings[scope]?.getD (.new likeCapacity)

/-- The total of the scope. -/
def countGlobal (like : Like) (s : LikeTotals) :
    Option LikeProgress × LikeTotals :=
  if s.likes[like.scope]? = none ∧ likeCapacity ≤ s.held then
    (none, { s with untracked := s.untracked + 1 })
  else
    let previous := s.likes[like.scope]?.getD 0
    match checkedAdd previous like.count with
    | some next =>
      (some ⟨previous, next⟩,
        { s with likes := s.likes.insert like.scope next })
    | none =>
      (none, { s with
        likes := s.likes.insert like.scope previous
        untracked := s.untracked + 1
        likeOverflow := s.likeOverflow + 1 })

/-- The score of the viewer. -/
def countUser (like : Like) (s : LikeTotals) :
    Option (Option LikeProgress) × LikeTotals :=
  if like.key = "" then (none, s)
  else
    let previous := s.score like.scope like.key
    if previous = none ∧ likeCapacity ≤ s.held then
      (some none, { s with untracked := s.untracked + 1 })
    else if like.count = 0 then
      (some (some ⟨previous.getD 0, previous.getD 0⟩), s)
    else
      match (s.ranking like.scope).apply like.key like.count 1 with
      | .ok next =>
        (some (some ⟨previous.getD 0, next.scores[like.key]?.getD 0⟩),
          { s with
            likeRankings := s.likeRankings.insert like.scope next
            likeParticipants := s.likeParticipants
              + if previous = none then 1 else 0
            likeIdentities := s.likeIdentities.insert
              (toLex (like.scope, like.key)) like.identity
            likeRevision := saturatingAdd s.likeRevision 1 })
      | .error error =>
        (some none, { s with
          likeRankings := s.likeRankings.insert like.scope
            (s.ranking like.scope)
          untracked := s.untracked + 1
          likeOverflow := s.likeOverflow
            + if error = .overflow then 1 else 0 })

def degradeScope (scope : Scope) (s : LikeTotals) : LikeTotals :=
  { s with
    likeDegradedScopes := s.likeDegradedScopes.insert scope () }.revised
    (s.likeDegradedScopes[scope]? = none)

/-- Every scope may have lost likes. -/
def loseUnknown (s : LikeTotals) : LikeTotals :=
  if !s.likeUnknownIngressLoss then
    { s with likeUnknownIngressLoss := true }.revised true
  else s

/-- Note that a like of the scope was not counted. -/
def degrade (scope : Scope) (s : LikeTotals) : LikeTotals :=
  if s.likes[scope]? ≠ none ∧ (s.likeDegradedScopes[scope]? ≠ none
      ∨ s.likeDegradedScopes.size < likeCapacity) then
    s.degradeScope scope
  else if s.likes[scope]? ≠ none ∧ s.likeUnknownIngressLoss = false then
    s.loseUnknown
  else if s.likeUntrackedScopeFailure = false then
    { s with likeUntrackedScopeFailure := true }.revised true
  else s

/-- The like branch of `observe`. -/
def observe (like : Like) (s : LikeTotals) : LikeValue × LikeTotals :=
  let first := s.countGlobal like
  let second := first.2.countUser like
  (⟨first.1, second.1⟩,
    if second.2.untracked ≠ s.untracked then second.2.degrade like.scope
    else second.2)

def markLikeIngressLoss (s : LikeTotals) : Option Scope → LikeTotals
  | some scope =>
    if s.likeDegradedScopes.size < likeCapacity
        ∨ s.likeDegradedScopes[scope]? ≠ none then
      s.degradeScope scope
    else s.loseUnknown
  | none => s.loseUnknown

def Degraded (s : LikeTotals) (scope : Scope) : Prop :=
  s.likeUnknownIngressLoss = true ∨ s.likeDegradedScopes[scope]? ≠ none
    ∨ s.likeUntrackedScopeFailure = true ∧ s.likes[scope]? = none

instance (s : LikeTotals) (scope : Scope) : Decidable (s.Degraded scope) :=
  inferInstanceAs (Decidable (_ ∨ _ ∨ _))

def likeIntegrityStatus (s : LikeTotals) (scope : Scope) : String :=
  if s.Degraded scope then "degraded" else "unknown"

/-- An entry of the leaderboard, for a viewer with an identity. -/
def leader (s : LikeTotals) (scope : Scope) (entry : Entry) :
    Option Leader :=
  s.likeIdentities[(toLex (scope, entry.key) : Scope ×ₗ String)]?.map
    fun identity =>
      { rank := entry.rank
        score := entry.score
        uniqueId := identity.uniqueId
        nickname := identity.nickname
        userId := entry.key
        avatarUrl := identity.avatarUrl }

/-- The entries of `like_leaderboard_with_limit`. -/
def likeLeaderboard (order : Unstable Entry.before) (s : LikeTotals)
    (scope : Scope) (limit : Nat) : List Leader :=
  match s.likeRankings[scope]? with
  | none => []
  | some ranking =>
    (ranking.snapshot order (min limit likeWidgetLimit)).entries.filterMap
      (s.leader scope)

-- ==== what a like does

variable {like : Like} {s t u : LikeTotals} {scope : Scope}

/-- The ways `countGlobal` goes. -/
inductive GlobalCase (like : Like) (s : LikeTotals) :
    Option LikeProgress × LikeTotals → Prop
  | refused (hnew : s.likes[like.scope]? = none)
      (hfull : likeCapacity ≤ s.held) :
      GlobalCase like s (none, { s with untracked := s.untracked + 1 })
  | counted (progress : LikeProgress)
      (hroom : s.likes[like.scope]? = none → s.held < likeCapacity) :
      GlobalCase like s (some progress, { s with
        likes := s.likes.insert like.scope
          (s.likes[like.scope]?.getD 0 + like.count) })
  | overflow (hroom : s.likes[like.scope]? = none → s.held < likeCapacity) :
      GlobalCase like s (none, { s with
        likes := s.likes.insert like.scope (s.likes[like.scope]?.getD 0)
        untracked := s.untracked + 1
        likeOverflow := s.likeOverflow + 1 })

theorem countGlobal_cases (like : Like) (s : LikeTotals) :
    GlobalCase like s (s.countGlobal like) := by
  unfold countGlobal
  split
  · next h => exact .refused h.1 h.2
  · next h =>
    have hr (hnew : s.likes[like.scope]? = none) :
        s.held < likeCapacity := Nat.lt_of_not_le fun hf => h ⟨hnew, hf⟩
    dsimp only
    split
    · next next hn =>
      obtain ⟨-, rfl⟩ := checkedAdd_eq_some.1 hn
      exact .counted _ hr
    · exact .overflow hr

/-- The ways `countUser` goes. -/
inductive UserCase (like : Like) (s : LikeTotals) :
    Option (Option LikeProgress) × LikeTotals → Prop
  | nobody (hkey : like.key = "") : UserCase like s (none, s)
  | zero (progress : LikeProgress) (hcount : like.count = 0) :
      UserCase like s (some (some progress), s)
  | refused (hfull : likeCapacity ≤ s.held) :
      UserCase like s (some none, { s with untracked := s.untracked + 1 })
  | counted (progress : LikeProgress) (next : Aggregation)
      (happ : Aggregation.Applied (s.ranking like.scope) like.key like.count next)
      (hroom : s.score like.scope like.key = none → s.held < likeCapacity) :
      UserCase like s (some (some progress), { s with
        likeRankings := s.likeRankings.insert like.scope next
        likeParticipants := s.likeParticipants
          + if s.score like.scope like.key = none then 1 else 0
        likeIdentities := s.likeIdentities.insert
          (toLex (like.scope, like.key)) like.identity
        likeRevision := saturatingAdd s.likeRevision 1 })
  | failed (overflow : Nat) :
      UserCase like s (some none, { s with
        likeRankings := s.likeRankings.insert like.scope
          (s.ranking like.scope)
        untracked := s.untracked + 1
        likeOverflow := overflow })

theorem countUser_cases (like : Like) (s : LikeTotals) :
    UserCase like s (s.countUser like) := by
  unfold countUser
  split
  · next hkey => exact .nobody hkey
  dsimp only
  split
  · next h => exact .refused h.2
  next h =>
  have hr (hnew : s.score like.scope like.key = none) :
      s.held < likeCapacity := Nat.lt_of_not_le fun hf => h ⟨hnew, hf⟩
  split
  · next hc => exact .zero _ hc
  next hc =>
  split
  · next next hn =>
    rcases Aggregation.apply_cases hn with ⟨hz, -⟩ | happ
    · exact absurd ((mul_one _).symm.trans hz) hc
    · rw [mul_one] at happ
      exact .counted _ next happ hr
  · exact .failed _

/-- What noting a loss may come to. -/
inductive Noted (s : LikeTotals) : LikeTotals → Prop
  | same : Noted s s
  | scope (scope : Scope) : Noted s (s.degradeScope scope)
  | unknown (hnot : s.likeUnknownIngressLoss = false) :
      Noted s ({ s with likeUnknownIngressLoss := true }.revised true)
  | failure (hnot : s.likeUntrackedScopeFailure = false)
      (hwhy : s.likeUnknownIngressLoss = true ∨ likeCapacity ≤ s.held) :
      Noted s ({ s with likeUntrackedScopeFailure := true }.revised true)

theorem loseUnknown_noted (s : LikeTotals) : Noted s s.loseUnknown := by
  unfold loseUnknown
  cases hn : s.likeUnknownIngressLoss with
  | true => exact .same
  | false => exact .unknown hn

theorem degrade_noted (s : LikeTotals)
    (hfl : s.likes[scope]? = none → likeCapacity ≤ s.held) :
    Noted s (s.degrade scope) := by
  unfold degrade
  split
  · exact .scope scope
  split
  · exact loseUnknown_noted s
  next hnt =>
  split
  · next hf =>
    refine .failure hf ?_
    by_cases hn : s.likes[scope]? = none
    · exact .inr (hfl hn)
    · exact .inl (eq_true_of_ne_false fun h => hnt ⟨hn, h⟩)
  · exact .same

theorem loss_noted (s : LikeTotals) (c : Option Scope) :
    Noted s (s.markLikeIngressLoss c) := by
  unfold markLikeIngressLoss
  split
  · split
    · exact .scope _
    · exact loseUnknown_noted s
  · exact loseUnknown_noted s

-- ==== what is kept

theorem score_eq (s : LikeTotals) (scope : Scope) (user : String) :
    s.score scope user = (s.ranking scope).scores[user]? := by
  unfold score ranking
  cases s.likeRankings[scope]? with
  | none => rfl
  | some ranking => rfl

theorem ranking_insert (next : Aggregation) (scope other : Scope)
    (ht : t.likeRankings = s.likeRankings.insert scope next) :
    t.ranking other = if scope = other then next else s.ranking other := by
  unfold ranking
  rw [ht, get_insert]
  split <;> rfl

theorem ranking_kept (scope other : Scope)
    (ht : t.likeRankings = s.likeRankings.insert scope (s.ranking scope)) :
    t.ranking other = s.ranking other := by
  rw [ranking_insert _ _ _ ht]
  split
  · next h => rw [h]
  · rfl

def participants (rankings : Table Scope Aggregation) : Nat :=
  rankings.sum fun _ ranking => ranking.scores.size

theorem participants_insert (s : LikeTotals) (scope : Scope)
    (next : Aggregation) :
    participants (s.likeRankings.insert scope next)
        + (s.ranking scope).scores.size
      = participants s.likeRankings + next.scores.size := by
  unfold participants ranking
  cases hold : s.likeRankings[scope]? with
  | none =>
    rw [sum_insert_new _ _ hold, getD_none, add_comm next.scores.size]
    rfl
  | some ranking =>
    have hsum := sum_insert_add (f := fun (_ : Scope) (r : Aggregation) =>
      r.scores.size) s.likeRankings next hold
    rw [getD_some]
    omega

theorem size_likes (l : Table Scope Nat) (scope : Scope) (n : Nat) :
    (l.insert scope n).size = l.size + if l[scope]? = none then 1 else 0 := by
  cases ho : l[scope]? with
  | none => exact size_insert_new _ _ ho
  | some total =>
    rw [if_neg (some_ne_none _), ← card_keySet, keySet_insert_of_get n ho,
      card_keySet, add_zero]

/-- What holds of the counters at any time. -/
structure Sound (s : LikeTotals) : Prop where
  room : s.held ≤ likeCapacity
  participants : s.likeParticipants = participants s.likeRankings
  rankings : ∀ scope, (s.ranking scope).Represented
  identified : ∀ (scope : Scope) (user : String),
    s.score scope user ≠ none →
      s.likeIdentities[(toLex (scope, user) : Scope ×ₗ String)]? ≠ none
  /-- A scope was only refused where there was no room. -/
  failure : s.likeUntrackedScopeFailure = true →
    s.likeUnknownIngressLoss = true ∨ likeCapacity ≤ s.held
  revision : s.likeRevision ≤ u64Max

theorem Sound.empty : Sound {} where
  room := zero_le _
  participants := rfl
  rankings _ := .new likeCapacity
  identified _ _ h := absurd rfl h
  failure h := absurd h Bool.false_ne_true
  revision := zero_le _

/-- Nothing is given back, and no loss forgotten. -/
structure Grows (s t : LikeTotals) : Prop where
  held : s.held ≤ t.held
  tracked : ∀ scope : Scope, t.likes[scope]? = none → s.likes[scope]? = none
  full : likeCapacity ≤ s.held → ∀ scope : Scope, s.likes[scope]? = none →
    t.likes[scope]? = none
  unknown : s.likeUnknownIngressLoss = true → t.likeUnknownIngressLoss = true
  degraded : ∀ scope : Scope, s.likeDegradedScopes[scope]? ≠ none →
    t.likeDegradedScopes[scope]? ≠ none
  failure : s.likeUntrackedScopeFailure = true →
    t.likeUntrackedScopeFailure = true

theorem Grows.trans (hst : s.Grows t) (htu : t.Grows u) : s.Grows u where
  held := hst.held.trans htu.held
  tracked scope h := hst.tracked scope (htu.tracked scope h)
  full h scope hn := htu.full (h.trans hst.held) scope (hst.full h scope hn)
  unknown h := htu.unknown (hst.unknown h)
  degraded scope h := htu.degraded scope (hst.degraded scope h)
  failure h := htu.failure (hst.failure h)

/-- The status of a scope stays what it is for good. -/
theorem Degraded.grows (h : s.Degraded scope) (hs : s.Sound)
    (hst : s.Grows t) : t.Degraded scope := by
  rcases h with h | h | ⟨hf, hn⟩
  · exact .inl (hst.unknown h)
  · exact .inr (.inl (hst.degraded scope h))
  · rcases hs.failure hf with h | hfl
    · exact .inl (hst.unknown h)
    · exact .inr (.inr ⟨hst.failure hf, hst.full hfl scope hn⟩)

/-- What is shown of each scope. -/
structure Same (s t : LikeTotals) : Prop where
  ranking : ∀ scope, t.ranking scope = s.ranking scope
  identities : t.likeIdentities = s.likeIdentities
  degraded : ∀ scope, t.Degraded scope ↔ s.Degraded scope

/-- What is shown only changes with the revision. -/
structure Revised (s t : LikeTotals) : Prop where
  le : s.likeRevision ≤ t.likeRevision
  same : t.likeRevision = s.likeRevision → s.likeRevision < u64Max → s.Same t

theorem Revised.trans (hst : s.Revised t) (htu : t.Revised u) :
    s.Revised u where
  le := hst.le.trans htu.le
  same heq hls := by
    have hmid : t.likeRevision = s.likeRevision :=
      le_antisymm (htu.le.trans heq.le) hst.le
    have hf := hst.same hmid hls
    have hl := htu.same (heq.trans hmid.symm) (hmid ▸ hls)
    exact ⟨fun scope => (hl.ranking scope).trans (hf.ranking scope),
      hl.identities.trans hf.identities,
      fun scope => (hl.degraded scope).trans (hf.degraded scope)⟩

/-- A step of the revision. -/
theorem Revised.moved (hr : s.likeRevision ≤ u64Max)
    (ht : t.likeRevision = saturatingAdd s.likeRevision 1) :
    s.Revised t where
  le := by
    unfold saturatingAdd at ht
    omega
  same heq hl := by
    unfold saturatingAdd at ht
    omega

-- ==== the total

section

variable {r : Option LikeProgress × LikeTotals}

theorem GlobalCase.grows (h : GlobalCase like s r) : s.Grows r.2 := by
  have hf (n : Nat)
      (hr : s.likes[like.scope]? = none → s.held < likeCapacity)
      (hh : likeCapacity ≤ s.held) (scope : Scope)
      (hnew : s.likes[scope]? = none) :
      (s.likes.insert like.scope n)[scope]? = none := by
    rw [get_insert, if_neg, hnew]
    intro heq
    exact Nat.not_le_of_lt (hr (heq ▸ hnew)) hh
  have hh (n : Nat) : s.likes.size + s.likeParticipants
      ≤ (s.likes.insert like.scope n).size + s.likeParticipants := by
    rw [size_likes]
    omega
  have ht (n : Nat) (scope : Scope)
      (hnew : (s.likes.insert like.scope n)[scope]? = none) :
      s.likes[scope]? = none := by
    rw [get_insert] at hnew
    split at hnew
    · cases hnew
    · exact hnew
  cases h with
  | refused =>
    exact ⟨le_refl _, fun _ => id, fun _ _ => id, id, fun _ => id, id⟩
  | counted progress hr =>
    exact ⟨hh _, ht _, hf _ hr, id, fun _ => id, id⟩
  | overflow hr =>
    exact ⟨hh _, ht _, hf _ hr, id, fun _ => id, id⟩

theorem GlobalCase.sound (h : GlobalCase like s r) (hs : s.Sound) :
    r.2.Sound := by
  have hg := h.grows
  have hh (n : Nat)
      (hrm : s.likes[like.scope]? = none → s.held < likeCapacity) :
      (s.likes.insert like.scope n).size + s.likeParticipants
        ≤ likeCapacity := by
    rw [size_likes]
    have hb := hs.room
    unfold held at hb hrm
    split
    · next hn =>
      have := hrm hn
      omega
    · omega
  have hf : r.2.likeUntrackedScopeFailure = true →
      r.2.likeUnknownIngressLoss = true ∨ likeCapacity ≤ r.2.held := by
    intro hr
    have hb : s.likeUntrackedScopeFailure = true := by
      cases h <;> exact hr
    exact (hs.failure hb).imp hg.unknown fun hfl => hfl.trans hg.held
  cases h with
  | refused => exact ⟨hs.room, hs.2, hs.3, hs.4, hf, hs.6⟩
  | counted progress hrm =>
    exact ⟨hh _ hrm, hs.2, hs.3, hs.4, hf, hs.6⟩
  | overflow hrm => exact ⟨hh _ hrm, hs.2, hs.3, hs.4, hf, hs.6⟩

theorem GlobalCase.revised (h : GlobalCase like s r) (hs : s.Sound) :
    s.Revised r.2 := by
  have hg := h.grows
  have hrev : r.2.likeRevision = s.likeRevision := by cases h <;> rfl
  refine ⟨hrev.ge, fun _ _ => ⟨fun scope => by cases h <;> rfl,
    by cases h <;> rfl, fun scope => ⟨?_, fun hd => hd.grows hs hg⟩⟩⟩
  intro hd
  have hnew := hg.tracked scope
  cases h <;> exact hd.imp_right (Or.imp_right (And.imp_right hnew))

theorem GlobalCase.ranking (h : GlobalCase like s r) (scope : Scope) :
    r.2.ranking scope = s.ranking scope := by
  cases h <;> rfl

theorem GlobalCase.total (h : GlobalCase like s r) (scope : Scope) :
    r.2.likes[scope]?.getD 0 = s.likes[scope]?.getD 0
      + if like.scope = scope ∧ r.1 ≠ none then like.count else 0 := by
  cases h with
  | refused => simp
  | counted =>
    dsimp only
    rw [get_insert]
    by_cases heq : like.scope = scope
    · simp [heq]
    · simp [heq]
  | overflow =>
    dsimp only
    rw [get_insert]
    by_cases heq : like.scope = scope
    · simp [heq]
    · simp [heq]

theorem GlobalCase.full (h : GlobalCase like s r)
    (hn : r.2.likes[like.scope]? = none) : likeCapacity ≤ r.2.held := by
  cases h with
  | refused _ hf => exact hf
  | counted => exact absurd hn (by simp)
  | overflow => exact absurd hn (by simp)

theorem GlobalCase.untracked (h : GlobalCase like s r) :
    s.untracked ≤ r.2.untracked
      ∧ (r.1 = none → s.untracked < r.2.untracked) := by
  cases h with
  | refused => exact ⟨le_succ _, fun _ => lt_succ_self _⟩
  | counted => exact ⟨le_refl _, fun h => absurd h (some_ne_none _)⟩
  | overflow => exact ⟨le_succ _, fun _ => lt_succ_self _⟩

end

-- ==== the score

section

variable {r : Option (Option LikeProgress) × LikeTotals}

theorem UserCase.likes (h : UserCase like s r) : r.2.likes = s.likes := by
  cases h <;> rfl

theorem UserCase.grows (h : UserCase like s r) : s.Grows r.2 := by
  cases h with
  | counted =>
    exact ⟨Nat.add_le_add_left (Nat.le_add_right _ _) _, fun _ => id,
      fun _ _ => id, id, fun _ => id, id⟩
  | _ => exact ⟨Nat.le_refl _, fun _ => id, fun _ _ => id, id,
      fun _ => id, id⟩

theorem UserCase.sound (h : UserCase like s r) (hs : s.Sound) :
    r.2.Sound := by
  have hg := h.grows
  cases h with
  | nobody => exact hs
  | zero => exact hs
  | refused => exact ⟨hs.1, hs.2, hs.3, hs.4, hs.5, hs.6⟩
  | failed overflow =>
    refine ⟨hs.1, ?_, fun scope => ?_, fun scope user hsc => ?_, hs.5, hs.6⟩
    · rw [hs.participants]
      exact (add_right_cancel
        (participants_insert s like.scope (s.ranking like.scope))).symm
    · rw [ranking_kept like.scope scope rfl]
      exact hs.rankings scope
    · rw [score_eq, ranking_kept like.scope scope rfl, ← score_eq] at hsc
      exact hs.identified scope user hsc
  | counted progress next happ hr =>
    have hsz := size_put (s.ranking like.scope).scores like.key
      (some ((s.ranking like.scope).scores[like.key]?.getD 0 + like.count))
    have hsum := participants_insert s like.scope next
    rw [← happ.scores, if_neg (some_ne_none _), ← score_eq] at hsz
    refine ⟨?_, ?_, fun scope => ?_, fun scope user hsc => ?_, ?_, ?_⟩
    · have hb := hs.room
      unfold held at hb hr ⊢
      split
      · next hnew =>
        have := hr hnew
        dsimp only
        omega
      · exact hb
    · have hp := hs.participants
      dsimp only
      split
      · next hnew =>
        rw [if_pos hnew] at hsz
        omega
      · next hold =>
        rw [if_neg hold] at hsz
        omega
    · rw [ranking_insert next like.scope scope rfl]
      split
      · exact (hs.rankings like.scope).applied happ
      · exact hs.rankings scope
    · rw [score_eq, ranking_insert next like.scope scope rfl] at hsc
      dsimp only
      rw [get_insert]
      split
      · exact some_ne_none _
      next hne =>
      refine hs.identified scope user ?_
      rw [score_eq]
      split at hsc
      · next heq =>
        subst heq
        rw [happ.scores, get_put, if_neg] at hsc
        · exact hsc
        · exact fun hkey => hne (hkey ▸ rfl)
      · exact hsc
    · intro hf
      exact (hs.failure hf).imp_right fun hfl =>
        hfl.trans hg.held
    · exact min_le_right _ _

theorem UserCase.revised (h : UserCase like s r) (hs : s.Sound) :
    s.Revised r.2 := by
  cases h with
  | counted => exact .moved hs.revision rfl
  | failed overflow =>
    exact ⟨le_refl _, fun _ _ => ⟨fun scope => ranking_kept _ _ rfl,
      rfl, fun _ => Iff.rfl⟩⟩
  | _ => exact ⟨le_refl _, fun _ _ => ⟨fun _ => rfl, rfl,
      fun _ => Iff.rfl⟩⟩

theorem UserCase.untracked (h : UserCase like s r) :
    s.untracked ≤ r.2.untracked
      ∧ (r.1 = some none → s.untracked < r.2.untracked)
      ∧ (r.1 = none → like.key = "") := by
  cases h with
  | nobody hk => exact ⟨le_refl _, nofun, fun _ => hk⟩
  | zero => exact ⟨le_refl _, nofun, nofun⟩
  | counted => exact ⟨le_refl _, nofun, nofun⟩
  | refused => exact ⟨le_succ _, fun _ => lt_succ_self _, nofun⟩
  | failed => exact ⟨le_succ _, fun _ => lt_succ_self _, nofun⟩

theorem UserCase.score (h : UserCase like s r) (scope : Scope)
    (user : String) : (r.2.score scope user).getD 0
      = (s.score scope user).getD 0
        + if like.scope = scope ∧ like.key = user ∧ r.1.join ≠ none
          then like.count else 0 := by
  rw [score_eq, score_eq]
  cases h with
  | nobody => simp
  | zero p hc => simp [hc]
  | refused => simp [ranking]
  | failed overflow =>
    rw [ranking_kept like.scope scope rfl]
    simp
  | counted p next ha hr =>
    rw [ranking_insert next like.scope scope rfl]
    split
    · next heq =>
      subst heq
      rw [ha.scores, get_put]
      by_cases hk : like.key = user
      · simp [hk]
      · simp [hk]
    · next hne => simp [hne]

end

-- ==== losses

theorem Noted.likes (h : Noted s t) : t.likes = s.likes := by
  cases h <;> rfl

theorem Noted.ranking (h : Noted s t) (scope : Scope) :
    t.ranking scope = s.ranking scope := by
  cases h <;> rfl

theorem Noted.grows (h : Noted s t) : s.Grows t := by
  have hl := h.likes
  cases h with
  | scope scope =>
    refine ⟨le_refl _, fun _ => id, fun _ _ => id, id,
      fun other hin => ?_, id⟩
    show (s.likeDegradedScopes.insert scope ())[other]? ≠ none
    rw [get_insert]
    split
    · exact some_ne_none _
    · exact hin
  | same => exact ⟨le_refl _, fun _ => id, fun _ _ => id, id,
      fun _ => id, id⟩
  | unknown => exact ⟨le_refl _, fun _ => id, fun _ _ => id,
      fun _ => rfl, fun _ => id, id⟩
  | failure => exact ⟨le_refl _, fun _ => id, fun _ _ => id, id,
      fun _ => id, fun _ => rfl⟩

theorem Noted.sound (h : Noted s t) (hs : s.Sound) : t.Sound := by
  have hmax : saturatingAdd s.likeRevision 1 ≤ u64Max := min_le_right _ _
  cases h with
  | same => exact hs
  | scope scope =>
    refine ⟨hs.1, hs.2, hs.3, hs.4, hs.5, ?_⟩
    show (if _ then _ else _) ≤ _
    split
    · exact hmax
    · exact hs.revision
  | unknown => exact ⟨hs.1, hs.2, hs.3, hs.4, fun _ => .inl rfl, hmax⟩
  | failure _ hwhy => exact ⟨hs.1, hs.2, hs.3, hs.4, fun _ => hwhy, hmax⟩

theorem Noted.revised (h : Noted s t) (hs : s.Sound) : s.Revised t := by
  cases h with
  | same => exact ⟨le_refl _, fun _ _ => ⟨fun _ => rfl, rfl,
      fun _ => Iff.rfl⟩⟩
  | scope scope =>
    by_cases hnew : s.likeDegradedScopes[scope]? = none
    · refine .moved hs.revision ?_
      show (if _ then _ else _) = _
      rw [if_pos (decide_eq_true hnew)]
    · obtain ⟨⟨⟩, hold⟩ := ne_none_iff_exists'.1 hnew
      refine ⟨?_, fun _ _ => ⟨fun _ => rfl, rfl, fun other => ?_⟩⟩
      · show _ ≤ if _ then _ else _
        rw [if_neg (by simp [hnew])]
      · have hsm : (s.degradeScope scope).likeDegradedScopes
            = s.likeDegradedScopes := insert_same _ hold
        unfold Degraded
        rw [hsm]
        exact Iff.rfl
  | unknown => exact .moved hs.revision rfl
  | failure => exact .moved hs.revision rfl

theorem degrade_degraded (s : LikeTotals) (scope : Scope) :
    (s.degrade scope).Degraded scope := by
  unfold degrade
  split
  · refine .inr (.inl ?_)
    show (s.likeDegradedScopes.insert scope ())[scope]? ≠ none
    rw [get_insert_self]
    exact some_ne_none _
  split
  · next h =>
    refine .inl ?_
    unfold loseUnknown
    rw [h.2]
    rfl
  next hn =>
  by_cases hnew : s.likes[scope]? = none
  · split
    · exact .inr (.inr ⟨rfl, hnew⟩)
    · next h => exact .inr (.inr ⟨eq_true_of_ne_false h, hnew⟩)
  · have hu : s.likeUnknownIngressLoss = true :=
      eq_true_of_ne_false fun h => hn ⟨hnew, h⟩
    split
    · exact .inl hu
    · exact .inl hu

-- ==== the leaderboard

theorem mem_fullOrder {ra : Aggregation} {e : Entry}
    (h : e ∈ fullOrder ra.entries) :
    ra.scores[e.key]? = some e.score := by
  obtain ⟨place, hp, rfl⟩ := mem_mapIdx.1 h
  obtain ⟨⟨key, score⟩, hs, heq⟩ := mem_map.1
    ((mem_insertionSort _).1 (getElem_mem hp))
  rw [← heq]
  exact mem_toList.1 hs

theorem likeLeaderboard_eq (hs : s.Sound) (o : Unstable Entry.before)
    (scope : Scope) (l : Nat) :
    s.likeLeaderboard o scope l
      = ((fullOrder (s.ranking scope).entries).take
        (min l likeWidgetLimit)).filterMap (s.leader scope) := by
  rw [← (hs.rankings scope).snapshot_eq o]
  unfold likeLeaderboard
  split
  · next hn =>
    have hnew : s.ranking scope = .new likeCapacity := by
      unfold ranking
      rw [hn, getD_none]
    rw [hnew, (Aggregation.Represented.new likeCapacity).snapshot_eq,
      show fullOrder (Aggregation.new likeCapacity).entries = [] from rfl,
      take_nil]
    rfl
  · next hr =>
    unfold ranking
    rw [hr, getD_some]

/-- Nobody is skipped. -/
theorem leaders_all (hs : s.Sound) (scope : Scope) (e : List Entry)
    (hin : ∀ en ∈ e, en ∈ fullOrder (s.ranking scope).entries) :
    (e.filterMap (s.leader scope)).map
        (fun leader => (leader.rank, leader.userId, leader.score))
      = e.map fun en => (en.rank, en.key, en.score) := by
  induction e with
  | nil => rfl
  | cons en rest ih =>
    have hsc : s.score scope en.key ≠ none := by
      rw [score_eq, mem_fullOrder (hin en mem_cons_self)]
      exact some_ne_none _
    obtain ⟨i, hid⟩ := ne_none_iff_exists'.1 (hs.identified scope en.key hsc)
    have hl : s.leader scope en = some ⟨en.rank, en.score,
        i.uniqueId, i.nickname, en.key,
        i.avatarUrl⟩ := by
      unfold leader
      rw [hid, map_some]
    rw [filterMap_cons_some hl, map_cons, map_cons,
      ih fun o ho => hin o (mem_cons_of_mem _ ho)]

-- ==== runs

inductive LikeAction where
  | like (like : Like)
  | loss (context : Option Scope)

def step (s : LikeTotals) : LikeAction → LikeTotals
  | .like like => (s.observe like).2
  | .loss context => s.markLikeIngressLoss context

def after (s : LikeTotals) (actions : List LikeAction) : LikeTotals :=
  actions.foldl step s

/-- What an action adds to the total of a scope: the count of a like
that was accepted. -/
def globalPart (scope : Scope) (s : LikeTotals) : LikeAction → Nat
  | .like like =>
    if like.scope = scope ∧ (s.observe like).1.global ≠ none then like.count
    else 0
  | .loss _ => 0

/-- What an action adds to the score of a viewer. -/
def userPart (scope : Scope) (user : String) (s : LikeTotals) :
    LikeAction → Nat
  | .like like =>
    if like.scope = scope ∧ like.key = user
        ∧ (s.observe like).1.user.join ≠ none then like.count
    else 0
  | .loss _ => 0

/-- The sum of what was accepted in a run. -/
def accepted (part : LikeTotals → LikeAction → Nat) :
    LikeTotals → List LikeAction → Nat
  | _, [] => 0
  | s, action :: rest => part s action + accepted part (s.step action) rest

theorem accepted_sum (part : LikeTotals → LikeAction → Nat)
    (figure : LikeTotals → Nat)
    (hs : ∀ s action, figure (s.step action)
      = figure s + part s action) (s : LikeTotals)
    (actions : List LikeAction) :
    figure (s.after actions) = figure s + accepted part s actions := by
  induction actions generalizing s with
  | nil => rfl
  | cons action rest ih =>
    exact (ih (s.step action)).trans (by rw [hs, accepted, add_assoc])

theorem observe_noted (like : Like) (s : LikeTotals) :
    Noted ((s.countGlobal like).2.countUser like).2 (s.observe like).2 := by
  have hs := countUser_cases like (s.countGlobal like).2
  unfold observe
  dsimp only
  split
  · refine degrade_noted _ fun h => ?_
    rw [hs.likes] at h
    exact ((countGlobal_cases like s).full h).trans hs.grows.held
  · exact .same

theorem total_step (s : LikeTotals) (scope : Scope) (action : LikeAction) :
    (s.step action).likes[scope]?.getD 0
      = s.likes[scope]?.getD 0 + globalPart scope s action := by
  cases action with
  | loss c =>
    exact congrArg (fun likes : Table Scope Nat => likes[scope]?.getD 0)
      (loss_noted s c).likes
  | like like =>
    show (s.observe like).2.likes[scope]?.getD 0 = _
    rw [(observe_noted like s).likes,
      (countUser_cases like (s.countGlobal like).2).likes]
    exact (countGlobal_cases like s).total scope

theorem score_step (s : LikeTotals) (scope : Scope) (user : String)
    (action : LikeAction) : ((s.step action).score scope user).getD 0
      = (s.score scope user).getD 0 + userPart scope user s action := by
  cases action with
  | loss c =>
    show ((s.markLikeIngressLoss c).score scope user).getD 0 = _
    rw [score_eq, (loss_noted s c).ranking, ← score_eq]
    rfl
  | like like =>
    have hf := countGlobal_cases like s
    show ((s.observe like).2.score scope user).getD 0 = _
    rw [score_eq, (observe_noted like s).ranking, ← score_eq,
      (countUser_cases like (s.countGlobal like).2).score, score_eq,
      hf.ranking, ← score_eq]
    rfl

/-- Whoever is not counted leaves a degraded scope. -/
theorem refused_degraded
    (h : (s.observe like).2.likes[like.scope]?.getD 0
        ≠ s.likes[like.scope]?.getD 0 + like.count
      ∨ like.key ≠ "" ∧ ((s.observe like).2.score like.scope like.key).getD 0
        ≠ (s.score like.scope like.key).getD 0 + like.count) :
    (s.observe like).2.Degraded like.scope := by
  have hf := (countGlobal_cases like s).untracked
  have hs := (countUser_cases like (s.countGlobal like).2).untracked
  have hmr : s.untracked
      < ((s.countGlobal like).2.countUser like).2.untracked := by
    rcases h with ht | ⟨hkey, hsc⟩
    · refine (hf.2 ?_).trans_le hs.1
      by_contra hc
      refine ht ((total_step s like.scope (.like like)).trans ?_)
      exact congrArg _ (if_pos ⟨rfl, hc⟩)
    · refine hf.1.trans_lt (hs.2.1 ?_)
      cases hv : ((s.countGlobal like).2.countUser like).1 with
      | none => exact absurd (hs.2.2 hv) hkey
      | some p =>
        cases p with
        | none => rfl
        | some p =>
          refine absurd ((score_step s like.scope like.key
            (.like like)).trans (congrArg _ (if_pos ⟨rfl, rfl, ?_⟩))) hsc
          show ((s.countGlobal like).2.countUser like).1.join ≠ none
          rw [hv]
          exact some_ne_none _
  unfold observe
  dsimp only
  rw [if_pos hmr.ne']
  exact degrade_degraded _ _

theorem step_kept (hs : s.Sound) (a : LikeAction) :
    s.Grows (s.step a) ∧ (s.step a).Sound ∧ s.Revised (s.step a) := by
  cases a with
  | loss c =>
    have hn := loss_noted s c
    exact ⟨hn.grows, hn.sound hs, hn.revised hs⟩
  | like like =>
    have hf := countGlobal_cases like s
    have hsc := countUser_cases like (s.countGlobal like).2
    have hn := observe_noted like s
    have hmid := hf.sound hs
    have hl := hsc.sound hmid
    exact ⟨(hf.grows.trans hsc.grows).trans hn.grows,
      hn.sound hl, ((hf.revised hs).trans
        (hsc.revised hmid)).trans (hn.revised hl)⟩

theorem after_kept (hs : s.Sound) (a : List LikeAction) :
    s.Grows (s.after a) ∧ (s.after a).Sound ∧ s.Revised (s.after a) := by
  induction a generalizing s with
  | nil =>
    exact ⟨Noted.same.grows, hs, Noted.same.revised hs⟩
  | cons ac rest ih =>
    obtain ⟨hg, hsn, hr⟩ := step_kept hs ac
    obtain ⟨hg', hs', hr'⟩ := ih hsn
    exact ⟨hg.trans hg', hs', hr.trans hr'⟩

/-- The like counters after any events and losses. -/
theorem like_projection (order : Unstable Entry.before)
    (actions : List LikeAction) :
    (after {} actions).likes.size
        + participants (after {} actions).likeRankings ≤ likeCapacity
      ∧ (∀ scope : Scope, (after {} actions).likes[scope]?.getD 0
        = accepted (globalPart scope) {} actions)
      ∧ (∀ scope user, ((after {} actions).score scope user).getD 0
        = accepted (userPart scope user) {} actions)
      ∧ (∀ (scope : Scope) (user : String),
        (after {} actions).score scope user ≠ none →
        (after {} actions).likeIdentities[
          (toLex (scope, user) : Scope ×ₗ String)]? ≠ none)
      ∧ (∀ scope limit,
        ((after {} actions).likeLeaderboard order scope limit).map
            (fun leader => (leader.rank, leader.userId, leader.score))
          = ((fullOrder ((after {} actions).ranking scope).entries).take
            (min limit likeWidgetLimit)).map
            fun entry => (entry.rank, entry.key, entry.score))
      ∧ (∀ like rest,
        ((after {} (actions ++ [.like like])).likes[like.scope]?.getD 0
            ≠ (after {} actions).likes[like.scope]?.getD 0 + like.count
          ∨ like.key ≠ ""
            ∧ ((after {} (actions ++ [.like like])).score like.scope
                like.key).getD 0
              ≠ ((after {} actions).score like.scope like.key).getD 0
                + like.count) →
        (after {} (actions ++ .like like :: rest)).likeIntegrityStatus
          like.scope = "degraded")
      ∧ ∀ rest scope,
        (after {} actions).likeRevision < u64Max →
        ((after {} (actions ++ rest)).likeIntegrityStatus scope
            ≠ (after {} actions).likeIntegrityStatus scope
          ∨ ∃ limit,
            (after {} (actions ++ rest)).likeLeaderboard order scope limit
              ≠ (after {} actions).likeLeaderboard order scope limit) →
        (after {} (actions ++ rest)).likeRevision
          ≠ (after {} actions).likeRevision := by
  have hs := (after_kept Sound.empty actions).2.1
  have ha (rest : List LikeAction) : after {} (actions ++ rest)
      = (after {} actions).after rest := List.foldl_append
  refine ⟨?_, fun scope => ?_, fun scope user => ?_, hs.identified,
    fun scope limit => ?_, fun like rest hl => ?_,
    fun rest scope hle hc heq => ?_⟩
  · rw [← hs.participants]
    exact hs.room
  · have hsum := accepted_sum (globalPart scope)
      (fun s => s.likes[scope]?.getD 0)
      (fun s => total_step s scope) {} actions
    exact hsum.trans (Nat.zero_add _)
  · have hsum := accepted_sum (userPart scope user)
      (fun s => (s.score scope user).getD 0)
      (fun s => score_step s scope user) {} actions
    exact hsum.trans (Nat.zero_add _)
  · rw [likeLeaderboard_eq hs]
    exact leaders_all hs scope _ fun entry => List.mem_of_mem_take
  · rw [ha] at hl ⊢
    have hnow := refused_degraded hl
    have hmid := step_kept hs (.like like)
    exact if_pos (hnow.grows hmid.2.1 (after_kept hmid.2.1 rest).1)
  · rw [ha] at hc heq
    obtain ⟨-, hls, hrev⟩ := after_kept hs rest
    have hsm := hrev.same heq hle
    rcases hc with hst | ⟨limit, hb⟩
    · refine hst ?_
      unfold likeIntegrityStatus
      simp only [hsm.degraded scope]
    · refine hb ?_
      have hld : ((after {} actions).after rest).leader scope
          = (after {} actions).leader scope := by
        unfold leader
        rw [hsm.identities]
      rw [likeLeaderboard_eq hls, likeLeaderboard_eq hs, hsm.ranking, hld]

theorem like_projection_one : (after {} [.like ⟨toLex ("creator", "room"),
      ⟨7, "ann", "Ann", none⟩, 3⟩]).likes.size
    + participants (after {} [.like ⟨toLex ("creator", "room"),
      ⟨7, "ann", "Ann", none⟩, 3⟩]).likeRankings ≤ likeCapacity :=
  (like_projection .ofSort [.like ⟨toLex ("creator", "room"),
    ⟨7, "ann", "Ann", none⟩, 3⟩]).1

end LikeTotals

end TikTools.Live
