/-
The user limits of a ranking over a whole run.

`Session` is a ranking with the contributions it has accepted since its
last reset or daily rollover, and with every checkpoint saved so far and
what had been accepted by then. The user records are a summary of the
accepted contributions (`Within.recorded`): every other fact about limits
is read off the summary, and a restored checkpoint takes its history
along.
-/
import Mathlib.Data.List.Chain
import TikTools.Lib.KeySet
import TikTools.Lib.Runs
import TikTools.Aggregation.Sane

namespace TikTools.Aggregation

open TikTools.Lib Std Table Bool

-- ==== outcomes

/-- What becomes of a packet at a ranking. -/
inductive Outcome where
  | ignored
  | refused
  | limited
  | cooldown
  | accepted
  deriving DecidableEq, Repr

namespace Ranking

/-- What `account` does with a contribution. -/
def accountOutcome (ranking : Ranking) (contribution : Contribution)
    (user gift : Option EntryMetadata) : Except Error Outcome := do
  let value ← score ranking.definition.sources contribution
  if value = 0 then return .ignored
  let key ← okOr (groupKey ranking.definition.groupBy contribution)
    .invalidKey
  ensure (¬ ranking.Full) .windowCapacity
  match ← ranking.userDecision contribution.user with
  | .limited =>
    let _ ← ranking.state.touch
    return .limited
  | .cooldown =>
    let _ ← ranking.state.touch
    return .cooldown
  | .allowed =>
    let _ ← ranking.accept contribution key value user gift
    return .accepted

/-- What `contribute` does with a packet. -/
def outcome (ranking : Ranking) (contribution : Contribution) (now : Nat)
    (user gift : Option EntryMetadata) : Outcome :=
  if ¬ ranking.InScope contribution.creatorId contribution.roomId then
    .ignored
  else match expireRanking now ranking with
    | (.error _, _) => .refused
    | (.ok (), expired) =>
      if contribution.option = none ∧ expired.definition.voted then
        .ignored
      else match expired.accountOutcome contribution user gift with
        | .error _ => .refused
        | .ok outcome => outcome

/-- The ranking a contribution leaves, by its outcome. -/
inductive Accounted (ranking : Ranking) (contribution : Contribution)
    (user gift : Option EntryMetadata) :
    Except Error Ranking → Except Error Outcome → Prop
  | refused (error : Error) :
      Accounted ranking contribution user gift (.error error) (.error error)
  | ignored :
      Accounted ranking contribution user gift (.ok ranking) (.ok .ignored)
  | limited {state : Aggregation} (htouch : ranking.state.touch = .ok state) :
      Accounted ranking contribution user gift
        (.ok { ranking with
          state, limited := saturatingAdd ranking.limited 1 })
        (.ok .limited)
  | cooldown {state : Aggregation}
      (htouch : ranking.state.touch = .ok state) :
      Accounted ranking contribution user gift
        (.ok { ranking with
          state
          cooldownRejected := saturatingAdd ranking.cooldownRejected 1 })
        (.ok .cooldown)
  | accepted {key : String} {value : Nat} {next : Ranking}
      (hallowed : ranking.userDecision contribution.user = .ok .allowed)
      (haccept : ranking.accept contribution key value user gift = .ok next) :
      Accounted ranking contribution user gift (.ok next) (.ok .accepted)

theorem account_cases (ranking : Ranking) (c : Contribution)
    (user gift : Option EntryMetadata) :
    Accounted ranking c user gift
      (ranking.account c user gift)
      (ranking.accountOutcome c user gift) := by
  unfold account accountOutcome
  cases hs : score ranking.definition.sources c with
  | error error => exact .refused error
  | ok value =>
    by_cases hv : value = 0
    · subst hv
      exact .ignored
    · show Accounted ranking c user gift
        (if value = 0 then _ else _) (if value = 0 then _ else _)
      rw [if_neg hv, if_neg hv]
      cases hkey : groupKey ranking.definition.groupBy c with
      | none => exact .refused _
      | some key =>
        by_cases hf : ¬ ranking.Full
        · show Accounted ranking c user gift
            (ensure _ _ >>= fun _ => _) (ensure _ _ >>= fun _ => _)
          rw [ensure_true hf]
          cases hd : ranking.userDecision c.user with
          | error error => exact .refused error
          | ok d =>
            cases d with
            | limited =>
              show Accounted ranking c user gift
                (ranking.state.touch >>= fun _ => _)
                (ranking.state.touch >>= fun _ => _)
              cases ht : ranking.state.touch with
              | error error => exact .refused error
              | ok state => exact .limited ht
            | cooldown =>
              show Accounted ranking c user gift
                (ranking.state.touch >>= fun _ => _)
                (ranking.state.touch >>= fun _ => _)
              cases ht : ranking.state.touch with
              | error error => exact .refused error
              | ok state => exact .cooldown ht
            | allowed =>
              show Accounted ranking c user gift
                (ranking.accept c key value user gift)
                (ranking.accept c key value user gift >>= fun _ => _)
              cases ha : ranking.accept c key value user gift with
              | error error => exact .refused error
              | ok next => exact .accepted hd ha
        · show Accounted ranking c user gift
            (ensure _ _ >>= fun _ => _) (ensure _ _ >>= fun _ => _)
          have hen : ensure (¬ ranking.Full) Error.windowCapacity
              = .error .windowCapacity :=
            ensure_eq_error.2 ⟨hf, rfl⟩
          rw [hen]
          exact .refused _

/-- The ranking a packet leaves, by its outcome. -/
inductive Settled (ranking : Ranking) (contribution : Contribution)
    (now : Nat) : Ranking → Outcome → Prop
  | outside
      (hscope : ¬ ranking.InScope contribution.creatorId
        contribution.roomId) :
      Settled ranking contribution now ranking .ignored
  | expired {next : Ranking} {outcome : Outcome}
      (hscope : ranking.InScope contribution.creatorId contribution.roomId)
      (hkept : next.definition = (expireRanking now ranking).2.definition
        ∧ next.users = (expireRanking now ranking).2.users
        ∧ next.lastTime = (expireRanking now ranking).2.lastTime)
      (hother : outcome = .ignored ∨ outcome = .refused) :
      Settled ranking contribution now next outcome
  | held {next : Ranking} {outcome : Outcome}
      (hscope : ranking.InScope contribution.creatorId contribution.roomId)
      (hsame : next = { (expireRanking now ranking).2 with
        state := { (expireRanking now ranking).2.state with
          revision := next.state.revision }
        limited := next.limited
        cooldownRejected := next.cooldownRejected })
      (hheld : outcome = .limited ∨ outcome = .cooldown) :
      Settled ranking contribution now next outcome
  | accepted {next : Ranking} {key : String} {value : Nat}
      {user gift : Option EntryMetadata}
      (hscope : ranking.InScope contribution.creatorId contribution.roomId)
      (hallowed : (expireRanking now ranking).2.userDecision
        contribution.user = .ok .allowed)
      (haccept : (expireRanking now ranking).2.accept contribution key value
        user gift = .ok next) :
      Settled ranking contribution now next .accepted

theorem contribute_cases (ranking : Ranking) (contribution : Contribution)
    (now : Nat) (user gift : Option EntryMetadata) :
    Settled ranking contribution now
      (ranking.contribute contribution now user gift).1
      (ranking.outcome contribution now user gift) := by
  unfold contribute outcome
  by_cases hs : ranking.InScope contribution.creatorId contribution.roomId
  · rw [if_neg (not_not.2 hs), if_neg (not_not.2 hs)]
    rcases hexp : expireRanking now ranking with ⟨result, expired⟩
    have ha : (expireRanking now ranking).2 = expired := by
      rw [hexp]
    cases result with
    | error error =>
      exact .expired hs (by rw [ha]; exact ⟨rfl, rfl, rfl⟩) (.inr rfl)
    | ok u =>
      dsimp only
      by_cases hv : contribution.option = none
          ∧ expired.definition.voted = true
      · rw [if_pos hv, if_pos hv]
        exact .expired hs (by rw [ha]; exact ⟨rfl, rfl, rfl⟩) (.inl rfl)
      · rw [if_neg hv, if_neg hv]
        have hc := expired.account_cases contribution user gift
        generalize expired.account contribution user gift = account at hc
        generalize expired.accountOutcome contribution user gift
          = outcome at hc
        cases hc with
        | refused error =>
          exact .expired hs (by rw [ha]; exact ⟨rfl, rfl, rfl⟩) (.inr rfl)
        | ignored =>
          exact .expired hs (by rw [ha]; exact ⟨rfl, rfl, rfl⟩) (.inl rfl)
        | limited ht =>
          refine .held hs ?_ (.inl rfl)
          rw [ha, Aggregation.touch_eq ht]
        | cooldown ht =>
          refine .held hs ?_ (.inr rfl)
          rw [ha, Aggregation.touch_eq ht]
        | accepted hal hac =>
          rw [← ha] at hal hac
          exact .accepted hs hal hac
  · rw [if_pos hs, if_pos hs]
    exact .outside hs

-- ==== records

/-- An accepted contribution: whose, and when on the ranking's clock. -/
abbrev Acceptance := String × Nat

/-- When the contributions of a user were accepted. -/
def timesOf (user : String) (accepted : List Acceptance) : List Nat :=
  (accepted.filter fun entry => entry.1 = user).map Prod.snd

/-- The record that a user's contributions add up to. -/
def recordOf (times : List Nat) : Option UserState :=
  times.getLast?.map fun lastTime => { count := times.length, lastTime }

/-- The records are those of the accepted contributions, which keep to the
limits. -/
structure Within (limits : UserLimits) (users : Table String UserState)
    (lastTime : Nat) (accepted : List Acceptance) : Prop where
  recorded : ∀ user : String, users[user]? = recordOf (timesOf user accepted)
  past : ∀ entry ∈ accepted, entry.2 ≤ lastTime
  room : users.size ≤ limits.maxUsers
  few : ∀ user max, limits.maxContributions = some max →
    (timesOf user accepted).length ≤ max
  apart : ∀ user cooldown, limits.cooldownMs = some cooldown →
    (timesOf user accepted).IsChain fun earlier later =>
      earlier + cooldown ≤ later

/-- A ranking of a valid definition keeps to its limits, if it has any. -/
structure Limited (definition : Definition)
    (users : Table String UserState) (lastTime : Nat)
    (accepted : List Acceptance) : Prop where
  valid : definition.valid = true
  within : ∀ limits, definition.userLimits = some limits →
    Within limits users lastTime accepted

variable {definition : Definition} {users : Table String UserState}
  {lastTime : Nat} {accepted : List Acceptance}

theorem timesOf_append (u : String) (accepted : List Acceptance)
    (e : Acceptance) : timesOf u (accepted ++ [e])
      = timesOf u accepted ++ if e.1 = u then [e.2] else [] := by
  unfold timesOf
  rw [List.filter_append, List.map_append]
  by_cases hs : e.1 = u
  · rw [if_pos hs, List.filter_singleton, decide_eq_true hs]
    rfl
  · rw [if_neg hs, List.filter_singleton, decide_eq_false hs]
    rfl

theorem recordOf_append (t : List Nat) (ti : Nat) :
    recordOf (t ++ [ti])
      = some { count := t.length + 1, lastTime := ti } := by
  unfold recordOf
  rw [List.getLast?_append, List.length_append]
  rfl

theorem recordOf_eq_none {t : List Nat} :
    recordOf t = none ↔ t = [] := by
  unfold recordOf
  rw [Option.map_eq_none_iff, List.getLast?_eq_none_iff]

theorem Limited.empty (hv : definition.valid = true)
    (lastTime : Nat) : Limited definition ∅ lastTime [] := by
  refine ⟨hv, fun limits _ => ⟨?_, nofun, Nat.zero_le _, ?_, ?_⟩⟩
  · exact fun u => ExtTreeMap.getElem?_empty
  · exact fun u max _ => Nat.zero_le max
  · exact fun u cooldown _ => List.isChain_nil

theorem Limited.later (h : Limited definition users lastTime accepted)
    {l : Nat} (hlt : lastTime ≤ l) :
    Limited definition users l accepted := by
  refine ⟨h.valid, fun limits hl => ?_⟩
  have hw := h.within limits hl
  exact ⟨hw.recorded,
    fun e hen => Nat.le_trans (hw.past e hen) hlt,
    hw.room, hw.few, hw.apart⟩

variable {limits : UserLimits}

theorem Within.users_eq (h : Within limits users lastTime accepted) :
    (accepted.map Prod.fst).toFinset.card = users.size := by
  rw [← card_keySet]
  congr 1
  ext user
  rw [mem_keySet, h.recorded, Ne, recordOf_eq_none, List.mem_toFinset]
  unfold timesOf
  rw [List.map_eq_nil_iff, List.filter_eq_nil_iff, List.mem_map]
  constructor
  · rintro ⟨e, hen, rfl⟩ hn
    exact hn e hen (decide_eq_true rfl)
  · intro hs
    obtain ⟨e, hs⟩ := not_forall.1 hs
    obtain ⟨hen, hsm⟩ := Classical.not_imp.1 hs
    exact ⟨e, hen, of_decide_eq_true (not_not.1 hsm)⟩

theorem Within.accept (hl : limits.valid = true)
    (h : Within limits users lastTime accepted) {user : String}
    (hr : users[user]? = none → users.size < limits.maxUsers)
    (hfew : ∀ k, users[user]? = some k →
      ∀ max, limits.maxContributions = some max → k.count < max)
    (ha : ∀ k, users[user]? = some k →
      ∀ c, limits.cooldownMs = some c → c ≤ lastTime - k.lastTime) :
    Within limits
      (users.insert user
        { count := (users[user]?.elim 0 UserState.count) + 1, lastTime })
      lastTime (accepted ++ [(user, lastTime)]) := by
  have hrec := h.recorded user
  have ht : ∀ o, timesOf o (accepted ++ [(user, lastTime)])
      = timesOf o accepted ++ if user = o then [lastTime] else [] := fun o =>
    timesOf_append o accepted (user, lastTime)
  have hcn : users[user]?.elim 0 UserState.count
      = (timesOf user accepted).length := by
    rw [hrec]
    unfold recordOf
    cases hls : (timesOf user accepted).getLast? with
    | none =>
      rw [List.getLast?_eq_none_iff] at hls
      rw [hls]
      rfl
    | some time => rfl
  simp only [UserLimits.valid, and_eq_true, decide_eq_true_eq] at hl
  refine ⟨?_, ?_, ?_, ?_, ?_⟩
  · intro o
    rw [get_insert, ht]
    by_cases hs : user = o
    · rw [if_pos hs, if_pos hs, ← hs, recordOf_append, hcn]
    · rw [if_neg hs, if_neg hs, List.append_nil]
      exact h.recorded o
  · intro en hen
    rcases List.mem_append.1 hen with hold | hnew
    · exact h.past en hold
    · rw [List.mem_singleton.1 hnew]
  · cases hk : users[user]? with
    | none =>
      rw [size_insert_new _ _ hk]
      exact hr hk
    | some k =>
      have hky := keySet_insert_of_get
        { count := (users[user]?.elim 0 UserState.count) + 1, lastTime }
        hk
      rw [← hk, ← card_keySet, hky, card_keySet]
      exact h.room
  · intro o max hmax
    rw [ht, List.length_append]
    by_cases hs : user = o
    · subst hs
      rw [if_pos rfl, List.length_singleton, ← hcn]
      cases hk : users[user]? with
      | none =>
        have hp := hl.1.1.2
        rw [hmax] at hp
        exact Nat.pos_of_ne_zero fun hz =>
          hp (congrArg some hz)
      | some k => exact hfew k hk max hmax
    · rw [if_neg hs]
      exact h.few o max hmax
  · intro o c hc
    rw [ht]
    by_cases hs : user = o
    · subst hs
      rw [if_pos rfl]
      refine List.IsChain.append (h.apart user c hc)
        (List.isChain_singleton _) ?_
      intro e hea later hlt
      cases hlt
      have hk : users[user]? = some
          { count := (timesOf user accepted).length
            lastTime := e } := by
        rw [hrec]
        unfold recordOf
        rw [hea]
        rfl
      have hgap := ha _ hk c hc
      have hps : e ≤ lastTime := by
        have hmem := List.mem_of_getLast? hea
        obtain ⟨en, hen, rfl⟩ := List.mem_map.1 hmem
        exact h.past en (List.mem_of_mem_filter hen)
      dsimp only at hgap
      omega
    · rw [if_neg hs, List.append_nil]
      exact h.apart o c hc

-- ==== a ranking

/-- The fields limits are about. -/
def limitView (ranking : Ranking) :
    Definition × Table String UserState × Nat :=
  (ranking.definition, ranking.users, ranking.lastTime)

/-- The ranking keeps to its limits, with what it has accepted. -/
def Obeys (ranking : Ranking) (accepted : List Acceptance) : Prop :=
  Limited ranking.definition ranking.users ranking.lastTime accepted

variable {ranking next : Ranking}

theorem Obeys.same (h : ranking.Obeys accepted)
    (hs : next.limitView = ranking.limitView) : next.Obeys accepted := by
  obtain ⟨hd, hr⟩ := Prod.mk.inj hs
  obtain ⟨hu, ht⟩ := Prod.mk.inj hr
  unfold Obeys
  rw [hd, hu, ht]
  exact h

/-- A new day of a daily ranking begins, and its scores can be reset. -/
def rollsOver (now : Nat) (ranking : Ranking) : Bool :=
  match ranking.definition.window with
  | .daily offset =>
    ranking.lastTime ≠ 0
      && dayOf offset (max ranking.lastTime now)
        ≠ dayOf offset ranking.lastTime
      && ranking.state.reset.toOption.isSome
  | _ => false

theorem expireRolling_view (dm : Nat) (events : List WindowEvent)
    (ranking : Ranking) :
    (expireRolling dm events ranking).2.limitView = ranking.limitView := by
  induction events generalizing ranking with
  | nil => rfl
  | cons event rest ih =>
    by_cases hage : ranking.lastTime - event.1 < dm
    · rw [expireRolling_stay hage]
    · cases hs : ranking.state.expire event.2.1 event.2.2 with
      | error error => rw [expireRolling_fail hage hs]
      | ok state =>
        rw [expireRolling_take hage hs, ih]
        rfl

theorem rollsOver_daily (now : Nat) {offset : Int}
    (hwin : ranking.definition.window = .daily offset) :
    ranking.rollsOver now = true
      ↔ (ranking.lastTime ≠ 0
          ∧ dayOf offset (max ranking.lastTime now)
            ≠ dayOf offset ranking.lastTime)
        ∧ ∃ state, ranking.state.reset = .ok state := by
  unfold rollsOver
  rw [hwin]
  rw [and_eq_true, and_eq_true, decide_eq_true_eq, decide_eq_true_eq]
  refine and_congr_right fun _ => ?_
  cases ranking.state.reset with
  | error error => exact iff_of_false false_ne_true nofun
  | ok state => exact iff_of_true rfl ⟨state, rfl⟩

/-- Time passes for a ranking: its records go with a rollover, and stay
otherwise. -/
theorem expireRanking_view (now : Nat) (ranking : Ranking) :
    (expireRanking now ranking).2.limitView
      = (ranking.definition,
          if ranking.rollsOver now then ∅ else ranking.users,
          max ranking.lastTime now) := by
  unfold expireRanking
  cases hwin : ranking.definition.window with
  | session =>
    have hs : ¬ ranking.rollsOver now = true := by
      unfold rollsOver
      rw [hwin]
      exact false_ne_true
    rw [if_neg hs]
    rfl
  | rolling durationMs maxEvents =>
    have hs : ¬ ranking.rollsOver now = true := by
      unfold rollsOver
      rw [hwin]
      exact false_ne_true
    rw [if_neg hs]
    exact expireRolling_view _ _ _
  | daily offset =>
    have hrl := rollsOver_daily now hwin
    show (expireDaily offset now ranking).2.limitView = _
    rw [expireDaily_eq]
    by_cases hday : ranking.lastTime ≠ 0
        ∧ dayOf offset (max ranking.lastTime now)
          ≠ dayOf offset ranking.lastTime
    · rw [if_pos hday]
      cases hr : ranking.state.reset with
      | error error =>
        rw [Effect.change_error (e := error) (by
            rw [hr]
            rfl),
          if_neg fun h => by
            obtain ⟨-, state, hst⟩ := hrl.1 h
            rw [hr] at hst
            cases hst]
        rfl
      | ok state =>
        unfold Effect.change
        rw [if_pos (hrl.2 ⟨hday, state, hr⟩)]
        dsimp only
        rw [hr]
        rfl
    · rw [if_neg hday, if_neg fun h => hday (hrl.1 h).1]
      rfl

/-- What was accepted since the last rollover. -/
def sinceRollover (now : Nat) (ranking : Ranking)
    (accepted : List Acceptance) : List Acceptance :=
  if ranking.rollsOver now then [] else accepted

theorem Obeys.expired (h : ranking.Obeys accepted) (now : Nat) :
    (expireRanking now ranking).2.Obeys
      (ranking.sinceRollover now accepted) := by
  have hv := expireRanking_view now ranking
  obtain ⟨hd, hr⟩ := Prod.mk.inj hv
  obtain ⟨hu, ht⟩ := Prod.mk.inj hr
  unfold Obeys sinceRollover
  rw [hd, hu, ht]
  split
  · exact .empty h.valid _
  · exact Limited.later h (Nat.le_max_left ..)

/-- Whoever is allowed has a valid name, and room, contributions and time
left. -/
theorem userDecision_allowed {user : Option String}
    (hl : ranking.definition.userLimits = some limits)
    (h : ranking.userDecision user = .ok .allowed) :
    ∃ name, user = some name
      ∧ (ranking.users[name]? = none → ranking.users.size < limits.maxUsers)
      ∧ ∀ k, ranking.users[name]? = some k →
        (∀ max, limits.maxContributions = some max → k.count < max)
        ∧ ∀ c, limits.cooldownMs = some c →
          c ≤ ranking.lastTime - k.lastTime := by
  unfold userDecision at h
  rw [hl] at h
  obtain ⟨name, hn, h⟩ := okOr_ok.1 h
  have hu : user = some name := by
    rw [Option.filter_eq_some_iff] at hn
    exact hn.1
  refine ⟨name, hu, ?_, ?_⟩
  · intro hnn
    rw [hnn] at h
    exact (ensure_ok.1 h).1
  · intro k hk
    rw [hk] at h
    dsimp only at h
    split at h
    · cases h
    · next hf =>
      split at h
      · cases h
      · next ha =>
        constructor
        · intro max hm
          rw [hm, Option.any_some, decide_eq_true_eq] at hf
          exact Nat.lt_of_not_le hf
        · intro c hc
          rw [hc, Option.any_some, decide_eq_true_eq] at ha
          exact Nat.le_of_not_lt ha

theorem Obeys.accept (h : ranking.Obeys accepted)
    {c : Contribution} {key : String} {v : Nat}
    {user gift : Option EntryMetadata}
    (hal : ranking.userDecision c.user = .ok .allowed)
    (ha : ranking.accept c key v user gift = .ok next) :
    next.Obeys (accepted
      ++ c.user.toList.map fun name =>
        (name, next.lastTime)) := by
  obtain ⟨state, -, ha⟩ := bind_eq_ok.1 ha
  cases ha
  refine ⟨h.valid, fun limits hl => ?_⟩
  change ranking.definition.userLimits = some limits at hl
  have hv := h.valid
  unfold Definition.valid at hv
  simp only [and_eq_true] at hv
  have hlimitsValid : limits.valid = true := by
    have hall := hv.1.1.1.2
    rw [hl] at hall
    exact hall
  obtain ⟨name, hn, hr, hk⟩ := userDecision_allowed hl hal
  have hw := (h.within limits hl).accept hlimitsValid hr
    (fun k hget => (hk k hget).1)
    (fun k hget => (hk k hget).2)
  have hu : countUser ranking c.user
      = ranking.users.insert name
        { count := (ranking.users[name]?.elim 0 UserState.count) + 1
          lastTime := ranking.lastTime } := by
    unfold countUser
    rw [hl, hn]
  rw [hu, hn]
  exact hw

-- ==== turns

/-- Whether a turn begins a new count: a reset that goes through, or a
rollover on the way. -/
def clears (ranking : Ranking) : Turn → Bool
  | .contribute contribution now _ _ =>
    ranking.InScope contribution.creatorId contribution.roomId
      && ranking.rollsOver now
  | .expireAt now => ranking.rollsOver now
  | .reset => ranking.state.reset.toOption.isSome
  | .redefine _ clear => clear && ranking.state.reset.toOption.isSome
  | _ => false

theorem clears_contribute (c : Contribution) (now : Nat)
    (u g : Option EntryMetadata) :
    ranking.clears (.contribute c now u g)
      = (decide (ranking.InScope c.creatorId
          c.roomId) && ranking.rollsOver now) := rfl

/-- What is accepted since the last reset or rollover, after a turn. -/
def acceptedAfter (ranking : Ranking) (turn : Turn)
    (accepted : List Acceptance) : List Acceptance :=
  let kept := if ranking.clears turn then [] else accepted
  match turn with
  | .contribute contribution now user gift =>
    if ranking.outcome contribution now user gift = .accepted then
      kept ++ contribution.user.toList.map fun name =>
        (name, (ranking.take turn).lastTime)
    else kept
  | _ => kept

section

variable (h : ranking.Obeys accepted)
include h

theorem Obeys.contribute (c : Contribution) (now : Nat)
    (user gift : Option EntryMetadata) :
    (ranking.take (.contribute c now user gift)).Obeys
      (ranking.acceptedAfter (.contribute c now user gift) accepted) := by
  have hc := ranking.contribute_cases c now user gift
  have hexp := h.expired now
  have hk : ranking.InScope c.creatorId c.roomId →
      (if ranking.clears (.contribute c now user gift) then []
        else accepted) = ranking.sinceRollover now accepted := by
    intro hs
    unfold sinceRollover
    rw [clears_contribute, decide_eq_true hs, Bool.true_and]
  unfold acceptedAfter
  dsimp only
  change Settled ranking c now
    (ranking.take (.contribute c now user gift))
    (ranking.outcome c now user gift) at hc
  generalize ranking.take (.contribute c now user gift) = next at hc
  generalize ranking.outcome c now user gift = outcome at hc
  cases hc with
  | outside hs =>
    have hst : ranking.clears (.contribute c now user gift)
        = false := by
      rw [clears_contribute, decide_eq_false hs, Bool.false_and]
    rw [hst, if_neg (by decide)]
    exact h
  | expired hs hsm ho =>
    obtain ⟨hdef, hu, ht⟩ := hsm
    rw [hk hs, if_neg (by rcases ho with rfl | rfl <;> decide)]
    refine hexp.same ?_
    unfold limitView
    rw [hdef, hu, ht]
  | held hs hsm hh =>
    rw [hk hs, if_neg (by rcases hh with rfl | rfl <;> decide)]
    refine hexp.same ?_
    rw [hsm]
    rfl
  | accepted hs ha hac =>
    rw [hk hs, if_pos rfl]
    exact hexp.accept ha hac

omit h in
theorem take_view (t : Turn) (h : t.unlimited = true) :
    (ranking.take t).limitView = ranking.limitView := by
  have hmv := @take_inPlace ranking t h
  generalize ranking.take t = next at hmv ⊢
  cases hmv <;> rfl

/-- A reset or a changed definition starts a new count, or changes nothing
limits are about. -/
theorem Obeys.reset :
    (ranking.take .reset).Obeys (ranking.acceptedAfter .reset accepted) := by
  have ha : ranking.acceptedAfter .reset accepted
      = if ranking.state.reset.toOption.isSome then [] else accepted := rfl
  rw [ha]
  show (Effect.change Ranking.reset ranking).2.Obeys _
  unfold Effect.change Ranking.reset
  cases ranking.state.reset with
  | error error => exact h
  | ok state => exact .empty h.valid 0

theorem Obeys.redefine {definition : Definition} {clear : Bool}
    (hf : (Turn.redefine definition clear).Fits ranking) :
    (ranking.take (.redefine definition clear)).Obeys
      (ranking.acceptedAfter (.redefine definition clear) accepted) := by
  obtain ⟨hv, -, hs⟩ := hf
  have ha : ranking.acceptedAfter (.redefine definition clear) accepted
      = if clear && ranking.state.reset.toOption.isSome then []
        else accepted := rfl
  rw [ha]
  show (Effect.change (Ranking.redefine definition clear) ranking).2.Obeys _
  unfold Effect.change Ranking.redefine
  cases clear with
  | true =>
    unfold Ranking.reset
    cases ranking.state.reset with
    | error error => exact h
    | ok state => exact .empty hv 0
  | false =>
    have hdef := hs.resolve_right false_ne_true
    have hl : definition.userLimits
        = ranking.definition.userLimits := by
      rw [← hdef]
    cases ranking.state.touch with
    | error error => exact h
    | ok state =>
      refine ⟨hv, fun limits hown => ?_⟩
      exact h.within limits (hl.symm.trans hown)

theorem Obeys.take {t : Turn}
    (hf : t.Fits ranking) (hrs : t.restores = false) :
    (ranking.take t).Obeys (ranking.acceptedAfter t accepted) := by
  cases t with
  | restoreSessionCheckpoint checkpoint => cases hrs
  | contribute c now us g =>
    exact h.contribute c now us g
  | expireAt now =>
    have hexp := h.expired now
    show (ranking.expireOne now).Obeys (ranking.sinceRollover now accepted)
    unfold expireOne
    rcases hr : expireRanking now ranking with ⟨result, expired⟩
    rw [hr] at hexp
    cases result with
    | ok u => exact hexp
    | error error => exact hexp
  | reset => exact h.reset
  | redefine definition clear => exact h.redefine hf
  | restoreAssignments totals scored => exact h.same (take_view _ rfl)
  | applyAssignment before row => exact h.same (take_view _ rfl)
  | applyCommittedScore option value => exact h.same (take_view _ rfl)
  | setEntryMetadata key data => exact h.same (take_view _ rfl)
  | markRankingGap => exact h.same (take_view _ rfl)
  | markRecoveryGap => exact h.same (take_view _ rfl)
  | markGap creatorId roomId source concerns =>
    exact h.same (take_view _ rfl)
  | markIngressLoss count => exact h.same (take_view _ rfl)
  | setPaused paused => exact h.same (take_view _ rfl)

end

-- ==== sessions

/-- A restored ranking has the definition, the records and the clock of
the checkpoint. -/
theorem restored_view {c : SessionCheckpoint}
    (h : restoreSessionCheckpoint c ranking = .ok next) :
    next.limitView = (c.definition, c.users, c.lastTime) := by
  obtain ⟨hf, h⟩ := ensure_ok.1 h
  obtain ⟨state, -, h⟩ := bind_eq_ok.1 h
  obtain ⟨-, h⟩ := ensure_ok.1 h
  obtain ⟨_, -, h⟩ := bind_eq_ok.1 h
  obtain ⟨-, h⟩ := ensure_ok.1 h
  cases h
  unfold fits at hf
  simp only [and_eq_true, decide_eq_true_eq] at hf
  have hdef := hf.1.1.1.1.1.1.1.1.1.1.2
  unfold limitView
  rw [hdef]

end Ranking

/-- A ranking over its process lives: what it has accepted since the last
reset or rollover, and the checkpoints saved, each with what had been
accepted by then. -/
structure Session where
  ranking : Ranking
  accepted : List Ranking.Acceptance
  saved : List (SessionCheckpoint × List Ranking.Acceptance)

namespace Session

inductive Event where
  | turn (turn : Ranking.Turn)
  | save
  /-- A saved checkpoint is taken over, if the ranking admits it. -/
  | restore (index : Nat)
  /-- The process starts again: the ranking is created anew. -/
  | restart (number : Nat) (bytes : Vector UInt8 16)

def start (definition : Definition) (number : Nat)
    (bytes : Vector UInt8 16) : Session :=
  ⟨.fresh definition number bytes, [], []⟩

def step (s : Session) : Event → Session
  | .turn turn =>
    { s with
      ranking := s.ranking.take turn
      accepted := s.ranking.acceptedAfter turn s.accepted }
  | .save =>
    { s with
      saved := s.saved ++ [(s.ranking.sessionCheckpoint, s.accepted)] }
  | .restore index =>
    match s.saved[index]? with
    | none => s
    | some (checkpoint, accepted) =>
      match Ranking.restoreSessionCheckpoint checkpoint s.ranking with
      | .ok ranking => { s with ranking, accepted }
      | .error _ => s
  | .restart number bytes =>
    { s with
      ranking := .fresh s.ranking.definition number bytes, accepted := [] }

/-- Only saved checkpoints are restored, and a definition is replaced by a
valid one that counts alike or together with a reset. -/
def Proper (s : Session) : Event → Prop
  | .turn turn => turn.Fits s.ranking ∧ turn.restores = false
  | _ => True

/-- The ranking keeps to its limits, and so did every saved one. -/
structure Held (s : Session) : Prop where
  now : s.ranking.Obeys s.accepted
  saved : ∀ entry ∈ s.saved, Ranking.Limited entry.1.definition
    entry.1.users entry.1.lastTime entry.2

theorem held_start {definition : Definition}
    (hv : definition.valid = true) (n : Nat)
    (b : Vector UInt8 16) : Held (start definition n b) := by
  constructor
  · show Ranking.Limited definition ∅ 0 []
    exact .empty hv 0
  · exact fun entry hen => absurd hen List.not_mem_nil

theorem Held.step {s : Session} (h : s.Held) {event : Event}
    (hp : s.Proper event) : (s.step event).Held := by
  cases event with
  | turn turn => exact ⟨h.now.take hp.1 hp.2, h.saved⟩
  | save =>
    refine ⟨h.now, fun entry hen => ?_⟩
    rcases List.mem_append.1 hen with hold | hnew
    · exact h.saved entry hold
    · rw [List.mem_singleton.1 hnew]
      exact h.now
  | restore index =>
    dsimp only [Session.step]
    cases hen : s.saved[index]? with
    | none => exact h
    | some entry =>
      obtain ⟨checkpoint, accepted⟩ := entry
      dsimp only
      split
      · next ranking hr =>
        refine ⟨?_, h.saved⟩
        have hv := Ranking.restored_view hr
        obtain ⟨hdef, hrs⟩ := Prod.mk.inj hv
        obtain ⟨hu, ht⟩ := Prod.mk.inj hrs
        show Ranking.Limited ranking.definition ranking.users
          ranking.lastTime accepted
        rw [hdef, hu, ht]
        exact h.saved _ (List.mem_of_getElem? hen)
      · exact h
  | restart number bytes => exact ⟨.empty h.now.valid 0, h.saved⟩

/-- In every run of contributions, expiries, resets and restored
checkpoints, a ranking with user limits has accepted at most the maximum
of contributions of each user since the last reset or rollover, with the
cooldown between them on its clock, and of at most the maximum of users;
and a packet that is held back by a limit or a cooldown leaves everything
but the counters as the time that has passed left it. -/
theorem user_limits_hold {definition : Definition}
    (hvalid : definition.valid = true) {number : Nat}
    {bytes : Vector UInt8 16} {s : Session}
    (hrun : Run (fun s event t => t = s.step event) Proper
      (start definition number bytes) s)
    {limits : UserLimits}
    (hlimits : s.ranking.definition.userLimits = some limits) :
    (∀ user max, limits.maxContributions = some max →
      (Ranking.timesOf user s.accepted).length ≤ max)
    ∧ (∀ user cooldown, limits.cooldownMs = some cooldown →
      (Ranking.timesOf user s.accepted).IsChain fun earlier later =>
        earlier + cooldown ≤ later)
    ∧ (s.accepted.map Prod.fst).toFinset.card ≤ limits.maxUsers
    ∧ ∀ contribution now user gift,
      s.ranking.outcome contribution now user gift = .limited
        ∨ s.ranking.outcome contribution now user gift = .cooldown →
      let expired := (Ranking.expireRanking now s.ranking).2
      let next := (s.ranking.contribute contribution now user gift).1
      next = { expired with
        state := { expired.state with revision := next.state.revision }
        limited := next.limited
        cooldownRejected := next.cooldownRejected } := by
  have hh : s.Held := @Run.invariant _ _ _ _ _ _ Held hrun
    (held_start hvalid number bytes) (by
      rintro t event u h hp rfl
      exact h.step hp)
  have hw := hh.now.within limits hlimits
  refine ⟨hw.few, hw.apart, ?_, ?_⟩
  · rw [hw.users_eq]
    exact hw.room
  · intro contribution now user gift ho
    have hc := s.ranking.contribute_cases contribution now user gift
    generalize (s.ranking.contribute contribution now user gift).1 = next
      at hc
    generalize s.ranking.outcome contribution now user gift = outcome at hc ho
    cases hc with
    | outside hs => rcases ho with h | h <;> cases h
    | expired hs hk hot =>
      rcases hot with rfl | rfl <;> rcases ho with h | h <;> cases h
    | held hs hsm hh => exact hsm
    | accepted hs ha hac =>
      rcases ho with h | h <;> cases h

/-- Likes count for their users, one contribution each. -/
def oneLike : Definition where
  schemaVersion := 1
  id := "likes"
  creatorId := "creator"
  roomId := "room"
  groupBy := .user
  window := .session
  userLimits := some ⟨some 1, none, 10⟩
  capacity := 10
  limit := 10
  sources := [⟨"tiktok.like", "like.count", 1, true, []⟩]

/-- A like of a user. -/
def likeOf (user : String) : Contribution where
  creatorId := "creator"
  roomId := "room"
  source := "tiktok.like"
  user := some user
  gift := none
  option := none
  team := none
  customKey := none
  metrics := [("like.count", 5)]

/-- A like, saved, and another one after a restart from the checkpoint. -/
def likedAgain : List Event :=
  [.turn (.contribute (likeOf "u1") 1000 none none), .save,
    .restart 2 (.replicate 16 0), .restore 0,
    .turn (.contribute (likeOf "u1") 2000 none none)]

theorem liked_once :
    let s := likedAgain.foldl step (start oneLike 1 (.replicate 16 0))
    s.accepted = [("u1", 1000)]
      ∧ (Ranking.timesOf "u1" s.accepted).length ≤ 1 := by
  intro s
  have hrun : Run (fun s event t => t = s.step event) Proper
      (start oneLike 1 (.replicate 16 0)) s :=
    .tail (.turn (.contribute (likeOf "u1") 2000 none none))
      (.tail (.restore 0)
        (.tail (.restart 2 (.replicate 16 0))
          (.tail .save
            (.tail (.turn (.contribute (likeOf "u1") 1000 none none))
              .refl ⟨trivial, rfl⟩ rfl)
            trivial rfl)
          trivial rfl)
        trivial rfl)
      ⟨trivial, rfl⟩ rfl
  have hv : oneLike.valid = true := rfl
  have hl : s.ranking.definition.userLimits = some ⟨some 1, none, 10⟩ := rfl
  have h := user_limits_hold hv hrun hl
  exact ⟨rfl, h.1 "u1" 1 rfl⟩

end Session

end TikTools.Aggregation
