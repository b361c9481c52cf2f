/-
Accounting calls that fail.

A failed call leaves the accounts of a ranking alone: it counts the
failure, or not even that. Which failures are counted depends on where
the check stands. `apply_assignment` refuses falling vote counts and
products beyond 64 bits before the part whose errors are counted;
everything after it, and all of `apply_committed_score`, is inside.
-/
import TikTools.Aggregation.Sane

namespace TikTools.Aggregation

open TikTools.Lib Std List Option Effect Ranking

set_option linter.dupNamespace false

-- ==== scores

namespace Aggregation

variable {state : Aggregation}

/-- An amount can be added to a key. -/
structure Admits (state : Aggregation) (key : String)
    (delta weight : Nat) : Prop where
  valid : validKey key = true
  product : delta * weight ≤ u64Max
  counted : delta * weight = 0
    ∨ (state.scores[key]? ≠ none ∨ state.scores.size < state.capacity)
      ∧ state.scores[key]?.getD 0 + delta * weight ≤ u64Max
      ∧ state.total + delta * weight ≤ u64Max
      ∧ state.revision + 1 ≤ u64Max

theorem apply_isOk {key : String} {d weight : Nat} :
    (∃ next, state.apply key d weight = .ok next)
      ↔ state.Admits key d weight := by
  constructor
  · rintro ⟨next, h⟩
    obtain ⟨hvl, h⟩ := ensure_ok.1 h
    obtain ⟨value, hv, h⟩ := okOr_ok.1 h
    obtain ⟨hp, rfl⟩ := checkedMul_eq_some.1 hv
    refine ⟨hvl, hp, ?_⟩
    split at h
    · next hz => exact .inl hz
    · obtain ⟨hr, h⟩ := ensure_ok.1 h
      obtain ⟨score, hs, h⟩ := okOr_ok.1 h
      obtain ⟨total, ht, h⟩ := okOr_ok.1 h
      obtain ⟨revision, hrev, -⟩ := okOr_ok.1 h
      exact .inr ⟨hr, (checkedAdd_eq_some.1 hs).1,
        (checkedAdd_eq_some.1 ht).1,
        (checkedAdd_eq_some.1 hrev).1⟩
  · intro h
    have hv : checkedMul d weight = some (d * weight) :=
      checkedMul_eq_some.2 ⟨h.product, rfl⟩
    unfold apply
    rw [ensure_true h.valid, hv]
    show ∃ next, (if d * weight = 0 then pure state else _) = _
    by_cases hz : d * weight = 0
    · rw [if_pos hz]
      exact ⟨_, rfl⟩
    · obtain ⟨hr, hs, ht, hrev⟩ :=
        h.counted.resolve_left hz
      rw [if_neg hz, ensure_true hr, checkedAdd_of_le hs,
        checkedAdd_of_le ht, checkedAdd_of_le hrev]
      exact ⟨_, rfl⟩

/-- An amount can be moved from one key to another. -/
structure AdmitsMove (state : Aggregation) (source target : String)
    (amount additional : Nat) : Prop where
  valid : validKey source = true ∧ validKey target = true ∧ source ≠ target
  held : ∃ old, state.scores[source]? = some old ∧ amount ≤ old
    ∧ ¬ (0 < state.scores[target]?.getD 0 + amount + additional
      ∧ state.scores[target]? = none ∧ 0 < old - amount
      ∧ state.capacity ≤ state.scores.size)
  score : state.scores[target]?.getD 0 + amount ≤ u64Max
    ∧ state.scores[target]?.getD 0 + amount + additional ≤ u64Max
  total : state.total + additional ≤ u64Max
  revision : state.revision + 1 ≤ u64Max

theorem reassign_isOk {source target : String} {amount additional : Nat} :
    (∃ next, state.reassign source target amount additional = .ok next)
      ↔ state.AdmitsMove source target amount additional := by
  constructor
  · rintro ⟨next, h⟩
    obtain ⟨hv, h⟩ := ensure_ok.1 h
    obtain ⟨old, hold, h⟩ := okOr_ok.1 h
    obtain ⟨left, hlf, h⟩ := okOr_ok.1 h
    obtain ⟨hle, rfl⟩ := checkedSub_eq_some.1 hlf
    obtain ⟨score, hs, h⟩ := okOr_ok.1 h
    obtain ⟨middle, hmid, hl⟩ := bind_eq_some_iff.1 hs
    obtain ⟨hf, rfl⟩ := checkedAdd_eq_some.1 hmid
    obtain ⟨hsnd, rfl⟩ := checkedAdd_eq_some.1 hl
    obtain ⟨hr, h⟩ := ensure_ok.1 h
    obtain ⟨total, ht, h⟩ := okOr_ok.1 h
    obtain ⟨revision, hrev, -⟩ := okOr_ok.1 h
    exact ⟨hv, ⟨old, hold, hle, hr⟩, ⟨hf, hsnd⟩,
      (checkedAdd_eq_some.1 ht).1, (checkedAdd_eq_some.1 hrev).1⟩
  · intro h
    obtain ⟨old, hold, hle, hr⟩ := h.held
    unfold reassign
    rw [ensure_true h.valid, hold, okOr_some]
    show ∃ next, (okOr (checkedSub old amount) _ >>= _) = _
    rw [checkedSub_eq_some.2 ⟨hle, rfl⟩, okOr_some]
    have hs : ((checkedAdd (state.scores[target]?.getD 0) amount).bind
        fun n => checkedAdd n additional)
        = some (state.scores[target]?.getD 0 + amount + additional) := by
      rw [checkedAdd_of_le h.score.1]
      exact checkedAdd_of_le h.score.2
    show ∃ next, (okOr ((checkedAdd (state.scores[target]?.getD 0)
      amount).bind fun n => checkedAdd n additional) _ >>= _) = _
    rw [hs, okOr_some]
    show ∃ next, (ensure
      (¬ (0 < state.scores[target]?.getD 0 + amount + additional
        ∧ state.scores[target]? = none ∧ 0 < old - amount
        ∧ state.capacity ≤ state.scores.size)) _ >>= _) = _
    rw [ensure_true hr, checkedAdd_of_le h.total, checkedAdd_of_le h.revision]
    exact ⟨_, rfl⟩

end Aggregation

-- ==== one ranking

variable {error : Error} {change : Ranking → Except Error Ranking}
  {id : String}

namespace Ranking

/-- Two states of a ranking that account for the same. -/
structure SameAccounts (ranking other : Ranking) : Prop where
  scores : other.state.scores = ranking.state.scores
  index : other.state.index = ranking.state.index
  total : other.state.total = ranking.state.total
  metadata : other.state.metadata = ranking.state.metadata
  windowEvents : other.windowEvents = ranking.windowEvents
  users : other.users = ranking.users

namespace SameAccounts

theorem refl (ranking : Ranking) : ranking.SameAccounts ranking :=
  ⟨rfl, rfl, rfl, rfl, rfl, rfl⟩

theorem reject (ranking : Ranking) : ranking.SameAccounts ranking.reject :=
  ⟨rfl, rfl, rfl, rfl, rfl, rfl⟩

theorem fault (ranking : Ranking) : ranking.SameAccounts ranking.fault := by
  have htc : ∀ {state : Aggregation},
      (touched state).scores = state.scores
      ∧ (touched state).index = state.index
      ∧ (touched state).total = state.total
      ∧ (touched state).metadata = state.metadata := by
    intro state
    unfold touched
    split
    · next next ht =>
      obtain ⟨revision, -, ht⟩ := okOr_ok.1 ht
      cases ht
      exact ⟨rfl, rfl, rfl, rfl⟩
    · exact ⟨rfl, rfl, rfl, rfl⟩
  obtain ⟨hs, hin, htt, hmt⟩ := @htc ranking.state
  exact ⟨hs, hin, htt, hmt, rfl, rfl⟩

end SameAccounts

variable {ranking : Ranking}

theorem contribute_fails {c : Contribution} {now : Nat}
    {user gift : Option EntryMetadata}
    (h : (ranking.contribute c now user gift).2 = some error) :
    (expireRanking now ranking).2.SameAccounts
      (ranking.contribute c now user gift).1 := by
  unfold contribute at h ⊢
  split
  · next hs =>
    rw [if_pos hs] at h
    cases h
  · next hs =>
    rw [if_neg hs] at h
    cases hexp : expireRanking now ranking with
    | mk r e =>
      rw [hexp] at h
      cases r with
      | error error => exact .reject e
      | ok u =>
        dsimp only at h ⊢
        split
        · next hrtd =>
          rw [if_pos hrtd] at h
          cases h
        · next hrtd =>
          rw [if_neg hrtd] at h
          cases ha : e.account c user gift with
          | error error => exact .fault e
          | ok next =>
            rw [ha] at h
            cases h

-- ---- counted failures

/-- Whether an operation counts its failure, if it fails. -/
def CountsFailure (act : Effect Ranking Error Unit) (ranking : Ranking) :
    Prop :=
  ∀ error, (act ranking).1 = .error error →
    ranking.rejected < (act ranking).2.rejected

theorem orFault_fails (h : (orFault change ranking).1 = .error error) :
    ranking.SameAccounts (orFault change ranking).2 := by
  unfold orFault at h ⊢
  split
  · next next hchg =>
    rw [hchg] at h
    cases h
  · exact .fault ranking

theorem orFault_counts :
    CountsFailure (orFault change) ranking
      ↔ ranking.rejected < u64Max ∨ ∃ next, change ranking = .ok next := by
  unfold CountsFailure orFault
  cases hchg : change ranking with
  | ok next =>
    constructor
    · intro _
      exact .inr ⟨next, rfl⟩
    · intro _ error herr
      cases herr
  | error error =>
    have hrej : ranking.fault.rejected
        = min (ranking.rejected + 1) u64Max := rfl
    constructor
    · intro hc
      have hl : ranking.rejected < ranking.fault.rejected := hc error rfl
      exact .inl (by omega)
    · rintro (hl | ⟨next, hn⟩)
      · intro _ _
        show ranking.rejected < ranking.fault.rejected
        omega
      · cases hn

/-- What `apply_assignment` checks before it counts failures. -/
structure CheckedFirst (weight : Nat) (old next : String × Nat) : Prop where
  grows : old.2 ≤ next.2
  products : old.1 ≠ next.1 → weight ≠ 0 →
    old.2 * weight ≤ u64Max ∧ (next.2 - old.2) * weight ≤ u64Max

/-- What it then does succeeds. -/
def Assigns (state : Aggregation) (weight : Nat)
    (old next : String × Nat) : Prop :=
  if old.1 = next.1 then
    state.Admits next.1 (next.2 - old.2) weight
  else weight = 0 ∨ state.AdmitsMove old.1 next.1 (old.2 * weight)
    ((next.2 - old.2) * weight)

theorem assignmentMove_cases {weight d : Nat} {old : String × Nat}
    {o : String} :
    (∃ change, assignmentMove weight old.2 d old.1 o = .ok change
      ∧ (old.1 ≠ o → weight ≠ 0 →
        old.2 * weight ≤ u64Max ∧ d * weight ≤ u64Max)
      ∧ ∀ ranking, (∃ n, change ranking = .ok n)
        ↔ if old.1 = o then ranking.state.Admits o d weight
          else weight = 0 ∨ ranking.state.AdmitsMove old.1 o
            (old.2 * weight) (d * weight))
    ∨ (∃ error, assignmentMove weight old.2 d old.1 o
        = .error error)
      ∧ old.1 ≠ o ∧ weight ≠ 0
      ∧ ¬ (old.2 * weight ≤ u64Max ∧ d * weight ≤ u64Max) := by
  unfold assignmentMove
  by_cases hopt : old.1 = o
  · rw [if_pos hopt]
    refine .inl ⟨_, rfl, fun hne => absurd hopt hne, fun ranking => ?_⟩
    rw [if_pos hopt, ← Aggregation.apply_isOk]
    constructor
    · rintro ⟨n, h⟩
      obtain ⟨state, hs, -⟩ := bind_eq_ok.1 h
      exact ⟨state, hs⟩
    · rintro ⟨state, hs⟩
      exact ⟨_, bind_eq_ok.2 ⟨state, hs, rfl⟩⟩
  rw [if_neg hopt]
  by_cases hwt : weight = 0
  · rw [if_pos hwt]
    refine .inl ⟨_, rfl, fun _ hne => absurd hwt hne, fun ranking => ?_⟩
    rw [if_neg hopt]
    exact ⟨fun _ => .inl hwt, fun _ => ⟨ranking, rfl⟩⟩
  rw [if_neg hwt]
  by_cases hold : old.2 * weight ≤ u64Max
  · rw [checkedMul_eq_some.2 ⟨hold, rfl⟩]
    by_cases hd : d * weight ≤ u64Max
    · rw [checkedMul_eq_some.2 ⟨hd, rfl⟩]
      refine .inl ⟨_, rfl, fun _ _ => ⟨hold, hd⟩, fun ranking => ?_⟩
      rw [if_neg hopt, or_iff_right hwt, ← Aggregation.reassign_isOk]
      constructor
      · rintro ⟨n, h⟩
        obtain ⟨state, hs, -⟩ := bind_eq_ok.1 h
        exact ⟨state, hs⟩
      · rintro ⟨state, hs⟩
        exact ⟨_, bind_eq_ok.2 ⟨state, hs, rfl⟩⟩
    · have hn : checkedMul d weight = none := if_neg hd
      rw [hn]
      exact .inr ⟨⟨_, rfl⟩, hopt, hwt, fun h => hd h.2⟩
  · have hn : checkedMul old.2 weight = none := if_neg hold
    rw [hn]
    exact .inr ⟨⟨_, rfl⟩, hopt, hwt, fun h => hold h.1⟩

end Ranking

namespace Ranking

variable {ranking : Ranking}

theorem applyAssignment_fails {b : Option (String × Nat)}
    {next : String × Nat}
    (h : (applyAssignment b next ranking).1 = .error error) :
    ranking.SameAccounts (applyAssignment b next ranking).2 := by
  unfold applyAssignment at h ⊢
  rw [look_bind] at h ⊢
  split
  · next change hchg =>
    rw [hchg] at h
    exact orFault_fails h
  · exact .refl ranking

variable {weight : Nat}

section

variable (hwt : ranking.definition.assignmentWeight = .ok weight)
include hwt

section

variable (hpaus : ranking.paused = false)
include hpaus

theorem applyAssignment_eq (b : Option (String × Nat))
    (n : String × Nat) : applyAssignment b n ranking
      = (Effect.lift (okOr (checkedSub n.2 (b.getD (n.1, 0)).2)
          Error.insufficientScore >>= fun d =>
            assignmentMove weight (b.getD (n.1, 0)).2 d
              (b.getD (n.1, 0)).1 n.1) >>= orFault) ranking := by
  refine bind_congr (Prod.ext ?_ rfl)
  show (ranking.definition.assignmentWeight >>= _) = _
  rw [hwt]
  rw [ensure_true hpaus]
  rfl

theorem applyAssignment_counts (b : Option (String × Nat))
    (next : String × Nat) :
    CountsFailure (applyAssignment b next) ranking
      ↔ CheckedFirst weight (b.getD (next.1, 0)) next
        ∧ (ranking.rejected < u64Max
          ∨ Assigns ranking.state weight (b.getD (next.1, 0)) next) := by
  have heq := applyAssignment_eq hwt hpaus b next
  generalize b.getD (next.1, 0) = old at heq ⊢
  -- a call that fails at once shows nothing
  have hsil : ∀ {error : Error},
      applyAssignment b next ranking = (.error error, ranking) →
      ¬ CountsFailure (applyAssignment b next) ranking := by
    intro error hf hc
    have hl := hc error (by rw [hf])
    rw [hf] at hl
    exact Nat.lt_irrefl _ hl
  by_cases hg : old.2 ≤ next.2
  · rw [checkedSub_eq_some.2 ⟨hg, rfl⟩] at heq
    rcases @assignmentMove_cases weight (next.2 - old.2) old next.1 with
      ⟨change, hmv, hp, hchg⟩
      | ⟨⟨error, hmv⟩, hopt, hne, hp⟩
    · have ht := heq.trans (bind_ok
        (lift_ok (a := change) hmv ranking))
      have hc : CountsFailure (applyAssignment b next) ranking
          ↔ CountsFailure (orFault change) ranking := by
        unfold CountsFailure
        rw [ht]
      rw [hc, orFault_counts, hchg]
      exact ⟨fun h => ⟨⟨hg, hp⟩, h⟩, fun h => h.2⟩
    · have hf := heq.trans (bind_error
        (lift_error (e := error) hmv ranking))
      exact iff_of_false (hsil hf) fun h =>
        hp (h.1.products hopt hne)
  · have hn : checkedSub next.2 old.2 = none := if_neg hg
    rw [hn] at heq
    have hf := heq.trans (bind_error
      (lift_error (e := Error.insufficientScore) rfl ranking))
    exact iff_of_false (hsil hf) fun h => hg h.1.grows

theorem applyCommittedScore_eq (o : String) (v : Nat) :
    applyCommittedScore o v ranking
      = orFault (fun ranking => do
          let state ← ranking.state.apply o v 1
          return { ranking with state }) ranking := by
  refine bind_ok (look_ok (a := ()) ?_)
  rw [hwt]
  exact ensure_true hpaus

omit hpaus in
omit hwt in
theorem applyCommittedScore_fails {o : String} {v : Nat}
    (h : (applyCommittedScore o v ranking).1 = .error error) :
    ranking.SameAccounts (applyCommittedScore o v ranking).2 := by
  unfold applyCommittedScore at h ⊢
  rw [look_bind] at h ⊢
  split
  · next _ hc =>
    rw [hc] at h
    exact orFault_fails h
  · exact .refl ranking

theorem applyCommittedScore_counts (o : String) (v : Nat) :
    CountsFailure (applyCommittedScore o v) ranking
      ↔ ranking.rejected < u64Max ∨ ranking.state.Admits o v 1 := by
  have hc : CountsFailure (applyCommittedScore o v) ranking
      ↔ CountsFailure (orFault fun ranking => do
          let state ← ranking.state.apply o v 1
          return { ranking with state }) ranking := by
    unfold CountsFailure
    rw [applyCommittedScore_eq hwt hpaus]
  rw [hc, orFault_counts, ← Aggregation.apply_isOk]
  constructor
  · rintro (hl | ⟨next, h⟩)
    · exact .inl hl
    · obtain ⟨state, hs, -⟩ := bind_eq_ok.1 h
      exact .inr ⟨state, hs⟩
  · rintro (hl | ⟨state, hs⟩)
    · exact .inl hl
    · exact .inr ⟨_, bind_eq_ok.2 ⟨state, hs, rfl⟩⟩

end

end

theorem change_fails (h : (Effect.change change ranking).1 = .error error) :
    (Effect.change change ranking).2 = ranking := by
  unfold Effect.change at h ⊢
  split
  · next next hchg =>
    rw [hchg] at h
    cases h
  · rfl

end Ranking

-- ==== calls

namespace Engine

/-- The calls that account votes and contributions. -/
inductive Accounting where
  | apply (contribution : Contribution) (now : Nat)
      (user gift : Option EntryMetadata)
  | applyAssignment (id : String) (before : Option (String × Nat))
      (next : String × Nat)
  | applyCommittedScore (id option : String) (value : Nat)
  | restoreAssignments (id : String) (totals scored : List (String × Nat))

namespace Accounting

def op : Accounting → Op
  | apply contribution now user gift => .apply contribution now user gift
  | applyAssignment id before next => .applyAssignment id before next
  | applyCommittedScore id option value =>
    .applyCommittedScore id option value
  | restoreAssignments id totals scored =>
    .restoreAssignments id totals scored

/-- The failure of a call on one ranking. -/
def failure (id : String) : Except Error Unit → List (String × Error)
  | .ok () => []
  | .error error => [(id, error)]

/-- What a call reports: the rankings it failed for, and why. -/
def failures (engine : Engine) : Accounting → List (String × Error)
  | apply contribution now user gift =>
    (applyAt contribution now user gift engine).2
  | applyAssignment id before next => failure id
      (within id (Ranking.applyAssignment before next) engine).1
  | applyCommittedScore id option value => failure id
      (within id (Ranking.applyCommittedScore option value) engine).1
  | restoreAssignments id totals scored => failure id
      (within id (Effect.change fun ranking =>
        ranking.restoreAssignmentsWithScores totals scored) engine).1

/-- A ranking as time alone leaves it. -/
def timed : Accounting → Ranking → Ranking
  | apply _ now _ _, ranking => (Ranking.expireRanking now ranking).2
  | _, ranking => ranking

/-- A ranking that runs and counts votes. -/
def Votable (ranking : Ranking) : Prop :=
  ranking.paused = false
    ∧ ∃ weight, ranking.definition.assignmentWeight = .ok weight

/-- The rankings at which a failure of the call has to show. -/
def Shows : Accounting → Ranking → Prop
  | applyAssignment _ _ _, ranking => Votable ranking
  | applyCommittedScore _ _ _, ranking => Votable ranking
  | _, _ => False

/-- A failed call accounts for nothing, and shows where it has to. -/
def FailsCleanly (engine : Engine) (call : Accounting) : Prop :=
  ∀ id error, (id, error) ∈ call.failures engine →
    ∀ ranking, engine.rankings[id]? = some ranking →
      ∃ after, (engine.perform call.op).rankings[id]? = some after
        ∧ (call.timed ranking).SameAccounts after
        ∧ (call.Shows ranking → ranking.rejected < after.rejected)

/-- When the failures of a call are all counted: those that are found
before there is a result to count, and a counter that is full, are what
goes wrong. -/
def CountsFailures (engine : Engine) : Accounting → Prop
  | applyAssignment id before next =>
    ∀ ranking weight, engine.rankings[id]? = some ranking →
      ranking.paused = false →
      ranking.definition.assignmentWeight = .ok weight →
      Ranking.CheckedFirst weight (before.getD (next.1, 0)) next
        ∧ (ranking.rejected < u64Max
          ∨ Ranking.Assigns ranking.state weight
            (before.getD (next.1, 0)) next)
  | applyCommittedScore id option value =>
    ∀ ranking weight, engine.rankings[id]? = some ranking →
      ranking.paused = false →
      ranking.definition.assignmentWeight = .ok weight →
      ranking.rejected < u64Max ∨ ranking.state.Admits option value 1
  | _ => True

end Accounting

open Accounting

variable {other : String}

theorem mem_failure {result : Except Error Unit} :
    (other, error) ∈ failure id result
      ↔ other = id ∧ result = .error error := by
  cases result with
  | ok u => exact ⟨fun h => (nomatch h), fun h => (nomatch h.2)⟩
  | error e =>
    show (other, error) ∈ [(id, e)] ↔ _
    rw [mem_singleton, Prod.mk.injEq, Except.error.injEq,
      eq_comm (a := error)]

variable {engine : Engine} {ranking : Ranking}

theorem failed_within {act : Effect Ranking Error Unit}
    (hr : engine.rankings[other]? = some ranking) :
    (other, error) ∈ failure id (within id act engine).1
      ↔ other = id ∧ (act ranking).1 = .error error := by
  rw [mem_failure]
  refine and_congr_right fun hid => ?_
  subst hid
  unfold within
  rw [hr]

theorem after_within (act : Effect Ranking Error Unit)
    (hr : engine.rankings[id]? = some ranking) :
    (within id act engine).2.rankings[id]? = some (act ranking).2 := by
  rw [get_within, if_pos rfl, hr]
  rfl

theorem failed_forSource (hnm : NamedOnce engine.bySource)
    {s : String} {act : Ranking → Ranking × Option Error}
    (hr : engine.rankings[id]? = some ranking)
    (h : (id, error) ∈ (engine.forSource s act).2) :
    id ∈ engine.bySource[s]?.getD [] ∧ (act ranking).2 = some error := by
  unfold forSource at h
  have hn := hnm s
  clear hnm
  generalize engine.bySource[s]?.getD [] = ids at hn h ⊢
  -- what the fold starts with takes part in the induction
  have hno : (id, error) ∉ ([] : List (String × Error)) := not_mem_nil
  generalize ([] : List (String × Error)) = f at h hno
  refine Or.resolve_left ?_ hno
  clear hno
  induction ids generalizing engine ranking f with
  | nil => exact .inl h
  | cons other rest ih =>
    rw [nodup_cons] at hn
    rw [foldl_cons] at h
    dsimp only at h
    cases ho : engine.rankings[other]? with
    | none =>
      rw [ho] at h
      exact (ih hr hn.2 f h).imp_right fun h =>
        ⟨mem_cons_of_mem _ h.1, h.2⟩
    | some fo =>
      rw [ho] at h
      by_cases hid : other = id
      · subst hid
        cases ho.symm.trans hr
        rcases ih (Table.get_insert_self _ _ _) hn.2 _ h with
          hin | ⟨hin, -⟩
        · rcases mem_append.1 hin with hin | hin
          · exact .inl hin
          · obtain ⟨e, he, hp⟩ := mem_map.1 hin
            cases hp
            exact .inr ⟨mem_cons_self, mem_toList.1 he⟩
        · exact absurd hin hn.1
      · have hk : ({ engine with
            rankings := engine.rankings.insert other (act fo).1
            } : Engine).rankings[id]? = some ranking := by
          rw [Table.get_insert_ne _ _ hid, hr]
        rcases ih hk hn.2 _ h with hin | ⟨hin, herr⟩
        · rw [mem_append] at hin
          refine hin.imp_right fun hin => ?_
          obtain ⟨e, -, he⟩ := mem_map.1 hin
          cases he
          exact absurd rfl hid
        · exact .inr ⟨mem_cons_of_mem _ hin, herr⟩

/-- Failed accounting leaves the accounts alone, and it shows unless it
is one of the failures that are not counted. -/
theorem failed_accounting {engine : Engine} (h : Reachable engine)
    (call : Accounting) :
    call.FailsCleanly engine ↔ call.CountsFailures engine := by
  cases call with
  | apply c now user gift =>
    refine iff_of_true ?_ trivial
    intro id error hf ranking hr
    obtain ⟨hn, herr⟩ := failed_forSource h.named_once hr hf
    have ha := get_forSource c.source id
      (fun ranking => ranking.contribute c now user gift)
      h.named_once
    rw [hr, map_some, if_pos hn] at ha
    exact ⟨_, ha, contribute_fails herr, False.elim⟩
  | restoreAssignments id totals scored =>
    refine iff_of_true ?_ trivial
    intro other error hf ranking hr
    obtain ⟨rfl, herr⟩ := (failed_within hr).1 hf
    refine ⟨_, after_within _ hr, ?_, False.elim⟩
    rw [change_fails herr]
    exact .refl ranking
  | applyAssignment id before next =>
    constructor
    · intro hc ranking weight hr hpaus hwt
      rw [← applyAssignment_counts hwt hpaus]
      intro error herr
      obtain ⟨after, ha, -, hs⟩ := hc id error
        ((failed_within hr).2 ⟨rfl, herr⟩) ranking hr
      cases (after_within _ hr).symm.trans ha
      exact hs ⟨hpaus, weight, hwt⟩
    · intro hcn other error hf ranking hr
      obtain ⟨rfl, herr⟩ := (failed_within hr).1 hf
      refine ⟨_, after_within _ hr, applyAssignment_fails herr, ?_⟩
      intro hv
      obtain ⟨hpaus, weight, hwt⟩ := hv
      exact (applyAssignment_counts hwt hpaus before
        next).2 (hcn ranking weight hr hpaus hwt)
        error herr
  | applyCommittedScore id option value =>
    constructor
    · intro hc ranking weight hr hpaus hwt
      rw [← applyCommittedScore_counts hwt hpaus]
      intro error herr
      obtain ⟨after, ha, -, hs⟩ := hc id error
        ((failed_within hr).2 ⟨rfl, herr⟩) ranking hr
      cases (after_within _ hr).symm.trans ha
      exact hs ⟨hpaus, weight, hwt⟩
    · intro hcn other error hf ranking hr
      obtain ⟨rfl, herr⟩ := (failed_within hr).1 hf
      refine ⟨_, after_within _ hr, applyCommittedScore_fails herr, ?_⟩
      intro hv
      obtain ⟨hpaus, weight, hwt⟩ := hv
      exact (applyCommittedScore_counts hwt hpaus option
        value).2 (hcn ranking weight hr hpaus hwt)
        error herr

/-- A poll whose votes weigh as much as they may. -/
def heavyPoll : Definition where
  schemaVersion := 1
  id := "poll"
  creatorId := "c"
  roomId := "r"
  groupBy := .option
  sources := [⟨"competition.vote", "event.count", 1000000000, true, []⟩]
  limit := 3
  capacity := 5

def polled : Engine :=
  empty.perform (.create (some (.replicate 16 0)) heavyPoll)

theorem polled_reachable : Reachable polled := .perform _ .empty

/-- Twenty billion votes that change sides overflow, and nothing shows
it. -/
theorem silent_overflow :
    ∃ engine, Reachable engine ∧ ∃ call : Accounting,
      ¬ call.FailsCleanly engine := by
  refine ⟨polled, polled_reachable, .applyAssignment "poll"
    (some ("red", 20000000000)) ("blue", 20000000000), ?_⟩
  intro hc
  have hcn := (failed_accounting polled_reachable _).1 hc
    (.fresh heavyPoll 1 (.replicate 16 0)) 1000000000 rfl rfl rfl
  have hp := hcn.1.products (by decide) (by decide)
  exact absurd hp.1 (by decide)

/-- A score under no option is refused, and it shows. -/
theorem failed_accounting_polled :
    Accounting.FailsCleanly polled (.applyCommittedScore "poll" "" 5) :=
  (failed_accounting polled_reachable _).2 fun ranking _ hr _ _ =>
    .inl (by
      have hz : polled.rankings["poll"]?.map Ranking.rejected = some 0 := rfl
      rw [hr, map_some] at hz
      rw [Option.some.inj hz]
      decide)

end Engine

end TikTools.Aggregation
