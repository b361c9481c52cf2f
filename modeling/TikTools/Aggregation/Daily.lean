/-
The daily window over a whole run.

A daily ranking begins anew when its clock, which never goes back, enters
another local day; it finds out at the first call after that.
`Ranking.visit` is what becomes of one contribution at a ranking, with
the clock it is counted at, and `Totals` says that the scores, the
records of the users and the counters are those of a list of visits. A
rollover empties the list, and it is the visits of the current day in
every state (`Daily`).

The local time is cut off at the largest 64-bit integer (`dayOf`), so
that every later time is on one day. Up to there the day is the usual
one (`dayOf_eq`).
-/
import TikTools.Aggregation.Indexed

namespace TikTools.Aggregation

open TikTools.Lib Std Option Aggregation Effect Ranking

-- ==== local days

/-- The local day of a time, without a largest one. -/
def localDay (utcOffsetMinutes : Int) (time : Nat) : Int :=
  (time + utcOffsetMinutes * 60000) / 86400000

namespace Ranking

theorem dayOf_eq {offset : Int} {time : Nat} (ht : time ≤ i64Max)
    (hl : time + offset * 60000 ≤ i64Max) :
    dayOf offset time = localDay offset time := by
  unfold dayOf localDay
  rw [min_eq_left ht, min_eq_left hl]

theorem dayOf_late (offset : Int) {t : Nat} (ht : i64Max ≤ t) :
    dayOf offset t = dayOf offset i64Max := by
  unfold dayOf
  rw [min_eq_right ht, min_eq_left (Nat.le_refl i64Max)]

theorem dayOf_mono (offset : Int) {time later : Nat} (h : time ≤ later) :
    dayOf offset time ≤ dayOf offset later := by
  refine Int.ediv_le_ediv (by decide) ?_
  omega

-- ==== visits

/-- What becomes of a contribution at a ranking, and when on the clock of
the ranking. -/
structure Visit where
  clock : Nat
  user : Option String
  outcome : Outcome
  event : Option WindowEvent

/-- A contribution visits the rankings of its scope that run. -/
def visit (ranking : Ranking) (contribution : Contribution) (now : Nat)
    (user gift : Option EntryMetadata) : Option Visit :=
  if ranking.InScope contribution.creatorId contribution.roomId then some {
    clock := max ranking.lastTime now
    user := contribution.user
    outcome := ranking.outcome contribution now user gift
    event := ranking.admitted contribution now }
  else none

/-- What was accepted. -/
def eventsOf (visits : List Visit) : List WindowEvent :=
  visits.filterMap Visit.event

/-- By whom it was accepted. -/
def acceptances (visits : List Visit) : List Acceptance :=
  visits.flatMap fun visit =>
    if visit.outcome = .accepted then
      visit.user.toList.map fun name => (name, visit.clock)
    else []

def countOf (outcome : Outcome) (visits : List Visit) : Nat :=
  visits.countP fun visit => visit.outcome = outcome

/-- The scores, the records and the counters are those of the visits. -/
structure Totals (ranking : Ranking) (visits : List Visit) : Prop where
  scores : ∀ key : String,
    ranking.state.scores[key]?.getD 0 = sumFor key (eventsOf visits)
  total : ranking.state.total = ((eventsOf visits).map (·.2.2)).sum
  users : ranking.Obeys (acceptances visits)
  rejected : ranking.rejected = countOf .refused visits
  limited : ranking.limited = countOf .limited visits
  cooldownRejected : ranking.cooldownRejected = countOf .cooldown visits
  dropped : ranking.dropped = 0
  shown : ranking.rejected + ranking.limited + ranking.cooldownRejected
    ≤ ranking.state.revision

variable {ranking next : Ranking} {visits : List Visit} {offset : Int}

theorem countOf_append (o : Outcome) (visits : List Visit)
    (visit : Visit) : countOf o (visits ++ [visit])
      = countOf o visits + if visit.outcome = o then 1 else 0 := by
  unfold countOf
  rw [List.countP_append, List.countP_singleton]
  simp only [decide_eq_true_eq]

theorem acceptances_append (visits : List Visit) (visit : Visit) :
    acceptances (visits ++ [visit]) = acceptances visits
      ++ if visit.outcome = .accepted then
          visit.user.toList.map fun n => (n, visit.clock)
        else [] := by
  unfold acceptances
  rw [List.flatMap_append, List.flatMap_singleton]

theorem eventsOf_append (visits : List Visit) (visit : Visit) :
    eventsOf (visits ++ [visit]) = eventsOf visits ++ visit.event.toList := by
  unfold eventsOf
  rw [List.filterMap_append]
  cases visit with
  | mk clock user outcome e => cases e <;> rfl

theorem Totals.pass (h : ranking.Totals visits) {visit : Visit}
    (hev : visit.event = none) (ha : visit.outcome ≠ .accepted)
    (hv : next.limitView = ranking.limitView)
    (hs : next.state.scores = ranking.state.scores)
    (ht : next.state.total = ranking.state.total)
    (hr : next.rejected
      = ranking.rejected + if visit.outcome = .refused then 1 else 0)
    (hl : next.limited
      = ranking.limited + if visit.outcome = .limited then 1 else 0)
    (hc : next.cooldownRejected = ranking.cooldownRejected
      + if visit.outcome = .cooldown then 1 else 0)
    (hd : next.dropped = ranking.dropped)
    (hsh : next.rejected + next.limited + next.cooldownRejected
      ≤ next.state.revision) :
    next.Totals (visits ++ [visit]) where
  scores key := by
    rw [hs, h.scores, eventsOf_append, hev, toList_none, List.append_nil]
  total := by
    rw [ht, h.total, eventsOf_append, hev, toList_none, List.append_nil]
  users := by
    rw [acceptances_append, if_neg ha, List.append_nil]
    exact h.users.same hv
  rejected := by rw [hr, h.rejected, countOf_append]
  limited := by rw [hl, h.limited, countOf_append]
  cooldownRejected := by
    rw [hc, h.cooldownRejected, countOf_append]
  dropped := hd.trans h.dropped
  shown := hsh

theorem Totals.empty (hv : ranking.definition.valid = true)
    (hs : ranking.state.scores = ∅) (ht : ranking.state.total = 0)
    (hu : ranking.users = ∅) (hr : ranking.rejected = 0)
    (hl : ranking.limited = 0)
    (hc : ranking.cooldownRejected = 0)
    (hd : ranking.dropped = 0) : ranking.Totals [] where
  scores key := by
    rw [hs, ExtTreeMap.getElem?_empty]
    rfl
  total := ht
  users := by
    unfold Obeys
    rw [hu]
    exact .empty hv _
  rejected := hr
  limited := hl
  cooldownRejected := hc
  dropped := hd
  shown := by
    rw [hr, hl, hc]
    exact Nat.zero_le _

theorem Totals.later (h : ranking.Totals visits) {t : Nat}
    (ht : ranking.lastTime ≤ t) :
    Totals { ranking with lastTime := t } visits :=
  ⟨h.scores, h.total, Limited.later h.users ht, h.rejected, h.limited,
    h.cooldownRejected, h.dropped, h.shown⟩

-- ==== contributions

theorem fault_revision (h : ranking.fault.state.revision < u64Max) :
    ranking.fault.state.revision = ranking.state.revision + 1 := by
  unfold fault touched at h ⊢
  dsimp only at h ⊢
  split at h
  · next state hs => rw [touch_eq hs]
  · next error he =>
    have hsp := touch_error he
    omega

theorem touched_same (s : Aggregation) :
    (touched s).scores = s.scores ∧ (touched s).total = s.total := by
  unfold touched
  split
  · next next hn =>
    rw [touch_eq hn]
    exact ⟨rfl, rfl⟩
  · exact ⟨rfl, rfl⟩

theorem saturatingAdd_shown {c r : Nat} (h : c ≤ r)
    (hl : r < u64Max) : saturatingAdd c 1 = c + 1 :=
  min_eq_left (by omega)

theorem Totals.refused (h : ranking.Totals visits) {visit : Visit}
    (ho : visit.outcome = .refused) (hev : visit.event = none)
    (hl : ranking.fault.state.revision < u64Max) :
    ranking.fault.Totals (visits ++ [visit]) := by
  have hrev := fault_revision hl
  have hs := h.shown
  have hrej : ranking.fault.rejected = ranking.rejected + 1 :=
    saturatingAdd_shown (by omega : _ ≤ ranking.state.revision) (by omega)
  have hlim : ranking.fault.limited = ranking.limited := rfl
  have hc : ranking.fault.cooldownRejected = ranking.cooldownRejected := rfl
  refine h.pass hev ?_ rfl (touched_same _).1 (touched_same _).2 ?_ ?_ ?_
    rfl ?_
  · rw [ho]
    decide
  · rw [ho, if_pos rfl]
    exact hrej
  · rw [ho, if_neg (by decide)]
    rfl
  · rw [ho, if_neg (by decide)]
    rfl
  · omega

theorem outcome_accepted {contribution : Contribution}
    {e : WindowEvent} (user gift : Option EntryMetadata)
    (h : ranking.offered contribution = some e) :
    ranking.accountOutcome contribution user gift = .ok .accepted := by
  obtain ⟨v, key, hs, hk, hz, hf, hd, ⟨state, hst⟩, -⟩ := offered_eq_some h
  unfold accountOutcome
  rw [hs, hk, hd, ensure_true hf]
  show (if v = 0 then _ else _) = _
  rw [if_neg hz]
  show (ranking.accept contribution key v user gift >>= fun _ => _) = _
  unfold accept
  rw [hst]
  rfl

variable {user : Option EntryMetadata}

theorem outcome_offered {contribution : Contribution}
    {gift : Option EntryMetadata}
    (h : ranking.accountOutcome contribution user gift = .ok .accepted) :
    ranking.offered contribution ≠ none := by
  intro hn
  obtain ⟨value, hs, h⟩ := bind_eq_ok.1 h
  split at h
  · cases h
  · next hz =>
    obtain ⟨key, hk, h⟩ := okOr_ok.1 h
    obtain ⟨hf, h⟩ := ensure_ok.1 h
    obtain ⟨d, hd, h⟩ := bind_eq_ok.1 h
    cases d with
    | limited =>
      obtain ⟨s, -, h⟩ := bind_eq_ok.1 h
      cases h
    | cooldown =>
      obtain ⟨s, -, h⟩ := bind_eq_ok.1 h
      cases h
    | allowed =>
      obtain ⟨next, ha, -⟩ := bind_eq_ok.1 h
      obtain ⟨s, hst, -⟩ := bind_eq_ok.1 ha
      unfold offered at hn
      rw [hs, hk] at hn
      dsimp only at hn
      rw [if_pos ⟨hz, hf, hd, by rw [hst]; rfl⟩] at hn
      cases hn

section

variable (h : ranking.Totals visits)
include h

variable {contribution : Contribution} {gift : Option EntryMetadata}
  {visit : Visit}

theorem Totals.accepted {key : String} {v : Nat}
    (hcl : visit.clock = next.lastTime)
    (hu : visit.user = contribution.user)
    (ho : visit.outcome = .accepted)
    (hev : visit.event = some (ranking.lastTime, key, v))
    (hv : v ≠ 0)
    (hal : ranking.userDecision contribution.user = .ok .allowed)
    (hac : ranking.accept contribution key v user gift
      = .ok next) : next.Totals (visits ++ [visit]) := by
  have ha := accept_adds hv hac
  have hc := ha.counters
  rw [Prod.mk.injEq, Prod.mk.injEq, Prod.mk.injEq] at hc
  obtain ⟨hr, hl, hco, hd⟩ := hc
  constructor
  · intro o
    rw [ha.scores, get_put, eventsOf_append, hev,
      toList_some, sumFor_append, sumFor_cons]
    by_cases hkey : key = o
    · subst hkey
      rw [if_pos rfl, if_pos rfl, getD_some, h.scores]
      rfl
    · rw [if_neg hkey, if_neg hkey, h.scores]
      rfl
  · rw [ha.total, h.total, eventsOf_append, hev,
      toList_some, List.map_append, List.sum_append]
    rfl
  · rw [acceptances_append, if_pos ho, hu, hcl]
    exact h.users.accept hal hac
  · rw [countOf_append, ho, if_neg (by decide), hr]
    exact h.rejected
  · rw [countOf_append, ho, if_neg (by decide), hl]
    exact h.limited
  · rw [countOf_append, ho, if_neg (by decide), hco]
    exact h.cooldownRejected
  · exact hd.trans h.dropped
  · have hs := h.shown
    have hrev := ha.revision
    omega

theorem Totals.held {state : Aggregation} (hev : visit.event = none)
    (htc : ranking.state.touch = .ok state)
    (hl : state.revision < u64Max) :
    (visit.outcome = .limited → Totals { ranking with
        state, limited := saturatingAdd ranking.limited 1 }
      (visits ++ [visit]))
    ∧ (visit.outcome = .cooldown → Totals { ranking with
        state
        cooldownRejected := saturatingAdd ranking.cooldownRejected 1 }
      (visits ++ [visit])) := by
  have hsh := h.shown
  have hs := touch_eq htc
  have hrev : state.revision = ranking.state.revision + 1 := by
    rw [hs]
  have hsc : state.scores = ranking.state.scores := by rw [hs]
  have ht : state.total = ranking.state.total := by rw [hs]
  have hlim : saturatingAdd ranking.limited 1 = ranking.limited + 1 :=
    saturatingAdd_shown (by omega : _ ≤ ranking.state.revision) (by omega)
  have hc : saturatingAdd ranking.cooldownRejected 1
      = ranking.cooldownRejected + 1 :=
    saturatingAdd_shown (by omega : _ ≤ ranking.state.revision) (by omega)
  constructor
  · intro ho
    refine h.pass hev ?_ rfl hsc ht ?_ ?_ ?_ rfl ?_
    · rw [ho]
      decide
    · rw [ho, if_neg (by decide)]
      rfl
    · rw [ho, if_pos rfl]
      exact hlim
    · rw [ho, if_neg (by decide)]
      rfl
    · dsimp only
      omega
  · intro ho
    refine h.pass hev ?_ rfl hsc ht ?_ ?_ ?_ rfl ?_
    · rw [ho]
      decide
    · rw [ho, if_neg (by decide)]
      rfl
    · rw [ho, if_neg (by decide)]
      rfl
    · rw [ho, if_pos rfl]
      exact hc
    · dsimp only
      omega

theorem Totals.ignored
    (ho : visit.outcome = .ignored) (hev : visit.event = none) :
    ranking.Totals (visits ++ [visit]) := by
  refine h.pass hev ?_ rfl rfl rfl ?_ ?_ ?_ rfl h.shown
  · rw [ho]
    decide
  · rw [ho, if_neg (by decide)]
    rfl
  · rw [ho, if_neg (by decide)]
    rfl
  · rw [ho, if_neg (by decide)]
    rfl

omit h in
theorem account_failed {e : Error}
    (h : ranking.account contribution user gift = .error e) :
    ranking.accountOutcome contribution user gift = .error e
      ∧ ranking.offered contribution = none := by
  have hc := ranking.account_cases contribution user gift
  rw [h] at hc
  constructor
  · generalize ranking.accountOutcome contribution user gift = outcome
      at hc
    cases hc with
    | refused => rfl
  · cases ho : ranking.offered contribution with
    | none => rfl
    | some event =>
      obtain ⟨_, _, _, -, ha, -⟩ := account_offered user gift ho
      rw [h] at ha
      cases ha

theorem Totals.account
    (hac : ranking.account contribution user gift = .ok next)
    (hl : next.state.revision < u64Max) :
    ∃ o, ranking.accountOutcome contribution user gift = .ok o
      ∧ next.definition = ranking.definition
      ∧ next.lastTime = ranking.lastTime
      ∧ ∀ visit : Visit, visit.clock = ranking.lastTime →
        visit.user = contribution.user → visit.outcome = o →
        visit.event = ranking.offered contribution →
        next.Totals (visits ++ [visit]) := by
  cases hof : ranking.offered contribution with
  | some event =>
    obtain ⟨key, value, taken, rfl, hs, hk, hv, ha,
      hat⟩ := account_offered user gift hof
    rw [hac] at hs
    cases hs
    refine ⟨.accepted, outcome_accepted user gift hof,
      hk.definition, hk.lastTime, ?_⟩
    intro visit hcl hu hacc hev
    exact h.accepted (hcl.trans hk.lastTime.symm) hu hacc hev hv ha hat
  | none =>
    have hr : ranking.accountOutcome contribution user gift
        ≠ .ok .accepted := fun hacc =>
      outcome_offered hacc hof
    have hc := ranking.account_cases contribution user gift
    rw [hac] at hc
    generalize ranking.accountOutcome contribution user gift = o at hc hr
    cases hc with
    | ignored =>
      refine ⟨.ignored, rfl, rfl, rfl, ?_⟩
      intro visit _ _ ho hev
      exact h.ignored ho hev
    | limited ht =>
      refine ⟨.limited, rfl, rfl, rfl, ?_⟩
      intro visit _ _ ho hev
      exact (h.held hev ht hl).1 ho
    | cooldown ht =>
      refine ⟨.cooldown, rfl, rfl, rfl, ?_⟩
      intro visit _ _ ho hev
      exact (h.held hev ht hl).2 ho
    | accepted => exact absurd rfl hr

end

-- ==== the day

/-- The visits of the day the clock is in. -/
def today (offset : Int) (ranking : Ranking) (visits : List Visit) :
    List Visit :=
  visits.filter fun visit =>
    dayOf offset visit.clock = dayOf offset ranking.lastTime

/-- The ranking counts what visited it today. -/
structure Daily (offset : Int) (ranking : Ranking) (visits : List Visit) :
    Prop where
  window : ranking.definition.window = .daily offset
  past : ∀ visit ∈ visits, 0 < visit.clock ∧ visit.clock ≤ ranking.lastTime
  totals : ranking.Totals (today offset ranking visits)

section

variable (h : Daily offset ranking visits)
include h

theorem today_rolled {time : Nat}
    (ht : ranking.lastTime ≤ time)
    (hday : dayOf offset time ≠ dayOf offset ranking.lastTime)
    (hn : next.lastTime = time) : today offset next visits = [] := by
  unfold today
  rw [List.filter_eq_nil_iff]
  intro visit hv hs
  rw [hn, decide_eq_true_eq] at hs
  have hp := dayOf_mono offset (h.past visit hv).2
  have hl := dayOf_mono offset ht
  omega

theorem Daily.later {time : Nat}
    (ht : ranking.lastTime ≤ time)
    (hday : ranking.lastTime = 0
      ∨ dayOf offset time = dayOf offset ranking.lastTime) :
    Daily offset { ranking with lastTime := time } visits where
  window := h.window
  past visit hv := ⟨(h.past visit hv).1, (h.past visit hv).2.trans ht⟩
  totals := by
    have hs : today offset { ranking with lastTime := time } visits
        = today offset ranking visits := by
      refine List.filter_congr fun visit hv => ?_
      have hp := h.past visit hv
      rcases hday with hz | hday
      · omega
      · dsimp only
        rw [hday]
    rw [hs]
    exact h.totals.later ht

theorem Daily.expired (now : Nat)
    (hl : (expireRanking now ranking).2.state.revision < u64Max) :
    ∃ ex, expireRanking now ranking = (.ok (), ex)
      ∧ Daily offset ex visits
      ∧ ex.lastTime = max ranking.lastTime now := by
  have hexp : expireRanking now ranking
      = expireDaily offset now ranking := by
    unfold expireRanking
    rw [h.window]
  rw [hexp] at hl ⊢
  have ht : ranking.lastTime ≤ max ranking.lastTime now := Nat.le_max_left ..
  rw [expireDaily_eq] at hl ⊢
  split at hl
  · next hrl =>
    rw [if_pos hrl]
    cases hr : ranking.state.reset with
    | error error =>
      have hsp := reset_error hr
      rw [change_error (e := error) (by
        rw [hr]
        rfl)] at hl
      dsimp only at hl
      omega
    | ok state =>
      have hs := reset_eq hr
      refine ⟨{ ranking with
        state, users := ∅, rejected := 0, dropped := 0, limited := 0
        cooldownRejected := 0
        lastTime := max ranking.lastTime now }, ?_, ?_, rfl⟩
      · refine change_ok ?_
        rw [hr]
        rfl
      · refine ⟨h.window, ?_, ?_⟩
        · intro visit hv
          exact ⟨(h.past visit hv).1, (h.past visit hv).2.trans ht⟩
        · rw [today_rolled h ht hrl.2 rfl]
          refine .empty h.totals.users.valid ?_ ?_ rfl rfl rfl rfl rfl
          · exact hs ▸ rfl
          · exact hs ▸ rfl
  · next hst =>
    rw [if_neg hst]
    refine ⟨_, rfl, h.later ht ?_, rfl⟩
    by_cases hz : ranking.lastTime = 0
    · exact .inl hz
    · exact .inr (not_not.1 fun hday => hst ⟨hz, hday⟩)

theorem Daily.visited {visit : Visit}
    (hc : visit.clock = ranking.lastTime) (hp : 0 < visit.clock)
    (hd : next.definition = ranking.definition)
    (ht : next.lastTime = ranking.lastTime)
    (htt : next.Totals (today offset ranking visits ++ [visit])) :
    Daily offset next (visits ++ [visit]) where
  window := hd ▸ h.window
  past other ho := by
    rw [ht]
    rcases List.mem_append.1 ho with hl | hn
    · exact h.past other hl
    · cases List.mem_singleton.1 hn
      exact ⟨hp, hc.le⟩
  totals := by
    have hs : today offset next (visits ++ [visit])
        = today offset ranking visits ++ [visit] := by
      unfold today
      rw [ht, List.filter_append, List.filter_singleton, hc,
        decide_eq_true rfl]
      rfl
    rw [hs]
    exact htt

theorem Daily.contribute
    (hsn : ranking.Sane) (contribution : Contribution) {now : Nat}
    (hnow : 0 < now) (user gift : Option EntryMetadata)
    (hl : (ranking.contribute contribution now user
      gift).1.state.revision < u64Max) :
    Daily offset (ranking.contribute contribution now user gift).1
      (visits ++ (ranking.visit contribution now user gift).toList) := by
  unfold Ranking.contribute at hl ⊢
  unfold visit
  by_cases hs : ranking.InScope contribution.creatorId contribution.roomId
  case neg =>
    rw [if_pos hs, if_neg hs, toList_none, List.append_nil]
    exact h
  rw [if_neg (not_not_intro hs)] at hl ⊢
  rw [if_pos hs, toList_some]
  have hsp := (hsn.shown_expired now).2
  have hexp := h.expired now
  unfold outcome admitted
  rw [if_neg (not_not_intro hs), if_neg (not_not_intro hs)]
  rcases hexpire : expireRanking now ranking with ⟨result, e⟩
  rw [hexpire] at hl hsp hexp
  cases result with
  | error error =>
    have hmax : u64Max ≤ e.state.revision := hsp error rfl
    change e.state.revision < u64Max at hl
    omega
  | ok u =>
    dsimp only at hl ⊢
    by_cases hv : contribution.option = none ∧ e.definition.voted = true
    · rw [if_pos hv] at hl ⊢
      rw [if_pos hv, if_pos hv]
      obtain ⟨_, hsm, hd, ht⟩ := hexp hl
      cases hsm
      exact hd.visited ht.symm (by dsimp only; omega) rfl rfl
        (hd.totals.ignored rfl rfl)
    · rw [if_neg hv] at hl ⊢
      rw [if_neg hv, if_neg hv]
      cases ha : e.account contribution user gift with
      | error error =>
        rw [ha] at hl
        have hsh := (shown_fault e).revision
        obtain ⟨_, hsm, hd, ht⟩ := hexp (Nat.lt_of_le_of_lt hsh hl)
        cases hsm
        obtain ⟨ho, hof⟩ := account_failed ha
        refine hd.visited ht.symm (by dsimp only; omega) rfl rfl
          (hd.totals.refused ?_ hof hl)
        rw [ho]
      | ok next =>
        rw [ha] at hl
        have hsh := (shown_account ha).revision
        obtain ⟨_, hsm, hd, ht⟩ := hexp (Nat.lt_of_le_of_lt hsh hl)
        cases hsm
        obtain ⟨outcome, ho, hdef, hls, htt⟩ := hd.totals.account ha hl
        refine hd.visited ht.symm (by dsimp only; omega)
          hdef hls (htt _ ht.symm rfl ?_ rfl)
        rw [ho]

theorem Daily.expireOne (hsn : ranking.Sane) (now : Nat)
    (hl : (ranking.expireOne now).state.revision < u64Max) :
    Daily offset (ranking.expireOne now) visits := by
  have hs := (hsn.shown_expired now).2
  have hexp := h.expired now
  unfold Ranking.expireOne at hl ⊢
  rcases hexpire : expireRanking now ranking with ⟨result, e⟩
  rw [hexpire] at hl hs hexp
  cases result with
  | error error =>
    have hmax : u64Max ≤ e.state.revision := hs error rfl
    change e.state.revision < u64Max at hl
    omega
  | ok u =>
    obtain ⟨_, hsm, hd, -⟩ := hexp hl
    cases hsm
    exact hd

theorem Daily.setPaused {p : Bool}
    (hset : ranking.setPaused p = .ok next) :
    Daily offset next visits := by
  unfold Ranking.setPaused at hset
  split at hset
  · obtain ⟨state, hs, hset⟩ := bind_eq_ok.1 hset
    cases hset
    rw [touch_eq hs]
    have ht := h.totals
    exact ⟨h.window, h.past, ht.scores, ht.total, ht.users,
      ht.rejected, ht.limited, ht.cooldownRejected,
      ht.dropped, Nat.le_succ_of_le ht.shown⟩
  · cases hset
    exact h

end

/-- How a step continues the day: exactly, unless it spends the
revision. -/
structure Carries (offset : Int) (ranking next : Ranking)
    (more : List Visit) : Prop where
  definition : next.definition = ranking.definition
  revision : ranking.state.revision ≤ next.state.revision
  daily : ∀ visits, Daily offset ranking visits →
    next.state.revision < u64Max → Daily offset next (visits ++ more)

theorem Carries.refl (offset : Int) (ranking : Ranking) :
    Carries offset ranking ranking [] := by
  refine ⟨rfl, le_rfl, fun visits h _ => ?_⟩
  rwa [List.append_nil]

theorem Carries.trans {m : Ranking} {mo l : List Visit}
    (h : Carries offset ranking m mo)
    (h' : Carries offset m next l) :
    Carries offset ranking next (mo ++ l) where
  definition := h'.definition.trans h.definition
  revision := h.revision.trans h'.revision
  daily visits hd hl := by
    rw [← List.append_assoc]
    exact h'.daily _ (h.daily visits hd (h'.revision.trans_lt hl)) hl

theorem daily_fresh {d : Definition}
    (hv : d.valid = true)
    (hw : d.window = .daily offset) (n : Nat)
    (b : Vector UInt8 16) :
    Daily offset (.fresh d n b) [] where
  window := hw
  past _ hvs := (List.not_mem_nil hvs).elim
  totals := .empty hv rfl rfl rfl rfl rfl rfl rfl

end Ranking

namespace Engine

-- ==== runs

/-- The calls of a daily run. -/
inductive DayCall where
  | contribute (contribution : Contribution) (now : Nat)
      (user gift : Option EntryMetadata)
  | expireAt (now : Nat)
  | setPaused (id : String) (paused : Bool)

def DayCall.op : DayCall → Op
  | .contribute contribution now user gift =>
    .apply contribution now user gift
  | .expireAt now => .expireAt now
  | .setPaused id paused => .setPaused id paused

/-- The clock of a contribution is not at the beginning of time. -/
def DayCall.Timed : DayCall → Prop
  | .contribute _ now _ _ => 0 < now
  | _ => True

/-- The visits of one call to a ranking. -/
def visits (id : String) (engine : Engine) :
    DayCall → List Ranking.Visit
  | .contribute contribution now user gift =>
    match engine.rankings[id]? with
    | none => []
    | some ranking =>
      if id ∈ engine.bySource[contribution.source]?.getD [] then
        (ranking.visit contribution now user gift).toList
      else []
  | _ => []

def ran (engine : Engine) (calls : List DayCall) : Engine :=
  calls.foldl (fun engine call => engine.perform call.op) engine

/-- The visits of some calls to a ranking. -/
def visited (id : String) : Engine → List DayCall → List Ranking.Visit
  | _, [] => []
  | engine, call :: rest =>
    visits id engine call ++ visited id (engine.perform call.op) rest

variable {offset : Int} {engine : Engine} {id : String}
  {ranking : Ranking}

theorem carries_perform (hrc : Reachable engine)
    (hr : engine.rankings[id]? = some ranking) {call : DayCall}
    (ht : call.Timed) :
    ∃ next, (engine.perform call.op).rankings[id]? = some next
      ∧ ranking.Carries offset next (visits id engine call) := by
  have hs := hrc.sane hr
  cases call with
  | contribute contribution now user gift =>
    show ∃ next, (applyAt contribution now user gift
      engine).1.rankings[id]? = some next ∧ _
    unfold applyAt visits
    rw [get_forSource _ _ _ hrc.named_once, hr, map_some]
    dsimp only
    split
    · refine ⟨_, rfl, ?_, ?_, fun visits hd hl => ?_⟩
      · exact (steady_contribute contribution now user gift
          ranking).definition
      · exact (hs.shown_contribute contribution now user gift).revision
      · exact hd.contribute hs contribution ht user gift hl
    · exact ⟨_, rfl, .refl offset ranking⟩
  | expireAt now =>
    show ∃ next, (ExtTreeMap.map (fun _ ranking =>
      Ranking.expireOne now ranking) engine.rankings)[id]? = some next ∧ _
    rw [Table.get_map, hr, map_some]
    refine ⟨_, rfl, (steady_expireOne now ranking).definition,
      (hs.shown_expireOne now).revision, ?_⟩
    intro e hd hl
    rw [show visits id engine (.expireAt now) = [] from rfl, List.append_nil]
    exact hd.expireOne hs now hl
  | setPaused other paused =>
    show ∃ next, (within other (Effect.change
      (Ranking.setPaused paused)) engine).2.rankings[id]? = some next ∧ _
    rw [get_within]
    split
    · next hsm =>
      subst hsm
      rw [hr, map_some]
      cases hset : ranking.setPaused paused with
      | error error =>
        rw [change_error hset]
        exact ⟨_, rfl, .refl offset ranking⟩
      | ok next =>
        have hst : Ranking.Steady ranking (Effect.change
            (Ranking.setPaused paused) ranking).2 :=
          steady_take (.setPaused paused) rfl ranking
        have hsh : Ranking.Shown ranking (Effect.change
            (Ranking.setPaused paused) ranking).2 :=
          (take_inPlace (.setPaused paused) rfl).shown
        rw [change_ok hset] at hst hsh ⊢
        refine ⟨_, rfl, hst.definition, hsh.revision, ?_⟩
        intro e hd _
        rw [show visits other engine (.setPaused other paused) = []
          from rfl, List.append_nil]
        exact hd.setPaused hset
    · exact ⟨_, hr, .refl offset ranking⟩

theorem carries_ran (c : List DayCall) (hr : Reachable engine)
    (hrn : engine.rankings[id]? = some ranking)
    (ht : ∀ ca ∈ c, ca.Timed) :
    ∃ next, (engine.ran c).rankings[id]? = some next
      ∧ ranking.Carries offset next (visited id engine c) := by
  induction c generalizing engine ranking with
  | nil => exact ⟨ranking, hrn, .refl offset ranking⟩
  | cons ca rest ih =>
    obtain ⟨middle, hm, hs⟩ :=
      carries_perform hr hrn (ht ca List.mem_cons_self)
    obtain ⟨next, hn, hrs⟩ := ih (hr.perform ca.op) hm
      fun o ho => ht o (List.mem_cons_of_mem ca ho)
    exact ⟨next, hn, hs.trans hrs⟩

theorem created_fresh {i : Identity} {d : Definition}
    {engine₀ : Engine}
    (h : create i d engine₀ = (.ok (), engine)) :
    d.valid = true ∧ ∃ b,
      engine.rankings[d.id]? = some
        (.fresh d (engine₀.nextInstance + 1) b) := by
  refine ⟨(created h).1, ?_⟩
  obtain ⟨_, engine₁, hr, h⟩ := bind_eq_ok.1 h
  obtain ⟨_, engine₂, hv, h⟩ := bind_eq_ok.1 h
  obtain ⟨_, engine₃, hnew, h⟩ := bind_eq_ok.1 h
  obtain ⟨b, engine₄, hb, h⟩ := bind_eq_ok.1 h
  obtain ⟨_, engine₅, hn, h⟩ := bind_eq_ok.1 h
  have hs : engine₀.nextInstance = engine₅.nextInstance := by
    cases hn
    cases (Prod.ext_iff.1 hb).2
    cases (Prod.ext_iff.1 hnew).2
    cases (Prod.ext_iff.1 hv).2
    cases (Prod.ext_iff.1 hr).2
    rfl
  unfold Effect.change at h
  split at h
  · next after hc =>
    cases h
    obtain ⟨number, hnum, hc⟩ := okOr_ok.1 hc
    obtain ⟨-, rfl⟩ := checkedAdd_eq_some.1 hnum
    cases hc
    rw [hs]
    exact ⟨b, Table.get_insert_self _ _ _⟩
  · cases h

/-- A daily ranking counts what was accepted in the local day its clock
is in, and nothing of another day. -/
theorem daily_window {engine₀ : Engine} {identity : Identity}
    {definition : Definition} (hreach : Reachable engine₀)
    (hcreate : create identity definition engine₀ = (.ok (), engine))
    (hwindow : definition.window = .daily offset) (calls : List DayCall)
    (htimed : ∀ call ∈ calls, call.Timed) :
    ∃ ranking, (engine.ran calls).rankings[definition.id]? = some ranking
      ∧ ranking.definition = definition
      ∧ (ranking.state.revision < u64Max → ranking.Totals
          (Ranking.today offset ranking (visited definition.id engine calls)))
      ∧ (∀ time : Nat, time ≤ i64Max → time + offset * 60000 ≤ i64Max →
          Ranking.dayOf offset time = localDay offset time)
      ∧ ∀ time : Nat, i64Max ≤ time →
          Ranking.dayOf offset time = Ranking.dayOf offset i64Max := by
  obtain ⟨hv, bytes, hf⟩ := created_fresh hcreate
  have hrc : Reachable engine := by
    have h := hreach.perform (.create identity definition)
    change Reachable (create identity definition engine₀).2 at h
    rwa [hcreate] at h
  obtain ⟨ranking, hr, hc⟩ := @carries_ran offset _ _ _ calls hrc hf htimed
  refine ⟨ranking, hr, hc.definition, fun hl => ?_,
    fun time => dayOf_eq, fun time => dayOf_late offset⟩
  exact (hc.daily [] (daily_fresh hv hwindow _ bytes) hl).totals

/-- A ranking of a room five hours behind. -/
def dailyLikes : Definition where
  schemaVersion := 1
  id := "daily"
  creatorId := "c"
  roomId := "r"
  window := .daily (-300)
  sources := [⟨"tiktok.like", "like.count", 1, true, []⟩]
  limit := 3
  capacity := 3

/-- Two contributions on one local day and one on the next. -/
theorem daily_window_midnight :
    let engine := (create (some (.replicate 16 0)) dailyLikes empty).2
    let calls := [DayCall.contribute fifteenLikes 867600000 none none,
      .contribute fifteenLikes 870600000 none none,
      .contribute fifteenLikes 885600000 none none]
    ∃ ranking, (engine.ran calls).rankings["daily"]? = some ranking
      ∧ ranking.state.total = 15
      ∧ (ranking.state.revision < u64Max → ranking.Totals
          (Ranking.today (-300) ranking (visited "daily" engine calls)))
      := by
  intro engine calls
  have hc : create (some (.replicate 16 0)) dailyLikes empty
      = (.ok (), engine) := rfl
  have htm : ∀ call ∈ calls, call.Timed := by
    simp [calls, DayCall.Timed]
  have ht : (engine.ran calls).rankings["daily"]?.map
      (fun ranking => ranking.state.total) = some 15 := by
    decide +kernel
  obtain ⟨ranking, hr, -, htt, -⟩ := daily_window .empty hc rfl calls htm
  change (engine.ran calls).rankings["daily"]? = some ranking at hr
  rw [hr, map_some, Option.some.injEq] at ht
  exact ⟨ranking, hr, ht, htt⟩

theorem daily_window_late :
    ¬ ∀ (definition : Definition) (offset : Int) (calls : List DayCall)
        (identity : Identity) (engine : Engine) (ranking : Ranking),
      create identity definition empty = (.ok (), engine) →
      definition.window = .daily offset →
      (∀ call ∈ calls, call.Timed) →
      (engine.ran calls).rankings[definition.id]? = some ranking →
      ranking.state.revision < u64Max →
      ranking.state.total = ((Ranking.eventsOf
        ((visited definition.id engine calls).filter fun visit =>
          localDay offset visit.clock
            = localDay offset ranking.lastTime)).map (·.2.2)).sum := by
  intro h
  let engine := (create (some (.replicate 16 0)) dailyLikes empty).2
  let calls := [DayCall.contribute fifteenLikes 9223372036854775808
      none none,
    .contribute fifteenLikes 9223372037027575808 none none]
  have ht : ∀ call ∈ calls, call.Timed := by
    simp [calls, DayCall.Timed]
  have hrdg : (engine.ran calls).rankings["daily"]?.map
      (fun ranking => (ranking.state.total, ranking.state.revision,
        ranking.lastTime)) = some (30, 2, 9223372037027575808) := by
    decide +kernel
  have hsum : ((Ranking.eventsOf ((visited "daily" engine calls).filter
      fun visit => localDay (-300) visit.clock
        = localDay (-300) 9223372037027575808)).map (·.2.2)).sum = 15 := by
    decide +kernel
  obtain ⟨ranking, hrn, hr⟩ := map_eq_some_iff.1 hrdg
  rw [Prod.mk.injEq, Prod.mk.injEq] at hr
  obtain ⟨htt, hrev, htm⟩ := hr
  have hl : ranking.state.revision < u64Max := by
    rw [hrev]
    decide
  have hcr : create (some (.replicate 16 0)) dailyLikes empty
      = (.ok (), engine) := rfl
  have hc := h dailyLikes (-300) calls _ engine ranking hcr rfl ht hrn hl
  rw [htt, htm] at hc
  exact absurd (hc.trans hsum) (by decide)

end Engine

end TikTools.Aggregation
