/-
The accounting of a rolling window.

The window keeps every accepted contribution with the clock at which it
came; the clock of a ranking never goes back. `Ranking.Counted` says
that the scores are the sums of a list of contributions. The expiry loop
takes the contributions out that are too old, from the front, and since
the list is in order of time none that is too old is behind one that is
not. What is taken out was counted, so the loop never finds a key
without a score or less than it takes.
-/
import TikTools.Aggregation.Snapshots
import TikTools.Aggregation.Ranking

namespace TikTools.Aggregation

open TikTools.Lib Std List Aggregation Effect

-- ==== sums of contributions

/-- What the contributions to a key add up to. -/
def sumFor (key : String) (events : List WindowEvent) : Nat :=
  ((events.filter fun event => event.2.1 = key).map (·.2.2)).sum

theorem sumFor_cons (key : String) (event : WindowEvent)
    (events : List WindowEvent) : sumFor key (event :: events)
      = (if event.2.1 = key then event.2.2 else 0) + sumFor key events := by
  unfold sumFor
  rw [filter_cons]
  by_cases h : event.2.1 = key
  · rw [if_pos (decide_eq_true h), if_pos h]
    rfl
  · rw [if_neg (by simpa using h), if_neg h, Nat.zero_add]

theorem sumFor_append (key : String) (events more : List WindowEvent) :
    sumFor key (events ++ more) = sumFor key events + sumFor key more := by
  unfold sumFor
  rw [filter_append, map_append, sum_append]

-- ==== the expiry loop

variable {contribution : Contribution} {result : Except Error Unit × Ranking}
  {rest : List WindowEvent} {event : WindowEvent}

namespace Ranking

/-- The scores are the sums of these contributions. -/
structure Counted (ranking : Ranking) (events : List WindowEvent) :
    Prop where
  represented : ranking.state.Represented
  scores : ∀ key : String,
    ranking.state.scores[key]?.getD 0 = sumFor key events
  positive : ∀ event ∈ events, 0 < event.2.2

/-- Too old for the window at the clock of the ranking. -/
def left (ranking : Ranking) (durationMs : Nat) (event : WindowEvent) :
    Bool :=
  ! (ranking.lastTime - event.1 < durationMs)

/-- The loop takes out no more than there is, at any of its turns. -/
def ExpiresSafely (durationMs : Nat) : List WindowEvent → Ranking → Prop
  | [], _ => True
  | event :: rest, ranking =>
    if ranking.lastTime - event.1 < durationMs then True
    else (∃ held, ranking.state.scores[event.2.1]? = some held
        ∧ event.2.2 ≤ held)
      ∧ event.2.2 ≤ ranking.state.total
      ∧ ∀ state, ranking.state.expire event.2.1 event.2.2 = .ok state →
          ExpiresSafely durationMs rest
            { ranking with state, windowEvents := rest }

variable {durationMs : Nat} {ranking : Ranking}

theorem expireRolling_stay (h : ranking.lastTime - event.1 < durationMs) :
    expireRolling durationMs (event :: rest) ranking = (.ok (), ranking) := by
  show (if ranking.lastTime - event.1 < durationMs
    then (pure () : Effect Ranking Error Unit) else _) ranking = _
  rw [if_pos h]
  rfl

variable {state : Aggregation}

theorem expireRolling_take (h : ¬ ranking.lastTime - event.1 < durationMs)
    (hs : ranking.state.expire event.2.1 event.2.2 = .ok state) :
    expireRolling durationMs (event :: rest) ranking
      = expireRolling durationMs rest
          { ranking with state, windowEvents := rest } := by
  show (if ranking.lastTime - event.1 < durationMs
    then (pure () : Effect Ranking Error Unit) else _) ranking = _
  rw [if_neg h]
  refine bind_ok (change_ok ?_)
  rw [hs]
  rfl

theorem expireRolling_fail
    {e : Error} (h : ¬ ranking.lastTime - event.1 < durationMs)
    (hs : ranking.state.expire event.2.1 event.2.2 = .error e) :
    expireRolling durationMs (event :: rest) ranking
      = (.error e, ranking) := by
  show (if ranking.lastTime - event.1 < durationMs
    then (pure () : Effect Ranking Error Unit) else _) ranking = _
  rw [if_neg h]
  refine bind_error (change_error ?_)
  rw [hs]
  rfl

section

variable (h : ranking.Counted (event :: rest))
include h

theorem Counted.held :
    ∃ held, ranking.state.scores[event.2.1]? = some held
      ∧ event.2.2 ≤ held := by
  have hsum := h.scores event.2.1
  rw [sumFor_cons, if_pos rfl] at hsum
  have hpos := h.positive event mem_cons_self
  cases hf : ranking.state.scores[event.2.1]? with
  | none =>
    rw [hf, Option.getD_none] at hsum
    omega
  | some held =>
    rw [hf, Option.getD_some] at hsum
    exact ⟨held, rfl, by omega⟩

theorem Counted.expire_error {e : Error}
    (he : ranking.state.expire event.2.1 event.2.2 = .error e) :
    u64Max ≤ ranking.state.revision := by
  by_contra hl
  obtain ⟨held, hh, -⟩ := h.held
  unfold Aggregation.expire at he
  rw [checkedAdd_of_le (by omega), hh] at he
  cases he

theorem Counted.expired
    (he : ranking.state.expire event.2.1 event.2.2 = .ok state) :
    Counted { ranking with state, windowEvents := rest } rest := by
  obtain ⟨held, hh, hle⟩ := h.held
  refine ⟨h.represented.expire ?_ he, ?_, ?_⟩
  · rwa [hh, Option.getD_some]
  · intro key
    have hsum := h.scores key
    rw [sumFor_cons] at hsum
    rw [(expire_cases he).scores, get_put]
    by_cases hkey : event.2.1 = key
    · subst hkey
      rw [if_pos rfl] at hsum ⊢
      rw [positive_getD]
      omega
    · rw [if_neg hkey] at hsum ⊢
      omega
  · intro o ho
    exact h.positive o (mem_cons_of_mem _ ho)

end

/-- What the loop leaves. -/
structure Swept (ranking : Ranking) (durationMs : Nat)
    (result : Except Error Unit × Ranking) : Prop where
  frame : result.2 = { ranking with
    state := result.2.state
    windowEvents := result.2.windowEvents }
  revision : ranking.state.revision ≤ result.2.state.revision
  /-- It stops early only when the revision is spent. -/
  stopped : result.1 ≠ .ok () → u64Max ≤ result.2.state.revision
  counted : result.2.Counted result.2.windowEvents
  events : result.1 = .ok () → result.2.windowEvents
    = ranking.windowEvents.dropWhile (ranking.left durationMs)

variable {events : List WindowEvent}

theorem Counted.swept :
    ∀ {ranking : Ranking}, ranking.windowEvents = events →
      ranking.Counted events →
      Swept ranking durationMs (expireRolling durationMs events ranking) := by
  induction events with
  | nil =>
    intro ranking hevs h
    refine ⟨rfl, le_rfl, fun hne => absurd rfl hne, ?_, fun _ => ?_⟩
    · rw [show (expireRolling durationMs [] ranking).2.windowEvents = []
        from hevs]
      exact h
    · rw [hevs]
      exact hevs
  | cons event rest ih =>
    intro ranking hevs h
    by_cases hage : ranking.lastTime - event.1 < durationMs
    · rw [expireRolling_stay hage]
      refine ⟨rfl, le_rfl, fun hne => absurd rfl hne, ?_, fun _ => ?_⟩
      · rw [hevs]
        exact h
      · rw [hevs, dropWhile_cons_of_neg]
        simpa [left] using hage
    · cases hs : ranking.state.expire event.2.1 event.2.2 with
      | error error =>
        rw [expireRolling_fail hage hs]
        refine ⟨rfl, le_rfl, fun _ => h.expire_error hs, ?_, nofun⟩
        rw [hevs]
        exact h
      | ok state =>
        rw [expireRolling_take hage hs]
        have hsw := @ih { ranking with
          state, windowEvents := rest } rfl (h.expired hs)
        have hrev := (expire_cases hs).revision
        refine ⟨hsw.frame, ?_, hsw.stopped, hsw.counted, ?_⟩
        · have hle := hsw.revision
          dsimp only at hle
          omega
        · intro hok
          rw [hsw.events hok, hevs, dropWhile_cons_of_pos]
          · rfl
          · simpa [left] using hage

theorem Counted.safe :
    ∀ {ranking : Ranking}, ranking.Counted events →
      ExpiresSafely durationMs events ranking := by
  induction events with
  | nil =>
    intro ranking _
    trivial
  | cons event rest ih =>
    intro ranking h
    unfold ExpiresSafely
    split
    · trivial
    · obtain ⟨held, hh, hle⟩ := h.held
      refine ⟨⟨held, hh, hle⟩, ?_, ?_⟩
      · rw [h.represented.total]
        exact hle.trans (le_sumOf hh)
      · intro state hs
        exact ih (h.expired hs)

-- ==== one contribution

/-- The contribution as the window keeps it, if the ranking accepts it:
it scores, has a key, fits, and is one its user may still make. -/
def offered (ranking : Ranking) (contribution : Contribution) :
    Option WindowEvent :=
  match score ranking.definition.sources contribution,
      groupKey ranking.definition.groupBy contribution with
  | .ok value, some key =>
    if value ≠ 0 ∧ ¬ ranking.Full
        ∧ ranking.userDecision contribution.user = .ok .allowed
        ∧ (ranking.state.apply key value 1).toOption.isSome
    then some (ranking.lastTime, key, value) else none
  | _, _ => none

/-- What one turn of `apply_at_with_metadata` accepts. -/
def admitted (ranking : Ranking) (contribution : Contribution)
    (now : Nat) : Option WindowEvent :=
  if ¬ ranking.InScope contribution.creatorId contribution.roomId then none
  else match expireRanking now ranking with
    | (.error _, _) => none
    | (.ok (), expired) =>
      if contribution.option = none ∧ expired.definition.voted then none
      else expired.offered contribution

/-- A change that neither scores nor tells the time. -/
structure Alike (ranking next : Ranking) : Prop where
  definition : next.definition = ranking.definition
  lastTime : next.lastTime = ranking.lastTime
  windowEvents : next.windowEvents = ranking.windowEvents
  scores : next.state.scores = ranking.state.scores
  index : next.state.index = ranking.state.index
  total : next.state.total = ranking.state.total
  revision : ranking.state.revision ≤ next.state.revision

theorem Alike.refl (ranking : Ranking) : ranking.Alike ranking :=
  ⟨rfl, rfl, rfl, rfl, rfl, rfl, le_rfl⟩

theorem alike_reject (ranking : Ranking) : ranking.Alike ranking.reject :=
  ⟨rfl, rfl, rfl, rfl, rfl, rfl, le_rfl⟩

theorem alike_fault (ranking : Ranking) : ranking.Alike ranking.fault := by
  have ht : ∀ state : Aggregation, touched state = state
      ∨ touched state = { state with revision := state.revision + 1 } := by
    intro state
    unfold touched
    split
    · next h => exact .inr (touch_eq h)
    · exact .inl rfl
  have hs : ranking.fault.state = touched ranking.state := rfl
  rcases ht ranking.state with h | h
  · rw [h] at hs
    constructor <;> first | rfl | rw [hs]
  · rw [h] at hs
    refine ⟨rfl, rfl, rfl, ?_, ?_, ?_, ?_⟩
    · rw [hs]
    · rw [hs]
    · rw [hs]
    · rw [hs]
      exact Nat.le_succ _

theorem Counted.alike {next : Ranking} (h : ranking.Counted events)
    (ha : ranking.Alike next) :
    next.Counted events where
  represented := by
    refine ⟨?_, ?_, ?_⟩
    · rw [ha.scores, ha.index]
      exact h.represented.indexed
    · rw [ha.total, ha.scores]
      exact h.represented.total
    · rw [ha.scores]
      exact h.represented.keys
  scores := by
    rw [ha.scores]
    exact h.scores
  positive := h.positive

/-- What an accepted contribution changes. -/
structure Accepted (ranking : Ranking) (key : String) (value : Nat)
    (next : Ranking) : Prop where
  definition : next.definition = ranking.definition
  lastTime : next.lastTime = ranking.lastTime
  windowEvents : next.windowEvents = ranking.windowWith key value
  positive : 0 < value
  fits : ¬ ranking.Full
  scores : next.state.scores = put ranking.state.scores key
    (some (ranking.state.scores[key]?.getD 0 + value))
  represented : ranking.state.Represented → next.state.Represented
  revision : ranking.state.revision ≤ next.state.revision

/-- What an accepted contribution adds. -/
structure Adds (ranking : Ranking) (key : String) (value : Nat)
    (next : Ranking) : Prop where
  scores : next.state.scores = put ranking.state.scores key
    (some (ranking.state.scores[key]?.getD 0 + value))
  total : next.state.total = ranking.state.total + value
  revision : next.state.revision = ranking.state.revision + 1
  counters : (next.rejected, next.limited, next.cooldownRejected,
      next.dropped)
    = (ranking.rejected, ranking.limited, ranking.cooldownRejected,
      ranking.dropped)

variable {user gift : Option EntryMetadata}

section

variable {next : Ranking} {key : String} {value : Nat} (hvalue : value ≠ 0)
include hvalue

theorem accept_adds
    (h : ranking.accept contribution key value user gift = .ok next) :
    ranking.Adds key value next := by
  obtain ⟨state, hst, h⟩ := bind_eq_ok.1 h
  cases h
  rcases apply_cases hst with ⟨hz, -⟩ | hp
  · omega
  have hs := hp.scores
  have ht := hp.total
  rw [Nat.mul_one] at hs ht
  -- display data is no score
  have hsm : ∀ (d : EntryMetadata),
      (state.updateMetadata key d).scores = state.scores
        ∧ (state.updateMetadata key d).total = state.total
        ∧ (state.updateMetadata key d).revision = state.revision := by
    intro d
    unfold Aggregation.updateMetadata
    split <;> exact ⟨rfl, rfl, rfl⟩
  refine ⟨?_, ?_, ?_, rfl⟩
  · dsimp only
    split
    · exact (hsm _).1.trans hs
    · exact hs
  · dsimp only
    split
    · exact (hsm _).2.1.trans ht
    · exact ht
  · dsimp only
    split
    · exact (hsm _).2.2.trans hp.revision
    · exact hp.revision

theorem accept_cases (hf : ¬ ranking.Full)
    (h : ranking.accept contribution key value user gift = .ok next) :
    ranking.Accepted key value next := by
  have had := accept_adds hvalue h
  have hrev := had.revision
  obtain ⟨state, hs, h⟩ := bind_eq_ok.1 h
  cases h
  rcases apply_cases hs with ⟨hz, -⟩ | hp
  · omega
  refine ⟨rfl, rfl, rfl, Nat.pos_of_ne_zero hvalue, hf, had.scores,
    fun hr => ?_, by omega⟩
  have hn := hr.applied hp
  split
  · unfold Aggregation.updateMetadata
    split
    · exact ⟨hn.indexed, hn.total, hn.keys⟩
    · exact hn
  · exact hn

end

theorem offered_eq_some (h : ranking.offered contribution = some event) :
    ∃ value key, score ranking.definition.sources contribution = .ok value
      ∧ groupKey ranking.definition.groupBy contribution = some key
      ∧ value ≠ 0 ∧ ¬ ranking.Full
      ∧ ranking.userDecision contribution.user = .ok .allowed
      ∧ (∃ state, ranking.state.apply key value 1 = .ok state)
      ∧ event = (ranking.lastTime, key, value) := by
  unfold offered at h
  split at h
  · next value key hsc hkey =>
    split at h
    · next hall =>
      cases h
      refine ⟨value, key, hsc, hkey, hall.1, hall.2.1, hall.2.2.1, ?_, rfl⟩
      cases hst : ranking.state.apply key value 1 with
      | ok state => exact ⟨state, rfl⟩
      | error error =>
        have hs := hall.2.2.2
        rw [hst] at hs
        cases hs
    · cases h
  · cases h

theorem account_offered (user gift : Option EntryMetadata)
    (h : ranking.offered contribution = some event) :
    ∃ key value next, event = (ranking.lastTime, key, value)
      ∧ ranking.account contribution user gift = .ok next
      ∧ ranking.Accepted key value next ∧ value ≠ 0
      ∧ ranking.userDecision contribution.user = .ok .allowed
      ∧ ranking.accept contribution key value user gift = .ok next := by
  obtain ⟨value, key, hs, hk, hz, hf, hd, ⟨state, hst⟩,
    hev⟩ := offered_eq_some h
  obtain ⟨next, hn⟩ : ∃ next,
      ranking.accept contribution key value user gift = .ok next := by
    unfold accept
    rw [hst]
    exact ⟨_, rfl⟩
  refine ⟨key, value, next, hev, ?_, accept_cases hz hf hn, hz, hd, hn⟩
  unfold account
  rw [hs, hk, hd, ensure_true hf]
  show (if value = 0 then _ else _) = _
  rw [if_neg hz]
  exact hn

theorem account_refused {next : Ranking}
    (hn : ranking.offered contribution = none)
    (h : ranking.account contribution user gift = .ok next) :
    ranking.Alike next := by
  obtain ⟨value, hsc, h⟩ := bind_eq_ok.1 h
  split at h
  · cases h
    exact .refl _
  · next hz =>
    obtain ⟨key, hk, h⟩ := okOr_ok.1 h
    obtain ⟨hf, h⟩ := ensure_ok.1 h
    obtain ⟨d, hd, h⟩ := bind_eq_ok.1 h
    cases d with
    | limited =>
      obtain ⟨state, hs, h⟩ := bind_eq_ok.1 h
      cases h
      rw [touch_eq hs]
      exact ⟨rfl, rfl, rfl, rfl, rfl, rfl, Nat.le_succ _⟩
    | cooldown =>
      obtain ⟨state, hs, h⟩ := bind_eq_ok.1 h
      cases h
      rw [touch_eq hs]
      exact ⟨rfl, rfl, rfl, rfl, rfl, rfl, Nat.le_succ _⟩
    | allowed =>
      -- then it was offered after all
      obtain ⟨state, hs, -⟩ := bind_eq_ok.1 h
      unfold offered at hn
      rw [hsc, hk] at hn
      dsimp only at hn
      rw [if_pos ⟨hz, hf, hd, by rw [hs]; rfl⟩] at hn
      cases hn

-- ==== the window

/-- The window holds what was accepted and is not too old, in order of
time, and the scores count nothing else. -/
structure Windowed (durationMs maxEvents : Nat) (ranking : Ranking)
    (accepted : List WindowEvent) : Prop where
  window : ranking.definition.window = .rolling durationMs maxEvents
  events : ranking.windowEvents
    = accepted.filter fun event => ranking.lastTime - event.1 < durationMs
  inOrder : accepted.Pairwise fun a b => a.1 ≤ b.1
  past : ∀ event ∈ accepted, event.1 ≤ ranking.lastTime
  counted : ranking.Counted ranking.windowEvents
  bounded : ranking.windowEvents.length ≤ maxEvents

theorem dropWhile_left {t : Nat} (h : events.Pairwise fun a b => a.1 ≤ b.1) :
    events.dropWhile (fun event => ! (t - event.1 < durationMs))
      = events.filter fun event => t - event.1 < durationMs := by
  induction events with
  | nil => rfl
  | cons event rest ih =>
    rw [pairwise_cons] at h
    by_cases hage : t - event.1 < durationMs
    · have hall : ∀ o ∈ event :: rest,
          decide (t - o.1 < durationMs) = true := by
        intro o ho
        rw [decide_eq_true_eq]
        rcases mem_cons.1 ho with rfl | hm
        · exact hage
        · have hle := h.1 o hm
          omega
      rw [dropWhile_cons_of_neg (by simpa using hage), filter_eq_self.2 hall]
    · rw [dropWhile_cons_of_pos (by simpa using hage),
        filter_cons_of_neg (by simpa using hage)]
      exact ih h.2

variable {durationMs maxEvents : Nat}

theorem expireRanking_rolling
    (h : ranking.definition.window = .rolling durationMs maxEvents)
    (now : Nat) : expireRanking now ranking
      = expireRolling durationMs ranking.windowEvents
          { ranking with lastTime := max ranking.lastTime now } := by
  unfold expireRanking
  rw [h]

/-- The scores are those of the window, whatever it holds. -/
structure Balanced (durationMs maxEvents : Nat) (ranking : Ranking) :
    Prop where
  window : ranking.definition.window = .rolling durationMs maxEvents
  counted : ranking.Counted ranking.windowEvents

theorem Windowed.balanced {a : List WindowEvent}
    (h : Windowed durationMs maxEvents ranking a) :
    Balanced durationMs maxEvents ranking := ⟨h.window, h.counted⟩

theorem Balanced.passed (h : Balanced durationMs maxEvents ranking)
    (now : Nat) :
    Swept { ranking with lastTime := max ranking.lastTime now } durationMs
      (expireRanking now ranking) := by
  rw [expireRanking_rolling h.window]
  exact @Counted.swept _ _ { ranking with
    lastTime := max ranking.lastTime now } rfl
    ⟨h.counted.represented, h.counted.scores, h.counted.positive⟩

variable {now : Nat}

theorem Swept.definition
    (h : Swept { ranking with lastTime := now } durationMs result) :
    result.2.definition = ranking.definition := by
  rw [h.frame]

theorem Swept.lastTime
    (h : Swept { ranking with lastTime := now } durationMs result) :
    result.2.lastTime = now := by
  rw [h.frame]

section

variable (h : Balanced durationMs maxEvents ranking)
include h

theorem Balanced.swept
    (hs : Swept { ranking with lastTime := now } durationMs result) :
    Balanced durationMs maxEvents result.2 := by
  refine ⟨?_, hs.counted⟩
  rw [hs.definition]
  exact h.window

theorem Balanced.alike {next : Ranking} (ha : ranking.Alike next) :
    Balanced durationMs maxEvents next := by
  refine ⟨?_, ?_⟩
  · rw [ha.definition]
    exact h.window
  · rw [ha.windowEvents]
    exact h.counted.alike ha

omit h in
theorem Windowed.expired {e : Ranking} {ac : List WindowEvent}
    (h : Windowed durationMs maxEvents ranking ac)
    (he : expireRanking now ranking = (.ok (), e)) :
    Windowed durationMs maxEvents e ac
      ∧ e.lastTime = max ranking.lastTime now := by
  have hs := h.balanced.passed now
  rw [he] at hs
  have ht : e.lastTime = max ranking.lastTime now := hs.lastTime
  have hevs : e.windowEvents = ac.filter
      fun event => e.lastTime - event.1 < durationMs := by
    have hsr : ranking.windowEvents.Pairwise fun a b => a.1 ≤ b.1 := by
      rw [h.events]
      exact h.inOrder.filter _
    rw [hs.events rfl, ht]
    refine (dropWhile_left hsr).trans ?_
    rw [h.events, filter_filter]
    apply filter_congr
    intro event hev
    rw [← Bool.decide_and]
    congr 1
    apply propext
    constructor
    · exact fun hb => hb.1
    · exact fun hage => ⟨hage, by omega⟩
  refine ⟨⟨(h.balanced.swept hs).window, hevs, h.inOrder, ?_,
    hs.counted, ?_⟩, ht⟩
  · intro event hev
    have hp := h.past event hev
    omega
  · rw [hs.events rfl]
    exact (dropWhile_sublist _).length_le.trans h.bounded

omit h in
theorem Windowed.alike {next : Ranking} {a : List WindowEvent}
    (h : Windowed durationMs maxEvents ranking a)
    (ha : ranking.Alike next) :
    Windowed durationMs maxEvents next a where
  window := (h.balanced.alike ha).window
  events := by
    rw [ha.windowEvents, ha.lastTime]
    exact h.events
  inOrder := h.inOrder
  past := by
    rw [ha.lastTime]
    exact h.past
  counted := (h.balanced.alike ha).counted
  bounded := by
    rw [ha.windowEvents]
    exact h.bounded

section

variable {next : Ranking} {key : String} {value : Nat}
  (ha : ranking.Accepted key value next)
include ha

theorem Balanced.windowEvents : next.windowEvents
      = ranking.windowEvents ++ [(ranking.lastTime, key, value)] := by
  rw [ha.windowEvents]
  unfold windowWith
  rw [h.window]

theorem Balanced.accepted :
    Balanced durationMs maxEvents next := by
  have hevs := h.windowEvents ha
  refine ⟨?_, ha.represented h.counted.represented, ?_, ?_⟩
  · rw [ha.definition]
    exact h.window
  · intro o
    have hs := h.counted.scores o
    rw [ha.scores, get_put, hevs, sumFor_append, sumFor_cons]
    by_cases hkey : key = o
    · subst hkey
      rw [if_pos rfl, if_pos rfl, Option.getD_some, hs]
      rfl
    · rw [if_neg hkey, if_neg hkey, hs]
      rfl
  · intro event hev
    rw [hevs] at hev
    rcases mem_append.1 hev with hold | hnew
    · exact h.counted.positive event hold
    · cases mem_singleton.1 hnew
      exact ha.positive

end

end

theorem Windowed.accepted {next : Ranking} {a : List WindowEvent}
    {key : String} {value : Nat}
    (h : Windowed durationMs maxEvents ranking a)
    (hd : 0 < durationMs) (ha : ranking.Accepted key value next) :
    Windowed durationMs maxEvents next
      (a ++ [(ranking.lastTime, key, value)]) := by
  have hevs := h.balanced.windowEvents ha
  have hft : ranking.windowEvents.length < maxEvents := by
    have hf := ha.fits
    unfold Full at hf
    rw [h.window] at hf
    exact Nat.lt_of_not_le hf
  constructor
  · exact (h.balanced.accepted ha).window
  · rw [hevs, h.events, filter_append, ha.lastTime]
    congr 1
    rw [filter_cons_of_pos, filter_nil]
    simpa using hd
  · refine pairwise_append.2 ⟨h.inOrder, pairwise_singleton _ _,
      ?_⟩
    intro event hev last hl
    cases mem_singleton.1 hl
    exact h.past event hev
  · intro event hev
    rw [ha.lastTime]
    rcases mem_append.1 hev with ho | hn
    · exact h.past event ho
    · cases mem_singleton.1 hn
      exact le_rfl
  · exact (h.balanced.accepted ha).counted
  · rw [hevs, length_append]
    exact hft

-- ==== the steps

/-- How a step that accepts `more` continues a window: exactly, unless it
spends the revision. -/
structure Continues (durationMs maxEvents : Nat) (ranking next : Ranking)
    (more : List WindowEvent) : Prop where
  revision : ranking.state.revision ≤ next.state.revision
  lastTime : ranking.lastTime ≤ next.lastTime
  balanced : Balanced durationMs maxEvents next
  windowed : ∀ accepted, Windowed durationMs maxEvents ranking accepted →
    next.state.revision < u64Max →
      Windowed durationMs maxEvents next (accepted ++ more)

section

variable (h : Balanced durationMs maxEvents ranking)
include h

theorem Continues.refl :
    Continues durationMs maxEvents ranking ranking [] := by
  refine ⟨le_rfl, le_rfl, h, fun accepted hw _ => ?_⟩
  rwa [append_nil]

omit h in
theorem Continues.trans {m next : Ranking} {mo l : List WindowEvent}
    (h : Continues durationMs maxEvents ranking m mo)
    (h' : Continues durationMs maxEvents m next l) :
    Continues durationMs maxEvents ranking next (mo ++ l) where
  revision := h.revision.trans h'.revision
  lastTime := h.lastTime.trans h'.lastTime
  balanced := h'.balanced
  windowed accepted hw hl := by
    rw [← append_assoc]
    exact h'.windowed _ (h.windowed accepted hw (h'.revision.trans_lt hl)) hl

theorem Balanced.continues {e : Ranking} {result : Except Error Unit}
    (he : expireRanking now ranking = (result, e)) :
    Continues durationMs maxEvents ranking e [] := by
  have hs := h.passed now
  rw [he] at hs
  have ht : e.lastTime = max ranking.lastTime now := hs.lastTime
  refine ⟨hs.revision, by omega, h.swept hs, ?_⟩
  intro accepted hw hl
  rw [append_nil]
  cases result with
  | ok u => exact (hw.expired he).1
  | error error =>
    -- the loop stops only at the last revision
    have hsp := hs.stopped (by simp)
    dsimp only at hsp
    omega

theorem Balanced.continues_alike {next : Ranking} (ha : ranking.Alike next) :
    Continues durationMs maxEvents ranking next [] := by
  refine ⟨ha.revision, ha.lastTime.ge, h.alike ha, fun accepted hw _ => ?_⟩
  rw [append_nil]
  exact hw.alike ha

theorem Balanced.continues_accepted {next : Ranking} {key : String}
    {value : Nat} (hd : 0 < durationMs)
    (ha : ranking.Accepted key value next) :
    Continues durationMs maxEvents ranking next
      [(ranking.lastTime, key, value)] :=
  ⟨ha.revision, ha.lastTime.ge, h.accepted ha,
    fun _ hw _ => hw.accepted hd ha⟩

theorem Balanced.contribute (hdur : 0 < durationMs)
    (contribution : Contribution) (now : Nat)
    (user gift : Option EntryMetadata) :
    Continues durationMs maxEvents ranking
      (ranking.contribute contribution now user gift).1
      (ranking.admitted contribution now).toList := by
  unfold Ranking.contribute admitted
  by_cases hs : ranking.InScope contribution.creatorId contribution.roomId
  case neg =>
    rw [if_pos hs, if_pos hs]
    exact .refl h
  rw [if_neg (not_not_intro hs), if_neg (not_not_intro hs)]
  rcases hexpire : expireRanking now ranking with ⟨result, e⟩
  have hexp := h.continues hexpire
  have hbal := hexp.balanced
  cases result with
  | error error =>
    exact hexp.trans (hbal.continues_alike e.alike_reject)
  | ok u =>
    dsimp only
    split
    · exact hexp
    · cases ho : e.offered contribution with
      | some event =>
        obtain ⟨key, value, next, rfl, hn, hacc, -⟩ :=
          account_offered user gift ho
        rw [hn]
        exact hexp.trans (hbal.continues_accepted hdur hacc)
      | none =>
        cases hn : e.account contribution user gift with
        | error error =>
          exact hexp.trans (hbal.continues_alike e.alike_fault)
        | ok next =>
          exact hexp.trans (hbal.continues_alike (account_refused ho hn))

/-- One ranking in `expire_at`. -/
def expireOne (now : Nat) (ranking : Ranking) : Ranking :=
  match expireRanking now ranking with
  | (.ok (), expired) => expired
  | (.error _, expired) => expired.reject

theorem Balanced.expireOne (now : Nat) :
    Continues durationMs maxEvents ranking (ranking.expireOne now) [] := by
  unfold Ranking.expireOne
  rcases hexpire : expireRanking now ranking with ⟨result, e⟩
  have hexp := h.continues hexpire
  cases result with
  | error error =>
    exact hexp.trans (hexp.balanced.continues_alike e.alike_reject)
  | ok u => exact hexp

end

end Ranking

end TikTools.Aggregation
