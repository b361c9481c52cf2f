/-
The two vote projections of a competition ranking.

A ranking of votes follows the durable assignments one committed
transition at a time (`apply_assignment`), and counts routed scores next
to them (`apply_committed_score`). After a restart it is built anew from
what the store sums up: the votes of every option and its committed
scores (`restore_assignments_with_scores`).

`Tallied` says what the first projection has counted: under every option
the weighted votes of the participants who are there now, and what was
committed. A rebuild stays below those scores all the way
(`applyOnce_spec`), so that neither the capacity nor any sum stops it,
and it ends at them.
-/
import TikTools.Lib.Compare
import TikTools.Aggregation.Rolling

namespace TikTools.Aggregation

open TikTools.Lib Std List Option Table Aggregation

set_option linter.dupNamespace false

-- ==== scores as amounts

namespace Aggregation

/-- The score of a key, zero where it has none. -/
def amount (state : Aggregation) (key : String) : Nat :=
  state.scores[key]?.getD 0

variable {key : String} {delta : Nat} {state : Aggregation}

variable {next : Aggregation}

theorem amount_apply {weight : Nat}
    (h : state.apply key delta weight = .ok next) (o : String) :
    next.amount o
      = state.amount o + if key = o then delta * weight else 0 := by
  unfold amount
  rcases apply_cases h with ⟨hz, rfl⟩ | ha
  · rw [hz]
    split <;> rfl
  · rw [ha.scores, get_put]
    by_cases hkey : key = o
    · subst hkey
      rw [if_pos rfl, if_pos rfl, getD_some]
    · rw [if_neg hkey, if_neg hkey, Nat.add_zero]

variable {target source : String} {moved additional : Nat}

theorem amount_reassign (hr : state.Represented)
    (h : state.reassign source target moved additional = .ok next)
    (other : String) : next.amount other
      = if target = other then state.amount target + moved + additional
        else if source = other then state.amount source - moved
        else state.amount other := by
  have hmv := reassign_cases h
  unfold amount
  rw [hmv.scores_put hr, get_put, get_put]
  split
  · exact positive_getD _
  · split
    · exact positive_getD _
    · rfl

section

variable {weight : Nat} (h : state.apply key delta weight = .ok next)
include h

theorem apply_total (ht : state.total ≤ u64Max) :
    next.total ≤ u64Max := by
  obtain ⟨-, h⟩ := ensure_ok.1 h
  obtain ⟨value, -, h⟩ := okOr_ok.1 h
  split at h
  · cases h
    exact ht
  · obtain ⟨-, h⟩ := ensure_ok.1 h
    obtain ⟨score, -, h⟩ := okOr_ok.1 h
    obtain ⟨total, hs, h⟩ := okOr_ok.1 h
    obtain ⟨revision, -, h⟩ := okOr_ok.1 h
    obtain ⟨hle, rfl⟩ := checkedAdd_eq_some.1 hs
    cases h
    exact hle

omit h in
theorem reassign_total
    (h : state.reassign source target moved additional = .ok next) :
    next.total ≤ u64Max := by
  obtain ⟨-, h⟩ := ensure_ok.1 h
  obtain ⟨oldSource, -, h⟩ := okOr_ok.1 h
  obtain ⟨newSource, -, h⟩ := okOr_ok.1 h
  obtain ⟨newTarget, -, h⟩ := okOr_ok.1 h
  obtain ⟨-, h⟩ := ensure_ok.1 h
  obtain ⟨total, hs, h⟩ := okOr_ok.1 h
  obtain ⟨revision, -, h⟩ := okOr_ok.1 h
  obtain ⟨hle, rfl⟩ := checkedAdd_eq_some.1 hs
  cases h
  exact hle

theorem apply_valid : validKey key = true := by
  exact (ensure_ok.1 h).1

theorem apply_capacity :
    next.capacity = state.capacity := by
  rcases apply_cases h with ⟨-, rfl⟩ | ha
  · rfl
  · exact ha.capacity

/-- Every change of the scores adds to the total, so the revisions of a
ranking that was never touched do not outrun it. -/
theorem apply_revision (hle : state.revision ≤ state.total) :
    next.revision ≤ next.total := by
  rcases apply_cases h with ⟨-, rfl⟩ | ha
  · exact hle
  · rw [ha.revision, ha.total]
    have hpos := ha.positive
    omega

end

theorem Represented.scores_eq {o : Aggregation} (h : state.Represented)
    (h' : o.Represented)
    (heq : ∀ key, state.amount key = o.amount key) :
    state.scores = o.scores := by
  refine Table.ext fun key => ?_
  have hkey := heq key
  unfold amount at hkey
  cases hs : state.scores[key]? with
  | none =>
    cases ho : o.scores[key]? with
    | none => rfl
    | some s =>
      have hpos := (h'.keys key s ho).2
      rw [hs, ho, getD_none, getD_some] at hkey
      omega
  | some s =>
    have hpos := (h.keys key s hs).2
    cases ho : o.scores[key]? with
    | none =>
      rw [hs, ho, getD_none, getD_some] at hkey
      omega
    | some score' =>
      rw [hs, ho, getD_some, getD_some] at hkey
      rw [hkey]

end Aggregation

-- ==== scores below others

/-- Every score has one that is no smaller. -/
def Below (scores bound : Table String Nat) : Prop :=
  ∀ (key : String) (score : Nat), scores[key]? = some score →
    ∃ other, bound[key]? = some other ∧ score ≤ other

variable {scores bound : Table String Nat}

theorem below_of_getD
    (hpos : ∀ (key : String) (s : Nat), scores[key]? = some s → 0 < s)
    (h : ∀ key : String, scores[key]?.getD 0 ≤ bound[key]?.getD 0) :
    Below scores bound := by
  intro key s hs
  have hkey := h key
  have hsc := hpos key s hs
  rw [hs, getD_some] at hkey
  cases hb : bound[key]? with
  | none =>
    rw [hb, getD_none] at hkey
    omega
  | some o =>
    rw [hb, getD_some] at hkey
    exact ⟨o, rfl, hkey⟩

theorem Below.sum_le (h : Below scores bound) : sumOf scores ≤ sumOf bound :=
  sum_le_sum h

theorem Below.size_le (h : Below scores bound) :
    scores.size ≤ bound.size := by
  refine Table.size_le fun key hs => ?_
  obtain ⟨s, hsc⟩ := ne_none_iff_exists'.1 hs
  obtain ⟨o, ho, -⟩ := h key s hsc
  rw [ho]
  exact some_ne_none o

namespace Aggregation

theorem Represented.apply_below {state : Aggregation}
    (h : state.Represented) {bound : Table String Nat}
    (hbn : sumOf bound ≤ u64Max) (hsz : bound.size ≤ state.capacity)
    (hrv : state.revision ≤ state.total) {key : String}
    (hv : validKey key = true) {delta weight : Nat}
    (hle : ∀ o : String, state.amount o
      + (if key = o then delta * weight else 0) ≤ bound[o]?.getD 0) :
    ∃ next, state.apply key delta weight = .ok next := by
  have hkey := hle key
  rw [if_pos rfl] at hkey
  have hin : bound[key]?.getD 0 ≤ sumOf bound := by
    cases hfn : bound[key]? with
    | none => exact Nat.zero_le _
    | some s => exact le_sumOf hfn
  unfold apply
  rw [ensure_true hv, checkedMul_eq_some.2
    (show delta * weight ≤ u64Max ∧ delta * weight = delta * weight from
      ⟨by omega, rfl⟩)]
  by_cases hz : delta * weight = 0
  · refine ⟨state, ?_⟩
    show (if delta * weight = 0 then _ else _) = _
    rw [if_pos hz]
    rfl
  -- the scores with the contribution are below the others as well
  have hb : Below (put state.scores key
      (some (state.amount key + delta * weight))) bound := by
    refine below_of_getD ?_ ?_
    · intro o s hs
      rw [get_put] at hs
      split at hs
      · cases hs
        omega
      · exact (h.keys o s hs).2
    · intro o
      have ho := hle o
      rw [get_put]
      by_cases hsm : key = o
      · subst hsm
        rw [if_pos rfl] at ho ⊢
        exact ho
      · rw [if_neg hsm] at ho ⊢
        exact ho
  have hr : state.scores[key]? ≠ none
      ∨ state.scores.size < state.capacity := by
    by_cases hnew : state.scores[key]? = none
    · have hput := size_put state.scores key
        (some (state.amount key + delta * weight))
      rw [if_pos hnew, if_neg (some_ne_none _)] at hput
      have hf := hb.size_le
      exact .inr (by omega)
    · exact .inl hnew
  have ht : state.total + delta * weight ≤ u64Max := by
    have hput := sumOf_put state.scores key
      (some (state.amount key + delta * weight))
    have hf := hb.sum_le
    rw [getD_some] at hput
    rw [h.total]
    unfold amount at hput hf
    omega
  have hs : checkedAdd (state.scores[key]?.getD 0) (delta * weight)
      = some (state.amount key + delta * weight) :=
    checkedAdd_eq_some.2 ⟨by unfold amount at hkey; omega, rfl⟩
  refine ⟨{ state with
    scores := state.scores.insert key (state.amount key + delta * weight)
    index := state.index.update key state.scores[key]?
      (some (state.amount key + delta * weight))
    total := state.total + delta * weight
    revision := state.revision + 1 }, ?_⟩
  show (if delta * weight = 0 then _ else _) = _
  rw [if_neg hz, ensure_true hr, hs, checkedAdd_of_le ht,
    checkedAdd_of_le (show state.revision + 1 ≤ u64Max by omega)]
  rfl

end Aggregation

-- ==== ballots

/-- What the rows of an option add up to. -/
def rowSum (option : String) (rows : List (String × Nat)) : Nat :=
  ((rows.filter fun row => row.1 = option).map (·.2)).sum

theorem rowSum_cons (option : String) (row : String × Nat)
    (rows : List (String × Nat)) : rowSum option (row :: rows)
      = (if row.1 = option then row.2 else 0) + rowSum option rows := by
  unfold rowSum
  by_cases h : row.1 = option
  · rw [if_pos h]
    simp [h]
  · rw [if_neg h]
    simp [h]

theorem rowSum_absent {option : String} {r : List (String × Nat)}
    (h : option ∉ r.map (·.1)) : rowSum option r = 0 := by
  unfold rowSum
  rw [filter_eq_nil_iff.2]
  · rfl
  · intro row hr hs
    exact h (mem_map.2 ⟨row, hr, of_decide_eq_true hs⟩)

/-- What the store holds: where every participant is with how many
votes, and every committed score. -/
structure Ballots where
  assignments : Table String (String × Nat)
  committed : List (String × Nat)

namespace Ballots

def empty : Ballots := ⟨∅, []⟩

/-- The votes an assignment gives an option. -/
def share (option : String) (_ : String) (assignment : String × Nat) : Nat :=
  if assignment.1 = option then assignment.2 else 0

/-- The votes of the participants who are at an option. -/
def votes (ballots : Ballots) (option : String) : Nat :=
  ballots.assignments.sum (share option)

/-- The committed scores of an option. -/
def scored (ballots : Ballots) (option : String) : Nat :=
  rowSum option ballots.committed

def assign (ballots : Ballots) (participant : String)
    (next : String × Nat) : Ballots :=
  { ballots with
    assignments := ballots.assignments.insert participant next }

def commit (ballots : Ballots) (option : String) (value : Nat) : Ballots :=
  { ballots with committed := ballots.committed ++ [(option, value)] }

/-- A participant's votes leave the option they were at and come, all of
them, to the new one. -/
theorem votes_assign (ballots : Ballots) (p : String)
    (next : String × Nat) (option : String) :
    (ballots.assign p next).votes option
        + (ballots.assignments[p]?.elim 0 (share option p))
      = ballots.votes option + share option p next := by
  unfold votes assign
  cases hold : ballots.assignments[p]? with
  | none =>
    have hsum := sum_insert_new (f := share option)
      ballots.assignments next hold
    rw [elim_none]
    dsimp only
    omega
  | some old =>
    have hsum := sum_insert_add (f := share option)
      ballots.assignments next hold
    rw [elim_some]
    dsimp only
    omega

variable {ballots : Ballots}

theorem le_votes {p : String} {old : String × Nat}
    (h : ballots.assignments[p]? = some old) :
    old.2 ≤ ballots.votes old.1 := by
  have hle := le_sum (f := share old.1) ballots.assignments h
  unfold share at hle
  rwa [if_pos rfl] at hle

theorem scored_commit (ballots : Ballots) (option : String) (v : Nat)
    (o : String) : (ballots.commit option v).scored o
      = ballots.scored o + if option = o then v else 0 := by
  unfold scored commit rowSum
  rw [filter_append, map_append, sum_append]
  by_cases h : option = o
  · rw [if_pos h]
    simp [h]
  · rw [if_neg h]
    simp [h]

/-- An option somebody is at. -/
def Chosen (ballots : Ballots) (option : String) : Prop :=
  ∃ (participant : String) (votes : Nat),
    ballots.assignments[participant]? = some (option, votes)

theorem votes_absent {option : String} (h : ¬ ballots.Chosen option) :
    ballots.votes option = 0 := by
  refine sum_eq_zero fun amount ha => ?_
  obtain ⟨⟨p, choice, v⟩, hm, rfl⟩ := mem_map.1 ha
  unfold share
  split
  · next hs =>
    subst hs
    exact absurd ⟨p, v, mem_toList.1 hm⟩ h
  · rfl

end Ballots

-- ==== one transition

namespace Ranking

/-- What a successful transition does to the scores. -/
inductive Assigned (weight : Nat) (old next : String × Nat)
    (ranking after : Ranking) : Prop
  | added (state : Aggregation) (hoption : old.1 = next.1)
      (hstate : ranking.state.apply next.1 (next.2 - old.2) weight
        = .ok state) (hafter : after = { ranking with state })
  | weightless (hoption : old.1 ≠ next.1) (hweight : weight = 0)
      (hafter : after = ranking)
  | moved (state : Aggregation) (hoption : old.1 ≠ next.1)
      (hstate : ranking.state.reassign old.1 next.1 (old.2 * weight)
        ((next.2 - old.2) * weight) = .ok state)
      (hafter : after = { ranking with state })

variable {ranking : Ranking}

theorem orFault_ok {c : Ranking → Except Error Ranking} {after : Ranking}
    (h : orFault c ranking = (.ok (), after)) :
    c ranking = .ok after := by
  unfold orFault at h
  split at h
  · next next hc =>
    cases h
    exact hc
  · cases h

theorem applyAssignment_cases {b : Option (String × Nat)}
    {next : String × Nat} {after : Ranking} {weight : Nat}
    (hw : ranking.definition.assignmentWeight = .ok weight)
    (h : applyAssignment b next ranking = (.ok (), after)) :
    (b.getD (next.1, 0)).2 ≤ next.2
      ∧ Assigned weight (b.getD (next.1, 0)) next ranking after := by
  obtain ⟨change, same, hl, h⟩ := Effect.bind_eq_ok.1 h
  obtain ⟨hl, rfl⟩ := Prod.ext_iff.1 hl
  have hchg := orFault_ok h
  dsimp only [Effect.look] at hl hchg
  rw [hw] at hl
  obtain ⟨-, hl⟩ := ensure_ok.1 hl
  obtain ⟨delta, hd, hl⟩ := okOr_ok.1 hl
  obtain ⟨hle, rfl⟩ := checkedSub_eq_some.1 hd
  refine ⟨hle, ?_⟩
  unfold assignmentMove at hl
  split at hl
  · next ho =>
    cases hl
    obtain ⟨state, hs, ha⟩ := bind_eq_ok.1 hchg
    cases ha
    exact .added state ho hs rfl
  · next ho =>
    split at hl
    · next hz =>
      cases hl
      cases hchg
      exact .weightless ho hz rfl
    · obtain ⟨amount, ham, hl⟩ := okOr_ok.1 hl
      obtain ⟨additional, had, hl⟩ := okOr_ok.1 hl
      obtain ⟨-, rfl⟩ := checkedMul_eq_some.1 ham
      obtain ⟨-, rfl⟩ := checkedMul_eq_some.1 had
      cases hl
      obtain ⟨state, hs, ha⟩ := bind_eq_ok.1 hchg
      cases ha
      exact .moved state ho hs rfl

variable {option : String}

theorem applyCommittedScore_cases {v : Nat} {after : Ranking}
    (h : applyCommittedScore option v ranking = (.ok (), after)) :
    ∃ state, ranking.state.apply option v 1 = .ok state
      ∧ after = { ranking with state } := by
  obtain ⟨_, same, hl, h⟩ := Effect.bind_eq_ok.1 h
  obtain ⟨-, rfl⟩ := Prod.ext_iff.1 hl
  have hchg := orFault_ok h
  obtain ⟨state, hs, ha⟩ := bind_eq_ok.1 hchg
  cases ha
  exact ⟨state, hs, rfl⟩

-- ==== incrementally

/-- The scores of a ranking of votes are those of the ballots. -/
structure Tallied (definition : Definition) (weight : Nat)
    (ballots : Ballots) (ranking : Ranking) : Prop where
  same : ranking.definition = definition
  sound : ranking.state.Sound
  capacity : ranking.state.capacity = definition.capacity
  total : ranking.state.total ≤ u64Max
  amounts : ∀ option, ranking.state.amount option
    = weight * ballots.votes option + ballots.scored option
  assigned : ∀ (participant : String) (assignment : String × Nat),
    ballots.assignments[participant]? = some assignment →
      Aggregation.validKey assignment.1 = true
  committed : ∀ row ∈ ballots.committed, Aggregation.validKey row.1 = true

variable {definition : Definition} {weight : Nat} {ballots : Ballots}
  {ranking after : Ranking}

theorem weighted_assign (weight : Nat) (ballots : Ballots)
    (p : String) (next : String × Nat) (option : String) :
    weight * (ballots.assign p next).votes option
      + weight * (if ((ballots.assignments[p]?).getD
            (next.1, 0)).1 = option then
          ((ballots.assignments[p]?).getD (next.1, 0)).2 else 0)
      = weight * ballots.votes option
        + weight * (if next.1 = option then next.2 else 0) := by
  have hv := ballots.votes_assign p next option
  rw [← Nat.mul_add, ← Nat.mul_add]
  congr 1
  cases hold : ballots.assignments[p]? with
  | none =>
    rw [hold, elim_none] at hv
    simpa [Ballots.share] using hv
  | some old =>
    rw [hold, elim_some] at hv
    exact hv

theorem Tallied.assign (h : Tallied definition weight ballots ranking)
    (hwg : definition.assignmentWeight = .ok weight)
    {p : String} {next : String × Nat}
    (hvl : Aggregation.validKey next.1 = true)
    (ha : applyAssignment ballots.assignments[p]? next ranking
      = (.ok (), after)) :
    Tallied definition weight (ballots.assign p next) after := by
  obtain ⟨hle, had⟩ := applyAssignment_cases (by rw [h.same]; exact hwg) ha
  have hv := weighted_assign weight ballots p next
  have hk : ∀ (other : String) (a : String × Nat),
      (ballots.assign p next).assignments[other]?
        = some a → Aggregation.validKey a.1 = true := by
    intro other a hf
    unfold Ballots.assign at hf
    rw [get_insert] at hf
    split at hf
    · cases hf
      exact hvl
    · exact h.assigned other a hf
  -- the votes a participant takes along are counted where they were
  have hh : ((ballots.assignments[p]?).getD (next.1, 0)).2
      ≤ ballots.votes ((ballots.assignments[p]?).getD (next.1, 0)).1 := by
    cases hold : ballots.assignments[p]? with
    | none => exact Nat.zero_le _
    | some old => exact Ballots.le_votes hold
  generalize (ballots.assignments[p]?).getD (next.1, 0) = prior
    at hle had hv hh
  have hd : (next.2 - prior.2) * weight + weight * prior.2
      = weight * next.2 := by
    rw [Nat.mul_comm, ← Nat.mul_add, Nat.sub_add_cancel hle]
  have hsc : ∀ option,
      (ballots.assign p next).scored option
        = ballots.scored option := fun _ => rfl
  cases had with
  | added state ho hs haf =>
    subst haf
    refine ⟨h.same, h.sound.apply hs,
      (apply_capacity hs).trans h.capacity,
      apply_total hs h.total, ?_, hk, h.committed⟩
    intro option
    have hnow := hv option
    have ht := h.amounts option
    rw [amount_apply hs, hsc]
    rw [ho] at hnow
    split <;> rename_i hc
    · rw [if_pos hc, if_pos hc] at hnow
      omega
    · rw [if_neg hc, if_neg hc] at hnow
      omega
  | weightless ho hw haf =>
    subst haf
    refine ⟨h.same, h.sound, h.capacity, h.total, ?_, hk, h.committed⟩
    intro option
    rw [h.amounts option, hw, Nat.zero_mul, Nat.zero_mul, hsc]
  | moved state ho hs haf =>
    subst haf
    have hcp := (reassign_cases hs).capacity
    refine ⟨h.same, h.sound.reassign hs, hcp.trans h.capacity,
      reassign_total hs, ?_, hk, h.committed⟩
    intro option
    have hnow := hv option
    have ht := h.amounts option
    rw [amount_reassign h.sound.represented hs, hsc,
      Nat.mul_comm prior.2 weight]
    split
    · next htgt =>
      subst htgt
      rw [if_neg ho, if_pos rfl] at hnow
      omega
    · next htgt =>
      rw [if_neg htgt] at hnow
      split
      · next hsrc =>
        subst hsrc
        rw [if_pos rfl] at hnow
        omega
      · next hsrc =>
        rw [if_neg hsrc] at hnow
        omega

theorem Tallied.commit (h : Tallied definition weight ballots ranking)
    {value : Nat}
    (hc : applyCommittedScore option value ranking = (.ok (), after)) :
    Tallied definition weight (ballots.commit option value) after := by
  obtain ⟨state, hs, rfl⟩ := applyCommittedScore_cases hc
  refine ⟨h.same, h.sound.apply hs,
    (apply_capacity hs).trans h.capacity,
    apply_total hs h.total, ?_, h.assigned, ?_⟩
  · intro other
    have ht := h.amounts other
    have hv : (ballots.commit option value).votes other
        = ballots.votes other := rfl
    rw [amount_apply hs, ballots.scored_commit, hv, Nat.mul_one]
    omega
  · intro row hr
    rcases mem_append.1 hr with ho | hn
    · exact h.committed row ho
    · cases mem_singleton.1 hn
      exact apply_valid hs

-- ==== rebuilt

/-- Rows that name each key once are applied wherever the scores they
lead to are below some that fit. -/
theorem applyOnce_spec {bound : Table String Nat} (rows : List (String × Nat))
    {seen : List String} {state : Aggregation}
    (h : state.Represented) (hbn : sumOf bound ≤ u64Max)
    (hsz : bound.size ≤ state.capacity)
    (hr : state.revision ≤ state.total)
    (hon : (rows.map (·.1)).Nodup) (hs : ∀ row ∈ rows, row.1 ∉ seen)
    (hv : ∀ row ∈ rows, Aggregation.validKey row.1 = true)
    (hle : ∀ option : String, state.amount option
      + weight * rowSum option rows ≤ bound[option]?.getD 0) :
    ∃ next, applyOnce weight rows seen state = .ok next
      ∧ next.Represented ∧ next.capacity = state.capacity
      ∧ next.revision ≤ next.total
      ∧ ∀ option, next.amount option
        = state.amount option + weight * rowSum option rows := by
  induction rows generalizing seen state with
  | nil => exact ⟨state, rfl, h, rfl, hr, fun _ => rfl⟩
  | cons row rest ih =>
    obtain ⟨option, v⟩ := row
    rw [map_cons, nodup_cons] at hon
    have hrow : ∀ o, weight * rowSum o ((option, v) :: rest)
        = (if option = o then v * weight else 0)
          + weight * rowSum o rest := by
      intro o
      rw [rowSum_cons, Nat.mul_add]
      split
      · rw [Nat.mul_comm weight v]
      · rfl
    have hop : Aggregation.validKey option = true :=
      hv (option, v) mem_cons_self
    have hb : ∀ o : String, state.amount o
        + (if option = o then v * weight else 0) ≤ bound[o]?.getD 0 := by
      intro o
      have ho := hle o
      rw [hrow] at ho
      omega
    obtain ⟨s', hs'⟩ := h.apply_below hbn hsz hr hop hb
    have ha := amount_apply hs'
    have hc := apply_capacity hs'
    obtain ⟨next, hn, hrp, hcap, hrev, ham⟩ :=
      @ih (option :: seen) s'
        (by
          rcases apply_cases hs' with ⟨-, rfl⟩ | hp
          · exact h
          · exact h.applied hp)
        (by rwa [hc])
        (apply_revision hs' hr) hon.2
        (by
          intro o ho hm
          rcases mem_cons.1 hm with hsm | hm
          · exact hon.1 (hsm ▸ mem_map.2 ⟨o, ho, rfl⟩)
          · exact hs o (mem_cons_of_mem _ ho) hm)
        (fun o ho => hv o (mem_cons_of_mem _ ho))
        (by
          intro o
          have ho := hle o
          rw [hrow] at ho
          rw [ha]
          omega)
    refine ⟨next, ?_, hrp, hcap.trans hc, hrev, ?_⟩
    · unfold applyOnce
      rw [ensure_true (hs (option, v) mem_cons_self), hs']
      exact hn
    · intro o
      rw [ham, ha, hrow]
      omega

/-- Rows that give every option of `here` once, with its amount. -/
structure Lists (here : String → Prop) (amount : String → Nat)
    (rows : List (String × Nat)) : Prop where
  once : (rows.map (·.1)).Nodup
  options : ∀ option, option ∈ rows.map (·.1) ↔ here option
  amounts : ∀ row ∈ rows, row.2 = amount row.1

theorem Lists.rowSum_eq {he : String → Prop} {a : String → Nat}
    {r : List (String × Nat)} (h : Lists he a r)
    (hb : ∀ option, ¬ he option → a option = 0)
    (option : String) : rowSum option r = a option := by
  by_cases hin : option ∈ r.map (·.1)
  · have ho := h.once
    have ha := h.amounts
    clear h
    induction r with
    | nil => cases hin
    | cons row rest ih =>
      rw [map_cons, nodup_cons] at ho
      rw [rowSum_cons]
      by_cases hs : row.1 = option
      · subst hs
        rw [if_pos rfl, rowSum_absent ho.1, Nat.add_zero]
        exact ha row mem_cons_self
      · rw [if_neg hs, Nat.zero_add]
        rw [map_cons, mem_cons] at hin
        rcases hin with heq | hin
        · exact absurd heq.symm hs
        · exact ih hin ho.2 fun o hot =>
            ha o (mem_cons_of_mem _ hot)
  · rw [rowSum_absent hin]
    exact (hb option fun hh => hin ((h.options option).2 hh)).symm

theorem Tallied.restored (h : Tallied definition weight ballots ranking)
    (hw : definition.assignmentWeight = .ok weight) {f : Ranking}
    (hf : f.definition = definition)
    (hrv : f.state.revision < u64Max)
    {t s : List (String × Nat)}
    (ht : Lists ballots.Chosen ballots.votes t)
    (hs : Lists (fun option => option ∈ ballots.committed.map (·.1))
      ballots.scored s) :
    ∃ r, f.restoreAssignmentsWithScores t s
        = .ok r
      ∧ r.state.scores = ranking.state.scores
      ∧ r.state.total = ranking.state.total := by
  have hv := ht.rowSum_eq fun _ => Ballots.votes_absent
  have hc := hs.rowSum_eq fun _ => rowSum_absent
  have hb : sumOf ranking.state.scores ≤ u64Max := by
    rw [← h.sound.total]
    exact h.total
  have hsz : ranking.state.scores.size ≤ definition.capacity := by
    rw [← h.capacity]
    exact h.sound.room
  have hnew := Aggregation.Represented.new definition.capacity
  have hz : ∀ option,
      (Aggregation.new definition.capacity).amount option = 0 := by
    intro option
    rfl
  obtain ⟨v, hrun, hr, hcp, hrev, ha⟩ :=
    @applyOnce_spec weight ranking.state.scores t [] _ hnew hb
      hsz (Nat.zero_le _) ht.once (fun _ _ => not_mem_nil)
      (by
        intro row hrow
        obtain ⟨p, co, hat⟩ := (ht.options row.1).1
          (mem_map.2 ⟨row, hrow, rfl⟩)
        exact h.assigned p (row.1, co) hat)
      (by
        intro option
        have ho := h.amounts option
        unfold Aggregation.amount at ho
        rw [hz, hv, ho]
        omega)
  obtain ⟨c, hrun', hr', -, -, ha'⟩ :=
    @applyOnce_spec 1 ranking.state.scores s [] v hr
      hb (by rw [hcp]; exact hsz) hrev hs.once
      (fun _ _ => not_mem_nil)
      (by
        intro row hrow
        obtain ⟨o, hot, hsm⟩ := mem_map.1
          ((hs.options row.1).1 (mem_map.2 ⟨row, hrow, rfl⟩))
        exact hsm ▸ h.committed o hot)
      (by
        intro option
        have ho := h.amounts option
        unfold Aggregation.amount at ho
        rw [ha, hz, hv, hc, ho]
        omega)
  have hsc : c.scores = ranking.state.scores := by
    refine hr'.scores_eq h.sound.represented fun option => ?_
    rw [ha', ha, hz, hv, hc, h.amounts]
    omega
  refine ⟨{ f with
    state := { c with revision := f.state.revision + 1 } },
    ?_, hsc, ?_⟩
  · unfold restoreAssignmentsWithScores
    rw [hf, hw, checkedAdd_of_le
      (show f.state.revision + 1 ≤ u64Max by omega)]
    show (applyOnce weight t [] (Aggregation.new definition.capacity)
      >>= _) = _
    rw [hrun]
    show (applyOnce 1 s [] v >>= _) = _
    rw [hrun']
    rfl
  · show c.total = ranking.state.total
    rw [hr'.total, h.sound.total, hsc]

end Ranking

theorem Definition.voted_weight {definition : Definition}
    (hv : definition.valid = true) (hvt : definition.voted = true) :
    ∃ weight, definition.assignmentWeight = .ok weight := by
  unfold Definition.valid at hv
  simp only [hvt, Bool.and_eq_true, Bool.not_true, Bool.false_or] at hv
  cases hw : definition.assignmentWeight with
  | ok weight => exact ⟨weight, rfl⟩
  | error error =>
    rw [hw] at hv
    have hs := hv.1.2
    cases hs

namespace Engine

/-- A committed transition: one of a participant, or a routed score. -/
inductive Ballot where
  | assign (participant : String) (next : String × Nat)
  | commit (option : String) (value : Nat)

/-- The engine follows a transition the store has committed. -/
def follows (id : String) (before : Engine × Ballots) :
    Ballot → Engine × Ballots → Prop
  | .assign participant next, after =>
    within id (Ranking.applyAssignment
        before.2.assignments[participant]? next) before.1
      = (.ok (), after.1)
    ∧ after.2 = before.2.assign participant next
  | .commit option value, after =>
    within id (Ranking.applyCommittedScore option value) before.1
      = (.ok (), after.1)
    ∧ after.2 = before.2.commit option value

/-- Options have keys of 1 to 512 bytes. -/
def Keyed (_ : Engine × Ballots) : Ballot → Prop
  | .assign _ next => Aggregation.validKey next.1 = true
  | .commit option _ => Aggregation.validKey option = true

variable {engine : Engine}

theorem within_ok {id : String} {act : Effect Ranking Error Unit}
    {after : Engine} (h : within id act engine = (.ok (), after))
    {ranking : Ranking} (hr : engine.rankings[id]? = some ranking) :
    ∃ next, act ranking = (.ok (), next)
      ∧ after.rankings[id]? = some next := by
  unfold within at h
  rw [hr] at h
  obtain ⟨hok, rfl⟩ := Prod.ext_iff.1 h
  exact ⟨(act ranking).2, Prod.ext hok rfl, get_insert_self _ _ _⟩

theorem tallied_created {i : Identity} {definition : Definition}
    {engine₀ : Engine}
    (h : create i definition engine₀ = (.ok (), engine)) (weight : Nat) :
    ∃ ranking, engine.rankings[definition.id]? = some ranking
      ∧ ranking.Tallied definition weight .empty := by
  obtain ⟨-, ranking, hr, hd, hs, -⟩ := created h
  have hv : ∀ option, Ballots.empty.votes option = 0 := by
    intro option
    exact sum_empty
  refine ⟨ranking, hr, hd, ?_, ?_, ?_, ?_, ?_, nofun⟩
  · rw [hs]
    exact .new _
  · rw [hs]
    rfl
  · rw [hs]
    exact Nat.zero_le _
  · intro option
    rw [hs, hv, Nat.mul_zero]
    rfl
  · intro p assignment hf
    have hn : (∅ : Table String (String × Nat))[p]? = none :=
      ExtTreeMap.getElem?_empty
    rw [show Ballots.empty.assignments[p]? = none from hn] at hf
    cases hf

/-- What the engine kept step by step is what it rebuilds from the sums
of the store. -/
theorem rebuilt_votes {engine₁ engine₂ start fresh engine : Engine}
    {identity₁ identity₂ : Identity} {definition : Definition}
    (hstart : create identity₁ definition engine₁ = (.ok (), start))
    (hfresh : create identity₂ definition engine₂ = (.ok (), fresh))
    (hvoted : definition.voted = true) {ballots : Ballots}
    (hrun : Run (follows definition.id) Keyed (start, .empty)
      (engine, ballots))
    {totals scored : List (String × Nat)}
    (htotals : Ranking.Lists ballots.Chosen ballots.votes totals)
    (hscored : Ranking.Lists
      (fun option => option ∈ ballots.committed.map (·.1))
      ballots.scored scored) :
    ∃ restored ranking rebuilt,
      within definition.id (Effect.change fun ranking =>
          ranking.restoreAssignmentsWithScores totals scored) fresh
        = (.ok (), restored)
      ∧ engine.rankings[definition.id]? = some ranking
      ∧ restored.rankings[definition.id]? = some rebuilt
      ∧ rebuilt.state.scores = ranking.state.scores
      ∧ rebuilt.state.total = ranking.state.total := by
  obtain ⟨weight, hw⟩ := Definition.voted_weight (created hstart).1 hvoted
  have hkp : ∃ ranking, engine.rankings[definition.id]? = some ranking
      ∧ ranking.Tallied definition weight ballots := by
    refine @Run.invariant _ _ _ _ _ _ (fun s => ∃ ranking,
      s.1.rankings[definition.id]? = some ranking
        ∧ ranking.Tallied definition weight s.2) hrun
      (tallied_created hstart weight) ?_
    rintro ⟨before, given⟩ ballot ⟨after, taken⟩ ⟨ranking, hr, h⟩ hk hs
    cases ballot with
    | assign participant next =>
      obtain ⟨hwt, rfl⟩ := hs
      obtain ⟨next', hn, ha⟩ := within_ok hwt hr
      exact ⟨next', ha, h.assign hw hk hn⟩
    | commit option value =>
      obtain ⟨hwt, rfl⟩ := hs
      obtain ⟨next', hn, ha⟩ := within_ok hwt hr
      exact ⟨next', ha, h.commit hn⟩
  obtain ⟨ranking, hr, h⟩ := hkp
  obtain ⟨-, new, hnew, hdef, hst, -⟩ := created hfresh
  have hrv : new.state.revision < u64Max := by
    rw [hst]
    exact Nat.zero_lt_succ _
  obtain ⟨rebuilt, hrb, hsc, ht⟩ := h.restored hw hdef hrv htotals hscored
  refine ⟨{ fresh with
    rankings := fresh.rankings.insert definition.id rebuilt }, ranking,
    rebuilt, ?_, hr, get_insert_self _ _ _, hsc, ht⟩
  unfold within
  rw [hnew]
  dsimp only
  rw [Effect.change_ok hrb]

/-- A vote for a team, worth two. -/
def teams : Definition where
  schemaVersion := 1
  id := "teams"
  creatorId := "c"
  roomId := "r"
  groupBy := .option
  sources := [⟨"competition.vote", "event.count", 2, true, []⟩]
  limit := 3
  capacity := 5

/-- Three votes for one team, five points for it, and a move to the other
team with one vote more. -/
theorem rebuilt_votes_teams :
    let start := (create (some (.replicate 16 0)) teams empty).2
    ∃ restored rebuilt,
      within "teams" (Effect.change fun ranking =>
          ranking.restoreAssignmentsWithScores [("blue", 4)] [("red", 5)])
        start = (.ok (), restored)
      ∧ restored.rankings["teams"]? = some rebuilt
      ∧ rebuilt.state.total = 13 := by
  intro start
  have hc : create (some (.replicate 16 0)) teams empty
      = (.ok (), start) := rfl
  let first := Ballots.empty.assign "p" ("red", 3)
  let second := first.commit "red" 5
  let last := second.assign "p" ("blue", 4)
  let voted := (within "teams" (Ranking.applyAssignment none
    ("red", 3)) start).2
  let scored := (within "teams" (Ranking.applyCommittedScore "red" 5) voted).2
  let moved := (within "teams" (Ranking.applyAssignment
    second.assignments["p"]? ("blue", 4)) scored).2
  have hrun : Run (follows "teams") Keyed (start, .empty)
      (moved, last) := by
    have hv : follows "teams" (start, .empty)
      (.assign "p" ("red", 3)) (voted, first) := ⟨rfl, rfl⟩
    have hs : follows "teams" (voted, first) (.commit "red" 5)
      (scored, second) := ⟨rfl, rfl⟩
    have hmv : follows "teams" (scored, second)
        (.assign "p" ("blue", 4)) (moved, last) := by
      refine ⟨Prod.ext ?_ rfl, rfl⟩
      have hok : (within "teams" (Ranking.applyAssignment
          second.assignments["p"]? ("blue", 4))
          scored).1.toOption.isSome := by decide +kernel
      cases hrs : (within "teams" (Ranking.applyAssignment
          second.assignments["p"]? ("blue", 4)) scored).1 with
      | ok u => rfl
      | error error =>
        rw [hrs] at hok
        cases hok
    exact .tail _ (.tail _ (.tail _ .refl (by rfl) hv) (by rfl) hs)
      (by rfl) hmv
  have ht : Ranking.Lists last.Chosen last.votes [("blue", 4)] := by
    have hl : ∀ p : String, last.assignments[p]?
        = if "p" = p then some ("blue", 4)
          else (∅ : Table String (String × Nat))[p]? := by
      intro p
      show ((((∅ : Table String (String × Nat)).insert "p"
        ("red", 3)).insert "p" ("blue", 4)))[p]? = _
      rw [get_insert, get_insert]
      split <;> rfl
    refine ⟨by decide, ?_, ?_⟩
    · intro option
      constructor
      · intro hin
        cases mem_singleton.1 hin
        exact ⟨"p", 4, (hl "p").trans (if_pos rfl)⟩
      · rintro ⟨p, votes, hat⟩
        rw [hl] at hat
        split at hat
        · cases hat
          exact mem_singleton.2 rfl
        · rw [ExtTreeMap.getElem?_empty] at hat
          cases hat
    · intro row hrow
      cases mem_singleton.1 hrow
      decide +kernel
  have hls : Ranking.Lists
      (fun option => option ∈ last.committed.map (·.1)) last.scored
      [("red", 5)] := by
    refine ⟨by decide, fun option => Iff.rfl, ?_⟩
    intro row hrow
    cases mem_singleton.1 hrow
    decide +kernel
  obtain ⟨restored, ranking, rebuilt, hre, hrn, hr, -,
    htt⟩ := rebuilt_votes hc hc rfl hrun ht hls
  refine ⟨restored, rebuilt, hre, hr, htt.trans ?_⟩
  have hmv : moved.rankings["teams"]?.map (fun r => r.state.total)
      = some 13 := by decide +kernel
  have hsm : some ranking.state.total = some 13 := by
    rw [← hmv]
    exact (congrArg (Option.map fun r => r.state.total) hrn).symm
  exact Option.some.inj hsm

end Engine

end TikTools.Aggregation
