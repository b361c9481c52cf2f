/-
The standings of a competition are those of its ledger.

The votes and the scores a generation has recorded are the ballots of a
ranking (`Round.tally`). Each of the three handlers records one ballot
more or none, and moves the ranking by just that, so a ranking that
counts the ballots goes on to count them (`Counts`). The two projections
of the store list the ballots by option, so a restart rebuilds the
scores the engine had.
-/
import TikTools.Aggregation.Sane
import TikTools.Competitions.Handlers
import TikTools.Competitions.Projections
import TikTools.Competitions.Founded

namespace TikTools.Competitions

open TikTools.Lib
open Aggregation (Engine Ballots)
open List Option Table Round

-- ==== ballots

namespace Round

variable {round next : Round}

/-- What a generation has recorded, as a ranking counts it. -/
def tally (round : Round) : Ballots where
  assignments := Std.ExtTreeMap.map (fun _ row => (row.optionId, row.votes))
    round.participants
  committed := round.creditedRows.map points

theorem tally_assigned (round : Round) (p : String) :
    round.tally.assignments[p]?
      = round.participants[p]?.map fun row =>
          (row.optionId, row.votes) :=
  get_map _ _ _

theorem tally_votes (round : Round) (option : String) :
    round.tally.votes option = rowTotal option round.ballots := by
  have hsum : ∀ ro : List (String × ParticipantRow),
      ((ro.map fun row => (row.1, (row.2.optionId, row.2.votes))).map
        fun row => Ballots.share option row.1 row.2).sum
        = rowTotal option (ro.map ballot) := by
    intro ro
    induction ro with
    | nil => rfl
    | cons row rest ih =>
      rw [map_cons, map_cons, map_cons, sum_cons, rowTotal_cons, ih]
      rfl
  unfold Ballots.votes Table.sum tally ballots
  rw [← hsum, Std.ExtTreeMap.toList_map]

theorem tally_scored (round : Round) (option : String) :
    round.tally.scored option
      = rowTotal option (round.creditedRows.map points) := rfl

theorem lists_credits {he : String → Prop} {a : String → Nat}
    {ro : List (String × Nat)}
    (hh : ∀ option, option ∈ ro.map Prod.fst ↔ he option)
    (ha : ∀ option, a option = rowTotal option ro) :
    Aggregation.Ranking.Lists he a
      ((∅ : Table String Nat).credits ro).toList := by
  have hem : ∀ option : String,
      (∅ : Table String Nat)[option]? = none :=
    fun _ => Std.ExtTreeMap.getElem?_empty
  refine ⟨keys_toList_nodup _, ?_, ?_⟩
  · intro option
    rw [← hh]
    have hp := present_credits ∅ ro option
    rw [or_iff_right (not_not.2 (hem option))] at hp
    rw [← hp]
    constructor
    · intro hin
      obtain ⟨⟨found, t⟩, hm, rfl⟩ := mem_map.1 hin
      rw [mem_toList.1 hm]
      exact some_ne_none t
    · intro hs
      obtain ⟨t, ht⟩ := ne_none_iff_exists'.1 hs
      exact mem_map.2 ⟨(option, t), mem_toList.2 ht, rfl⟩
  · intro row hr
    have ht := total_credits ∅ ro row.1
    rw [mem_toList.1 hr, hem, getD_some, getD_none, Nat.zero_add] at ht
    rw [ha]
    exact ht

theorem lists_votes (round : Round) :
    Aggregation.Ranking.Lists round.tally.Chosen round.tally.votes
      ((∅ : Table String Nat).credits round.ballots).toList := by
  refine lists_credits (fun option => ?_) round.tally_votes
  constructor
  · intro hin
    obtain ⟨vote, hv, rfl⟩ := mem_map.1 hin
    obtain ⟨⟨p, row⟩, hr, rfl⟩ := mem_map.1 hv
    refine ⟨p, row.votes, ?_⟩
    rw [tally_assigned, mem_toList.1 hr]
    rfl
  · rintro ⟨p, votes, ha⟩
    rw [tally_assigned] at ha
    obtain ⟨row, hr, hv⟩ := map_eq_some_iff.1 ha
    refine mem_map.2 ⟨ballot (p, row),
      mem_map.2 ⟨_, mem_toList.2 hr, rfl⟩, ?_⟩
    exact congrArg Prod.fst hv

theorem lists_scores (round : Round) :
    Aggregation.Ranking.Lists
      (fun option => option ∈ round.tally.committed.map (·.1))
      round.tally.scored ((∅ : Table String Nat).credits
        (round.creditedRows.map points)).toList :=
  lists_credits (fun _ => Iff.rfl) round.tally_scored

-- ==== recorded

theorem tally_same (h : SameAccounts round next) :
    next.tally = round.tally := by
  unfold tally creditedRows
  rw [h.participants, h.scored]

theorem creditedRows_insert {key : SourceKey} {row : ScoredRow}
    (hnew : round.scored[key]? = none)
    (hs : next.scored = round.scored.insert key row) :
    next.creditedRows.Perm
      ((row.optionId.map fun option => (row, option)).toList
        ++ round.creditedRows) := by
  unfold creditedRows
  rw [hs]
  refine ((toList_insert_new _ row hnew).filterMap _).trans ?_
  rw [filterMap_cons]
  cases row.optionId with
  | none => exact .refl _
  | some option => exact .refl _

theorem tally_vote (round : Round) (new : Bool)
    (i : CommandParticipation) (option : String) (v : Nat) :
    (round.vote new i option v).tally
      = round.tally.assign i.participantId (option, v) := by
  have ha : (round.vote new i option v).tally.assignments
      = round.tally.assignments.insert i.participantId (option, v) := by
    refine Table.ext fun p => ?_
    rw [tally_assigned, get_insert, tally_assigned]
    show (round.participants.insert i.participantId
      (⟨option, v, i.receivedAt⟩ : ParticipantRow))[p]?.map
        _ = _
    rw [get_insert]
    split
    · rfl
    · rfl
  show (⟨_, _⟩ : Ballots) = ⟨_, _⟩
  rw [show (round.vote new i option v).creditedRows
    = round.creditedRows from rfl]
  exact congrArg (Ballots.mk · (round.creditedRows.map points)) ha

end Round

-- ==== ledger

variable {T : Type} {S : Codec T} {lower : String → String}
  {store next : Store T} {id : String} {row : DefinitionRow T}
  {state : LifecycleState}

theorem reads_unique {row' : DefinitionRow T} {s' : LifecycleState}
    (h : store.reads S id row state) (h' : store.reads S id row' s') :
    row' = row ∧ s' = state := by
  obtain ⟨hr, hs⟩ := h
  obtain ⟨hr', hs'⟩ := h'
  rw [hr, Option.some.injEq] at hr'
  rw [hs, Option.some.injEq] at hs'
  exact ⟨hr'.symm, hs'.symm⟩

variable {option : String}

theorem Definition.validate_keys {definition : Definition}
    (h : definition.validate lower = .ok ())
    (hin : option ∈ definition.options.map (·.id)) :
    Aggregation.Aggregation.validKey option = true := by
  obtain ⟨⟨-, ha⟩, -⟩ := ensure_ok.1 h
  obtain ⟨found, hf, rfl⟩ := mem_map.1 hin
  have hv := all_eq_true.1 ha found hf
  unfold OptionDefinition.valid at hv
  simp only [Bool.and_eq_true, decide_eq_true_eq] at hv
  unfold Aggregation.Aggregation.validKey
  have hb : found.id.utf8ByteSize ≤ 512 := by
    omega
  simp only [Bool.and_eq_true, decide_eq_true_eq]
  exact ⟨hv.1.1.1.1.1.1.1.1, hb⟩

theorem Store.Founded.keys (hvt : S.KeepsVoting)
    (h : store.Founded S lower) {re : Definition}
    (hrow : store.definitions[id]? = some row)
    (hr : S.definition.fromText row.definitionJson = some re)
    (hin : option ∈ re.options.map (·.id)) :
    Aggregation.Aggregation.validKey option = true := by
  obtain ⟨w, hv, hj⟩ := h.definitions id row hrow
  rw [hj] at hr
  rw [(hvt w re hr).1] at hin
  exact Definition.validate_keys hv hin

/-- What a route leaves of the rest of the store. -/
structure Store.Beside (store next : Store T) (id : String) : Prop where
  definitions : next.definitions = store.definitions
  states : next.states = store.states
  rounds : ∀ other generation, other ≠ id →
    next.round other generation = store.round other generation

theorem Store.Beside.refl (store : Store T) (id : String) :
    store.Beside store id := ⟨rfl, rfl, fun _ _ _ => rfl⟩

theorem beside_setRound (store : Store T) (id : String)
    (ge : Nat) (round : Round) :
    store.Beside (store.setRound id ge round) id := by
  refine ⟨rfl, rfl, fun other g ho => ?_⟩
  rw [Store.round_setRound, if_neg]
  intro hs
  exact ho (scope_inj.1 hs).1.symm

theorem Store.Beside.reads {o : String}
    (h : store.Beside next o) (hr : store.reads S id row state) :
    next.reads S id row state := by
  unfold Store.reads
  rw [h.definitions, h.states]
  exact hr

theorem round_setRound_self (store : Store T) (id : String)
    (g : Nat) (round : Round) :
    (store.setRound id g round).round id g = round := by
  rw [Store.round_setRound, if_pos rfl]

variable {previous : Option (String × Nat)}

theorem beside_command {i : CommandParticipation} {o : Option String}
    {a : Option ParticipationOutcome}
    (h : routeCompetitionCommandWithPrevious S lower store id i o
      = .ok (next, a, previous)) : store.Beside next id := by
  rcases route_command_cases S h with ⟨rfl, -⟩
    | ⟨_, _, state, _, round, -, -, -, -, -, rfl, -⟩
  · exact .refl _ _
  · exact beside_setRound _ _ _ _

theorem beside_score {i : ScoredInput} {o : Option String}
    {a : Option ScoredOutcome}
    (h : routeCompetitionScore S store id i o
      = .ok (next, a)) : store.Beside next id := by
  rcases route_score_cases S h with ⟨rfl, -⟩ | ⟨_, state, -, -, -, rfl, -⟩
  · exact .refl _ _
  · exact beside_setRound _ _ _ _

theorem beside_gift {i : GiftInput} {o : String}
    {s : Nat → Nat → String → Except DatabaseError Nat}
    {a : Option GiftOutcome}
    (h : routeCompetitionGift S store id i o s
      = .ok (next, a)) : store.Beside next id := by
  rcases route_gift_cases S h with ⟨rfl, -⟩
    | ⟨_, state, _, round, -, -, -, -, rfl, -⟩
  · exact .refl _ _
  · exact beside_setRound _ _ _ _

theorem command_tally (hv : S.KeepsVoting)
    (hf : store.Founded S lower) (hr : store.reads S id row state)
    {i : CommandParticipation} {ow : Option String}
    {a : Option ParticipationOutcome}
    (h : routeCompetitionCommandWithPrevious S lower store id i ow
      = .ok (next, a, previous)) :
    (∃ option v s,
        a = some (.accepted option v s)
          ∧ previous = (store.round id state.generation).tally.assignments[
            i.participantId]?
          ∧ (next.round id state.generation).tally
            = (store.round id state.generation).tally.assign
              i.participantId (option, v)
          ∧ Aggregation.Aggregation.validKey option = true)
      ∨ ((∀ option v s,
          a ≠ some (.accepted option v s))
        ∧ (next.round id state.generation).tally
          = (store.round id state.generation).tally) := by
  rcases route_command_cases S h with ⟨rfl, -, ha⟩
    | ⟨row', read, state', o, round, hr', hrd, -, -, hrn,
      rfl, rfl⟩
  · refine .inr ⟨?_, rfl⟩
    rintro option v s rfl
    rcases ha with ha | ⟨ha, -⟩
    · cases ha
    · cases ha
  obtain ⟨rfl, rfl⟩ := reads_unique hr hr'
  rw [round_setRound_self]
  have hkey : ∀ option,
      read.optionForCommand lower i.command = some option →
        Aggregation.Aggregation.validKey option = true := fun option hfn =>
    hf.keys hv hr.1 hrd (Definition.optionForCommand_mem hfn)
  have hn : ∀ {re : ParticipationOutcome}, re.counts = false →
      ∀ option v s, some re ≠ some (.accepted option v s) := by
    rintro re hc option v s hs
    cases hs
    cases hc
  cases command_commanded hrn with
  | refused o hc _ => exact .inr ⟨hn hc, rfl⟩
  | ignored o c hc _ _ _ =>
    exact .inr ⟨hn hc, rfl⟩
  | voted c prior v s ho _ _ hp _ =>
    refine .inl ⟨c, v, s, rfl, ?_, tally_vote _ _ _ _ _, hkey c ho⟩
    rw [tally_assigned, hp]
    rfl
  | joined c new ho _ _ hb _ _ =>
    refine .inl ⟨c, 1, false, rfl, ?_, tally_vote _ _ _ _ _, hkey c ho⟩
    rw [tally_assigned, hb]
    rfl

/-- The ballots after a score, if it counts for an option. -/
def Scores (before after : Ballots) (credit : Option (String × Nat)) :
    Prop :=
  after.assignments = before.assignments
    ∧ after.committed.Perm (credit.toList ++ before.committed)

theorem Scores.refl (b : Ballots) : Scores b b none := ⟨rfl, .refl _⟩

theorem scores_insert {round after : Round} {key : SourceKey}
    {s : ScoredRow} (hnew : round.scored[key]? = none)
    (hpr : after.participants = round.participants)
    (hs : after.scored = round.scored.insert key s) :
    Scores round.tally after.tally
      (s.optionId.map fun option => (option, s.score)) := by
  refine ⟨?_, ?_⟩
  · unfold Round.tally
    rw [hpr]
  · have hp := (creditedRows_insert hnew hs).map Round.points
    cases hopt : s.optionId with
    | none =>
      rw [hopt] at hp
      exact hp
    | some option =>
      rw [hopt] at hp
      exact hp

theorem score_tally (hrd : store.reads S id row state)
    {i : ScoredInput} {ow : Option String}
    {a : Option ScoredOutcome}
    (h : routeCompetitionScore S store id i ow = .ok (next, a)) :
    (∃ option, a = some (.accepted option)
        ∧ Scores (store.round id state.generation).tally
          (next.round id state.generation).tally
          (some (option, i.score)))
      ∨ ((∀ option, a ≠ some (.accepted option))
        ∧ Scores (store.round id state.generation).tally
          (next.round id state.generation).tally none) := by
  rcases route_score_cases S h with ⟨rfl, hans⟩
    | ⟨row', state', hr', -, -, rfl, rfl⟩
  · refine .inr ⟨?_, .refl _⟩
    rintro option rfl
    rcases hans with hans | ⟨hans, -⟩
    · cases hans
    · cases hans
  obtain ⟨rfl, rfl⟩ := reads_unique hrd hr'
  rw [round_setRound_self]
  have hn : ∀ {re : ScoredOutcome}, re.counts = false →
      ∀ option, some re ≠ some (.accepted option) := by
    rintro re hc option hsm
    cases hsm
    cases hc
  generalize hr : (store.round id state'.generation).score state' i = re
  have hs := score_scored (store.round id state'.generation) state' i
  rw [hr] at hs
  obtain ⟨o, after⟩ := re
  cases hs with
  | refused o hc _ => exact .inr ⟨hn hc, .refl _⟩
  | ignored o hc hnew _ =>
    exact .inr ⟨hn hc, @scores_insert _
      (Round.recordScore _ i none) _ _ hnew rfl rfl⟩
  | counted v hnew _ _ =>
    exact .inl ⟨v.optionId, rfl, @scores_insert _
      (Round.recordScore _ i (some v.optionId)) _ _ hnew rfl
      rfl⟩

theorem gift_tally (hrd : store.reads S id row state)
    {i : GiftInput} {ow : String}
    {s : Nat → Nat → String → Except DatabaseError Nat}
    {a : Option GiftOutcome}
    (h : routeCompetitionGift S store id i ow s = .ok (next, a)) :
    (∃ option v, a = some (.accepted option v)
        ∧ Scores (store.round id state.generation).tally
          (next.round id state.generation).tally (some (option, v)))
      ∨ ((∀ option v, a ≠ some (.accepted option v))
        ∧ Scores (store.round id state.generation).tally
          (next.round id state.generation).tally none) := by
  rcases route_gift_cases S h with ⟨rfl, ha⟩
    | ⟨row', state', o, round, hr', -, -, hrn, rfl, rfl⟩
  · refine .inr ⟨?_, .refl _⟩
    rintro option v rfl
    rcases ha with ha | ⟨ha, -⟩
    · cases ha
    · cases ha
  obtain ⟨rfl, rfl⟩ := reads_unique hrd hr'
  rw [round_setRound_self]
  have hn : ∀ {re : GiftOutcome}, re.counts = false →
      ∀ option v, some re ≠ some (.accepted option v) := by
    rintro re hc option v hs
    cases hs
    cases hc
  cases gift_gifted hrn with
  | refused o hc _ => exact .inr ⟨hn hc, .refl _⟩
  | ignored o hc _ _ hr =>
    have hs : round.tally
        = (store.round id state'.generation).tally := by
      unfold Round.tally Round.creditedRows
      rw [hr.participants, hr.scored]
    exact .inr ⟨hn hc, hs ▸ .refl _⟩
  | credited option v new _ _ _ _ _ hr =>
    obtain ⟨hnew, hsc⟩ := hr.scored
    exact .inl ⟨option, v, rfl, scores_insert hnew hr.participants hsc⟩

-- ==== engine

open Aggregation (Ranking.Alike)

variable {engine after : Engine} {r : String}

/-- The engine goes on with the scores it had under a ranking. -/
structure Kept (r : String) (engine after : Engine) : Prop where
  bySource : after.bySource = engine.bySource
  alike : ∀ ranking, engine.rankings[r]? = some ranking →
    ∃ next, after.rankings[r]? = some next ∧ ranking.Alike next
      ∧ next.state.capacity = ranking.state.capacity

theorem Kept.refl (r : String) (engine : Engine) : Kept r engine engine :=
  ⟨rfl, fun ra h => ⟨ra, h, .refl _, rfl⟩⟩

theorem Kept.trans {last : Engine} (h : Kept r engine after)
    (h' : Kept r after last) : Kept r engine last := by
  refine ⟨h'.bySource.trans h.bySource, fun ra hr => ?_⟩
  obtain ⟨m, hm, ha, hc⟩ := h.alike ra hr
  obtain ⟨next, hn, ha', hc'⟩ := h'.alike m hm
  exact ⟨next, hn, ⟨ha'.definition.trans ha.definition,
    ha'.lastTime.trans ha.lastTime, ha'.windowEvents.trans ha.windowEvents,
    ha'.scores.trans ha.scores, ha'.index.trans ha.index,
    ha'.total.trans ha.total, ha.revision.trans ha'.revision⟩,
    hc'.trans hc⟩

theorem kept_within {o : String}
    {act : Effect Aggregation.Ranking Aggregation.Error Unit}
    (h : o ≠ r ∨ ∀ ra : Aggregation.Ranking,
      ra.Alike (act ra).2 ∧ (act ra).2.state.capacity = ra.state.capacity) :
    Kept r engine (Engine.within o act engine).2 := by
  refine ⟨Engine.bySource_within _ _ _, fun ra hr => ?_⟩
  rw [Engine.get_within]
  by_cases hs : o = r
  · obtain ⟨ha, hc⟩ :=
      (h.resolve_left (not_not_intro hs)) ra
    rw [if_pos hs, hs, hr]
    exact ⟨_, rfl, ha, hc⟩
  · rw [if_neg hs]
    exact ⟨ra, hr, .refl _, rfl⟩

theorem alike_markRankingGap (ra : Aggregation.Ranking) :
    ra.Alike ra.markRankingGap
      ∧ ra.markRankingGap.state.capacity = ra.state.capacity := by
  unfold Aggregation.Ranking.markRankingGap
  split
  · exact ⟨.refl _, rfl⟩
  · exact ⟨ra.alike_fault, Aggregation.Ranking.touched_capacity ra.state⟩

theorem kept_markRankingGap (o : String) :
    Kept r engine (engine.perform (.markRankingGap o)) :=
  kept_within (.inr alike_markRankingGap)

theorem kept_markGap (hn : Engine.NamedOnce engine.bySource)
    (ci ri s : String) :
    Kept r engine (engine.perform (.markGap ci ri s)) := by
  refine ⟨Engine.bySource_forSource _ _ _, fun ra hr => ?_⟩
  show ∃ next, (engine.forSource s _).1.rankings[r]? = some next ∧ _
  rw [Engine.get_forSource _ _ _ hn, hr, map_some]
  refine ⟨_, rfl, ?_⟩
  split
  · unfold Aggregation.Ranking.markGap
    split
    · exact ⟨ra.alike_fault, Aggregation.Ranking.touched_capacity ra.state⟩
    · exact ⟨.refl _, rfl⟩
  · exact ⟨.refl _, rfl⟩

theorem alike_setEntryMetadata (key : String)
    (d : Aggregation.EntryMetadata) (ra : Aggregation.Ranking) :
    ra.Alike (Effect.change
        (Aggregation.Ranking.setEntryMetadata key d) ra).2
      ∧ (Effect.change (Aggregation.Ranking.setEntryMetadata key d)
        ra).2.state.capacity = ra.state.capacity := by
  unfold Effect.change
  split
  · next next hn =>
    unfold Aggregation.Ranking.setEntryMetadata at hn
    split at hn
    · cases hn
      exact ⟨.refl _, rfl⟩
    · dsimp only at hn
      split at hn
      · cases hn
        exact ⟨.refl _, rfl⟩
      · obtain ⟨state, hs, hn⟩ := bind_eq_ok.1 hn
        cases hn
        rw [Aggregation.Aggregation.touch_eq hs]
        exact ⟨⟨rfl, rfl, rfl, rfl, rfl, rfl, Nat.le_succ _⟩, rfl⟩
  · exact ⟨.refl _, rfl⟩

theorem kept_showOption (definition : Definition) (option : String) :
    Kept r engine (Host.showOption definition option engine).2 := by
  unfold Host.showOption
  cases definition.options.find? fun found => found.id == option with
  | none => exact .refl _ _
  | some found => exact kept_within (.inr (alike_setEntryMetadata _ _))

-- ==== handlers

variable {host : Host T}

theorem kept_markFailure (hn : Engine.NamedOnce host.engine.bySource)
    (id ci ri : String) :
    Kept r host.engine (host.markFailure id ci ri).engine := by
  unfold Host.markFailure
  split
  · exact kept_markRankingGap _
  · exact kept_markGap hn _ _ _

theorem kept_projectVote {id : String}
    (ho : ∀ definition, host.competitionGet id = some definition →
      definition.rankingId ≠ r)
    (previous : Option (String × Nat)) (v : String × Nat) :
    Kept r host.engine (host.projectVote id previous v).1.engine := by
  unfold Host.projectVote
  cases hget : host.competitionGet id with
  | none => exact .refl _ _
  | some definition =>
    have hw := @kept_within host.engine r definition.rankingId
      (Aggregation.Ranking.applyAssignment previous v)
      (.inl (ho definition hget))
    dsimp only
    generalize Engine.within definition.rankingId
      (Aggregation.Ranking.applyAssignment previous v) host.engine
        = result at hw ⊢
    obtain ⟨answer, engine⟩ := result
    split
    · next heq =>
      cases heq
      have hs := @kept_showOption engine r definition v.1
      generalize Host.showOption definition v.1 engine = shown at hs ⊢
      obtain ⟨shown, labelled⟩ := shown
      cases shown with
      | ok u => exact hw.trans hs
      | error error =>
        exact (hw.trans hs).trans (kept_markRankingGap _)
    · next heq =>
      cases heq
      exact hw
    · next heq =>
      cases heq
      exact hw.trans (kept_markRankingGap _)

theorem kept_projectScore {definition : Definition}
    (ho : definition.rankingId ≠ r) (option : String) (score : Nat) :
    Kept r host.engine
      (host.projectScore definition option score).1.engine := by
  unfold Host.projectScore
  have hw := @kept_within host.engine r definition.rankingId
    (Aggregation.Ranking.applyCommittedScore option score) (.inl ho)
  generalize Engine.within definition.rankingId
    (Aggregation.Ranking.applyCommittedScore option score) host.engine
      = result at hw ⊢
  obtain ⟨answer, engine⟩ := result
  cases answer with
  | error error => exact hw
  | ok u =>
    dsimp only
    have hs := @kept_showOption engine r definition option
    generalize Host.showOption definition option engine = shown at hs ⊢
    obtain ⟨shown, labelled⟩ := shown
    cases shown with
    | ok u => exact hw.trans hs
    | error error => exact hw.trans hs

-- ==== standing

/-- The ranking of a competition counts the ballots its generation has
recorded, and no other competition counts for it. -/
structure Standing (S : Codec T) (lower : String → String) (id : String)
    (state : LifecycleState) (competition : Definition)
    (definition : Aggregation.Definition) (weight : Nat)
    (host : Host T) : Prop where
  get : host.competitionGet id = some competition
  dedicated : ∀ other found, host.competitionGet other = some found →
    found.rankingId = competition.rankingId → other = id
  founded : host.store.Founded S lower
  reads : ∃ row, host.store.reads S id row state
  named : Engine.NamedOnce host.engine.bySource
  counted : ∃ ranking,
    host.engine.rankings[competition.rankingId]? = some ranking
      ∧ Aggregation.Ranking.Tallied definition weight
        (host.store.round id state.generation).tally ranking

variable {competition : Definition} {definition : Aggregation.Definition}
  {weight : Nat} {last : Host T}

section

variable (h : Standing S lower id state competition definition weight host)
include h

theorem Standing.kept
    (hg : ∀ o, last.competitionGet o = host.competitionGet o)
    (hf : last.store.Founded S lower)
    (hr : ∃ row, last.store.reads S id row state)
    (ht : Scores (host.store.round id state.generation).tally
      (last.store.round id state.generation).tally none)
    (hk : Kept competition.rankingId host.engine last.engine) :
    Standing S lower id state competition definition weight last := by
  obtain ⟨ra, hrn, htal⟩ := h.counted
  obtain ⟨next, hn, ha, hc⟩ := hk.alike ra hrn
  refine ⟨(hg id).trans h.get, ?_, hf, hr,
    hk.bySource ▸ h.named, next, hn,
    (htal.alike ha hc).perm ht.1 ht.2⟩
  intro o found hfn
  exact h.dedicated o found ((hg o).symm.trans hfn)

theorem Standing.markFailure (o ci ri : String) :
    Standing S lower id state competition definition weight
      (host.markFailure o ci ri) :=
  h.kept (fun _ => rfl) h.founded h.reads (.refl _)
    (kept_markFailure h.named o ci ri)

theorem Standing.stored
    {o : String} (hb : host.store.Beside next o)
    (hf : next.Founded S lower)
    (ht : Scores (host.store.round id state.generation).tally
      (next.round id state.generation).tally none) :
    Standing S lower id state competition definition weight
      { host with store := next } := by
  obtain ⟨row, hr⟩ := h.reads
  exact h.kept (fun _ => rfl) hf ⟨row, hb.reads hr⟩ ht (.refl _ _)

theorem Standing.elsewhere {o : String} (ho : o ≠ id)
    (hb : host.store.Beside next o)
    (hf : next.Founded S lower) :
    Standing S lower id state competition definition weight
      { host with store := next } := by
  refine h.stored hb hf ?_
  rw [hb.rounds id state.generation ho.symm]
  exact .refl _

end

-- ---- another competition

theorem Standing.projected
    (h : Standing S lower id state competition definition weight host)
    (hl : last = { host with engine := last.engine })
    (hk : Kept competition.rankingId host.engine last.engine) :
    Standing S lower id state competition definition weight last := by
  rw [hl]
  exact h.kept (fun _ => rfl) h.founded h.reads (.refl _) hk

theorem projectVote_frame (host : Host T) (id : String)
    (previous : Option (String × Nat)) (v : String × Nat) :
    (host.projectVote id previous v).1
      = { host with
          engine := (host.projectVote id previous v).1.engine } := by
  unfold Host.projectVote
  repeat' split
  all_goals rfl

theorem projectScore_frame (host : Host T) (found : Definition)
    (option : String) (s : Nat) :
    (host.projectScore found option s).1
      = { host with
          engine := (host.projectScore found option s).1.engine } := by
  unfold Host.projectScore
  repeat' split
  all_goals rfl

variable {found : Definition}

theorem Standing.ne_rankingId
    (h : Standing S lower id state competition definition weight host)
    {o : String} (ho : o ≠ id)
    (hf : host.competitionGet o = some found) :
    found.rankingId ≠ competition.rankingId :=
  fun hs => ho (h.dedicated o found hf hs)

theorem Standing.orMark
    {ha : Host T × Bool} (o ci ri : String)
    (hh : Standing S lower id state competition definition weight ha.1) :
    Standing S lower id state competition definition weight
      (Host.orMark o ci ri ha).1 := by
  unfold Host.orMark
  split
  · exact hh
  · exact hh.markFailure o ci ri

theorem Standing.other (hv : S.KeepsVoting)
    (h : Standing S lower id state competition definition weight host)
    {event : Routed} (ho : event.id ≠ id) :
    Standing S lower id state competition definition weight
      (host.handle S lower event).1 := by
  cases event with
  | command other input owner =>
    show Standing _ _ _ _ _ _ _ (host.routeCommand S lower other input
      owner).1
    unfold Host.routeCommand
    cases hc : routeCompetitionCommandWithPrevious S lower host.store
        other input (some owner) with
    | error error => exact h.markFailure other _ _
    | ok result =>
      have hs := h.elsewhere ho (beside_command hc) (h.founded.command hv hc)
      split
      · next heq =>
        cases heq
        exact hs.projected (projectVote_frame _ _ _ _)
          (kept_projectVote (fun found hf =>
            hs.ne_rankingId ho hf) _ _)
      all_goals first
        | (next heq => cases heq; exact hs)
        | (next heq => cases heq; exact hs.markFailure other _ _)
        | cases ‹Except.ok _ = Except.error _›
  | social other event owner =>
    refine .orMark other _ _ ?_
    cases hget : host.competitionGet other with
    | none => exact h
    | some found =>
      dsimp only
      cases scoreRouted host.engine found.rankingId event.contribution with
      | error error => exact h
      | ok score =>
        dsimp only
        split
        · exact h
        · cases hc : routeCompetitionScore S host.store other
              (event.input score) (some owner) with
          | error error => exact h
          | ok result =>
            have hs := h.elsewhere ho (beside_score hc) (h.founded.score hc)
            split
            · next heq =>
              cases heq
              exact hs.projected
                (projectScore_frame _ _ _ _)
                (kept_projectScore (h.ne_rankingId ho hget) _ _)
            all_goals first
              | (next heq => cases heq; exact hs)
              | (next heq =>
                cases heq; exact hs.markFailure other _ _)
              | cases ‹Except.ok _ = Except.error _›
  | gift other input owner =>
    refine .orMark other _ _ ?_
    cases hget : host.competitionGet other with
    | none => exact h
    | some found =>
      dsimp only
      cases hc : routeCompetitionGift S host.store other input owner
          (fun q d gift =>
            (scoreRouted host.engine found.rankingId
              (input.contribution q d gift)).mapError
              fun _ => .invalid "gift scoring failed") with
      | error error => exact h
      | ok result =>
        have hs := h.elsewhere ho (beside_gift hc) (h.founded.gift hv hc)
        split
        · next heq =>
          cases heq
          exact hs.projected (projectScore_frame _ _ _ _)
            (kept_projectScore (h.ne_rankingId ho hget) _ _)
        all_goals first
          | (next heq => cases heq; exact hs)
          | (next heq =>
            cases heq; exact hs.markFailure other _ _)
          | cases ‹Except.ok _ = Except.error _›

-- ---- the competition

theorem Standing.counting
    (h : Standing S lower id state competition definition weight host)
    (hb : host.store.Beside next id)
    (hf : next.Founded S lower)
    {act : Effect Aggregation.Ranking Aggregation.Error Unit}
    {engine : Engine}
    (hw : Engine.within competition.rankingId act host.engine
      = (.ok (), engine))
    (hc : ∀ ra after : Aggregation.Ranking,
      ra.Tallied definition weight
          (host.store.round id state.generation).tally →
        act ra = (.ok (), after) →
        after.Tallied definition weight
          (next.round id state.generation).tally) :
    Standing S lower id state competition definition weight
      { host with store := next, engine } := by
  obtain ⟨ra, hrn, ht⟩ := h.counted
  obtain ⟨row, hr⟩ := h.reads
  obtain ⟨after, hd, ha⟩ := Engine.within_ok hw hrn
  have hsrc := Engine.bySource_within competition.rankingId act host.engine
  rw [hw] at hsrc
  exact ⟨h.get, h.dedicated, hf, ⟨row, hb.reads hr⟩,
    hsrc ▸ h.named, after, ha, hc ra after ht hd⟩

theorem projectVote_done {vote : String × Nat}
    (hget : host.competitionGet id = some found)
    (hd : (host.projectVote id previous vote).2 = true) :
    ∃ engine, Engine.within found.rankingId
        (Aggregation.Ranking.applyAssignment previous vote) host.engine
          = (.ok (), engine)
      ∧ (host.projectVote id previous vote).1 = { host with
          engine := (Host.showOption found vote.1 engine).2 } := by
  unfold Host.projectVote at hd ⊢
  rw [hget] at hd ⊢
  dsimp only at hd ⊢
  cases hw : Engine.within found.rankingId
      (Aggregation.Ranking.applyAssignment previous vote) host.engine with
  | mk answer engine =>
    rw [hw] at hd
    cases answer with
    | error error => cases error <;> cases hd
    | ok u =>
      dsimp only at hd ⊢
      refine ⟨engine, rfl, ?_⟩
      cases hs : Host.showOption found vote.1 engine with
      | mk shown labelled =>
        rw [hs] at hd
        cases shown with
        | error error => cases hd
        | ok u => rfl

theorem projectScore_done {score : Nat}
    (hd : (host.projectScore found option score).2 = true) :
    ∃ engine, Engine.within found.rankingId
        (Aggregation.Ranking.applyCommittedScore option score) host.engine
          = (.ok (), engine)
      ∧ (host.projectScore found option score).1 = { host with
          engine := (Host.showOption found option engine).2 } := by
  unfold Host.projectScore at hd ⊢
  cases hw : Engine.within found.rankingId
      (Aggregation.Ranking.applyCommittedScore option score) host.engine with
  | mk answer engine =>
    rw [hw] at hd
    cases answer with
    | error error => cases hd
    | ok u =>
      dsimp only at hd ⊢
      refine ⟨engine, rfl, ?_⟩
      cases hs : Host.showOption found option engine with
      | mk shown labelled =>
        rw [hs] at hd
        cases shown with
        | error error => cases hd
        | ok u => rfl

theorem orMark_done {handled : Host T × Bool}
    {other creatorId roomId : String}
    (hd : (Host.orMark other creatorId roomId handled).2 = true) :
    handled.2 = true
      ∧ Host.orMark other creatorId roomId handled = handled := by
  unfold Host.orMark at hd ⊢
  split
  · next hh => exact ⟨hh, rfl⟩
  · next hh =>
    rw [if_neg hh] at hd
    cases hd

theorem Standing.voted
    (h : Standing S lower id state competition definition weight host)
    (hwt : definition.assignmentWeight = .ok weight)
    (hb : host.store.Beside next id)
    (hf : next.Founded S lower) {p : String}
    {vote : String × Nat}
    (hv : Aggregation.Aggregation.validKey vote.1 = true)
    (ht : (next.round id state.generation).tally
      = (host.store.round id state.generation).tally.assign p vote)
    (hd : (({ host with store := next } : Host T).projectVote id
      (host.store.round id state.generation).tally.assignments[p]?
      vote).2 = true) :
    Standing S lower id state competition definition weight
      (({ host with store := next } : Host T).projectVote id
        (host.store.round id
          state.generation).tally.assignments[p]? vote).1 := by
  have hget : ({ host with store := next } : Host T).competitionGet id
      = some competition := h.get
  obtain ⟨engine, hw, hl⟩ := projectVote_done hget hd
  have hc := h.counting hb hf hw
    fun ranking after htal hact =>
      ht ▸ htal.assign hwt hv hact
  exact hc.projected (hl ▸ rfl) (hl ▸ kept_showOption competition vote.1)

theorem Standing.scored
    (h : Standing S lower id state competition definition weight host)
    (hb : host.store.Beside next id) (hf : next.Founded S lower)
    {s : Nat}
    (ht : Scores (host.store.round id state.generation).tally
      (next.round id state.generation).tally (some (option, s)))
    (hd : (({ host with store := next } : Host T).projectScore
      competition option s).2 = true) :
    Standing S lower id state competition definition weight
      (({ host with store := next } : Host T).projectScore competition
        option s).1 := by
  obtain ⟨engine, hw, hl⟩ := projectScore_done hd
  have hc := h.counting hb hf hw
    fun ranking after htal hact =>
      (htal.commit hact).perm ht.1 (ht.2.trans
        (@perm_append_comm _ [(option, s)] _))
  exact hc.projected (hl ▸ rfl) (hl ▸ kept_showOption competition option)

theorem Standing.own (hv : S.KeepsVoting)
    (hwt : definition.assignmentWeight = .ok weight)
    (h : Standing S lower id state competition definition weight host)
    {event : Routed} (hid : event.id = id)
    (hd : (host.handle S lower event).2 = true) :
    Standing S lower id state competition definition weight
      (host.handle S lower event).1 := by
  obtain ⟨row, hr⟩ := h.reads
  cases event with
  | command other input owner =>
    subst hid
    show Standing _ _ _ _ _ _ _ (host.routeCommand S lower other input
      owner).1
    replace hd : (host.routeCommand S lower other input owner).2 = true := hd
    unfold Host.routeCommand at hd ⊢
    cases hc : routeCompetitionCommandWithPrevious S lower host.store
        other input (some owner) with
    | error error =>
      rw [hc] at hd
      cases hd
    | ok result =>
      obtain ⟨store, answer, previous⟩ := result
      have hb := beside_command hc
      have hf := h.founded.command hv hc
      rw [hc] at hd
      rcases command_tally hv h.founded hr hc with
        ⟨option, votes, switched, rfl, rfl, ht, hvl⟩
        | ⟨hn, ht⟩
      · exact h.voted hwt hb hf hvl ht hd
      · have hs := h.stored hb hf
          (ht ▸ .refl _)
        split
        · next heq =>
          cases heq
          exact absurd rfl (hn _ _ _)
        all_goals first
          | (next heq => cases heq; exact hs)
          | (next heq => cases heq; exact hs.markFailure other _ _)
          | cases ‹Except.ok _ = Except.error _›
  | social other event owner =>
    change other = id at hid
    subst hid
    show Standing _ _ _ _ _ _ _ (Host.orMark other _ _ _).1
    obtain ⟨hd, heq⟩ := orMark_done hd
    rw [heq]
    rw [h.get] at hd ⊢
    dsimp only at hd ⊢
    cases hsc : scoreRouted host.engine competition.rankingId
        event.contribution with
    | error error => exact h
    | ok score =>
      rw [hsc] at hd
      dsimp only at hd ⊢
      split
      · exact h
      · next hz =>
        rw [if_neg hz] at hd
        cases hc : routeCompetitionScore S host.store other
            (event.input score) (some owner) with
        | error error => exact h
        | ok result =>
          obtain ⟨store, answer⟩ := result
          have hb := beside_score hc
          have hf := h.founded.score hc
          rw [hc] at hd
          rcases score_tally hr hc with
            ⟨option, rfl, ht⟩ | ⟨hn, ht⟩
          · exact h.scored hb hf ht hd
          · have hs := h.stored hb hf ht
            split
            · next heq =>
              cases heq
              exact absurd rfl (hn _)
            all_goals first
              | (next heq => cases heq; exact hs)
              | (next heq =>
                cases heq; exact hs.markFailure other _ _)
              | cases ‹Except.ok _ = Except.error _›
  | gift other input owner =>
    change other = id at hid
    subst hid
    show Standing _ _ _ _ _ _ _ (Host.orMark other _ _ _).1
    obtain ⟨hd, heq⟩ := orMark_done hd
    rw [heq]
    rw [h.get] at hd ⊢
    dsimp only at hd ⊢
    cases hc : routeCompetitionGift S host.store other input owner
        (fun quantity diamonds gift =>
          (scoreRouted host.engine competition.rankingId
            (input.contribution quantity diamonds gift)).mapError
            fun _ => .invalid "gift scoring failed") with
    | error error => exact h
    | ok result =>
      obtain ⟨store, answer⟩ := result
      have hb := beside_gift hc
      have hf := h.founded.gift hv hc
      rw [hc] at hd
      rcases gift_tally hr hc with
        ⟨option, value, rfl, ht⟩ | ⟨hn, ht⟩
      · exact h.scored hb hf ht hd
      · have hs := h.stored hb hf ht
        split
        · next heq =>
          cases heq
          exact absurd rfl (hn _ _)
        all_goals first
          | (next heq => cases heq; exact hs)
          | (next heq =>
            cases heq; exact hs.markFailure other _ _)
          | cases ‹Except.ok _ = Except.error _›

end TikTools.Competitions
