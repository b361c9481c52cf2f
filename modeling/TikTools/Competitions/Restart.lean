/-
A restart changes no standings.

A competition is opened over a ranking without scores, or a restart has
just restored its scores. From there the handlers keep the ranking and
the ledger in step (`Standing`), so the totals the store lists at any
later moment restore the very scores the ranking has then.
-/
import TikTools.Competitions.Standings

namespace TikTools.Competitions

open TikTools.Lib
open Aggregation (Engine Ballots)
open List Round

variable {T : Type} {S : Codec T} {lower : String → String}

-- ==== totals

namespace Round

variable {definition : Definition} {round : Round}

theorem foldlM_addScore {rows : List (ScoredRow × String)}
    {t : Table String Nat}
    (h : ∀ o, t[o]?.getD 0 + rowTotal o (rows.map points) ≤ u64Max) :
    rows.foldlM addScore t ≠ .error (.invalid "score overflow") := by
  induction rows generalizing t with
  | nil => exact nofun
  | cons row rest ih =>
    have hrow := h row.2
    rw [map_cons, rowTotal_cons,
      if_pos (show (points row).1 = row.2 from rfl)] at hrow
    rw [foldlM_cons]
    unfold addScore
    rw [checkedAdd_of_le (show t[row.2]?.getD 0 + row.1.score
      ≤ u64Max by unfold points at hrow; omega)]
    show (ensure _ _ >>= _) >>= _ ≠ _
    by_cases hsz : (t.insert row.2
        (t[row.2]?.getD 0 + row.1.score)).size ≤ 256
    · rw [ensure_true hsz]
      refine ih fun o => ?_
      have hopt := h o
      rw [map_cons, rowTotal_cons] at hopt
      rw [Table.get_insert]
      by_cases hs : row.2 = o
      · rw [if_pos (show (points row).1 = o from hs)] at hopt
        rw [if_pos hs, Option.getD_some, hs]
        have hsc : (points row).2 = row.1.score := rfl
        omega
      · rw [if_neg hs]
        omega
    · rw [ensure_eq_error.2 ⟨hsz, rfl⟩, error_bind, error_bind]
      intro hs
      injection hs with hs
      injection hs with hs
      exact absurd hs (by decide)

theorem Accounted.scoredTotals_of_le (h : round.Accounted definition)
    (ho : definition.options.length ≤ 256)
    (hf : ∀ option, round.tally.scored option ≤ u64Max) :
    round.scoredTotals = .ok ((∅ : Table String Nat).credits
      (round.creditedRows.map points)).toList := by
  refine (h.scoredTotals ho).resolve_right fun hovf => ?_
  have hlen := h.length_creditedRows
  have ht := h.take_creditedRows.1
  have hfl : round.creditedRows.foldlM addScore ∅
      ≠ .error (.invalid "score overflow") := by
    refine foldlM_addScore fun option => ?_
    rw [show (∅ : Table String Nat)[option]? = none from
      Std.ExtTreeMap.getElem?_empty, Option.getD_none, Nat.zero_add]
    exact hf option
  unfold Round.scoredTotals at hovf
  dsimp only at hovf
  rw [ht] at hovf
  cases ha : round.creditedRows.foldlM addScore ∅ with
  | error error =>
    rw [ha, error_bind] at hovf
    cases hovf
    exact hfl ha
  | ok totals =>
    rw [ha] at hovf
    have hall : (round.creditedRows.take 500001).length ≤ 500000 :=
      (length_take_le' _ _).trans hlen
    rw [ok_bind, ensure_true hall] at hovf
    cases hovf

end Round

-- ==== opened

/-- The totals of a generation, as a restart reads them. -/
def Store.lists (store : Store T) (id : String) (generation : Nat)
    (totals scored : List (String × Nat)) : Prop :=
  competitionVoteTotals store id generation = .ok totals
    ∧ competitionScoredTotals store id generation = .ok scored

/-- How a ranking comes to count for a generation: a competition is
created over a ranking without scores, and a generation begins without
rows; or a restart has read the totals and restored them. -/
inductive Store.Opens (store : Store T) (id : String) (generation : Nat)
    (ranking : Aggregation.Ranking) : Prop
  | started (hgeneration : generation ≤ i64Max)
      (hblank : (store.round id generation).Blank)
      (hzero : ranking.state.total = 0)
  | restarted (fresh restored : Aggregation.Ranking)
      (totals scored : List (String × Nat))
      (hdefinition : fresh.definition = ranking.definition)
      (hlists : store.lists id generation totals scored)
      (hrestored : fresh.restoreAssignmentsWithScores totals scored
        = .ok restored)
      (hscores : ranking.state.scores = restored.state.scores)

theorem tally_keys {store : Store T} (h : store.Founded S lower)
    (id : String) (generation : Nat) :
    (∀ (p : String) (v : String × Nat),
        (store.round id generation).tally.assignments[p]?
            = some v →
          Aggregation.Aggregation.validKey v.1 = true)
      ∧ ∀ row ∈ (store.round id generation).tally.committed,
          Aggregation.Aggregation.validKey row.1 = true := by
  have hbk : ∃ definition : Definition,
      (store.round id generation).Accounted definition
        ∧ ∀ o ∈ definition.options.map (·.id),
          Aggregation.Aggregation.validKey o = true := by
    rcases h.rounds id generation with hb
      | ⟨-, definition, -, hvl, ha⟩
    · let empty : Definition :=
        { id := "", name := "", kind := .poll, rankingId := ""
          options := [], selectionMode := .highestScore
          tiePolicy := .stable, voteLimit := 1 }
      exact ⟨empty, hb.accounted (accounted_empty empty),
        fun _ hin => absurd hin not_mem_nil⟩
    · exact ⟨definition, ha, fun _ hin =>
        Definition.validate_keys hvl hin⟩
  obtain ⟨definition, ha, hk⟩ := hbk
  constructor
  · intro p v hv
    rw [tally_assigned] at hv
    obtain ⟨row, hr, rfl⟩ := Option.map_eq_some_iff.1 hv
    exact hk _ (ha.votes p row hr).2.2
  · intro row hr
    obtain ⟨⟨c, o⟩, hc, rfl⟩ := mem_map.1 hr
    obtain ⟨key, hkey, ho⟩ := mem_creditedRows.1 hc
    exact hk _ (ha.scored key c o hkey ho).1

variable {store : Store T} {id : String} {generation : Nat}
  {ranking : Aggregation.Ranking} {weight : Nat}

theorem lists_tally (h : store.Founded S lower)
    {totals scored : List (String × Nat)}
    (hl : store.lists id generation totals scored) :
    Aggregation.Ranking.Lists (store.round id generation).tally.Chosen
        (store.round id generation).tally.votes totals
      ∧ Aggregation.Ranking.Lists (fun option => option
          ∈ (store.round id generation).tally.committed.map (·.1))
        (store.round id generation).tally.scored scored := by
  obtain ⟨definition, ho, hb, -⟩ := h.accounted id generation
  obtain ⟨hv, hs⟩ := hl
  obtain ⟨hg, hv⟩ := ensure_ok.1 hv
  obtain ⟨-, hs⟩ := ensure_ok.1 hs
  rw [hb.voteTotals ho] at hv
  cases hv
  rcases hb.scoredTotals ho with hok | herr
  · rw [hok] at hs
    cases hs
    exact ⟨lists_votes _, lists_scores _⟩
  · rw [herr] at hs
    cases hs

theorem Round.Blank.tally {round : Round} (h : round.Blank) :
    round.tally = Ballots.empty := by
  have hn : Round.tally {} = Ballots.empty := by
    have ha : (Round.tally {}).assignments = ∅ := by
      refine Table.ext fun participant => ?_
      rw [tally_assigned]
      rfl
    exact congrArg (Ballots.mk · []) ha
  rw [tally_same h, hn]

theorem amount_le {state : Aggregation.Aggregation} (h : state.Sound)
    (option : String) : state.amount option ≤ state.total := by
  unfold Aggregation.Aggregation.amount
  rw [h.total]
  cases hs : state.scores[option]? with
  | none => exact Nat.zero_le _
  | some score =>
    exact Table.le_sum (f := fun _ score => score) state.scores hs

theorem Store.Opens.tallied (h : store.Opens id generation ranking)
    (hf : store.Founded S lower) (hs : ranking.Sane)
    (hwt : ranking.definition.assignmentWeight = .ok weight) :
    ranking.Tallied ranking.definition weight
      (store.round id generation).tally := by
  obtain ⟨had, hc⟩ := tally_keys hf id generation
  refine ⟨rfl, hs.state.sound, hs.state.capacity, hs.state.total, ?_, had, hc⟩
  intro option
  cases h with
  | started _ hb hz =>
    rw [hb.tally, Ballots.votes_absent, Nat.mul_zero]
    · exact Nat.le_zero.1 (hz ▸ amount_le hs.state.sound option)
    · rintro ⟨p, votes, hat⟩
      rw [show Ballots.empty.assignments[p]? = none from
        Std.ExtTreeMap.getElem?_empty] at hat
      cases hat
  | restarted fresh restored totals scored hd hl hr
      hss =>
    obtain ⟨hv, hsc⟩ := lists_tally hf hl
    obtain ⟨-, ha⟩ := Aggregation.Ranking.restored_amounts
      (hd ▸ hwt) hr option
    rw [hv.rowSum_eq fun _ => Ballots.votes_absent,
      hsc.rowSum_eq fun _ => Aggregation.rowSum_absent] at ha
    show ranking.state.scores[option]?.getD 0 = _
    rw [hss]
    exact ha

theorem Store.Opens.readable (h : store.Opens id generation ranking) :
    generation ≤ i64Max := by
  cases h with
  | started hg _ _ => exact hg
  | restarted _ _ _ _ _ hl _ _ =>
    exact (ensure_ok.1 hl.1).1

-- ==== restored

/-- A ranking that counts what is recorded is restored from the totals of
the store. -/
theorem tallied_restores (hf : store.Founded S lower)
    (hg : generation ≤ i64Max)
    {definition : Aggregation.Definition}
    (hwt : definition.assignmentWeight = .ok weight)
    (h : ranking.Tallied definition weight
      (store.round id generation).tally) :
    ∃ t s, store.lists id generation t s
      ∧ ∀ f : Aggregation.Ranking, f.definition = definition →
        f.state.revision < u64Max →
        ∃ r, f.restoreAssignmentsWithScores t s
            = .ok r
          ∧ r.state.scores = ranking.state.scores
          ∧ r.state.total = ranking.state.total := by
  obtain ⟨books, ho, ha, -⟩ := hf.accounted id generation
  have hft : ∀ o,
      (store.round id generation).tally.scored o ≤ u64Max := by
    intro o
    have ham := h.amounts o
    have hle := amount_le h.sound o
    have ht := h.total
    omega
  have hr : ∀ {α : Type} (re : Round → Except DatabaseError α),
      store.readRound id generation re = re (store.round id generation) := by
    intro α re
    unfold Store.readRound
    rw [ensure_true hg]
    rfl
  refine ⟨_, _, ⟨(hr _).trans (ha.voteTotals ho),
    (hr _).trans (ha.scoredTotals_of_le ho hft)⟩, ?_⟩
  intro f hfr hrev
  exact h.restored hwt hfr hrev (lists_votes _) (lists_scores _)

-- ==== runs

/-- An event is handled. Where it is one of the competition, every call
of the store and of the engine succeeds. -/
def handled (S : Codec T) (lower : String → String) (id : String)
    (host : Host T) (event : Routed) (next : Host T) : Prop :=
  (host.handle S lower event).1 = next
    ∧ (event.id = id → (host.handle S lower event).2 = true)

variable [DecidableEq T] {host last : Host T} {competition : Definition}
  {row : DefinitionRow T} {state : LifecycleState}

/-- Whatever events are handled, the scores of the ranking stay those a
restart restores: the readers list totals, and these rebuild the scores
and the total the ranking has, on any ranking of the definition. -/
theorem standings_survive_restart (hvoting : S.KeepsVoting)
    (hstore : Reachable S lower host.store)
    (hengine : Engine.Reachable host.engine)
    (hget : host.competitionGet id = some competition)
    (hdedicated : ∀ other found, host.competitionGet other = some found →
      found.rankingId = competition.rankingId → other = id)
    (hreads : host.store.reads S id row state)
    (hranking : host.engine.rankings[competition.rankingId]? = some ranking)
    (hvoted : ranking.definition.voted = true)
    (hopens : host.store.Opens id state.generation ranking)
    (hrun : Lib.Run (handled S lower id) (fun _ _ => True) host last) :
    ∃ kept totals scored,
      last.engine.rankings[competition.rankingId]? = some kept
        ∧ kept.definition = ranking.definition
        ∧ competitionVoteTotals last.store id state.generation = .ok totals
        ∧ competitionScoredTotals last.store id state.generation = .ok scored
        ∧ ∀ fresh : Aggregation.Ranking,
          fresh.definition = ranking.definition →
          fresh.state.revision < u64Max →
          ∃ restored, fresh.restoreAssignmentsWithScores totals scored
              = .ok restored
            ∧ restored.state.scores = kept.state.scores
            ∧ restored.state.total = kept.state.total := by
  have hsn := hengine.sane hranking
  obtain ⟨weight, hwt⟩ := Aggregation.Definition.voted_weight hsn.valid hvoted
  have hf := hstore.founded hvoting
  have ho : Standing S lower id state competition ranking.definition
      weight host :=
    ⟨hget, hdedicated, hf, ⟨row, hreads⟩, hengine.named_once, ranking,
      hranking, hopens.tallied hf hsn hwt⟩
  have hs : Standing S lower id state competition
      ranking.definition weight last := by
    refine @Lib.Run.invariant _ _ _ _ _ _ (Standing S lower id state
      competition ranking.definition weight) hrun ho ?_
    rintro before event after hbef - ⟨rfl, hd⟩
    by_cases hid : event.id = id
    · exact hbef.own hvoting hwt hid (hd hid)
    · exact hbef.other hvoting hid
  obtain ⟨kept, hk, htal⟩ := hs.counted
  obtain ⟨totals, scored, ⟨hv, hsc⟩, hr⟩ :=
    tallied_restores hs.founded hopens.readable hwt htal
  exact ⟨kept, totals, scored, hk, htal.same, hv, hsc, hr⟩

/-- The ranking of the poll: two points for a vote, one for a like. -/
def lunchRanking : Aggregation.Definition where
  schemaVersion := 1
  id := "votes"
  creatorId := "c"
  roomId := "r"
  groupBy := .option
  sources := [⟨"competition.vote", "event.count", 2, true, []⟩,
    ⟨"tiktok.like", "like.count", 1, true, []⟩]
  limit := 3
  capacity := 5

/-- The poll is running, and nobody has voted. -/
def lunchHost : Host PlainText where
  store := Store.run plainCodec (fun text => text)
    { aggregations := Table.single "votes" ⟨"c", "r"⟩ } (oneVote.take 2)
  engine := Engine.empty.perform
    (.create (some (.replicate 16 0)) lunchRanking)
  definitions := Table.single "lunch" commandPoll
  loadFailed := false

def lunchVote : Routed :=
  .command "lunch" ⟨"c", "r", "viewer", "chat:1", "!pizza", 5⟩ "host"

def lunchLike : Routed :=
  .social "lunch" ⟨"c", "r", "viewer", "like:1", .like 15, 6⟩ "host"

/-- A viewer votes for pizza, and likes. -/
theorem standings_survive_lunch :
    let voted := (lunchHost.handle plainCodec (fun text => text) lunchVote).1
    let last := (voted.handle plainCodec (fun text => text) lunchLike).1
    ∃ totals, competitionVoteTotals last.store "lunch" 1 = .ok totals := by
  intro voted last
  have hc : Engine.create (some (.replicate 16 0)) lunchRanking .empty
      = (.ok (), lunchHost.engine) := rfl
  obtain ⟨-, ranking, hr, hd, hs, -⟩ := Engine.created hc
  have hdd : ∀ other found,
      lunchHost.competitionGet other = some found →
        found.rankingId = commandPoll.rankingId → other = "lunch" := by
    intro other found hf _
    rw [show lunchHost.competitionGet other
      = ((∅ : Table String Definition).insert "lunch" commandPoll)[other]?
        from rfl, Table.get_insert] at hf
    split at hf
    · next hsm => exact hsm.symm
    · rw [Std.ExtTreeMap.getElem?_empty] at hf
      cases hf
  have hrun : Lib.Run (handled plainCodec (fun text => text) "lunch")
      (fun _ _ => True) lunchHost last :=
    .tail lunchLike (.tail lunchVote .refl trivial
      ⟨rfl, fun _ => by decide +kernel⟩) trivial
      ⟨rfl, fun _ => by decide +kernel⟩
  have hst : lunchHost.store.Opens "lunch" 1 ranking :=
    .started (by decide) ⟨rfl, rfl, rfl, rfl, rfl, rfl⟩ (by rw [hs]; rfl)
  have hen : lunchHost.engine.Reachable :=
    .perform (.create (some (.replicate 16 0)) lunchRanking) .empty
  obtain ⟨_, totals, _, -, -, ht, -⟩ :=
    @standings_survive_restart PlainText plainCodec (fun text => text)
      "lunch" ranking _ lunchHost last commandPoll
      ⟨"votes", .definition commandPoll⟩
      { lifecycle := .active, generation := 1 }
      plainCodec_keepsVoting ⟨_, _, rfl⟩ hen rfl hdd
      ⟨rfl, rfl⟩ hr
      (by rw [hd]; decide) hst hrun
  exact ⟨totals, ht⟩

end TikTools.Competitions
