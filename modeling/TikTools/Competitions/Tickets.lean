/-
A weighted draw sells every vote and every score.

The three passes of the draw, over the voters, over the gift
participants and over the scored rows, all add amounts to totals by
participant, so what they leave is the totals of one list of amounts
(`stakes`). The projections by option are totals of the same votes and
scores, so both come to the same sum.
-/
import TikTools.Competitions.Founded

namespace TikTools.Competitions

open TikTools.Lib List Table

namespace Round

variable {definition : Definition} {round : Round} {voteWeight : Nat}

-- ==== stakes

/-- The tickets of a voter. -/
def voterStake (voteWeight : Nat) (row : String × ParticipantRow) :
    String × Nat := (row.1, row.2.votes * voteWeight)

/-- The tickets of a scored row that counts. -/
def scoreStake (row : ScoredRow × String) : String × Nat :=
  (row.1.participantId, row.1.score)

/-- Everything that is worth tickets, and the gift participants. -/
def stakes (round : Round) (voteWeight : Nat) : List (String × Nat) :=
  round.participants.toList.map (voterStake voteWeight)
    ++ (round.giftParticipants.toList.map Prod.fst).map (·, 0)
    ++ round.creditedRows.map scoreStake

variable {weights after : Table String Nat}

theorem addVoter_credit {row : String × ParticipantRow}
    (hn : weights[row.1]? = none)
    (h : addVoter voteWeight weights row = .ok after) :
    after = weights.credit (voterStake voteWeight row) := by
  obtain ⟨-, h⟩ := ensure_ok.1 h
  obtain ⟨weight, hwt, h⟩ := okOr_ok.1 h
  obtain ⟨-, rfl⟩ := checkedMul_eq_some.1 hwt
  cases h
  unfold Table.credit voterStake
  rw [hn, Option.getD_none, Nat.zero_add]

theorem addGiver_credit {p : String}
    (h : addGiver weights p = .ok after) :
    after = weights.credit (p, 0) := by
  obtain ⟨-, h⟩ := ensure_ok.1 h
  cases h
  unfold Table.credit
  split
  · next hn =>
    rw [hn]
    rfl
  · next ho =>
    obtain ⟨weight, hwt⟩ := Option.ne_none_iff_exists'.1 ho
    refine Table.ext fun key => ?_
    rw [hwt, Option.getD_some, get_insert]
    split
    · next hs => rw [← hs, hwt, Nat.add_zero]
    · rfl

theorem addTickets_credit {row : ScoredRow × String}
    (h : addTickets weights row = .ok after) :
    after = weights.credit (scoreStake row) := by
  obtain ⟨weight, hwt, h⟩ := okOr_ok.1 h
  obtain ⟨total, ht, h⟩ := okOr_ok.1 h
  obtain ⟨-, rfl⟩ := checkedAdd_eq_some.1 ht
  cases h
  unfold Table.credit scoreStake
  rw [hwt, Option.getD_some]

theorem foldlM_credits {α : Type}
    {st : Table String Nat → α → Except DatabaseError (Table String Nat)}
    (s : α → String × Nat)
    (hs : ∀ (weights after : Table String Nat) (a : α),
      st weights a = .ok after → after = weights.credit (s a))
    {r : List α} (h : r.foldlM st weights = .ok after) :
    after = weights.credits (r.map s) := by
  induction r generalizing weights with
  | nil =>
    cases h
    rfl
  | cons a rest ih =>
    obtain ⟨middle, hm, h⟩ := bind_eq_ok.1 h
    rw [ih h, hs _ _ _ hm]
    rfl

theorem foldlM_voters {r : List (String × ParticipantRow)}
    (hd : (r.map Prod.fst).Nodup)
    (hn : ∀ row ∈ r, weights[row.1]? = none)
    (h : r.foldlM (addVoter voteWeight) weights = .ok after) :
    after = weights.credits (r.map (voterStake voteWeight)) := by
  induction r generalizing weights with
  | nil =>
    cases h
    rfl
  | cons row rest ih =>
    rw [map_cons, nodup_cons] at hd
    obtain ⟨middle, hm, h⟩ := bind_eq_ok.1 h
    cases addVoter_credit (hn row mem_cons_self) hm
    refine ih hd.2 (fun o ho => ?_) h
    unfold Table.credit
    rw [get_insert, if_neg]
    · exact hn o (mem_cons_of_mem _ ho)
    · intro hs
      exact hd.1 (mem_map.2 ⟨o, ho, hs.symm⟩)

theorem Accounted.candidates (h : round.Accounted definition)
    {c : List Candidate}
    (hd : round.weightedDrawParticipants voteWeight = .ok c) :
    c = ((∅ : Table String Nat).credits
      (round.stakes voteWeight)).toList.map fun (key, weight) =>
        { key, weight } := by
  rw [h.weightedDraw_eq] at hd
  obtain ⟨voters, hv, hd⟩ := bind_eq_ok.1 hd
  obtain ⟨everyone, hev, hd⟩ := bind_eq_ok.1 hd
  obtain ⟨weights, hwts, hd⟩ := bind_eq_ok.1 hd
  cases hd
  have hf := foldlM_voters (keys_toList_nodup _)
    (fun row _ => Std.ExtTreeMap.getElem?_empty) hv
  have hsnd := foldlM_credits (·, 0) (fun _ _ _ => addGiver_credit) hev
  have ht := foldlM_credits scoreStake (fun _ _ _ => addTickets_credit) hwts
  unfold stakes
  rw [ht, hsnd, hf, credits_append, credits_append]

theorem sum_stakes (round : Round) (voteWeight : Nat) :
    ((round.stakes voteWeight).map (·.2)).sum
      = voteWeight * (round.ballots.map (·.2)).sum
        + ((round.creditedRows.map points).map (·.2)).sum := by
  have hv : ∀ rows : List (String × ParticipantRow),
      ((rows.map (voterStake voteWeight)).map (·.2)).sum
        = voteWeight * ((rows.map ballot).map (·.2)).sum := by
    intro rows
    induction rows with
    | nil => rfl
    | cons row rest ih =>
      simp only [map_cons, sum_cons]
      rw [ih, Nat.mul_add]
      exact congrArg (· + _) (Nat.mul_comm _ _)
  have hg : ∀ rows : List String,
      ((rows.map (·, 0)).map (·.2)).sum = 0 := by
    intro rows
    induction rows with
    | nil => rfl
    | cons row rest ih =>
      simp only [map_cons, sum_cons]
      rw [ih]
  unfold stakes ballots
  rw [map_append, map_append, sum_append, sum_append,
    hv, hg, Nat.add_zero, map_map (f := scoreStake),
    map_map (f := points)]
  rfl

theorem Accounted.mem_stakes (h : round.Accounted definition)
    (key : String) : key ∈ (round.stakes voteWeight).map Prod.fst
      ↔ key ∈ round.entrants := by
  unfold stakes entrants
  rw [map_append, map_append, mem_append, mem_append,
    map_map, map_map, map_map, Finset.mem_union,
    ← Table.mem_keys, ← Table.mem_keys]
  have hv : round.participants.toList.map
      (Prod.fst ∘ voterStake voteWeight)
      = round.participants.toList.map Prod.fst := rfl
  have hg : round.giftParticipants.toList.map
      ((Prod.fst ∘ (·, 0)) ∘ Prod.fst)
      = round.giftParticipants.toList.map (Prod.fst : _ → String) := rfl
  refine or_iff_left_of_imp fun hs => ?_
  obtain ⟨_, hst, rfl⟩ := mem_map.1 hs
  obtain ⟨⟨row, o⟩, hr, rfl⟩ := mem_map.1 hst
  obtain ⟨s, hsrc, ho⟩ := mem_creditedRows.1 hr
  have hin := (h.scored s row o hsrc ho).2
  unfold entrants at hin
  rwa [Finset.mem_union, ← Table.mem_keys, ← Table.mem_keys] at hin

theorem rowTotal_stakes (round : Round) (voteWeight : Nat)
    (key : String) : rowTotal key (round.stakes voteWeight)
      = voteWeight * (round.participants[key]?.elim 0 (·.votes))
        + rowTotal key (round.creditedRows.map scoreStake) := by
  have hg : ∀ r : List String,
      rowTotal key (r.map (·, 0)) = 0 := by
    intro r
    induction r with
    | nil => rfl
    | cons row rest ih =>
      rw [map_cons, rowTotal_cons, ih]
      split <;> rfl
  have hv : rowTotal key
      (round.participants.toList.map (voterStake voteWeight))
      = voteWeight * (round.participants[key]?.elim 0 (·.votes)) := by
    have hl := rowTotal_toList round.participants
      (fun row => row.votes * voteWeight) key
    cases hrow : round.participants[key]? with
    | none =>
      rw [hrow] at hl
      exact hl
    | some row =>
      rw [hrow] at hl
      exact hl.trans (Nat.mul_comm _ _)
  unfold stakes
  rw [rowTotal_append, rowTotal_append, hg, hv, Nat.add_zero]

end Round

/-- The participants of a weighted draw are those who take part, each
once and with the tickets of their votes and their scores. All tickets
together are the votes, each worth the vote weight, and the scores that
the store lists by option. -/
theorem weighted_draw_conserves {T : Type} [DecidableEq T] (S : Codec T)
    (lower : String → String) (hvoting : S.KeepsVoting)
    (aggregations : Table String Place) (calls : List Call) (id : String)
    (generation voteWeight : Nat) {candidates : List Candidate}
    (hdraw : competitionWeightedDrawParticipants
      (Store.run S lower { aggregations } calls) id generation voteWeight
        = .ok candidates) :
    let store := Store.run S lower { aggregations } calls
    let round := store.round id generation
    (candidates.map (·.key)).Nodup
      ∧ (∀ key, key ∈ candidates.map (·.key)
        ↔ round.participants[key]? ≠ none
          ∨ round.giftParticipants[key]? ≠ none)
      ∧ competitionParticipantCount store id generation
        = .ok candidates.length
      ∧ (∀ c ∈ candidates, c.weight
        = voteWeight * (round.participants[c.key]?.elim 0 (·.votes))
          + rowTotal c.key (round.creditedRows.map Round.scoreStake))
      ∧ ∃ totals, competitionVoteTotals store id generation = .ok totals
        ∧ ∀ scored,
          competitionScoredTotals store id generation = .ok scored →
            (candidates.map (·.weight)).sum
              = voteWeight * (totals.map (·.2)).sum
                + (scored.map (·.2)).sum := by
  intro store round
  have hf : store.Founded S lower :=
    Reachable.founded hvoting ⟨aggregations, calls, rfl⟩
  obtain ⟨definition, hop, hb, -⟩ := hf.accounted id generation
  obtain ⟨hgen, hdraw⟩ := ensure_ok.1 hdraw
  have hr : ∀ {α : Type} (reader : Round → Except DatabaseError α),
      store.readRound id generation reader = reader round := by
    intro α reader
    unfold Store.readRound
    rw [ensure_true hgen]
    rfl
  let weights := (∅ : Table String Nat).credits (round.stakes voteWeight)
  have hcn : candidates = weights.toList.map
      fun (key, weight) => { key, weight } := hb.candidates hdraw
  have hem : ∀ key : String, (∅ : Table String Nat)[key]? = none :=
    fun _ => Std.ExtTreeMap.getElem?_empty
  have hk : candidates.map (·.key) = weights.toList.map Prod.fst := by
    rw [hcn, map_map]
    rfl
  have hp : ∀ key, weights[key]? ≠ none ↔ key ∈ round.entrants := by
    intro key
    rw [present_credits, hb.mem_stakes]
    exact or_iff_right fun hsm => hsm (hem key)
  have hen : ∀ key, key ∈ candidates.map (·.key)
      ↔ key ∈ round.entrants := by
    intro key
    rw [hk, Table.mem_keys, mem_keySet, hp]
  have ho : (candidates.map (·.key)).Nodup := by
    rw [hk]
    exact keys_toList_nodup _
  refine ⟨ho, ?_, ?_, ?_, _, (hr _).trans (hb.voteTotals hop), ?_⟩
  · intro key
    rw [hen]
    exact Round.mem_entrants
  · have hcr : candidates.length = round.entrants.card := by
      rw [← length_map (f := (·.key)), ← toFinset_card_of_nodup ho]
      refine congrArg Finset.card (Finset.ext fun key => ?_)
      rw [mem_toFinset, hen]
    rw [hcr, ← hb.participants]
    exact hr _
  · intro c hc
    rw [hcn] at hc
    obtain ⟨⟨key, weight⟩, hrow, rfl⟩ := mem_map.1 hc
    have ht := total_credits ∅ (round.stakes voteWeight) key
    rw [hem, Option.getD_none, Nat.zero_add, Round.rowTotal_stakes] at ht
    rw [← ht, mem_toList.1 hrow]
    rfl
  · intro scored hs
    rw [competitionScoredTotals, hr] at hs
    have hwts : (candidates.map (·.weight)).sum
        = ((round.stakes voteWeight).map (·.2)).sum := by
      have hsum := sum_credits ∅ (round.stakes voteWeight)
      rw [sum_empty, Nat.zero_add] at hsum
      rw [← hsum, hcn, map_map]
      rfl
    have hl : ∀ rows : List (String × Nat),
        ((((∅ : Table String Nat).credits rows).toList).map (·.2)).sum
          = (rows.map (·.2)).sum := by
      intro rows
      have hsum := sum_credits ∅ rows
      rw [sum_empty, Nat.zero_add] at hsum
      exact hsum
    rcases hb.scoredTotals hop with hok | hovf
    · rw [hok] at hs
      cases hs
      rw [hwts, Round.sum_stakes, hl, hl]
    · rw [hovf] at hs
      cases hs

/-- The poll with its one vote. -/
def votedLunch : Store PlainText :=
  Store.run plainCodec (fun text => text)
    { aggregations := Table.single "votes" ⟨"c", "r"⟩ } oneVote

/-- The one vote, at three tickets. -/
theorem weighted_draw_conserves_vote :
    ∃ totals, competitionVoteTotals votedLunch "lunch" 1 = .ok totals := by
  have hd : competitionWeightedDrawParticipants votedLunch "lunch" 1 3
      = .ok [⟨"viewer", 3⟩] := by decide +kernel
  obtain ⟨-, -, -, -, totals, ht, -⟩ :=
    weighted_draw_conserves plainCodec _ plainCodec_keepsVoting _ oneVote
      "lunch" 1 3 hd
  exact ⟨totals, ht⟩

end TikTools.Competitions
