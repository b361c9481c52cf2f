/-
The readers never refuse a generation whose books are in order.

A restart can always sum up the votes; it can sum up the scores unless
their total leaves 64 bits. Everyone who takes part can be drawn, and
every score that counts has a participant whose tickets it adds to, so a
weighted draw fails by overflow only.
-/
import TikTools.Lib.Totals
import TikTools.Competitions.Accounting

namespace TikTools.Competitions

open TikTools.Lib List Table

namespace Round

variable {definition : Definition} {round : Round}

-- ==== votes

/-- A participant's votes for the option they are at. -/
def ballot (row : String × ParticipantRow) : String × Nat :=
  (row.2.optionId, row.2.votes)

def ballots (round : Round) : List (String × Nat) :=
  round.participants.toList.map ballot

theorem foldlM_addVotes {r : List (String × ParticipantRow)}
    {t : Table String Nat}
    (h : ∀ o, t[o]?.getD 0 + rowTotal o (r.map ballot) ≤ i64Max) :
    r.foldlM addVotes t = .ok (t.credits (r.map ballot)) := by
  induction r generalizing t with
  | nil => rfl
  | cons row rest ih =>
    have hrow := h row.2.optionId
    rw [map_cons, rowTotal_cons,
      if_pos (show (ballot row).1 = row.2.optionId from rfl)] at hrow
    have hadd : addVotes t row
        = .ok (t.credit (ballot row)) := by
      unfold addVotes
      dsimp only
      rw [ensure_true (show t[row.2.optionId]?.getD 0 + row.2.votes
        ≤ i64Max by unfold ballot at hrow; omega)]
      rfl
    rw [foldlM_cons, hadd]
    refine ih fun o => ?_
    have hopt := h o
    rw [map_cons, rowTotal_cons] at hopt
    unfold Table.credit
    rw [get_insert]
    by_cases hs : (ballot row).1 = o
    · rw [if_pos hs] at hopt ⊢
      rw [Option.getD_some, hs]
      omega
    · rw [if_neg hs] at hopt ⊢
      omega

theorem sum_ballots (round : Round) :
    (round.ballots.map (·.2)).sum = round.votesCast := by
  unfold ballots votesCast Table.sum
  rw [map_map]
  rfl

theorem Accounted.voteTotals (h : round.Accounted definition)
    (ho : definition.options.length ≤ 256) :
    round.voteTotals
      = .ok ((∅ : Table String Nat).credits round.ballots).toList := by
  have hem : ∀ o : String,
      (∅ : Table String Nat)[o]? = none :=
    fun _ => Std.ExtTreeMap.getElem?_empty
  have hcs : round.votesCast ≤ maxContributions := h.cast.trans h.budget
  have hf : round.participants.toList.foldlM addVotes ∅
      = .ok ((∅ : Table String Nat).credits round.ballots) := by
    refine foldlM_addVotes fun o => ?_
    have hle := rowTotal_le o round.ballots
    rw [sum_ballots] at hle
    rw [hem, Option.getD_none, Nat.zero_add]
    exact hle.trans (hcs.trans (by decide))
  have hsz : ((∅ : Table String Nat).credits round.ballots).size
      ≤ 256 := by
    calc ((∅ : Table String Nat).credits round.ballots).size
        ≤ (definition.options.map (·.id)).length := by
          refine size_credits_le (fun o hs => absurd (hem o) hs) ?_
          intro row hr
          obtain ⟨⟨p, v⟩, hv, rfl⟩ := mem_map.1 hr
          exact (h.votes p v (mem_toList.1 hv)).2.2
      _ ≤ 256 := by rw [length_map]; exact ho
  have hp : ∀ row ∈
      ((∅ : Table String Nat).credits round.ballots).toList, row.2 ≠ 0 := by
    rintro ⟨o, t⟩ hr hz
    have hat := mem_toList.1 hr
    have ht := total_credits ∅ round.ballots o
    rw [hat, hem, Option.getD_some, Option.getD_none, Nat.zero_add] at ht
    have hpr : o ∈ round.ballots.map Prod.fst := by
      refine ((present_credits ∅ round.ballots o).1 ?_
        ).resolve_left fun hs => hs (hem o)
      rw [hat]
      exact Option.some_ne_none t
    obtain ⟨vo, hvt, rfl⟩ := mem_map.1 hpr
    have hle : vo.2 ≤ rowTotal vo.1 round.ballots := le_rowTotal hvt
    obtain ⟨⟨p, v⟩, hv, rfl⟩ := mem_map.1 hvt
    have hc := (h.votes p v (mem_toList.1 hv)).1
    rw [← ht, show t = 0 from hz] at hle
    exact absurd hc (Nat.not_lt_of_le hle)
  have htk : ((∅ : Table String Nat).credits round.ballots).toList.take
      257 = ((∅ : Table String Nat).credits round.ballots).toList := by
    refine take_of_length_le ?_
    rw [Std.ExtTreeMap.length_toList]
    omega
  unfold Round.voteTotals
  rw [hf]
  show (do ensure _ _; return _ : Except DatabaseError _) = _
  rw [htk, ensure_true ⟨by rw [Std.ExtTreeMap.length_toList]; exact hsz, hp⟩]
  rfl

-- ==== scores

/-- A scored row that counts, as an amount of its option. -/
def points (row : ScoredRow × String) : String × Nat := (row.2, row.1.score)

theorem mem_creditedRows {row : ScoredRow} {option : String} :
    (row, option) ∈ round.creditedRows
      ↔ ∃ key : SourceKey, round.scored[key]? = some row
        ∧ row.optionId = some option := by
  unfold creditedRows
  rw [mem_filterMap]
  constructor
  · rintro ⟨⟨key, found⟩, hmem, hrow⟩
    obtain ⟨named, hn, heq⟩ := Option.map_eq_some_iff.1 hrow
    cases heq
    exact ⟨key, mem_toList.1 hmem, hn⟩
  · rintro ⟨key, hkey, hopt⟩
    refine ⟨(key, row), mem_toList.2 hkey, ?_⟩
    rw [hopt]
    rfl

theorem size_scored (round : Round) : round.scored.size
    = round.scored.sum eventWeight + round.scored.sum creditWeight := by
  unfold Table.sum
  rw [← Std.ExtTreeMap.length_toList]
  induction round.scored.toList with
  | nil => rfl
  | cons row rest ih =>
    have hone : eventWeight row.1 row.2 + creditWeight row.1 row.2 = 1 := by
      unfold eventWeight creditWeight
      split
      · rfl
      · rfl
    simp only [length_cons, map_cons, sum_cons]
    omega

theorem Accounted.length_creditedRows (h : round.Accounted definition) :
    round.creditedRows.length ≤ 500000 := by
  have hs := round.size_scored
  have hbud := h.budget
  rw [h.contributions] at hbud
  unfold receipts maxContributions at hbud
  have hc := h.credits
  calc round.creditedRows.length ≤ round.scored.toList.length :=
        length_filterMap_le _ _
    _ = round.scored.size := Std.ExtTreeMap.length_toList
    _ ≤ 500000 := by omega

theorem Accounted.take_creditedRows (h : round.Accounted definition) :
    (round.creditedRows.take 500001).take 500000 = round.creditedRows
      ∧ round.creditedRows.take 500001 = round.creditedRows := by
  have hlen := h.length_creditedRows
  rw [take_take, take_of_length_le (hlen.trans (by decide)),
    take_of_length_le (hlen.trans (by decide))]
  exact ⟨rfl, rfl⟩

theorem addScore_cases {t : Table String Nat}
    {row : ScoredRow × String} :
    addScore t row = .error (.invalid "score overflow")
      ∨ t[row.2]?.getD 0 + row.1.score ≤ u64Max
        ∧ addScore t row = (do
            ensure ((t.credit (points row)).size ≤ 256)
              (.invalid "option capacity exceeded")
            return t.credit (points row)) := by
  unfold addScore
  cases hsum : checkedAdd (t[row.2]?.getD 0) row.1.score with
  | none => exact .inl rfl
  | some total =>
    obtain ⟨hle, rfl⟩ := checkedAdd_eq_some.1 hsum
    exact .inr ⟨hle, rfl⟩

/-- The scores of a generation are summed up by option, unless a sum
leaves 64 bits. -/
theorem Accounted.scoredTotals (h : round.Accounted definition)
    (hop : definition.options.length ≤ 256) :
    round.scoredTotals = .ok ((∅ : Table String Nat).credits
        (round.creditedRows.map points)).toList
      ∨ round.scoredTotals = .error (.invalid "score overflow") := by
  have hem : ∀ o : String,
      (∅ : Table String Nat)[o]? = none :=
    fun _ => Std.ExtTreeMap.getElem?_empty
  have hlen := h.length_creditedRows
  have hn : ∀ row ∈ round.creditedRows,
      row.2 ∈ definition.options.map (·.id) := by
    rintro ⟨row, o⟩ hrow
    obtain ⟨key, hk, hp⟩ := mem_creditedRows.1 hrow
    exact (h.scored key row o hk hp).1
  have hf : ∀ (r : List (ScoredRow × String))
      (before : List (String × Nat)),
      (∀ row ∈ r, row.2 ∈ definition.options.map (·.id)) →
      (∀ row ∈ before, row.1 ∈ definition.options.map (·.id)) →
      r.foldlM addScore ((∅ : Table String Nat).credits before)
          = .ok ((∅ : Table String Nat).credits (before ++ r.map points))
        ∨ r.foldlM addScore ((∅ : Table String Nat).credits before)
          = .error (.invalid "score overflow") := by
    intro r
    induction r with
    | nil =>
      intro before _ _
      rw [map_nil, append_nil]
      exact .inl rfl
    | cons row rest ih =>
      intro before hr hb
      have ha : ∀ ot ∈ before ++ [points row],
          ot.1 ∈ definition.options.map (·.id) := by
        intro ot ho
        rcases mem_append.1 ho with ho | ho
        · exact hb ot ho
        · cases mem_singleton.1 ho
          exact hr row mem_cons_self
      have hc : ((∅ : Table String Nat).credits before).credit
          (points row)
          = (∅ : Table String Nat).credits (before ++ [points row]) := by
        unfold Table.credits
        rw [foldl_append]
        rfl
      rw [foldlM_cons]
      rcases @addScore_cases ((∅ : Table String Nat).credits before) row
        with hv | ⟨-, hadd⟩
      · rw [hv]
        exact .inr rfl
      · have hs : ((∅ : Table String Nat).credits
            (before ++ [points row])).size ≤ 256 := by
          calc _ ≤ (definition.options.map (·.id)).length :=
                size_credits_le
                  (fun o hsm => absurd (hem o) hsm)
                  ha
            _ ≤ 256 := by rw [length_map]; exact hop
        rw [hadd, hc, ensure_true hs]
        have hrs := ih (before ++ [points row])
          (fun ot ho => hr ot (mem_cons_of_mem _ ho))
          ha
        rwa [append_assoc, singleton_append, ← map_cons] at hrs
  obtain ⟨ht, hl⟩ := h.take_creditedRows
  unfold Round.scoredTotals
  dsimp only
  rw [ht, hl]
  rcases hf round.creditedRows [] hn nofun with hok | he
  · rw [show (∅ : Table String Nat).credits [] = ∅ from rfl] at hok
    rw [hok, nil_append]
    left
    rw [ensure_true hlen]
    rfl
  · rw [show (∅ : Table String Nat).credits [] = ∅ from rfl] at he
    rw [he]
    exact .inr rfl

-- ==== draws

theorem Accounted.drawParticipants (h : round.Accounted definition) :
    round.drawParticipants
      = .ok ((round.entrants.sort (· ≤ ·)).map fun key =>
          { key, weight := 1 }) := by
  have hlen : (round.entrants.sort (· ≤ ·)).length ≤ 100000 := by
    rw [Finset.length_sort, ← h.participants]
    exact h.places
  have ht : (round.entrants.sort (· ≤ ·)).take 100001
      = round.entrants.sort (· ≤ ·) :=
    take_of_length_le (hlen.trans (by decide))
  unfold Round.drawParticipants
  dsimp only
  rw [ht, ensure_true, ensure_true hlen]
  · rfl
  · intro key hk
    exact h.names key ((Finset.mem_sort _).1 (mem_of_mem_take hk))

/-- Weights are given to people who take part. -/
def Within (round : Round) (weights : Table String Nat) : Prop :=
  ∀ key : String, weights[key]? ≠ none → key ∈ round.entrants

section

variable (h : round.Accounted definition)
include h

theorem Within.size_lt
    {w : Table String Nat} (hw : round.Within w)
    {key : String} (hk : key ∈ round.entrants)
    (hn : w[key]? = none) : w.size < 100000 := by
  have hsub : insert key w.keySet ⊆ round.entrants := by
    intro o ho
    rcases Finset.mem_insert.1 ho with rfl | ho
    · exact hk
    · exact hw o (mem_keySet.1 ho)
  have hc := Finset.card_le_card hsub
  rw [Finset.card_insert_of_notMem fun hin => mem_keySet.1 hin hn,
    card_keySet, ← h.participants] at hc
  have hp := h.places
  unfold maxParticipants at hp
  omega

omit h in
theorem Within.insert {w : Table String Nat}
    (hw : round.Within w) {key : String}
    (hk : key ∈ round.entrants) (we : Nat) :
    round.Within (w.insert key we) := by
  intro o ho
  rw [get_insert] at ho
  split at ho
  · next hs => exact hs ▸ hk
  · exact hw o ho

theorem foldlM_addVoter {vw : Nat}
    {rows : List (String × ParticipantRow)}
    (hr : ∀ row ∈ rows, round.participants[row.1]? = some row.2)
    (hd : (rows.map Prod.fst).Nodup) {w : Table String Nat}
    (hw : round.Within w)
    (hnew : ∀ row ∈ rows, w[row.1]? = none) :
    (∃ after, rows.foldlM (addVoter vw) w = .ok after
        ∧ round.Within after
        ∧ (∀ key : String, w[key]? ≠ none → after[key]? ≠ none)
        ∧ ∀ row ∈ rows, after[row.1]? ≠ none)
      ∨ rows.foldlM (addVoter vw) w
        = .error (.invalid "draw weight overflow") := by
  induction rows generalizing w with
  | nil => exact .inl ⟨w, rfl, hw, fun _ => id, nofun⟩
  | cons row rest ih =>
    have hrow := hr row mem_cons_self
    have hin : row.1 ∈ round.entrants := by
      refine mem_entrants.2 (.inl ?_)
      rw [hrow]
      exact Option.some_ne_none _
    have hf := hnew row mem_cons_self
    rw [map_cons, nodup_cons] at hd
    rw [foldlM_cons]
    unfold addVoter
    rw [ensure_true ⟨h.names row.1 hin,
      Nat.ne_of_gt (h.votes row.1 row.2 hrow).1,
      Within.size_lt h hw hin hf⟩]
    cases hwt : checkedMul row.2.votes vw with
    | none => exact .inr rfl
    | some weight =>
      have ha := hw.insert hin weight
      rcases ih (fun other ho =>
          hr other (mem_cons_of_mem _ ho)) hd.2
        ha (by
          intro other ho
          rw [get_insert, if_neg]
          · exact hnew other (mem_cons_of_mem _ ho)
          · rintro hsm
            exact hd.1 (mem_map.2 ⟨other, ho, hsm.symm⟩))
        with ⟨after, hok, haf, hk, hdn⟩ | herr
      · have hs : ∀ key : String,
            (w.insert row.1 weight)[key]? ≠ none → after[key]? ≠ none := hk
        refine .inl ⟨after, hok, haf, ?_, ?_⟩
        · intro key hkey
          refine hs key ?_
          rw [get_insert]
          split
          · exact Option.some_ne_none _
          · exact hkey
        · intro other ho
          rcases mem_cons.1 ho with rfl | ho
          · refine hs other.1 ?_
            rw [get_insert_self]
            exact Option.some_ne_none _
          · exact hdn other ho
      · exact .inr herr

theorem foldlM_addGiver
    {rows : List String} (hr : ∀ key ∈ rows, key ∈ round.entrants)
    {w : Table String Nat} (hw : round.Within w) :
    ∃ after, rows.foldlM addGiver w = .ok after
      ∧ round.Within after
      ∧ (∀ key : String, w[key]? ≠ none → after[key]? ≠ none)
      ∧ ∀ key ∈ rows, after[key]? ≠ none := by
  induction rows generalizing w with
  | nil => exact ⟨w, rfl, hw, fun _ => id, nofun⟩
  | cons giver rest ih =>
    have hin := hr giver mem_cons_self
    have hrm : w[giver]? ≠ none ∨ w.size < 100000 := by
      by_cases hnew : w[giver]? = none
      · exact .inr (Within.size_lt h hw hin hnew)
      · exact .inl hnew
    let added := if w[giver]? = none then w.insert giver 0
      else w
    have hadd : addGiver w giver = .ok added := by
      unfold addGiver
      rw [ensure_true ⟨h.names giver hin, hrm⟩]
      rfl
    have ha : round.Within added := by
      show round.Within (if _ then _ else _)
      split
      · exact hw.insert hin 0
      · exact hw
    have hs : ∀ key : String, w[key]? ≠ none ∨ key = giver →
        added[key]? ≠ none := by
      intro key hkey
      show (if _ then _ else _ : Table String Nat)[key]? ≠ none
      split
      · rw [get_insert]
        split
        · exact Option.some_ne_none _
        · next ho =>
          exact hkey.resolve_right fun heq => ho heq.symm
      · next hold =>
        rcases hkey with hkey | rfl
        · exact hkey
        · exact hold
    obtain ⟨after, hok, haf, hk, hd⟩ :=
      ih (fun key hkey => hr key (mem_cons_of_mem _ hkey)) ha
    refine ⟨after, ?_, haf, ?_, ?_⟩
    · rw [foldlM_cons, hadd]
      exact hok
    · exact fun key hkey => hk key (hs key (.inl hkey))
    · intro key hkey
      rcases mem_cons.1 hkey with rfl | hkey
      · exact hk key (hs key (.inr rfl))
      · exact hd key hkey

omit h in
theorem foldlM_addTickets {rows : List (ScoredRow × String)}
    {w : Table String Nat}
    (hr : ∀ row ∈ rows, w[row.1.participantId]? ≠ none) :
    (∃ a, rows.foldlM addTickets w = .ok a)
      ∨ rows.foldlM addTickets w
        = .error (.invalid "draw weight overflow") := by
  induction rows generalizing w with
  | nil => exact .inl ⟨w, rfl⟩
  | cons row rest ih =>
    obtain ⟨we, hwt⟩ := Option.ne_none_iff_exists'.1 (hr row mem_cons_self)
    rw [foldlM_cons]
    unfold addTickets
    rw [hwt]
    cases hsum : checkedAdd we row.1.score with
    | none =>
      refine .inr ?_
      show (okOr (checkedAdd we row.1.score) _ >>= _) >>= _ = _
      rw [hsum]
      rfl
    | some total =>
      show (∃ a, (okOr (checkedAdd we row.1.score) _ >>= _)
          >>= _ = Except.ok a)
        ∨ (okOr (checkedAdd we row.1.score) _ >>= _) >>= _ = _
      rw [hsum]
      refine ih fun o ho => ?_
      rw [get_insert]
      split
      · exact Option.some_ne_none _
      · exact hr o (mem_cons_of_mem _ ho)

theorem Accounted.weightedDraw_eq
    (vw : Nat) : round.weightedDrawParticipants vw = (do
      let weights ← round.participants.toList.foldlM (addVoter vw) ∅
      let weights ← (round.giftParticipants.toList.map Prod.fst).foldlM
        addGiver weights
      let weights ← round.creditedRows.foldlM addTickets weights
      return weights.toList.map fun (key, weight) => { key, weight }) := by
  have hc : round.entrants.card ≤ 100000 := by
    rw [← h.participants]
    exact h.places
  have hv : round.participants.toList.take 100001
      = round.participants.toList := by
    refine take_of_length_le ?_
    rw [Std.ExtTreeMap.length_toList, ← card_keySet]
    have hle : round.participants.keySet.card ≤ round.entrants.card :=
      Finset.card_le_card Finset.subset_union_left
    omega
  have hg : (round.giftParticipants.toList.map Prod.fst).take 100001
      = round.giftParticipants.toList.map Prod.fst := by
    refine take_of_length_le ?_
    rw [length_map, Std.ExtTreeMap.length_toList, ← card_keySet]
    have hle : round.giftParticipants.keySet.card ≤ round.entrants.card :=
      Finset.card_le_card Finset.subset_union_right
    omega
  have hlen := h.length_creditedRows
  obtain ⟨ht, hall⟩ := h.take_creditedRows
  unfold Round.weightedDrawParticipants
  dsimp only
  rw [hv, hg, ht, hall]
  simp only [ensure_true hlen, ok_bind]

theorem Accounted.weightedDraw (vw : Nat) :
    (∃ c, round.weightedDrawParticipants vw
        = .ok c)
      ∨ round.weightedDrawParticipants vw
        = .error (.invalid "draw weight overflow") := by
  have hgv : ∀ key ∈ round.giftParticipants.toList.map Prod.fst,
      round.giftParticipants[key]? ≠ none := by
    intro key hkey
    obtain ⟨⟨other, mark⟩, hmem, rfl⟩ := mem_map.1 hkey
    rw [mem_toList.1 hmem]
    exact Option.some_ne_none _
  rw [h.weightedDraw_eq]
  rcases @foldlM_addVoter definition round h vw
      round.participants.toList (fun row hrow => mem_toList.1 hrow)
      (keys_toList_nodup _) ∅
      (fun key hkey => absurd Std.ExtTreeMap.getElem?_empty hkey)
      (fun row _ => Std.ExtTreeMap.getElem?_empty)
    with ⟨voters, hok, hwt, -, hd⟩ | herr
  · rw [hok, ok_bind]
    obtain ⟨e, hg, -, hk, hr⟩ :=
      foldlM_addGiver h
        (fun key hkey => mem_entrants.2 (.inr (hgv key hkey))) hwt
    rw [hg, ok_bind]
    have hw : ∀ row ∈ round.creditedRows,
        e[row.1.participantId]? ≠ none := by
      rintro ⟨row, option⟩ hrow
      obtain ⟨key, hkey, hopt⟩ := mem_creditedRows.1 hrow
      rcases mem_entrants.1 (h.scored key row option hkey hopt).2
        with hv | hgf
      · obtain ⟨voter, hv⟩ := Option.ne_none_iff_exists'.1 hv
        exact hk _ (hd _ (mem_toList.2 hv))
      · obtain ⟨mark, hmr⟩ := Option.ne_none_iff_exists'.1 hgf
        exact hr _ (mem_map.2 ⟨_, mem_toList.2 hmr, rfl⟩)
    rcases foldlM_addTickets hw with ⟨after, ha⟩ | herr
    · rw [ha, ok_bind]
      exact .inl ⟨_, rfl⟩
    · rw [herr]
      exact .inr rfl
  · rw [herr]
    exact .inr rfl

end

end Round

end TikTools.Competitions
