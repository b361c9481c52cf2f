/-
The books of a generation.

`Accounted` is what the three routes keep up between the rows of a
generation and the two counters beside them: the participants counted
are those who voted or were credited with a gift, the contributions
counted are the receipts, and both stay within their limits; every vote
count is within the definition's limit; and a score counts for an option
of the definition and for somebody who takes part.

A route only ever adds to the rows, so each case of what it may do
(`Commanded`, `Scored`, `Gifted`) is a short sum.
-/
import TikTools.Competitions.Admission
import TikTools.Competitions.Readers

namespace TikTools.Competitions

open TikTools.Lib Table Nat

namespace Round

-- ==== books

/-- A scored row that is the receipt of its own event, as those of likes
and shares are. -/
def eventWeight (key : SourceKey) (_ : ScoredRow) : Nat :=
  if (ofLex key).1 = "tiktok.gift" then 0 else 1

/-- A scored row that belongs to the receipt of a gift. -/
def creditWeight (key : SourceKey) (_ : ScoredRow) : Nat :=
  if (ofLex key).1 = "tiktok.gift" then 1 else 0

/-- How many events have a receipt. -/
def receipts (round : Round) : Nat :=
  round.contributions.size + round.giftReceipts.size
    + round.scored.sum eventWeight

/-- The votes cast by everyone. -/
def votesCast (round : Round) : Nat :=
  round.participants.sum fun _ row => row.votes

structure Accounted (definition : Definition) (round : Round) :
    Prop where
  participants : round.participantCount = round.entrants.card
  contributions : round.contributionCount = round.receipts
  budget : round.contributionCount ≤ maxContributions
  places : round.participantCount ≤ maxParticipants
  names : ∀ participant ∈ round.entrants, bounded participant 512 = true
  votes : ∀ (participant : String) (row : ParticipantRow),
    round.participants[participant]? = some row →
      0 < row.votes ∧ row.votes ≤ definition.voteLimit
        ∧ row.optionId ∈ definition.options.map (·.id)
  scored : ∀ (key : SourceKey) (row : ScoredRow) (option : String),
    round.scored[key]? = some row → row.optionId = some option →
      option ∈ definition.options.map (·.id)
        ∧ row.participantId ∈ round.entrants
  cast : round.votesCast ≤ round.contributionCount
  credits : round.scored.sum creditWeight ≤ round.giftReceipts.size

theorem mem_entrants {round : Round} {participant : String} :
    participant ∈ round.entrants ↔ round.entered participant := by
  unfold entrants entered
  rw [Finset.mem_union, mem_keySet, mem_keySet]

/-- Nothing is recorded but perhaps a checkpoint. -/
def Blank (round : Round) : Prop := SameAccounts {} round

theorem SameAccounts.refl (round : Round) : SameAccounts round round :=
  ⟨rfl, rfl, rfl, rfl, rfl, rfl⟩

theorem SameAccounts.accounted {definition : Definition}
    {round next : Round} (hs : SameAccounts round next)
    (h : round.Accounted definition) : next.Accounted definition := by
  have hen : next.entrants = round.entrants := by
    unfold entrants
    rw [hs.participants, hs.giftParticipants]
  have hp : next.participantCount = round.participantCount := by
    unfold participantCount
    rw [hs.counts]
  have hc :
      next.contributionCount = round.contributionCount := by
    unfold contributionCount
    rw [hs.counts]
  constructor
  · rw [hp, hen]
    exact h.participants
  · unfold receipts
    rw [hc, hs.contributions, hs.giftReceipts, hs.scored]
    exact h.contributions
  · rw [hc]
    exact h.budget
  · rw [hp]
    exact h.places
  · rw [hen]
    exact h.names
  · rw [hs.participants]
    exact h.votes
  · rw [hs.scored, hen]
    exact h.scored
  · unfold votesCast
    rw [hs.participants, hc]
    exact h.cast
  · rw [hs.scored, hs.giftReceipts]
    exact h.credits

theorem Accounted.congr {definition other : Definition} {round : Round}
    (h : round.Accounted definition)
    (ho : definition.options.map (·.id) = other.options.map (·.id))
    (hl : definition.voteLimit = other.voteLimit) :
    round.Accounted other :=
  { h with
    votes := by
      rw [← ho, ← hl]
      exact h.votes
    scored := by
      rw [← ho]
      exact h.scored }

theorem accounted_empty (definition : Definition) :
    ({} : Round).Accounted definition := by
  have hn : ∀ p : String,
      ({} : Round).participants[p]? = none :=
    fun _ => Std.ExtTreeMap.getElem?_empty
  have hu : ∀ key : SourceKey, ({} : Round).scored[key]? = none :=
    fun _ => Std.ExtTreeMap.getElem?_empty
  have hen : ({} : Round).entrants = ∅ := by
    unfold entrants
    rfl
  constructor
  · rw [hen]
    rfl
  · unfold receipts
    rfl
  · exact zero_le _
  · exact zero_le _
  · rw [hen]
    intro p hin
    exact absurd hin (Finset.notMem_empty p)
  · intro p row h
    cases h
  · intro key row option h
    cases h
  · unfold votesCast
    exact zero_le _
  · rw [sum_empty]
    exact zero_le _

-- ==== commands

variable {definition : Definition} {round next : Round}

variable {input : CommandParticipation}

theorem Accounted.record (h : round.Accounted definition)
    (row : ContributionRow)
    (hn : round.contributions[input.eventIdentity]? = none)
    (hf : ¬ round.exhausted) :
    ((round.count false).record input.eventIdentity row).Accounted
      definition := by
  constructor
  · exact h.participants
  · show round.contributionCount + 1 = (round.contributions.insert _ _).size
      + round.giftReceipts.size + round.scored.sum eventWeight
    rw [size_insert_new _ _ hn, h.contributions]
    unfold receipts
    omega
  · exact Nat.lt_of_not_le hf
  · exact h.places
  · exact h.names
  · exact h.votes
  · exact h.scored
  · exact le_succ_of_le h.cast
  · exact h.credits

theorem Accounted.vote (h : round.Accounted definition) {new : Bool}
    {chosen : String} {votes before : Nat}
    (hnew : round.contributions[input.eventIdentity]? = none)
    (hf : ¬ round.exhausted)
    (hn : bounded input.participantId 512 = true)
    (hch : chosen ∈ definition.options.map (·.id))
    (hen : new = true ↔ ¬ round.entered input.participantId)
    (hr : new = true → round.participantCount < maxParticipants)
    (hv : 0 < votes ∧ votes ≤ definition.voteLimit)
    (hbef : before + (round.vote new input chosen votes).votesCast
      = votes + round.votesCast) (hmr : votes ≤ before + 1) :
    (round.vote new input chosen votes).Accounted definition := by
  have hent : (round.vote new input chosen votes).entrants
      = insert input.participantId round.entrants := by
    unfold entrants Round.vote
    rw [keySet_insert, Finset.insert_union]
    rfl
  have hcr : (round.vote new input chosen votes).entrants.card
      = round.entrants.card + new.toNat := by
    rw [hent]
    cases new with
    | true =>
      rw [Finset.card_insert_of_notMem fun hin =>
        hen.1 rfl (mem_entrants.1 hin)]
      rfl
    | false =>
      have hin : round.entered input.participantId := by
        by_contra hout
        exact Bool.false_ne_true (hen.2 hout)
      rw [Finset.insert_eq_of_mem (mem_entrants.2 hin)]
      rfl
  have hc : (round.vote new input chosen votes).participantCount
      = round.participantCount + new.toNat := rfl
  constructor
  · rw [hc, hcr, h.participants]
  · show round.contributionCount + 1 = (round.contributions.insert _ _).size
      + round.giftReceipts.size + round.scored.sum eventWeight
    rw [size_insert_new _ _ hnew, h.contributions]
    unfold receipts
    omega
  · exact Nat.lt_of_not_le hf
  · rw [hc]
    cases new with
    | true => exact hr rfl
    | false => exact h.places
  · rw [hent]
    intro p hin
    rcases Finset.mem_insert.1 hin with rfl | hin
    · exact hn
    · exact h.names p hin
  · intro p row hrow
    have hrow : (round.participants.insert input.participantId
        (⟨chosen, votes, input.receivedAt⟩ : ParticipantRow))[p]?
          = some row := hrow
    rw [get_insert] at hrow
    split at hrow
    · cases hrow
      exact ⟨hv.1, hv.2, hch⟩
    · exact h.votes p row hrow
  · intro key row option hrow hopt
    obtain ⟨hmem, hin⟩ := h.scored key row option hrow hopt
    rw [hent]
    exact ⟨hmem, Finset.mem_insert_of_mem hin⟩
  · have hcs := h.cast
    show _ ≤ round.contributionCount + 1
    omega
  · exact h.credits

variable {option : Option String}

theorem Accounted.command (h : round.Accounted definition)
    (hl : 0 < definition.voteLimit)
    (hopt : ∀ c ∈ option, c ∈ definition.options.map (·.id))
    (hn : bounded input.participantId 512 = true)
    {o : ParticipationOutcome} {p : Option (String × Nat)}
    (hcmd : Commanded round definition option input o next
      p) : next.Accounted definition := by
  cases hcmd with
  | refused _ _ _ => exact h
  | ignored _ c _ _ hnew hf => exact h.record _ hnew hf
  | voted c pr v switched hc hnew hf hp hv =>
    have hin : round.entered input.participantId :=
      .inl (by rw [hp]; exact Option.some_ne_none pr)
    have hold := h.votes input.participantId pr hp
    refine h.vote hnew hf hn (hopt c hc)
      ⟨nofun, fun ho => absurd hin ho⟩ nofun ?_
      (sum_insert_add _ _ hp) ?_
    · omega
    · show v ≤ pr.votes + 1
      omega
  | joined c new hc hnew hf hp hg hr =>
    refine h.vote hnew hf hn (hopt c hc) ?_ hr
      ⟨zero_lt_one, hl⟩
      (show 0 + (round.vote new input c 1).votesCast
        = 1 + round.votesCast from ?_) (le_refl 1)
    · rw [hg]
      unfold entered
      rw [hp]
      constructor
      · rintro hnn (hs | hs)
        · exact hs rfl
        · exact hs hnn
      · exact fun ho => Decidable.not_not.1 fun hs =>
          ho (.inr hs)
    · rw [zero_add]
      exact sum_insert_new _ _ hp

-- ==== scores

theorem Accounted.recordScore (h : round.Accounted definition)
    {input : ScoredInput}
    (hs : input.source ∈ ["tiktok.like", "tiktok.share"])
    (hn : round.scored[input.key]? = none) (hf : ¬ round.exhausted)
    (ho : ∀ c, option = some c →
      ∃ row, round.participants[input.participantId]? = some row
        ∧ row.optionId = c) :
    (round.recordScore input option).Accounted definition := by
  have hkey : (ofLex input.key).1 ≠ "tiktok.gift" := by
    show input.source ≠ "tiktok.gift"
    rintro hg
    rw [hg] at hs
    exact absurd hs (by decide)
  constructor
  · exact h.participants
  · show round.contributionCount + 1 = round.contributions.size
      + round.giftReceipts.size + Table.sum eventWeight
        (round.scored.insert _ _)
    rw [sum_insert_new _ _ hn, h.contributions]
    unfold receipts
    rw [show eventWeight input.key _ = 1 from if_neg hkey]
    omega
  · exact Nat.lt_of_not_le hf
  · exact h.places
  · exact h.names
  · exact h.votes
  · intro key row c hr hc
    have hr : (round.scored.insert input.key _)[key]? = some row := hr
    rw [get_insert] at hr
    split at hr
    · cases hr
      obtain ⟨v, hv, rfl⟩ := ho c hc
      have hin : round.entered input.participantId :=
        .inl (by rw [hv]; exact Option.some_ne_none v)
      exact ⟨(h.votes _ v hv).2.2,
        show input.participantId ∈ round.entrants from
          mem_entrants.2 hin⟩
    · exact h.scored key row c hr hc
  · exact le_succ_of_le h.cast
  · show Table.sum creditWeight (round.scored.insert _ _) ≤ _
    rw [sum_insert_new _ _ hn,
      show creditWeight input.key _ = 0 from if_neg hkey, zero_add]
    exact h.credits

theorem Accounted.score (h : round.Accounted definition)
    {input : ScoredInput}
    (hsrc : input.source ∈ ["tiktok.like", "tiktok.share"])
    {o : ScoredOutcome} (hs : Scored round input o next) :
    next.Accounted definition := by
  cases hs with
  | refused _ _ _ => exact h
  | ignored _ _ hn hf => exact h.recordScore hsrc hn hf nofun
  | counted row hn hf hr =>
    refine h.recordScore hsrc hn hf ?_
    rintro chosen ⟨⟩
    exact ⟨row, hr, rfl⟩

-- ==== gifts

theorem Received.accounted {input : GiftInput} {new : Bool}
    {credit : Option (String × Nat)}
    (hr : Received round input new credit next)
    (h : round.Accounted definition)
    (hnew : round.giftReceipts[input.eventIdentity]? = none)
    (hfr : ¬ round.exhausted)
    (hn : bounded input.participantId 512 = true)
    (hed : new = true → ¬ round.entered input.participantId)
    (hrm : new = true → round.participantCount < maxParticipants)
    (hcr : ∀ option score, credit = some (option, score) →
      option ∈ definition.options.map (·.id)
        ∧ (new = true ∨ round.entered input.participantId)) :
    next.Accounted definition := by
  have hp : next.participantCount
      = round.participantCount + new.toNat := by
    unfold participantCount
    rw [hr.counts]
    rfl
  have hc : next.contributionCount
      = round.contributionCount + 1 := by
    unfold contributionCount
    rw [hr.counts]
    rfl
  have hen : next.entrants = if new = true then
      insert input.participantId round.entrants else round.entrants := by
    unfold entrants
    rw [hr.participants, hr.giftParticipants]
    split
    · rw [keySet_insert, Finset.union_insert]
    · rfl
  have hsub : round.entrants ⊆ next.entrants := by
    rw [hen]
    split
    · exact Finset.subset_insert _ _
    · exact Finset.Subset.refl _
  have hsz : next.giftReceipts.size = round.giftReceipts.size + 1 := by
    rw [hr.giftReceipts, size_insert_new _ _ hnew]
  have hg : (ofLex input.key).1 = "tiktok.gift" := rfl
  -- the scored rows, with the credit if there is one
  have hs : next.scored.sum eventWeight = round.scored.sum eventWeight
      ∧ next.scored.sum creditWeight ≤ round.scored.sum creditWeight + 1
      ∧ ∀ (key : SourceKey) (row : ScoredRow) (option : String),
        next.scored[key]? = some row → row.optionId = some option →
          option ∈ definition.options.map (·.id)
            ∧ row.participantId ∈ next.entrants := by
    have hrow := hr.scored
    cases credit with
    | none =>
      rw [show next.scored = round.scored from hrow]
      refine ⟨rfl, le_succ _, ?_⟩
      intro key row option hat hopt
      obtain ⟨hmem, hin⟩ := h.scored key row option hat hopt
      exact ⟨hmem, hsub hin⟩
    | some pair =>
      obtain ⟨hf, hit⟩ := hrow
      rw [hit]
      refine ⟨?_, ?_, ?_⟩
      · rw [sum_insert_new _ _ hf,
          show eventWeight input.key _ = 0 from if_pos hg,
          zero_add]
      · rw [sum_insert_new _ _ hf,
          show creditWeight input.key _ = 1 from if_pos hg,
          add_comm]
      · intro key row option hat hopt
        rw [get_insert] at hat
        split at hat
        · cases hat
          cases hopt
          obtain ⟨hmem, hin⟩ := hcr pair.1 pair.2 rfl
          refine ⟨hmem, ?_⟩
          rcases hin with hin | hin
          · rw [hen, if_pos hin]
            exact Finset.mem_insert_self _ _
          · exact hsub (mem_entrants.2 hin)
        · obtain ⟨hmem, hin⟩ := h.scored key row option hat hopt
          exact ⟨hmem, hsub hin⟩
  constructor
  · rw [hp, hen, h.participants]
    cases new with
    | true =>
      rw [if_pos rfl, Finset.card_insert_of_notMem fun hin =>
        hed rfl (mem_entrants.1 hin)]
      rfl
    | false => rfl
  · unfold receipts
    rw [hc, hr.contributions, hsz, hs.1, h.contributions]
    unfold receipts
    omega
  · rw [hc]
    exact Nat.lt_of_not_le hfr
  · rw [hp]
    cases new with
    | true => exact hrm rfl
    | false => exact h.places
  · rw [hen]
    intro p hin
    split at hin
    · rcases Finset.mem_insert.1 hin with rfl | hin
      · exact hn
      · exact h.names p hin
    · exact h.names p hin
  · rw [hr.participants]
    exact h.votes
  · exact hs.2.2
  · unfold votesCast
    rw [hr.participants, hc]
    exact le_succ_of_le h.cast
  · rw [hsz]
    exact hs.2.1.trans (Nat.add_le_add_right h.credits 1)

theorem Accounted.gift (h : round.Accounted definition)
    {input : GiftInput} (hn : bounded input.participantId 512 = true)
    {b : Except DatabaseError Definition}
    (hb : ∀ option gift f, b = .ok f →
      f.optionForGift gift = some option →
        option ∈ definition.options.map (·.id))
    {o : GiftOutcome}
    (hg : Gifted round b input o next) :
    next.Accounted definition := by
  cases hg with
  | refused _ _ _ => exact h
  | ignored _ _ hnew hf hr =>
    exact hr.accounted h hnew hf hn nofun nofun nofun
  | credited option score new hnew hf hsrc hen hrm hr =>
    refine hr.accounted h hnew hf hn hen.1 hrm ?_
    rintro chosen points ⟨⟩
    constructor
    · rcases hsrc with ⟨f, hfn, hgf⟩ | ⟨row, hrow, rfl⟩
      · exact hb _ _ f hfn hgf
      · exact (h.votes _ row hrow).2.2
    · by_cases hin : round.entered input.participantId
      · exact .inr hin
      · exact .inl (hen.2 hin)

end Round

end TikTools.Competitions
