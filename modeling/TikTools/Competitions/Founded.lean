/-
The books of every generation are in order.

A generation has rows only while its competition exists and has left the
draft: a draft is not routed to, its definition is replaced only while
it is one, and a deletion takes the rows along. So the definition the
rows were admitted under is the one that stands, and the books
(`Accounted`) are kept with respect to it.

Reading a definition back is the serializer's work. What is asked of it
is that the option ids and the vote limit survive; the inputs of winner
actions are arbitrary JSON and need not.
-/
import TikTools.Competitions.Once
import TikTools.Competitions.Outbox
import TikTools.Competitions.Projections

namespace TikTools.Competitions

open TikTools.Lib Table Round

variable {T : Type} {S : Codec T}
  {lower : String → String}

-- ==== underway

/-- The competition has a lifecycle and is no draft. -/
def Db.underway (S : Codec T) (db : Db T) (id : String) : Prop :=
  ∃ state, db.states[id]?.bind S.state.fromText = some state
    ∧ state.lifecycle ≠ .draft

/-- The definition that was written into the competition's row. -/
def Db.holds (S : Codec T) (db : Db T) (id : String)
    (definition : Definition) : Prop :=
  ∃ row, db.definitions[id]? = some row
    ∧ row.definitionJson = S.definition.toText definition

theorem Db.underway_insert {db db' : Db T} {id other : String}
    {next : LifecycleState}
    (hsts : db'.states = db.states.insert id (S.state.toText next))
    (hn : next.lifecycle ≠ .draft) (h : db.underway S other) :
    db'.underway S other := by
  unfold Db.underway
  rw [hsts, get_insert]
  by_cases hs : id = other
  · rw [if_pos hs]
    exact ⟨next, S.state_readsBack next, hn⟩
  · rw [if_neg hs]
    exact h

theorem LifecycleState.transition_not_draft {s next : LifecycleState}
    {t : Transition} {now : Nat} {d : Option Nat}
    (h : s.transition t now d = .ok next) :
    next.lifecycle ≠ .draft := by
  intro hd
  rcases transition_cases h with ⟨-, -, hn, -⟩
    | ⟨-, -, ⟨-, hn⟩ | ⟨-, hn | hn | hn⟩⟩
  all_goals rw [hd] at hn
  all_goals cases hn

-- ==== founded

/-- The serializer keeps the option ids and the vote limit. -/
def Codec.KeepsVoting (S : Codec T) : Prop :=
  ∀ definition read,
    S.definition.fromText (S.definition.toText definition) = some read →
      read.options.map (·.id) = definition.options.map (·.id)
        ∧ read.voteLimit = definition.voteLimit

/-- Stored definitions passed their checks, and a generation with rows
belongs to a competition that is underway, under whose definition its
books are in order. -/
structure Store.Founded (S : Codec T) (lower : String → String)
    (store : Store T) : Prop where
  definitions : ∀ (id : String) (row : DefinitionRow T),
    store.definitions[id]? = some row →
      ∃ definition, definition.validate lower = .ok ()
        ∧ row.definitionJson = S.definition.toText definition
  rounds : ∀ id generation,
    (store.round id generation).Blank
      ∨ store.underway S id ∧ ∃ definition, store.holds S id definition
        ∧ definition.validate lower = .ok ()
        ∧ (store.round id generation).Accounted definition

namespace Store

variable {store next : Store T}

theorem round_setRound (store : Store T) (id o : String)
    (ge g : Nat) (r : Round) :
    (store.setRound id ge r).round o g
      = if scope id ge = scope o g then r
        else store.round o g := by
  unfold Store.round setRound
  rw [get_insert]
  split
  · rfl
  · rfl

theorem Founded.empty (aggregations : Table String Place) :
    Founded S lower { aggregations } := by
  constructor
  · intro id row hrow
    rw [show ({ aggregations } : Store T).definitions[id]? = none from
      Std.ExtTreeMap.getElem?_empty] at hrow
    cases hrow
  · intro id g
    refine .inl ?_
    have hem : (∅ : Table Scope Round)[scope id g]? = none :=
      Std.ExtTreeMap.getElem?_empty
    exact .refl _

theorem Founded.along (h : store.Founded S lower)
    (hd : next.definitions = store.definitions)
    (hr : ∀ id g, Round.SameAccounts (store.round id g) (next.round id g))
    (hu : ∀ id, store.underway S id → next.underway S id) :
    next.Founded S lower := by
  constructor
  · rw [hd]
    exact h.definitions
  · intro id g
    have hs := hr id g
    rcases h.rounds id g with hb
      | ⟨hst, definition, hh, hv, ha⟩
    · exact .inl ⟨hs.counts.trans hb.counts,
        hs.participants.trans hb.participants,
        hs.contributions.trans hb.contributions,
        hs.scored.trans hb.scored,
        hs.giftReceipts.trans hb.giftReceipts,
        hs.giftParticipants.trans hb.giftParticipants⟩
    · refine .inr ⟨hu id hst, definition, ?_, hv,
        hs.accounted ha⟩
      unfold Db.holds
      rw [hd]
      exact hh

variable {db : Db T}

theorem Founded.withDb (h : store.Founded S lower)
    (hd : db.definitions = store.definitions)
    (hu : ∀ id, store.underway S id → db.underway S id) :
    Founded S lower { store with toDb := db } :=
  h.along hd (fun _ _ => .refl _) hu

theorem setCheckpoint_same (store : Store T) (id : String)
    (generation : Nat) (checkpoint : Option Checkpoint) (other : String)
    (g : Nat) : Round.SameAccounts (store.round other g)
      ((store.setRound id generation
        { store.round id generation with checkpoint }).round other g) := by
  rw [round_setRound]
  split
  · next hs =>
    obtain ⟨rfl, rfl⟩ := scope_inj.1 hs
    exact ⟨rfl, rfl, rfl, rfl, rfl, rfl⟩
  · exact .refl _

-- ==== definitions

theorem Founded.insert (h : store.Founded S lower) {d : Definition}
    (hin : insertCompetitionDefinition S lower store.toDb d
      = .ok db) : Founded S lower { store with toDb := db } := by
  obtain ⟨hv, hin⟩ := ensure_ok.1 hin
  obtain ⟨⟨habs, -⟩, hin⟩ := ensure_ok.1 hin
  cases hin
  constructor
  · intro id row hrow
    have hrow : (store.definitions.insert d.id
        (⟨d.rankingId, S.definition.toText d⟩ :
          DefinitionRow T))[id]? = some row := hrow
    rw [get_insert] at hrow
    split at hrow
    · cases hrow
      exact ⟨d, hv, rfl⟩
    · exact h.definitions id row hrow
  · intro id g
    rcases h.rounds id g with hb
      | ⟨⟨state, hs, hop⟩, found, ⟨row, hrow, hj⟩, hf,
        ha⟩
    · exact .inl hb
    have ho : d.id ≠ id := by
      rintro rfl
      rw [habs] at hrow
      cases hrow
    refine .inr ⟨⟨state, ?_, hop⟩, found, ⟨row, ?_, hj⟩, hf, ha⟩
    · show (store.states.insert d.id _)[id]?.bind _ = _
      rw [get_insert_ne _ _ ho]
      exact hs
    · show (store.definitions.insert d.id _)[id]? = _
      rw [get_insert_ne _ _ ho]
      exact hrow

theorem Founded.update (h : store.Founded S lower) {d : Definition}
    {flag : Bool}
    (hupd : updateCompetitionDefinition S lower store.toDb d
      = .ok (db, flag)) : Founded S lower { store with toDb := db } := by
  obtain ⟨hv, hupd⟩ := ensure_ok.1 hupd
  split at hupd
  · next hd =>
    cases hupd
    constructor
    · intro id row hrow
      have hrow : (store.definitions.insert d.id
          (⟨d.rankingId, S.definition.toText d⟩ :
            DefinitionRow T))[id]? = some row := hrow
      rw [get_insert] at hrow
      split at hrow
      · cases hrow
        exact ⟨d, hv, rfl⟩
      · exact h.definitions id row hrow
    · intro id g
      rcases h.rounds id g with hb
        | ⟨⟨state, hs, ho⟩, found, ⟨row, hrow, hj⟩, hf,
        ha⟩
      · exact .inl hb
      have hot : d.id ≠ id := by
        rintro rfl
        obtain ⟨text, ht, hl⟩ := Option.bind_eq_some_iff.1 hd.2.1
        rw [ht] at hs
        unfold lifecycleOf at hl
        rw [show S.state.fromText text = some state from hs,
          Option.map_some, Option.some.injEq] at hl
        exact ho hl
      refine .inr ⟨⟨state, hs, ho⟩, found, ⟨row, ?_, hj⟩, hf, ha⟩
      rw [get_insert_ne _ _ hot]
      exact hrow
  · cases hupd
    exact h

theorem Founded.delete (h : store.Founded S lower) (id : String) :
    (deleteCompetitionDefinition S store id).1.Founded S lower := by
  unfold deleteCompetitionDefinition
  split
  · constructor
    · intro other row hrow
      rw [get_erase] at hrow
      split at hrow
      · cases hrow
      · exact h.definitions other row hrow
    · intro other generation
      by_cases hs : id = other
      · subst hs
        refine .inl ?_
        unfold Store.round
        rw [get_retain, show Option.filter _ _ = none from ?_]
        · exact .refl _
        · refine Option.filter_eq_none_iff.2 fun round _ => ?_
          show ¬ ((id != id) = true)
          rw [bne_self_eq_false]
          exact Bool.false_ne_true
      have hk : ∀ round : Option Round,
          round.filter (fun _ => other != id) = round := by
        intro round
        rw [show (other != id) = true from
          bne_iff_ne.2 (Ne.symm hs)]
        cases round with
        | none => rfl
        | some round => rfl
      have hr : ({ store with
          definitions := store.definitions.erase id
          states := store.states.erase id
          owners := store.owners.retain fun key _ => (ofLex key).1 != id
          rounds := store.rounds.retain fun key _ => (ofLex key).1 != id }
            : Store T).round other generation
          = store.round other generation := by
        unfold Store.round
        rw [get_retain]
        exact congrArg (Option.getD · {}) (hk _)
      rw [hr]
      rcases h.rounds other generation with hb
        | ⟨⟨state, hst, ho⟩, found, ⟨row, hrow, hj⟩, hf,
        ha⟩
      · exact .inl hb
      refine .inr ⟨⟨state, ?_, ho⟩, found, ⟨row, ?_, hj⟩, hf, ha⟩
      · show (store.states.erase id)[other]?.bind _ = _
        rw [get_erase_ne _ hs]
        exact hst
      · show (store.definitions.erase id)[other]? = _
        rw [get_erase_ne _ hs]
        exact hrow
  · exact h

-- ==== lifecycle

variable {now : Nat}

variable {owner : Option String} {id : String}

section

variable (h : store.Founded S lower)
include h

theorem Founded.transition {transition : Transition}
    {answer : Option LifecycleState}
    (hc : transitionCompetitionOwned S store id transition now owner
      = .ok (next, answer)) : next.Founded S lower := by
  unfold transitionCompetitionOwned at hc
  split at hc
  · next row text hrow ht =>
    obtain ⟨definition, -, hc⟩ := okOr_ok.1 hc
    obtain ⟨state, -, hc⟩ := okOr_ok.1 hc
    obtain ⟨-, hc⟩ := ensure_ok.1 hc
    obtain ⟨moved, hmv, hc⟩ := bind_eq_ok.1 hc
    have hop := LifecycleState.transition_not_draft (mapError_eq_ok hmv)
    let moved' : Store T := { store with
      states := store.states.insert id (S.state.toText moved) }
    have hu : ∀ other, store.underway S other →
        moved'.underway S other :=
      fun other hot => Db.underway_insert rfl hop hot
    split at hc
    · obtain ⟨-, hc⟩ := ensure_ok.1 hc
      obtain ⟨opened, ho, hc⟩ := bind_eq_ok.1 hc
      obtain ⟨-, ho⟩ := ensure_ok.1 ho
      cases ho
      have hr := moved'.setCheckpoint_same id moved.generation (some .open)
      split at hc
      · cases hc
        exact h.along rfl hr hu
      · obtain ⟨-, hc⟩ := ensure_ok.1 hc
        cases hc
        exact h.along rfl hr hu
    · cases hc
      exact h.along rfl (fun _ _ => .refl _) hu
  · cases hc
    exact h

theorem Founded.expireDue
    (hc : expireDueCompetitionsOwned S store.toDb now owner = .ok db) :
    Founded S lower { store with toDb := db } := by
  have hk : db.definitions = store.definitions
      ∧ ∀ id, store.underway S id → db.underway S id := by
    refine @foldlM_invariant _ _ _ (fun d : Db T =>
        d.definitions = store.definitions
          ∧ ∀ id, store.underway S id → d.underway S id)
      _ _ ?_ _ _ hc ⟨rfl, fun _ => id⟩
    intro row _ before after hs ⟨hd, hu⟩
    obtain ⟨state, -, hs⟩ := okOr_ok.1 hs
    split at hs
    · obtain ⟨moved, hmv, hs⟩ := bind_eq_ok.1 hs
      have ho := LifecycleState.transition_not_draft (mapError_eq_ok hmv)
      cases hs
      exact ⟨hd, fun id hid =>
        Db.underway_insert rfl ho (hu id hid)⟩
    · cases hs
      exact ⟨hd, hu⟩
  exact h.withDb hk.1 hk.2

theorem Founded.saveIntegrity
    {c : List (String × Nat × Bool)} {owner : String}
    (hc : saveCompetitionIntegrity store c owner
      = .ok next) : next.Founded S lower := by
  refine @foldlM_invariant _ _ _ (fun s : Store T => s.Founded S lower)
    _ _ ?_ _ _ hc h
  intro row _ before after hs hbef
  obtain ⟨-, hs⟩ := ensure_ok.1 hs
  obtain ⟨-, hs⟩ := ensure_ok.1 hs
  cases hs
  exact hbef.along rfl (before.setCheckpoint_same _ _ _) fun _ => id

theorem Founded.recovery {generation : Nat} {owner : String} {c : Bool}
    (hc : beginCompetitionRecovery store id generation owner
      = .ok (next, c)) : next.Founded S lower := by
  obtain ⟨-, hc⟩ := ensure_ok.1 hc
  cases hc
  exact h.along rfl (store.setCheckpoint_same id generation (some .open))
    fun _ hu => hu

theorem Founded.openAutomation :
    Founded S lower { store with toDb := openAutomation S store.toDb } := by
  refine h.withDb rfl fun id hid => ?_
  obtain ⟨state, hs, ho⟩ := hid
  refine ⟨state, ?_, ho⟩
  unfold Competitions.openAutomation
  -- a competition that has a state is passed over
  have hf : ∀ (rows : List (String × DefinitionRow T))
      (s : Table String T),
      s[id]?.bind S.state.fromText = some state →
      (rows.foldl (fun s row =>
        if s[row.1]? = none then
          s.insert row.1 (S.state.toText {})
        else s) s)[id]?.bind S.state.fromText = some state := by
    intro rows
    induction rows with
    | nil => exact fun _ hk => hk
    | cons row rest ih =>
      intro s hk
      rw [List.foldl_cons]
      refine ih _ ?_
      split
      · next ha =>
        rw [get_insert_ne]
        · exact hk
        · rintro rfl
          rw [ha] at hk
          cases hk
      · exact hk
  exact hf _ store.states hs

end

-- ==== routes

theorem Founded.setRound (h : store.Founded S lower)
    {row : DefinitionRow T} {s : LifecycleState}
    (hr : store.reads S id row s)
    (hru : s.lifecycle.running = true) {r : Round}
    (hrn : ∀ definition, store.holds S id definition →
      definition.validate lower = .ok () →
      (store.round id s.generation).Accounted definition →
        r.Accounted definition) :
    (store.setRound id s.generation r).Founded S lower := by
  refine ⟨h.definitions, fun o g => ?_⟩
  rw [round_setRound]
  split
  · next hs =>
    obtain ⟨rfl, rfl⟩ := scope_inj.1 hs
    have hu : store.underway S id := by
      refine ⟨s, hr.2, ?_⟩
      intro hd
      rw [hd] at hru
      cases hru
    rcases h.rounds id s.generation with hb
      | ⟨-, definition, hh, hv, hbk⟩
    · obtain ⟨definition, hv, hj⟩ := h.definitions id row hr.1
      have hh : store.holds S id definition := ⟨row, hr.1, hj⟩
      exact .inr ⟨hu, definition, hh, hv,
        hrn definition hh hv (hb.accounted (accounted_empty definition))⟩
    · exact .inr ⟨hu, definition, hh, hv, hrn definition hh hv hbk⟩
  · exact h.rounds o g

/-- The definition a route reads has the options and the limit of the
one that was written. -/
theorem read_eq (hv : S.KeepsVoting)
    {row : DefinitionRow T} {w r : Definition}
    (hrow : store.definitions[id]? = some row)
    (hr : S.definition.fromText row.definitionJson = some r)
    (hh : store.holds S id w) :
    r.options.map (·.id) = w.options.map (·.id)
      ∧ r.voteLimit = w.voteLimit := by
  obtain ⟨other, ho, hj⟩ := hh
  rw [hrow, Option.some.injEq] at ho
  rw [ho, hj] at hr
  exact hv w r hr

theorem Founded.command (hv : S.KeepsVoting) (h : store.Founded S lower)
    {i : CommandParticipation} {a : Option ParticipationOutcome}
    {p : Option (String × Nat)}
    (hcl : routeCompetitionCommandWithPrevious S lower store id i
      owner = .ok (next, a, p)) : next.Founded S lower := by
  rcases route_command_cases S hcl with ⟨rfl, -⟩
    | ⟨row, read, state, outcome, round, hr, hrd, hru, hn,
      hrn, rfl, -⟩
  · exact h
  refine h.setRound hr hru fun written hh hvl hb => ?_
  obtain ⟨ho, hl⟩ := read_eq hv hr.1 hrd hh
  have hp := (Definition.validate_bounds hvl).2
  refine (Round.Accounted.command (hb.congr ho.symm hl.symm)
    (hl ▸ hp) ?_ hn
    (command_commanded hrn)).congr ho hl
  exact fun chosen hc => Definition.optionForCommand_mem hc

theorem Founded.score (h : store.Founded S lower) {i : ScoredInput}
    {a : Option ScoredOutcome}
    (hc : routeCompetitionScore S store id i owner
      = .ok (next, a)) : next.Founded S lower := by
  rcases route_score_cases S hc with ⟨rfl, -⟩
    | ⟨row, state, hr, hrn, hsrc, rfl, -⟩
  · exact h
  exact h.setRound hr hrn fun _ _ _ hb =>
    hb.score hsrc (score_scored _ state i)

theorem Founded.gift (hv : S.KeepsVoting)
    (h : store.Founded S lower) {i : GiftInput} {owner : String}
    {s : Nat → Nat → String → Except DatabaseError Nat}
    {a : Option GiftOutcome}
    (hc : routeCompetitionGift S store id i owner s
      = .ok (next, a)) : next.Founded S lower := by
  rcases route_gift_cases S hc with ⟨rfl, -⟩
    | ⟨row, state, outcome, round, hr, hru, hn, hrn, rfl, -⟩
  · exact h
  refine h.setRound hr hru fun written hh _ hb => ?_
  refine hb.gift hn ?_ (gift_gifted hrn)
  intro option gift bound hbn hp
  obtain ⟨ho, -⟩ := read_eq hv hr.1 (okOr_eq_ok.1 hbn) hh
  rw [← ho]
  exact Definition.optionForGift_mem hp

-- ==== calls

theorem Founded.rewritten (h : store.Founded S lower)
    (hdb : store.toDb.Rewritten db) :
    Founded S lower { store with toDb := db } := by
  rcases hdb with rfl | ⟨key, row, diagnostics, -, rfl⟩
  · exact h
  · exact h.withDb rfl fun _ hu => hu

theorem Founded.apply [DecidableEq T] (hv : S.KeepsVoting)
    (hs : store.toDb.Settled S) (h : store.Founded S lower) (call : Call) :
    (store.apply S lower call).Founded S lower := by
  cases call with
  | aggregate ranking place =>
    exact h.along rfl (fun _ _ => .refl _) fun _ hu => hu
  | insert definition =>
    exact commitDb_spec h fun db hc => h.insert hc
  | update definition =>
    exact commitDb_fst_spec h fun db _ hc => h.update hc
  | delete id => exact h.delete id
  | transition id transition now owner =>
    exact commit_fst_spec h fun next _ hc => h.transition hc
  | expireDue now owner =>
    exact commitDb_spec h fun db hc => h.expireDue hc
  | beginRecovery id generation owner =>
    exact commit_fst_spec h fun next _ hc => h.recovery hc
  | saveIntegrity checkpoints owner =>
    exact commit_spec h fun next hc => h.saveIntegrity hc
  | command id input owner =>
    exact commit_fst_spec h fun next _ hc => h.command hv hc
  | score id input owner =>
    exact commit_fst_spec h fun next _ hc => h.score hc
  | gift id input owner score =>
    exact commit_fst_spec h fun next _ hc => h.gift hv hc
  | storeResult result action owner =>
    rcases @apply_storeResult T _ S lower store hs result action owner
      with hsm | ⟨db, -, hn, hst⟩
    · rw [hsm]
      exact h
    · rw [hn]
      obtain ⟨state, hsts, hfin, -⟩ := hst.states
      refine h.withDb hst.definitions fun id hu => ?_
      refine Db.underway_insert hsts ?_ hu
      rw [hfin]
      nofun
  | claim id generation now =>
    exact commitDb_fst_spec h fun db _ hc =>
      h.rewritten (Db.claim_rewritten hc)
  | recordOutcome id generation status reason now =>
    exact commitDb_fst_spec h fun db _ hc =>
      h.rewritten (Db.recordOutcome_rewritten hc)
  | markUncertain id generation now =>
    exact commitDb_fst_spec h fun db _ hc =>
      h.rewritten (Db.recordOutcome_rewritten hc)
  | markInterrupted now =>
    exact h.withDb rfl fun _ hu => hu
  | resolve id generation resolution now =>
    exact commitDb_fst_spec h fun db _ hc =>
      h.rewritten (Db.resolve_rewritten hc)
  | openDatabase => exact h.openAutomation

end Store

-- ==== runs

theorem Reachable.founded [DecidableEq T] (hv : S.KeepsVoting)
    {store : Store T} (h : Reachable S lower store) :
    store.Founded S lower := by
  obtain ⟨aggregations, c, rfl⟩ := h
  have hb := @Store.run_invariant T _ S lower
    (fun store => store.toDb.Settled S ∧ store.Founded S lower)
    { aggregations } ⟨Db.Settled.empty, Store.Founded.empty aggregations⟩
    (fun store call ⟨hs, hf⟩ =>
      ⟨apply_settled hs call, hf.apply hv hs call⟩) c
  exact hb.2

/-- The books of a generation, whoever has it: those of nothing, or of
the definition that was stored. -/
theorem Store.Founded.accounted {store : Store T}
    (h : store.Founded S lower) (id : String) (g : Nat) :
    ∃ d, d.options.length ≤ 256
      ∧ (store.round id g).Accounted d
      ∧ ((store.round id g).Blank ∨ store.holds S id d) := by
  rcases h.rounds id g with hb
    | ⟨-, d, hh, hv, hbk⟩
  · let empty : Definition :=
      { id := "", name := "", kind := .poll, rankingId := "", options := []
        selectionMode := .highestScore, tiePolicy := .stable
        voteLimit := 1 }
    exact ⟨empty, Nat.zero_le 256,
      hb.accounted (accounted_empty empty), .inl hb⟩
  · exact ⟨d, (Definition.validate_bounds hv).1, hbk, .inr hh⟩

/-- In every store that calls lead to, the books of every generation are
in order: the counters are the sizes of what they count and within their
limits, votes are within the limit of the stored definition, and scores
that count are of participants. So no reader ever finds a row missing or
too many of them. -/
theorem store_accounting [DecidableEq T] (S : Codec T)
    (lower : String → String) (hvoting : S.KeepsVoting)
    (aggregations : Table String Place) (calls : List Call) (id : String)
    (generation : Nat) :
    let store := Store.run S lower { aggregations } calls
    let round := store.round id generation
    round.participantCount
        = (round.participants.keySet ∪ round.giftParticipants.keySet).card
      ∧ round.contributionCount = round.receipts
      ∧ round.contributionCount ≤ maxContributions
      ∧ (∀ (participant : String) (row : ParticipantRow),
        round.participants[participant]? = some row →
          ∃ definition, store.holds S id definition
            ∧ 1 ≤ row.votes ∧ row.votes ≤ definition.voteLimit)
      ∧ (∀ (key : SourceKey) (row : ScoredRow) (option : String),
        round.scored[key]? = some row → row.optionId = some option →
          row.participantId
            ∈ round.participants.keySet ∪ round.giftParticipants.keySet)
      ∧ (generation ≤ i64Max →
        (∃ totals, competitionVoteTotals store id generation = .ok totals)
          ∧ (∀ error, competitionScoredTotals store id generation
              = .error error → error = .invalid "score overflow")
          ∧ (∃ candidates,
            competitionDrawParticipants store id generation = .ok candidates)
          ∧ ∀ voteWeight error,
            competitionWeightedDrawParticipants store id generation
                voteWeight = .error error →
              error = .invalid "draw weight overflow") := by
  intro store round
  have hf : store.Founded S lower :=
    Reachable.founded hvoting ⟨aggregations, calls, rfl⟩
  obtain ⟨definition, ho, hb, hh⟩ := hf.accounted id generation
  refine ⟨hb.participants, hb.contributions, hb.budget, ?_,
    fun key row option hrow hopt =>
      (hb.scored key row option hrow hopt).2, ?_⟩
  · intro participant row hrow
    rcases hh with hbl | hh
    · rw [show round.participants = ∅ from hbl.participants,
        Std.ExtTreeMap.getElem?_empty] at hrow
      cases hrow
    · obtain ⟨hp, hl, -⟩ := hb.votes participant row hrow
      exact ⟨definition, hh, hp, hl⟩
  · intro hgen
    have hr : ∀ {α : Type} (reader : Round → Except DatabaseError α),
        store.readRound id generation reader = reader round := by
      intro α reader
      unfold Store.readRound
      rw [ensure_true hgen]
      rfl
    refine ⟨⟨_, (hr _).trans (hb.voteTotals ho)⟩, ?_,
      ⟨_, (hr _).trans hb.drawParticipants⟩, ?_⟩
    · intro error herr
      rw [competitionScoredTotals, hr] at herr
      rcases hb.scoredTotals ho with hok | hovf
      · rw [hok] at herr
        cases herr
      · rw [hovf] at herr
        exact (Except.error.inj herr).symm
    · intro voteWeight error herr
      rw [competitionWeightedDrawParticipants, hr] at herr
      rcases hb.weightedDraw voteWeight with ⟨_, hok⟩ | hovf
      · rw [hok] at herr
        cases herr
      · rw [hovf] at herr
        exact (Except.error.inj herr).symm

-- ==== one vote

/-- A poll with a command for each of two options. -/
def commandPoll : Definition where
  id := "lunch"
  name := "Lunch"
  kind := .poll
  rankingId := "votes"
  options := [{ id := "pizza", label := "Pizza", commands := ["!pizza"] },
    { id := "sushi", label := "Sushi", commands := ["!sushi"] }]
  selectionMode := .highestScore
  tiePolicy := .stable
  voteLimit := 2

/-- The poll is created and started, and a viewer votes. -/
def oneVote : List Call :=
  [.insert commandPoll, .transition "lunch" .start 0 (some "host"),
    .command "lunch" ⟨"c", "r", "viewer", "chat:1", "!pizza", 5⟩
      (some "host")]

theorem plainCodec_keepsVoting : plainCodec.KeepsVoting := by
  intro definition read hr
  cases hr
  exact ⟨rfl, rfl⟩

theorem store_accounting_vote :
    let store := Store.run plainCodec id
      { aggregations := Table.single "votes" ⟨"c", "r"⟩ } oneVote
    (store.round "lunch" 1).participantCount = 1
      ∧ ∃ totals, competitionVoteTotals store "lunch" 1 = .ok totals := by
  intro store
  obtain ⟨-, -, -, -, -, hr⟩ := store_accounting plainCodec id
    plainCodec_keepsVoting (Table.single "votes" ⟨"c", "r"⟩) oneVote
    "lunch" 1
  exact ⟨by decide +kernel, (hr (by decide)).1⟩

end TikTools.Competitions
