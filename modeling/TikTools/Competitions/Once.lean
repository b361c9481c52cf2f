/-
A result and its winner's action happen at most once.

A competition finishes in one way: `storeCompetitionResultOnce` writes
the result, the lifecycle and the pending action together. `Settled` is
what this leaves behind: the results are exactly those of the
generations that are finished now. A finished competition cannot be
restarted, changed or deleted, so its result stays.

Whatever else a call does to the ledger is a `Move`: it sets the
lifecycle of a competition without a result, erases one, or rewrites
entries of the outbox, none of which becomes pending again.
-/
import Mathlib.Logic.Relation
import TikTools.Competitions.Calls

namespace TikTools.Competitions

open TikTools.Lib Table

variable {T : Type} [DecidableEq T] (S : Codec T)

theorem scope_inj {id id' : String} {g g' : Nat} :
    scope id g = scope id' g' ↔ id = id' ∧ g = g' := by
  unfold scope
  rw [toLex.injective.eq_iff, Prod.mk.injEq]

-- ==== settled

namespace Db

variable {S} {db db' : Db T}

/-- The generation is the current one and it is finished. -/
def finished (S : Codec T) (db : Db T) (id : String)
    (generation : Nat) : Prop :=
  ∃ state, db.states[id]? = some (S.state.toText state)
    ∧ state.lifecycle = .finished ∧ state.generation = generation

/-- The stored results are those of the finished generations. -/
structure Settled (S : Codec T) (db : Db T) : Prop where
  written : ∀ (id : String) (text : T), db.states[id]? = some text →
    ∃ state, text = S.state.toText state
  results : ∀ id generation,
    db.results[scope id generation]? ≠ none ↔ db.finished S id generation

/-- A competition that has no result. -/
def unresolved (db : Db T) (id : String) : Prop :=
  ∀ generation, db.results[scope id generation]? = none

omit [DecidableEq T]

theorem unresolved_of_hasResult {id : String}
    (h : db.hasResult id = false) : db.unresolved id := by
  intro generation
  by_contra hr
  obtain ⟨row, hr⟩ := Option.ne_none_iff_exists'.1 hr
  have hany := List.any_eq_false.1 h _ (mem_toList.2 hr)
  exact hany (beq_self_eq_true id)

theorem Settled.unresolved (h : db.Settled S) {id : String} {t : T}
    {s : LifecycleState} (ht : db.states[id]? = some t)
    (hr : S.state.fromText t = some s)
    (ho : s.lifecycle ≠ .finished) : db.unresolved id := by
  intro generation
  by_contra hrow
  obtain ⟨stored, hst, hf, -⟩ := (h.results id generation).1 hrow
  rw [ht, Option.some.injEq] at hst
  rw [hst, S.state_readsBack, Option.some.injEq] at hr
  exact ho (hr ▸ hf)

theorem Settled.unresolved_of_absent (h : db.Settled S) {id : String}
    (ht : db.states[id]? = none) : db.unresolved id := by
  intro generation
  by_contra hrow
  obtain ⟨stored, hst, -⟩ := (h.results id generation).1 hrow
  rw [ht] at hst
  cases hst

-- ==== moves

/-- What a call may do to the ledger short of storing a result. -/
inductive Move (S : Codec T) (db : Db T) : Db T → Prop
  | lifecycle {db' : Db T} (id : String) (next : LifecycleState) :
      db.unresolved id → next.lifecycle ≠ .finished →
      db'.states = db.states.insert id (S.state.toText next) →
      db'.results = db.results → db'.outbox = db.outbox → Move S db db'
  | erased {db' : Db T} (id : String) :
      db.unresolved id → db'.states = db.states.erase id →
      db'.results = db.results → db'.outbox = db.outbox → Move S db db'
  | entries {db' : Db T} :
      (∀ (key : Scope) (row : OutboxRow T), db.outbox[key]? = some row →
        ∃ row', db'.outbox[key]? = some row'
          ∧ (row.status ≠ .pending → row'.status ≠ .pending)) →
      db'.states = db.states → db'.results = db.results → Move S db db'

/-- Any number of moves. -/
abbrev Moves (S : Codec T) : Db T → Db T → Prop :=
  Relation.ReflTransGen (Move S)

theorem Moves.alike (hsts : db'.states = db.states)
    (hr : db'.results = db.results)
    (ho : db'.outbox = db.outbox) : Moves S db db' :=
  .single (.entries (fun key row h =>
    ⟨row, by rw [ho]; exact h, id⟩) hsts hr)

/-- At most one entry of the outbox is rewritten, and it is not pending
afterwards. -/
def Rewritten (db db' : Db T) : Prop :=
  db' = db ∨ ∃ key row diagnostics, row.status ≠ .pending
    ∧ db' = { db with outbox := db.outbox.insert key row, diagnostics }

theorem Rewritten.moves (h : db.Rewritten db') : Moves S db db' := by
  rcases h with rfl | ⟨key, row, diagnostics, hst, rfl⟩
  · exact .refl
  refine .single (.entries ?_ rfl rfl)
  intro o old ho
  rw [get_insert]
  by_cases hsm : key = o
  · rw [if_pos hsm]
    exact ⟨row, rfl, fun _ => hst⟩
  · rw [if_neg hsm]
    exact ⟨old, ho, id⟩

theorem Move.results_eq (h : Move S db db') : db'.results = db.results := by
  cases h with
  | lifecycle _ _ _ _ _ hr _ => exact hr
  | erased _ _ _ hr _ => exact hr
  | entries _ _ hr => exact hr

theorem Moves.results_eq (h : Moves S db db') :
    db'.results = db.results := by
  induction h with
  | refl => rfl
  | tail _ hmv ih => exact hmv.results_eq.trans ih

theorem Move.settled (hmv : Move S db db') (h : db.Settled S) :
    db'.Settled S := by
  cases hmv with
  | lifecycle id next hn ho hsts hr _ =>
    constructor
    · intro o t ht
      rw [hsts, get_insert] at ht
      split at ht
      · cases ht
        exact ⟨next, rfl⟩
      · exact h.written o t ht
    · intro o generation
      rw [hr]
      unfold finished
      rw [hsts, get_insert]
      by_cases hsm : id = o
      · subst hsm
        rw [if_pos rfl]
        refine ⟨fun hrow => absurd (hn generation) hrow, ?_⟩
        rintro ⟨s, hst, hf, -⟩
        have hrd := congrArg (Option.bind · S.state.fromText) hst
        dsimp only [Option.bind_some] at hrd
        rw [S.state_readsBack, S.state_readsBack, Option.some.injEq] at hrd
        exact absurd (hrd ▸ hf) ho
      · rw [if_neg hsm]
        exact h.results o generation
  | erased id hn hsts hr _ =>
    constructor
    · intro o t ht
      rw [hsts, get_erase] at ht
      split at ht
      · cases ht
      · exact h.written o t ht
    · intro o generation
      rw [hr]
      unfold finished
      rw [hsts, get_erase]
      by_cases hsm : id = o
      · subst hsm
        rw [if_pos rfl]
        refine ⟨fun hrow => absurd (hn generation) hrow, ?_⟩
        rintro ⟨s, hst, -⟩
        cases hst
      · rw [if_neg hsm]
        exact h.results o generation
  | entries _ hsts hr =>
    constructor
    · rw [hsts]
      exact h.written
    · unfold finished
      rw [hsts, hr]
      exact h.results

theorem Moves.settled (hmv : Moves S db db') (h : db.Settled S) :
    db'.Settled S := by
  induction hmv with
  | refl => exact h
  | tail _ hmo ih => exact hmo.settled ih

-- ==== kept

/-- What the ledger never takes back. -/
structure Keeps (db db' : Db T) : Prop where
  results : ∀ (key : Scope) (row : ResultRow T),
    db.results[key]? = some row → db'.results[key]? = some row
  taken : ∀ (key : Scope) (row : OutboxRow T),
    db.outbox[key]? = some row → row.status ≠ .pending →
      ∃ row', db'.outbox[key]? = some row' ∧ row'.status ≠ .pending

theorem Keeps.refl (db : Db T) : db.Keeps db :=
  ⟨fun _ _ h => h, fun _ row h hst => ⟨row, h, hst⟩⟩

theorem Keeps.trans {db'' : Db T} (h : db.Keeps db')
    (h' : db'.Keeps db'') : db.Keeps db'' := by
  constructor
  · intro key row hr
    exact h'.results key row (h.results key row hr)
  · intro key row hr hst
    obtain ⟨row', hr', hs'⟩ := h.taken key row hr hst
    exact h'.taken key row' hr' hs'

theorem Move.keeps (h : Move S db db') : db.Keeps db' := by
  have hr := h.results_eq
  refine ⟨fun key row hrow => by rw [hr]; exact hrow, ?_⟩
  intro key row hrow hst
  cases h with
  | lifecycle _ _ _ _ _ _ ho =>
    exact ⟨row, by rw [ho]; exact hrow, hst⟩
  | erased _ _ _ _ ho =>
    exact ⟨row, by rw [ho]; exact hrow, hst⟩
  | entries hen _ _ =>
    obtain ⟨row', h', hk⟩ := hen key row hrow
    exact ⟨row', h', hk hst⟩

theorem Moves.keeps (h : Moves S db db') : db.Keeps db' := by
  induction h with
  | refl => exact .refl _
  | tail _ hmv ih => exact ih.trans hmv.keeps

-- ==== operations

variable {id : String} {generation now : Nat}

variable {lower : String → String}

theorem moves_insert {d : Definition} (hs : db.Settled S)
    (h : insertCompetitionDefinition S lower db
      d = .ok db') : Moves S db db' := by
  obtain ⟨-, h⟩ := ensure_ok.1 h
  obtain ⟨⟨-, ha⟩, h⟩ := ensure_ok.1 h
  cases h
  exact .single (.lifecycle d.id {}
    (hs.unresolved_of_absent ha) nofun rfl rfl rfl)

variable {flag : Bool}

theorem moves_update {d : Definition}
    (h : updateCompetitionDefinition S lower db d
      = .ok (db', flag)) : Moves S db db' := by
  obtain ⟨-, h⟩ := ensure_ok.1 h
  split at h
  · cases h
    exact .alike rfl rfl rfl
  · cases h
    exact .refl

variable {store : Store T}

theorem moves_delete (id : String) :
    Moves S store.toDb (deleteCompetitionDefinition S store id).1.toDb := by
  unfold deleteCompetitionDefinition
  split
  · next hd =>
    exact .single (.erased id (unresolved_of_hasResult hd.2.2) rfl rfl rfl)
  · exact .refl

variable {result : ResultRecord} {next : Store T}

theorem openCheckpoint_toDb
    (h : store.openCheckpoint id generation = .ok next) :
    next.toDb = store.toDb := by
  obtain ⟨-, h⟩ := ensure_ok.1 h
  cases h
  rfl

variable {owner : Option String}

theorem moves_transition {t : Transition}
    {a : Option LifecycleState} (hs : store.toDb.Settled S)
    (h : transitionCompetitionOwned S store id t now owner
      = .ok (next, a)) : Moves S store.toDb next.toDb := by
  unfold transitionCompetitionOwned at h
  split at h
  · next row text hrow ht =>
    obtain ⟨definition, -, h⟩ := okOr_ok.1 h
    obtain ⟨state, hr, h⟩ := okOr_ok.1 h
    obtain ⟨-, h⟩ := ensure_ok.1 h
    obtain ⟨m, hmv, h⟩ := bind_eq_ok.1 h
    have hmv := mapError_eq_ok hmv
    have hn := hs.unresolved ht hr
      (LifecycleState.transition_from_finished hmv)
    have ho := LifecycleState.transition_not_finished hmv
    split at h
    · obtain ⟨-, h⟩ := ensure_ok.1 h
      obtain ⟨o, hop, h⟩ := bind_eq_ok.1 h
      have hsm := openCheckpoint_toDb hop
      have hmo : Move S store.toDb o.toDb :=
        .lifecycle id m hn ho (by rw [hsm]) (by rw [hsm]) (by rw [hsm])
      split at h
      · cases h
        exact .single hmo
      · obtain ⟨-, h⟩ := ensure_ok.1 h
        cases h
        exact .tail (.single hmo) (.entries
          (fun _ row hrow => ⟨row, hrow, fun hk => hk⟩) rfl rfl)
    · cases h
      exact .single (.lifecycle id m hn ho rfl rfl rfl)
  · cases h
    exact .refl

theorem moves_expireDue (hs : db.Settled S)
    (h : expireDueCompetitionsOwned S db now owner = .ok db') :
    Moves S db db' := by
  refine @foldlM_invariant _ _ _ (fun d => Moves S db d) _ _ ?_ _ _ h .refl
  intro row hrow before after hst hmo
  obtain ⟨state, hr, hst⟩ := okOr_ok.1 hst
  split at hst
  · obtain ⟨m, hmv, hst⟩ := bind_eq_ok.1 hst
    have hmv := mapError_eq_ok hmv
    cases hst
    refine hmo.tail (.lifecycle row.1 m ?_
      (LifecycleState.transition_not_finished hmv) rfl rfl rfl)
    intro generation
    rw [hmo.results_eq]
    exact hs.unresolved (mem_toList.1 hrow) hr
      (LifecycleState.transition_from_finished hmv) generation
  · cases hst
    exact hmo

theorem moves_recovery {owner : String} {c : Bool}
    (h : beginCompetitionRecovery store id generation owner
      = .ok (next, c)) : Moves S store.toDb next.toDb := by
  obtain ⟨-, h⟩ := ensure_ok.1 h
  cases h
  exact .alike rfl rfl rfl

theorem integrity_toDb
    {c : List (String × Nat × Bool)} {owner : String}
    (h : saveCompetitionIntegrity store c owner = .ok next) :
    next.toDb = store.toDb := by
  refine @foldlM_invariant _ _ _ (fun s : Store T => s.toDb = store.toDb)
    _ _ ?_ _ _ h rfl
  intro row _ before after hst hsm
  obtain ⟨-, hst⟩ := ensure_ok.1 hst
  obtain ⟨-, hst⟩ := ensure_ok.1 hst
  cases hst
  exact hsm

theorem moves_openAutomation (hs : db.Settled S) :
    Moves S db (openAutomation S db) := by
  have hf : ∀ (rows : List (String × DefinitionRow T))
      (states : Table String T), Moves S db { db with states } →
      Moves S db { db with
        states := rows.foldl (fun states row =>
          if states[row.1]? = none then
            states.insert row.1 (S.state.toText {})
          else states) states } := by
    intro rows
    induction rows with
    | nil => exact fun _ hmv => hmv
    | cons row rest ih =>
      intro states hmv
      rw [List.foldl_cons]
      refine ih _ ?_
      split
      · next habs =>
        have hn := (hmv.settled hs).unresolved_of_absent habs
        exact hmv.tail (.lifecycle row.1 {} hn nofun rfl rfl rfl)
      · exact hmv
  exact hf _ db.states .refl

theorem claim_rewritten [DecidableEq T] {o : ActionClaimOutcome T}
    (h : claimCompetitionActionDetailed S db id generation now
      = .ok (db', o)) : db.Rewritten db' := by
  obtain ⟨-, h⟩ := ensure_ok.1 h
  dsimp only at h
  split at h
  · cases h
    exact .inl rfl
  · split at h
    · cases h
      exact .inl rfl
    · split at h
      · cases h
        exact .inr ⟨_, _, _, show ActionStatus.failed ≠ .pending from nofun,
          rfl⟩
      · cases h
        exact .inr ⟨_, _, _,
          show ActionStatus.running ≠ .pending from nofun, rfl⟩

theorem recordOutcome_rewritten {s : ActionStatus}
    {r : Option String}
    (h : recordCompetitionActionOutcome db id generation s r now
      = .ok (db', flag)) : db.Rewritten db' := by
  obtain ⟨-, h⟩ := ensure_ok.1 h
  obtain ⟨hst, h⟩ := ensure_ok.1 h
  obtain ⟨-, h⟩ := ensure_ok.1 h
  have hc : s ≠ .pending := by
    rintro rfl
    rcases hst with hst | hst | hst
    all_goals cases hst
  dsimp only at h
  split at h
  · cases h
    exact .inl rfl
  · split at h
    · cases h
      exact .inl rfl
    · cases h
      exact .inr ⟨_, _, _, hc, rfl⟩

theorem resolve_rewritten {r : ActionResolution}
    (h : resolveUncertainCompetitionAction db id generation r now
      = .ok (db', flag)) : db.Rewritten db' := by
  obtain ⟨-, h⟩ := ensure_ok.1 h
  obtain ⟨-, h⟩ := ensure_ok.1 h
  dsimp only at h
  split at h
  · cases h
    exact .inl rfl
  · split at h
    · cases h
      exact .inl rfl
    · cases h
      refine .inr ⟨_, _, _, ?_, rfl⟩
      cases r
      all_goals exact nofun

theorem moves_interrupted (now : Nat) :
    Moves S db (markInterruptedCompetitionActionsUncertain db now) := by
  refine .single (.entries ?_ rfl rfl)
  intro key row h
  unfold markInterruptedCompetitionActionsUncertain
  rw [get_map, h]
  refine ⟨_, rfl, ?_⟩
  dsimp only
  split
  · exact fun _ => nofun
  · exact id

-- ==== results

/-- Storing a result finishes its generation and queues at most one
pending action. -/
structure Stored (S : Codec T) (db : Db T) (result : ResultRecord)
    (db' : Db T) : Prop where
  open_ : db.unresolved result.competitionId
  definitions : db'.definitions = db.definitions
  states : ∃ state, db'.states = db.states.insert result.competitionId
      (S.state.toText state)
    ∧ state.lifecycle = .finished ∧ state.generation = result.generation
  results : ∃ row, db'.results = db.results.insert
    (scope result.competitionId result.generation) row
  outbox : ∀ (key : Scope) (row : OutboxRow T),
    db.outbox[key]? = some row → db'.outbox[key]? = some row

theorem commitResult_stored [DecidableEq T]
    {a : Option WinnerAction} (hs : db.Settled S)
    (h : commitResult S db result a owner = .ok db') :
    Stored S db result db' := by
  obtain ⟨-, h⟩ := ensure_ok.1 h
  obtain ⟨row, -, h⟩ := okOr_ok.1 h
  obtain ⟨text, ht, h⟩ := okOr_ok.1 h
  obtain ⟨definition, -, h⟩ := okOr_ok.1 h
  obtain ⟨state, hr, h⟩ := okOr_ok.1 h
  obtain ⟨⟨hf, hgen, -⟩, h⟩ := ensure_ok.1 h
  obtain ⟨-, h⟩ := ensure_ok.1 h
  have ho := hs.unresolved ht hr (by rw [hf]; nofun)
  cases a with
  | none =>
    cases h
    exact ⟨ho, rfl, ⟨_, rfl, rfl, hgen⟩, ⟨_, rfl⟩, fun _ _ hrow => hrow⟩
  | some a =>
    obtain ⟨⟨hfr, -⟩, h⟩ := ensure_ok.1 h
    cases h
    refine ⟨ho, rfl, ⟨_, rfl, rfl, hgen⟩, ⟨_, rfl⟩, ?_⟩
    intro key row hrow
    refine (get_insert_ne _ _ ?_).trans hrow
    rintro rfl
    rw [show db.outbox[scope result.competitionId result.generation]?
      = none from hfr] at hrow
    cases hrow

theorem Stored.settled
    (h : Stored S db result db') (hs : db.Settled S) : db'.Settled S := by
  obtain ⟨s, hsts, hf, hg⟩ := h.states
  obtain ⟨row, hrs⟩ := h.results
  constructor
  · intro o t ht
    rw [hsts, get_insert] at ht
    split at ht
    · cases ht
      exact ⟨s, rfl⟩
    · exact hs.written o t ht
  · intro o generation
    unfold finished
    rw [hrs, hsts, get_insert, get_insert]
    by_cases hsm : result.competitionId = o
    · subst hsm
      rw [if_pos rfl]
      constructor
      · intro hrow
        refine ⟨s, rfl, hf, ?_⟩
        by_contra ho
        rw [if_neg, h.open_ generation] at hrow
        · exact hrow rfl
        · rw [scope_inj]
          exact fun heq => ho (hg.trans heq.2)
      · rintro ⟨stored, hst, -, hc⟩
        have hr := congrArg (Option.bind · S.state.fromText) hst
        dsimp only [Option.bind_some] at hr
        rw [S.state_readsBack, S.state_readsBack, Option.some.injEq] at hr
        rw [if_pos]
        · exact Option.some_ne_none _
        · rw [scope_inj]
          exact ⟨rfl, by rw [← hg, hr, hc]⟩
    · rw [if_neg hsm, if_neg fun heq => hsm (scope_inj.1 heq).1]
      exact hs.results o generation

theorem Stored.keeps (h : Stored S db result db') : db.Keeps db' := by
  obtain ⟨stored, hr⟩ := h.results
  constructor
  · intro key row hrow
    rw [hr]
    refine (get_insert_ne _ _ ?_).trans hrow
    rintro rfl
    rw [h.open_ result.generation] at hrow
    cases hrow
  · exact fun key row hrow hst => ⟨row, h.outbox key row hrow, hst⟩

end Db

-- ==== calls

variable {S} {lower : String → String}

/-- The ledger's tables moved. -/
def Store.movesTo (S : Codec T) (store next : Store T) : Prop :=
  Db.Moves S store.toDb next.toDb

variable {store : Store T}

section

variable (hs : store.toDb.Settled S)
include hs

theorem apply_moves {call : Call}
    (hc : ∀ result action owner, call ≠ .storeResult result action owner) :
    store.movesTo S (store.apply S lower call) := by
  have hr : store.movesTo S store := .refl
  cases call with
  | aggregate ranking place => exact .refl
  | insert definition =>
    exact Store.commitDb_spec hr fun db h => Db.moves_insert hs h
  | update definition =>
    exact Store.commitDb_fst_spec hr fun db _ h => Db.moves_update h
  | delete id => exact Db.moves_delete id
  | transition id transition now owner =>
    exact Store.commit_fst_spec hr fun next _ h =>
      Db.moves_transition hs h
  | expireDue now owner =>
    exact Store.commitDb_spec hr fun db h => Db.moves_expireDue hs h
  | beginRecovery id generation owner =>
    exact Store.commit_fst_spec hr fun next _ h => Db.moves_recovery h
  | saveIntegrity checkpoints owner =>
    refine Store.commit_spec hr fun next h => ?_
    unfold Store.movesTo
    rw [Db.integrity_toDb h]
  | command id input owner =>
    refine Store.commit_fst_spec hr fun next _ h => ?_
    rcases route_command_cases S h with ⟨rfl, -⟩
      | ⟨_, _, state, _, round, -, -, -, -, -, rfl, -⟩
    all_goals exact .refl
  | score id input owner =>
    refine Store.commit_fst_spec hr fun next _ h => ?_
    rcases route_score_cases S h with ⟨rfl, -⟩
      | ⟨_, state, -, -, -, rfl, -⟩
    all_goals exact .refl
  | gift id input owner score =>
    refine Store.commit_fst_spec hr fun next _ h => ?_
    rcases route_gift_cases S h with ⟨rfl, -⟩
      | ⟨_, state, _, round, -, -, -, -, rfl, -⟩
    all_goals exact .refl
  | storeResult result action owner =>
    exact absurd rfl (hc result action owner)
  | claim id generation now =>
    exact Store.commitDb_fst_spec hr fun db _ h =>
      (Db.claim_rewritten h).moves
  | recordOutcome id generation status reason now =>
    exact Store.commitDb_fst_spec hr fun db _ h =>
      (Db.recordOutcome_rewritten h).moves
  | markUncertain id generation now =>
    exact Store.commitDb_fst_spec hr fun db _ h =>
      (Db.recordOutcome_rewritten h).moves
  | markInterrupted now => exact Db.moves_interrupted now
  | resolve id generation resolution now =>
    exact Store.commitDb_fst_spec hr fun db _ h =>
      (Db.resolve_rewritten h).moves
  | openDatabase => exact Db.moves_openAutomation hs

/-- Storing a result answers with the record of before, fails, or stores
it now. -/
theorem apply_storeResult (result : ResultRecord)
    (action : Option WinnerAction) (owner : Option String) :
    store.apply S lower (.storeResult result action owner) = store
      ∨ ∃ db, storeCompetitionResultOnce S store.toDb result action owner
          = .ok (db, result, true)
        ∧ store.apply S lower (.storeResult result action owner)
          = { store with toDb := db }
        ∧ Db.Stored S store.toDb result db := by
  have ha : store.apply S lower (.storeResult result action owner)
      = store.commitDb ((storeCompetitionResultOnce S store.toDb result
        action owner).map Prod.fst) := rfl
  cases h : storeCompetitionResultOnce S store.toDb result action owner with
  | error error =>
    left
    rw [ha, h]
    rfl
  | ok answer =>
    obtain ⟨db, stored, fresh⟩ := answer
    have hn : store.apply S lower (.storeResult result action owner)
        = { store with toDb := db } := by
      rw [ha, h]
      rfl
    obtain ⟨_, -, h⟩ := bind_eq_ok.1 h
    split at h
    · obtain ⟨_, -, h⟩ := bind_eq_ok.1 h
      cases h
      exact .inl hn
    · obtain ⟨after, hc, h⟩ := bind_eq_ok.1 h
      cases h
      exact .inr ⟨db, rfl, hn, Db.commitResult_stored hs hc⟩

theorem apply_settled (call : Call) :
    (store.apply S lower call).toDb.Settled S := by
  by_cases hc : ∃ result a owner, call = .storeResult result a owner
  · obtain ⟨result, a, owner, rfl⟩ := hc
    rcases apply_storeResult hs result a owner with hsm
      | ⟨db, -, hdb, hst⟩
    · rw [hsm]
      exact hs
    · rw [hdb]
      exact hst.settled hs
  · refine (apply_moves hs ?_).settled hs
    exact fun result a owner heq =>
      hc ⟨result, a, owner, heq⟩

theorem apply_keeps (call : Call) :
    store.toDb.Keeps (store.apply S lower call).toDb := by
  by_cases hc : ∃ result a owner, call = .storeResult result a owner
  · obtain ⟨result, a, owner, rfl⟩ := hc
    rcases apply_storeResult hs result a owner with hsm
      | ⟨db, -, hdb, hst⟩
    · rw [hsm]
      exact .refl _
    · rw [hdb]
      exact hst.keeps
  · refine (apply_moves hs ?_).keeps
    exact fun result a owner heq =>
      hc ⟨result, a, owner, heq⟩

end

-- ==== runs

omit [DecidableEq T] in
theorem Db.Settled.empty : ({} : Db T).Settled S := by
  constructor
  · intro id text ht
    rw [show ({} : Db T).states[id]? = none from
      Std.ExtTreeMap.getElem?_empty] at ht
    cases ht
  · intro id generation
    constructor
    · intro h
      exact absurd (Std.ExtTreeMap.getElem?_empty :
        (∅ : Table Scope (ResultRow T))[scope id generation]? = none) h
    · rintro ⟨state, hst, -⟩
      rw [show ({} : Db T).states[id]? = none from
        Std.ExtTreeMap.getElem?_empty] at hst
      cases hst

variable (S lower)

/-- The stores of a host: whatever rankings it began with, competitions
are made by calls. -/
def Reachable (store : Store T) : Prop :=
  ∃ aggregations calls, store = Store.run S lower { aggregations } calls

/-- The entry goes from pending to running. -/
def Store.starts (store next : Store T) (key : Scope) : Prop :=
  store.outbox[key]?.map (·.status) = some .pending
    ∧ next.outbox[key]?.map (·.status) = some .running

instance (store next : Store T) (key : Scope) :
    Decidable (store.starts next key) :=
  inferInstanceAs (Decidable (_ ∧ _))

/-- How many calls of a run start the action of a generation. -/
def Store.startsIn (key : Scope) (store : Store T) : List Call → Nat
  | [] => 0
  | call :: rest =>
    let next := store.apply S lower call
    (if store.starts next key then 1 else 0) + next.startsIn key rest

variable {S lower}

section

variable (hs : store.toDb.Settled S)
include hs

theorem run_settled (c : List Call) :
    (store.run S lower c).toDb.Settled S :=
  Store.run_invariant S lower (P := fun store => store.toDb.Settled S) hs
    (fun _ ca hs => apply_settled hs ca) c

omit hs in
theorem Reachable.settled (h : Reachable S lower store) :
    store.toDb.Settled S := by
  obtain ⟨aggregations, c, rfl⟩ := h
  exact run_settled Db.Settled.empty c

theorem run_keeps (c : List Call) :
    store.toDb.Keeps (store.run S lower c).toDb := by
  induction c generalizing store with
  | nil => exact .refl _
  | cons ca rest ih =>
    exact (apply_keeps hs ca).trans (ih (apply_settled hs ca))

theorem startsIn_taken {key : Scope}
    {row : OutboxRow T} (h : store.outbox[key]? = some row)
    (hst : row.status ≠ .pending) (c : List Call) :
    store.startsIn S lower key c = 0 := by
  induction c generalizing store row with
  | nil => rfl
  | cons ca rest ih =>
    obtain ⟨row', h', hs'⟩ := (apply_keeps hs ca).taken key row h hst
    unfold Store.startsIn
    dsimp only
    rw [if_neg, ih (apply_settled hs ca) h' hs']
    rintro ⟨hp, -⟩
    rw [h] at hp
    exact hst (Option.some.inj hp)

theorem startsIn_le_one (key : Scope)
    (c : List Call) : store.startsIn S lower key c ≤ 1 := by
  induction c generalizing store with
  | nil => exact Nat.zero_le 1
  | cons ca rest ih =>
    unfold Store.startsIn
    dsimp only
    by_cases hst : store.starts (store.apply S lower ca) key
    · rw [if_pos hst]
      obtain ⟨row, h, hr⟩ := Option.map_eq_some_iff.1 hst.2
      rw [startsIn_taken (apply_settled hs ca) h (by rw [hr]; nofun)]
    · rw [if_neg hst, Nat.zero_add]
      exact ih (apply_settled hs ca)

theorem finished_by_result {call : Call}
    {id : String} {generation : Nat}
    (hbef : ¬ store.finished S id generation)
    (ha : (store.apply S lower call).finished S id generation) :
    ∃ result a owner db, call = .storeResult result a owner
      ∧ storeCompetitionResultOnce S store.toDb result a owner
        = .ok (db, result, true)
      ∧ result.competitionId = id ∧ result.generation = generation := by
  have hn : store.results[scope id generation]? = none := by
    by_contra hrow
    exact hbef ((hs.results id generation).1 hrow)
  have hsm : (store.apply S lower call).results[scope id generation]?
      ≠ none :=
    ((apply_settled hs call).results id generation).2 ha
  by_cases hc : ∃ result a owner, call = .storeResult result a owner
  · obtain ⟨result, a, owner, rfl⟩ := hc
    rcases apply_storeResult hs result a owner with hsa
      | ⟨db, hok, hdb, hst⟩
    · rw [hsa] at hsm
      exact absurd hn hsm
    · obtain ⟨row, hr⟩ := hst.results
      rw [hdb, hr, get_insert] at hsm
      split at hsm
      · next hsa =>
        obtain ⟨hid, hgen⟩ := scope_inj.1 hsa
        exact ⟨result, a, owner, db, rfl, hok, hid, hgen⟩
      · exact absurd hn hsm
  · refine absurd ?_ hsm
    have hmv := @apply_moves T _ S lower store hs call
      fun result a owner heq => hc ⟨result, a, owner, heq⟩
    have hr : (store.apply S lower call).results = store.results :=
      Db.Moves.results_eq hmv
    rw [hr]
    exact hn

end

/-- In every run of the store, from every state it reaches: a result
stays as it is; an action leaves the pending ones at most once and does
not come back; and the results are those of the finished generations,
which finished by them. -/
theorem results_and_actions_once (S : Codec T) (lower : String → String)
    (aggregations : Table String Place) (first rest : List Call) :
    let store := Store.run S lower { aggregations } first
    let later := store.run S lower rest
    (∀ (key : Scope) (row : ResultRow T), store.results[key]? = some row →
        later.results[key]? = some row)
      ∧ (∀ key : Scope, store.startsIn S lower key rest ≤ 1)
      ∧ (∀ (key : Scope) (row : OutboxRow T),
        store.outbox[key]? = some row → row.status ≠ .pending →
          ∃ row', later.outbox[key]? = some row' ∧ row'.status ≠ .pending)
      ∧ (∀ id generation, store.results[scope id generation]? ≠ none
        ↔ store.finished S id generation)
      ∧ ∀ call id generation, ¬ store.finished S id generation →
        (store.apply S lower call).finished S id generation →
          ∃ result action owner db, call = .storeResult result action owner
            ∧ storeCompetitionResultOnce S store.toDb result action owner
              = .ok (db, result, true)
            ∧ result.competitionId = id
            ∧ result.generation = generation := by
  intro store later
  have hs : store.toDb.Settled S :=
    Reachable.settled ⟨aggregations, first, rfl⟩
  have hk : store.toDb.Keeps later.toDb := run_keeps hs rest
  refine ⟨hk.results, fun key => startsIn_le_one hs key rest,
    hk.taken, hs.results, ?_⟩
  intro call id generation hbef ha
  exact finished_by_result hs hbef ha

end TikTools.Competitions
