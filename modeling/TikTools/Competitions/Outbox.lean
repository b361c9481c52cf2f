/-
The outbox worker: what happens to a winner's action between the commit
that queued it and its execution.

Preparation re-reads everything it needs — the stored result, the
definition, the ranking, the automation action — and compares the
claimed action with the REFERENCE it derives from the definition and
the winner. The ledger chose the action by `expectedAction`; the worker
derives its reference by `optionAction` alone. The two agree for option
winners and disagree for user winners, which no option id names.

`ReferenceAgrees` is the exact condition on definition, winner and
action under which the worker's comparison succeeds.
-/
import TikTools.Competitions.Ledger

namespace TikTools.Competitions

open TikTools.Lib

variable {T : Type} [DecidableEq T] (S : Codec T)

-- ==== core

structure Ranking where
  creatorId : String
  roomId : String
  deriving DecidableEq, Repr

/-- The host state the worker reads: the database, the definitions held
in memory, the rankings, and the automation actions by id. -/
structure Core (T : Type) where
  db : Db T
  definitions : Table String Definition
  loadFailed : Bool := false
  rankings : Table String Ranking := ∅
  actions : Table String Json := ∅

/-- How the automation runtime ended an action. -/
inductive Run where
  | ok | failed | interrupted
  deriving DecidableEq, Repr

def Core.competitionGet (core : Core T) (id : String) :
    Option Definition :=
  if core.loadFailed then none else core.definitions[id]?

def SelectionMode.text : SelectionMode → String
  | .highestScore => "highest_score"
  | .uniformRandom => "uniform_random"
  | .weightedRandom => "weighted_random"

/-- The claimed action's inputs as object members. -/
def inputMembers : Json → Option (List (String × Json))
  | .null => some []
  | .object members => some members
  | _ => none

/-- The action with the claimed inputs written over its config. -/
def withInputs (action : Json) (inputs : List (String × Json)) :
    Option Json := do
  let object ← action.asObject
  let config ← ((Json.member "config" object).getD (.object [])).asObject
  return .object
    (Json.setMember "config" (.object (Json.extend config inputs)) object)

/-- The event the action runs on. The text of the idempotency key is
read through `keyText`. -/
def winnerEvent (keyText : T → String) (claim : ActionClaim T)
    (result : ResultRecord) (ranking : Ranking) (winner : String)
    (score : Nat) : Json :=
  .object
    [("creator", .object
        [("roomId", .string ranking.roomId),
          ("uniqueId", .string ranking.creatorId)]),
      ("data", .object
        [("actionId", .string claim.action.actionId),
          ("competitionId", .string claim.competitionId),
          ("generation", .number (toString claim.generation)),
          ("optionId", .string winner),
          ("rankingId", .string result.rankingId),
          ("selectionId", .string (keyText claim.idempotencyKey)),
          ("selectionMode", .string result.selection.mode.text),
          ("winnerId", .string winner),
          ("winnerScore", .number (toString score))]),
      ("id", .string (keyText claim.idempotencyKey)),
      ("timestamp", .number (toString result.finalizedAt)),
      ("type", .string "competition.winner.selected")]

/-- The stored result of a claim; an unreadable row counts as
absent. -/
def Core.claimedResult (core : Core T) (claim : ActionClaim T) :
    Option ResultRecord :=
  match loadCompetitionResult S core.db claim.competitionId
      claim.generation with
  | .ok result => result
  | .error _ => none

/-- Everything the worker checks before running a claimed action, in
order. The error is the reason recorded on the entry. -/
def prepareAction (keyText : T → String) (core : Core T)
    (claim : ActionClaim T) : Except String (Json × Json) := do
  let result ← okOr (core.claimedResult S claim) "result_unavailable"
  let definition ← okOr (core.competitionGet claim.competitionId)
    "competition_unavailable"
  let winner ← okOr result.selection.winner "winner_unavailable"
  ensure (definition.optionAction winner = some claim.action)
    "action_reference_mismatch"
  let ranking ← okOr core.rankings[definition.rankingId]?
    "ranking_unavailable"
  let action ← okOr core.actions[claim.action.actionId]? "action_unavailable"
  ensure ((action.get "enabled").bind Json.asBool ≠ some false)
    "action_disabled"
  let inputs ← okOr (inputMembers claim.action.inputs) "invalid_inputs"
  let action ← okOr (withInputs action inputs) "invalid_action"
  let candidate ← okOr
    (result.selection.eligible.find? fun c => c.key == winner)
    "winner_unavailable"
  return (action,
    winnerEvent keyText claim result ranking winner candidate.weight)

/-- The status and reason a finished run is recorded under. -/
def runOutcome : Run → ActionStatus × Option String
  | .ok => (.completed, none)
  | .failed => (.uncertain, some "execution_failed")
  | .interrupted => (.uncertain, some "execution_interrupted")

/-- Prepare, run and record one claimed action. The second component is
the outcome the worker asked to be recorded. -/
def executeCompetitionAction (keyText : T → String)
    (runtime : Json → Json → Run) (core : Core T)
    (claim : ActionClaim T) (now : Nat) :
    Core T × ActionStatus × Option String :=
  let outcome :=
    match prepareAction S keyText core claim with
    | .error reason => (ActionStatus.failed, some reason)
    | .ok (action, event) => runOutcome (runtime action event)
  match recordCompetitionActionOutcome core.db claim.competitionId
      claim.generation outcome.1 outcome.2 now with
  | .ok (db, _) => ({ core with db }, outcome)
  | .error _ => (core, outcome)

/-- One turn of the worker on a queued generation: claim the entry and,
if the claim stands, execute it. The outcome is absent when nothing was
executed. -/
def dispatchCompetitionAction (keyText : T → String)
    (runtime : Json → Json → Run) (core : Core T) (id : String)
    (generation now : Nat) :
    Except DatabaseError (Core T × Option (ActionStatus × Option String)) :=
  match claimCompetitionActionDetailed S core.db id generation now with
  | .error e => .error e
  | .ok (db, .claimed claim) =>
    let (core, outcome) := executeCompetitionAction S keyText runtime
      { core with db } claim now
    .ok (core, some outcome)
  | .ok (db, _) => .ok ({ core with db }, none)

-- ==== spec lemmas

/-- The row a fresh result is stored under. -/
def ResultRecord.row (result : ResultRecord) : ResultRow T :=
  { rankingId := result.rankingId
    createdAt := result.finalizedAt
    resultJson := S.result.toText result }

/-- The outbox entry a fresh result queues for its action. -/
def ResultRecord.entry (result : ResultRecord) (action : WinnerAction) :
    OutboxRow T :=
  { actionId := action.actionId
    idempotencyKey := S.winnerKey result.competitionId result.generation
    actionJson := S.action.toText action
    status := .pending
    createdAt := result.finalizedAt
    updatedAt := result.finalizedAt }

variable {db' db : Db T} {action : WinnerAction}

/-- A fresh result with an action was committed: the action is the
expected one of the stored definition, and both rows are in place. -/
theorem commitResult_eq_ok {result : ResultRecord} {owner : Option String}
    (h : commitResult S db result (some action) owner = .ok db') :
    ∃ row definition,
      db.definitions[result.competitionId]? = some row
        ∧ S.definition.fromText row.definitionJson = some definition
        ∧ definition.expectedAction result.selection.winner = some action
        ∧ db'.results[scope result.competitionId result.generation]?
          = some (result.row S)
        ∧ db'.outbox[scope result.competitionId result.generation]?
          = some (result.entry S action) := by
  obtain ⟨_, _, h⟩ := bind_eq_ok.1 h
  obtain ⟨row, hr, h⟩ := bind_eq_ok.1 h
  obtain ⟨text, ht, h⟩ := bind_eq_ok.1 h
  obtain ⟨definition, hd, h⟩ := bind_eq_ok.1 h
  obtain ⟨state, hs, h⟩ := bind_eq_ok.1 h
  obtain ⟨_, hmt, h⟩ := bind_eq_ok.1 h
  obtain ⟨_, ha, h⟩ := bind_eq_ok.1 h
  simp only [ensure_eq_ok] at ha
  obtain ⟨_, _, h⟩ := bind_eq_ok.1 h
  injection h with h
  refine ⟨row, definition, okOr_eq_ok.1 hr, okOr_eq_ok.1 hd, ha.symm, ?_, ?_⟩
  · rw [← h]
    exact Table.get_insert_self _ _ _
  · rw [← h]
    exact Table.get_insert_self _ _ _

/-- A store call that reports a fresh commit ran `commitResult` on a
proposal that passed its checks. -/
theorem storeCompetitionResultOnce_eq_ok {result stored : ResultRecord}
    {action : Option WinnerAction} {owner : Option String}
    (h : storeCompetitionResultOnce S db result action owner
      = .ok (db', stored, true)) :
    checkProposal result action = .ok ()
      ∧ commitResult S db result action owner = .ok db' := by
  obtain ⟨_, hcheck, h⟩ := bind_eq_ok.1 h
  split at h
  · obtain ⟨_, _, h⟩ := bind_eq_ok.1 h
    injection h with h
    injection h with _ h
    injection h with _ h
    cases h
  · obtain ⟨after, hc, h⟩ := bind_eq_ok.1 h
    injection h with h
    injection h with h _
    subst h
    exact ⟨hcheck, hc⟩

theorem checkProposal_eq_ok {result : ResultRecord}
    (h : checkProposal result (some action) = .ok ()) :
    (result.schemaVersion = 1 ∧ result.competitionId ≠ ""
      ∧ result.competitionId.utf8ByteSize ≤ 128
      ∧ result.rankingId ≠ "" ∧ result.rankingId.utf8ByteSize ≤ 128
      ∧ result.generation ≤ i64Max ∧ result.finalizedAt ≤ i64Max
      ∧ result.selection.eligible.length ≤ 100000)
    ∧ result.selection.validate = .ok ()
    ∧ action.actionId ≠ "" ∧ action.actionId.utf8ByteSize ≤ 128
    ∧ result.selection.winner ≠ none := by
  obtain ⟨_, hb, h⟩ := bind_eq_ok.1 h
  obtain ⟨_, hv, h⟩ := bind_eq_ok.1 h
  exact ⟨ensure_eq_ok.1 hb, ensure_eq_ok.1 hv, ensure_eq_ok.1 h⟩

omit [DecidableEq T] in
/-- A stored result is read back as itself, unless its generation is
the zero no started competition has. -/
theorem decodeResult_row {result : ResultRecord}
    (h : checkProposal result (some action) = .ok ())
    (hg : 0 < result.generation) :
    decodeResult S result.competitionId result.generation
      (result.row S).rankingId (result.row S).createdAt
      (result.row S).resultJson = .ok result := by
  obtain ⟨⟨hv, hid, hi, hr, hrl, _⟩, hvl, _⟩ := checkProposal_eq_ok h
  simp [decodeResult, ResultRecord.row, S.result_readsBack, hv, hid,
    hi, hr, hrl, hg, hvl]

omit [DecidableEq T] in
theorem decodeResult_zero (id r : String) (ca : Nat)
    (j : T) (result : ResultRecord) :
    decodeResult S id 0 r ca j ≠ .ok result := by
  intro h
  obtain ⟨_, _, h⟩ := bind_eq_ok.1 h
  obtain ⟨_, hcheck, _⟩ := bind_eq_ok.1 h
  simp at hcheck

variable {claim : ActionClaim T} {core : Core T}

omit [DecidableEq T] in
/-- What the worker loads for a claim on a committed row: the committed
result, or nothing at all for generation zero. -/
theorem claimedResult_row {result : ResultRecord}
    (hcheck : checkProposal result (some action) = .ok ())
    (hid : claim.competitionId = result.competitionId)
    (h : claim.generation = result.generation)
    (hr : core.db.results[scope result.competitionId
      result.generation]? = some (result.row S)) :
    core.claimedResult S claim
      = if result.generation = 0 then none else some result := by
  have hb := (checkProposal_eq_ok hcheck).1.2.2.2.2.2.1
  unfold Core.claimedResult loadCompetitionResult
  rw [hid, h, hr, ensure_true hb]
  by_cases hz : result.generation = 0
  · simp only [hz]
    cases hd : decodeResult S result.competitionId 0
      (result.row S).rankingId (result.row S).createdAt
      (result.row S).resultJson with
    | error e => simp
    | ok r => exact absurd hd (decodeResult_zero S _ _ _ _ r)
  · have hd := decodeResult_row S hcheck (Nat.pos_of_ne_zero hz)
    simp [hd, hz, pure, Except.pure]

variable {now generation : Nat}

/-- A claim that stands carries the action its entry's text reads back
as, under the action id of the entry. -/
theorem claim_entry {id : String} {row : OutboxRow T}
    (hr : db.outbox[scope id generation]? = some row)
    (h : claimCompetitionActionDetailed S db id generation now
      = .ok (db', .claimed claim)) :
    db'.results = db.results ∧ claim.competitionId = id
      ∧ claim.generation = generation
      ∧ validEntry S id generation row = some claim.action := by
  obtain ⟨_, _, h⟩ := bind_eq_ok.1 h
  simp only [hr] at h
  split at h
  · injection h with h
    injection h with _ h
    cases h
  · cases hv : validEntry S id generation row with
    | none =>
      rw [hv] at h
      injection h with h
      injection h with _ h
      cases h
    | some action =>
      rw [hv] at h
      injection h with h
      injection h with hdb hc
      injection hc with hc
      subst hdb hc
      exact ⟨rfl, rfl, rfl, rfl⟩

variable {read : WinnerAction}

section

variable {result : ResultRecord}
  (hcheck : checkProposal result (some action) = .ok ())
include hcheck

/-- A fresh entry is valid exactly when its text reads back under its
own action id. -/
theorem validEntry_entry :
    validEntry S result.competitionId result.generation
        (result.entry S action) = some read
      ↔ S.action.fromText (S.action.toText action) = some read
        ∧ read.actionId = action.actionId := by
  obtain ⟨_, _, hid, hl, _⟩ := checkProposal_eq_ok hcheck
  unfold validEntry ResultRecord.entry
  cases hr : S.action.fromText (S.action.toText action) with
  | none => simp
  | some back =>
    simp only [hid, hl, ne_eq, not_false_eq_true, and_true]
    split
    · rename_i he
      simp only [Option.some.injEq]
      constructor
      · intro h
        exact ⟨h, h ▸ he⟩
      · intro h
        exact h.1
    · rename_i he
      simp only [Option.some.injEq, reduceCtorEq, false_iff, not_and]
      intro h
      exact h ▸ he

theorem claim_fresh
    (h : db.outbox[scope result.competitionId result.generation]?
      = some (result.entry S action))
    (hr : validEntry S result.competitionId result.generation
      (result.entry S action) = some read) (now : Nat) :
    ∃ db', claimCompetitionActionDetailed S db result.competitionId
        result.generation now
      = .ok (db', .claimed
          { competitionId := result.competitionId
            generation := result.generation
            idempotencyKey := (result.entry S action).idempotencyKey
            action := read }) := by
  have hb := (checkProposal_eq_ok hcheck).1.2.2.2.2.2.1
  have hp : (result.entry S action).status = .pending := rfl
  unfold claimCompetitionActionDetailed
  rw [ensure_true hb]
  simp only [ok_bind, h, hr, hp, ne_eq, not_true_eq_false, if_false]
  exact ⟨_, rfl⟩

end

variable (keyText : T → String)

omit [DecidableEq T] in
theorem prepareAction_mismatch_iff (core : Core T) (claim : ActionClaim T) :
    prepareAction S keyText core claim
        = .error "action_reference_mismatch"
      ↔ ∃ result definition winner,
          core.claimedResult S claim = some result
          ∧ core.competitionGet claim.competitionId = some definition
          ∧ result.selection.winner = some winner
          ∧ definition.optionAction winner ≠ some claim.action := by
  unfold prepareAction
  simp only [bind_eq_error, okOr_eq_error, okOr_eq_ok, ensure_eq_error,
    String.reduceEq, and_false, false_or, and_true, exists_and_left,
    reduceCtorEq, pure, Except.pure]
  aesop

-- ==== the reference check

/-- When the worker's reference will be the action it claimed. The
claimed action is what the queued text reads back as; an entry whose
text reads back under another id, or not at all, is never claimed. An
option winner only needs the action to read back as itself. A user
winner needs an option that bears the winner's id and carries the very
action. -/
def ReferenceAgrees (definition : Definition) (winner : String)
    (action : WinnerAction) : Prop :=
  ∀ read, S.action.fromText (S.action.toText action) = some read →
    read.actionId = action.actionId →
    if definition.kind.userWinner then
      definition.optionAction winner = some read
    else read = action

omit [DecidableEq T] in
/-- For an expected action the references agree exactly when the option
found under the winner's id carries what is read back. -/
theorem referenceAgrees_iff {definition : Definition} {winner : String}
    (hed : definition.expectedAction (some winner) = some action) :
    ReferenceAgrees S definition winner action
      ↔ ∀ read,
          S.action.fromText (S.action.toText action) = some read →
          read.actionId = action.actionId →
          definition.optionAction winner = some read := by
  unfold ReferenceAgrees
  cases hk : definition.kind.userWinner with
  | true => simp
  | false =>
    rw [definition.expectedAction_option winner hk] at hed
    simp only [Bool.false_eq_true, if_false, hed, Option.some.injEq, eq_comm]

omit [DecidableEq T] in
/-- The outcome reason of an execution is the reference mismatch
exactly when preparation failed with it. -/
theorem executeCompetitionAction_mismatch
    (r : Json → Json → Run) (core : Core T)
    (claim : ActionClaim T) (now : Nat) :
    (executeCompetitionAction S keyText r core claim now).2.2
        = some "action_reference_mismatch"
      ↔ prepareAction S keyText core claim
        = .error "action_reference_mismatch" := by
  have ho : (executeCompetitionAction S keyText r core claim
      now).2 = match prepareAction S keyText core claim with
        | .error re => (ActionStatus.failed, some re)
        | .ok (action, e) => runOutcome (r action e) := by
    unfold executeCompetitionAction
    cases prepareAction S keyText core claim <;> (dsimp only; split <;> rfl)
  rw [ho]
  cases prepareAction S keyText core claim with
  | error re => simp
  | ok p => cases h : r p.1 p.2 <;> simp [h, runOutcome]

theorem dispatch_claimed (r : Json → Json → Run) {id : String}
    (h : claimCompetitionActionDetailed S core.db id generation now
      = .ok (db, .claimed claim)) :
    dispatchCompetitionAction S keyText r core id generation now
      = .ok ((executeCompetitionAction S keyText r
          { core with db } claim now).1,
        some (executeCompetitionAction S keyText r
          { core with db } claim now).2) := by
  unfold dispatchCompetitionAction
  rw [h]

theorem dispatch_eq_ok (r : Json → Json → Run)
    {c' : Core T} {id : String} {o : ActionStatus × Option String}
    (h : dispatchCompetitionAction S keyText r core id generation
      now = .ok (c', some o)) :
    ∃ db claim,
      claimCompetitionActionDetailed S core.db id generation now
        = .ok (db, .claimed claim)
      ∧ o = (executeCompetitionAction S keyText r
          { core with db } claim now).2 := by
  cases hc : claimCompetitionActionDetailed S core.db id generation now with
  | error e =>
    unfold dispatchCompetitionAction at h
    rw [hc] at h
    cases h
  | ok p =>
    obtain ⟨db, f⟩ := p
    cases f with
    | claimed claim =>
      rw [dispatch_claimed S keyText r hc] at h
      injection h with h
      injection h with _ h
      injection h with h
      exact ⟨db, claim, rfl, h.symm⟩
    | missing =>
      unfold dispatchCompetitionAction at h
      rw [hc] at h
      injection h with h
      injection h with _ h
      cases h
    | invalid actionId =>
      unfold dispatchCompetitionAction at h
      rw [hc] at h
      injection h with h
      injection h with _ h
      cases h

section

variable {db db' : Db T} {result stored : ResultRecord}
  {action : WinnerAction} {owner : Option String}
  {row : DefinitionRow T} {definition : Definition} {winner : String}

/-- A winner's action passes the worker's reference check exactly when
the references agree. Between the commit and the dispatch anything may
happen to the host, so long as the definition, the stored result and
the queued entry stand. -/
theorem winner_action_passes_reference_check_iff
    (hstore : storeCompetitionResultOnce S db result (some action) owner
      = .ok (db', stored, true))
    (hrow : db.definitions[result.competitionId]? = some row)
    (hdef : S.definition.fromText row.definitionJson = some definition)
    (hwinner : result.selection.winner = some winner)
    (keyText : T → String) (runtime : Json → Json → Run)
    (core : Core T)
    (hmem : core.competitionGet result.competitionId = some definition)
    (hresult : core.db.results[scope result.competitionId
        result.generation]?
      = db'.results[scope result.competitionId result.generation]?)
    (hentry : core.db.outbox[scope result.competitionId
        result.generation]?
      = db'.outbox[scope result.competitionId result.generation]?) :
    (∀ now core' outcome,
      dispatchCompetitionAction S keyText runtime core
          result.competitionId result.generation now
        = .ok (core', some outcome) →
      outcome.2 ≠ some "action_reference_mismatch")
    ↔ result.generation = 0 ∨ ReferenceAgrees S definition winner action := by
  obtain ⟨hcheck, hcm⟩ := storeCompetitionResultOnce_eq_ok S hstore
  obtain ⟨row', definition', hrow', hdef', hed, hres, hout⟩ :=
    commitResult_eq_ok S hcm
  rw [hres] at hresult
  rw [hout] at hentry
  rw [hrow] at hrow'
  injection hrow' with hrow'
  subst hrow'
  rw [hdef] at hdef'
  injection hdef' with hdef'
  subst hdef'
  rw [hwinner] at hed
  rw [referenceAgrees_iff S hed]
  constructor
  · intro hp
    by_cases hz : result.generation = 0
    · exact .inl hz
    right
    intro read hr hid
    -- the entry is claimable, so a mismatch would be reported
    have hv := (validEntry_entry S hcheck).2 ⟨hr, hid⟩
    obtain ⟨c, hcl⟩ := claim_fresh S hcheck hentry hv 0
    have hf := (claim_entry S hentry hcl).1
    by_contra hne
    have hms := (prepareAction_mismatch_iff S keyText
      { core with db := c }
      { competitionId := result.competitionId
        generation := result.generation
        idempotencyKey := (result.entry S action).idempotencyKey
        action := read }).2 ⟨result, definition, winner, by
          rw [claimedResult_row S hcheck rfl rfl (by rw [hf]; exact hresult)]
          simp [hz], hmem, hwinner, hne⟩
    rw [← executeCompetitionAction_mismatch S keyText runtime _ _ 0] at hms
    exact hp 0 _ _ (dispatch_claimed S keyText runtime hcl) hms
  · intro hok now core' outcome hd
    obtain ⟨c, claim, hcl, ho⟩ := dispatch_eq_ok S keyText runtime hd
    obtain ⟨hf, hid, hgen, hv⟩ := claim_entry S hentry hcl
    rw [ho, ne_eq, executeCompetitionAction_mismatch,
      prepareAction_mismatch_iff]
    intro hms
    obtain ⟨loaded, found, chosen, hl, hfn, hc, hne⟩ := hms
    rw [claimedResult_row S hcheck hid hgen (by rw [hf]; exact hresult)] at hl
    rcases hok with hz | ha
    · simp [hz] at hl
    · split at hl
      · cases hl
      · injection hl with hl
        subst hl
        have hs : core.competitionGet claim.competitionId = some found := hfn
        rw [hid, hmem] at hs
        injection hs with hs
        subst hs
        rw [hwinner] at hc
        injection hc with hc
        subst hc
        obtain ⟨hr, hkey⟩ := (validEntry_entry S hcheck).1 hv
        exact hne (ha _ hr hkey)

end

-- ==== two competitions

/-- Texts that are the values they encode: the smallest faithful
serializer. -/
inductive PlainText where
  | definition (d : Definition)
  | state (s : LifecycleState)
  | result (r : ResultRecord)
  | action (a : WinnerAction)
  | key (id : String) (generation : Nat)
  deriving DecidableEq

def plainCodec : Codec PlainText where
  definition := ⟨.definition, fun | .definition d => some d | _ => none⟩
  state := ⟨.state, fun | .state s => some s | _ => none⟩
  result := ⟨.result, fun | .result r => some r | _ => none⟩
  action := ⟨.action, fun | .action a => some a | _ => none⟩
  winnerKey := .key
  state_readsBack := fun _ => rfl
  result_readsBack := fun _ => rfl

/-- The action both competitions hand out. -/
def confetti : WinnerAction := ⟨"confetti", .null⟩

def poll : Definition where
  id := "lunch"
  name := "Lunch"
  kind := .poll
  rankingId := "votes"
  options := [{ id := "pizza", label := "Pizza", onWin := some confetti },
    { id := "sushi", label := "Sushi" }]
  selectionMode := .highestScore
  tiePolicy := .stable
  voteLimit := 1

def challenge : Definition where
  id := "race"
  name := "Race"
  kind := .leaderboardChallenge
  rankingId := "gifts"
  options := []
  selectionMode := .highestScore
  tiePolicy := .stable
  voteLimit := 1
  targetScore := some 100
  onUserWin := some confetti

/-- A finished round of a definition. -/
def roundResult (definition : Definition) (winner : String) :
    ResultRecord where
  schemaVersion := 1
  competitionId := definition.id
  generation := 1
  rankingId := definition.rankingId
  rankingRevision := 7
  finalizedAt := 1000
  selection :=
    { mode := definition.selectionMode
      tiePolicy := definition.tiePolicy
      eligible := [⟨winner, 120⟩]
      winner := some winner }

/-- A database whose one competition is waiting for its result. -/
def finalizingDb (definition : Definition) : Db PlainText where
  definitions := Table.single definition.id
    { rankingId := definition.rankingId
      definitionJson := .definition definition }
  states := Table.single definition.id
    (.state { lifecycle := .finalizing, generation := 1 })

/-- The database after the round's result was committed with its
action. -/
def finishedDb (definition : Definition) (winner : String) :
    Db PlainText :=
  let result := roundResult definition winner
  { finalizingDb definition with
    states := (finalizingDb definition).states.insert definition.id
      (.state { lifecycle := .finished, generation := 1 })
    results := Table.single (scope definition.id 1) (result.row plainCodec)
    outbox := Table.single (scope definition.id 1)
      (result.entry plainCodec confetti) }

def finishedCore (definition : Definition) (winner : String) :
    Core PlainText where
  db := finishedDb definition winner
  definitions := Table.single definition.id definition

/-- A viewer wins a leaderboard challenge whose definition rewards user
winners; the ledger commits the reward with the result, and the worker
then fails it, because no option bears the viewer's id. -/
theorem challenge_winner_action_mismatch :
    storeCompetitionResultOnce plainCodec (finalizingDb challenge)
        (roundResult challenge "viewer") (some confetti) none
      = .ok (finishedDb challenge "viewer",
          roundResult challenge "viewer", true)
    ∧ ∃ core, dispatchCompetitionAction plainCodec (fun _ => "key")
          (fun _ _ => .ok) (finishedCore challenge "viewer") "race" 1 2000
        = .ok (core, some (.failed, some "action_reference_mismatch")) :=
  ⟨rfl, _, rfl⟩

/-- The condition decides the poll: its winner's action passes. -/
theorem poll_winner_action_passes :
    (∀ now core' outcome,
      dispatchCompetitionAction plainCodec (fun _ => "key")
          (fun _ _ => .ok) (finishedCore poll "pizza") "lunch" 1 now
        = .ok (core', some outcome) →
      outcome.2 ≠ some "action_reference_mismatch")
    ↔ (roundResult poll "pizza").generation = 0
      ∨ ReferenceAgrees plainCodec poll "pizza" confetti :=
  @winner_action_passes_reference_check_iff PlainText _ plainCodec
    (finalizingDb poll) (finishedDb poll "pizza")
    (roundResult poll "pizza") (roundResult poll "pizza") confetti none
    _ poll "pizza" rfl rfl rfl rfl (fun _ => "key") (fun _ _ => .ok)
    (finishedCore poll "pizza") rfl rfl rfl

end TikTools.Competitions
