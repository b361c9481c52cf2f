/-
What an operation on the engine is for one of its rankings.

An operation leaves a ranking alone, gives it one turn, creates it or
removes it (`perform_passed`). So what a new ranking has and every turn
keeps, every ranking of a reachable engine has (`Reachable.kept`); the
first such property is `Ranking.Sane`: the scores are in order, and
those of a rolling ranking are the sums of its window.
-/
import TikTools.Aggregation.Rolling

namespace TikTools.Aggregation

open TikTools.Lib Std Option Table Effect

namespace Ranking

-- ==== turns

/-- A ranking nothing was counted for. -/
def fresh (definition : Definition) (number : Nat)
    (bytes : Vector UInt8 16) : Ranking where
  definition
  number
  instanceId := hexId bytes
  state := Aggregation.new definition.capacity
  paused := false
  rejected := 0
  dropped := 0
  windowEvents := []
  lastTime := 0
  users := ∅
  limited := 0
  cooldownRejected := 0

/-- What can happen to a ranking that stays. -/
inductive Turn where
  | restoreSessionCheckpoint (checkpoint : SessionCheckpoint)
  | restoreAssignments (totals scored : List (String × Nat))
  | applyAssignment (before : Option (String × Nat)) (next : String × Nat)
  | applyCommittedScore (option : String) (value : Nat)
  | setEntryMetadata (key : String) (data : EntryMetadata)
  | contribute (contribution : Contribution) (now : Nat)
      (user gift : Option EntryMetadata)
  | expireAt (now : Nat)
  | markRankingGap
  | markRecoveryGap
  | markGap (creatorId roomId source : String)
      (concerns : SourceRule → Bool)
  | markIngressLoss (count : Nat)
  | reset
  | setPaused (paused : Bool)
  | redefine (definition : Definition) (clear : Bool)

/-- The ranking after a turn, whether it succeeded or not. -/
def take (ranking : Ranking) : Turn → Ranking
  | .restoreSessionCheckpoint checkpoint =>
    (Effect.change (Ranking.restoreSessionCheckpoint checkpoint) ranking).2
  | .restoreAssignments totals scored =>
    (Effect.change (fun ranking =>
      ranking.restoreAssignmentsWithScores totals scored) ranking).2
  | .applyAssignment before next =>
    (Ranking.applyAssignment before next ranking).2
  | .applyCommittedScore option value =>
    (Ranking.applyCommittedScore option value ranking).2
  | .setEntryMetadata key data =>
    (Effect.change (Ranking.setEntryMetadata key data) ranking).2
  | .contribute contribution now user gift =>
    (ranking.contribute contribution now user gift).1
  | .expireAt now => ranking.expireOne now
  | .markRankingGap => ranking.markRankingGap
  | .markRecoveryGap => (Ranking.markRecoveryGap ranking).2
  | .markGap creatorId roomId source concerns =>
    ranking.markGap creatorId roomId source concerns
  | .markIngressLoss count => Ranking.markIngressLoss count ranking
  | .reset => (Effect.change Ranking.reset ranking).2
  | .setPaused paused => (Effect.change (Ranking.setPaused paused)
      ranking).2
  | .redefine definition clear =>
    (Effect.change (Ranking.redefine definition clear) ranking).2

/-- A definition is replaced by a valid one while the ranking is paused,
and by one that counts otherwise only together with a reset. -/
def Turn.Fits (ranking : Ranking) : Turn → Prop
  | .redefine definition clear => definition.valid = true
      ∧ ranking.paused = true
      ∧ ({ ranking.definition with limit := definition.limit } = definition
        ∨ clear = true)
  | _ => True

def Turn.restores : Turn → Bool
  | .restoreSessionCheckpoint _ => true
  | _ => false

/-- A turn that is neither of the following leaves alone what limits are
about: a contribution, time that passes, a reset, another definition and
a restored checkpoint. -/
def Turn.unlimited : Turn → Bool
  | .contribute .. | .expireAt _ | .reset | .redefine ..
  | .restoreSessionCheckpoint _ => false
  | _ => true

/-- All that such a turn can make of a ranking. -/
inductive InPlace (ranking : Ranking) : Ranking → Prop
  | kept : InPlace ranking ranking
  | fault : InPlace ranking ranking.fault
  | applied {state : Aggregation} {key : String} {delta weight w : Nat}
      (hweight : ranking.definition.assignmentWeight = .ok w)
      (h : ranking.state.apply key delta weight = .ok state) :
      InPlace ranking { ranking with state }
  | reassigned {state : Aggregation} {source target : String}
      {amount additional w : Nat}
      (hweight : ranking.definition.assignmentWeight = .ok w)
      (h : ranking.state.reassign source target amount additional
        = .ok state) : InPlace ranking { ranking with state }
  | recounted {totals scored : List (String × Nat)}
      {votes state : Aggregation} {w : Nat}
      (hweight : ranking.definition.assignmentWeight = .ok w)
      (hvotes : applyOnce w totals []
        (Aggregation.new ranking.definition.capacity) = .ok votes)
      (hscored : applyOnce 1 scored [] votes = .ok state)
      (hrevision : ranking.state.revision + 1 ≤ u64Max) :
      InPlace ranking { ranking with
        state := { state with revision := ranking.state.revision + 1 } }
  | described {state : Aggregation} (h : ranking.state.touch = .ok state)
      (metadata : Table String EntryMetadata) :
      InPlace ranking { ranking with state := { state with metadata } }
  | paused {state : Aggregation} (h : ranking.state.touch = .ok state)
      (paused : Bool) : InPlace ranking { ranking with state, paused }
  | recovered {state : Aggregation} (h : ranking.state.touch = .ok state) :
      InPlace ranking { ranking.reject with state }
  | unshown {error : Error} (h : ranking.state.touch = .error error) :
      InPlace ranking ranking.reject
  | lost (dropped : Nat) :
      InPlace ranking { ranking with
        dropped, state := touched ranking.state }

variable {ranking : Ranking}

section

variable {change : Ranking → Except Error Ranking}
  (h : ∀ next, change ranking = .ok next → InPlace ranking next)
include h

theorem inPlace_change :
    InPlace ranking (Effect.change change ranking).2 := by
  unfold Effect.change
  split
  · next next hn => exact h next hn
  · exact .kept

theorem inPlace_orFault :
    InPlace ranking (orFault change ranking).2 := by
  unfold orFault
  split
  · next next hn => exact h next hn
  · exact .fault

end

theorem inPlace_applyAssignment (b : Option (String × Nat))
    (row : String × Nat) :
    InPlace ranking (applyAssignment b row ranking).2 := by
  unfold applyAssignment
  rw [look_bind]
  split
  case h_2 => exact .kept
  case h_1 change hl =>
    obtain ⟨weight, hw, hl⟩ := bind_eq_ok.1 hl
    obtain ⟨-, hl⟩ := ensure_ok.1 hl
    obtain ⟨delta, -, hl⟩ := okOr_ok.1 hl
    unfold assignmentMove at hl
    refine inPlace_orFault fun next hn => ?_
    split at hl
    · cases hl
      obtain ⟨s, hs, hn⟩ := bind_eq_ok.1 hn
      cases hn
      exact .applied hw hs
    · split at hl
      · cases hl
        cases hn
        exact .kept
      · obtain ⟨amount, -, hl⟩ := okOr_ok.1 hl
        obtain ⟨additional, -, hl⟩ := okOr_ok.1 hl
        cases hl
        obtain ⟨s, hs, hn⟩ := bind_eq_ok.1 hn
        cases hn
        exact .reassigned hw hs

theorem take_inPlace (turn : Turn) (h : turn.unlimited = true) :
    InPlace ranking (ranking.take turn) := by
  cases turn with
  | restoreSessionCheckpoint | contribute | expireAt | reset
  | redefine => cases h
  | restoreAssignments totals scored =>
    refine inPlace_change fun next hn => ?_
    obtain ⟨weight, hw, hn⟩ := bind_eq_ok.1 hn
    obtain ⟨revision, hr, hn⟩ := okOr_ok.1 hn
    obtain ⟨hle, rfl⟩ := checkedAdd_eq_some.1 hr
    obtain ⟨votes, hv, hn⟩ := bind_eq_ok.1 hn
    obtain ⟨state, hsc, hn⟩ := bind_eq_ok.1 hn
    cases hn
    exact .recounted hw hv hsc hle
  | applyAssignment before row => exact inPlace_applyAssignment before row
  | applyCommittedScore option value =>
    show InPlace ranking (applyCommittedScore option value ranking).2
    unfold applyCommittedScore
    rw [look_bind]
    split
    case h_2 => exact .kept
    case h_1 hl =>
      obtain ⟨weight, hw, -⟩ := bind_eq_ok.1 hl
      refine inPlace_orFault fun next hn => ?_
      obtain ⟨state, hs, hn⟩ := bind_eq_ok.1 hn
      cases hn
      exact .applied hw hs
  | setEntryMetadata key data =>
    refine inPlace_change fun next hn => ?_
    unfold setEntryMetadata at hn
    dsimp only at hn
    split at hn
    · cases hn
      exact .kept
    · split at hn
      · cases hn
        exact .kept
      · obtain ⟨state, hs, hn⟩ := bind_eq_ok.1 hn
        cases hn
        exact .described hs _
  | markRankingGap =>
    show InPlace ranking ranking.markRankingGap
    unfold markRankingGap
    split
    · exact .kept
    · exact .fault
  | markRecoveryGap =>
    show InPlace ranking (Effect.change _ ranking.reject).2
    unfold Effect.change
    split
    · next next hn =>
      obtain ⟨state, hs, hn⟩ := bind_eq_ok.1 hn
      cases hn
      exact .recovered hs
    · next hn =>
      rcases bind_eq_error.1 hn with ht | ⟨state, -, hn⟩
      · exact .unshown ht
      · cases hn
  | markGap creatorId roomId source concerns =>
    show InPlace ranking (ranking.markGap creatorId roomId source concerns)
    unfold markGap
    split
    · exact .fault
    · exact .kept
  | markIngressLoss count =>
    show InPlace ranking (markIngressLoss count ranking)
    unfold markIngressLoss
    split
    · exact .kept
    · exact .lost _
  | setPaused paused =>
    refine inPlace_change fun next hn => ?_
    unfold setPaused at hn
    split at hn
    · obtain ⟨state, hs, hn⟩ := bind_eq_ok.1 hn
      cases hn
      exact .paused hs paused
    · cases hn
      exact .kept

end Ranking

variable {engine : Engine}

namespace Engine

def Op.restores : Op → Bool
  | .restoreSessionCheckpoint _ => true
  | _ => false

/-- What an operation makes of the ranking with an id. -/
inductive Passed (engine : Engine) (id : String) :
    Op → Option Ranking → Prop
  | stayed {op : Op} : Passed engine id op engine.rankings[id]?
  | turned {op : Op} {ranking : Ranking} (turn : Ranking.Turn)
      (hranking : engine.rankings[id]? = some ranking)
      (hfits : turn.Fits ranking)
      (hrestores : turn.restores = op.restores) :
      Passed engine id op (some (ranking.take turn))
  | created {identity : Identity} {definition : Definition}
      (bytes : Vector UInt8 16) (hid : definition.id = id)
      (hvalid : definition.valid = true)
      (hnew : engine.rankings[id]? = none)
      (hnumber : engine.nextInstance + 1 ≤ u64Max) :
      Passed engine id (.create identity definition)
        (some (.fresh definition (engine.nextInstance + 1) bytes))
  | removed : Passed engine id (.remove id) none

-- ==== operations

theorem get_within (id other : String) (act : Effect Ranking Error Unit)
    (engine : Engine) : (within id act engine).2.rankings[other]?
      = if id = other then engine.rankings[id]?.map fun ranking =>
          (act ranking).2
        else engine.rankings[other]? := by
  unfold within
  cases hr : engine.rankings[id]? with
  | none =>
    dsimp only
    split
    · next hs => rw [← hs, hr]; rfl
    · rfl
  | some ranking =>
    rw [get_insert]
    rfl

variable {other id : String} {op : Op}

theorem passed_within {act : Effect Ranking Error Unit} (t : Ranking.Turn)
    (ha : ∀ ranking, (act ranking).2 = ranking.take t)
    (hf : ∀ ranking, t.Fits ranking)
    (hrs : t.restores = op.restores) :
    Passed engine other op (within id act engine).2.rankings[other]? := by
  rw [get_within]
  split
  · next hs =>
    subst hs
    cases hr : engine.rankings[id]? with
    | none =>
      rw [map_none, ← hr]
      exact .stayed
    | some ranking =>
      rw [map_some, ha]
      exact .turned t hr (hf ranking) hrs
  · exact .stayed

theorem passed_forSource
    (hn : NamedOnce engine.bySource) {s : String}
    {act : Ranking → Ranking × Option Error} (t : Ranking.Turn)
    (ha : ∀ ranking, (act ranking).1 = ranking.take t)
    (hf : ∀ ranking, t.Fits ranking)
    (hrs : t.restores = op.restores) :
    Passed engine id op (engine.forSource s act).1.rankings[id]? := by
  rw [get_forSource _ _ _ hn]
  cases hr : engine.rankings[id]? with
  | none =>
    rw [map_none, ← hr]
    exact .stayed
  | some ranking =>
    rw [map_some]
    split
    · rw [ha]
      exact .turned t hr (hf ranking) hrs
    · rw [← hr]
      exact .stayed

theorem passed_forAll {act : Ranking → Ranking}
    (t : Ranking.Turn) (ha : ∀ ranking, act ranking = ranking.take t)
    (hf : ∀ ranking, t.Fits ranking)
    (hrs : t.restores = op.restores) :
    Passed engine id op (engine.forAll act).rankings[id]? := by
  show Passed engine id op (ExtTreeMap.map _ engine.rankings)[id]?
  rw [Table.get_map]
  cases hr : engine.rankings[id]? with
  | none =>
    rw [map_none, ← hr]
    exact .stayed
  | some ranking =>
    rw [map_some, ha]
    exact .turned t hr (hf ranking) hrs

theorem passed_create (i : Identity) (d : Definition) :
    Passed engine id (.create i d) (create i d engine).2.rankings[id]? := by
  have hs : ∀ {c : Engine → Prop} [∀ e, Decidable (c e)]
      {er : DefinitionError} {r : Effect Engine DefinitionError Unit},
      (c engine → Passed engine id (.create i d) (r engine).2.rankings[id]?) →
      Passed engine id (.create i d)
        (((Effect.look fun e => ensure (c e) er)
          >>= fun _ => r) engine).2.rankings[id]? := by
    intro c _ er r hr
    by_cases hc : c engine
    · rw [bind_ok (f := fun _ => r)
        (look_ok (ensure_true hc))]
      exact hr hc
    · rw [bind_error (f := fun _ => r)
        (look_error (ensure_eq_error.2 ⟨hc, rfl⟩))]
      exact .stayed
  refine hs fun _ => hs fun hv => hs fun hnew => ?_
  cases i with
  | none => exact .stayed
  | some b =>
    show Passed engine id _ (Effect.change _
      { engine with
        bySource := indexSources engine.bySource d
      }).2.rankings[id]?
    unfold Effect.change
    split
    · next after ha =>
      obtain ⟨number, hn, ha⟩ := okOr_ok.1 ha
      obtain ⟨hle, rfl⟩ := checkedAdd_eq_some.1 hn
      cases ha
      show Passed engine id _ (engine.rankings.insert d.id
        (Ranking.fresh d (engine.nextInstance + 1) b))[id]?
      rw [get_insert]
      split
      · next hid =>
        rw [isNone_iff_eq_none, hid] at hnew
        exact .created b hid hv hnew hle
      · exact .stayed
    · exact .stayed

theorem passed_update (identity : Identity)
    (definition : Definition) (reset : Bool) :
    Passed engine id (.update identity definition reset)
      (update identity definition reset engine).2.rankings[id]? := by
  unfold update
  cases hc : validateUpdate identity definition reset engine with
  | error error =>
    rw [bind_error (look_error hc)]
    exact .stayed
  | ok u =>
    rw [bind_ok (look_ok hc)]
    obtain ⟨_, hcr, hc⟩ := bind_eq_ok.1 hc
    obtain ⟨current, hcur, hc⟩ := okOr_ok.1 hc
    obtain ⟨hp, hc⟩ := ensure_ok.1 hc
    obtain ⟨hs, -⟩ := ensure_ok.1 hc
    have hv : definition.valid = true := (created (Prod.ext hcr rfl)).1
    show Passed engine id _ (Effect.change _
      { engine with
        bySource := indexSources
          (dropSources engine.bySource definition.id) definition
      }).2.rankings[id]?
    unfold Effect.change
    split
    · next after ha =>
      obtain ⟨ranking, hr, ha⟩ := okOr_ok.1 ha
      split at ha
      · next next hn =>
        cases ha
        show Passed engine id _
          (engine.rankings.insert definition.id next)[id]?
        rw [get_insert]
        split
        · next hid =>
          have hf : some ranking = some current := hr.symm.trans hcur
          cases hf
          rw [hid] at hcur
          have ht : next
              = current.take (.redefine definition reset) := by
            unfold Ranking.take
            dsimp only
            rw [change_ok hn]
          rw [ht]
          exact .turned (.redefine definition reset) hcur ⟨hv, hp, hs⟩ rfl
        · exact .stayed
      · cases ha
    · exact .stayed

theorem passed_remove :
    Passed engine other (.remove id) (engine.remove id).rankings[other]?
    := by
  unfold remove
  split
  · exact .stayed
  · show Passed engine other _ (engine.rankings.erase id)[other]?
    rw [get_erase]
    split
    · next hid =>
      subst hid
      exact .removed
    · exact .stayed

theorem perform_passed
    (hn : NamedOnce engine.bySource) (op : Op) (id : String) :
    Passed engine id op (engine.perform op).rankings[id]? := by
  cases op with
  | create identity definition => exact passed_create identity definition
  | update identity definition reset =>
    exact passed_update identity definition reset
  | restoreSessionCheckpoint ch =>
    exact passed_within (.restoreSessionCheckpoint ch)
      (fun _ => rfl) (fun _ => trivial) rfl
  | restoreAssignments id totals scored =>
    exact passed_within (.restoreAssignments totals scored)
      (fun _ => rfl) (fun _ => trivial) rfl
  | applyAssignment id before next =>
    exact passed_within (.applyAssignment before next)
      (fun _ => rfl) (fun _ => trivial) rfl
  | applyCommittedScore id option value =>
    exact passed_within (.applyCommittedScore option value)
      (fun _ => rfl) (fun _ => trivial) rfl
  | setEntryMetadata id key data =>
    exact passed_within (.setEntryMetadata key data)
      (fun _ => rfl) (fun _ => trivial) rfl
  | apply c now user gift =>
    exact passed_forSource hn (.contribute c now user gift)
      (fun _ => rfl) (fun _ => trivial) rfl
  | expireAt now =>
    exact passed_forAll (.expireAt now) (fun _ => rfl) (fun _ => trivial) rfl
  | markRankingGap id =>
    exact passed_within .markRankingGap (fun _ => rfl) (fun _ => trivial) rfl
  | markRecoveryGap id =>
    exact passed_within .markRecoveryGap (fun _ => rfl) (fun _ => trivial) rfl
  | markGap ci roomId source =>
    exact passed_forSource hn (.markGap ci roomId source _)
      (fun _ => rfl) (fun _ => trivial) rfl
  | markMetricGap ci roomId source metric =>
    exact passed_forSource hn (.markGap ci roomId source _)
      (fun _ => rfl) (fun _ => trivial) rfl
  | markIngressLoss count =>
    unfold perform markIngressLoss
    dsimp only
    split
    · exact .stayed
    · exact passed_forAll (.markIngressLoss count) (fun _ => rfl)
        (fun _ => trivial) rfl
  | reset id =>
    exact passed_within .reset (fun _ => rfl) (fun _ => trivial) rfl
  | setPaused id paused =>
    exact passed_within (.setPaused paused)
      (fun _ => rfl) (fun _ => trivial) rfl
  | remove id => exact passed_remove

theorem Reachable.kept {P : Ranking → Prop}
    (hf : ∀ d n b, d.valid = true → P (.fresh d n b))
    (ht : ∀ (ranking : Ranking) (turn : Ranking.Turn),
      turn.Fits ranking → P ranking → P (ranking.take turn))
    (h : Reachable engine) (id : String)
    (ranking : Ranking) (hr : engine.rankings[id]? = some ranking) :
    P ranking := by
  induction h generalizing id ranking with
  | empty =>
    rw [show Engine.empty.rankings[id]? = none from
      ExtTreeMap.getElem?_empty] at hr
    cases hr
  | @perform engine op hrc ih =>
    have hp := perform_passed hrc.named_once op id
    rw [hr] at hp
    generalize ha : some ranking = after at hp
    cases hp with
    | stayed => exact ih id ranking ha.symm
    | turned turn hbef hft =>
      cases ha
      exact ht _ turn hft (ih id _ hbef)
    | created b hid hv =>
      cases ha
      exact hf _ _ _ hv
    | removed => cases ha

end Engine

end TikTools.Aggregation
