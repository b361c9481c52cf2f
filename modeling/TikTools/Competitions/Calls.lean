/-
Runs of the competition store: the operations a host performs on it, in
any order.

Every operation is a transaction of its own, so an interleaving of
clients, workers and restarts is a list of calls. A call that fails
leaves the store as it was. Only a restart's own writes are calls as
well: the opening of the database, the recovery of a generation, and the
actions whose outcome nobody knows any more.
-/
import TikTools.Competitions.Routing

namespace TikTools.Competitions

open TikTools.Lib

/-- An operation on the store with its arguments. -/
inductive Call where
  | aggregate (ranking : String) (place : Option Place)
  | insert (definition : Definition)
  | update (definition : Definition)
  | delete (id : String)
  | transition (id : String) (transition : Transition) (now : Nat)
      (owner : Option String)
  | expireDue (now : Nat) (owner : Option String)
  | beginRecovery (id : String) (generation : Nat) (owner : String)
  | saveIntegrity (checkpoints : List (String × Nat × Bool))
      (owner : String)
  | command (id : String) (input : CommandParticipation)
      (owner : Option String)
  | score (id : String) (input : ScoredInput) (owner : Option String)
  | gift (id : String) (input : GiftInput) (owner : String)
      (score : Nat → Nat → String → Except DatabaseError Nat)
  | storeResult (result : ResultRecord) (action : Option WinnerAction)
      (owner : Option String)
  | claim (id : String) (generation now : Nat)
  | recordOutcome (id : String) (generation : Nat) (status : ActionStatus)
      (reason : Option String) (now : Nat)
  | markUncertain (id : String) (generation now : Nat)
  | markInterrupted (now : Nat)
  | resolve (id : String) (generation : Nat)
      (resolution : ActionResolution) (now : Nat)
  | openDatabase

variable {T : Type} [DecidableEq T] (S : Codec T)
  (lower : String → String)

namespace Store

/-- What a transaction leaves: a failed one is rolled back. -/
def commit (store : Store T) (outcome : Except DatabaseError (Store T)) :
    Store T :=
  match outcome with
  | .ok store => store
  | .error _ => store

/-- A transaction that touches the ledger's tables alone. -/
def commitDb (store : Store T) (outcome : Except DatabaseError (Db T)) :
    Store T :=
  store.commit (outcome.map fun db => { store with toDb := db })

/-- The ranking a competition may count for appears or goes away. -/
def aggregate (store : Store T) (ranking : String)
    (place : Option Place) : Store T :=
  { store with
    aggregations := match place with
      | some place => store.aggregations.insert ranking place
      | none => store.aggregations.erase ranking }

/-- The store after a call. -/
def apply (store : Store T) : Call → Store T
  | .aggregate ranking place => store.aggregate ranking place
  | .insert definition => store.commitDb
      (insertCompetitionDefinition S lower store.toDb definition)
  | .update definition => store.commitDb
      ((updateCompetitionDefinition S lower store.toDb definition).map
        Prod.fst)
  | .delete id => (deleteCompetitionDefinition S store id).1
  | .transition id transition now owner => store.commit
      ((transitionCompetitionOwned S store id transition now owner).map
        Prod.fst)
  | .expireDue now owner => store.commitDb
      (expireDueCompetitionsOwned S store.toDb now owner)
  | .beginRecovery id generation owner => store.commit
      ((beginCompetitionRecovery store id generation owner).map Prod.fst)
  | .saveIntegrity checkpoints owner => store.commit
      (saveCompetitionIntegrity store checkpoints owner)
  | .command id input owner => store.commit
      ((routeCompetitionCommandWithPrevious S lower store id input
        owner).map Prod.fst)
  | .score id input owner => store.commit
      ((routeCompetitionScore S store id input owner).map Prod.fst)
  | .gift id input owner score => store.commit
      ((routeCompetitionGift S store id input owner score).map Prod.fst)
  | .storeResult result action owner => store.commitDb
      ((storeCompetitionResultOnce S store.toDb result action owner).map
        Prod.fst)
  | .claim id generation now => store.commitDb
      ((claimCompetitionActionDetailed S store.toDb id generation
        now).map Prod.fst)
  | .recordOutcome id generation status reason now => store.commitDb
      ((recordCompetitionActionOutcome store.toDb id generation status
        reason now).map Prod.fst)
  | .markUncertain id generation now => store.commitDb
      ((markCompetitionActionUncertain store.toDb id generation now).map
        Prod.fst)
  | .markInterrupted now =>
    { store with
      toDb := markInterruptedCompetitionActionsUncertain store.toDb now }
  | .resolve id generation resolution now => store.commitDb
      ((resolveUncertainCompetitionAction store.toDb id generation
        resolution now).map Prod.fst)
  | .openDatabase => { store with toDb := openAutomation S store.toDb }

/-- The store after a list of calls. -/
def run (store : Store T) (calls : List Call) : Store T :=
  calls.foldl (apply S lower) store

variable {P : Store T → Prop}

omit [DecidableEq T] in
theorem commit_spec {store : Store T}
    {o : Except DatabaseError (Store T)} (hs : P store)
    (hok : ∀ next, o = .ok next → P next) :
    P (store.commit o) := by
  cases o with
  | ok next => exact hok next rfl
  | error error => exact hs

omit [DecidableEq T] in
theorem commitDb_spec {store : Store T}
    {o : Except DatabaseError (Db T)} (hs : P store)
    (hok : ∀ db, o = .ok db → P { store with toDb := db }) :
    P (store.commitDb o) := by
  cases o with
  | ok db => exact hok db rfl
  | error error => exact hs

omit [DecidableEq T] in
theorem commit_fst_spec {α : Type} {store : Store T}
    {o : Except DatabaseError (Store T × α)} (hs : P store)
    (hok : ∀ n a, o = .ok (n, a) → P n) :
    P (store.commit (o.map Prod.fst)) := by
  cases o with
  | ok pair => exact hok pair.1 pair.2 rfl
  | error error => exact hs

omit [DecidableEq T] in
theorem commitDb_fst_spec {α : Type} {store : Store T}
    {o : Except DatabaseError (Db T × α)} (hs : P store)
    (hok : ∀ db a, o = .ok (db, a) → P { store with toDb := db }) :
    P (store.commitDb (o.map Prod.fst)) := by
  cases o with
  | ok pair => exact hok pair.1 pair.2 rfl
  | error error => exact hs

theorem run_invariant {s : Store T} (hs : P s)
    (hst : ∀ (s : Store T) (ca : Call), P s →
      P (s.apply S lower ca)) (c : List Call) :
    P (s.run S lower c) := by
  induction c generalizing s with
  | nil => exact hs
  | cons ca rest ih => exact ih (hst s ca hs)

end Store

end TikTools.Competitions
