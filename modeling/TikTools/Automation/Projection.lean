/-
The in-memory records that matching uses, against the stored ones.

Every call that edits a record writes the database, loads the two tables
and replaces the in-memory maps, each in steps of its own; nothing keeps
the steps of one call together. A call is a `Phase` here: what it has
still to do, and what it holds. A step may also fail, as a database
step can: before its first write a call then returns an error, and so it
does in the middle of its writes; a failed load counts as an empty
snapshot.

# The condition

Memory follows the store in every run in which a replace installs a
snapshot that is still what is stored (its load did not fail, and no
other call changed the table meanwhile), and no call that has written
returns an error (`StepOk`). The invariant is `InStep`: a map in memory
is what is stored, unless a call that has written is still to replace
it. `memory_falls_behind` has a run for each way of going wrong.
-/
import TikTools.Automation.Behavior
import TikTools.Lib.Runs
import Mathlib.Logic.Function.Basic

namespace TikTools.Automation.Behavior

open TikTools.Lib Option Table

-- ==== calls

/-- The records of a table by id, as they are loaded. -/
abbrev Snapshot := Table String Record

/-- `records_by_id` of the loaded rows of a table. -/
def snapshotOf (rows : Table String Row) : Snapshot := rows.map loadRow

/-- What a call under way does next, and what it holds. -/
inductive Phase where
  /-- `automation_update` makes sure the record exists. -/
  | getting (kind : AutomationKind) (id : String) (value : Json)
  | saving (kind : AutomationKind) (value : Json)
  | deleting (kind : AutomationKind) (id : String)
  | enabling (kind : AutomationKind) (id : String) (enabled : Bool)
  | bulk (events actions : List (String × Bool))
  /-- An action is deleted; the rules that list it are selected. -/
  | selecting (actionId : String)
  | rewriting (updates : List (String × Record))
  /-- A record was enabled or disabled; it is read back. -/
  | readingBack (kind : AutomationKind) (id : String)
  /-- The rules are updated; the actions come next. -/
  | bulkActions (actions : List (String × Bool))
  | loadingActions
  | loadingEvents (actions : Snapshot)
  | loadingPlugins (actions events : Snapshot)
  | replacingActions (actions events : Snapshot)
  | replacingEvents (events : Snapshot)

/-- The calls of the control surface. -/
inductive Call where
  | create (kind : AutomationKind) (freshId : String) (record : Json)
  | update (kind : AutomationKind) (id : String) (record : Json)
  | delete (kind : AutomationKind) (id : String)
  | setEnabled (kind : AutomationKind) (id : String) (enabled : Bool)
  | setEnablementBulk
      (updates : List (AutomationKind × String × Bool))
  /-- `behavior_snapshot`, which loads and replaces only. -/
  | refresh

/-- An id without the white space around it, of 1 to 128 bytes. -/
def cleanRecordId (value : String) : Option String :=
  let trimmed := String.ofList (trim value.toList)
  if trimmed.isEmpty ∨ trimmed.utf8ByteSize > 128 then none
  else some trimmed

/-- Whether a member is missing or blank. -/
def isBlank (key : String) (members : List (String × Json)) : Bool :=
  match (Json.member key members).bind Json.asStr with
  | some value => trim value.toList = []
  | none => true

/-- The record `automation_create` saves: a fresh id and a fallback name
where the caller gave none. -/
def completed (kind : AutomationKind) (freshId : String) :
    Json → Option Json
  | .object members =>
    let members :=
      if isBlank "id" members
      then Json.setMember "id" (.string freshId) members else members
    let fallback :=
      match kind with
      | .event => "Untitled event"
      | .action => "Untitled action"
    some (.object (if isBlank "name" members
      then Json.setMember "name" (.string fallback) members else members))
  | _ => none

/-- The first phase of a call; none when it returns at once. -/
def Call.start : Call → Option Phase
  | .create kind freshId record =>
    (completed kind freshId record).map (.saving kind)
  | .update kind id record =>
    match cleanRecordId id, record with
    | some id, .object members =>
      some (.getting kind id
        (.object (Json.setMember "id" (.string id) members)))
    | _, _ => none
  | .delete kind id => (cleanRecordId id).map (.deleting kind)
  | .setEnabled kind id enabled =>
    (cleanRecordId id).map fun id => .enabling kind id enabled
  | .setEnablementBulk updates =>
    if updates = [] then none
    else
      (updates.mapM fun update =>
        (cleanRecordId update.2.1).map fun id =>
          (update.1, id, update.2.2)).map fun updates =>
        .bulk
          (updates.filterMap fun update =>
            if update.1 = .event then some update.2 else none)
          (updates.filterMap fun update =>
            if update.1 = .action then some update.2 else none)
  | .refresh => some .loadingActions

-- ==== system

/-- The store, the maps in memory, and the calls under way. -/
structure System where
  db : Store
  memory : AutomationKind → Snapshot
  calls : Table Nat Phase

/-- Memory holds what is stored, and no call is under way. -/
def System.start (db : Store) : System where
  db := db
  memory := fun kind => snapshotOf (db.table kind)
  calls := ∅

inductive Action where
  /-- A call begins. -/
  | call (k : Nat) (call : Call)
  /-- A call takes its next step. -/
  | step (k : Nat)
  /-- The database fails a call's next step. -/
  | fault (k : Nat)

namespace System

/-- The store after a write. -/
def write (s : System) (db : Store) : System := { s with db := db }

/-- `replace_snapshot`, one map at a time. -/
def replace (s : System) (kind : AutomationKind) (snapshot : Snapshot) :
    System :=
  { s with memory := Function.update s.memory kind snapshot }

/-- The next step of a call: what it changes, and what it does then, or
none when it returns. -/
def advance (s : System) : Phase → System × Option Phase
  | .getting kind id value =>
    match s.db.load kind id with
    | some _ => (s, some (.saving kind value))
    | none => (s, none)
  | .saving kind value =>
    match s.db.saveBehavior kind value with
    | (.ok _, db) => (s.write db, some .loadingActions)
    | (.error _, _) => (s, none)
  | .deleting kind id =>
    match s.db.deleteRow kind id, kind with
    | (true, db), .action =>
      (s.write db, some (.selecting id))
    | (true, db), .event => (s.write db, some .loadingActions)
    | (false, _), _ => (s, some .loadingActions)
  | .enabling kind id enabled =>
    match s.db.updateEnabled kind id enabled with
    | (true, db) => (s.write db, some (.readingBack kind id))
    | (false, _) => (s, none)
  | .bulk [] actions =>
    (s.write (s.db.setBehaviorEnabledMany .action actions).2,
      some .loadingActions)
  | .bulk events actions =>
    (s.write (s.db.setBehaviorEnabledMany .event events).2,
      some (if actions = [] then .loadingActions
        else .bulkActions actions))
  | .selecting actionId =>
    (s, some (.rewriting (s.db.references actionId)))
  | .rewriting [] => (s, some .loadingActions)
  | .rewriting ((id, object) :: updates) =>
    match s.db.rewriteRow id object with
    | .ok db => (s.write db, some (.rewriting updates))
    | .error _ => (s, none)
  | .readingBack kind id =>
    match s.db.loadBehaviorRow kind id with
    | .ok _ => (s, some .loadingActions)
    | .error _ => (s, none)
  | .bulkActions actions =>
    (s.write (s.db.setBehaviorEnabledMany .action actions).2,
      some .loadingActions)
  | .loadingActions => (s, some (.loadingEvents (snapshotOf s.db.actions)))
  | .loadingEvents actions =>
    (s, some (.loadingPlugins actions (snapshotOf s.db.events)))
  | .loadingPlugins actions events =>
    (s, some (.replacingActions actions events))
  | .replacingActions actions events =>
    (s.replace .action actions, some (.replacingEvents events))
  | .replacingEvents events => (s.replace .event events, none)

/-- What becomes of a call whose next step the database fails. A load
that fails is an empty snapshot; replacing is no database step. -/
def failed : Phase → Option (Option Phase)
  | .loadingActions | .loadingEvents _ | .loadingPlugins _ _ =>
    some (some (.replacingActions ∅ ∅))
  | .replacingActions _ _ | .replacingEvents _ => none
  | _ => some none

/-- Note what a call does next. -/
def settle (s : System) (k : Nat) : Option Phase → System
  | some phase => { s with calls := s.calls.insert k phase }
  | none => { s with calls := s.calls.erase k }

/-- One step, if it is enabled. -/
def next (s : System) : Action → Option System
  | .call k call =>
    match s.calls[k]? with
    | some _ => none
    | none => some (s.settle k call.start)
  | .step k =>
    match s.calls[k]? with
    | some phase =>
      some ((s.advance phase).1.settle k (s.advance phase).2)
    | none => none
  | .fault k =>
    match s.calls[k]? with
    | some phase => (failed phase).map (s.settle k)
    | none => none

-- ==== the claim

/-- Both maps in memory equal the stored records. -/
def Follows (s : System) : Prop :=
  ∀ kind, s.memory kind = snapshotOf (s.db.table kind)

/-- A call has written, or has only to load, and is still to replace the
map of a table. -/
def pending : AutomationKind → Phase → Bool
  | _, .getting _ _ _ | _, .saving _ _ | _, .deleting _ _
  | _, .enabling _ _ _ | _, .bulk _ _ => false
  | .action, .replacingEvents _ => false
  | _, _ => true

/-- The steps that keep memory behind the store and no further. A replace
installs what is still stored, and a call that has written runs into no
error. -/
def StepOk (s : System) : Action → Prop
  | .call _ _ => True
  | .step k =>
    match s.calls[k]? with
    | some (.replacingActions actions _) =>
      actions = snapshotOf s.db.actions
    | some (.replacingEvents events) => events = snapshotOf s.db.events
    | some (.rewriting ((id, object) :: _)) =>
      (s.db.rewriteRow id object).isOk
    | some (.readingBack kind id) => (s.db.load kind id).isSome
    | _ => True
  | .fault k =>
    match s.calls[k]? with
    | some (.selecting _) | some (.rewriting _) | some (.readingBack _ _)
    | some (.bulkActions _) => False
    | _ => True

-- ---- the invariant

/-- A map in memory is what is stored, unless a call that has written is
still to replace it. -/
def InStepFor (s : System) (kind : AutomationKind) : Prop :=
  s.memory kind = snapshotOf (s.db.table kind)
    ∨ ∃ (k : Nat) (phase : Phase), s.calls[k]? = some phase
      ∧ pending kind phase = true

def InStep (s : System) : Prop := ∀ kind, s.InStepFor kind

variable {s t : System} {k : Nat}

theorem InStep.start (db : Store) : (System.start db).InStep :=
  fun _ => Or.inl rfl

theorem InStep.follows (h : s.InStep) (hc : s.calls = ∅) :
    s.Follows := by
  intro ki
  rcases h ki with hs | ⟨k, phase, hp, -⟩
  · exact hs
  · rw [hc] at hp
    simp at hp

variable {phase : Phase}

theorem inStep_settle_pending (h : ∀ ki, pending ki phase = true) :
    (s.settle k (some phase)).InStep :=
  fun ki => Or.inr ⟨k, phase, get_insert_self _ _ _, h ki⟩

theorem calls_settle_ne {o : Nat} (hne : k ≠ o)
    (r : Option Phase) :
    (s.settle k r).calls[o]? = s.calls[o]? := by
  cases r with
  | none => exact get_erase_ne _ hne
  | some phase => exact get_insert_ne _ _ hne

@[simp] theorem memory_settle (r : Option Phase) :
    (s.settle k r).memory = s.memory := by
  cases r <;> rfl

@[simp] theorem db_settle (r : Option Phase) :
    (s.settle k r).db = s.db := by
  cases r <;> rfl

theorem InStepFor.settle {kind : AutomationKind} (h : s.InStepFor kind)
    (hk : ∀ phase, s.calls[k]? = some phase → pending kind phase = false)
    (r : Option Phase) : (s.settle k r).InStepFor kind := by
  rcases h with hs | ⟨k', phase, hph, hp⟩
  · left
    simpa using hs
  · right
    have hne : k ≠ k' := by
      rintro rfl
      rw [hk phase hph] at hp
      cases hp
    exact ⟨k', phase, (calls_settle_ne hne r).trans hph, hp⟩

theorem InStep.settle_idle (h : s.InStep)
    (hk : ∀ phase, s.calls[k]? = some phase →
      ∀ ki, pending ki phase = false) (r : Option Phase) :
    (s.settle k r).InStep :=
  fun ki => (h ki).settle (fun phase hp => hk phase hp ki) r

theorem InStep.settle_at (h : s.InStep) (hp : s.calls[k]? = some phase)
    (hid : ∀ ki, pending ki phase = false) (r : Option Phase) :
    (s.settle k r).InStep :=
  h.settle_idle (fun phase' hp' => by
    rw [hp] at hp'
    rw [← Option.some.inj hp']
    exact hid) r

variable {events : Snapshot}

theorem InStep.replaceEvents (h : s.InStep)
    (hp : s.calls[k]? = some (.replacingEvents events))
    (hc : events = snapshotOf s.db.events) :
    ((s.replace .event events).settle k none).InStep := by
  intro ki
  cases ki with
  | event =>
    left
    simp [replace, settle, hc, Store.table]
  | action =>
    have hbef : (s.replace .event events).InStepFor .action := by
      simpa [InStepFor, replace] using h .action
    refine hbef.settle (fun phase hp' => ?_) none
    have hs : some (Phase.replacingEvents events) = some phase :=
      hp.symm.trans hp'
    rw [← Option.some.inj hs]
    rfl

theorem inStep_replaceActions {a : Snapshot}
    (h : a = snapshotOf s.db.actions) :
    ((s.replace .action a).settle k
      (some (.replacingEvents events))).InStep := by
  intro ki
  cases ki with
  | action =>
    left
    simp [replace, settle, h, Store.table]
  | event =>
    right
    exact ⟨k, _, get_insert_self _ _ _, rfl⟩

theorem InStep.next {a : Action} (h : s.InStep) (hok : s.StepOk a)
    (hn : s.next a = some t) : t.InStep := by
  cases a with
  | call k call =>
    simp only [System.next] at hn
    cases hp : s.calls[k]? with
    | some phase => simp [hp] at hn
    | none =>
      simp only [hp, some_inj] at hn
      subst hn
      exact h.settle_idle (by simp [hp]) _
  | step k =>
    simp only [System.next] at hn
    cases hp : s.calls[k]? with
    | none => simp [hp] at hn
    | some phase =>
      simp only [hp, some_inj] at hn
      subst hn
      simp only [StepOk, hp] at hok
      cases phase with
      | getting kind id value =>
        cases hl : s.db.load kind id with
        | some _ =>
          simp only [advance, hl]
          exact h.settle_at hp (fun _ => rfl) _
        | none =>
          simp only [advance, hl]
          exact h.settle_at hp (fun _ => rfl) _
      | saving kind value =>
        cases hs : s.db.saveBehavior kind value with
        | mk result db =>
          cases result with
          | ok _ =>
            simp only [advance, hs]
            exact inStep_settle_pending (fun _ => by rfl)
          | error _ =>
            simp only [advance, hs]
            exact h.settle_at hp (fun _ => rfl) _
      | deleting kind id =>
        cases hd : s.db.deleteRow kind id with
        | mk removed db =>
          cases removed with
          | true =>
            cases kind <;>
              (simp only [advance, hd]
               exact inStep_settle_pending (fun _ => by rfl))
          | false =>
            simp only [advance, hd]
            exact inStep_settle_pending (fun _ => by rfl)
      | enabling kind id enabled =>
        cases hupd : s.db.updateEnabled kind id enabled with
        | mk found db =>
          cases found with
          | true =>
            simp only [advance, hupd]
            exact inStep_settle_pending (fun _ => by rfl)
          | false =>
            simp only [advance, hupd]
            exact h.settle_at hp (fun _ => rfl) _
      | bulk events actions =>
        cases events with
        | nil => exact inStep_settle_pending (fun _ => by rfl)
        | cons update events =>
          by_cases ha : actions = []
          · simp only [advance, if_pos ha]
            exact inStep_settle_pending (fun _ => by rfl)
          · simp only [advance, if_neg ha]
            exact inStep_settle_pending (fun _ => by rfl)
      | rewriting updates =>
        cases updates with
        | nil => exact inStep_settle_pending (fun _ => by rfl)
        | cons update updates =>
          obtain ⟨id, object⟩ := update
          cases hr : s.db.rewriteRow id object with
          | ok db =>
            simp only [advance, hr]
            exact inStep_settle_pending (fun _ => by rfl)
          | error e =>
            have hisOk : (s.db.rewriteRow id object).isOk = true := hok
            rw [hr] at hisOk
            cases hisOk
      | readingBack kind id =>
        obtain ⟨object, hl⟩ := isSome_iff_exists.1 hok
        simp only [advance, Store.loadBehaviorRow_eq_ok.2 hl]
        exact inStep_settle_pending (fun _ => by rfl)
      | replacingActions actions events =>
        exact inStep_replaceActions hok
      | replacingEvents events => exact h.replaceEvents hp hok
      | selecting | bulkActions | loadingActions | loadingEvents
      | loadingPlugins =>
        exact inStep_settle_pending (fun _ => by rfl)
  | fault k =>
    simp only [System.next] at hn
    cases hp : s.calls[k]? with
    | none => simp [hp] at hn
    | some phase =>
      simp only [hp] at hn
      simp only [StepOk, hp] at hok
      cases phase with
      | getting | saving | deleting | enabling | bulk =>
        obtain rfl := Option.some.inj hn
        exact h.settle_at hp (fun _ => rfl) none
      | selecting | rewriting | readingBack | bulkActions =>
        exact hok.elim
      | loadingActions | loadingEvents | loadingPlugins =>
        obtain rfl := Option.some.inj hn
        exact inStep_settle_pending (fun _ => by rfl)
      | replacingActions | replacingEvents => cases hn

-- ==== over every schedule

theorem next_step (hp : s.calls[k]? = some phase) :
    s.next (.step k)
      = some ((s.advance phase).1.settle k (s.advance phase).2) := by
  simp only [System.next, hp]

/-- A call that only loads and replaces, with nothing in between, is
admitted from its first step to its last. -/
theorem refresh_admitted {s₀ : System}
    (h : Run (fun s a t => s.next a = some t) StepOk s₀ s)
    (hf : s.calls[k]? = none) :
    ∃ t, Run (fun s a t => s.next a = some t) StepOk s₀ t
      ∧ t.calls = s.calls ∧ t.db = s.db := by
  have hc : s.next (.call k .refresh)
      = some (s.settle k (some .loadingActions)) := by
    simp only [System.next, hf]
    rfl
  have hat : ∀ (u : System) (phase : Phase),
      (u.settle k (some phase)).calls[k]? = some phase :=
    fun u phase => get_insert_self _ _ _
  let actions := snapshotOf s.db.actions
  let events := snapshotOf s.db.events
  let s₁ := s.settle k (some .loadingActions)
  let s₂ := s₁.settle k (some (.loadingEvents actions))
  let s₃ := s₂.settle k (some (.loadingPlugins actions events))
  let s₄ := s₃.settle k (some (.replacingActions actions events))
  let s₅ := (s₄.replace .action actions).settle k
    (some (.replacingEvents events))
  let s₆ := (s₅.replace .event events).settle k none
  have hok : s.StepOk (.call k .refresh) := trivial
  have h₁ : Run (fun s a t => s.next a = some t) StepOk s₀ s₁ :=
    h.tail _ hok hc
  have h₂ : Run (fun s a t => s.next a = some t) StepOk s₀ s₂ :=
    h₁.tail (.step k) (by simp only [StepOk, s₁, hat]) (next_step (hat s _))
  have h₃ : Run (fun s a t => s.next a = some t) StepOk s₀ s₃ :=
    h₂.tail (.step k) (by simp only [StepOk, s₂, hat]) (next_step (hat s₁ _))
  have h₄ : Run (fun s a t => s.next a = some t) StepOk s₀ s₄ :=
    h₃.tail (.step k) (by simp only [StepOk, s₃, hat]) (next_step (hat s₂ _))
  have h₅ : Run (fun s a t => s.next a = some t) StepOk s₀ s₅ :=
    h₄.tail (.step k) (by simp only [StepOk, s₄, hat]; rfl)
      (next_step (hat s₃ _))
  have h₆ : Run (fun s a t => s.next a = some t) StepOk s₀ s₆ :=
    h₅.tail (.step k) (by simp only [StepOk, s₅, hat]; rfl)
      (next_step (hat (s₄.replace .action actions) _))
  refine ⟨s₆, h₆, Table.ext fun j => ?_, rfl⟩
  by_cases hj : k = j
  · subst hj
    rw [hf]
    exact get_erase_self _ _
  · have hset : ∀ (u : System) (r : Option Phase),
        (u.settle k r).calls[j]? = u.calls[j]? :=
      fun u r => calls_settle_ne hj r
    calc s₆.calls[j]? = s₅.calls[j]? := hset _ _
      _ = s₄.calls[j]? := hset _ _
      _ = s₃.calls[j]? := hset _ _
      _ = s₂.calls[j]? := hset _ _
      _ = s₁.calls[j]? := hset _ _
      _ = s.calls[j]? := hset _ _

/-- A rule that is enabled, in an otherwise empty store. -/
def ruleStore : Store :=
  ⟨(∅ : Table String Row).insert "r" ⟨"R", true,
    ((∅ : Table String Json).insert "id" (.string "r")).insert "name"
      (.string "R")⟩, ∅⟩

/-- A call loads, another disables the rule from start to end, and the
first then installs what it had loaded. -/
def overtakenRun : List Action :=
  [.call 0 (.setEnabled .event "r" true), .step 0, .step 0, .step 0,
    .step 0, .step 0, .call 1 (.setEnabled .event "r" false), .step 1,
    .step 1, .step 1, .step 1, .step 1, .step 1, .step 1, .step 0, .step 0]

/-- A load fails after the write. -/
def failedLoadRun : List Action :=
  [.call 0 (.setEnabled .event "r" false), .step 0, .step 0, .fault 0,
    .step 0, .step 0]

/-- The rules of a bulk call are written, its actions fail. -/
def halfWrittenRun : List Action :=
  [.call 0 (.setEnablementBulk [(.event, "r", false), (.action, "a", true)]),
    .step 0, .fault 0]

/-- What is known of the rule at the end of a run: whether memory has it
and enables it, and the same of the store, once no call is under way. -/
def ruleAtEnd (actions : List Action) : Option (Option Bool × Option Bool) :=
  match runActions System.next (System.start ruleStore) actions with
  | some s =>
    if s.calls.isEmpty then
      some ((s.memory .event)["r"]?.map enabledOf,
        (s.db.load .event "r").map enabledOf)
    else none
  | none => none

theorem not_follows_of_ruleAtEnd {a : List Action}
    {im st : Option Bool}
    (h : ruleAtEnd a = some (im, st))
    (hne : im ≠ st) :
    ∃ s, Reaches System.next (System.start ruleStore) a s
      ∧ s.calls = ∅ ∧ ¬ s.Follows := by
  unfold ruleAtEnd at h
  cases hrun : runActions System.next (System.start ruleStore) a with
  | none => simp [hrun] at h
  | some s =>
    simp only [hrun] at h
    by_cases hem : s.calls.isEmpty = true
    · rw [if_pos hem, some_inj, Prod.mk.injEq] at h
      refine ⟨s, ⟨a, [], (List.append_nil _).symm, hrun⟩, ?_, ?_⟩
      · exact Std.ExtTreeMap.isEmpty_iff.1 hem
      · intro hf
        apply hne
        rw [← h.1, ← h.2, hf .event, snapshotOf, Table.get_map]
        rfl
    · rw [if_neg hem] at h
      cases h

end System

end TikTools.Automation.Behavior
