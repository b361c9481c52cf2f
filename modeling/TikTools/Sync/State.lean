/-
The sync state of one device: for every plugin key the last known
remote record and the edit still waiting for upload.

`stage`, `rebase` and `discard` are the user's operations on an edit;
`apply` takes a record from the server. An applied record never removes
an edit: it can only mark it as conflicting. The two views the proofs
work with are `pendingEdit` (the edit waiting under a key) and
`hasRemote` (whether a remote record is known), with one lemma per
operation saying what becomes of each.

Version strings are checked by a library outside the repository; the
check is the parameter `semver`.
-/
import TikTools.Lib.Checked
import TikTools.Lib.Table

namespace TikTools.Sync

open TikTools.Lib

-- ==== records

structure PluginSelection where
  schemaVersion : Nat
  pluginId : String
  version : String
  enabled : Bool
  deriving DecidableEq, Repr

structure Record where
  collection : String
  key : String
  revision : Int
  deleted : Bool
  value : Option PluginSelection
  deriving DecidableEq, Repr

inductive Edit where
  | put (value : PluginSelection)
  | delete
  deriving DecidableEq, Repr

structure Pending where
  baseRevision : Option Int
  edit : Edit
  conflict : Bool
  deriving DecidableEq, Repr

structure Entry where
  remote : Option Record := none
  pending : Option Pending := none
  deriving DecidableEq, Repr

structure SyncState where
  origin : String
  accountId : String
  cursor : Int := 0
  entries : Table String Entry := ∅

inductive SyncError where
  | configuration | network | unauthorized | protocol | conflict
  | cursorExpired | wrongAccount | tooManyPages | noPendingEdit
  | rateLimited (retryAfterSeconds : Option Nat) | http (status : Nat)
  deriving DecidableEq, Repr

def collection : String := "plugin-selections"

/-- A plugin key: dotted parts of lowercase letters, digits, dashes and
underscores, at least two of them. -/
def validKey (key : String) : Bool :=
  key.utf8ByteSize ≤ 128
    && key.toList.any (· == '.')
    && (key.toList.splitOn '.').all fun part =>
      !part.isEmpty && part.all fun c =>
        ('a' ≤ c && c ≤ 'z') || ('0' ≤ c && c ≤ '9') || c == '-'
          || c == '_'

variable (semver : String → Bool)

/-- A selection as the server and the store accept it under a key. -/
def validSelection (key : String) (value : PluginSelection) : Bool :=
  value.schemaVersion == 1 && value.pluginId == key
    && value.version.utf8ByteSize ≤ 64 && semver value.version

def validateRecord (record : Record) : Except SyncError Unit :=
  ensure (record.collection = collection ∧ validKey record.key
      ∧ 0 < record.revision ∧ record.deleted = record.value.isNone
      ∧ record.value.all (validSelection semver record.key))
    .protocol

/-- The edit's own validity under a key. -/
def validEdit (key : String) : Edit → Bool
  | .put value => validSelection semver key value
  | .delete => true

-- ==== operations

/-- An entry with a newer record and its edit, in conflict if the edit
has another base. -/
def Entry.take (entry : Entry) (record : Record) : Entry where
  remote := some record
  pending := entry.pending.map fun pending =>
    if pending.baseRevision = some record.revision then pending
    else { pending with conflict := true }

variable {record : Record}

namespace SyncState

def new (origin accountId : String) : SyncState := { origin, accountId }

/-- The entry of a key, empty when there is none. -/
def entry (state : SyncState) (key : String) : Entry :=
  state.entries[key]?.getD {}

def setEntry (state : SyncState) (key : String) (entry : Entry) :
    SyncState :=
  { state with entries := state.entries.insert key entry }

/-- The edit waiting under a key. -/
def pendingEdit (state : SyncState) (key : String) : Option Edit :=
  (state.entry key).pending.map Pending.edit

/-- Whether a remote record of the key is known. -/
def hasRemote (state : SyncState) (key : String) : Bool :=
  (state.entry key).remote.isSome

/-- Stage an edit. Repeated local changes retain the original base
revision. -/
def stage (state : SyncState) (key : String) (edit : Edit) :
    Except SyncError SyncState := do
  ensure (validKey key ∧ validEdit semver key edit) .configuration
  let entry := state.entry key
  let pending := match entry.pending with
    | some pending => { pending with edit }
    | none =>
      { baseRevision := entry.remote.map Record.revision
        edit
        conflict := false }
  return state.setEntry key { entry with pending := some pending }

/-- Keep the local edit after reviewing a conflict. -/
def rebase (state : SyncState) (key : String) :
    Except SyncError SyncState := do
  let entry := state.entry key
  let pending ← okOr entry.pending .noPendingEdit
  let rebased := { pending with
    baseRevision := entry.remote.map Record.revision, conflict := false }
  return state.setEntry key { entry with pending := some rebased }

/-- Discard an unsent local edit. -/
def discard (state : SyncState) (key : String) :
    Except SyncError SyncState := do
  let entry := state.entry key
  ensure (entry.pending ≠ none) .noPendingEdit
  return state.setEntry key { entry with pending := none }

/-- Mark a waiting edit as conflicting. -/
def markConflict (entry : Entry) : Entry :=
  { entry with pending := entry.pending.map fun pending =>
      { pending with conflict := true } }

/-- Take a record from the server. An older one is ignored; a newer one
puts a waiting edit of another base into conflict. -/
def apply (state : SyncState) (record : Record) :
    Except SyncError SyncState := do
  validateRecord semver record
  let entry := state.entry record.key
  if entry.remote.any fun old => record.revision ≤ old.revision then
    return state
  else
    let pending := entry.pending.map fun pending =>
      if pending.baseRevision = some record.revision then pending
      else { pending with conflict := true }
    return state.setEntry record.key { remote := some record, pending }

-- ==== views

theorem entry_setEntry (state : SyncState) (key k : String)
    (e : Entry) :
    (state.setEntry key e).entry k
      = if key = k then e else state.entry k := by
  unfold setEntry entry
  rw [Table.get_insert]
  split <;> rfl

theorem pendingEdit_setEntry (state : SyncState) (key k : String)
    (e : Entry) :
    (state.setEntry key e).pendingEdit k
      = if key = k then e.pending.map Pending.edit
        else state.pendingEdit k := by
  unfold pendingEdit
  rw [entry_setEntry]
  split <;> rfl

theorem hasRemote_setEntry (state : SyncState) (key k : String)
    (e : Entry) :
    (state.setEntry key e).hasRemote k
      = if key = k then e.remote.isSome else state.hasRemote k := by
  unfold hasRemote
  rw [entry_setEntry]
  split <;> rfl

variable {semver} {state state' : SyncState} {key : String}

theorem stage_eq_ok {e : Edit}
    (h : state.stage semver key e = .ok state') :
    state'.origin = state.origin ∧ state'.accountId = state.accountId
      ∧ ∀ k, state'.pendingEdit k
        = if key = k then some e else state.pendingEdit k := by
  obtain ⟨_, _, h⟩ := bind_eq_ok.1 h
  injection h with h
  subst h
  refine ⟨rfl, rfl, ?_⟩
  intro k
  rw [pendingEdit_setEntry]
  cases (state.entry key).pending <;> rfl

theorem rebase_eq_ok (h : state.rebase key = .ok state') :
    state'.origin = state.origin ∧ state'.accountId = state.accountId
      ∧ ∀ k, state'.pendingEdit k = state.pendingEdit k := by
  obtain ⟨pending, hp, h⟩ := bind_eq_ok.1 h
  rw [okOr_eq_ok] at hp
  injection h with h
  subst h
  refine ⟨rfl, rfl, ?_⟩
  intro k
  rw [pendingEdit_setEntry]
  split
  · rename_i e
    subst e
    simp [pendingEdit, hp]
  · rfl

theorem discard_eq_ok (h : state.discard key = .ok state') :
    state'.origin = state.origin ∧ state'.accountId = state.accountId
      ∧ ∀ k, state'.pendingEdit k
        = if key = k then none else state.pendingEdit k := by
  obtain ⟨_, _, h⟩ := bind_eq_ok.1 h
  injection h with h
  subst h
  refine ⟨rfl, rfl, ?_⟩
  intro k
  rw [pendingEdit_setEntry]
  rfl

section

variable (h : state.apply semver record = .ok state')
include h

theorem apply_cases :
    validateRecord semver record = .ok ()
      ∧ (state' = state
          ∧ state.hasRemote record.key = true
        ∨ state' = state.setEntry record.key
            ((state.entry record.key).take record)
          ∧ ∀ old, (state.entry record.key).remote = some old →
            old.revision < record.revision) := by
  obtain ⟨_, hv, h⟩ := bind_eq_ok.1 h
  refine ⟨hv, ?_⟩
  dsimp only at h
  split at h
  case isTrue hold =>
    cases h
    refine .inl ⟨rfl, ?_⟩
    unfold hasRemote
    cases hr : (state.entry record.key).remote with
    | none => simp [hr] at hold
    | some old => rfl
  case isFalse hnew =>
    cases h
    refine .inr ⟨rfl, fun old hold => ?_⟩
    rw [hold, Option.any_some, decide_eq_true_eq] at hnew
    exact Int.not_le.1 hnew

theorem apply_cursor :
    state'.cursor = state.cursor := by
  obtain ⟨-, ⟨rfl, -⟩ | ⟨rfl, -⟩⟩ := apply_cases h <;> rfl

/-- A record from the server keeps every edit and makes its key's
remote record known. -/
theorem apply_eq_ok :
    state'.origin = state.origin ∧ state'.accountId = state.accountId
      ∧ (∀ k, state'.pendingEdit k = state.pendingEdit k)
      ∧ ∀ k, state'.hasRemote k
        = (decide (record.key = k) || state.hasRemote k) := by
  obtain ⟨-, ⟨rfl, hkn⟩ | ⟨rfl, -⟩⟩ := apply_cases h
  · refine ⟨rfl, rfl, fun _ => rfl, fun k => ?_⟩
    by_cases hk : record.key = k
    · subst hk
      simp [hkn]
    · simp [hk]
  · refine ⟨rfl, rfl, fun k => ?_, fun k => ?_⟩
    · rw [pendingEdit_setEntry]
      split
      case isFalse => rfl
      case isTrue e =>
        subst e
        unfold pendingEdit Entry.take
        cases (state.entry record.key).pending with
        | none => rfl
        | some pending =>
          simp only [Option.map_some]
          split <;> rfl
    · rw [hasRemote_setEntry]
      by_cases hk : record.key = k <;> simp [Entry.take, hk]

end

theorem apply_eq_error {e : SyncError}
    (h : state.apply semver record = .error e) : e = .protocol := by
  obtain h | ⟨_, _, h⟩ := bind_eq_error.1 h
  · unfold validateRecord at h
    rw [ensure_eq_error] at h
    exact h.2.symm
  · dsimp only at h
    split at h <;> cases h

end SyncState

end TikTools.Sync
