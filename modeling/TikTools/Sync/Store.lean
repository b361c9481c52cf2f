/-
The state file of one device: a sync state under a generation number.

A save is a compare-and-swap. It names the generation it replaces
(none for an absent file), and the file must still carry it and belong
to the same account; the new file carries the next generation. Nothing
else ties a save to the load it is based on.

What is decided outside the repository are parameters: whether a text is
an origin in canonical form, whether a version parses, and whether the
encoded file stays within the size limit.
-/
import TikTools.Sync.Session

namespace TikTools.Sync

open TikTools.Lib

/-- The content of the state file. -/
structure Snapshot where
  generation : Nat
  state : SyncState

/-- The state file, if there is one. -/
abbrev Disk := Option Snapshot

inductive StoreError where
  | io | invalidState | concurrentChange | wrongIdentity
  deriving DecidableEq, Repr

variable (semver validOrigin : String → Bool) (fits : Snapshot → Bool)

def validPending (key : String) (remote : Option Record)
    (pending : Pending) : Bool :=
  (pending.baseRevision.all fun base => decide (0 < base))
    && (pending.conflict
      || pending.baseRevision == remote.map Record.revision)
    && validEdit semver key pending.edit

def validEntry (key : String) (entry : Entry) : Bool :=
  validKey key
    && (entry.remote.all fun record =>
      record.key == key && decide (validateRecord semver record = .ok ()))
    && entry.pending.all (validPending semver key entry.remote)

def validState (state : SyncState) : Bool :=
  validOrigin state.origin
    && state.accountId != ""
    && decide (state.accountId.utf8ByteSize ≤ 256)
    && decide (0 ≤ state.cursor)
    && state.entries.toList.all fun p => validEntry semver p.1 p.2

/-- Read the state file and check it. -/
def load (disk : Disk) : Except StoreError Disk :=
  match disk with
  | none => .ok none
  | some snapshot => do
    ensure (fits snapshot ∧ snapshot.generation ≠ 0
      ∧ validState semver validOrigin snapshot.state) .invalidState
    return some snapshot

/-- Replace the state file if it is still of the expected generation. -/
def save (expectedGeneration : Option Nat) (state : SyncState)
    (disk : Disk) : Except StoreError Snapshot := do
  ensure (validState semver validOrigin state) .invalidState
  let current ← load semver validOrigin fits disk
  ensure (current.map Snapshot.generation = expectedGeneration)
    .concurrentChange
  ensure (∀ v ∈ current, v.state.identity = state.identity) .wrongIdentity
  let generation ← okOr (checkedAdd (expectedGeneration.getD 0) 1)
    .invalidState
  ensure (fits ⟨generation, state⟩) .invalidState
  return ⟨generation, state⟩

variable {semver validOrigin fits} {disk loaded : Disk}

theorem load_eq_ok (h : load semver validOrigin fits disk = .ok loaded) :
    loaded = disk ∧ ∀ s ∈ loaded, s.generation ≠ 0 := by
  cases disk with
  | none =>
    cases h
    exact ⟨rfl, fun _ hs => nomatch hs⟩
  | some snapshot =>
    obtain ⟨_, hc, h⟩ := bind_eq_ok.1 h
    rw [ensure_eq_ok] at hc
    cases h
    refine ⟨rfl, ?_⟩
    intro s hs
    cases hs
    exact hc.2.1

/-- A save went through: the file was of the expected generation and of
the same account, and now holds the given state. -/
theorem save_eq_ok {eg : Option Nat} {st : SyncState}
    {s : Snapshot}
    (h : save semver validOrigin fits eg st disk = .ok s) :
    disk.map Snapshot.generation = eg
      ∧ (∀ v ∈ disk, v.state.identity = st.identity)
      ∧ s = ⟨eg.getD 0 + 1, st⟩ := by
  obtain ⟨_, _, h⟩ := bind_eq_ok.1 h
  obtain ⟨current, hl, h⟩ := bind_eq_ok.1 h
  rw [(load_eq_ok hl).1] at h
  obtain ⟨_, hg, h⟩ := bind_eq_ok.1 h
  rw [ensure_eq_ok] at hg
  obtain ⟨_, hid, h⟩ := bind_eq_ok.1 h
  rw [ensure_eq_ok] at hid
  obtain ⟨generation, ha, h⟩ := bind_eq_ok.1 h
  rw [okOr_eq_ok, checkedAdd_eq_some] at ha
  obtain ⟨_, _, h⟩ := bind_eq_ok.1 h
  cases h
  exact ⟨hg, hid, by rw [ha.2]⟩

theorem load_saved {eg : Option Nat} {st : SyncState} {s : Snapshot}
    (h : save semver validOrigin fits eg st disk = .ok s) :
    load semver validOrigin fits (some s) = .ok (some s) := by
  obtain ⟨_, hv, h⟩ := bind_eq_ok.1 h
  rw [ensure_eq_ok] at hv
  obtain ⟨_, _, h⟩ := bind_eq_ok.1 h
  obtain ⟨_, _, h⟩ := bind_eq_ok.1 h
  obtain ⟨_, _, h⟩ := bind_eq_ok.1 h
  obtain ⟨generation, hg, h⟩ := bind_eq_ok.1 h
  rw [okOr_eq_ok, checkedAdd_eq_some] at hg
  obtain ⟨_, hf, h⟩ := bind_eq_ok.1 h
  rw [ensure_eq_ok] at hf
  cases h
  have hn : generation ≠ 0 := by omega
  exact bind_eq_ok.2 ⟨(), ensure_eq_ok.2 ⟨hf, hn, hv⟩, rfl⟩

-- ==== runs

/-- What is done to the state file, by any number of processes. -/
inductive FileOp
  | save (expectedGeneration : Option Nat) (state : SyncState)
  | delete

variable (semver validOrigin fits) in
/-- The file, and how many saves it has taken since it was deleted. -/
def FileOp.apply (file : Disk × Nat) : FileOp → Disk × Nat
  | .save expectedGeneration state =>
    match Sync.save semver validOrigin fits expectedGeneration state
        file.1 with
    | .ok snapshot => (some snapshot, file.2 + 1)
    | .error _ => file
  | .delete => (none, 0)

/-- The file can always be read, and its generation counts the saves: no
two of them replace the same generation. -/
theorem saves_counted (ops : List FileOp) :
    let file := ops.foldl (FileOp.apply semver validOrigin fits) (none, 0)
    load semver validOrigin fits file.1 = .ok file.1
      ∧ (file.1.map Snapshot.generation).getD 0 = file.2 := by
  suffices h : ∀ file : Disk × Nat,
      load semver validOrigin fits file.1 = .ok file.1
        ∧ (file.1.map Snapshot.generation).getD 0 = file.2 →
      let after := ops.foldl (FileOp.apply semver validOrigin fits) file
      load semver validOrigin fits after.1 = .ok after.1
        ∧ (after.1.map Snapshot.generation).getD 0 = after.2 from
    h (none, 0) ⟨rfl, rfl⟩
  induction ops with
  | nil => exact fun _ h => h
  | cons op rest ih =>
    intro file h
    refine ih _ ?_
    cases op with
    | delete => exact ⟨rfl, rfl⟩
    | save eg st =>
      cases hs : Sync.save semver validOrigin fits eg st file.1 with
      | error e => simpa only [FileOp.apply, hs] using h
      | ok snapshot =>
        obtain ⟨hg, -, rfl⟩ := save_eq_ok hs
        rw [hg] at h
        simp only [FileOp.apply, hs]
        exact ⟨load_saved hs, congrArg (· + 1) h.2⟩

end TikTools.Sync
