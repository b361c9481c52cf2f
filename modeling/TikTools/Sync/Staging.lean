/-
Staging, resolving, syncing and resetting against one state file, in any
interleaving.

Every operation is a TASK: it loads the file (one atomic step), works on
its copy, deletes the file if that belonged to another account (a second
step), and saves (a third). A sync run is a task whose work happens on
the network. A reset deletes the file at any moment, and a task may stop
between any two of its steps. Two tasks meet only in the file, so this
is every schedule the coordinator admits, also from several processes.

# Owed edits

The ghost field `owed` records what the coordinator has promised: an
edit whose staging returned is owed under its key until the server has
acknowledged it, a later staging of the key or the user's choice of the
remote has replaced it, or a deletion that came after it has removed it.
The promise is kept when every owed edit waits in the file.

# Files and their generations

The compare-and-swap compares generations, and a new file starts its
count again. The proof therefore counts FILES too: `files` is the number
of deletions so far, and a task remembers the count it loaded at. Within
one file a generation names one content (`TaskInv`), so a save that
passes the comparison replaces what it was computed from. Across files
it does not, and `staging_lost_to_earlier_file` shows what that costs.
-/
import TikTools.Lib.Runs
import TikTools.Sync.Coordinator

namespace TikTools.Sync

open TikTools.Lib Option

-- ==== local operations

/-- Who the coordinator believes is signed in: a live session, the last
known identity, or nobody. -/
inductive Who where
  | live (session : Identity)
  | remembered (identity : Identity)
  | nobody
  deriving DecidableEq, Repr

/-- The user's operations on an edit. -/
inductive LocalOp where
  | change (pluginId version : String) (enabled : Bool)
  | removal (pluginId : String)
  | keepLocal (key : String)
  | takeRemote (key : String)
  deriving DecidableEq, Repr

/-- What a local operation returns. -/
inductive LocalResult where
  | staged
  | kept
  | taken (remote : Option PluginSelection)
  deriving DecidableEq, Repr

variable (semver validOrigin : String → Bool) (fits : Snapshot → Bool)

/-- The snapshot a local operation works on, and whether the loaded file
has to be deleted first. Without a live session the loaded file is used
as it is. -/
def loadForSession (who : Who) (loaded : Disk) :
    Except SyncCoordError (Snapshot × Bool) :=
  match who, loaded with
  | .live session, none => .ok (⟨0, session.newState⟩, false)
  | .live session, some snapshot =>
    if snapshot.state.identity = session then .ok (snapshot, false)
    else .ok (⟨0, session.newState⟩, true)
  | _, some snapshot => .ok (snapshot, false)
  | .remembered identity, none => .ok (⟨0, identity.newState⟩, false)
  | .nobody, none => .error .notSignedIn

namespace LocalOp

def stageEdit (pluginId : String) (edit : Edit) (state : SyncState) :
    Except SyncCoordError (SyncState × LocalResult) :=
  match state.stage semver pluginId edit with
  | .ok state => .ok (state, .staged)
  | .error _ => .error (.invalidSelection pluginId)

/-- The work of a local operation on its copy of the state. -/
def run (op : LocalOp) (state : SyncState) :
    Except SyncCoordError (SyncState × LocalResult) :=
  match op with
  | .change pluginId version enabled =>
    stageEdit semver pluginId (.put ⟨1, pluginId, version, enabled⟩) state
  | .removal pluginId => stageEdit semver pluginId .delete state
  | .keepLocal key => do
    let state ← (state.rebase key).mapError .engine
    return (state, .kept)
  | .takeRemote key => do
    let state ← (state.discard key).mapError .engine
    return (state, .taken ((state.entry key).remote.bind Record.value))

end LocalOp

-- ==== tasks

/-- What a save does to the edits, as the promise sees it. -/
inductive Effect where
  | staged (key : String) (edit : Edit)
  | kept
  | taken (key : String)
  | synced (heard : List Heard)

/-- The edits after an effect. -/
def Effect.on (effect : Effect) (edits : String → Option Edit)
    (k : String) : Option Edit :=
  match effect with
  | .staged key edit => if key = k then some edit else edits k
  | .kept => edits k
  | .taken key => if key = k then none else edits k
  | .synced heard => if .acked k ∈ heard then none else edits k

def LocalOp.effect : LocalOp → Effect
  | .change pluginId version enabled =>
    .staged pluginId (.put ⟨1, pluginId, version, enabled⟩)
  | .removal pluginId => .staged pluginId .delete
  | .keepLocal _ => .kept
  | .takeRemote key => .taken key

/-- An operation between its load and its save. The last four fields are
ghost: the effect of its save, the snapshot it works from, the file it
loaded, and when it did. -/
structure Task where
  saving : Option Snapshot
  dropping : Bool
  effect : Effect
  base : Snapshot
  loaded : Disk
  file : Nat
  time : Nat

/-- An edit the coordinator has promised to keep, and when it did. -/
structure Owed where
  edit : Edit
  time : Nat
  deriving DecidableEq

/-- The state file and the tasks at work on it. Ghost: the number of
deletions, the number of saves, and what is owed. -/
structure System where
  disk : Disk
  tasks : Table Nat Task
  files : Nat
  time : Nat
  owed : String → Option Owed

/-- How the file system lets a save end: whole, not at all, or written
but reported as failed. -/
inductive Writing where
  | whole | failed | unsynced
  deriving DecidableEq, Repr

inductive Event where
  | localOp (id : Nat) (op : LocalOp) (who : Who)
  | sync (id : Nat) (session : Identity) (replies : List Reply)
  | drop (id : Nat)
  | save (id : Nat) (writing : Writing)
  | stop (id : Nat)
  | reset

namespace System

def start (disk : Disk) : System where
  disk
  tasks := ∅
  files := 0
  time := 0
  owed := fun _ => none

/-- The task of a local operation on the loaded file. An operation that
fails has nothing to save, but a file of another account is deleted all
the same. -/
def localTask (s : System) (op : LocalOp) (who : Who) (loaded : Disk) :
    Option Task :=
  match loadForSession who loaded with
  | .error _ => none
  | .ok (base, dropping) =>
    some
      { saving := (op.run semver base.state).toOption.map fun done =>
          { base with state := done.1 }
        dropping, effect := op.effect, base, loaded
        file := s.files, time := s.time }

/-- The task of a sync run on the loaded file. -/
def syncTask (s : System) (session : Identity) (replies : List Reply)
    (loaded : Disk) : Task :=
  let run := syncInner semver session loaded replies
  { saving := match run.ending with
      | .unsaved _ => none
      | _ => some run.snapshot
    dropping := run.dropped, effect := .synced run.heard
    base := baseline session loaded, loaded
    file := s.files, time := s.time }

/-- What is owed after a save. An acknowledgement settles the edit the
run pushed; a staging is promised when it returns. -/
def settle (s : System) (task : Task) (writing : Writing) (k : String) :
    Option Owed :=
  match task.effect with
  | .staged key edit =>
    if key ≠ k then s.owed k
    else if writing = .whole then some ⟨edit, s.time + 1⟩
    else none
  | .kept => s.owed k
  | .taken key => if key = k then none else s.owed k
  | .synced heard =>
    if .acked k ∈ heard
        ∧ (s.owed k).map Owed.edit = task.base.state.pendingEdit k
    then none else s.owed k

/-- Delete the file. What was owed before `time` is gone with it. -/
def delete (s : System) (time : Nat) : System :=
  { s with
    disk := none
    files := s.files + 1
    owed := fun k => (s.owed k).filter fun owed => time < owed.time }

/-- One step of the coordinator; `none` when it is not enabled. -/
def next (s : System) : Event → Option System
  | .localOp id op who =>
    if (s.tasks[id]?).isSome then none
    else
      match load semver validOrigin fits s.disk with
      | .error _ => some s
      | .ok loaded =>
        match s.localTask semver op who loaded with
        | none => some s
        | some task => some { s with tasks := s.tasks.insert id task }
  | .sync id session replies =>
    if (s.tasks[id]?).isSome then none
    else
      match load semver validOrigin fits s.disk with
      | .error _ => some s
      | .ok loaded =>
        some { s with tasks :=
          s.tasks.insert id (s.syncTask semver session replies loaded) }
  | .drop id =>
    match s.tasks[id]? with
    | none => none
    | some task =>
      if task.dropping then
        let tasks := s.tasks.insert id { task with dropping := false }
        some { s.delete task.time with tasks }
      else none
  | .save id writing =>
    match s.tasks[id]? with
    | none => none
    | some task =>
      if task.dropping then none
      else
        match task.saving with
        | none => none
        | some snapshot =>
          let finished := { s with tasks := s.tasks.erase id }
          if writing = .failed then some finished
          else
            match saveState semver validOrigin fits snapshot s.disk with
            | .error _ => some finished
            | .ok saved =>
              some { finished with
                disk := some saved
                time := s.time + 1
                owed := s.settle task writing }
  | .stop id =>
    if (s.tasks[id]?).isSome then
      some { s with tasks := s.tasks.erase id }
    else none
  | .reset => some (s.delete s.time)

/-- The promise: every owed edit waits in the file. -/
def Kept (s : System) : Prop :=
  ∀ k, ∀ owed ∈ s.owed k,
    ∃ file ∈ s.disk, file.state.pendingEdit k = some owed.edit

/-- The condition on a step. A save that finds its generation finds it
in the file its task loaded, and a task deletes just what it loaded. -/
def Guarded (s : System) : Event → Prop
  | .save id _ => ∀ task ∈ s.tasks[id]?, ∀ snapshot ∈ task.saving,
      snapshot.generation ≠ 0 →
      s.disk.map Snapshot.generation = some snapshot.generation →
      task.file = s.files
  | .drop id => ∀ task ∈ s.tasks[id]?, s.disk = none
      ∨ (task.file = s.files ∧ s.disk.map Snapshot.generation
        = task.loaded.map Snapshot.generation)
  | _ => True

end System

-- ==== invariants

/-- What a task saves is the effect of its operation on its base, and a
base that is not fresh is the file it loaded. -/
structure Task.Sound (task : Task) : Prop where
  base : task.base.generation ≠ 0 → task.loaded = some task.base
  saving : ∀ snapshot ∈ task.saving,
    snapshot.generation = task.base.generation
      ∧ ∀ k, snapshot.state.pendingEdit k
        = task.effect.on task.base.state.pendingEdit k

/-- How a task in flight relates to the file: as long as it is the file
the task loaded, its generation has not fallen, and if it is the same,
so is the content, and nothing was promised since. -/
structure Task.Current (s : System) (task : Task) : Prop where
  time : task.time ≤ s.time
  file : task.file ≤ s.files
  loaded : task.file = s.files → ∀ old ∈ task.loaded, ∃ new ∈ s.disk,
    old.generation ≤ new.generation
      ∧ (new.generation = old.generation → new = old
        ∧ ∀ k, ∀ owed ∈ s.owed k, owed.time ≤ task.time)

structure System.Inv (s : System) : Prop where
  kept : s.Kept
  time : ∀ k, ∀ owed ∈ s.owed k, owed.time ≤ s.time
  tasks : ∀ id : Nat, ∀ task ∈ s.tasks[id]?, Task.Sound task ∧ Task.Current s task

variable {semver validOrigin fits}

-- ---- sound tasks

variable {loaded : Disk}

variable {who : Who}

theorem loadForSession_base {base : Snapshot} {d : Bool}
    (h : loadForSession who loaded = .ok (base, d)) :
    base.generation ≠ 0 → loaded = some base := by
  intro h0
  unfold loadForSession at h
  split at h
  · cases h
    exact absurd rfl h0
  · split at h
    · cases h
      rfl
    · cases h
      exact absurd rfl h0
  · cases h
    rfl
  · cases h
    exact absurd rfl h0
  · cases h

variable {result : LocalResult} {state' state : SyncState}

theorem LocalOp.stageEdit_eq_ok {p : String} {e : Edit}
    (h : stageEdit semver p e state = .ok (state', result))
    (k : String) :
    state'.pendingEdit k = if p = k then some e else state.pendingEdit k := by
  unfold stageEdit at h
  split at h
  case h_1 hs =>
    cases h
    exact (SyncState.stage_eq_ok hs).2.2 k
  case h_2 => cases h

theorem LocalOp.run_eq_ok {op : LocalOp}
    (h : op.run semver state = .ok (state', result)) (k : String) :
    state'.pendingEdit k = op.effect.on state.pendingEdit k := by
  cases op with
  | change p version enabled => exact stageEdit_eq_ok h k
  | removal p => exact stageEdit_eq_ok h k
  | keepLocal key =>
    obtain ⟨mid, hr, h⟩ := bind_eq_ok.1 h
    cases h
    exact (SyncState.rebase_eq_ok (mapError_eq_ok hr)).2.2 k
  | takeRemote key =>
    obtain ⟨mid, hd, h⟩ := bind_eq_ok.1 h
    cases h
    exact (SyncState.discard_eq_ok (mapError_eq_ok hd)).2.2 k

variable {s t : System}

variable {task : Task}

theorem localTask_sound {op : LocalOp}
    (h : s.localTask semver op who loaded = some task) :
    task.Sound ∧ task.loaded = loaded ∧ task.file = s.files
      ∧ task.time = s.time := by
  unfold System.localTask at h
  split at h
  case h_1 => cases h
  case h_2 base dropping hb =>
    cases h
    refine ⟨⟨loadForSession_base hb, ?_⟩, rfl, rfl, rfl⟩
    intro snapshot hs
    obtain ⟨done, hd, rfl⟩ := map_eq_some_iff.1 hs
    refine ⟨rfl, ?_⟩
    intro k
    cases hrun : op.run semver base.state with
    | error e =>
      rw [hrun] at hd
      cases hd
    | ok done' =>
      rw [hrun] at hd
      cases hd
      exact LocalOp.run_eq_ok hrun k

variable {session : Identity}

theorem baseline_loaded (h : (baseline session loaded).generation ≠ 0) :
    loaded = some (baseline session loaded) := by
  unfold baseline at h ⊢
  split at h
  case h_1 snapshot =>
    split at h
    case isTrue hid => rw [if_pos hid]
    case isFalse => exact absurd rfl h
  case h_2 => exact absurd rfl h

theorem syncTask_sound {r : List Reply} :
    (s.syncTask semver session r loaded).Sound := by
  refine ⟨baseline_loaded, ?_⟩
  intro sn hs
  obtain ⟨ht, h, _⟩ := @syncInner_tracks semver session loaded r _ rfl
  have : sn = (syncInner semver session loaded r).snapshot := by
    unfold System.syncTask at hs
    dsimp only at hs
    split at hs
    · cases hs
    · cases hs
      rfl
  subst this
  exact ⟨h, ht.pendingEdit⟩

-- ---- current tasks

theorem current_new (hi : s.Inv) (hl : task.loaded = s.disk)
    (hf : task.file = s.files) (ht : task.time = s.time) :
    task.Current s := by
  refine ⟨Nat.le_of_eq ht, Nat.le_of_eq hf, ?_⟩
  intro _ old h
  rw [hl] at h
  refine ⟨old, h, Nat.le_refl _, fun _ => ⟨rfl, ?_⟩⟩
  intro k o ho
  rw [ht]
  exact hi.time k o ho

theorem current_delete (h : task.Current s) (ti : Nat) :
    task.Current (s.delete ti) := by
  refine ⟨h.time, Nat.le_succ_of_le h.file, ?_⟩
  intro hf
  have hle := h.file
  have : task.file = s.files + 1 := hf
  omega

theorem Task.Current.congr (h : task.Current s) (hd : t.disk = s.disk)
    (hf : t.files = s.files) (ht : t.time = s.time)
    (ho : t.owed = s.owed) : task.Current t := by
  refine ⟨ht ▸ h.time, hf ▸ h.file, ?_⟩
  rw [hd, hf, ho]
  exact h.loaded

theorem current_save {saved : Snapshot} {owed : String → Option Owed}
    {tasks : Table Nat Task}
    (hgen : ∀ f ∈ s.disk, f.generation < saved.generation)
    (h : task.Current s) :
    task.Current { s with
      disk := some saved, tasks, time := s.time + 1, owed } := by
  refine ⟨Nat.le_succ_of_le h.time, h.file, ?_⟩
  intro hf old hold
  obtain ⟨new, hnew, hle, _⟩ := h.loaded hf old hold
  have hlt := hgen new hnew
  refine ⟨saved, rfl, by omega, ?_⟩
  intro heq
  omega

-- ---- preserving steps

namespace System.Inv

theorem start (d : Disk) : (System.start d).Inv := by
  refine ⟨?_, ?_, ?_⟩
  · intro k o ho
    cases ho
  · intro k o ho
    cases ho
  · intro id task ht
    simp [System.start] at ht

theorem insert (h : s.Inv) (id : Nat) {task : Task}
    (hs : task.Sound) (hc : task.Current s) :
    ({ s with tasks := s.tasks.insert id task } : System).Inv := by
  refine ⟨h.kept, h.time, ?_⟩
  intro i o ho
  have hb : o.Sound ∧ o.Current s := by
    rw [mem_def, Table.get_insert] at ho
    split at ho
    case isTrue =>
      cases ho
      exact ⟨hs, hc⟩
    case isFalse => exact h.tasks i o ho
  exact ⟨hb.1, hb.2.congr rfl rfl rfl rfl⟩

theorem erase (h : s.Inv) (id : Nat) :
    ({ s with tasks := s.tasks.erase id } : System).Inv := by
  refine ⟨h.kept, h.time, ?_⟩
  intro i o ho
  rw [mem_def, Table.get_erase] at ho
  split at ho
  case isTrue => cases ho
  case isFalse =>
    obtain ⟨hs, hc⟩ := h.tasks i o ho
    exact ⟨hs, hc.congr rfl rfl rfl rfl⟩

theorem delete (h : s.Inv) {ti : Nat}
    (htm : ∀ k, ∀ o ∈ s.owed k, o.time ≤ ti) :
    (s.delete ti).Inv := by
  have hn : ∀ k, (s.delete ti).owed k = none := by
    intro k
    show (s.owed k).filter _ = none
    cases ho : s.owed k with
    | none => rfl
    | some o =>
      have hle := htm k o ho
      simpa using hle
  refine ⟨?_, ?_, ?_⟩
  · intro k o ho
    rw [hn k] at ho
    cases ho
  · intro k o ho
    rw [hn k] at ho
    cases ho
  · intro id task ht
    obtain ⟨hs, hc⟩ := h.tasks id task ht
    exact ⟨hs, current_delete hc ti⟩

end System.Inv

variable {writing : Writing}

variable {k : String}

/-- What is owed after a save waits in what was saved, if what was owed
before waited in the base. -/
theorem settle_waits (h : ∀ o ∈ s.owed k,
      task.base.state.pendingEdit k = some o.edit) :
    ∀ o ∈ s.settle task writing k,
      task.effect.on task.base.state.pendingEdit k = some o.edit := by
  intro o ho
  unfold System.settle at ho
  unfold Effect.on
  cases hef : task.effect with
  | staged key edit =>
    rw [hef] at ho
    dsimp only at ho ⊢
    by_cases hkey : key = k
    · rw [if_neg (not_not_intro hkey)] at ho
      rw [if_pos hkey]
      split at ho <;> cases ho
      rfl
    · rw [if_pos hkey] at ho
      rw [if_neg hkey]
      exact h o ho
  | kept =>
    rw [hef] at ho
    exact h o ho
  | taken key =>
    rw [hef] at ho
    dsimp only at ho ⊢
    split at ho
    case isTrue => cases ho
    case isFalse hkey =>
      rw [if_neg hkey]
      exact h o ho
  | synced heard =>
    rw [hef] at ho
    dsimp only at ho ⊢
    split at ho
    case isTrue => cases ho
    case isFalse ha =>
      -- an acknowledged key owes what the run pushed, so it is settled
      have hw := h o ho
      have hu : .acked k ∉ heard := by
        intro hk
        refine ha ⟨hk, ?_⟩
        rw [mem_def.1 ho]
        exact hw.symm
      rw [if_neg hu]
      exact hw

theorem settle_time (h : ∀ o ∈ s.owed k, o.time ≤ s.time) :
    ∀ o ∈ s.settle task writing k, o.time ≤ s.time + 1 := by
  intro o ho
  have hold : ∀ o ∈ s.owed k, o.time ≤ s.time + 1 :=
    fun o ho => Nat.le_succ_of_le (h o ho)
  unfold System.settle at ho
  split at ho
  · split at ho
    · exact hold o ho
    · split at ho <;> cases ho
      exact Nat.le_refl _
  · exact hold o ho
  · split at ho
    · cases ho
    · exact hold o ho
  · split at ho
    · cases ho
    · exact hold o ho

variable {id : Nat}

/-- A guarded save keeps the promise: the file it replaces is the one
its task worked from. -/
theorem inv_save (h : s.Inv) {sn sa : Snapshot}
    (ht : s.tasks[id]? = some task) (hsv : task.saving = some sn)
    (hg : sn.generation ≠ 0 →
      s.disk.map Snapshot.generation = some sn.generation →
      task.file = s.files)
    (hsa : saveState semver validOrigin fits sn s.disk = .ok sa) :
    ({ s with
      tasks := s.tasks.erase id
      disk := some sa
      time := s.time + 1
      owed := s.settle task writing } : System).Inv := by
  obtain ⟨hs, hc⟩ := h.tasks id task ht
  obtain ⟨hgen, hes⟩ := hs.saving sn hsv
  obtain ⟨hed, rfl⟩ := saveState_eq_ok hsa
  -- the file the save replaces is the base of the task
  have hb : ∀ f ∈ s.disk, f = task.base := by
    intro f hf
    rw [mem_def.1 hf] at hed hg
    split at hed
    case isTrue => cases hed
    case isFalse h0 =>
      have hl := hs.base (hgen ▸ h0)
      obtain ⟨new, hn, _, hsm⟩ := hc.loaded (hg h0 hed) task.base hl
      rw [mem_def.1 hf] at hn
      cases hn
      injection hed with hed
      exact (hsm (hed.trans hgen)).1
  have hw : ∀ k, ∀ o ∈ s.owed k,
      task.base.state.pendingEdit k = some o.edit := by
    intro k o hod
    obtain ⟨f, hf, het⟩ := h.kept k o hod
    rw [← hb f hf]
    exact het
  refine ⟨?_, ?_, ?_⟩
  · intro k o hod
    refine ⟨_, rfl, ?_⟩
    rw [hes k]
    exact settle_waits (hw k) o hod
  · intro k o hod
    exact settle_time (h.time k) o hod
  · intro i other ho
    rw [mem_def, Table.get_erase] at ho
    split at ho
    case isTrue => cases ho
    case isFalse =>
      obtain ⟨hs', hcur'⟩ := h.tasks i other ho
      refine ⟨hs', current_save ?_ hcur'⟩
      intro f hf
      rw [hb f hf, hgen]
      exact Nat.lt_succ_self _

theorem drop_time (h : s.Inv) (ht : s.tasks[id]? = some task)
    (hg : s.disk = none ∨ (task.file = s.files
      ∧ s.disk.map Snapshot.generation
        = task.loaded.map Snapshot.generation)) :
    ∀ k, ∀ o ∈ s.owed k, o.time ≤ task.time := by
  intro k o ho
  obtain ⟨f, hf, _⟩ := h.kept k o ho
  obtain ⟨_, hc⟩ := h.tasks id task ht
  rw [mem_def.1 hf] at hg
  rcases hg with hn | ⟨hfl, hgen⟩
  · cases hn
  · obtain ⟨old, hl, heq⟩ := map_eq_some_iff.1 hgen.symm
    obtain ⟨new, hnew, _, hs⟩ := hc.loaded hfl old hl
    rw [mem_def.1 hf] at hnew
    cases hnew
    exact (hs heq.symm).2 k o ho

theorem next_inv {e : Event} (h : s.Inv) (hg : s.Guarded e)
    (hs : s.next semver validOrigin fits e = some t) : t.Inv := by
  cases e with
  | localOp id op who =>
    simp only [System.next] at hs
    split at hs
    · cases hs
    · split at hs
      · cases hs
        exact h
      case h_2 loaded hld =>
        split at hs
        · cases hs
          exact h
        case h_2 task ht =>
          cases hs
          obtain ⟨hsn, hl, hf, htm⟩ := localTask_sound ht
          rw [(load_eq_ok hld).1] at hl
          exact h.insert id hsn (current_new h hl hf htm)
  | sync id session replies =>
    simp only [System.next] at hs
    split at hs
    · cases hs
    · split at hs
      · cases hs
        exact h
      case h_2 loaded hld =>
        cases hs
        exact h.insert id syncTask_sound
          (current_new h (load_eq_ok hld).1 rfl rfl)
  | drop id =>
    simp only [System.next] at hs
    split at hs
    case h_1 => cases hs
    case h_2 task ht =>
      split at hs
      case isTrue =>
        cases hs
        have hdel := h.delete (drop_time h ht (hg task ht))
        obtain ⟨hsn, hc⟩ := h.tasks id task ht
        have hb := current_delete hc task.time
        exact hdel.insert id ⟨hsn.base, hsn.saving⟩
          ⟨hb.time, hb.file, hb.loaded⟩
      case isFalse => cases hs
  | save id writing =>
    simp only [System.next] at hs
    split at hs
    case h_1 => cases hs
    case h_2 task ht =>
      split at hs
      case isTrue => cases hs
      case isFalse =>
        split at hs
        case h_1 => cases hs
        case h_2 snapshot hsv =>
          split at hs
          case isTrue =>
            cases hs
            exact h.erase id
          case isFalse =>
            split at hs
            case h_1 =>
              cases hs
              exact h.erase id
            case h_2 saved hsa =>
              cases hs
              exact inv_save h ht hsv (hg task ht snapshot hsv) hsa
  | stop id =>
    simp only [System.next] at hs
    split at hs
    case isTrue =>
      cases hs
      exact h.erase id
    case isFalse => cases hs
  | reset =>
    cases hs
    exact h.delete h.time

-- ==== the run

/-- In every run whose saves and deletions concern the file their task
loaded, an edit whose staging returned waits in the file until the
server acknowledges it, a later staging or the remote choice replaces
it, or a later deletion removes it. -/
theorem staged_edits_survive {disk : Disk}
    (hrun : Run (fun s event t =>
        s.next semver validOrigin fits event = some t) System.Guarded
      (.start disk) s) : s.Kept :=
  (hrun.invariant (System.Inv.start disk) fun _ _ _ hinv hg hs =>
    next_inv hinv hg hs).kept

/-- The coordinator of the runs below. -/
def demoNext (s : System) (event : Event) : Option System :=
  s.next (· == "1.0.0") (· == "https://cloud.example") (fun _ => true) event

/-- A sync run loads the first file. The user resets, and the next
staging creates a second file of the same generation. The run's save
passes the comparison and the staged edit is gone, although its staging
returned and nobody has acknowledged, replaced or reset it. -/
theorem staging_lost_to_earlier_file :
    ∃ s, runActions demoNext (.start none)
        [.localOp 0 (.change "acme.plugin" "1.0.0" true)
            (.live demoSession),
          .save 0 .whole,
          .sync 1 demoSession [.changes [] 0 false, .changes [] 0 false,
            .record (demoRecord 5 "1.0.0" true)],
          .reset,
          .localOp 2 (.change "acme.other" "1.0.0" true) (.live demoSession),
          .save 2 .whole,
          .save 1 .whole] = some s
      ∧ s.owed "acme.other" = some ⟨.put ⟨1, "acme.other", "1.0.0", true⟩, 2⟩
      ∧ (s.disk.map fun file => file.state.pendingEdit "acme.other")
        = some none :=
  ⟨_, rfl, rfl, rfl⟩

/-- A staged edit is owed and waits in the file. -/
theorem staged_edit_waits :
    ∃ s, runActions demoNext (.start none)
        [.localOp 0 (.change "acme.plugin" "1.0.0" true)
            (.live demoSession),
          .save 0 .whole] = some s
      ∧ s.owed "acme.plugin"
        = some ⟨.put ⟨1, "acme.plugin", "1.0.0", true⟩, 1⟩
      ∧ s.Kept := by
  refine ⟨_, rfl, rfl, @staged_edits_survive (· == "1.0.0")
    (· == "https://cloud.example") (fun _ => true) _ none
    (.tail (.save 0 .whole) (.tail (.localOp 0 (.change "acme.plugin"
      "1.0.0" true) (.live demoSession)) .refl trivial rfl) ?_ rfl)⟩
  intro task ht _ _ _ _
  exact congrArg Task.file (Option.some.inj ht).symm

end TikTools.Sync
