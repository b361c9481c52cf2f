/-
The sync coordinator: one sync run from load to save, and what the core
does with its outcome.

A run loads the state file (dropping a file of another account), pulls
change pages with a rebuild where the server forgot the cursor, pushes
the edits that are not in conflict, and saves. Its outcome names every
remote selection known at the end; the core applies each of them to the
installed plugins.

# What a run knows at its end

`baseline` is the state a run starts from and `SyncRun.heard` what the
server told it. `syncInner_tracks` says that the state a run saves is
the baseline after that news. So an edit still waits at the end exactly
when it waited in the baseline and was never acknowledged, whatever
else the server sent.
-/
import TikTools.Sync.Store

namespace TikTools.Sync

open TikTools.Lib

def maxPullPages : Nat := 200

inductive SyncCoordError where
  | disabled | notSignedIn | alreadyRunning
  | invalidSelection (pluginId : String)
  | engine (error : SyncError)
  | store (error : StoreError)
  deriving DecidableEq, Repr

structure RemoteSelection where
  key : String
  selection : Option PluginSelection
  deriving DecidableEq, Repr

structure SyncOutcome where
  pulled : Nat
  pushed : Nat
  conflicts : List String
  remote : List RemoteSelection
  deriving DecidableEq, Repr

/-- A run under way: the state it works on, whether it deleted the
stored file, the replies to come and the news so far. -/
structure Progress where
  snapshot : Snapshot
  dropped : Bool
  replies : List Reply
  heard : List Heard

/-- How the network part of a run ends. All but the failure of a rebuild
lead to a save. -/
inductive Ending where
  | finished (outcome : SyncOutcome)
  | failed (error : SyncError)
  | unsaved (error : SyncError)

/-- The network part of a run. -/
structure SyncRun where
  snapshot : Snapshot
  dropped : Bool
  heard : List Heard
  ending : Ending

def Identity.newState (session : Identity) : SyncState :=
  .new session.origin session.accountId

namespace Progress

/-- Go on with the state and the news of an exchange. -/
def advance (p : Progress) (state : SyncState) (replies : List Reply)
    (heard : List Heard) : Progress :=
  { p with
    snapshot := { p.snapshot with state }
    replies
    heard := p.heard ++ heard }

/-- Start over with the session's own empty state; the stored file is
deleted. -/
def resetToSession (session : Identity) (replies : List Reply) :
    Progress where
  snapshot := ⟨0, session.newState⟩
  dropped := true
  replies
  heard := []

end Progress

variable (semver validOrigin : String → Bool) (fits : Snapshot → Bool)
variable (session : Identity)

/-- The loaded state, or a fresh one; a pull tells whether a file with
content belongs to the session. -/
def loadOrReset (loaded : Disk) (replies : List Reply) : Progress :=
  match loaded with
  | none =>
    { snapshot := ⟨0, session.newState⟩, dropped := false, replies
      heard := [] }
  | some snapshot =>
    let start : Progress :=
      { snapshot, dropped := false, replies, heard := [] }
    if 0 < snapshot.state.cursor
        ∨ snapshot.state.entries.isEmpty = false then
      match pullPage semver session snapshot.state replies with
      | (.ok (state, _), rest, heard) => start.advance state rest heard
      | (.error .wrongAccount, rest, _) => .resetToSession session rest
      | (.error _, rest, _) => start.advance snapshot.state rest []
    else start

/-- Pull until the server reports no more changes; the error of a failed
rebuild is not saved. -/
def pullLoop : Nat → Progress → Nat →
    Progress × Except Ending Nat
  | 0, p, pulled => (p, .ok pulled)
  | fuel + 1, p, pulled =>
    match pullPage semver session p.snapshot.state p.replies with
    | (.ok (state, false), rest, heard) =>
      (p.advance state rest heard, .ok pulled)
    | (.ok (state, true), rest, heard) =>
      pullLoop fuel (p.advance state rest heard) (pulled + 1)
    | (.error .cursorExpired, rest, _) =>
      match rebuild semver session p.snapshot.state rest with
      | (.ok state, rest, heard) =>
        pullLoop fuel (p.advance state rest heard) pulled
      | (.error e, _, _) => (p, .error (.unsaved e))
    | (.error .wrongAccount, rest, _) =>
      pullLoop fuel (.resetToSession session rest) pulled
    | (.error e, _, _) => (p, .error (.failed e))

/-- The keys whose edit may be pushed, in order. -/
def pushKeys (state : SyncState) : List String :=
  (state.entries.toList.filter fun p =>
    p.2.pending.any fun pending => !pending.conflict).map Prod.fst

/-- The keys whose edit is in conflict, in order. -/
def conflictKeys (state : SyncState) : List String :=
  (state.entries.toList.filter fun p =>
    p.2.pending.any fun pending => pending.conflict).map Prod.fst

/-- The remote selections known, in order of their keys. -/
def remoteSelections (state : SyncState) : List RemoteSelection :=
  state.entries.toList.filterMap fun p =>
    p.2.remote.map fun record => ⟨p.1, record.value⟩

/-- Push the edits of the keys; conflicts stay, any other error stops. -/
def pushLoop : List String → Progress → Nat →
    Progress × Except SyncError Nat
  | [], p, pushed => (p, .ok pushed)
  | key :: keys, p, pushed =>
    match push semver session p.snapshot.state key p.replies with
    | (state, .ok (), rest, heard) =>
      pushLoop keys (p.advance state rest heard) (pushed + 1)
    | (state, .error .conflict, rest, heard) =>
      pushLoop keys (p.advance state rest heard) pushed
    | (state, .error e, rest, heard) =>
      (p.advance state rest heard, .error e)

/-- The network part of a run over a loaded file. -/
def syncInner (loaded : Disk) (replies : List Reply) : SyncRun :=
  let start := loadOrReset semver session loaded replies
  match pullLoop semver session maxPullPages start 0 with
  | (p, .error ending) => ⟨p.snapshot, p.dropped, p.heard, ending⟩
  | (p, .ok pulled) =>
    let keys := pushKeys p.snapshot.state
    match pushLoop semver session keys p 0 with
    | (p, .error e) => ⟨p.snapshot, p.dropped, p.heard, .failed e⟩
    | (p, .ok pushed) =>
      ⟨p.snapshot, p.dropped, p.heard, .finished
        { pulled, pushed
          conflicts := conflictKeys p.snapshot.state
          remote := remoteSelections p.snapshot.state }⟩

/-- Save a snapshot over the generation it was loaded from. -/
def saveState (snapshot : Snapshot) (disk : Disk) :
    Except SyncCoordError Snapshot :=
  let generation :=
    if snapshot.generation = 0 then none else some snapshot.generation
  (save semver validOrigin fits generation snapshot.state disk).mapError
    .store

/-- The end of a run: its save over the file as it is now, and its
result. -/
def SyncRun.finish (run : SyncRun) (disk : Disk) :
    Except SyncCoordError SyncOutcome × Disk :=
  match run.ending with
  | .unsaved e => (.error (.engine e), disk)
  | .failed e =>
    match saveState semver validOrigin fits run.snapshot disk with
    | .ok saved => (.error (.engine e), some saved)
    | .error e => (.error e, disk)
  | .finished outcome =>
    match saveState semver validOrigin fits run.snapshot disk with
    | .ok saved => (.ok outcome, some saved)
    | .error e => (.error e, disk)

/-- A whole run: over the file as it is when the run loads it and as it
is when the run saves. -/
def syncNow (enabled syncing : Bool) (session : Option Identity)
    (stored : Disk) (replies : List Reply) (disk : Disk) :
    Except SyncCoordError SyncOutcome × Disk :=
  if enabled = false then (.error .disabled, disk)
  else if syncing then (.error .alreadyRunning, disk)
  else
    match session with
    | none => (.error .notSignedIn, disk)
    | some session =>
      match load semver validOrigin fits stored with
      | .error e => (.error (.store e), disk)
      | .ok loaded =>
        (syncInner semver session loaded replies).finish semver
          validOrigin fits disk

/-- The selections the core applies to the installed plugins after a
successful run, each with its enabled flag. -/
def appliedSelections (outcome : SyncOutcome) : List (String × Bool) :=
  outcome.remote.map fun remote =>
    (remote.key, (remote.selection.map PluginSelection.enabled).getD false)

-- ==== baseline

/-- The snapshot a run works on: the loaded one if it belongs to the
session, a fresh one otherwise. -/
def baseline (loaded : Disk) : Snapshot :=
  match loaded with
  | some snapshot =>
    if snapshot.state.identity = session then snapshot
    else ⟨0, session.newState⟩
  | none => ⟨0, session.newState⟩

/-- Whether the loaded file belongs to another account. -/
def Displaced (loaded : Disk) : Prop :=
  ∃ s ∈ loaded, s.state.identity ≠ session

/-- The run is on the baseline after the news so far. -/
structure OnBaseline (loaded : Disk) (p : Progress) : Prop where
  tracks : Tracks (baseline session loaded).state p.heard p.snapshot.state
  generation : p.snapshot.generation = (baseline session loaded).generation
  dropped : p.dropped = true ↔ Displaced session loaded

/-- The run is on a file of another account and has not noticed. -/
def Foreign (loaded : Disk) (p : Progress) : Prop :=
  p.snapshot.state.identity ≠ session ∧ Displaced session loaded

variable {semver validOrigin fits session}
variable {loaded : Disk} {replies rest : List Reply} {p q : Progress}

theorem baseline_identity (loaded : Disk) :
    (baseline session loaded).state.identity = session := by
  unfold baseline
  split
  · split
    · assumption
    · rfl
  · rfl

variable {snapshot : Snapshot} {outcome : SyncOutcome} {run : SyncRun}

theorem baseline_own (h : snapshot.state.identity = session) :
    baseline session (some snapshot) = snapshot :=
  if_pos h

theorem baseline_displaced (h : Displaced session loaded) :
    baseline session loaded = ⟨0, session.newState⟩ := by
  obtain ⟨s, hs, hid⟩ := h
  cases hs
  exact if_neg hid

theorem not_displaced_own (h : snapshot.state.identity = session) :
    ¬ Displaced session (some snapshot) := by
  intro hd
  obtain ⟨s, hs, hid⟩ := hd
  cases hs
  exact hid h

variable {state : SyncState}

theorem pullPage_foreign (h : state.identity ≠ session) :
    pullPage semver session state replies
      = (.error .wrongAccount, replies, []) :=
  if_pos h

namespace OnBaseline

theorem identity (h : OnBaseline session loaded p) :
    p.snapshot.state.identity = session :=
  h.tracks.identity.trans (baseline_identity loaded)

theorem advance (h : OnBaseline session loaded p) {state : SyncState}
    {he : List Heard} (ht : Tracks p.snapshot.state he state) :
    OnBaseline session loaded (p.advance state rest he) :=
  ⟨h.tracks.trans ht, h.generation, h.dropped⟩

theorem resetToSession (h : Displaced session loaded) :
    OnBaseline session loaded (.resetToSession session replies) := by
  refine ⟨?_, ?_, ?_⟩
  · rw [baseline_displaced h]
    exact .refl _
  · rw [baseline_displaced h]
    rfl
  · exact iff_of_true rfl h

end OnBaseline

theorem loadOrReset_spec (loaded : Disk) (replies : List Reply) :
    Foreign session loaded (loadOrReset semver session loaded replies)
      ∨ OnBaseline session loaded
        (loadOrReset semver session loaded replies) := by
  cases loaded with
  | none =>
    right
    refine ⟨.refl _, rfl, iff_of_false (by simp [loadOrReset]) ?_⟩
    intro ⟨s, hs, _⟩
    cases hs
  | some snapshot =>
    unfold loadOrReset
    dsimp only
    by_cases hid : snapshot.state.identity = session
    · right
      have hst : OnBaseline session (some snapshot)
          { snapshot, dropped := false, replies, heard := [] } := by
        refine ⟨?_, ?_, ?_⟩
        · rw [baseline_own hid]
          exact .refl _
        · rw [baseline_own hid]
        · exact iff_of_false (by simp) (not_displaced_own hid)
      split
      case isTrue =>
        split
        case h_1 hp => exact hst.advance (pullPage_tracks hp)
        case h_2 hp => exact absurd hid (pullPage_wrongAccount hp)
        case h_3 => exact hst.advance (.refl _)
      case isFalse => exact hst
    · have hd : Displaced session (some snapshot) := ⟨_, rfl, hid⟩
      split
      case isTrue =>
        rw [pullPage_foreign hid]
        exact .inr (.resetToSession hd)
      case isFalse => exact .inl ⟨hid, hd⟩

variable {fuel : Nat}

theorem pullLoop_onBaseline :
    ∀ {p q : Progress} {pu : Nat} {r : Except Ending Nat},
      OnBaseline session loaded p →
      pullLoop semver session fuel p pu = (q, r) →
      OnBaseline session loaded q := by
  induction fuel with
  | zero =>
    intro p q pu r hp h
    cases h
    exact hp
  | succ fuel ih =>
    intro p q pu r hp h
    unfold pullLoop at h
    split at h
    case h_1 hpl =>
      cases h
      exact hp.advance (pullPage_tracks hpl)
    case h_2 hpl => exact ih (hp.advance (pullPage_tracks hpl)) h
    case h_3 =>
      split at h
      case h_1 hr =>
        exact ih (hp.advance (rebuild_tracks hr)) h
      case h_2 =>
        cases h
        exact hp
    case h_4 hpl =>
      exact absurd hp.identity (pullPage_wrongAccount hpl)
    case h_5 =>
      cases h
      exact hp

theorem pushLoop_onBaseline {k : List String} :
    ∀ {p q : Progress} {pu : Nat} {r : Except SyncError Nat},
      OnBaseline session loaded p →
      pushLoop semver session k p pu = (q, r) →
      OnBaseline session loaded q := by
  induction k with
  | nil =>
    intro p q pu r hp h
    cases h
    exact hp
  | cons key k ih =>
    intro p q pu r hp h
    unfold pushLoop at h
    split at h
    case h_1 hps => exact ih (hp.advance (push_tracks hps)) h
    case h_2 hps => exact ih (hp.advance (push_tracks hps)) h
    case h_3 hps =>
      cases h
      exact hp.advance (push_tracks hps)

theorem pullLoop_spec {pu : Nat} {r : Except Ending Nat}
    (hp : Foreign session loaded p ∨ OnBaseline session loaded p)
    (h : pullLoop semver session (fuel + 1) p pu = (q, r)) :
    OnBaseline session loaded q := by
  rcases hp with ⟨hid, hd⟩ | hp
  · unfold pullLoop at h
    rw [pullPage_foreign hid] at h
    exact pullLoop_onBaseline (.resetToSession hd) h
  · exact pullLoop_onBaseline hp h

theorem syncInner_tracks (h : syncInner semver session loaded replies = run) :
    Tracks (baseline session loaded).state run.heard run.snapshot.state
      ∧ run.snapshot.generation = (baseline session loaded).generation
      ∧ (run.dropped = true ↔ Displaced session loaded) := by
  have hs := @loadOrReset_spec semver session loaded replies
  unfold syncInner at h
  dsimp only at h
  split at h
  case h_1 p ending hpl =>
    have hp := pullLoop_spec hs hpl
    subst h
    exact ⟨hp.tracks, hp.generation, hp.dropped⟩
  case h_2 p pulled hpl =>
    have hp := pullLoop_spec hs hpl
    split at h
    case h_1 q e hps =>
      have hq := pushLoop_onBaseline hp hps
      subst h
      exact ⟨hq.tracks, hq.generation, hq.dropped⟩
    case h_2 q pushed hps =>
      have hq := pushLoop_onBaseline hp hps
      subst h
      exact ⟨hq.tracks, hq.generation, hq.dropped⟩

theorem pullLoop_ne_finished :
    ∀ {p q : Progress} {pu : Nat},
      pullLoop semver session fuel p pu
        ≠ (q, .error (.finished outcome)) := by
  induction fuel with
  | zero =>
    intro p q pu h
    cases h
  | succ fuel ih =>
    intro p q pu h
    unfold pullLoop at h
    split at h
    case h_1 => cases h
    case h_2 => exact ih h
    case h_3 =>
      split at h
      case h_1 => exact ih h
      case h_2 => cases h
    case h_4 => exact ih h
    case h_5 => cases h

theorem syncInner_finished (h : syncInner semver session loaded replies = run)
    (hf : run.ending = .finished outcome) :
    outcome.remote = remoteSelections run.snapshot.state := by
  unfold syncInner at h
  dsimp only at h
  split at h
  case h_1 p ending hp =>
    subst h
    subst hf
    exact absurd hp pullLoop_ne_finished
  case h_2 =>
    split at h
    case h_1 =>
      subst h
      cases hf
    case h_2 =>
      subst h
      cases hf
      rfl

variable {disk disk' : Disk}

theorem saveState_eq_ok {s : Snapshot}
    (h : saveState semver validOrigin fits snapshot disk = .ok s) :
    disk.map Snapshot.generation
        = (if snapshot.generation = 0 then none
          else some snapshot.generation)
      ∧ s = ⟨snapshot.generation + 1, snapshot.state⟩ := by
  unfold saveState at h
  dsimp only at h
  cases hs : save semver validOrigin fits
      (if snapshot.generation = 0 then none else some snapshot.generation)
      snapshot.state disk with
  | error e =>
    rw [hs] at h
    cases h
  | ok written =>
    rw [hs] at h
    cases h
    obtain ⟨hg, _, hw⟩ := save_eq_ok hs
    refine ⟨hg, ?_⟩
    rw [hw]
    by_cases h0 : snapshot.generation = 0 <;> simp [h0]

theorem finish_eq_ok
    (h : run.finish semver validOrigin fits disk = (.ok outcome, disk')) :
    run.ending = .finished outcome
      ∧ disk' = some ⟨run.snapshot.generation + 1, run.snapshot.state⟩ := by
  unfold SyncRun.finish at h
  split at h
  case h_1 => cases h
  case h_2 => split at h <;> cases h
  case h_3 hen =>
    split at h
    case h_1 saved hs =>
      cases h
      exact ⟨hen, by rw [(saveState_eq_ok hs).2]⟩
    case h_2 => cases h

theorem syncNow_eq_ok {e s : Bool} {st : Disk}
    (h : syncNow semver validOrigin fits e s (some session)
      st replies disk = (.ok outcome, disk')) :
    (syncInner semver session st replies).finish semver validOrigin
      fits disk = (.ok outcome, disk') := by
  unfold syncNow at h
  split_ifs at h
  · cases h
  · cases h
  · dsimp only at h
    split at h
    case h_1 => cases h
    case h_2 loaded hl =>
      rw [(load_eq_ok hl).1] at h
      exact h

theorem mem_remoteSelections {key : String} :
    (∃ r ∈ remoteSelections state, r.key = key)
      ↔ state.hasRemote key = true := by
  unfold remoteSelections SyncState.hasRemote SyncState.entry
  constructor
  · intro ⟨r, hr, hkey⟩
    obtain ⟨p, hp, hmap⟩ := List.mem_filterMap.1 hr
    obtain ⟨record, hrec, hr⟩ := Option.map_eq_some_iff.1 hmap
    subst hr hkey
    rw [Table.mem_toList.1 hp]
    simp [hrec]
  · intro h
    cases he : state.entries[key]? with
    | none => simp [he] at h
    | some e =>
      rw [he] at h
      obtain ⟨record, hrec⟩ := Option.isSome_iff_exists.1 h
      refine ⟨⟨key, record.value⟩, ?_, rfl⟩
      rw [List.mem_filterMap]
      refine ⟨(key, e), Table.mem_toList.2 he, ?_⟩
      have hrec : e.remote = some record := hrec
      rw [hrec]
      rfl

-- ==== the outcome

/-- An edit of the key waits in the stored state and goes unacknowledged
in the run, while a remote record of the key is known. -/
def Contested (semver : String → Bool) (session : Identity)
    (stored : Disk) (replies : List Reply) (key : String) : Prop :=
  let start := (baseline session stored).state
  let heard := (syncInner semver session stored replies).heard
  start.pendingEdit key ≠ none ∧ .acked key ∉ heard
    ∧ knownAfter key (start.hasRemote key) heard = true

/-- The core overrides no unresolved edit exactly when no key is
contested in the run. -/
theorem applied_selections_settled_iff {enabled syncing : Bool}
    {stored : Disk} {outcome : SyncOutcome} {saved : Snapshot}
    (h : syncNow semver validOrigin fits enabled syncing (some session)
      stored replies disk = (.ok outcome, some saved)) :
    (∀ a ∈ appliedSelections outcome,
        saved.state.pendingEdit a.1 = none)
      ↔ ∀ key, ¬ Contested semver session stored replies key := by
  obtain ⟨hfin, hs⟩ := finish_eq_ok (syncNow_eq_ok h)
  obtain ⟨ht, _, _⟩ := @syncInner_tracks semver session stored replies _ rfl
  cases hs
  have hr := syncInner_finished rfl hfin
  have hky : ∀ key, (∃ a ∈ appliedSelections outcome, a.1 = key)
      ↔ knownAfter key
        ((baseline session stored).state.hasRemote key)
        (syncInner semver session stored replies).heard = true := by
    intro key
    rw [← ht.hasRemote, ← mem_remoteSelections, ← hr]
    simp [appliedSelections]
  constructor
  · intro hcl key hc
    obtain ⟨hw, hu, hk⟩ := hc
    obtain ⟨a, ha, hkey⟩ := (hky key).2 hk
    have hn := hcl a ha
    rw [ht.pendingEdit, hkey, if_neg hu] at hn
    exact hw hn
  · intro hf a ha
    have hk := (hky a.1).1 ⟨a, ha, rfl⟩
    rw [ht.pendingEdit]
    split
    case isTrue => rfl
    case isFalse hu =>
      by_contra hw
      exact hf a.1 ⟨hw, hu, hk⟩

/-- The account of the runs below. -/
def demoSession : Identity := ⟨"https://cloud.example", "account-1"⟩

def demoSelection (version : String) (enabled : Bool) : PluginSelection :=
  ⟨1, "acme.plugin", version, enabled⟩

def demoRecord (revision : Int) (version : String) (enabled : Bool) :
    Record :=
  ⟨collection, "acme.plugin", revision, false,
    some (demoSelection version enabled)⟩

/-- A file whose user enabled a plugin that another device disabled; the
conflict waits for a decision. -/
def conflictedFile : Snapshot where
  generation := 3
  state :=
    { demoSession.newState with
      cursor := 2
      entries := Table.single "acme.plugin"
        { remote := some (demoRecord 2 "1.0.0" false)
          pending := some
            { baseRevision := some 1
              edit := .put (demoSelection "1.0.0" true)
              conflict := true } } }

/-- A run with nothing new from the server hands the remote selection of
a conflicting key to the core: the user's choice is overridden while it
still waits. -/
theorem conflicting_selection_applied :
    ∃ outcome saved,
      syncNow (· == "1.0.0") (· == "https://cloud.example") (fun _ => true)
          true false (some demoSession) (some conflictedFile)
          [.changes [] 2 false, .changes [] 2 false] (some conflictedFile)
        = (.ok outcome, some saved)
      ∧ ("acme.plugin", false) ∈ appliedSelections outcome
      ∧ saved.state.pendingEdit "acme.plugin"
        = some (.put (demoSelection "1.0.0" true)) :=
  ⟨{ pulled := 0, pushed := 0, conflicts := ["acme.plugin"]
     remote := [⟨"acme.plugin", some (demoSelection "1.0.0" false)⟩] },
    ⟨4, conflictedFile.state⟩, by rfl, by decide, by rfl⟩

/-- A file with one edit the server has not seen. -/
def stagedFile : Snapshot where
  generation := 3
  state :=
    { demoSession.newState with
      entries := Table.single "acme.plugin"
        { pending := some
            { baseRevision := none
              edit := .put (demoSelection "1.0.0" true)
              conflict := false } } }

/-- Once the server has taken the edit, nothing is contested. -/
theorem acknowledged_selection_settled :
    (syncNow (· == "1.0.0") (· == "https://cloud.example")
        (fun _ => true) true false (some demoSession) (some stagedFile)
        [.changes [] 0 false, .changes [] 0 false,
          .record (demoRecord 5 "1.0.0" true)] (some stagedFile)).1.toOption
      = some { pulled := 0, pushed := 1, conflicts := []
               remote := [⟨"acme.plugin",
                 some (demoSelection "1.0.0" true)⟩] }
      ∧ ∀ key, ¬ Contested (· == "1.0.0") demoSession (some stagedFile)
        [.changes [] 0 false, .changes [] 0 false,
          .record (demoRecord 5 "1.0.0" true)] key := by
  refine ⟨by rfl, ?_⟩
  exact (@applied_selections_settled_iff (· == "1.0.0")
    (· == "https://cloud.example") (fun _ => true) demoSession _
    (some stagedFile) true false (some stagedFile) _
    ⟨4, (syncInner (· == "1.0.0") demoSession (some stagedFile)
      [.changes [] 0 false, .changes [] 0 false,
        .record (demoRecord 5 "1.0.0" true)]).snapshot.state⟩
    rfl).1 (by decide)

end TikTools.Sync
