/-
The settings a processor is handed, and how fresh they are.

`settingsFor` reads the cache under its lock, loads the file OUTSIDE the
lock when the cached revision lags, and takes the lock again to insert
what it loaded. A settings save writes the file and then bumps the
revision. The four critical sections (`lookup`, `insertLoaded`,
`bumpRevision` and the file write) interleave freely, and so does the
read of the file between the two sections of a reader.

# Freshness

The cache is generic in the values it holds. The system instantiates it
with settings that carry the number of writes their file had seen when
it was read, a history that no step looks at. A value is fresh with
respect to a bump when it was read after the writes that preceded the
bump.

The invariant `Fresh` ties the revisions to that history: whoever holds
the CURRENT revision holds a value read after every bump that advanced
the revision. A reader that was under way when a bump came holds an
older revision, so what it inserts is never served again; but it still
returns it to its own caller.
-/
import TikTools.Lib.Json
import TikTools.Lib.Runs
import TikTools.Lib.Table
import Mathlib.Logic.Function.Basic

namespace TikTools.Processors

open TikTools.Lib List Table

-- ==== the cache

/-- One plugin's cached settings. -/
structure CachedProcessorSettings (V : Type) where
  currentRevision : Nat
  loadedRevision : Nat
  settings : V
  deriving DecidableEq

/-- The cache, by plugin id. -/
abbrev ProcessorSettingsStore (V : Type) :=
  Table String (CachedProcessorSettings V)

variable {id : String}

namespace ProcessorSettingsStore

variable {V : Type} [Inhabited V]

/-- `or_default`: the entry of a plugin, or a fresh one. -/
def entry (cache : ProcessorSettingsStore V) (pluginId : String) :
    CachedProcessorSettings V :=
  cache[pluginId]?.getD ⟨0, 0, default⟩

omit [Inhabited V] in
/-- What the first section of `settings_for` finds: the cached settings,
or the revision it is about to load for. -/
def lookup (cache : ProcessorSettingsStore V) (pluginId : String) :
    V ⊕ Nat :=
  match cache[pluginId]? with
  | some entry =>
    if entry.loadedRevision = entry.currentRevision
    then .inl entry.settings
    else .inr entry.currentRevision
  | none => .inr 0

/-- The second section of `settings_for`: keep what was loaded. -/
def insertLoaded (cache : ProcessorSettingsStore V) (pluginId : String)
    (revision : Nat) (settings : V) : ProcessorSettingsStore V :=
  cache.insert pluginId
    { cache.entry pluginId with
      settings := settings
      loadedRevision := revision }

/-- A save announces that the file changed. -/
def bumpRevision (cache : ProcessorSettingsStore V) (pluginId : String) :
    ProcessorSettingsStore V :=
  cache.insert pluginId
    { cache.entry pluginId with
      currentRevision :=
        saturatingAdd (cache.entry pluginId).currentRevision 1 }

@[simp] theorem entry_insert_self (cache : ProcessorSettingsStore V)
    (id : String) (e : CachedProcessorSettings V) :
    ProcessorSettingsStore.entry (cache.insert id e) id = e := by
  simp [entry]

theorem entry_insert_ne (cache : ProcessorSettingsStore V)
    {other : String} (e : CachedProcessorSettings V) (h : id ≠ other) :
    ProcessorSettingsStore.entry (cache.insert id e) other
      = cache.entry other := by
  simp [entry, get_insert_ne cache e h]

variable {cache : ProcessorSettingsStore V}

theorem entry_of_get {e : CachedProcessorSettings V}
    (h : cache[id]? = some e) : cache.entry id = e := by
  simp [entry, h]

theorem lookup_hit {v : V} (h : cache.lookup id = .inl v) :
    (cache.entry id).loadedRevision = (cache.entry id).currentRevision
      ∧ (cache.entry id).settings = v := by
  unfold lookup at h
  cases hget : cache[id]? with
  | none => rw [hget] at h; cases h
  | some e =>
    rw [hget] at h
    by_cases hcur : e.loadedRevision = e.currentRevision
    · simp only [if_pos hcur] at h
      rw [entry_of_get hget]
      exact ⟨hcur, Sum.inl.inj h⟩
    · simp only [if_neg hcur] at h
      cases h

theorem lookup_miss {revision : Nat} (h : cache.lookup id = .inr revision) :
    revision = (cache.entry id).currentRevision := by
  unfold lookup at h
  cases hget : cache[id]? with
  | none =>
    rw [hget] at h
    simpa [entry, hget] using (Sum.inr.inj h).symm
  | some e =>
    rw [hget] at h
    by_cases hcur : e.loadedRevision = e.currentRevision
    · simp only [if_pos hcur] at h
      cases h
    · simp only [if_neg hcur] at h
      rw [entry_of_get hget]
      exact (Sum.inr.inj h).symm

theorem lookup_lagging (h : (cache.entry id).loadedRevision
      ≠ (cache.entry id).currentRevision) :
    cache.lookup id = .inr (cache.entry id).currentRevision := by
  unfold lookup
  cases hget : cache[id]? with
  | none => simp [entry, hget] at h
  | some e =>
    rw [entry_of_get hget] at h ⊢
    simp only [if_neg h]

omit [Inhabited V] in
theorem lookup_insert_current (cache : ProcessorSettingsStore V)
    (id : String) (revision : Nat) (settings : V) :
    lookup (cache.insert id ⟨revision, revision, settings⟩) id
      = .inl settings := by
  simp [lookup]

end ProcessorSettingsStore

-- ==== the loader

/-- The settings file of a plugin, as a read finds it. -/
inductive SettingsFile where
  | missing
  | unreadable
  | corrupt
  | stored (value : Json)
  deriving DecidableEq

/-- The default of one schema property, for a key the file omits. -/
def applyDefault (merged : List (String × Json))
    (property : String × Json) : List (String × Json) :=
  if (Json.member property.1 merged).isSome then merged
  else if ((property.2.get "secret").bind Json.asBool).getD false then merged
  else
    match property.2.get "default" with
    | some (.string s) => Json.setMember property.1 (.string s) merged
    | some (.number n) => Json.setMember property.1 (.number n) merged
    | some (.bool b) => Json.setMember property.1 (.bool b) merged
    | _ => merged

/-- Overlay the schema defaults for keys the stored settings omit. -/
def applySettingsDefaults (schema : Option Json) (values : Json) : Json :=
  match (schema.bind (Json.get "properties")).bind Json.asObject with
  | none => values
  | some properties =>
    .object (properties.foldl applyDefault (values.asObject.getD []))

/-- The stored settings with the defaults of the schema, unless the file
cannot be read. A file that does not parse counts as empty. -/
def loadPluginSettings (schema : Option Json) : SettingsFile → Option Json
  | .missing | .corrupt => some (applySettingsDefaults schema (.object []))
  | .unreadable => none
  | .stored value => some (applySettingsDefaults schema value)

/-- The loader of `processor_settings_for`: the plugin must be in the
registry (with the schema it declares, if any), and what is no object
degrades to null. -/
def processorSettings (plugin : Option (Option Json))
    (file : SettingsFile) : Json :=
  match plugin.bind fun schema => loadPluginSettings schema file with
  | some (.object members) => .object members
  | _ => .null

-- ==== the system

/-- Settings, and how many writes their file had seen when it was
read. -/
structure Loaded where
  settings : Json
  writes : Nat
  deriving DecidableEq

instance : Inhabited Loaded := ⟨⟨.null, 0⟩⟩

/-- A read under way. Both stages remember how many writes the bumps that
had returned when the read began were known to follow. -/
inductive Reader where
  /-- Found the cache lagging at `revision`; about to load. -/
  | checked (pluginId : String) (revision : Nat) (startedAfter : Nat)
  /-- Loaded; about to insert and return. -/
  | loaded (pluginId : String) (revision : Nat) (settings : Loaded)
      (startedAfter : Nat)

/-- A value handed to a processor: the writes its read began after, by
the bumps that advanced the revision, and the writes any bump that had
returned when it was served was preceded by. -/
structure Served where
  pluginId : String
  settings : Loaded
  startedAfter : Nat
  servedAfter : Nat
  deriving DecidableEq

/-- The claim on one served value: it was read after the write that
preceded any bump that had returned when it was served. -/
def Served.ReadAfterBumps (v : Served) : Prop :=
  v.servedAfter ≤ v.settings.writes

/-- It was read after the write that preceded any bump that had returned
when its read began, of those that advanced the revision. -/
def Served.ReadAfterEarlierBumps (v : Served) : Prop :=
  v.startedAfter ≤ v.settings.writes

instance (v : Served) : Decidable v.ReadAfterBumps :=
  inferInstanceAs (Decidable (_ ≤ _))

/-- The files, the cache, the reads under way, and the history. -/
structure System where
  files : Table String SettingsFile
  cache : ProcessorSettingsStore Loaded
  readers : Table Nat Reader
  /-- How often each file was written. -/
  writes : String → Nat
  /-- The writes that preceded the last bump to return. -/
  bumped : String → Nat
  /-- The writes that preceded the last bump to advance the revision. -/
  confirmed : String → Nat
  served : List Served

/-- Nothing was saved or read yet, whatever the files hold. -/
def System.start (files : Table String SettingsFile) : System where
  files := files
  cache := ∅
  readers := ∅
  writes := fun _ => 0
  bumped := fun _ => 0
  confirmed := fun _ => 0
  served := []

/-- The atomic steps. -/
inductive Action where
  /-- A save or a reset replaces the file of a plugin. -/
  | write (pluginId : String) (file : SettingsFile)
  /-- A `bump_revision` runs and returns. -/
  | bump (pluginId : String)
  /-- A read begins: the first section of `settings_for`. -/
  | check (reader : Nat) (pluginId : String)
  /-- A read loads the file, with the registry as it then is. -/
  | load (reader : Nat) (plugin : Option (Option Json))
  /-- A read inserts what it loaded and returns it. -/
  | insert (reader : Nat)

namespace System

/-- Hand a value to a processor. -/
def serve (s : System) (pluginId : String) (settings : Loaded)
    (startedAfter : Nat) : System :=
  { s with
    served := s.served
      ++ [⟨pluginId, settings, startedAfter, s.bumped pluginId⟩] }

/-- The bump, and the writes it announces. -/
def bump (s : System) (id : String) : System :=
  { s with
    cache := s.cache.bumpRevision id
    bumped := Function.update s.bumped id (s.writes id)
    confirmed :=
      if (s.cache.entry id).currentRevision < u64Max
      then Function.update s.confirmed id (s.writes id)
      else s.confirmed }

/-- One step, if it is enabled. -/
def next (s : System) : Action → Option System
  | .write id file =>
    some { s with
      files := s.files.insert id file
      writes := Function.update s.writes id (s.writes id + 1) }
  | .bump id => some (s.bump id)
  | .check reader id =>
    match s.readers[reader]? with
    | some _ => none
    | none =>
      match s.cache.lookup id with
      | .inl settings => some (s.serve id settings (s.confirmed id))
      | .inr revision =>
        some { s with
          readers := s.readers.insert reader
            (.checked id revision (s.confirmed id)) }
  | .load reader plugin =>
    match s.readers[reader]? with
    | some (.checked id revision startedAfter) =>
      let settings := processorSettings plugin (s.files[id]?.getD .missing)
      some { s with
        readers := s.readers.insert reader
          (.loaded id revision ⟨settings, s.writes id⟩ startedAfter) }
    | _ => none
  | .insert reader =>
    match s.readers[reader]? with
    | some (.loaded id revision settings startedAfter) =>
      let kept : System := { s with
        cache := s.cache.insertLoaded id revision settings
        readers := s.readers.erase reader }
      some (kept.serve id settings startedAfter)
    | _ => none

end System

-- ==== the invariant

/-- What a reader holds, against the current revision of its plugin. -/
def Reader.Fresh (s : System) : Reader → Prop
  | .checked id revision startedAfter =>
    startedAfter ≤ s.writes id
      ∧ revision ≤ (s.cache.entry id).currentRevision
      ∧ (revision = (s.cache.entry id).currentRevision →
        s.confirmed id ≤ startedAfter)
  | .loaded id revision settings startedAfter =>
    startedAfter ≤ settings.writes
      ∧ revision ≤ (s.cache.entry id).currentRevision
      ∧ (revision = (s.cache.entry id).currentRevision →
        s.confirmed id ≤ settings.writes)

/-- Whoever holds the current revision holds a value read after every
bump that advanced it. -/
structure System.Fresh (s : System) : Prop where
  confirmed : ∀ id, s.confirmed id ≤ s.writes id
  bounded : ∀ id, (s.cache.entry id).currentRevision ≤ u64Max
  entry : ∀ id, (s.cache.entry id).loadedRevision
      ≤ (s.cache.entry id).currentRevision
    ∧ ((s.cache.entry id).loadedRevision
        = (s.cache.entry id).currentRevision →
      s.confirmed id ≤ (s.cache.entry id).settings.writes)
  reader : ∀ (k : Nat) (r : Reader), s.readers[k]? = some r → r.Fresh s
  served : ∀ v ∈ s.served, v.ReadAfterEarlierBumps

section

variable {s t : System}

/-- A reader stays fresh while the revisions and the confirmed writes
stay and the writes only grow. -/
theorem Reader.Fresh.mono {r : Reader} (h : r.Fresh s)
    (hw : ∀ id, s.writes id ≤ t.writes id)
    (hr : ∀ id, (t.cache.entry id).currentRevision
      = (s.cache.entry id).currentRevision)
    (hc : t.confirmed = s.confirmed) : r.Fresh t := by
  cases r with
  | checked id revision startedAfter =>
    obtain ⟨hs, hle, hcur⟩ := h
    refine ⟨Nat.le_trans hs (hw id), ?_, ?_⟩
    · rwa [hr]
    · rwa [hr, hc]
  | loaded id revision settings startedAfter =>
    obtain ⟨hs, hle, hcur⟩ := h
    refine ⟨hs, ?_, ?_⟩
    · rwa [hr]
    · rwa [hr, hc]

namespace System

theorem Fresh.start (f : Table String SettingsFile) :
    (System.start f).Fresh where
  confirmed := fun _ => Nat.le_refl 0
  bounded := by simp [System.start, ProcessorSettingsStore.entry]
  entry := by simp [System.start, ProcessorSettingsStore.entry]
  reader := by simp [System.start]
  served := by simp [System.start]

-- ---- step by step

variable {startedAfter : Nat}

variable {settings : Loaded}

theorem Fresh.serve (h : s.Fresh) (hle : startedAfter ≤ settings.writes) :
    (s.serve id settings startedAfter).Fresh where
  confirmed := h.confirmed
  bounded := h.bounded
  entry := h.entry
  reader := fun k r hr =>
    (h.reader k r hr).mono (fun _ => Nat.le_refl _) (fun _ => rfl) rfl
  served := by
    intro v hv
    simp only [System.serve, mem_append, mem_singleton] at hv
    rcases hv with hv | rfl
    · exact h.served v hv
    · exact hle

theorem Fresh.write (h : s.Fresh) (id : String) (f : SettingsFile) :
    Fresh { s with
      files := s.files.insert id f
      writes := Function.update s.writes id (s.writes id + 1) } := by
  have hg : ∀ other, s.writes other
      ≤ Function.update s.writes id (s.writes id + 1) other := by
    intro other
    by_cases he : other = id
    · subst he
      simp
    · simp [he]
  exact
    { confirmed := fun other =>
        Nat.le_trans (h.confirmed other) (hg other)
      bounded := h.bounded
      entry := h.entry
      reader := fun k r hr =>
        (h.reader k r hr).mono hg (fun _ => rfl) rfl
      served := h.served }

/-- A bump that finds the counter at its largest value only notes that
it came. -/
theorem bump_saturated (h : ¬ (s.cache.entry id).currentRevision < u64Max) :
    (s.bump id).confirmed = s.confirmed := by
  simp [bump, h]

theorem currentRevision_bump
    (h : (s.cache.entry id).currentRevision < u64Max) :
    ((s.bump id).cache.entry id).currentRevision
      = (s.cache.entry id).currentRevision + 1 := by
  simp only [bump, ProcessorSettingsStore.bumpRevision,
    ProcessorSettingsStore.entry_insert_self, saturatingAdd]
  omega

variable {other : String}

theorem entry_bump_ne (h : id ≠ other) :
    (s.bump id).cache.entry other = s.cache.entry other :=
  ProcessorSettingsStore.entry_insert_ne s.cache _ h

theorem confirmed_bump_ne (h : id ≠ other) :
    (s.bump id).confirmed other = s.confirmed other := by
  by_cases hlt : (s.cache.entry id).currentRevision < u64Max
  · simp [bump, hlt, Function.update_of_ne (Ne.symm h)]
  · rw [bump_saturated hlt]

theorem Fresh.confirmed_bump_le (h : s.Fresh) (id other : String) :
    (s.bump id).confirmed other ≤ s.writes other := by
  by_cases he : id = other
  · subst he
    by_cases hlt : (s.cache.entry id).currentRevision < u64Max
    · simp [bump, hlt]
    · rw [bump_saturated hlt]
      exact h.confirmed id
  · rw [confirmed_bump_ne he]
    exact h.confirmed other

theorem Fresh.currentRevision_saturated (h : s.Fresh)
    (hlt : ¬ (s.cache.entry id).currentRevision < u64Max) :
    ((s.bump id).cache.entry id).currentRevision
      = (s.cache.entry id).currentRevision := by
  have hmax := h.bounded id
  simp only [bump, ProcessorSettingsStore.bumpRevision,
    ProcessorSettingsStore.entry_insert_self, saturatingAdd]
  omega

variable {revision : Nat}

theorem Fresh.held_bump (h : s.Fresh) (id other : String) {w : Nat}
    (hle : revision ≤ (s.cache.entry other).currentRevision)
    (hc : revision = (s.cache.entry other).currentRevision →
      s.confirmed other ≤ w) :
    revision ≤ ((s.bump id).cache.entry other).currentRevision
      ∧ (revision = ((s.bump id).cache.entry other).currentRevision →
        (s.bump id).confirmed other ≤ w) := by
  by_cases he : id = other
  · subst he
    by_cases hlt : (s.cache.entry id).currentRevision < u64Max
    · rw [currentRevision_bump hlt]
      exact ⟨by omega, fun h => by omega⟩
    · rw [h.currentRevision_saturated hlt, bump_saturated hlt]
      exact ⟨hle, hc⟩
  · rw [entry_bump_ne he, confirmed_bump_ne he]
    exact ⟨hle, hc⟩

theorem Fresh.bump (h : s.Fresh) (id : String) : (s.bump id).Fresh where
  confirmed := h.confirmed_bump_le id
  bounded := by
    intro other
    by_cases he : id = other
    · subst he
      simp only [System.bump, ProcessorSettingsStore.bumpRevision,
        ProcessorSettingsStore.entry_insert_self]
      exact Nat.min_le_right _ _
    · rw [entry_bump_ne he]
      exact h.bounded other
  entry := by
    intro other
    have hh := h.held_bump id other (h.entry other).1 (h.entry other).2
    by_cases he : id = other
    · subst he
      simpa [System.bump, ProcessorSettingsStore.bumpRevision] using hh
    · rwa [entry_bump_ne he] at hh ⊢
  reader := by
    intro k r hr
    have hr' := h.reader k r hr
    cases r with
    | checked other revision startedAfter =>
      obtain ⟨hs, hle, hc⟩ := hr'
      exact ⟨hs, h.held_bump id other hle hc⟩
    | loaded other revision settings startedAfter =>
      obtain ⟨hs, hle, hc⟩ := hr'
      exact ⟨hs, h.held_bump id other hle hc⟩
  served := h.served

theorem Fresh.check (h : s.Fresh) (reader : Nat)
    (hms : s.cache.lookup id = .inr revision) :
    Fresh { s with
      readers := s.readers.insert reader
        (.checked id revision (s.confirmed id)) } where
  confirmed := h.confirmed
  bounded := h.bounded
  entry := h.entry
  reader := by
    intro k r hr
    rw [get_insert] at hr
    by_cases hk : reader = k
    · rw [if_pos hk, Option.some_inj] at hr
      subst hr
      have hrev := ProcessorSettingsStore.lookup_miss hms
      exact ⟨h.confirmed id, Nat.le_of_eq hrev, fun _ => Nat.le_refl _⟩
    · rw [if_neg hk] at hr
      exact h.reader k r hr
  served := h.served

variable {reader : Nat}

theorem Fresh.load (h : s.Fresh) (hrd : s.readers[reader]?
      = some (.checked id revision startedAfter)) (settings : Json) :
    Fresh { s with
      readers := s.readers.insert reader
        (.loaded id revision ⟨settings, s.writes id⟩ startedAfter) } where
  confirmed := h.confirmed
  bounded := h.bounded
  entry := h.entry
  reader := by
    intro k r hr
    rw [get_insert] at hr
    by_cases hk : reader = k
    · rw [if_pos hk, Option.some_inj] at hr
      subst hr
      obtain ⟨hs, hle, -⟩ := h.reader reader _ hrd
      exact ⟨hs, hle, fun _ => h.confirmed id⟩
    · rw [if_neg hk] at hr
      exact h.reader k r hr
  served := h.served

theorem Fresh.insert (h : s.Fresh) (hrd : s.readers[reader]?
      = some (.loaded id revision settings startedAfter)) :
    Fresh { s with
      cache := s.cache.insertLoaded id revision settings
      readers := s.readers.erase reader } := by
  have ho : ∀ {other}, id ≠ other →
      (s.cache.insertLoaded id revision settings).entry other
        = s.cache.entry other := fun hne =>
    ProcessorSettingsStore.entry_insert_ne s.cache _ hne
  have hrv : ∀ other,
      ((s.cache.insertLoaded id revision settings).entry
        other).currentRevision = (s.cache.entry other).currentRevision := by
    intro other
    by_cases he : id = other
    · subst he
      simp [ProcessorSettingsStore.insertLoaded]
    · rw [ho he]
  obtain ⟨-, hle, hc⟩ := h.reader reader _ hrd
  constructor
  · exact h.confirmed
  · intro other
    exact (hrv other).symm ▸ h.bounded other
  · intro other
    by_cases he : id = other
    · subst he
      simpa [ProcessorSettingsStore.insertLoaded] using ⟨hle, hc⟩
    · simpa only [ho he] using h.entry other
  · intro k r hr
    rw [get_erase] at hr
    by_cases hk : reader = k
    · simp [hk] at hr
    · rw [if_neg hk] at hr
      exact (h.reader k r hr).mono (fun _ => Nat.le_refl _) hrv rfl
  · exact h.served

theorem Fresh.next {a : Action} (h : s.Fresh) (hn : s.next a = some t) :
    t.Fresh := by
  cases a with
  | write id file =>
    obtain rfl := Option.some.inj hn
    exact h.write id file
  | bump id =>
    obtain rfl := Option.some.inj hn
    exact h.bump id
  | check reader id =>
    simp only [System.next] at hn
    cases hr : s.readers[reader]? with
    | some r => simp [hr] at hn
    | none =>
      cases hl : s.cache.lookup id with
      | inl settings =>
        simp only [hr, hl, Option.some_inj] at hn
        subst hn
        obtain ⟨hcur, rfl⟩ := ProcessorSettingsStore.lookup_hit hl
        exact h.serve ((h.entry id).2 hcur)
      | inr revision =>
        simp only [hr, hl, Option.some_inj] at hn
        subst hn
        exact h.check reader hl
  | load reader plugin =>
    simp only [System.next] at hn
    cases hr : s.readers[reader]? with
    | none => simp [hr] at hn
    | some r =>
      cases r with
      | loaded id revision settings startedAfter =>
        simp [hr] at hn
      | checked id revision startedAfter =>
        simp only [hr, Option.some_inj] at hn
        subst hn
        exact h.load hr _
  | insert reader =>
    simp only [System.next] at hn
    cases hr : s.readers[reader]? with
    | none => simp [hr] at hn
    | some r =>
      cases r with
      | checked id revision startedAfter => simp [hr] at hn
      | loaded id revision settings startedAfter =>
        simp only [hr, Option.some_inj] at hn
        subst hn
        exact (h.insert hr).serve (h.reader reader _ hr).1

-- ==== over every schedule

/-- Settings served by a read that began after a bump had returned were
read from the file after the write that preceded the bump, as long as the
bump could still advance the revision. -/
theorem served_after_bump (files : Table String SettingsFile)
    (actions : List Action) {t : System}
    (ht : Reaches System.next (System.start files) actions t) :
    ∀ v ∈ t.served, v.ReadAfterEarlierBumps :=
  (reaches_invariant (Fresh.start files)
    (fun _ _ _ h hn => h.next hn) ht).served

/-- A save in the form of a file. -/
def savedFile : SettingsFile := .stored (.object [("voice", .string "a")])

/-- A reader fills the cache, a save replaces the file, and the next read
loads it. -/
def savingRun : List Action :=
  [.check 0 "p", .load 0 (some none), .insert 0, .write "p" savedFile,
    .bump "p", .check 1 "p", .load 1 (some none), .insert 1]

theorem served_after_bump_saved :
    ∃ t, Reaches System.next (System.start ∅) savingRun t
      ∧ t.served.length = 2 ∧ ∀ v ∈ t.served, v.ReadAfterEarlierBumps := by
  have hlen : (runActions System.next (System.start ∅) savingRun).map
      (fun t => t.served.length) = some 2 := by decide +kernel
  obtain ⟨t, ht, hs⟩ := Option.map_eq_some_iff.1 hlen
  have hr : Reaches System.next (System.start ∅) savingRun t :=
    ⟨savingRun, [], (append_nil _).symm, ht⟩
  exact ⟨t, hr, hs, served_after_bump ∅ savingRun hr⟩

-- ---- where it falls short

/-- A save comes between the load and the insert of a read. -/
def overtakenRun : List Action :=
  [.check 0 "p", .load 0 (some none), .write "p" savedFile, .bump "p",
    .insert 0]

/-- After the last advance of the revision a save changes the file, and
the next read finds the cache in step. -/
def saturatedRun : List Action :=
  List.replicate u64Max (.bump "p")
    ++ ([.check 0 "p", .load 0 (some none), .insert 0]
      ++ [.write "p" savedFile, .bump "p", .check 0 "p"])

theorem runActions_bumps {n : Nat} (h : n ≤ u64Max) :
    ∃ s, runActions System.next (System.start ∅)
        (List.replicate n (.bump "p")) = some s
      ∧ s.cache.entry "p" = ⟨n, 0, default⟩
      ∧ s.readers = ∅ ∧ s.files = ∅ ∧ s.writes = (fun _ => 0)
      ∧ s.served = [] := by
  induction n with
  | zero =>
    refine ⟨System.start ∅, rfl, ?_, rfl, rfl, rfl, rfl⟩
    simp [System.start, ProcessorSettingsStore.entry]
  | succ n ih =>
    obtain ⟨s, hrun, hen, hr, hf, hw, hs⟩ := ih (by omega)
    refine ⟨s.bump "p", ?_, ?_, hr, hf, hw, hs⟩
    · rw [replicate_succ', runActions_append, hrun]
      simp [runActions, System.next]
    · have hlt : n + 1 ≤ u64Max := h
      simp only [System.bump, ProcessorSettingsStore.bumpRevision,
        ProcessorSettingsStore.entry_insert_self, hen, saturatingAdd,
        Nat.min_eq_left hlt]

variable {k : Nat} {s : System}

/-- A read that misses, from its check to its insert, when nothing comes
in between. -/
theorem runActions_read (p : Option (Option Json))
    (hf : s.readers[k]? = none) (h : s.cache.lookup id = .inr revision) :
    ∃ t, runActions System.next s
        [.check k id, .load k p, .insert k] = some t
      ∧ t.cache = s.cache.insertLoaded id revision
        ⟨processorSettings p (s.files[id]?.getD .missing), s.writes id⟩
      ∧ t.readers[k]? = none ∧ t.writes = s.writes := by
  simp [runActions, System.next, hf, h, System.serve]

theorem runActions_unnoticed {v : Loaded} (f : SettingsFile)
    (hf : s.readers[k]? = none)
    (hen : s.cache.entry id = ⟨u64Max, u64Max, v⟩) :
    ∃ t, runActions System.next s
        [.write id f, .bump id, .check k id] = some t
      ∧ ⟨id, v, s.confirmed id, s.writes id + 1⟩ ∈ t.served := by
  have hmax : saturatingAdd u64Max 1 = u64Max := by decide
  have hhit : (s.cache.bumpRevision id).lookup id = .inl v := by
    simp only [ProcessorSettingsStore.bumpRevision, hen, hmax,
      ProcessorSettingsStore.lookup_insert_current]
  simp [runActions, System.next, hf, System.bump, System.serve, hen, hhit]

/-- A read that was under way when a save came returns what it had read
before; and a save that finds the revision at its largest value goes
unnoticed. -/
theorem settings_served_stale :
    (∃ t, Reaches System.next (System.start ∅) overtakenRun t
        ∧ ∃ v ∈ t.served, ¬ v.ReadAfterBumps)
      ∧ ∃ t, Reaches System.next (System.start ∅) saturatedRun t
        ∧ ∃ v ∈ t.served, ¬ v.ReadAfterBumps := by
  constructor
  · have hs : (runActions System.next (System.start ∅)
        overtakenRun).map (fun t => t.served.any
          fun v => ¬ v.ReadAfterBumps) = some true := by decide +kernel
    obtain ⟨t, ht, hany⟩ := Option.map_eq_some_iff.1 hs
    refine ⟨t, ⟨_, [], (append_nil _).symm, ht⟩, ?_⟩
    simpa [any_eq_true] using hany
  · obtain ⟨s, hrun, hen, hr, hfl, hw, hs⟩ :=
      runActions_bumps (Nat.le_refl u64Max)
    have hlag : s.cache.lookup "p" = .inr u64Max := by
      rw [ProcessorSettingsStore.lookup_lagging (by rw [hen]; decide), hen]
    have hf : s.readers[0]? = none := by simp [hr]
    obtain ⟨t, ht, hc, hf', hw'⟩ := runActions_read (some none) hf hlag
    have he' : t.cache.entry "p" = ⟨u64Max, u64Max,
        processorSettings (some none) (s.files["p"]?.getD .missing),
        0⟩ := by
      rw [hc]
      simp [ProcessorSettingsStore.insertLoaded, hen, hw]
    obtain ⟨u, hu, hs⟩ := runActions_unnoticed savedFile hf' he'
    refine ⟨u, ⟨saturatedRun, [], (append_nil _).symm, ?_⟩, _, hs, ?_⟩
    · rw [saturatedRun, runActions_append, hrun]
      show runActions System.next s (_ ++ _) = some u
      rw [runActions_append, ht]
      exact hu
    · simp [Served.ReadAfterBumps]

end System

end

end TikTools.Processors
