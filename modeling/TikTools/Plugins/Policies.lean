/-
Policy changes beside package operations, on the receipt of one plugin.

Commit, rollback and uninstall hold the plugin's lock from start to end.
`set_policy` does not: it loads the receipt, changes its policy and
saves the whole of it. Every read and every write of the receipt is a
step of its own here, so a policy change may load before an operation's
write and save after it, and the other way round.

What SHOULD be stored is kept beside: the receipt of the last completed
package operation, and the policy the completed calls make, one after
the other. `Serial` says of a write that nothing it depends on has
changed since its call read the receipt; `Consistent` survives a step
exactly when the step is serial.
-/
import TikTools.Plugins.Commit
import TikTools.Lib.Runs

namespace TikTools.Plugins

open TikTools.Lib Option

-- ==== calls

/-- A package operation under way: what it was called with. A rollback
carries what it finds retained. -/
inductive PackageCall (B : Type) where
  | commit (package : StagedPackage B) (policy : Option UpdatePolicy)
  | rollback (base : InstallReceipt) (manifest : PluginManifest)
      (target : String)
  | uninstall

/-- The holder of the lock, and the state it found once it has read the
receipt. -/
structure Held (B : Type) where
  call : PackageCall B
  found : Option (Option CurrentState)

/-- A policy change that has loaded the receipt. -/
structure PolicyCall where
  policy : UpdatePolicy
  loaded : InstallReceipt

/-- The plugin's receipt file and package directory, the calls under
way, and what the completed calls have made. -/
structure Shared (B : Type) where
  stored : Option InstallReceipt
  directory : Option (Option PluginManifest)
  held : Option (Held B)
  loaded : List PolicyCall
  last : Option InstallReceipt
  policy : Option UpdatePolicy

namespace Installer

variable {B : Type} (self : Installer B)

/-- The receipt `current_state` takes for the installed one. -/
def foundReceipt (pluginId : String) (stored : Option InstallReceipt)
    (manifest : Option PluginManifest) : InstallReceipt :=
  match stored, manifest with
  | some receipt, some manifest =>
    if receipt.version = manifest.version then receipt
    else { receipt with version := manifest.version }
  | some receipt, none => receipt
  | none, some manifest => adoptedReceipt manifest self.now
  | none, none =>
    adoptedReceiptParts pluginId "unknown" "unknown" [] [] self.now

/-- `current_state` on the receipt and the directory alone. -/
def findCurrent (pluginId : String) (stored : Option InstallReceipt)
    (directory : Option (Option PluginManifest)) : Option CurrentState :=
  directory.map fun manifest =>
    { directory := self.layout.package pluginId
      receipt := self.foundReceipt pluginId stored manifest }

/-- What `finalize` leaves of a receipt. -/
def pruned (receipt : InstallReceipt) : InstallReceipt :=
  let sorted := receipt.retained.insertionSort
    (fun a b => a.retainedAt ≤ b.retainedAt)
  { receipt with retained := sorted.drop (sorted.length - self.retain) }

/-- The receipt a package operation writes, if it writes one. -/
def recorded (call : PackageCall B) (found : Option CurrentState) :
    Option InstallReceipt :=
  match call with
  | .commit package policy =>
    some (self.pruned (self.committedReceipt package policy found))
  | .rollback base manifest target =>
    found.map fun current =>
      self.pruned (self.rolledBackReceipt base current manifest target)
  | .uninstall => none

-- ==== steps

inductive Event (B : Type) where
  /-- A package operation takes the lock. -/
  | lock (call : PackageCall B)
  /-- It reads the receipt. -/
  | read (now : Nat)
  /-- It changes the package directory. -/
  | place (directory : Option (Option PluginManifest))
  /-- It writes or removes the receipt and returns. -/
  | write (now : Nat)
  /-- It returns with an error. -/
  | fail
  /-- A policy change loads the receipt. -/
  | load (policy : UpdatePolicy)
  /-- One of those that have loaded it saves it and returns. -/
  | save (index : Nat)
  /-- One of those returns with an error. -/
  | giveUp (index : Nat)

/-- The policy a package operation makes of the one before it. -/
def policyAfter (call : PackageCall B) (policy : Option UpdatePolicy) :
    UpdatePolicy :=
  match call with
  | .commit _ (some own) => own
  | .rollback _ _ _ => { policy.getD .default with pinned := true }
  | _ => policy.getD .default

/-- One step; none where the call returns without a step. -/
def next (pluginId : String) (s : Shared B) : Event B →
    Option (Shared B)
  | .lock call =>
    match s.held with
    | none => some { s with held := some ⟨call, none⟩ }
    | some _ => none
  | .read now =>
    match s.held with
    | some ⟨call, none⟩ =>
      let found := { self with now }.findCurrent pluginId s.stored s.directory
      some { s with held := some ⟨call, some found⟩ }
    | _ => none
  | .place directory =>
    match s.held with
    | some _ => some { s with directory }
    | none => none
  | .write now =>
    match s.held with
    | some ⟨.uninstall, _⟩ =>
      some { s with
        stored := none
        held := none
        last := none
        policy := none }
    | some ⟨call, some found⟩ =>
      match { self with now }.recorded call found with
      | some receipt =>
        some { s with
          stored := some receipt
          held := none
          last := some receipt
          policy := some (policyAfter call s.policy) }
      | none => none
    | _ => none
  | .fail =>
    match s.held with
    | some _ => some { s with held := none }
    | none => none
  | .load policy =>
    s.stored.map fun receipt =>
      { s with loaded := s.loaded ++ [⟨policy, receipt⟩] }
  | .save index =>
    s.loaded[index]?.map fun call =>
      { s with
        stored := some { call.loaded with policy := call.policy }
        loaded := s.loaded.eraseIdx index
        policy := some call.policy }
  | .giveUp index =>
    s.loaded[index]?.map fun _ =>
      { s with loaded := s.loaded.eraseIdx index }

end Installer

-- ==== consistency

/-- What a package operation decides of a receipt. -/
def InstallReceipt.bookkeeping (receipt : InstallReceipt) :
    String × List String × List String × List RetainedVersion :=
  (receipt.version, receipt.grantedPermissions,
    receipt.grantedCapabilities, receipt.retained)

namespace Shared

variable {B : Type}

/-- All calls have returned. -/
def Settled (s : Shared B) : Prop := s.held = none ∧ s.loaded = []

/-- The stored receipt has the version, the grants and the retained list
of the last completed package operation, and is absent after an
uninstall; its policy is the one the completed calls have made. -/
structure Consistent (s : Shared B) : Prop where
  package : s.stored.map InstallReceipt.bookkeeping
    = s.last.map InstallReceipt.bookkeeping
  policy : s.stored.map InstallReceipt.policy = s.policy

/-- A write meets the receipt its call has read, in what it takes over
from it: a policy change in everything but the policy, a package
operation in the policy it inherits. -/
def Serial (s : Shared B) : Installer.Event B → Prop
  | .write _ =>
    ∀ call found, s.held = some ⟨call, some found⟩ →
      call ≠ .uninstall →
      Installer.policyAfter call
          (found.map fun current => current.receipt.policy)
        = Installer.policyAfter call (s.stored.map InstallReceipt.policy)
  | .save index =>
    ∀ call, s.loaded[index]? = some call →
      s.stored.map InstallReceipt.bookkeeping = some call.loaded.bookkeeping
  | _ => True

end Shared

namespace Installer

variable {B : Type} {self : Installer B}

-- ---- the installer's own calls

-- ---- steps

theorem recorded_policy {call : PackageCall B}
    {f : Option CurrentState} {r : InstallReceipt}
    (h : self.recorded call f = some r) :
    r.policy = policyAfter call (f.map fun c => c.receipt.policy) := by
  cases call with
  | commit package p =>
    cases h
    cases p with
    | some own => rfl
    | none => cases f <;> rfl
  | rollback base manifest target =>
    obtain ⟨c, rfl, rfl⟩ := map_eq_some_iff.1 h
    rfl
  | uninstall => cases h

theorem consistent_next_iff {p : String} {s t : Shared B}
    {event : Event B} (h : s.Consistent)
    (hn : self.next p s event = some t) :
    t.Consistent ↔ s.Serial event := by
  cases event with
  | write now =>
    simp only [next] at hn
    split at hn
    · next hh =>
      cases hn
      refine ⟨fun _ call found hc hne => ?_, fun _ => ⟨rfl, rfl⟩⟩
      rw [hh] at hc
      cases hc
      exact absurd rfl hne
    · next call found hne hh =>
      split at hn
      · next r hr =>
        cases hn
        have hp := recorded_policy hr
        constructor
        · intro ht call' found' hc _
          rw [hh] at hc
          cases hc
          rw [h.policy, ← hp]
          exact Option.some.inj ht.policy
        · intro hs
          refine ⟨rfl, congrArg some (hp.trans ?_)⟩
          rw [← h.policy]
          exact hs call found hh hne
      · cases hn
    · cases hn
  | save index =>
    obtain ⟨call, hc, rfl⟩ := map_eq_some_iff.1 hn
    constructor
    · intro ht call' hc'
      obtain rfl := Option.some.inj (hc.symm.trans hc')
      rw [h.package]
      exact ht.package.symm
    · intro hs
      refine ⟨?_, rfl⟩
      rw [← h.package]
      exact (hs call hc).symm
  | lock call =>
    simp only [next] at hn
    split at hn <;> cases hn
    exact ⟨fun _ => trivial, fun _ => ⟨h.package, h.policy⟩⟩
  | read now =>
    simp only [next] at hn
    split at hn <;> cases hn
    exact ⟨fun _ => trivial, fun _ => ⟨h.package, h.policy⟩⟩
  | place directory =>
    simp only [next] at hn
    split at hn <;> cases hn
    exact ⟨fun _ => trivial, fun _ => ⟨h.package, h.policy⟩⟩
  | fail =>
    simp only [next] at hn
    split at hn <;> cases hn
    exact ⟨fun _ => trivial, fun _ => ⟨h.package, h.policy⟩⟩
  | load policy =>
    obtain ⟨r, -, rfl⟩ := map_eq_some_iff.1 hn
    exact ⟨fun _ => trivial, fun _ => ⟨h.package, h.policy⟩⟩
  | giveUp index =>
    obtain ⟨call, -, rfl⟩ := map_eq_some_iff.1 hn
    exact ⟨fun _ => trivial, fun _ => ⟨h.package, h.policy⟩⟩

/-- Every state of a run is consistent exactly when every write of the
run is serial. -/
theorem receipt_consistent_iff (self : Installer B) (pluginId : String)
    (stored : Option InstallReceipt)
    (directory : Option (Option PluginManifest))
    (events : List (Event B)) :
    let start : Shared B :=
      ⟨stored, directory, none, [], stored, stored.map (·.policy)⟩
    (∀ t, Reaches (self.next pluginId) start events t → t.Consistent)
      ↔ ∀ done event rest t u, events = done ++ event :: rest →
        runActions (self.next pluginId) start done = some t →
        self.next pluginId t event = some u → t.Serial event := by
  intro start
  have hs : start.Consistent := ⟨rfl, rfl⟩
  exact reaches_iff hs (fun t a u ht hu => consistent_next_iff ht hu) events

-- ==== a late save

/-- A host that holds version 1.0.0, and an update of it. -/
def policyHost : Installer Unit where
  layout := { plugins := ["plugins"], store := ["store"] }
  codec := ⟨fun _ => none, fun _ => none, fun _ => ()⟩
  retain := 2
  compatible := fun _ => true
  replaces := fun _ _ => false
  now := 1
  stagingName := "demo-1-1"
  failedName := "failed-1-2"
  fault := none

def policyManifest (version : String) : PluginManifest where
  id := "demo"
  version := version
  runtime := "native"
  permissions := []
  capabilities := []
  valid := isValidPluginId_demo

def policyUpdate : StagedPackage Unit where
  files := .empty
  root := []
  manifest := policyManifest "2.0.0"
  origin := .file
  digest := "sha256:00"
  signature := .unsigned

/-- The policy change loads the receipt before the update and saves it
after. -/
def lateSave : List (Event Unit) :=
  [.load ⟨"beta", .off, false⟩, .lock (.commit policyUpdate none),
    .read 2, .place (some (some (policyManifest "2.0.0"))), .write 3,
    .save 0]

/-- All calls have returned, version 2.0.0 was the last package
installed, and the receipt says 1.0.0. -/
theorem update_lost_to_policy_change :
    let stored := adoptedReceipt (policyManifest "1.0.0") 1
    ∃ t, runActions (policyHost.next "demo")
        ⟨some stored, some (some (policyManifest "1.0.0")), none, [],
          some stored, some stored.policy⟩ lateSave = some t
      ∧ t.Settled
      ∧ t.last.map (·.version) = some "2.0.0"
      ∧ t.stored.map (·.version) = some "1.0.0"
      ∧ ¬ t.Consistent := by
  refine ⟨_, rfl, ⟨rfl, rfl⟩, rfl, rfl, fun h => ?_⟩
  have hver := congrArg (Option.map Prod.fst) h.package
  exact absurd hver (by decide)

end Installer

end TikTools.Plugins
