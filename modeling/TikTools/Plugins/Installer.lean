/-
The installer: commit and rollback of one plugin's package.

Both end in `swapIn`, which stops the plugin, moves the installed
package to its retained directory, moves the candidate into its place
and starts the plugin again. Every step can fail, and each failure has
its own best-effort undo; `rollback` adds another around the whole of
`swapIn`, because it took its candidate out of a retained directory.

A failing move is not atomic. `move_dir` renames; where the rename
fails it copies and then removes the source, and either half can stop
partway (`Mishap`). A run of the model has at most one `Fault`, either
in a hook or in one forward move; the undo moves have none of their
own and fail only where they must.
-/
import TikTools.Plugins.Receipt
import Mathlib.Data.List.Sort

namespace TikTools.Plugins

open TikTools.Lib

-- ==== faults

/-- The directory moves an operation makes going forward. -/
inductive Step where
  /-- A rollback takes the retained version into its staging. -/
  | takeRetained
  /-- The installed package goes to its retained directory. -/
  | retainCurrent
  /-- The candidate becomes the installed package. -/
  | install
  deriving DecidableEq

/-- What a failed move did, once its rename had failed. -/
inductive Mishap where
  /-- Nothing that lasted. -/
  | nothing
  /-- The copy failed, and so did removing it: this part remains. -/
  | leftover (part : Path → Bool)
  /-- The copy is complete, the source only partly removed. -/
  | kept (part : Path → Bool)

namespace Mishap

variable {B : Type}

/-- What is left at the source. -/
def source (mishap : Mishap) (s : FileTree B) : FileTree B :=
  match mishap with
  | .nothing => s
  | .leftover _ => s
  | .kept part => s.restrict part

/-- What is found at the destination, which held nothing. -/
def destination (mishap : Mishap) (s : FileTree B) : FileTree B :=
  match mishap with
  | .nothing => .empty
  | .leftover part => s.restrict part
  | .kept _ => s

end Mishap

/-- The one failing action of a run. -/
inductive Fault where
  | deactivate (message : String)
  | activate (message : String)
  | move (step : Step) (mishap : Mishap)

/-- The errors of commit and rollback, by their cause. -/
inductive InstallError where
  /-- `hooks.deactivate` failed. -/
  | deactivate (message : String)
  /-- "plugin {id} could not be activated: {message}". -/
  | activate (message : String)
  /-- A directory move failed. -/
  | move (step : Step)
  /-- Any other file system error. -/
  | io
  /-- "plugin installation target escaped the plugin directory". -/
  | escaped
  | notInstalled
  /-- "no previous version of {id} is retained". -/
  | noPrevious
  /-- "{id} {version} is not retained". -/
  | notRetained
  /-- The host does not support the manifest. -/
  | incompatible
  deriving DecidableEq

def Fault.error : Fault → InstallError
  | .deactivate message => .deactivate message
  | .activate message => .activate message
  | .move step _ => .move step

theorem Fault.move_of_error {f : Fault} {s : Step}
    (h : f.error = .move s) : ∃ m, f = .move s m := by
  cases f with
  | deactivate => cases h
  | activate => cases h
  | move failing m =>
    cases h
    exact ⟨m, rfl⟩

-- ==== moves

section

variable {B : Type} (replaces : FileTree B → FileTree B → Bool)

/-- A rename onto this destination fails. `replaces` is what the
platform accepts in the way of a source (an empty directory, say). -/
def occupied (source destination : FileTree B) : Bool :=
  (destination []).isSome && !replaces source destination

/-- `move_dir`, and whether it succeeded. -/
def moveDir (mishap : Option Mishap) (source destination : Path)
    (t : FileTree B) : Bool × FileTree B :=
  match t.createDirAll destination.dropLast with
  | none => (false, t)
  | some t =>
    match mishap with
    | none =>
      if (t source).isSome
          && !occupied replaces (t.subtree source)
            (t.subtree destination) then
        (true, t.move source destination)
      else (false, t)
    | some mishap =>
      -- an existing destination is never copied into
      if (t destination).isSome then (false, t)
      else
        let found := t.subtree source
        (false, (t.graft destination (mishap.destination found)).graft
          source (mishap.source found))

end

/-- Remove a directory that may be missing; a file in its place is an
error. -/
def removeDirIfExists {B : Type} (path : Path) (t : FileTree B) :
    Option (FileTree B) :=
  match t path with
  | none => some t
  | some .dir => some (t.remove path)
  | some (.file _) => none

/-- `remove_file`, its result ignored. -/
def removeFile {B : Type} (path : Path) (t : FileTree B) : FileTree B :=
  if t.isFile path then t.remove path else t

-- ==== installer

/-- The installer with its surroundings: the host, the clock, the
staging names this call gets, and what fails. -/
structure Installer (B : Type) where
  layout : StoreLayout
  codec : Codec B
  retain : Nat
  compatible : PluginManifest → Bool
  replaces : FileTree B → FileTree B → Bool
  now : Nat
  stagingName : String
  failedName : String
  fault : Option Fault

structure CurrentState where
  directory : Path
  receipt : InstallReceipt

structure InstallOutcome where
  receipt : InstallReceipt
  directory : Path
  previousVersion : Option String
  deriving DecidableEq

/-- A prepared package, as extracted: the files under the staging's
"package" directory, and the package root among them. -/
structure StagedPackage (B : Type) where
  files : FileTree B
  root : Path
  manifest : PluginManifest
  origin : PackageOrigin
  digest : String
  signature : SignatureState

namespace Installer

variable {B : Type} (self : Installer B)

def mishap (step : Step) : Option Mishap :=
  match self.fault with
  | some (.move failing mishap) =>
    if failing = step then some mishap else none
  | _ => none

/-- `new_staging_dir`, under a name the clock has made unique. -/
def newStagingDir (name : String) (t : FileTree B) :
    Option (Path × FileTree B) :=
  let directory := self.layout.staging.join name
  (t.createDirAll directory).map fun t => (directory, t)

/-- `current_state`. -/
def currentState (pluginId : String) (t : FileTree B) :
    Except InstallError (Option CurrentState) :=
  let directory := self.layout.package pluginId
  if (t directory).isNone then .ok none
  else
    let manifest := self.layout.installedManifest self.codec pluginId t
    let loaded :=
      if isValidPluginId pluginId then
        readReceipt self.codec (self.layout.receipt pluginId) t
      else some none
    match loaded with
    | none => .error .io
    | some stored =>
      let receipt := match stored, manifest with
        | some receipt, some manifest =>
          if receipt.version = manifest.version then receipt
          else { receipt with version := manifest.version }
        | some receipt, none => receipt
        | none, some manifest => adoptedReceipt manifest self.now
        | none, none =>
          adoptedReceiptParts pluginId "unknown" "unknown" [] [] self.now
      .ok (some { directory, receipt })

-- ---- swap

/-- Move the retained package back, whatever comes of it. -/
def restore (retainedTo : Option Path) (target : Path) (t : FileTree B) :
    FileTree B :=
  match retainedTo with
  | some retained => (moveDir self.replaces none retained target t).2
  | none => t

/-- The second half of `swap_in`: the candidate becomes the package. -/
def install (pluginId : String) (candidate : Path)
    (retainedTo : Option Path) (t : FileTree B) :
    Except InstallError Unit × FileTree B :=
  let target := self.layout.package pluginId
  match moveDir self.replaces (self.mishap .install) candidate target t with
  | (false, t) =>
    (.error (.move .install), self.restore retainedTo target t)
  | (true, t) =>
    match self.fault with
    | some (.activate message) =>
      match self.newStagingDir self.failedName t with
      | none => (.error .io, t)
      | some (failed, t) =>
        let t := (moveDir self.replaces none target
          (failed.join pluginId) t).2
        let t := self.restore retainedTo target t
        (.error (.activate message), t.remove failed)
    | _ => (.ok (), t)

/-- `swap_in` over an installed package: retain it, then install. -/
def swapOver (pluginId : String) (candidate : Path)
    (state : CurrentState) (t : FileTree B) :
    Except InstallError Unit × FileTree B :=
  let version := state.receipt.version
  let destination := self.layout.retained pluginId version
  match removeDirIfExists destination t with
  | none => (.error .io, t)
  | some t =>
    match moveDir self.replaces (self.mishap .retainCurrent)
        state.directory destination t with
    | (false, t) => (.error (.move .retainCurrent), t)
    | (true, t) =>
      -- a receipt that cannot be recorded is only warned about
      let t := (writeReceipt self.codec
        (self.layout.retainedReceipt pluginId version)
        { state.receipt with retained := [] } t).2
      self.install pluginId candidate (some destination) t

/-- `swap_in`. The calls of the hooks that follow a failure are left
out: their results are ignored. -/
def swapIn (pluginId : String) (candidate : Path)
    (previous : Option CurrentState) (t : FileTree B) :
    Except InstallError Unit × FileTree B :=
  if (self.layout.package pluginId).dropLast ≠ self.layout.plugins then
    (.error .escaped, t)
  else
    match self.fault, previous with
    | some (.deactivate message), _ => (.error (.deactivate message), t)
    | _, none => self.install pluginId candidate none t
    | _, some state => self.swapOver pluginId candidate state t

-- ---- finalize

/-- The loop of `finalize`: drop that many of the oldest versions. -/
def prune (pluginId : String) : Nat → List RetainedVersion → FileTree B →
    Option (List RetainedVersion × FileTree B)
  | n + 1, removed :: retained, t =>
    match removeDirIfExists
        (self.layout.retained pluginId removed.version) t with
    | none => none
    | some t =>
      prune pluginId n retained
        (removeFile (self.layout.retainedReceipt pluginId removed.version) t)
  | _, retained, t => some (retained, t)

/-- `finalize`: sort and prune the retained versions, write the
receipt. -/
def finalize (receipt : InstallReceipt) (t : FileTree B) :
    Except InstallError InstallReceipt × FileTree B :=
  let sorted := receipt.retained.insertionSort
    (fun a b => a.retainedAt ≤ b.retainedAt)
  match self.prune receipt.id (sorted.length - self.retain) sorted t with
  | none => (.error .io, t)
  | some (retained, t) =>
    let receipt := { receipt with retained := retained }
    match writeReceipt self.codec (self.layout.receipt receipt.id)
        receipt t with
    | (true, t) => (.ok receipt, t)
    | (false, t) => (.error .io, t)

-- ---- commit

/-- The receipt a commit records. -/
def committedReceipt (package : StagedPackage B)
    (policy : Option UpdatePolicy) (previous : Option CurrentState) :
    InstallReceipt where
  id := package.manifest.id
  version := package.manifest.version
  origin := package.origin
  archiveDigest := some package.digest
  signature := package.signature
  runtime := package.manifest.runtime
  grantedPermissions := package.manifest.permissions
  grantedCapabilities := package.manifest.capabilities
  installedAt := match previous with
    | some state => state.receipt.installedAt
    | none => self.now
  updatedAt := self.now
  policy := match policy, previous with
    | some policy, _ => policy
    | none, some state => state.receipt.policy
    | none, none => .default
  retained := match previous with
    | none => []
    | some state =>
      state.receipt.retained.filter
          (fun entry => entry.version ≠ state.receipt.version)
        ++ [{ version := state.receipt.version, retainedAt := self.now }]

/-- `commit_staged`, from the extracted package on. -/
def commitStaged (package : StagedPackage B)
    (policy : Option UpdatePolicy) (staging : Path) (t : FileTree B) :
    Except InstallError InstallOutcome × FileTree B :=
  let pluginId := package.manifest.id
  match self.currentState pluginId t with
  | .error error => (.error error, t)
  | .ok previous =>
    match self.swapIn pluginId (staging ++ "package" :: package.root)
        previous t with
    | (.error error, t) => (.error error, t)
    | (.ok (), t) =>
      match self.finalize (self.committedReceipt package policy previous)
          t with
      | (.error error, t) => (.error error, t)
      | (.ok receipt, t) =>
        (.ok {
          receipt
          directory := self.layout.package pluginId
          previousVersion := previous.map fun state =>
            state.receipt.version }, t)

/-- `commit`, from the accepted consent on: extract into a new staging
directory, swap, and remove the staging directory. -/
def commit (package : StagedPackage B) (policy : Option UpdatePolicy)
    (t : FileTree B) : Except InstallError InstallOutcome × FileTree B :=
  match t.createDirAll self.layout.plugins with
  | none => (.error .io, t)
  | some t =>
    match self.newStagingDir self.stagingName t with
    | none => (.error .io, t)
    | some (staging, t) =>
      let t := t.graft (staging ++ ["package"]) package.files
      let (result, t) := self.commitStaged package policy staging t
      (result, t.remove staging)

-- ---- rollback

/-- The version a rollback goes to. -/
def rollbackTarget (current : CurrentState) (version : Option String) :
    Option String :=
  match version with
  | some version => some version
  | none =>
    current.receipt.retained.getLast?.map fun entry => entry.version

/-- The manifest of a retained version, if it can be restored. -/
def retainedManifest (pluginId version : String) (t : FileTree B) :
    Option PluginManifest :=
  ((t.read ((self.layout.retained pluginId version).join
      "plugin.json")).bind self.codec.manifest).filter
    fun manifest => manifest.id = pluginId

/-- The receipt a rollback records. -/
def rolledBackReceipt (base : InstallReceipt) (current : CurrentState)
    (manifest : PluginManifest) (target : String) : InstallReceipt :=
  let kept := current.receipt.retained.filter fun entry =>
    entry.version ≠ target ∧ entry.version ≠ current.receipt.version
  { base with
    version := manifest.version
    updatedAt := self.now
    installedAt := current.receipt.installedAt
    policy := { current.receipt.policy with pinned := true }
    retained := kept
      ++ [{ version := current.receipt.version, retainedAt := self.now }] }

/-- The move of `rollback` and what its caller undoes: the candidate is
taken out of the retained directory, and put back if the swap fails. -/
def swapRetained (pluginId target : String) (current : CurrentState)
    (staging : Path) (t : FileTree B) :
    Except InstallError Unit × FileTree B :=
  let retained := self.layout.retained pluginId target
  let candidate := staging ++ ["package"]
  match moveDir self.replaces (self.mishap .takeRetained) retained
      candidate t with
  | (false, t) => (.error (.move .takeRetained), t)
  | (true, t) =>
    match self.swapIn pluginId candidate (some current) t with
    | (.ok (), t) => (.ok (), t.remove staging)
    | (.error error, t) =>
      let t := (moveDir self.replaces none candidate retained t).2
      (.error error, t.remove staging)

/-- The end of `rollback`: the receipt of the restored version becomes
the receipt of the package. -/
def finishRollback (pluginId target : String) (current : CurrentState)
    (manifest : PluginManifest) (t : FileTree B) :
    Except InstallError InstallOutcome × FileTree B :=
  let path := self.layout.retainedReceipt pluginId target
  match readReceipt self.codec path t with
  | none => (.error .io, t)
  | some stored =>
    let base := stored.getD (adoptedReceipt manifest self.now)
    match self.finalize (self.rolledBackReceipt base current manifest target)
        (removeFile path t) with
    | (.error error, t) => (.error error, t)
    | (.ok receipt, t) =>
      (.ok {
        receipt
        directory := self.layout.package pluginId
        previousVersion := some current.receipt.version }, t)

/-- `rollback`. -/
def rollback (pluginId : String) (version : Option String) (t : FileTree B) :
    Except InstallError InstallOutcome × FileTree B :=
  match self.currentState pluginId t with
  | .error error => (.error error, t)
  | .ok none => (.error .notInstalled, t)
  | .ok (some current) =>
    match rollbackTarget current version with
    | none => (.error .noPrevious, t)
    | some target =>
      match self.retainedManifest pluginId target t with
      | none => (.error .notRetained, t)
      | some manifest =>
        if !self.compatible manifest then (.error .incompatible, t)
        else
          match self.newStagingDir self.stagingName t with
          | none => (.error .io, t)
          | some (staging, t) =>
            match self.swapRetained pluginId target current staging t with
            | (.error error, t) => (.error error, t)
            | (.ok (), t) =>
              self.finishRollback pluginId target current manifest t

-- ---- current state

variable {self}

variable {t : FileTree B} {pluginId : String}

theorem currentState_error {e : InstallError}
    (h : self.currentState pluginId t = .error e) : e = .io := by
  unfold currentState at h
  dsimp only at h
  split at h
  · cases h
  · split at h
    · cases h
      rfl
    · cases h

theorem currentState_none (h : self.currentState pluginId t = .ok none) :
    t (self.layout.package pluginId) = none := by
  unfold currentState at h
  dsimp only at h
  split at h
  case isTrue hn => exact Option.isNone_iff_eq_none.1 hn
  case isFalse => split at h <;> cases h

theorem currentState_some {c : CurrentState}
    (h : self.currentState pluginId t = .ok (some c)) :
    (t (self.layout.package pluginId)).isSome = true
      ∧ c.directory = self.layout.package pluginId := by
  unfold currentState at h
  dsimp only at h
  split at h
  case isTrue => cases h
  case isFalse hn =>
    refine ⟨by simpa [Option.isSome_iff_ne_none] using hn, ?_⟩
    split at h
    · cases h
    · cases h
      rfl

end Installer

end TikTools.Plugins
