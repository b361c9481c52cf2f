/-
Receipts: what the installer records about a package, and how a receipt
file is read and written.

The JSON codec is a parameter (`Codec`): nothing here depends on how a
receipt is spelled, only on WHERE it is written and when a read or a
write fails. A receipt is written to a temporary file next to it, which
is then renamed over it.
-/
import TikTools.Plugins.Layout

namespace TikTools.Plugins

open TikTools.Lib

-- ==== data

inductive PackageOrigin where
  | registry (registry url : String)
  | url (url : String)
  | file
  | builtin
  | development
  | adopted
  deriving DecidableEq

inductive SignatureStatus where
  | verified
  | unsigned
  | untrusted
  deriving DecidableEq

structure SignatureState where
  status : SignatureStatus
  publisher : Option String
  keyId : Option String
  source : Option String
  reason : Option String
  deriving DecidableEq

namespace SignatureState

/-- `SignatureState::unsigned`. -/
def unsigned : SignatureState where
  status := .unsigned
  publisher := none
  keyId := none
  source := none
  reason := none

def isVerified (signature : SignatureState) : Bool :=
  signature.status = .verified

end SignatureState

inductive AutoUpdate where
  | off
  | notify
  | patch
  | minor
  deriving DecidableEq

structure UpdatePolicy where
  channel : String
  autoUpdate : AutoUpdate
  pinned : Bool
  deriving DecidableEq

/-- `UpdatePolicy::default`. -/
def UpdatePolicy.default : UpdatePolicy where
  channel := "stable"
  autoUpdate := .notify
  pinned := false

structure RetainedVersion where
  version : String
  retainedAt : Nat
  deriving DecidableEq

structure InstallReceipt where
  id : String
  version : String
  origin : PackageOrigin
  archiveDigest : Option String
  signature : SignatureState
  runtime : String
  grantedPermissions : List String
  grantedCapabilities : List String
  installedAt : Nat
  updatedAt : Nat
  policy : UpdatePolicy
  retained : List RetainedVersion
  deriving DecidableEq

inductive NativeLibProvider where
  | npm
  | github
  deriving DecidableEq

/-- Where a native library comes from. -/
structure NativeLib where
  package : String
  version : String
  provider : NativeLibProvider := .npm
  repo : Option String := none
  tag : Option String := none
  binary : Option String := none
  deriving DecidableEq

/-- The directory of the package that holds a native library. -/
structure NativeAddon where
  package : String
  root : String
  deriving DecidableEq

/-- The part of a manifest the installer reads. A parsed manifest has a
valid id. -/
structure PluginManifest where
  id : String
  version : String
  runtime : String
  permissions : List String
  capabilities : List String
  changelog : Option String := none
  nativeLibs : List NativeLib := []
  nativeAddons : List NativeAddon := []
  valid : isValidPluginId id = true
  deriving DecidableEq

/-- How file contents are read as manifests and as receipts, and how a
receipt is written. -/
structure Codec (B : Type) where
  manifest : B → Option PluginManifest
  receipt : B → Option InstallReceipt
  encode : InstallReceipt → B

-- ==== files

namespace StoreLayout

variable {B : Type} (layout : StoreLayout) (codec : Codec B)

/-- `installed_manifest`. -/
def installedManifest (pluginId : String) (t : FileTree B) :
    Option PluginManifest :=
  if isValidPluginId pluginId then
    (t.read ((layout.package pluginId).join "plugin.json")).bind
      codec.manifest
  else none

end StoreLayout

section

variable {B : Type} (codec : Codec B)

/-- `read_receipt`: a missing file is no receipt, an unreadable one is
an error. -/
def readReceipt (path : Path) (t : FileTree B) :
    Option (Option InstallReceipt) :=
  if t.clear path.dropLast then
    match t path with
    | none => some none
    | some .dir => none
    | some (.file content) => (codec.receipt content).map some
  else none

/-- The temporary file of a receipt path: its extension, always "json",
becomes "json.tmp". -/
def temporary (path : Path) : Path :=
  path.dropLast ++ [path.getLastD "" ++ ".tmp"]

/-- `write_receipt`, and whether it succeeded. A directory in the place
of either file is not replaced; the temporary file then stays. -/
def writeReceipt (path : Path) (receipt : InstallReceipt) (t : FileTree B) :
    Bool × FileTree B :=
  match t.createDirAll path.dropLast with
  | none => (false, t)
  | some t =>
    if t.isDir (temporary path) then (false, t)
    else
      let written := t.write (temporary path) (codec.encode receipt)
      if t.isDir path then (false, written)
      else (true, written.move (temporary path) path)

end

/-- `adopted_receipt_parts`. -/
def adoptedReceiptParts (pluginId version runtime : String)
    (permissions capabilities : List String) (timestamp : Nat) :
    InstallReceipt where
  id := pluginId
  version := version
  origin := .adopted
  archiveDigest := none
  signature := .unsigned
  runtime := runtime
  grantedPermissions := permissions
  grantedCapabilities := capabilities
  installedAt := timestamp
  updatedAt := timestamp
  policy := .default
  retained := []

/-- `adopted_receipt`. -/
def adoptedReceipt (manifest : PluginManifest) (timestamp : Nat) :
    InstallReceipt :=
  adoptedReceiptParts manifest.id manifest.version manifest.runtime
    manifest.permissions manifest.capabilities timestamp

end TikTools.Plugins
