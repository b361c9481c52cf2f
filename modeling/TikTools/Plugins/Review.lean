/-
Reviewing a package and installing what was reviewed.

`prepare` inspects an archive and checks its signature, `preview` shows
what an installation would grant, and `commit` asks for the consent to
that preview, extracts the archive anew and installs it. Only the id,
the version and the checksums are compared between the two readings;
that the manifests agree is a property of the readings themselves
(`ExtractedAs.manifest_eq`).

A verified package vouches for the files its checksums list. What is
installed beyond them is fetched afterwards: `installed_as_reviewed`
says which files these are, and `fetched_library_installed` that there
are such files.
-/
import TikTools.Plugins.Commit
import TikTools.Plugins.NativeLibs

namespace TikTools.Plugins

open TikTools.Lib

-- ==== prepare

inductive SignaturePolicy where
  | require
  | allowWithConsent
  deriving DecidableEq

inductive ReviewError where
  | archive (error : ArchiveError)
  | trust (error : PackageError)
  | wrongExtension
  | archiveTooLarge
  | signatureRequired (message : String)
  | untrustedPublisher (message : String)
  | incompatible
  /-- "the reviewed package no longer matches {id}; review it again". -/
  | consentRequired (id : String)
  | alreadyInstalled (id : String)
  /-- "{id} changed between review and installation". -/
  | changed (id : String)
  | nativeLibs (error : NativeLibError)
  | install (error : InstallError)
  deriving DecidableEq

/-- An archive file. -/
structure PackageArchive (B : Type) where
  extension : String
  size : Nat
  digest : String
  entries : List (ArchiveEntry B)

structure PreparedPackage (B : Type) where
  size : Nat
  origin : PackageOrigin
  digest : String
  manifest : PluginManifest
  signature : SignatureState
  changelog : Option String
  checksums : Option B

def packageExtension : String := "plugin"

def maxArchiveBytes : Nat := 512 * 1024 * 1024

def asciiLower (c : Char) : Char :=
  if isAsciiUppercase c then c.toLower else c

section

variable {B : Type}

/-- `PackageArchive::open`. -/
def openArchive (archive : PackageArchive B) : Except ReviewError Unit := do
  ensure (archive.extension.toList.map asciiLower = packageExtension.toList)
    .wrongExtension
  ensure (archive.size ≤ maxArchiveBytes) .archiveTooLarge

/-- Who a package is from, as far as the trust store can tell. -/
def signatureState (check : PublicKey → B → String → Bool)
    (trust : TrustStore) (now : Nat) (inspection : PackageInspection B) :
    Except ReviewError SignatureState :=
  let id := inspection.manifest.id
  match inspection.signature, inspection.checksums with
  | some signature, some checksums =>
    match trust.verifyPackage check signature checksums id now with
    | .ok verified => .ok {
        status := .verified
        publisher := some verified.publisher
        keyId := some verified.keyId
        source := some verified.source
        reason := none }
    | .error error =>
      if error.isUntrustedPublisher then .ok {
        status := .untrusted
        publisher := some signature.publisher
        keyId := some signature.keyId
        source := none
        reason := some error.text }
      else .error (.trust error)
  | some _, none => .error (.archive (.missingChecksums id))
  | none, _ => .ok .unsigned

/-- The policy of the caller about packages without a verified
signature. -/
def checkPolicy (policy : SignaturePolicy) (id : String)
    (signature : SignatureState) : Except ReviewError Unit :=
  if policy = .require ∧ signature.isVerified = false then
    let message := signature.reason.getD
      (id ++ " must be signed by a trusted publisher")
    if signature.status = .unsigned then .error (.signatureRequired message)
    else .error (.untrustedPublisher message)
  else .ok ()

/-- `prepare`. -/
def prepare (format : PackageFormat B)
    (check : PublicKey → B → String → Bool) (trust : TrustStore) (now : Nat)
    (archive : PackageArchive B) (origin : PackageOrigin)
    (policy : SignaturePolicy) : Except ReviewError (PreparedPackage B) := do
  openArchive archive
  let inspection ←
    (inspect format archive.entries).mapError ReviewError.archive
  let signature ← signatureState check trust now inspection
  checkPolicy policy inspection.manifest.id signature
  return {
    size := archive.size
    origin
    digest := archive.digest
    manifest := inspection.manifest
    signature
    changelog := inspection.changelog
    checksums := inspection.checksums }

end

-- ==== preview

inductive ChangeKind where
  | install
  | update
  | reinstall
  | downgrade
  deriving DecidableEq

namespace ChangeKind

/-- `ChangeKind::between`; versions that do not both parse are compared
as text. -/
def between (compare : String → String → Option Ordering)
    (installed : Option String) (incoming : String) : ChangeKind :=
  match installed with
  | none => .install
  | some installed =>
    match compare incoming installed with
    | some .gt => .update
    | some .lt => .downgrade
    | some .eq => .reinstall
    | none => if installed = incoming then .reinstall else .update

def label : ChangeKind → String
  | .install => "install"
  | .update => "update"
  | .reinstall => "reinstall"
  | .downgrade => "downgrade"

end ChangeKind

/-- The values of a list as an ordered set. -/
def orderedSet (values : List String) : List String :=
  (values.dedup).insertionSort (· ≤ ·)

structure PermissionDiff where
  addedPermissions : List String
  removedPermissions : List String
  addedCapabilities : List String
  removedCapabilities : List String
  deriving DecidableEq

/-- `PermissionDiff::between`. -/
def PermissionDiff.between (grantedPermissions grantedCapabilities :
    List String) (manifest : PluginManifest) : PermissionDiff where
  addedPermissions := orderedSet
    (manifest.permissions.filter fun value => value ∉ grantedPermissions)
  removedPermissions := orderedSet
    (grantedPermissions.filter fun value => value ∉ manifest.permissions)
  addedCapabilities := orderedSet
    (manifest.capabilities.filter fun value => value ∉ grantedCapabilities)
  removedCapabilities := orderedSet
    (grantedCapabilities.filter fun value => value ∉ manifest.capabilities)

structure PackagePreview where
  id : String
  version : String
  runtime : String
  permissions : List String
  capabilities : List String
  size : Nat
  digest : String
  origin : PackageOrigin
  signature : SignatureState
  /-- The host does not support the package. -/
  incompatibility : Bool
  change : ChangeKind
  installedVersion : Option String
  permissionDiff : PermissionDiff
  requiresSideloadConsent : Bool
  changelog : Option String
  consentToken : String
  deriving DecidableEq

/-- `consent_label`. -/
def SignatureState.consentLabel (signature : SignatureState) : String :=
  match signature.status with
  | .verified => "verified:" ++ signature.publisher.getD "" ++ ":"
      ++ signature.keyId.getD ""
  | .unsigned => "unsigned"
  | .untrusted => "untrusted:" ++ signature.keyId.getD ""

def PackageOrigin.isRegistry : PackageOrigin → Bool
  | .registry _ _ => true
  | _ => false

/-- `requires_sideload_consent`. -/
def requiresSideloadConsent (origin : PackageOrigin)
    (signature : SignatureState) : Bool :=
  !origin.isRegistry && !signature.isVerified

/-- The installer and the libraries a review calls. -/
structure Reviewer (B : Type) where
  installer : Installer B
  format : PackageFormat B
  codec_eq : installer.codec = format.codec
  /-- The SHA-256 of a text. -/
  hashText : String → String
  /-- The order of two versions, where both parse. -/
  compareVersions : String → String → Option Ordering
  providers : NativeProviders B

namespace Reviewer

variable {B : Type} (host : Reviewer B)

/-- `consent_token`. -/
def consentToken (manifest : PluginManifest) (digest : String)
    (signature : SignatureState) (change : ChangeKind) : String :=
  host.hashText ("\n".intercalate [
    "tiktools-consent-v1", manifest.id, manifest.version, digest,
    manifest.runtime, signature.consentLabel, change.label,
    ",".intercalate (manifest.permissions.insertionSort (· ≤ ·)),
    ",".intercalate (manifest.capabilities.insertionSort (· ≤ ·))])

/-- The receipt of a plugin, where one can be loaded. -/
def loadedReceipt (pluginId : String) (t : FileTree B) :
    Option InstallReceipt :=
  (readReceipt host.installer.codec (host.installer.layout.receipt pluginId)
    t).join

/-- `preview`. -/
def preview (prepared : PreparedPackage B) (t : FileTree B) :
    PackagePreview :=
  let manifest := prepared.manifest
  let installed := host.installer.layout.installedManifest
    host.installer.codec manifest.id t
  let change := ChangeKind.between host.compareVersions
    (installed.map fun manifest => manifest.version) manifest.version
  let permissionDiff := match host.loadedReceipt manifest.id t, installed with
    | some receipt, _ => PermissionDiff.between receipt.grantedPermissions
        receipt.grantedCapabilities manifest
    | none, some installed => PermissionDiff.between installed.permissions
        installed.capabilities manifest
    | none, none => PermissionDiff.between [] [] manifest
  { id := manifest.id
    version := manifest.version
    runtime := manifest.runtime
    permissions := manifest.permissions
    capabilities := manifest.capabilities
    size := prepared.size
    digest := prepared.digest
    origin := prepared.origin
    signature := prepared.signature
    incompatibility := !host.installer.compatible manifest
    change
    installedVersion := installed.map fun manifest => manifest.version
    permissionDiff
    requiresSideloadConsent :=
      requiresSideloadConsent prepared.origin prepared.signature
    changelog := prepared.changelog
    consentToken := host.consentToken manifest prepared.digest
      prepared.signature change }

-- ==== commit

end Reviewer

inductive Consent where
  | token (token : String)
  | implicit (replaceExisting : Bool)
  deriving DecidableEq

structure CommitOptions where
  consent : Consent
  policy : Option UpdatePolicy

namespace Reviewer

variable {B : Type} [DecidableEq B] (host : Reviewer B)

/-- What `commit` asks before it extracts anything. -/
def checkConsent (preview : PackagePreview) (consent : Consent) :
    Except ReviewError Unit := do
  ensure (preview.incompatibility = false) .incompatible
  match consent with
  | .token token =>
    ensure (token = preview.consentToken) (.consentRequired preview.id)
  | .implicit replaceExisting =>
    ensure (preview.installedVersion = none ∨ replaceExisting = true)
      (.alreadyInstalled preview.id)

/-- Extract the reviewed package and fetch its libraries. -/
def unpack (prepared : PreparedPackage B) (archive : PackageArchive B) :
    Except ReviewError (StagedPackage B) := do
  let extracted ←
    (extract host.format archive.entries).mapError ReviewError.archive
  ensure (extracted.manifest.id = prepared.manifest.id
      ∧ extracted.manifest.version = prepared.manifest.version
      ∧ (prepared.checksums.all fun checksums =>
          checksums = extracted.checksums))
    (.changed prepared.manifest.id)
  let package ← (backfillNativeLibs host.providers extracted.manifest
    (extracted.tree.subtree extracted.root)).mapError ReviewError.nativeLibs
  return {
    files := extracted.tree.graft extracted.root package
    root := extracted.root
    manifest := extracted.manifest
    origin := prepared.origin
    digest := prepared.digest
    signature := prepared.signature }

/-- The tree after a staging directory was made and removed. -/
def scratch (t : FileTree B) : Option (FileTree B) := do
  let t ← t.createDirAll host.installer.layout.plugins
  let (staging, t) ← host.installer.newStagingDir host.installer.stagingName t
  return t.remove staging

/-- `commit`, of an archive as it is found then. -/
def commit (prepared : PreparedPackage B) (archive : PackageArchive B)
    (options : CommitOptions) (t : FileTree B) :
    Except ReviewError InstallOutcome × FileTree B :=
  match checkConsent (host.preview prepared t) options.consent with
  | .error error => (.error error, t)
  | .ok () =>
    match host.scratch t with
    | none => (.error (.install .io), t)
    | some cleaned =>
      match host.unpack prepared archive with
      | .error error => (.error error, cleaned)
      | .ok package =>
        let (result, t) := host.installer.commit package options.policy t
        (result.mapError ReviewError.install, t)

end Reviewer

-- ==== what was reviewed

section

variable {B : Type} {format : PackageFormat B}
  {check : PublicKey → B → String → Bool} {trust : TrustStore} {now : Nat}

theorem signatureState_verified {inspection : PackageInspection B}
    {state : SignatureState}
    (h : signatureState check trust now inspection = .ok state)
    (hv : state.isVerified = true) :
    ∃ signature checksums verified,
      inspection.checksums = some checksums
        ∧ trust.verifyPackage check signature checksums
            inspection.manifest.id now = .ok verified := by
  unfold signatureState at h
  dsimp only at h
  split at h
  case h_1 signature checksums _ hc =>
    split at h
    case h_1 verified hok =>
      exact ⟨signature, checksums, verified, hc, hok⟩
    case h_2 =>
      split at h
      · cases h
        cases hv
      · cases h
  case h_2 => cases h
  case h_3 =>
    cases h
    cases hv

variable {prepared : PreparedPackage B} {archive : PackageArchive B}

theorem prepare_ok {o : PackageOrigin} {p : SignaturePolicy}
    (h : prepare format check trust now archive o p = .ok prepared) :
    ∃ i, inspect format archive.entries = .ok i
      ∧ prepared.manifest = i.manifest
      ∧ prepared.checksums = i.checksums
      ∧ signatureState check trust now i = .ok prepared.signature := by
  unfold prepare at h
  simp only [bind_eq_ok] at h
  obtain ⟨-, -, i, hin, signature, hs, -, -, h⟩ := h
  cases h
  exact ⟨i, mapError_eq_ok hin, rfl, rfl, hs⟩

variable [DecidableEq B] {host : Reviewer B}

/-- What `unpack` hands to the installer: the files of the archive, and
beside them what was fetched. -/
theorem unpack_ok {p : StagedPackage B}
    (h : host.unpack prepared archive = .ok p) :
    ∃ e, extract host.format archive.entries = .ok e
      ∧ p.manifest = e.manifest
      ∧ (∀ c, prepared.checksums = some c → e.checksums = c)
      ∧ Backfilled
          (BelowFetched host.providers e.manifest (e.tree.subtree e.root))
          (e.tree.subtree e.root)
          (p.files.subtree p.root) := by
  unfold Reviewer.unpack at h
  rw [bind_eq_ok] at h
  obtain ⟨e, het, h⟩ := h
  rw [ensure_ok, bind_eq_ok] at h
  obtain ⟨⟨-, -, hs⟩, staged, hst, h⟩ := h
  cases h
  refine ⟨e, mapError_eq_ok het, rfl, ?_, ?_⟩
  · intro c hc
    rw [hc] at hs
    simpa [eq_comm] using hs
  · dsimp only
    rw [FileTree.graft_self]
    exact backfillNativeLibs_ok (mapError_eq_ok hst)

theorem commit_unpacked {o : CommitOptions} {t t' : FileTree B}
    {ou : InstallOutcome}
    (h : host.commit prepared archive o t = (.ok ou, t')) :
    ∃ p, host.unpack prepared archive = .ok p
      ∧ host.installer.commit p o.policy t = (.ok ou, t') := by
  unfold Reviewer.commit at h
  split at h
  case h_1 => cases h
  case h_2 =>
    split at h
    case h_1 => cases h
    case h_2 =>
      split at h
      case h_1 => cases h
      case h_2 p hu =>
        generalize hres : host.installer.commit p o.policy t = res at h
        obtain ⟨result, t1⟩ := res
        refine ⟨p, hu, ?_⟩
        rw [Prod.mk.injEq] at h
        rw [hres, mapError_eq_ok h.1, h.2]

end

namespace Reviewer

variable {B : Type} [DecidableEq B]

/-- What was reviewed is what gets installed. The archive is the same
at the preview and at the commit, in any tree at either time; whatever
consent opened the commit. A verified package vouches for every
installed file but the checksums, their signature and the libraries
fetched for this host. -/
theorem installed_as_reviewed (host : Reviewer B)
    (suited : host.installer.Suited)
    (check : PublicKey → B → String → Bool) (trust : TrustStore) (now : Nat)
    (archive : PackageArchive B) (hplain : PlainNames archive.entries)
    (origin : PackageOrigin) (policy : SignaturePolicy)
    (prepared : PreparedPackage B)
    (hprepare : prepare host.format check trust now archive origin policy
      = .ok prepared)
    (options : CommitOptions) (t₀ t t' : FileTree B)
    (outcome : InstallOutcome)
    (hcommit : host.commit prepared archive options t = (.ok outcome, t')) :
    let reviewed := host.preview prepared t₀
    host.installer.layout.installedManifest host.installer.codec reviewed.id
        t' = some prepared.manifest
      ∧ outcome.receipt.grantedPermissions = reviewed.permissions
      ∧ outcome.receipt.grantedCapabilities = reviewed.capabilities
      ∧ t' (host.installer.layout.receipt reviewed.id)
        = some (.file (host.installer.codec.encode outcome.receipt))
      ∧ (reviewed.signature.isVerified = true →
          ∃ signature checksums verified listed extracted,
            trust.verifyPackage check signature checksums reviewed.id now
                = .ok verified
              ∧ parseChecksums host.format checksums = .ok listed
              ∧ extract host.format archive.entries = .ok extracted
              ∧ ∀ path content,
                t' (host.installer.layout.package reviewed.id ++ path)
                    = some (.file content) →
                  path ≠ ["checksums.json"] → path ≠ ["signature.json"] →
                    ¬ BelowFetched host.providers prepared.manifest
                        (extracted.tree.subtree extracted.root) path →
                      listed.lookup (spelled path)
                        = some (host.format.hash content)) := by
  intro reviewed
  obtain ⟨inspection, hin, hman, hch, hsig⟩ := prepare_ok hprepare
  obtain ⟨package, hu, hil⟩ := commit_unpacked hcommit
  obtain ⟨extracted, het, hpkg, hs, hb⟩ := unpack_ok hu
  obtain ⟨state, listed, bytes, hx⟩ := extract_ok het
  have hcm := Installer.commit_ok suited hil
  have heq : package.manifest = prepared.manifest := by
    rw [hpkg, hx.manifest_eq hplain hin, hman]
  have hid : reviewed.id = package.manifest.id := by
    rw [heq]
    rfl
  have ht : ∀ path, extracted.tree.subtree extracted.root path
      = state.tree (extracted.root ++ path) := by
    intro path
    rw [← hx.tree]
    rfl
  refine ⟨?_, ?_, ?_, ?_, ?_⟩
  · -- the manifest file survives the fetch and is read back
    have hr := hb.root (by
      rw [ht, List.append_nil]
      exact hx.root.2)
    have hf := hb.manifest bytes (by
      rw [ht]
      exact hx.manifestFile)
    rw [FileTree.subtree_apply, List.append_nil] at hr
    rw [hid, hcm.installedManifest hr hf, ← heq, hpkg]
    have hprs := hx.manifest
    unfold parseManifest at hprs
    rw [okOr_ok] at hprs
    obtain ⟨manifest, hm, hprs⟩ := hprs
    rw [ensure_ok] at hprs
    rw [host.codec_eq, hm]
    exact congrArg some (Except.ok.inj hprs.2)
  · rw [hcm.permissions, heq]
    rfl
  · rw [hcm.capabilities, heq]
    rfl
  · rw [hid]
    exact hcm.recorded
  · intro hv
    obtain ⟨signature, checksums, verified, hc, hvr⟩ :=
      signatureState_verified hsig hv
    refine ⟨signature, checksums, verified, listed, extracted, ?_, ?_,
      het, ?_⟩
    · rw [← hman] at hvr
      exact hvr
    · rw [← hs checksums (hch.trans hc)]
      exact hx.checksums
    · intro path content hf h1 h2 h3
      rw [hid] at hf
      have hst : package.files.subtree package.root path
          = some (.file content) := by
        rw [← hf]
        exact (congrFun hcm.installed.holds path).symm
      rw [← heq, hpkg] at h3
      have hown := hb.file path content h3 hst
      refine hx.lookup_eq hplain ?_ h1 h2
      exact hown

-- A package with a native library it carries for other hosts only.

inductive Page where
  | manifest (manifest : PluginManifest)
  | receipt (receipt : InstallReceipt)
  | checksums (listed : List (String × String))
  | signature (signature : PackageSignature)
  | lockfile
  | library
  deriving DecidableEq

def pageCodec : Codec Page where
  manifest := fun
    | .manifest manifest => some manifest
    | _ => none
  receipt := fun
    | .receipt receipt => some receipt
    | _ => none
  encode := .receipt

def digestOf (c : Char) : String := String.ofList (List.replicate 64 c)

def pageFormat : PackageFormat Page where
  codec := pageCodec
  length := fun _ => 1
  hash := fun
    | .manifest _ => digestOf 'a'
    | .lockfile => digestOf 'b'
    | _ => digestOf 'c'
  checksums := fun
    | .checksums listed => some listed
    | _ => none
  signature := fun
    | .signature signature => some signature
    | _ => none
  text := fun _ => none
  supported := fun _ => true
  executable := fun _ _ => true

def libraryManifest : PluginManifest where
  id := "demo"
  version := "1.0.0"
  runtime := "napi-vm"
  permissions := ["overlay"]
  capabilities := ["events"]
  nativeLibs := [{ package := "lib", version := "2.0.0" }]
  nativeAddons := [{ package := "lib", root := "native" }]
  valid := isValidPluginId_demo

def librarySignature : PackageSignature where
  keyId := "publisher-1"
  publisher := "acme"
  signature := "signed"

def entryOf (name : String) (content : Page) : ArchiveEntry Page where
  name := name
  isDir := false
  size := 1
  content := content

def libraryListed : List (String × String) :=
  [("plugin.json", digestOf 'a'), ("native-libs.lock.json", digestOf 'b')]

def libraryArchive : PackageArchive Page where
  extension := "plugin"
  size := 4
  digest := "sha256:00"
  entries := [
    entryOf "plugin.json" (.manifest libraryManifest),
    entryOf "native-libs.lock.json" .lockfile,
    entryOf "checksums.json" (.checksums libraryListed),
    entryOf "signature.json" (.signature librarySignature)]

def publisherKey : TrustedKey where
  key := { keyId := "publisher-1", publicKey := "key" }
  role := .publisher
  publisher := some "acme"
  scopes := ["demo"]

def publisherTrust : TrustStore :=
  TrustStore.insert {} publisherKey "registry"

def signedText (_ : PublicKey) (_ : Page) (signature : String) : Bool :=
  signature = "signed"

def libraryPrepared : PreparedPackage Page where
  size := 4
  origin := .file
  digest := "sha256:00"
  manifest := libraryManifest
  signature := {
    status := .verified
    publisher := some "acme"
    keyId := some "publisher-1"
    source := some "registry"
    reason := none }
  changelog := none
  checksums := some (.checksums libraryListed)

def libraryHost : Reviewer Page where
  installer := {
    layout := { plugins := ["plugins"], store := ["store"] }
    codec := pageCodec
    retain := 2
    compatible := fun _ => true
    replaces := fun _ _ => false
    now := 2
    stagingName := "demo-1"
    failedName := "failed-1"
    fault := none }
  format := pageFormat
  codec_eq := rfl
  hashText := id
  compareVersions := fun _ _ => some .eq
  providers := {
    hostBinaries := fun tree => if tree.isFile ["lib.node"] then 1 else 0
    fetch := fun _ _ => some
      (.ofList [([], .dir), (["lib.node"], .file .library)]) }

def emptyTree : FileTree Page := .ofList [([], .dir)]

def libraryOptions : CommitOptions where
  consent := .token (libraryHost.preview libraryPrepared emptyTree).consentToken
  policy := none

theorem libraryHost_suited : libraryHost.installer.Suited where
  separate := by decide
  staging := by decide
  failed := by decide
  distinct := by decide

theorem library_prepared : prepare libraryHost.format signedText publisherTrust
    1 libraryArchive .file .require = .ok libraryPrepared := by
  rfl

theorem library_plain : PlainNames libraryArchive.entries := by
  decide

theorem library_committed : ∃ o t',
    libraryHost.commit libraryPrepared libraryArchive libraryOptions emptyTree
      = (.ok o, t') :=
  ⟨_, _, rfl⟩

/-- The reviewed manifest and its permissions are installed. -/
theorem library_installed_as_reviewed : ∃ outcome t',
    libraryHost.commit libraryPrepared libraryArchive libraryOptions emptyTree
        = (.ok outcome, t')
      ∧ libraryHost.installer.layout.installedManifest pageCodec "demo" t'
        = some libraryManifest
      ∧ outcome.receipt.grantedPermissions = ["overlay"] := by
  obtain ⟨outcome, t', hc⟩ := library_committed
  obtain ⟨hman, hp, -⟩ := installed_as_reviewed libraryHost
    libraryHost_suited signedText publisherTrust 1 libraryArchive
    library_plain .file .require libraryPrepared library_prepared
    libraryOptions emptyTree emptyTree t' outcome hc
  exact ⟨outcome, t', hc, hman, hp⟩

/-- A fetched library is installed beside the files a verified package
vouches for. -/
theorem fetched_library_installed :
    prepare libraryHost.format signedText publisherTrust 1 libraryArchive
        .file .require = .ok libraryPrepared
      ∧ (libraryHost.preview libraryPrepared emptyTree).signature.isVerified
        = true
      ∧ libraryPrepared.checksums = some (.checksums libraryListed)
      ∧ parseChecksums pageFormat (.checksums libraryListed)
        = .ok libraryListed
      ∧ (libraryHost.commit libraryPrepared libraryArchive libraryOptions
          emptyTree).1.isOk = true
      ∧ (libraryHost.commit libraryPrepared libraryArchive libraryOptions
          emptyTree).2 ["plugins", "demo", "native", "lib.node"]
        = some (.file .library)
      ∧ libraryListed.lookup (spelled ["native", "lib.node"]) = none :=
  ⟨library_prepared, rfl, rfl, rfl, rfl, rfl, rfl⟩

end Reviewer

end TikTools.Plugins
