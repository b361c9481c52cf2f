/-
Native libraries a package declares but does not carry for this host:
they are fetched from a provider and staged into the extracted package
before it is installed.

Staging replaces the directory the manifest names for the library, and
nothing else: not the package's own directory, and no file it extracted
elsewhere (`backfill_file`). What a provider sends, checked against the
package's lockfile, is the parameter `NativeProviders.fetch`.
-/
import TikTools.Plugins.Archive

namespace TikTools.Plugins

open TikTools.Lib List

inductive NativeLibError where
  /-- "plugin archive ships no … binary for … and no
  native-libs.lock.json to fetch it from". -/
  | noLockfile
  | fetch (package : String)
  | stage (package : String)
  /-- "fetched native library failed validation". -/
  | invalid (package : String)
  deriving DecidableEq

structure NativeProviders (B : Type) where
  /-- How many of a directory's files are binaries for this host. -/
  hostBinaries : FileTree B → Nat
  /-- The files a provider sends for a library, as the lockfile pins
  them and the package selects them. -/
  fetch : B → NativeLib → Option (FileTree B)

def lockfileName : String := "native-libs.lock.json"

def maxStageRootLen : Nat := 512

-- ==== staging

section

variable {B : Type} (providers : NativeProviders B)

/-- Where an addon's package lies in the plugin's. -/
def NativeAddon.directory (addon : NativeAddon) : Path :=
  resolve (components addon.root.toList)

/-- `select_host_native_binary`: how many binaries match this host, if
the root is a directory at all. -/
def hostBinaries (addon : NativeAddon) (tree : FileTree B) : Option Nat :=
  (tree.directory addon.directory).map providers.hostBinaries

/-- The addon that declares a library's directory. -/
def PluginManifest.addonFor (manifest : PluginManifest) (lib : NativeLib) :
    Option NativeAddon :=
  manifest.nativeAddons.find? fun addon => addon.package = lib.package

/-- The package holds no binary of a library for this host. -/
def isMissing (manifest : PluginManifest) (tree : FileTree B)
    (lib : NativeLib) : Bool :=
  match manifest.addonFor lib with
  | none => false
  | some addon =>
    match hostBinaries providers addon tree with
    | none => true
    | some count => count = 0

/-- `stage_native_package`, overwriting. A directory whose name ends in
"." can be neither removed nor created. -/
def stageNativePackage (root : String) (package tree : FileTree B) :
    Option (FileTree B) :=
  let destination := resolve (components root.toList)
  if root.utf8ByteSize ≤ maxStageRootLen ∧ isSafeRelativePath root.toList
      ∧ endsInDot root.toList = false
      ∧ tree.isFile destination = false then
    ((tree.remove destination).createDirAll destination).map fun tree =>
      tree.graft destination package
  else none

/-- Fetch one library and stage it. -/
def fetchAndStage (manifest : PluginManifest) (lockfile : B)
    (tree : FileTree B) (lib : NativeLib) :
    Except NativeLibError (FileTree B) :=
  match manifest.addonFor lib with
  | none => .ok tree
  | some addon => do
    let package ← okOr (providers.fetch lockfile lib) (.fetch lib.package)
    okOr (stageNativePackage addon.root package tree) (.stage lib.package)

/-- A fetched library has exactly one binary for this host. -/
def checkFetched (manifest : PluginManifest) (tree : FileTree B)
    (lib : NativeLib) : Except NativeLibError Unit :=
  match manifest.addonFor lib with
  | none => .ok ()
  | some addon =>
    ensure (hostBinaries providers addon tree = some 1) (.invalid lib.package)

def missingLibs (manifest : PluginManifest) (tree : FileTree B) :
    List NativeLib :=
  manifest.nativeLibs.filter (isMissing providers manifest tree)

/-- `backfill_native_libs`, on the extracted package. -/
def backfillNativeLibs (manifest : PluginManifest) (tree : FileTree B) :
    Except NativeLibError (FileTree B) :=
  if missingLibs providers manifest tree = [] then .ok tree
  else
    match tree [lockfileName] with
    | some (.file lockfile) => do
      let missing := missingLibs providers manifest tree
      let staged ← missing.foldlM
        (fetchAndStage providers manifest lockfile) tree
      missing.forM (checkFetched providers manifest staged)
      return staged
    | _ => .error .noLockfile

/-- A path at or below the directory of a library that is fetched. -/
def BelowFetched (manifest : PluginManifest) (tree : FileTree B) (path : Path) :
    Prop :=
  ∃ lib ∈ missingLibs providers manifest tree, ∃ addon,
    manifest.addonFor lib = some addon ∧ addon.directory <+: path

end

-- ==== what it leaves

section

variable {B : Type} {providers : NativeProviders B}

theorem endsInDot_of_resolve {te : PathText}
    (h : resolve (components te) = []) : endsInDot te = true := by
  unfold resolve at h
  rw [filter_eq_nil_iff] at h
  unfold components at h
  unfold endsInDot
  cases hs : te.splitOn '/' with
  | nil => exact absurd hs (splitOn_ne_nil _ _)
  | cons f r =>
    rw [hs] at h
    have hdot : ∀ pa ∈ f :: r, pa = ['.'] := by
      intro pa hp
      by_contra hne
      have hmem : pa ∈ f :: r.filter fun p => p ≠ ['.'] := by
        rcases mem_cons.1 hp with rfl | hr
        · exact mem_cons_self
        · exact mem_cons_of_mem _ (mem_filter.2 ⟨hr, by simpa using hne⟩)
      have := h _ (mem_map_of_mem hmem)
      rw [decide_eq_true_eq, not_not] at this
      apply hne
      simpa using congrArg String.toList this
    have hl := getLast_mem (cons_ne_nil f r)
    rw [getLast?_eq_some_getLast (cons_ne_nil f r), hdot _ hl]
    rfl

variable {t t' : FileTree B}

/-- Staging leaves alone what is not below its destination, and never
touches the package's own directory. -/
theorem stageNativePackage_ok {r : String} {p : FileTree B}
    (h : stageNativePackage r p t = some t') :
    resolve (components r.toList) ≠ []
      ∧ t.isFile (resolve (components r.toList)) = false
      ∧ ∀ path, ¬ resolve (components r.toList) <+: path →
        (∀ f, t path = some f → t' path = some f)
          ∧ ∀ c, t' path = some (.file c) → t path = some (.file c) := by
  unfold stageNativePackage at h
  dsimp only at h
  split at h
  case isFalse => cases h
  case isTrue hc =>
    obtain ⟨-, -, hdot, hfl⟩ := hc
    rw [Option.map_eq_some_iff] at h
    obtain ⟨t1, h1, rfl⟩ := h
    refine ⟨fun e => ?_, hfl, fun path hp => ?_⟩
    · rw [endsInDot_of_resolve e] at hdot
      cases hdot
    have hr : t.remove (resolve (components r.toList)) path
        = t path := by
      unfold FileTree.remove
      rw [if_neg hp]
    rw [FileTree.graft_off _ hp]
    constructor
    · intro f hf
      exact createDirAll_present h1 (hr.trans hf)
    · intro c hf
      rw [← hr]
      exact createDirAll_file h1 hf

/-- What fetching has left alone: the package's directory, its
manifest, and every file that is not below a fetched library. -/
structure Backfilled (below : Path → Prop) (t t' : FileTree B) : Prop where
  root : t [] = some .dir → t' [] = some .dir
  manifest : ∀ content, t ["plugin.json"] = some (.file content) →
    t' ["plugin.json"] = some (.file content)
  file : ∀ path content, ¬ below path → t' path = some (.file content) →
    t path = some (.file content)

theorem Backfilled.refl (b : Path → Prop) (t : FileTree B) :
    Backfilled b t t :=
  ⟨fun h => h, fun _ h => h, fun _ _ _ h => h⟩

variable {manifest : PluginManifest}

theorem Backfilled.stage {b : Path → Prop} {t1 t2 : FileTree B}
    (h : Backfilled b t t1) {l : B} {lib : NativeLib}
    (hb : ∀ a, manifest.addonFor lib = some a → ∀ path,
      a.directory <+: path → b path)
    (hs : fetchAndStage providers manifest l t1 lib = .ok t2) :
    Backfilled b t t2 := by
  unfold fetchAndStage at hs
  split at hs
  case h_1 =>
    cases hs
    exact h
  case h_2 a ha =>
    rw [okOr_ok] at hs
    obtain ⟨package, -, hs⟩ := hs
    obtain ⟨hne, hfl, ho⟩ := stageNativePackage_ok (okOr_eq_ok.1 hs)
    have hrt : ¬ resolve (components a.root.toList) <+: [] := by
      intro hp
      exact hne (prefix_nil.1 hp)
    refine ⟨fun hd => (ho [] hrt).1 _ (h.root hd), ?_, ?_⟩
    · intro c hc
      have h1 := h.manifest c hc
      -- the destination is not the manifest, which is a file
      refine (ho _ fun hp => ?_).1 _ h1
      rcases prefix_cons_iff.1 hp with e | ⟨rest, e, hr⟩
      · exact hne e
      · rw [prefix_nil.1 hr] at e
        rw [e] at hfl
        unfold FileTree.isFile at hfl
        rw [h1] at hfl
        cases hfl
    · intro path c hp hf
      have hout : ¬ a.directory <+: path := fun hd =>
        hp (hb a ha path hd)
      exact h.file path c hp ((ho path hout).2 c hf)

theorem backfillNativeLibs_ok
    (h : backfillNativeLibs providers manifest t = .ok t') :
    Backfilled (BelowFetched providers manifest t) t t' := by
  unfold backfillNativeLibs at h
  split at h
  case isTrue =>
    cases h
    exact .refl _ _
  case isFalse =>
    split at h
    case h_1 lockfile _ =>
      rw [bind_eq_ok] at h
      obtain ⟨staged, hst, h⟩ := h
      rw [bind_eq_ok] at h
      obtain ⟨⟨⟩, -, h⟩ := h
      cases h
      exact foldlM_invariant
        (fun lib hl t1 t2 hs hb => hb.stage
          (fun a ha path hp => ⟨lib, hl, a, ha, hp⟩) hs)
        hst (.refl _ t)
    case h_2 => cases h

end

end TikTools.Plugins
