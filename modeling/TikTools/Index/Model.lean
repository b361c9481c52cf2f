/-
The static registry: package documents, and what an added package makes
of one.

A package document lists the releases of one plugin; a release lists
one artifact for each target it was published for. Adding a package
files its artifact under the release of its version (`addRelease`): a
new release takes the package's metadata, an existing one keeps its own
and refuses a package whose runtime, permissions or capabilities differ.

Versions and version requirements are those of the semantic-version
library, a parameter (`Semver`).
-/
import TikTools.Lib.Text
import TikTools.Lib.Checked
import Mathlib.Data.List.Sort

namespace TikTools.Index

open TikTools.Lib List

-- ==== versions

/-- A semantic version. -/
structure Version where
  major : Nat
  minor : Nat
  patch : Nat
  pre : String
  build : String
  deriving DecidableEq, Repr

inductive Op where
  | exact | greater | greaterEq | less | lessEq | tilde | caret | wildcard
  deriving DecidableEq, Repr

structure Comparator where
  op : Op
  major : Nat
  minor : Option Nat
  patch : Option Nat
  pre : String
  deriving DecidableEq, Repr

structure VersionReq where
  comparators : List Comparator
  deriving DecidableEq, Repr

/-- The semantic-version library. -/
structure Semver where
  parse : String → Option Version
  text : Version → String
  le : Version → Version → Bool
  parseReq : String → Option VersionReq
  isMatch : VersionReq → Version → Bool

namespace Semver

variable (lib : Semver)

/-- `parse_version`: blanks around and v's before a version are
ignored. -/
def parseVersion (value : String) : Option Version :=
  lib.parse (String.ofList ((trim value.toList).dropWhile (· = 'v')))

def maxRangeLen : Nat := 128

def parseVersionReq (value : String) : Option VersionReq :=
  let value := String.ofList (trim value.toList)
  if value = "" ∨ maxRangeLen < value.utf8ByteSize then none
  else lib.parseReq value

/-- The order of the library's versions, absent ones first. -/
def leOption : Option Version → Option Version → Bool
  | none, _ => true
  | some _, none => false
  | some v, some w => lib.le v w

end Semver

-- ==== manifests

inductive PluginRuntimeKind where
  | native | wasm | process | declarative | napiVm
  deriving DecidableEq, Repr

namespace PluginRuntimeKind

def text : PluginRuntimeKind → String
  | native => "native"
  | wasm => "wasm"
  | process => "process"
  | declarative => "declarative"
  | napiVm => "napi-vm"

def parse (value : String) : Option PluginRuntimeKind :=
  if value = "native" then some native
  else if value = "wasm" then some wasm
  else if value = "process" then some process
  else if value = "declarative" then some declarative
  else if value = "napi-vm" then some napiVm
  else none

@[simp] theorem parse_text (kind : PluginRuntimeKind) :
    parse kind.text = some kind := by
  cases kind <;> decide

end PluginRuntimeKind

structure PackageMetadata where
  publisher : Option String
  license : Option String
  homepage : Option String
  repository : Option String
  engine : Option String
  dependencies : List (String × String)
  categories : List String
  deriving DecidableEq

/-- The fields of a plugin manifest the index reads. -/
structure PluginManifest where
  schemaVersion : Nat
  id : String
  name : String
  version : String
  description : Option String
  icon : Option String
  tags : List String
  runtime : PluginRuntimeKind
  capabilities : List String
  permissions : List String
  protocolVersion : Nat
  abiVersion : Option Nat
  targets : List String
  metadata : PackageMetadata
  deriving DecidableEq

def PluginManifest.semver (lib : Semver) (manifest : PluginManifest) :
    Option Version :=
  lib.parseVersion manifest.version

-- ==== documents

inductive AdvisorySeverity where
  | low | moderate | high | critical
  deriving DecidableEq, Repr

structure Advisory where
  severity : AdvisorySeverity
  message : String
  url : Option String
  deriving DecidableEq, Repr

structure Artifact where
  target : String
  url : String
  size : Nat
  sha256 : String
  keyId : Option String
  deriving DecidableEq, Repr

structure Release where
  version : String
  channel : String
  publishedAt : Nat
  yanked : Bool
  advisory : Option Advisory
  runtime : String
  engines : List (String × String)
  schemaVersion : Nat
  protocolVersion : Nat
  abiVersion : Option Nat
  permissions : List String
  capabilities : List String
  dependencies : List (String × String)
  changelog : Option String
  artifacts : List Artifact
  deriving DecidableEq

structure PackageDocument where
  id : String
  name : String
  publisher : Option String
  description : Option String
  icon : Option String
  categories : List String
  tags : List String
  homepage : Option String
  repository : Option String
  license : Option String
  screenshots : List String
  distTags : List (String × String)
  releases : List Release
  deriving DecidableEq

def anyTarget : String := "any"

def hostEngine : String := "tiktools"

variable (lib : Semver)

def Release.semver (release : Release) : Option Version :=
  lib.parseVersion release.version

def isValidPluginId (value : String) : Bool :=
  2 ≤ value.utf8ByteSize ∧ value.utf8ByteSize ≤ 128
    ∧ value.toList.head?.any Char.isLower
    ∧ value.toList.tail.all fun c =>
      c.isLower || c.isDigit || c ∈ ['.', '_', '-']

/-- Two characters of a plugin id, an underscore where it has none. -/
def pad (characters : List Char) (first second : Nat) : String :=
  String.ofList [characters.getD first '_', characters.getD second '_']

/-- Where a plugin's package document lies. -/
def shardPath (id : String) : String :=
  "index/" ++ pad id.toList 0 1 ++ "/" ++ pad id.toList 2 3 ++ "/" ++ id
    ++ ".json"

inductive RegistryError where
  | notFound (name : String)
  | invalidDocument (path message : String)
  | package
  | io
  deriving DecidableEq, Repr

-- ==== adding to a document

/-- The target a package is filed under. -/
def targetOf (manifest : PluginManifest) : String :=
  manifest.targets.head?.getD anyTarget

def applyMetadata (document : PackageDocument) (manifest : PluginManifest) :
    PackageDocument :=
  { document with
    name := manifest.name
    publisher := manifest.metadata.publisher
    description := manifest.description
    icon := manifest.icon
    categories := manifest.metadata.categories
    tags := manifest.tags
    homepage := manifest.metadata.homepage
    repository := manifest.metadata.repository
    license := manifest.metadata.license }

def emptyDocument (manifest : PluginManifest) : PackageDocument :=
  applyMetadata
    { id := manifest.id
      name := manifest.name
      publisher := none
      description := none
      icon := none
      categories := []
      tags := []
      homepage := none
      repository := none
      license := none
      screenshots := []
      distTags := []
      releases := [] } manifest

def releaseFrom (manifest : PluginManifest) (channel : String) (now : Nat)
    (changelog : Option String) (artifact : Artifact) : Release where
  version := ((manifest.semver lib).map lib.text).getD manifest.version
  channel
  publishedAt := now
  yanked := false
  advisory := none
  runtime := manifest.runtime.text
  engines := (manifest.metadata.engine.map fun range =>
    (hostEngine, range)).toList
  schemaVersion := manifest.schemaVersion
  protocolVersion := manifest.protocolVersion
  abiVersion := manifest.abiVersion
  permissions := manifest.permissions.insertionSort (· ≤ ·)
  capabilities := manifest.capabilities.insertionSort (· ≤ ·)
  dependencies := manifest.metadata.dependencies
  changelog
  artifacts := [artifact]

/-- Change the first element that meets the condition. -/
def updateFirst {α : Type} (p : α → Bool) (f : α → α) : List α → List α
  | [] => []
  | a :: rest => if p a then f a :: rest else a :: updateFirst p f rest

section

variable {α : Type} {p : α → Bool} {f : α → α} {l : List α} {a : α}

theorem mem_updateFirst (h : a ∈ updateFirst p f l) :
    a ∈ l ∨ ∃ b ∈ l, a = f b := by
  induction l with
  | nil => exact absurd h not_mem_nil
  | cons b l ih =>
    unfold updateFirst at h
    split at h
    · rcases mem_cons.1 h with rfl | h
      · exact .inr ⟨b, mem_cons_self, rfl⟩
      · exact .inl (mem_cons_of_mem b h)
    · rcases mem_cons.1 h with rfl | h
      · exact .inl mem_cons_self
      · rcases ih h with h | ⟨c, hc, rfl⟩
        · exact .inl (mem_cons_of_mem b h)
        · exact .inr ⟨c, mem_cons_of_mem b hc, rfl⟩

theorem mem_updateFirst_find {found : α} (hf : l.find? p = some found)
    (h : a ∈ updateFirst p f l) : a ∈ l.eraseP p ∨ a = f found := by
  induction l with
  | nil => cases hf
  | cons b l ih =>
    unfold updateFirst at h
    by_cases hb : p b
    · rw [if_pos hb] at h
      rw [find?_cons_of_pos hb] at hf
      cases hf
      rw [eraseP_cons_of_pos hb]
      rcases mem_cons.1 h with rfl | h
      · exact .inr rfl
      · exact .inl h
    · rw [if_neg hb] at h
      rw [find?_cons_of_neg hb] at hf
      rw [eraseP_cons_of_neg hb]
      rcases mem_cons.1 h with rfl | h
      · exact .inl mem_cons_self
      · rcases ih hf h with h | h
        · exact .inl (mem_cons_of_mem b h)
        · exact .inr h

theorem mem_updateFirst_of_nodup {β : Type} {key : α → β}
    (hn : (l.map key).Nodup) (hp : ∀ a b, p a → p b → key a = key b)
    (h : a ∈ updateFirst p f l) :
    (a ∈ l ∧ ¬ p a) ∨ ∃ b, l.find? p = some b ∧ a = f b := by
  induction l with
  | nil => exact absurd h not_mem_nil
  | cons b l ih =>
    rw [map_cons, nodup_cons] at hn
    unfold updateFirst at h
    by_cases hb : p b
    · rw [if_pos hb] at h
      rcases mem_cons.1 h with rfl | h
      · exact .inr ⟨b, find?_cons_of_pos hb, rfl⟩
      · refine .inl ⟨mem_cons_of_mem b h, fun ha => hn.1 ?_⟩
        rw [← hp a b ha hb]
        exact mem_map_of_mem h
    · rw [if_neg hb] at h
      rcases mem_cons.1 h with rfl | h
      · exact .inl ⟨mem_cons_self, hb⟩
      · rcases ih hn.2 h with ⟨hm, ha⟩ | ⟨c, hc, rfl⟩
        · exact .inl ⟨mem_cons_of_mem b hm, ha⟩
        · refine .inr ⟨c, ?_, rfl⟩
          rw [find?_cons_of_neg hb]
          exact hc

end

theorem map_updateFirst {α β : Type} {key : α → β} {p : α → Bool}
    {f : α → α} (hf : ∀ a, key (f a) = key a) (l : List α) :
    (updateFirst p f l).map key = l.map key := by
  induction l with
  | nil => rfl
  | cons b l ih =>
    unfold updateFirst
    split
    · rw [map_cons, hf, map_cons]
    · rw [map_cons, ih, map_cons]

/-- The metadata a release and an added package must share. -/
def Release.sameMetadata (existing release : Release) : Bool :=
  existing.runtime = release.runtime
    ∧ existing.permissions = release.permissions
    ∧ existing.capabilities = release.capabilities

/-- The release with the artifacts of another, in place of its own for
this target. -/
def Release.refile (existing release : Release) (target : String) :
    Release :=
  { existing with
    artifacts := existing.artifacts.filter (fun a => a.target ≠ target)
      ++ release.artifacts }

def isVersion (version : Version) (release : Release) : Bool :=
  release.semver lib = some version

theorem isVersion_iff {version : Version} {release : Release} :
    isVersion lib version release = true
      ↔ release.semver lib = some version :=
  decide_eq_true_iff

/-- File a release under its version. -/
def addRelease (path : String) (document : PackageDocument)
    (manifest : PluginManifest) (version : Version) (release : Release) :
    Except RegistryError PackageDocument :=
  match document.releases.find? (isVersion lib version) with
  | some existing =>
    if existing.sameMetadata release then
      .ok { document with
        releases := updateFirst (isVersion lib version)
          (fun r => r.refile release (targetOf manifest))
          document.releases }
    else .error (.invalidDocument path
      (manifest.id ++ " " ++ lib.text version
        ++ " was published with different metadata"))
  | none => .ok { document with releases := document.releases ++ [release] }

/-- The newest release names the plugin. -/
def refreshMetadata (document : PackageDocument) (manifest : PluginManifest)
    (version : Version) : PackageDocument :=
  if (document.releases.filterMap (Release.semver lib)).all
      (fun existing => lib.le existing version) then
    applyMetadata document manifest
  else document

/-- Set a key of an ordered map. -/
def setTag {α : Type} (key : String) (value : α) :
    List (String × α) → List (String × α)
  | [] => [(key, value)]
  | (k, v) :: rest =>
    if k = key then (key, value) :: rest
    else if key < k then (key, value) :: (k, v) :: rest
    else (k, v) :: setTag key value rest

/-- The highest release of each channel that is not yanked. -/
def distTags (releases : List Release) : List (String × String) :=
  let tags := (releases.filter fun r => !r.yanked).foldl
    (fun tags release =>
      match release.semver lib with
      | none => tags
      | some version =>
        match tags.lookup release.channel with
        | some (current, _) =>
          if lib.le version current then tags
          else setTag release.channel (version, release.version) tags
        | none => setTag release.channel (version, release.version) tags)
    ([] : List (String × (Version × String)))
  tags.map fun tag => (tag.1, tag.2.2)

/-- A document as it is written: releases in order, tags computed. -/
def finished (document : PackageDocument) : PackageDocument :=
  let releases := document.releases.insertionSort fun a b =>
    lib.leOption (a.semver lib) (b.semver lib)
  { document with releases, distTags := distTags lib releases }

variable {lib}

theorem mem_finished {d : PackageDocument} {r : Release} :
    r ∈ (finished lib d).releases ↔ r ∈ d.releases :=
  mem_insertionSort _

theorem releases_refreshMetadata (d : PackageDocument)
    (m : PluginManifest) (v : Version) :
    (refreshMetadata lib d m v).releases = d.releases := by
  unfold refreshMetadata
  split <;> rfl

theorem perm_finished (d : PackageDocument) :
    (finished lib d).releases.Perm d.releases :=
  perm_insertionSort _ _

end TikTools.Index
