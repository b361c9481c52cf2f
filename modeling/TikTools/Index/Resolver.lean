/-
The resolver: which release of a package document a host gets.

`HostCompat.check` is the host's own test of a manifest; the resolver
applies the same test to a release, with the target of the artifact it
picked in place of the manifest's list. A request for one version in
full ignores channels.
-/
import TikTools.Index.Model

namespace TikTools.Index

open TikTools.Lib

-- ==== hosts

def minSupportedSchemaVersion : Nat := 2

def maxSupportedSchemaVersion : Nat := 3

def pluginProtocolVersion : Nat := 1

def pluginAbiVersion : Nat := 1

structure HostCompat where
  hostVersion : Version
  target : String
  runtimes : List PluginRuntimeKind

structure CompatRequirements where
  schemaVersion : Nat
  protocolVersion : Nat
  abiVersion : Option Nat
  runtime : PluginRuntimeKind
  engine : Option String
  targets : List String

def PluginManifest.requirements (manifest : PluginManifest) :
    CompatRequirements where
  schemaVersion := manifest.schemaVersion
  protocolVersion := manifest.protocolVersion
  abiVersion := manifest.abiVersion
  runtime := manifest.runtime
  engine := manifest.metadata.engine
  targets := manifest.targets

inductive Incompatibility where
  | schema (version : Nat)
  | protocol (version : Nat)
  | abi (version : Nat)
  | hostVersion (required host : String)
  | target (targets : List String) (host : String)
  | runtime (runtime : String)
  deriving DecidableEq, Repr

def Incompatibility.text : Incompatibility → String
  | schema version =>
    "plugin manifest has unsupported schema version " ++ toString version
  | protocol version =>
    "plugin protocol version " ++ toString version ++ " is not supported"
  | abi version =>
    "plugin ABI version " ++ toString version ++ " is not supported"
  | hostVersion required host =>
    "plugin requires TikTools " ++ required ++ " (this host is " ++ host
      ++ ")"
  | target _ host =>
    "plugin has no build for this platform (" ++ host ++ ")"
  | .runtime kind =>
    "the " ++ kind ++ " plugin runtime is not available on this host"

variable (lib : Semver)

namespace HostCompat

variable (host : HostCompat)

/-- The first component of the host's target. -/
def platform : String :=
  String.ofList (host.target.toList.takeWhile (· ≠ '-'))

def targetMatches (targets : List String) : Bool :=
  targets.isEmpty || targets.any fun candidate =>
    candidate = host.target ∨ candidate = host.platform

/-- The host's version lies in a range; a range that does not parse holds
none. -/
def satisfies (engine : String) : Bool :=
  (lib.parseVersionReq engine).any fun requirement =>
    lib.isMatch requirement host.hostVersion

/-- The ABI version of a native plugin when the host has another. -/
def foreignAbi (requirements : CompatRequirements) : Option Nat :=
  if requirements.runtime = .native then
    requirements.abiVersion.filter fun version => version ≠ pluginAbiVersion
  else none

def check (requirements : CompatRequirements) :
    Except Incompatibility Unit := do
  ensure (minSupportedSchemaVersion ≤ requirements.schemaVersion
      ∧ requirements.schemaVersion ≤ maxSupportedSchemaVersion)
    (.schema requirements.schemaVersion)
  ensure (requirements.protocolVersion = pluginProtocolVersion)
    (.protocol requirements.protocolVersion)
  refuse (foreignAbi requirements) .abi
  ensure (requirements.runtime ∈ host.runtimes)
    (.runtime requirements.runtime.text)
  refuse (requirements.engine.filter fun range =>
      !host.satisfies lib range)
    fun range => .hostVersion range (lib.text host.hostVersion)
  ensure (host.targetMatches requirements.targets)
    (.target requirements.targets host.target)

def checkManifest (manifest : PluginManifest) :
    Except Incompatibility Unit :=
  host.check lib manifest.requirements

end HostCompat

/-- Schema, protocol and ABI are ones this program knows. -/
structure CompatRequirements.Known (requirements : CompatRequirements) :
    Prop where
  minSchema : minSupportedSchemaVersion ≤ requirements.schemaVersion
  maxSchema : requirements.schemaVersion ≤ maxSupportedSchemaVersion
  protocol : requirements.protocolVersion = pluginProtocolVersion
  abi : HostCompat.foreignAbi requirements = none

-- ==== releases

def Release.runtimeKind (release : Release) : Option PluginRuntimeKind :=
  PluginRuntimeKind.parse release.runtime

def Release.engine (release : Release) : Option String :=
  release.engines.lookup hostEngine

def Release.requirements (release : Release) (runtime : PluginRuntimeKind)
    (targets : List String) : CompatRequirements where
  schemaVersion := release.schemaVersion
  protocolVersion := release.protocolVersion
  abiVersion := release.abiVersion
  runtime
  engine := release.engine
  targets

inductive RejectionReason where
  | yanked
  | channel (channel : String)
  | requirement
  | unknownRuntime (runtime : String)
  | incompatible (message : String)
  | noArtifact (target : String)
  deriving DecidableEq, Repr

structure Rejection where
  version : String
  reason : RejectionReason
  deriving DecidableEq, Repr

structure ResolveRequest where
  requirement : Option VersionReq
  channel : String
  allowYanked : Bool

structure ResolvedRelease where
  release : Release
  artifact : Artifact
  deriving DecidableEq

/-- The artifact a host gets of a release: its own target's, else the
portable one. -/
def Release.artifactFor (release : Release) (target : String) :
    Option Artifact :=
  (release.artifacts.find? fun a => a.target = target).or
    (release.artifacts.find? fun a => a.target = anyTarget)

/-- The targets an artifact is checked with. -/
def Artifact.targets (artifact : Artifact) : List String :=
  if artifact.target = anyTarget then [] else [artifact.target]

def compatibleArtifact (release : Release) (host : HostCompat) :
    Except RejectionReason Artifact := do
  let runtime ← okOr release.runtimeKind (.unknownRuntime release.runtime)
  let artifact ← okOr (release.artifactFor host.target)
    (.noArtifact host.target)
  match host.check lib (release.requirements runtime artifact.targets) with
  | .ok _ => pure artifact
  | .error incompatibility => throw (.incompatible incompatibility.text)

-- ==== resolution

def channelStable : String := "stable"

def channelBeta : String := "beta"

def channelAllows (requested releaseChannel : String) (version : Version) :
    Bool :=
  if requested = channelBeta then
    releaseChannel = channelStable ∨ releaseChannel = channelBeta
  else releaseChannel = channelStable ∧ version.pre = ""

/-- The request names one version in full. -/
def VersionReq.isExact (requirement : VersionReq) : Bool :=
  match requirement.comparators with
  | [comparator] =>
    comparator.op = .exact ∧ comparator.minor.isSome ∧ comparator.patch.isSome
  | _ => false

def VersionReq.prereleaseMatches (requirement : VersionReq)
    (version : Version) : Bool :=
  requirement.comparators.all fun comparator =>
    comparator.major = version.major
      ∧ comparator.minor = some version.minor
      ∧ comparator.patch = some version.patch
      ∧ comparator.pre = version.pre

namespace ResolveRequest

variable (request : ResolveRequest)

def exact : Bool := request.requirement.any VersionReq.isExact

/-- A version the requirement leaves out. -/
def excludes (version : Version) : Bool :=
  request.requirement.any fun requirement =>
    !lib.isMatch requirement version
      && !(request.exact && requirement.prereleaseMatches version)

/-- What the resolver makes of one release. -/
def examine (host : HostCompat) (release : Release) (version : Version) :
    Except RejectionReason Artifact :=
  if request.excludes lib version then .error .requirement
  else if release.yanked && !(request.exact && request.allowYanked) then
    .error .yanked
  else if !request.exact
      && !channelAllows request.channel release.channel version then
    .error (.channel release.channel)
  else compatibleArtifact lib release host

/-- The rejections so far, and the newest release that fits. -/
abbrev Found := List Rejection × Option (Version × ResolvedRelease)

def consider (host : HostCompat) (found : Found) (release : Release) :
    Found :=
  match release.semver lib with
  | none => found
  | some version =>
    match request.examine lib host release version with
    | .error reason => (found.1 ++ [⟨release.version, reason⟩], found.2)
    | .ok artifact =>
      if found.2.all fun best => !lib.le version best.1
      then (found.1, some (version, ⟨release, artifact⟩))
      else found

end ResolveRequest

def resolve (document : PackageDocument) (request : ResolveRequest)
    (host : HostCompat) : Except (List Rejection) ResolvedRelease :=
  let found := document.releases.foldl (request.consider lib host) ([], none)
  match found.2 with
  | some best => .ok best.2
  | none => .error found.1

-- ==== the check

variable {lib}

namespace HostCompat

variable {host : HostCompat}

theorem check_eq_ok {r : CompatRequirements} :
    host.check lib r = .ok () ↔ r.Known
      ∧ r.runtime ∈ host.runtimes
      ∧ (∀ range ∈ r.engine, host.satisfies lib range)
      ∧ host.targetMatches r.targets := by
  have hen : r.engine.filter (fun range =>
        !host.satisfies lib range) = none
      ↔ ∀ range ∈ r.engine, host.satisfies lib range := by
    rw [Option.filter_eq_none_iff]
    simp only [Bool.not_eq_eq_eq_not, Bool.not_true, Bool.not_eq_false]
    exact Iff.rfl
  unfold check
  simp only [bind_eq_ok, refuse_eq_ok, ensure_eq_ok, exists_const, hen]
  constructor
  · rintro ⟨⟨hmin, hm⟩, hp, h, hr, hrn, ht⟩
    exact ⟨⟨hmin, hm, hp, h⟩, hr, hrn, ht⟩
  · rintro ⟨⟨hmin, hm, hp, h⟩, hr, hrn, ht⟩
    exact ⟨⟨hmin, hm⟩, hp, h, hr, hrn, ht⟩

end HostCompat

-- ==== the resolver

variable {release : Release}

namespace ResolveRequest

variable {request : ResolveRequest} {host : HostCompat}

/-- A release that fits: it has a version, and nothing speaks against
it. -/
structure Fits (lib : Semver) (request : ResolveRequest)
    (host : HostCompat) (release : Release) (artifact : Artifact) :
    Prop where
  examined : ∃ version, release.semver lib = some version
    ∧ request.examine lib host release version = .ok artifact

variable {found : Found}

theorem consider_sound {b : Version × ResolvedRelease}
    (h : (request.consider lib host found release).2 = some b) :
    found.2 = some b ∨ b.2.release = release
      ∧ Fits lib request host release b.2.artifact := by
  unfold consider at h
  split at h
  · exact .inl h
  · next v hv =>
    split at h
    · exact .inl h
    · next artifact hen =>
      split at h
      · cases h
        exact .inr ⟨rfl, ⟨v, hv, hen⟩⟩
      · exact .inl h

theorem consider_isSome (h : found.2.isSome) :
    (request.consider lib host found release).2.isSome := by
  unfold consider
  split
  · exact h
  · split
    · exact h
    · split
      · rfl
      · exact h

theorem consider_fits {a : Artifact}
    (h : Fits lib request host release a) :
    (request.consider lib host found release).2.isSome := by
  obtain ⟨version, hv, hen⟩ := h
  unfold consider
  rw [hv]
  dsimp only
  rw [hen]
  dsimp only
  split
  · rfl
  · next hb =>
    cases hf : found.2 with
    | none =>
      rw [hf] at hb
      exact absurd rfl hb
    | some best => rfl

variable {releases : List Release}

theorem foldl_sound {best : Version × ResolvedRelease}
    (h : (releases.foldl (request.consider lib host) found).2 = some best) :
    found.2 = some best ∨ best.2.release ∈ releases
      ∧ Fits lib request host best.2.release best.2.artifact := by
  induction releases generalizing found with
  | nil => exact .inl h
  | cons release rest ih =>
    rcases ih h with hfn | ⟨hmem, hf⟩
    · rcases consider_sound hfn with hold | ⟨heq, hf⟩
      · exact .inl hold
      · rw [heq]
        exact .inr ⟨.head _, hf⟩
    · exact .inr ⟨.tail _ hmem, hf⟩

theorem foldl_complete (h : found.2.isSome ∨ ∃ release ∈ releases, ∃ a,
      Fits lib request host release a) :
    (releases.foldl (request.consider lib host) found).2.isSome := by
  induction releases generalizing found with
  | nil =>
    rcases h with h | ⟨release, hmem, -⟩
    · exact h
    · cases hmem
  | cons release rest ih =>
    refine ih ?_
    rcases h with h | ⟨o, hmem, a, hf⟩
    · exact .inl (consider_isSome h)
    · rcases List.mem_cons.1 hmem with rfl | hmem
      · exact .inl (consider_fits hf)
      · exact .inr ⟨o, hmem, a, hf⟩

end ResolveRequest

variable {host : HostCompat}

open ResolveRequest in
/-- What is resolved is a release of the document that fits, with its
artifact. -/
theorem resolve_sound {d : PackageDocument} {request : ResolveRequest}
    {r : ResolvedRelease}
    (h : resolve lib d request host = .ok r) :
    r.release ∈ d.releases ∧ Fits lib request host r.release r.artifact := by
  unfold resolve at h
  dsimp only at h
  split at h
  · next best hb =>
    cases h
    rcases foldl_sound hb with hn | hf
    · cases hn
    · exact hf
  · cases h

open ResolveRequest in
theorem resolve_complete {d : PackageDocument}
    {request : ResolveRequest} {a : Artifact}
    (h : release ∈ d.releases)
    (hf : Fits lib request host release a) :
    ∃ resolved, resolve lib d request host = .ok resolved := by
  have hs : (d.releases.foldl (request.consider lib host)
      ([], none)).2.isSome :=
    foldl_complete (.inr ⟨release, h, a, hf⟩)
  unfold resolve
  dsimp only
  split
  · next b _ => exact ⟨b.2, rfl⟩
  · next hn =>
    rw [hn] at hs
    cases hs

end TikTools.Index
