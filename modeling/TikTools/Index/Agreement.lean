/-
Publishing and resolving agree with the host's own check.

A package document forgets most of what was added to it: one artifact
for each target, and of each version the metadata of its first package.
`Files` says what is left, against the list of packages added so far;
adding keeps it. From it, a request for one version in full is answered
by the package last added for the host's target, or the portable one,
and by it only if the host would take its manifest — as long as the
packages of a version are made for single targets and ask for one range
of hosts.
-/
import TikTools.Index.Published
import TikTools.Index.Resolver

namespace TikTools.Index

open TikTools.Lib List Option Effect

-- ==== added packages

/-- A package that was added: its manifest, its version and what it is
listed as. -/
structure Added where
  manifest : PluginManifest
  version : Version
  artifact : Artifact
  deriving DecidableEq

namespace Added

def engine (added : Added) : Option String := added.manifest.metadata.engine

def target (added : Added) : String := targetOf added.manifest

/-- What the writer makes sure of. -/
structure Sound (lib : Semver) (added : Added) : Prop where
  version : added.manifest.semver lib = some added.version
  artifact : added.artifact.target = added.target
  known : added.manifest.requirements.Known

end Added

/-- The package that was added last for a version and a target. -/
def lastFor (history : List Added) (version : Version) (target : String) :
    Option Added :=
  history.reverse.find? fun added =>
    added.version = version ∧ added.target = target

theorem lastFor_append (history : List Added) (added : Added)
    (version : Version) (target : String) :
    lastFor (history ++ [added]) version target
      = if added.version = version ∧ added.target = target then some added
        else lastFor history version target := by
  unfold lastFor
  rw [reverse_append, reverse_singleton, singleton_append]
  by_cases h : added.version = version ∧ added.target = target
  · rw [find?_cons_of_pos (by simpa using h), if_pos h]
  · rw [find?_cons_of_neg (by simpa using h), if_neg h]

variable {version : Version} {history : List Added}

variable {added : Added}

variable {release : Release} {target : String}

theorem lastFor_spec (h : lastFor history version target = some added) :
    added ∈ history ∧ added.version = version ∧ added.target = target := by
  have hp := find?_some h
  have hmem := mem_of_find?_eq_some h
  exact ⟨mem_reverse.1 hmem, of_decide_eq_true hp⟩

-- ==== what a document remembers

variable (lib : Semver)

/-- The release carries the metadata of the package. -/
structure Release.Made (release : Release) (added : Added) : Prop where
  version : release.semver lib = some added.version
  engine : release.engine = added.engine
  schemaVersion : release.schemaVersion = added.manifest.schemaVersion
  protocolVersion : release.protocolVersion = added.manifest.protocolVersion
  abiVersion : release.abiVersion = added.manifest.abiVersion

/-- The artifact a release lists for a target. -/
def Release.artifactAt (release : Release) (target : String) :
    Option Artifact :=
  release.artifacts.find? fun a => a.target = target

/-- The releases of a document against the packages added to it: one
release for each version, made from one of its packages and sharing the
runtime of all, that lists the package last added for each target. -/
structure Files (releases : List Release) (history : List Added) :
    Prop where
  distinct : (releases.map (Release.semver lib)).Nodup
  listed : ∀ added ∈ history,
    some added.version ∈ releases.map (Release.semver lib)
  made : ∀ release ∈ releases, ∃ added ∈ history, release.Made lib added
  runtime : ∀ release ∈ releases, ∀ added ∈ history,
    release.semver lib = some added.version →
    release.runtime = added.manifest.runtime.text
  published : ∀ release ∈ releases, release.yanked = false
  artifacts : ∀ release ∈ releases, ∀ version,
    release.semver lib = some version →
    ∀ target, release.artifactAt target
      = (lastFor history version target).map Added.artifact

/-- What the writer relies on of the version library: a version prints
without blanks and without a leading v, to a text that parses as that
version again. -/
structure Semver.Prints : Prop where
  parse_text : ∀ {s v}, lib.parse s = some v → lib.parse (lib.text v) = some v
  plain : ∀ {s v}, lib.parse s = some v →
    trim (lib.text v).toList = (lib.text v).toList
      ∧ (lib.text v).toList.head? ≠ some 'v'

variable {lib}

theorem Semver.Prints.parseVersion_text (hlib : lib.Prints) {s : String}
    {v : Version} (h : lib.parseVersion s = some v) :
    lib.parseVersion (lib.text v) = some v := by
  obtain ⟨ht, hh⟩ := hlib.plain h
  have hd : (lib.text v).toList.dropWhile (· = 'v')
      = (lib.text v).toList := by
    cases hl : (lib.text v).toList with
    | nil => rfl
    | cons c rest =>
      rw [hl, head?_cons] at hh
      rw [dropWhile_cons_of_neg]
      simpa using fun hc : c = 'v' => hh (congrArg some hc)
  unfold Semver.parseVersion
  rw [ht, hd, String.ofList_toList]
  exact hlib.parse_text h

/-- A refiled release lists the new artifact for its target, and the
others as before. -/
theorem Release.artifactAt_refile (e release : Release)
    {artifact : Artifact} (h : release.artifacts = [artifact])
    (target : String) :
    (e.refile release artifact.target).artifactAt target
      = if artifact.target = target then some artifact
        else e.artifactAt target := by
  unfold artifactAt refile
  rw [h, find?_append, find?_filter]
  split
  · next heq =>
    have hn : e.artifacts.find? (fun a =>
        decide (decide (a.target ≠ artifact.target) = true
          ∧ decide (a.target = target) = true)) = none := by
      rw [find?_eq_none]
      intro a _
      simp only [decide_eq_true_eq, not_and, heq]
      exact fun hne => hne
    rw [hn, none_or, find?_cons_of_pos (by simpa using heq)]
  · next hne =>
    rw [find?_cons_of_neg (by simpa using hne), find?_nil, or_none]
    refine congrArg (fun p => e.artifacts.find? p) ?_
    funext a
    by_cases ha : a.target = target
    · simp [ha, Ne.symm hne]
    · simp [ha]

namespace Files

variable {releases : List Release} {history : List Added}

theorem unique (h : Files lib releases history) {a b : Release}
    (ha : a ∈ releases) (hb : b ∈ releases)
    (hab : a.semver lib = b.semver lib) : a = b :=
  inj_on_of_nodup_map h.distinct ha hb hab

theorem nil : Files lib [] [] where
  distinct := nodup_nil
  listed := fun _ h => absurd h not_mem_nil
  made := fun _ h => absurd h not_mem_nil
  runtime := fun _ h => absurd h not_mem_nil
  published := fun _ h => absurd h not_mem_nil
  artifacts := fun _ h => absurd h not_mem_nil

theorem perm (h : Files lib releases history) {other : List Release}
    (hp : other.Perm releases) : Files lib other history where
  distinct := ((hp.map _).nodup_iff).2 h.distinct
  listed added ha := (hp.map _).mem_iff.2 (h.listed added ha)
  made release hr := h.made release (hp.mem_iff.1 hr)
  runtime release hr := h.runtime release (hp.mem_iff.1 hr)
  published release hr := h.published release (hp.mem_iff.1 hr)
  artifacts release hr := h.artifacts release (hp.mem_iff.1 hr)

end Files

section adding

variable {releases : List Release} {history : List Added} {added : Added}
  {channel : String} {now : Nat} {changelog : Option String}

theorem releaseFrom_made (hl : lib.Prints) (ha : added.Sound lib) :
    (releaseFrom lib added.manifest channel now changelog
      added.artifact).Made lib added where
  version := by
    have hver := ha.version
    unfold Release.semver releaseFrom
    rw [hver]
    exact hl.parseVersion_text hver
  engine := by
    unfold Release.engine releaseFrom Added.engine
    cases added.manifest.metadata.engine with
    | none => rfl
    | some range => rfl
  schemaVersion := rfl
  protocolVersion := rfl
  abiVersion := rfl

theorem Files.append (hlib : lib.Prints) (h : Files lib releases history)
    (had : added.Sound lib)
    (hn : some added.version ∉ releases.map (Release.semver lib)) :
    Files lib (releases ++ [releaseFrom lib added.manifest channel now
      changelog added.artifact]) (history ++ [added]) := by
  have hmd : (releaseFrom lib added.manifest channel now changelog
      added.artifact).Made lib added := releaseFrom_made hlib had
  have ho : ∀ other ∈ history, other.version ≠ added.version :=
    fun other ho heq => hn (heq ▸ h.listed other ho)
  have hls : ∀ target, lastFor history added.version target = none := by
    intro target
    cases hl : lastFor history added.version target with
    | none => rfl
    | some l =>
      obtain ⟨hmem, hv, -⟩ := lastFor_spec hl
      exact absurd hv (ho l hmem)
  refine ⟨?_, ?_, ?_, ?_, ?_, ?_⟩
  · rw [map_append, map_singleton, hmd.version]
    exact h.distinct.append (nodup_singleton _) (disjoint_singleton.2 hn)
  · intro other hmem
    rw [map_append, map_singleton, hmd.version]
    rcases mem_append.1 hmem with hmem | hmem
    · exact mem_append_left _ (h.listed other hmem)
    · rw [mem_singleton.1 hmem]
      exact mem_append_right _ mem_cons_self
  · intro release hmem
    rcases mem_append.1 hmem with hmem | hmem
    · obtain ⟨other, ho, hm⟩ := h.made release hmem
      exact ⟨other, mem_append_left _ ho, hm⟩
    · rw [mem_singleton.1 hmem]
      exact ⟨added, mem_append_right _ mem_cons_self, hmd⟩
  · intro release hmem other h' hv
    rcases mem_append.1 hmem with hr | hr
    · rcases mem_append.1 h' with ha | ha
      · exact h.runtime release hr other ha hv
      · rw [mem_singleton.1 ha] at hv
        exact absurd (hv ▸ mem_map_of_mem hr) hn
    · rw [mem_singleton.1 hr] at hv ⊢
      have heq := Option.some.inj (hmd.version.symm.trans hv)
      rcases mem_append.1 h' with ha | ha
      · exact absurd heq.symm (ho other ha)
      · rw [mem_singleton.1 ha]
        rfl
  · intro release hmem
    rcases mem_append.1 hmem with hr | hr
    · exact h.published release hr
    · rw [mem_singleton.1 hr]
      rfl
  · intro release hmem version hv target
    rw [lastFor_append]
    rcases mem_append.1 hmem with hr | hr
    · rw [if_neg]
      · exact h.artifacts release hr version hv target
      · rintro ⟨rfl, -⟩
        exact hn (hv ▸ mem_map_of_mem hr)
    · rw [mem_singleton.1 hr] at hv ⊢
      obtain rfl := Option.some.inj (hmd.version.symm.trans hv)
      rw [hls]
      by_cases heq : added.target = target
      · rw [if_pos ⟨rfl, heq⟩]
        exact find?_cons_of_pos (by simpa using had.artifact.trans heq)
      · rw [if_neg fun h => heq h.2]
        exact find?_cons_of_neg (by simpa [had.artifact] using heq)

/-- A version that is there lists the package's artifact for its target,
in place of the one before. -/
theorem Files.refile (h : Files lib releases history)
    (had : added.Sound lib) {e : Release}
    (hf : releases.find? (isVersion lib added.version) = some e)
    (hsa : e.sameMetadata (releaseFrom lib added.manifest channel
      now changelog added.artifact)) :
    Files lib (updateFirst (isVersion lib added.version)
      (fun r => r.refile (releaseFrom lib added.manifest channel now
        changelog added.artifact) added.target) releases)
      (history ++ [added]) := by
  have hexi : e.semver lib = some added.version :=
    (isVersion_iff lib).1 (find?_some hf)
  have hmem := mem_of_find?_eq_some hf
  have hrn : e.runtime = added.manifest.runtime.text := by
    have hs := of_decide_eq_true hsa
    exact hs.1
  have hsm : ∀ r : Release, (r.refile (releaseFrom lib added.manifest
      channel now changelog added.artifact) added.target).semver lib
      = r.semver lib := fun _ => rfl
  have hk := @map_updateFirst _ _ _ (isVersion lib added.version) _
    hsm releases
  -- An old release of another version, or the refiled one.
  have hc : ∀ release, release ∈ updateFirst (isVersion lib added.version)
      (fun r => r.refile (releaseFrom lib added.manifest channel now
        changelog added.artifact) added.target) releases →
      release ∈ releases ∧ release.semver lib ≠ some added.version
        ∨ release = e.refile (releaseFrom lib added.manifest channel
          now changelog added.artifact) added.target := by
    intro release hr
    rcases mem_updateFirst_of_nodup h.distinct (fun a b ha hb =>
        ((isVersion_iff lib).1 ha).trans ((isVersion_iff lib).1 hb).symm)
        hr with
      ⟨hold, hne⟩ | ⟨b, hb, heq⟩
    · exact .inl ⟨hold, fun heq => hne ((isVersion_iff lib).2 heq)⟩
    · rw [hf] at hb
      cases hb
      exact .inr heq
  refine ⟨?_, ?_, ?_, ?_, ?_, ?_⟩
  · rw [hk]
    exact h.distinct
  · intro other ho
    rw [hk]
    rcases mem_append.1 ho with ho | ho
    · exact h.listed other ho
    · rw [mem_singleton.1 ho, ← hexi]
      exact mem_map_of_mem hmem
  · intro release hr
    rcases hc release hr with ⟨hold, -⟩ | rfl
    · obtain ⟨other, ho, hm⟩ := h.made release hold
      exact ⟨other, mem_append_left _ ho, hm⟩
    · obtain ⟨other, ho, hm⟩ := h.made e hmem
      exact ⟨other, mem_append_left _ ho,
        ⟨hm.version, hm.engine, hm.schemaVersion, hm.protocolVersion,
          hm.abiVersion⟩⟩
  · intro release hr other ho hver
    rcases hc release hr with ⟨hold, hne⟩ | rfl
    · rcases mem_append.1 ho with ha | ha
      · exact h.runtime release hold other ha hver
      · rw [mem_singleton.1 ha] at hver
        exact absurd hver hne
    · rcases mem_append.1 ho with ha | ha
      · exact h.runtime e hmem other ha hver
      · rw [mem_singleton.1 ha]
        exact hrn
  · intro release hr
    rcases hc release hr with ⟨hold, -⟩ | rfl
    · exact h.published release hold
    · exact h.published e hmem
  · intro release hr version hver target
    rw [lastFor_append]
    rcases hc release hr with ⟨hold, hne⟩ | rfl
    · rw [if_neg]
      · exact h.artifacts release hold version hver target
      · rintro ⟨rfl, -⟩
        exact hne hver
    · rw [← had.artifact, Release.artifactAt_refile _ _ rfl]
      obtain rfl := Option.some.inj (hexi.symm.trans hver)
      by_cases heq : added.artifact.target = target
      · rw [if_pos heq, if_pos ⟨rfl, heq⟩]
        rfl
      · rw [if_neg heq, if_neg fun h => heq h.2]
        exact h.artifacts e hmem added.version hexi target

theorem Files.add (hl : lib.Prints) {document f : PackageDocument}
    (h : Files lib document.releases history) (ha : added.Sound lib)
    {p : String}
    (hd : addRelease lib p document added.manifest added.version
      (releaseFrom lib added.manifest channel now changelog added.artifact)
      = .ok f) :
    Files lib (finished lib (refreshMetadata lib f added.manifest
      added.version)).releases (history ++ [added]) := by
  suffices hfl : Files lib f.releases (history ++ [added]) by
    refine hfl.perm ?_
    have hrl : (refreshMetadata lib f added.manifest
        added.version).releases = f.releases :=
      releases_refreshMetadata f added.manifest added.version
    rw [← hrl]
    exact perm_finished _
  unfold addRelease at hd
  cases hf : document.releases.find? (isVersion lib added.version) with
  | none =>
    rw [hf] at hd
    cases hd
    refine h.append hl ha fun hm => ?_
    obtain ⟨release, hr, hv⟩ := mem_map.1 hm
    exact absurd ((isVersion_iff lib).2 hv) (find?_eq_none.1 hf release hr)
  | some existing =>
    rw [hf] at hd
    dsimp only at hd
    split at hd
    · next hs =>
      cases hd
      exact h.refile ha hf hs
    · cases hd

end adding

-- ==== resolving

/-- The versions agree but for the build. -/
def Version.Alike (v w : Version) : Prop :=
  v.major = w.major ∧ v.minor = w.minor ∧ v.patch = w.patch ∧ v.pre = w.pre

instance (v w : Version) : Decidable (v.Alike w) :=
  inferInstanceAs (Decidable (_ ∧ _ ∧ _ ∧ _))

/-- The requirement that names one version in full. -/
def Version.exactly (version : Version) : VersionReq :=
  ⟨[{ op := .exact
      major := version.major
      minor := some version.minor
      patch := some version.patch
      pre := version.pre }]⟩

/-- The version library ignores the build of a version when it matches
one in full. -/
def Semver.MatchesExactly (lib : Semver) : Prop :=
  ∀ v w, lib.isMatch (Version.exactly v) w = true ↔ v.Alike w

/-- Made for every host, or for one target in full: platform and
architecture. -/
def PluginManifest.SingleTarget (manifest : PluginManifest) : Prop :=
  manifest.targets = [] ∨ ∃ target, manifest.targets = [target]
    ∧ '-' ∈ target.toList

section hosts

variable {host : HostCompat} {added : Added}

theorem HostCompat.ne_platform
    (h : '-' ∈ target.toList) : target ≠ host.platform := by
  rintro rfl
  unfold platform at h
  rw [String.toList_ofList] at h
  exact absurd (mem_takeWhile_imp h) (by decide)

/-- The host takes a package's targets when it is made for the host or
for all. -/
theorem HostCompat.targetMatches_iff
    (h : added.manifest.SingleTarget) :
    host.targetMatches added.manifest.targets
      ↔ added.target = host.target ∨ added.target = anyTarget := by
  unfold Added.target targetOf targetMatches
  rcases h with h | ⟨target, h, hd⟩
  · rw [h]
    exact ⟨fun _ => .inr rfl, fun _ => rfl⟩
  · have hany : target ≠ anyTarget := by
      rintro rfl
      exact absurd hd (by decide)
    rw [h]
    simp [hany, HostCompat.ne_platform hd]

theorem HostCompat.checkManifest_eq_ok (ha : added.Sound lib)
    (hs : added.manifest.SingleTarget) :
    host.checkManifest lib added.manifest = .ok ()
      ↔ added.manifest.runtime ∈ host.runtimes
        ∧ (∀ r ∈ added.engine, host.satisfies lib r)
        ∧ (added.target = host.target ∨ added.target = anyTarget) := by
  unfold checkManifest
  rw [check_eq_ok, ← targetMatches_iff hs]
  exact and_iff_right ha.known

theorem HostCompat.targetMatches_artifact {artifact : Artifact}
    (h : artifact.target = host.target ∨ artifact.target = anyTarget) :
    host.targetMatches artifact.targets := by
  unfold Artifact.targets
  split
  · rfl
  · next ha =>
    rw [h.resolve_right ha]
    simp [targetMatches]

end hosts

/-- The package whose artifact a host gets of a version. -/
def chosen (history : List Added) (version : Version) (target : String) :
    Option Added :=
  (lastFor history version target).or (lastFor history version anyTarget)

theorem chosen_spec (h : chosen history version target = some added) :
    lastFor history version added.target = some added
      ∧ added ∈ history ∧ added.version = version
      ∧ (added.target = target ∨ added.target = anyTarget) := by
  rcases or_eq_some_iff.1 h with h | ⟨-, h⟩
  · obtain ⟨hm, hv, ht⟩ := lastFor_spec h
    rw [ht]
    exact ⟨h, hm, hv, .inl rfl⟩
  · obtain ⟨hm, hv, ht⟩ := lastFor_spec h
    rw [ht]
    exact ⟨h, hm, hv, .inr rfl⟩

section resolving

variable {document : PackageDocument} {history : List Added}
  {host : HostCompat} {request : ResolveRequest} {version : Version}

/-- The packages of a history are ones the index can answer for. -/
structure Uniform (lib : Semver) (history : List Added) : Prop where
  sound : ∀ added ∈ history, added.Sound lib
  single : ∀ added ∈ history, added.manifest.SingleTarget
  engine : ∀ a ∈ history, ∀ b ∈ history, a.version = b.version →
    a.engine = b.engine
  alike : ∀ a ∈ history, ∀ b ∈ history, a.version.Alike b.version →
    a.version = b.version

variable {w v : Version}

theorem prereleaseMatches_exactly :
    (Version.exactly v).prereleaseMatches w = true ↔ v.Alike w := by
  simp [VersionReq.prereleaseMatches, Version.exactly, Version.Alike]

variable {other : Version}

theorem excludes_exactly (het : lib.MatchesExactly)
    (hr : request.requirement = some version.exactly) :
    request.excludes lib other = true ↔ ¬ version.Alike other := by
  have his : request.exact = true := by
    unfold ResolveRequest.exact
    rw [hr]
    rfl
  unfold ResolveRequest.excludes
  rw [hr, his]
  simp only [any_some, Bool.true_and, Bool.and_eq_true,
    Bool.not_eq_true', Bool.eq_false_iff, ne_eq]
  rw [het, prereleaseMatches_exactly, and_self]

variable {artifact : Artifact}

theorem examine_exactly (het : lib.MatchesExactly)
    (hr : request.requirement = some version.exactly)
    (hy : release.yanked = false) :
    request.examine lib host release other = .ok artifact
      ↔ version.Alike other
        ∧ compatibleArtifact lib release host = .ok artifact := by
  have his : request.exact = true := by
    unfold ResolveRequest.exact
    rw [hr]
    rfl
  unfold ResolveRequest.examine
  rw [hy, his]
  split
  · next hel =>
    have hnot := (excludes_exactly het hr).1 hel
    exact ⟨fun h => (nomatch h), fun h => absurd h.1 hnot⟩
  · next hin =>
    rw [excludes_exactly het hr, not_not] at hin
    simp [hin]

theorem Version.Alike.refl (v : Version) : v.Alike v := ⟨rfl, rfl, rfl, rfl⟩

theorem Version.Alike.symm (h : v.Alike w) : w.Alike v :=
  ⟨h.1.symm, h.2.1.symm, h.2.2.1.symm, h.2.2.2.symm⟩

theorem resolve_exactly (het : lib.MatchesExactly)
    (h : Files lib document.releases history) (hu : Uniform lib history)
    (hrq : request.requirement = some version.exactly) :
    (resolve lib document request host = .ok ⟨release, artifact⟩
        ∧ release.semver lib = some version)
      ↔ release ∈ document.releases ∧ release.semver lib = some version
        ∧ compatibleArtifact lib release host = .ok artifact := by
  have hs : ∀ {release : Release} {artifact : Artifact},
      resolve lib document request host = .ok ⟨release, artifact⟩ →
      release ∈ document.releases ∧ ∃ other,
        release.semver lib = some other ∧ version.Alike other
        ∧ compatibleArtifact lib release host = .ok artifact := by
    intro release artifact hr
    obtain ⟨hm, other, ho, hen⟩ := resolve_sound hr
    have hal := (examine_exactly het hrq (h.published release hm)).1 hen
    exact ⟨hm, other, ho, hal⟩
  constructor
  · rintro ⟨hr, hv⟩
    obtain ⟨hm, other, -, -, hart⟩ := hs hr
    exact ⟨hm, hv, hart⟩
  · rintro ⟨hm, hv, hart⟩
    refine ⟨?_, hv⟩
    obtain ⟨⟨r', artifact'⟩, hr⟩ := resolve_complete hm
      (⟨version, hv, (examine_exactly het hrq
        (h.published release hm)).2 ⟨.refl version, hart⟩⟩ :
        request.Fits lib host release artifact)
    obtain ⟨hmem', other, ho, hal, h'⟩ := hs hr
    obtain ⟨a, ha, hmd⟩ := h.made release hm
    obtain ⟨b, hb, hm'⟩ := h.made r' hmem'
    have hav := Option.some.inj (hmd.version.symm.trans hv)
    have hbv := Option.some.inj (hm'.version.symm.trans ho)
    rw [← hav, ← hbv] at hal
    have heq : r' = release := by
      refine h.unique hmem' hm ?_
      rw [hmd.version, hm'.version, hu.alike a ha b hb hal]
    rw [heq, hart] at h'
    cases h'
    rw [hr, heq]

section

variable (h : Files lib document.releases history)
include h

theorem artifactFor_eq (hm : release ∈ document.releases)
    (hv : release.semver lib = some version) (target : String) :
    release.artifactFor target
      = (chosen history version target).map Added.artifact := by
  unfold chosen
  rw [map_or, ← h.artifacts release hm version hv,
    ← h.artifacts release hm version hv]
  rfl

theorem check_release (hu : Uniform lib history)
    (hm : release ∈ document.releases) {added : Added}
    (had : added ∈ history)
    (hv : release.semver lib = some added.version)
    (ht : added.target = host.target ∨ added.target = anyTarget) :
    host.check lib (release.requirements added.manifest.runtime
        added.artifact.targets) = .ok ()
      ↔ host.checkManifest lib added.manifest = .ok () := by
  obtain ⟨f, hfr, hmd⟩ := h.made release hm
  have hsm : f.version = added.version :=
    Option.some.inj (hmd.version.symm.trans hv)
  have hrn : f.manifest.runtime = added.manifest.runtime := by
    have hf := h.runtime release hm f hfr hmd.version
    have ha := h.runtime release hm added had hv
    refine Option.some.inj ?_
    rw [← PluginRuntimeKind.parse_text, ← PluginRuntimeKind.parse_text,
      ← hf, ← ha]
  have hen : release.engine = added.engine :=
    hmd.engine.trans (hu.engine f hfr added had hsm)
  have hs := hu.sound added had
  have hrq : release.requirements added.manifest.runtime
      added.artifact.targets
      = { f.manifest.requirements with
          engine := added.engine
          targets := added.artifact.targets } := by
    unfold Release.requirements PluginManifest.requirements
    rw [hen, hmd.schemaVersion, hmd.protocolVersion, hmd.abiVersion, hrn]
  obtain ⟨hmin, hmax, hp, hb⟩ := (hu.sound f hfr).known
  rw [hrq, HostCompat.check_eq_ok,
    HostCompat.checkManifest_eq_ok hs (hu.single added had)]
  constructor
  · rintro ⟨-, hr, he, -⟩
    exact ⟨hrn ▸ hr, he, ht⟩
  · rintro ⟨hr, he, -⟩
    refine ⟨⟨hmin, hmax, hp, hb⟩, ?_, he,
      HostCompat.targetMatches_artifact ?_⟩
    · show f.manifest.runtime ∈ host.runtimes
      rw [hrn]
      exact hr
    · rw [hs.artifact]
      exact ht

theorem compatibleArtifact_iff (hu : Uniform lib history)
    (hm : release ∈ document.releases)
    (hv : release.semver lib = some version) :
    compatibleArtifact lib release host = .ok artifact
      ↔ ∃ added, chosen history version host.target = some added
        ∧ added.artifact = artifact
        ∧ host.checkManifest lib added.manifest = .ok () := by
  -- The release's runtime is that of each of its packages.
  have hkn : ∀ added, chosen history version host.target = some added →
      release.runtimeKind = some added.manifest.runtime
        ∧ (host.check lib (release.requirements added.manifest.runtime
            added.artifact.targets) = .ok ()
          ↔ host.checkManifest lib added.manifest = .ok ()) := by
    intro added hc
    obtain ⟨-, ha, hav, ht⟩ := chosen_spec hc
    rw [← hav] at hv
    refine ⟨?_, check_release h hu hm ha hv ht⟩
    unfold Release.runtimeKind
    rw [h.runtime release hm added ha hv, PluginRuntimeKind.parse_text]
  unfold compatibleArtifact
  simp only [okOr_ok, artifactFor_eq h hm hv, map_eq_some_iff]
  constructor
  · rintro ⟨kind, hk, _, ⟨added, hc, rfl⟩, hch⟩
    obtain ⟨hr, hi⟩ := hkn added hc
    obtain rfl := Option.some.inj (hk.symm.trans hr)
    split at hch
    · next hok =>
      cases hch
      exact ⟨added, hc, rfl, hi.1 hok⟩
    · cases hch
  · rintro ⟨added, hc, rfl, hok⟩
    obtain ⟨hr, hi⟩ := hkn added hc
    refine ⟨added.manifest.runtime, hr, added.artifact, ⟨added, hc, rfl⟩, ?_⟩
    rw [hi.2 hok]
    rfl

omit h in
/-- A version is answered by the chosen package, if the host takes its
manifest. -/
theorem resolved_iff_chosen (het : lib.MatchesExactly)
    (h : Files lib document.releases history) (hu : Uniform lib history)
    (hr : request.requirement = some version.exactly) :
    (∃ release, resolve lib document request host = .ok ⟨release, artifact⟩
        ∧ release.semver lib = some version)
      ↔ ∃ added, chosen history version host.target = some added
        ∧ added.artifact = artifact
        ∧ host.checkManifest lib added.manifest = .ok () := by
  constructor
  · rintro ⟨release, hrs⟩
    obtain ⟨hm, hv, hart⟩ := (resolve_exactly het h hu hr).1 hrs
    exact (compatibleArtifact_iff h hu hm hv).1 hart
  · rintro ⟨added, hc, hart⟩
    obtain ⟨-, ha, hav, -⟩ := chosen_spec hc
    obtain ⟨release, hm, hv⟩ := mem_map.1 (h.listed added ha)
    rw [hav] at hv
    exact ⟨release, (resolve_exactly het h hu hr).2
      ⟨hm, hv, (compatibleArtifact_iff h hu hm hv).2 ⟨added, hc, hart⟩⟩⟩

/-- The host takes every package of a version that is made for it or for
all, or none. -/
theorem checkManifest_congr
    (hu : Uniform lib history) {a b : Added} (ha : a ∈ history)
    (hb : b ∈ history) (hab : a.version = b.version)
    (ht : b.target = host.target ∨ b.target = anyTarget)
    (hok : host.checkManifest lib a.manifest = .ok ()) :
    host.checkManifest lib b.manifest = .ok () := by
  rw [HostCompat.checkManifest_eq_ok (hu.sound a ha) (hu.single a ha)] at hok
  rw [HostCompat.checkManifest_eq_ok (hu.sound b hb) (hu.single b hb)]
  obtain ⟨release, hm, hv⟩ := mem_map.1 (h.listed a ha)
  have hra := h.runtime release hm a ha hv
  have hrb := h.runtime release hm b hb (hab ▸ hv)
  have hr : a.manifest.runtime = b.manifest.runtime := by
    refine Option.some.inj ?_
    rw [← PluginRuntimeKind.parse_text, ← PluginRuntimeKind.parse_text,
      ← hra, ← hrb]
  exact ⟨hr ▸ hok.1, hu.engine a ha b hb hab ▸ hok.2.1, ht⟩

end

end resolving

/-- What a document answers about a version asked for in full, against
the packages that were added: a package's artifact when the host takes
its manifest and has none made for its own target, and something when
the host takes one of the packages. -/
structure Agrees (lib : Semver) (document : PackageDocument)
    (history : List Added) (host : HostCompat) (request : ResolveRequest)
    (version : Version) : Prop where
  own : ∀ added, lastFor history version added.target = some added →
    ((∃ release, resolve lib document request host
          = .ok ⟨release, added.artifact⟩
        ∧ release.semver lib = some version)
      ↔ host.checkManifest lib added.manifest = .ok ()
        ∧ (added.target = host.target
          ∨ lastFor history version host.target = none))
  some : (∃ resolved, resolve lib document request host = .ok resolved
        ∧ resolved.release.semver lib = some version)
      ↔ ∃ added, lastFor history version added.target = some added
        ∧ host.checkManifest lib added.manifest = .ok ()

theorem Files.agrees (het : lib.MatchesExactly)
    {document : PackageDocument} (h : Files lib document.releases history)
    (hu : Uniform lib history) (host : HostCompat)
    {request : ResolveRequest}
    (hr : request.requirement = some version.exactly) :
    Agrees lib document history host request version := by
  have ht : ∀ {added : Added},
      lastFor history version added.target = some added →
      host.checkManifest lib added.manifest = .ok () →
      added.target = host.target ∨ added.target = anyTarget := by
    intro added hl hok
    have hmem := (lastFor_spec hl).1
    exact ((HostCompat.checkManifest_eq_ok (hu.sound added hmem)
      (hu.single added hmem)).1 hok).2.2
  constructor
  · intro added hl
    rw [resolved_iff_chosen het h hu hr]
    constructor
    · rintro ⟨other, hc, hart, hok⟩
      obtain ⟨ho, hmem, -, -⟩ := chosen_spec hc
      have htgt : other.target = added.target := by
        rw [← (hu.sound other hmem).artifact, hart]
        exact (hu.sound added (lastFor_spec hl).1).artifact
      rw [htgt] at ho
      obtain rfl := Option.some.inj (ho.symm.trans hl)
      refine ⟨hok, ?_⟩
      rcases or_eq_some_iff.1 hc with hh | ⟨hn, -⟩
      · exact .inl (lastFor_spec hh).2.2
      · exact .inr hn
    · rintro ⟨hok, hcs⟩
      refine ⟨added, ?_, rfl, hok⟩
      unfold chosen
      rcases hcs with htgt | hn
      · rw [← htgt, hl, some_or]
      · have hany : added.target = anyTarget := by
          rcases ht hl hok with htgt | hany
          · rw [htgt, hn] at hl
            cases hl
          · exact hany
        rw [hn, ← hany, hl, none_or]
  · constructor
    · rintro ⟨⟨release, artifact⟩, hrs⟩
      obtain ⟨added, hc, -, hok⟩ :=
        (resolved_iff_chosen het h hu hr).1 ⟨release, hrs⟩
      exact ⟨added, (chosen_spec hc).1, hok⟩
    · rintro ⟨added, hl, hok⟩
      have hmem := (lastFor_spec hl).1
      have hs : ∃ other, chosen history version host.target
          = some other := by
        unfold chosen
        cases hh : lastFor history version host.target with
        | some other => exact ⟨other, rfl⟩
        | none =>
          rcases ht hl hok with htgt | hany
          · rw [htgt, hh] at hl
            cases hl
          · rw [← hany, hl]
            exact ⟨added, rfl⟩
      obtain ⟨other, hc⟩ := hs
      obtain ⟨-, ho, hver, htgt⟩ := chosen_spec hc
      obtain ⟨release, hrs⟩ :=
        (resolved_iff_chosen het h hu
          hr).2 ⟨other, hc, rfl,
            checkManifest_congr h hu hmem ho
              ((lastFor_spec hl).2.1.trans hver.symm) htgt hok⟩
      exact ⟨_, hrs⟩

-- ==== runs

namespace IndexWriter

variable {B : Type} (w : IndexWriter B)

/-- What happens to a plugin's document: calls that add packages, and
anything that leaves it alone. -/
inductive Publication where
  | add (package : Path) (channel : String) (base : Option String)
      (now : Nat)
  | elsewhere

/-- What a call adds. -/
def addedBy (base : Option String) (content : B)
    (inspection : PackageInspection) (version : Version) : Added where
  manifest := inspection.manifest
  version
  artifact := w.artifactOf content inspection
    (w.servedFrom base inspection.manifest version)

/-- A call counts as adding its package when it succeeds or changes the
plugin's document. -/
def Effective (id : String) (package : Path) (channel : String)
    (base : Option String) (now : Nat) (t : FileTree B) : Prop :=
  (w.add package channel base now t).1 = .ok ()
    ∨ (w.add package channel base now t).2.file (w.locate (shardPath id))
      ≠ t.file (w.locate (shardPath id))

/-- The tree, and the packages of the plugin added so far. -/
inductive Publishes (id : String) :
    FileTree B × List Added → Publication → FileTree B × List Added → Prop
  | added {t : FileTree B} {history : List Added} {package : Path}
      {channel : String} {base : Option String} {now : Nat} {content : B}
      {inspection : PackageInspection} {version : Version}
      (hopen : (w.openPackage package t).1
        = .ok (content, inspection, version))
      (heffective : w.Effective id package channel base now t) :
      Publishes id (t, history) (.add package channel base now)
        ((w.add package channel base now t).2,
          history ++ [w.addedBy base content inspection version])
  | passed {t : FileTree B} {history : List Added} {package : Path}
      {channel : String} {base : Option String} {now : Nat}
      (heffective : ¬ w.Effective id package channel base now t) :
      Publishes id (t, history) (.add package channel base now)
        ((w.add package channel base now t).2, history)
  | elsewhere {t t' : FileTree B} {history : List Added}
      (hhoused : t'.Housed)
      (hown : t'.file (w.locate (shardPath id))
        = t.file (w.locate (shardPath id))) :
      Publishes id (t, history) .elsewhere (t', history)

/-- Packages of one plugin, each for a single target, that ask for one
range of hosts for each version; no two versions differ in their build
alone. -/
def Regular (id : String) (state : FileTree B × List Added) :
    Publication → Prop
  | .add package _ _ _ =>
    ∀ content inspection version,
      (w.openPackage package state.1).1 = .ok (content, inspection, version) →
      inspection.manifest.id = id
        ∧ inspection.manifest.SingleTarget
        ∧ ∀ other ∈ state.2,
          (other.version = version →
            other.engine = inspection.manifest.metadata.engine)
          ∧ (other.version.Alike version → other.version = version)
  | .elsewhere => True

/-- Packages are inspected for compatibility. -/
def InspectsCompatibility (formats : Formats B) : Prop :=
  ∀ content inspection, formats.inspect content = some inspection →
    inspection.manifest.requirements.Known

variable {w} {id : String}

section

variable (hid : isValidPluginId id)
include hid

theorem not_slash_of_valid :
    '/' ∉ id.toList := by
  obtain ⟨-, -, hh, ht⟩ := of_decide_eq_true hid
  intro hm
  cases hl : id.toList with
  | nil =>
    rw [hl] at hm
    cases hm
  | cons c rest =>
    rw [hl] at hm hh ht
    rcases mem_cons.1 hm with rfl | hm
    · cases hh
    · exact absurd (all_eq_true.1 ht _ hm) (by decide)

omit hid in
theorem not_slash_pad {ch : List Char} (h : '/' ∉ ch)
    (i j : Nat) : '/' ∉ (pad ch i j).toList := by
  have hget : ∀ k, ch.getD k '_' ≠ '/' := by
    intro k hk
    rw [getD_eq_getElem?_getD] at hk
    cases hc : ch[k]? with
    | none =>
      rw [hc] at hk
      exact absurd hk (by decide)
    | some c =>
      rw [hc, getD_some] at hk
      exact h (hk ▸ mem_of_getElem? hc)
  unfold pad
  rw [String.toList_ofList]
  simp only [mem_cons, not_mem_nil, or_false, not_or]
  exact ⟨(hget i).symm, (hget j).symm⟩

theorem segments_shardPath :
    segments (shardPath id) = ["index", pad id.toList 0 1,
      pad id.toList 2 3, id ++ ".json"] := by
  have hs := not_slash_of_valid hid
  have hn : '/' ∉ (id ++ ".json").toList := by
    rw [String.toList_append, mem_append, not_or]
    exact ⟨hs, by decide⟩
  have ht : (shardPath id).toList = "index".toList ++ '/'
      :: ((pad id.toList 0 1).toList ++ '/'
        :: ((pad id.toList 2 3).toList ++ '/' :: (id ++ ".json").toList)) := by
    have hin : "index/".toList = "index".toList ++ ['/'] := by decide
    have hs : "/".toList = ['/'] := by decide
    unfold shardPath
    simp only [String.toList_append, hin, hs, append_assoc,
      cons_append, nil_append]
  unfold segments
  rw [ht, splitOn_append_cons_self_of_not_mem (by decide),
    splitOn_append_cons_self_of_not_mem (not_slash_pad hs 0 1),
    splitOn_append_cons_self_of_not_mem (not_slash_pad hs 2 3),
    splitOn_eq_singleton hn]
  simp only [map_cons, map_nil, String.ofList_toList]

theorem plain_pad :
    Path.Plain (pad id.toList 0 1) := by
  obtain ⟨-, -, hh, -⟩ := of_decide_eq_true hid
  cases hl : id.toList with
  | nil =>
    rw [hl] at hh
    cases hh
  | cons c r =>
    rw [hl] at hh
    have hne : ∀ {te : String}, pad (c :: r) 0 1 = te →
        te.toList = [c, (c :: r).getD 1 '_'] := by
      rintro te rfl
      exact String.toList_ofList
    refine ⟨fun h => ?_, fun h => ?_, fun h => ?_⟩
    · exact absurd (hne h) (cons_ne_nil _ _).symm
    · exact absurd (List.cons.inj (hne h)).2 (cons_ne_nil _ _).symm
    · have hc : '.' = c := (List.cons.inj (hne h)).1
      rw [← hc, head?_cons, any_some] at hh
      exact absurd hh (by decide)

theorem kept_own :
    w.Kept (w.locate (shardPath id)) := by
  have hen : EndsIn (w.locate (shardPath id)) ".json" :=
    w.locate_append _ ".json" (by decide) (by decide)
  have hin : w.root ++ ["index"] <+: w.locate (shardPath id) := by
    unfold locate
    rw [segments_shardPath hid]
    simp only [foldl_cons, foldl_nil]
    rw [Path.join_plain (show Path.Plain "index" by decide),
      Path.join_plain (plain_pad hid)]
    refine (Path.isPrefix_join _ (pad id.toList 0 1)
      (pad id.toList 2 3)).trans ?_
    have hlen : 5 ≤ (id ++ ".json").toList.length := by
      rw [String.toList_append, length_append]
      exact Nat.le_add_left 5 _
    refine Path.isPrefix_join_plain _ ⟨?_, ?_, ?_⟩
    all_goals
      intro h
      rw [h] at hlen
      exact absurd hlen (by decide)
  refine ⟨fun hc => ?_, .inr ⟨hin, hen⟩⟩
  have heq := prefix_of_prefix_length_le hc hin (by simp)
  rw [prefix_append_right_inj] at heq
  exact absurd heq (by decide)

end

section adding

variable {package : Path} {channel : String} {base : Option String}
  {now : Nat} {content : B} {inspection : PackageInspection}
  {version : Version} {t : FileTree B} {history : List Added}

theorem openPackage_spec (ho : (w.openPackage package t).1
      = .ok (content, inspection, version)) :
    w.formats.inspect content = some inspection
      ∧ inspection.manifest.semver w.semver = some version := by
  unfold openPackage Effect.look at ho
  simp only [okOr_ok] at ho
  obtain ⟨content', -, inspection', hin, version', hv, heq⟩ := ho
  cases heq
  exact ⟨hin, hv⟩

theorem openPackage_ok (hf : t.file package = some content)
    (hin : w.formats.inspect content = some inspection)
    (hv : inspection.manifest.semver w.semver = some version) :
    (w.openPackage package t).1 = .ok (content, inspection, version) := by
  unfold openPackage Effect.look
  simp only [okOr_ok]
  exact ⟨content, hf, inspection, hin, version, hv, rfl⟩

theorem addedBy_sound (hin : InspectsCompatibility w.formats)
    (ho : (w.openPackage package t).1 = .ok (content, inspection, version)) :
    (w.addedBy base content inspection version).Sound w.semver where
  version := (openPackage_spec ho).2
  artifact := rfl
  known := hin content inspection (openPackage_spec ho).1

theorem add_rewrites (hkp : w.Kept (w.own inspection)) (ht : t.Housed)
    (ho : (w.openPackage package t).1 = .ok (content, inspection, version))
    (hef : w.Effective inspection.manifest.id package channel base now t) :
    w.Rewritten inspection.manifest version
      (w.releaseAt (w.servedFrom base inspection.manifest version) channel
        now content inspection)
      (t.file (w.own inspection))
      ((w.add package channel base now t).2.file (w.own inspection)) := by
  have ho' : w.openPackage package t
      = (.ok (content, inspection, version), t) :=
    Prod.ext ho (openPackage_reads package t)
  have hadd : w.add package channel base now t
      = (w.store package base content inspection.manifest version >>=
          fun _ => w.file now inspection.manifest version
            (w.releaseAt (w.servedFrom base inspection.manifest version)
              channel now content inspection)) t := by
    rw [add_eq, bind_ok ho']
  unfold Effective at hef
  rw [hadd] at hef ⊢
  have hk := @store_keeps B w package base content inspection version
    (w.own inspection) own_ne_destination t
  have hh := @store_housed B w package base content inspection version t ht
  cases hs : w.store package base content inspection.manifest version t with
  | mk r t₁ =>
    rw [hs] at hk hh
    cases r with
    | error e =>
      rw [bind_error hs] at hef
      rcases hef with hok | hc
      · cases hok
      · exact absurd hk hc
    | ok =>
      rw [bind_ok hs] at hef ⊢
      have hbef : t₁.file (w.own inspection) = t.file (w.own inspection) := hk
      rw [← hbef]
      rcases hef with hok | hc
      · exact file_ok hkp (Prod.ext hok rfl)
      · rcases file_own hkp hh with ⟨hsm, -⟩ | hr
        · exact absurd (hsm.trans hbef) hc
        · exact hr

end adding

/-- The plugin's document files the packages added so far, and is there
as soon as there is one. -/
structure Tracks (id : String) (state : FileTree B × List Added) :
    Prop where
  housed : state.1.Housed
  uniform : Uniform w.semver state.2
  absent : (state.1.file (w.locate (shardPath id))).bind
    w.formats.parseDocument = none → state.2 = []
  files : ∀ document, (state.1.file (w.locate (shardPath id))).bind
      w.formats.parseDocument = some document →
    Files w.semver document.releases state.2

variable {history : List Added}

theorem uniform_append {added : Added} (h : Uniform w.semver history)
    (hsn : added.Sound w.semver) (hs : added.manifest.SingleTarget)
    (hot : ∀ other ∈ history,
      (other.version = added.version → other.engine = added.engine)
      ∧ (other.version.Alike added.version → other.version = added.version)) :
    Uniform w.semver (history ++ [added]) := by
  have hmem : ∀ {other}, other ∈ history ++ [added] →
      other ∈ history ∨ other = added := by
    intro other ho
    rcases mem_append.1 ho with ho | ho
    · exact .inl ho
    · exact .inr (mem_singleton.1 ho)
  refine ⟨?_, ?_, ?_, ?_⟩
  · intro other ho
    rcases hmem ho with ho | rfl
    · exact h.sound other ho
    · exact hsn
  · intro other ho
    rcases hmem ho with ho | rfl
    · exact h.single other ho
    · exact hs
  · intro a ha b hb hab
    rcases hmem ha with ha' | rfl
    · rcases hmem hb with hb' | rfl
      · exact h.engine a ha' b hb' hab
      · exact (hot a ha').1 hab
    · rcases hmem hb with hb' | rfl
      · exact ((hot b hb').1 hab.symm).symm
      · rfl
  · intro a ha b hb hab
    rcases hmem ha with ha' | rfl
    · rcases hmem hb with hb' | rfl
      · exact h.alike a ha' b hb' hab
      · exact (hot a ha').2 hab
    · rcases hmem hb with hb' | rfl
      · exact ((hot b hb').2 hab.symm).symm
      · rfl

theorem Tracks.step (hr : w.formats.ReadsBack)
    (hpr : w.semver.Prints) (hin : InspectsCompatibility w.formats)
    (hid : isValidPluginId id) {state state' : FileTree B × List Added}
    {action : Publication} (h : w.Tracks id state)
    (hrg : w.Regular id state action)
    (hst : w.Publishes id state action state') : w.Tracks id state' := by
  cases hst with
  | @added t history package channel base now content inspection version
      ho hef =>
    obtain ⟨rfl, hsn, hot⟩ := hrg _ _ _ ho
    have hs : (w.addedBy base content inspection version).Sound
        w.semver := addedBy_sound hin ho
    obtain ⟨document, filed, hbef, hadd, ha⟩ :=
      add_rewrites (kept_own hid) h.housed ho hef
    have hf : Files w.semver document.releases history := by
      rcases hbef with hb | ⟨hb, rfl⟩
      · exact h.files document hb
      · have hnil : history = [] := h.absent hb
        rw [hnil]
        exact Files.nil
    have hp : ((w.add package channel base now t).2.file
        (w.own inspection)).bind w.formats.parseDocument
        = some (finished w.semver (refreshMetadata w.semver filed
          inspection.manifest version)) := by
      rw [ha]
      exact hr _
    refine ⟨add_housed package channel base now t h.housed,
      uniform_append h.uniform hs hsn hot, ?_, ?_⟩
    · intro hn
      cases hp.symm.trans hn
    · intro other hor
      obtain rfl := Option.some.inj (hp.symm.trans hor)
      exact hf.add hpr hs hadd
  | @passed t history package channel base now hef =>
    have hsm : (w.add package channel base now t).2.file
        (w.locate (shardPath id)) = t.file (w.locate (shardPath id)) := by
      by_contra hne
      exact hef (.inr hne)
    refine ⟨add_housed package channel base now t h.housed, h.uniform, ?_, ?_⟩
    · rw [hsm]
      exact h.absent
    · rw [hsm]
      exact h.files
  | elsewhere hh hown =>
    refine ⟨hh, h.uniform, ?_, ?_⟩
    · rw [hown]
      exact h.absent
    · rw [hown]
      exact h.files

/-- In every run of add calls for one plugin, from a registry without
its document, the document answers a request for one version in full as
the hosts' own check of the packages last added does. -/
theorem resolving_agrees_with_check (hreads : w.formats.ReadsBack)
    (hprints : w.semver.Prints) (hexact : w.semver.MatchesExactly)
    (hinspect : InspectsCompatibility w.formats)
    (hid : isValidPluginId id) {start t : FileTree B}
    (hhoused : start.Housed)
    (habsent : start.file (w.locate (shardPath id)) = none)
    {history : List Added}
    (hrun : Run (w.Publishes id) (w.Regular id) (start, []) (t, history))
    {document : PackageDocument}
    (hdocument : (t.file (w.locate (shardPath id))).bind
      w.formats.parseDocument = some document)
    (host : HostCompat) {request : ResolveRequest} {version : Version}
    (hrequest : request.requirement = some version.exactly) :
    Agrees w.semver document history host request version := by
  have hs : w.Tracks id (start, []) := by
    refine ⟨hhoused, ⟨?_, ?_, ?_, ?_⟩, fun _ => rfl, ?_⟩
    · exact fun _ h => absurd h not_mem_nil
    · exact fun _ h => absurd h not_mem_nil
    · exact fun _ h => absurd h not_mem_nil
    · exact fun _ h => absurd h not_mem_nil
    · intro document hdocument
      rw [habsent] at hdocument
      cases hdocument
  have ht : w.Tracks id (t, history) := hrun.invariant hs
    fun _ _ _ h hr hst =>
      h.step hreads hprints hinspect hid hr hst
  exact (ht.files document hdocument).agrees hexact ht.uniform host hrequest

-- ==== two targets

/-- Packages of the plugin "ab" that are named for their target. -/
def targetManifest (target : String) : PluginManifest :=
  { demoManifest [] with targets := [target] }

def targetWriter : IndexWriter Blob where
  root := ["site"]
  name := "demo"
  indexKey := none
  walk _ index := [index ++ ["ab", "__", "ab.json"]]
  formats :=
    { demoFormats with
      inspect := fun
        | .package name => some ⟨targetManifest name, none, none⟩
        | _ => none }
  semver := { demoSemver with isMatch := VersionReq.prereleaseMatches }

def linux : String := "linux-x64-gnu"

def win32 : String := "win32-x64-msvc"

def targetDisk : FileTree Blob := FileTree.ofList
  [([], .dir), (["site"], .dir), (["site", "index"], .dir),
    (["site", "index", "ab"], .dir), (["site", "index", "ab", "__"], .dir),
    (["first.plugin"], .file (.package linux)),
    (["second.plugin"], .file (.package win32))]

/-- What a package for a target is added as. -/
def targetAdded (target : String) : Added :=
  targetWriter.addedBy (some "https://mirror") (.package target)
    ⟨targetManifest target, none, none⟩ ⟨1, 0, 0, "", ""⟩

def linuxDisk : FileTree Blob :=
  (targetWriter.add ["first.plugin"] "stable" (some "https://mirror") 0
    targetDisk).2

def bothDisk : FileTree Blob :=
  (targetWriter.add ["second.plugin"] "stable" (some "https://mirror") 0
    linuxDisk).2

def targetRelease (target : String) : Release :=
  targetWriter.releaseAt (targetAdded target).artifact.url "stable" 0
    (.package target) ⟨targetManifest target, none, none⟩

/-- The document with the first package added. -/
def linuxFiled : PackageDocument :=
  refreshMetadata targetWriter.semver
    { emptyDocument (targetManifest linux) with
      releases := [targetRelease linux] }
    (targetManifest linux) ⟨1, 0, 0, "", ""⟩

/-- The document with both packages added. -/
def bothFiled : PackageDocument :=
  let document := finished targetWriter.semver linuxFiled
  refreshMetadata targetWriter.semver
    { document with
      releases := updateFirst
        (isVersion targetWriter.semver ⟨1, 0, 0, "", ""⟩)
        (fun r => r.refile (targetRelease win32) win32) document.releases }
    (targetManifest win32) ⟨1, 0, 0, "", ""⟩

theorem targetDisk_housed : targetDisk.Housed :=
  FileTree.housed_ofList (by decide)

theorem linuxDisk_housed : linuxDisk.Housed :=
  add_housed _ _ _ _ _ targetDisk_housed

theorem target_kept :
    targetWriter.Kept (targetWriter.locate (shardPath "ab")) :=
  kept_own (by decide)

theorem linuxDisk_eq : linuxDisk
    = (targetWriter.finish (shardPath "ab") linuxFiled 0 targetDisk).2 := by
  have ho : targetWriter.openPackage ["first.plugin"] targetDisk
      = (.ok (.package linux, ⟨targetManifest linux, none, none⟩,
        ⟨1, 0, 0, "", ""⟩), targetDisk) := rfl
  have hd : targetWriter.documentFor (targetManifest linux)
      targetDisk = (.ok (emptyDocument (targetManifest linux)),
        targetDisk) := rfl
  unfold linuxDisk
  rw [add_eq, bind_ok ho]
  dsimp only
  rw [bind_ok (show targetWriter.store _ _ _ _ _ targetDisk
    = (.ok (), targetDisk) from rfl)]
  unfold file
  rw [bind_ok hd]
  rfl

theorem linuxDisk_document :
    linuxDisk.file (targetWriter.locate (shardPath "ab"))
      = some (.document (finished targetWriter.semver linuxFiled)) := by
  have hpar : targetWriter.createParent (shardPath "ab") targetDisk
      = (.ok (), targetDisk) := rfl
  rw [linuxDisk_eq, finish_own_eq _ 0 target_kept]
  unfold finishDocument writeSigned
  rw [bind_ok hpar, bind_ok (writeFile_ok _ (by rfl) (by decide))]
  refine (writeSignature_keeps _ (target_kept.not_signature _) _).trans ?_
  exact FileTree.file_write_self _ _ _

theorem linuxDisk_second :
    linuxDisk.file ["second.plugin"] = some (.package win32) := by
  have hk : targetWriter.Kept ["second.plugin"] :=
    ⟨by decide, .inl ⟨[], "second.plugin", rfl, by decide⟩⟩
  rw [linuxDisk_eq]
  exact finish_keeps linuxFiled 0 hk (by decide) targetDisk

theorem bothDisk_document :
    bothDisk.file (targetWriter.locate (shardPath "ab"))
      = some (.document (finished targetWriter.semver bothFiled)) := by
  have ho : targetWriter.openPackage ["second.plugin"] linuxDisk
      = (.ok (.package win32, ⟨targetManifest win32, none, none⟩,
        ⟨1, 0, 0, "", ""⟩), linuxDisk) := by
    refine look_ok ?_
    rw [linuxDisk_second]
    rfl
  have hp : (linuxDisk.file (targetWriter.locate (shardPath
      (targetManifest win32).id))).bind targetWriter.formats.parseDocument
      = some (finished targetWriter.semver linuxFiled) :=
    congrArg (Option.bind · targetWriter.formats.parseDocument)
      linuxDisk_document
  have hb : bothDisk = (targetWriter.finish (shardPath "ab") bothFiled 0
      linuxDisk).2 := by
    unfold bothDisk
    rw [add_eq, bind_ok ho]
    dsimp only
    rw [bind_ok (show targetWriter.store _ _ _ _ _ linuxDisk
      = (.ok (), linuxDisk) from rfl)]
    unfold file
    rw [bind_ok (documentFor_present hp)]
    rfl
  rw [hb]
  exact finish_over _ 0 target_kept linuxDisk_housed
    (FileTree.isFile_of_file linuxDisk_document)

theorem target_prints : targetWriter.semver.Prints := by
  have hver : ∀ {s v}, targetWriter.semver.parse s = some v →
      v = ⟨1, 0, 0, "", ""⟩ := by
    intro s v h
    have hp : (if s = "1.0.0" then some (⟨1, 0, 0, "", ""⟩ : Version)
        else none) = some v := h
    split at hp
    · exact (Option.some.inj hp).symm
    · cases hp
  constructor
  · intro s v h
    rw [hver h]
    rfl
  · intro s v _
    have ht : targetWriter.semver.text v = "1.0.0" := rfl
    rw [ht]
    exact ⟨by decide, by decide⟩

theorem target_matches : targetWriter.semver.MatchesExactly :=
  fun _ _ => prereleaseMatches_exactly

theorem target_inspects : InspectsCompatibility targetWriter.formats := by
  intro content inspection h
  cases content with
  | package name =>
    cases h
    exact ⟨Nat.le_succ 2, Nat.le_refl 3, rfl, rfl⟩
  | _ => cases h

variable {t : FileTree Blob}

section

variable {package : Path} {name : String}
  (h : t.file package = some (.package name))
include h

theorem target_openPackage :
    (targetWriter.openPackage package t).1
      = .ok (.package name, ⟨targetManifest name, none, none⟩,
        ⟨1, 0, 0, "", ""⟩) := by
  have hver : targetWriter.semver.parseVersion "1.0.0"
      = some ⟨1, 0, 0, "", ""⟩ := by decide
  exact openPackage_ok h rfl hver

/-- A package for a target may be added where its version is added for
another. -/
theorem target_regular (hd : '-' ∈ name.toList)
    (hh : ∀ other ∈ history, ∃ target, other = targetAdded target) :
    targetWriter.Regular "ab" (t, history)
      (.add package "stable" (some "https://mirror") 0) := by
  intro content inspection version hop
  have heq := Except.ok.inj ((target_openPackage h).symm.trans hop)
  simp only [Prod.mk.injEq] at heq
  obtain ⟨-, rfl, rfl⟩ := heq
  refine ⟨rfl, .inr ⟨name, rfl, hd⟩, fun other ho => ?_⟩
  obtain ⟨target, rfl⟩ := hh other ho
  exact ⟨fun _ => rfl, fun _ => rfl⟩

end

theorem target_run :
    Run (targetWriter.Publishes "ab") (targetWriter.Regular "ab")
      (targetDisk, []) (bothDisk, [targetAdded linux, targetAdded win32]) := by
  have hf : targetDisk.file ["first.plugin"] = some (.package linux) := rfl
  refine .tail (t := (linuxDisk, [targetAdded linux]))
    (.add ["second.plugin"] "stable" (some "https://mirror") 0)
    (.tail (t := (targetDisk, []))
      (.add ["first.plugin"] "stable" (some "https://mirror") 0) .refl
      (target_regular hf (by decide) ?_)
      (.added (target_openPackage hf) (.inr ?_)))
    (target_regular linuxDisk_second (by decide) ?_)
    (.added (target_openPackage linuxDisk_second) (.inr ?_))
  · exact fun _ h => absurd h not_mem_nil
  · show linuxDisk.file _ ≠ _
    rw [linuxDisk_document]
    exact nofun
  · intro other ho
    exact ⟨linux, mem_singleton.1 ho⟩
  · show bothDisk.file _ ≠ linuxDisk.file _
    rw [bothDisk_document, linuxDisk_document]
    intro h
    have hc := congrArg (fun content : Option Blob =>
      (content.bind targetWriter.formats.parseDocument).map
        fun document => document.releases.map fun r => r.artifacts.length) h
    exact absurd hc (by decide)

/-- The program's own version, on Linux. -/
def linuxHost : HostCompat := ⟨⟨1, 0, 0, "", ""⟩, linux, [.process]⟩

def oneRequest : ResolveRequest where
  requirement := some (Version.exactly ⟨1, 0, 0, "", ""⟩)
  channel := channelStable
  allowYanked := true

theorem bothDisk_parses :
    (bothDisk.file (targetWriter.locate (shardPath "ab"))).bind
        targetWriter.formats.parseDocument
      = some (finished targetWriter.semver bothFiled) := by
  rw [bothDisk_document]
  rfl

/-- What the two packages are answered with. -/
theorem resolving_agrees_with_check_targets :
    Agrees targetWriter.semver
      (finished targetWriter.semver bothFiled)
      [targetAdded linux, targetAdded win32] linuxHost oneRequest
      ⟨1, 0, 0, "", ""⟩ := by
  have ha : targetDisk.file (targetWriter.locate (shardPath "ab"))
      = none := rfl
  have hr : oneRequest.requirement
      = some (Version.exactly ⟨1, 0, 0, "", ""⟩) := rfl
  exact @resolving_agrees_with_check _ targetWriter "ab" (fun _ => rfl)
    target_prints target_matches target_inspects (by decide) _ _
    targetDisk_housed ha _ target_run _ bothDisk_parses linuxHost _ _
    hr

/-- A host for which a package has no build still gets its version, from
the package made for the host. -/
theorem foreign_package_is_answered :
    Run (targetWriter.Publishes "ab") (fun _ _ => True) (targetDisk, [])
        (bothDisk, [targetAdded linux, targetAdded win32])
      ∧ (bothDisk.file (targetWriter.locate (shardPath "ab"))).bind
          targetWriter.formats.parseDocument
        = some (finished targetWriter.semver bothFiled)
      ∧ ¬ ∀ added, lastFor [targetAdded linux, targetAdded win32]
          ⟨1, 0, 0, "", ""⟩ added.target = some added →
        ((∃ resolved, resolve targetWriter.semver
              (finished targetWriter.semver bothFiled) oneRequest linuxHost
                = .ok resolved
            ∧ resolved.release.semver targetWriter.semver
              = some ⟨1, 0, 0, "", ""⟩)
          ↔ linuxHost.checkManifest targetWriter.semver added.manifest
            = .ok ()) := by
  refine ⟨target_run.weaken fun _ _ _ => trivial, bothDisk_parses,
    fun hc => ?_⟩
  have hr : resolve targetWriter.semver
      (finished targetWriter.semver bothFiled) oneRequest linuxHost
      = .ok ⟨(targetRelease linux).refile (targetRelease win32) win32,
        (targetAdded linux).artifact⟩ := rfl
  have hver : (targetRelease linux).semver targetWriter.semver
      = some ⟨1, 0, 0, "", ""⟩ := rfl
  have hok := (hc (targetAdded win32) rfl).1 ⟨_, hr, hver⟩
  have hrej : linuxHost.checkManifest targetWriter.semver
      (targetManifest win32) = .error (.target [win32] linux) := rfl
  cases hrej.symm.trans hok

end IndexWriter

end TikTools.Index
