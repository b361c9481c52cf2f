/-
Plugin archives: what a preview reads of one, and what extracting it
writes.

The two look for the manifest in different ways. `inspect` walks the
entry names and takes the one entry called plugin.json at depth one or
two; `extract` writes every entry and then looks at the tree, at its
root or in its only directory. They agree as long as different names
are different files (`extract_manifest`). A name keeps a leading "."
after normalisation when it began with two of them, and such a name is
the same file as the name without it: `PlainNames` rules these out.

Reading the zip container, parsing and hashing belong to libraries and
enter through `PackageFormat`. The file system is the case-sensitive
one with '/' as its separator.
-/
import TikTools.Lib.Checked
import TikTools.Plugins.Receipt
import TikTools.Plugins.Trust
import Mathlib.Data.List.DropRight
import Mathlib.Data.List.Dedup

namespace TikTools.Plugins

open TikTools.Lib List

-- ==== names

/-- The text of a path, with '/' between its parts. -/
abbrev PathText := List Char

/-- Backslashes written as slashes. -/
def forwardSlashes (value : List Char) : PathText :=
  value.map fun c => if c = '\\' then '/' else c

/-- `is_safe_relative_path`. -/
def isSafeRelativePath (value : List Char) : Bool :=
  let normalized := forwardSlashes value
  value ≠ [] && !value.contains '\x00'
    && normalized.head? ≠ some '/'
    && !(normalized.zip normalized.tail).contains (':', '/')
    && normalized ≠ ['.']
    && (normalized.splitOn '/').all fun part =>
      part ≠ [] && part ≠ ['.', '.']

/-- The components of a path: "." counts only as the first. -/
def components (text : PathText) : Path :=
  match text.splitOn '/' with
  | [] => []
  | first :: rest =>
    (first :: rest.filter fun part => part ≠ ['.']).map String.ofList

/-- Where a relative path leads: "." stays in the directory. -/
def resolve (relative : Path) : Path :=
  relative.filter fun component => component ≠ "."

/-- A path that ends in "." names a directory, and one that exists. -/
def endsInDot (text : PathText) : Bool :=
  (text.splitOn '/').getLast? = some ['.']

/-- Join a path to a directory's: "." then counts nowhere. -/
def joined (base : Path) (text : PathText) : Path :=
  if base = [] then components text else base ++ resolve (components text)

inductive ArchiveError where
  | unsafePath (name : String)
  | multipleManifests
  | missingManifest
  | tooLarge
  | manifest
  | unsupported
  | invalidEntryCount
  | duplicatePath (name : String)
  | expandsTooLarge
  | missingChecksums (id : String)
  | invalidChecksums
  | missingFile (path : String)
  | checksumMismatch (id path : String)
  | unlistedFile (path : String)
  | invalidSignature
  | io
  deriving DecidableEq

/-- Strip "./" from the front, once. -/
def stripDot : PathText → PathText
  | '.' :: '/' :: rest => rest
  | text => text

/-- `normalized_archive_path`; nothing for an entry that names the
archive's root. -/
def normalizedArchivePath (name : String) :
    Except ArchiveError (Option PathText) :=
  let normalized :=
    (stripDot (forwardSlashes name.toList)).rdropWhile fun c => c = '/'
  if normalized = [] then .ok none
  else if isSafeRelativePath normalized then .ok (some normalized)
  else .error (.unsafePath name)

-- ==== formats

/-- What the libraries make of file contents. -/
structure PackageFormat (B : Type) where
  codec : Codec B
  length : B → Nat
  /-- The SHA-256 of a content, in lowercase hex. -/
  hash : B → String
  /-- The JSON map of a checksums file. -/
  checksums : B → Option (List (String × String))
  signature : B → Option PackageSignature
  text : B → Option String
  /-- `validate_compatibility`. -/
  supported : PluginManifest → Bool
  /-- The manifest's entry file is there and can be made executable. -/
  executable : FileTree B → PluginManifest → Bool

structure ArchiveEntry (B : Type) where
  name : String
  isDir : Bool
  /-- The size the archive declares. -/
  size : Nat
  content : B

def maxExtractedBytes : Nat := 2 * 1024 * 1024 * 1024

def maxFiles : Nat := 50000

def maxManifestBytes : Nat := 256 * 1024

def maxChangelogBytes : Nat := 64 * 1024

def maxChecksumsBytes : Nat := 8 * 1024 * 1024

def maxSignatureBytes : Nat := 16 * 1024

-- ==== inspection

structure PackageInspection (B : Type) where
  manifest : PluginManifest
  checksums : Option B
  signature : Option PackageSignature
  changelog : Option String

section

variable {B : Type} (format : PackageFormat B)

/-- A manifest, at the archive's root or one directory down. -/
def isManifestPath (relative : Path) : Bool :=
  relative.getLast? = some "plugin.json" && relative.length ≤ 2

/-- The loop of `inspect` over the entries. -/
def findManifest : List (ArchiveEntry B) →
    Option (ArchiveEntry B × Path) →
    Except ArchiveError (Option (ArchiveEntry B × Path))
  | [], found => .ok found
  | entry :: entries, found =>
    match normalizedArchivePath entry.name with
    | .error error => .error error
    | .ok none => findManifest entries found
    | .ok (some text) =>
      if isManifestPath (components text) then
        match found with
        | some _ => .error .multipleManifests
        | none => findManifest entries (some (entry, components text))
      else findManifest entries found

/-- `find_entry`: the first file with that path. -/
def findEntry (wanted : Path) : List (ArchiveEntry B) →
    Except ArchiveError (Option (ArchiveEntry B))
  | [] => .ok none
  | entry :: entries =>
    match normalizedArchivePath entry.name with
    | .error error => .error error
    | .ok none => findEntry wanted entries
    | .ok (some text) =>
      if components text = wanted ∧ entry.isDir = false then
        .ok (some entry)
      else findEntry wanted entries

/-- `read_entry`. -/
def readEntry (limit : Nat) (entry : ArchiveEntry B) :
    Except ArchiveError B :=
  if format.length entry.content ≤ limit then .ok entry.content
  else .error .tooLarge

/-- Read the file with that path, if there is one. -/
def readWanted (limit : Nat) (wanted : Path)
    (entries : List (ArchiveEntry B)) : Except ArchiveError (Option B) :=
  match findEntry wanted entries with
  | .error error => .error error
  | .ok none => .ok none
  | .ok (some entry) => (readEntry format limit entry).map some

/-- `parse_manifest` and `validate_compatibility`. -/
def parseManifest (content : B) : Except ArchiveError PluginManifest := do
  let manifest ← okOr (format.codec.manifest content) .manifest
  ensure (format.supported manifest) .unsupported
  return manifest

/-- A signature file's content. -/
def parseSignature (content : B) : Except ArchiveError PackageSignature :=
  okOr (format.signature content) .invalidSignature

def readSignature (base : Path) (entries : List (ArchiveEntry B)) :
    Except ArchiveError (Option PackageSignature) := do
  match ← readWanted format maxSignatureBytes (base ++ ["signature.json"])
      entries with
  | none => return none
  | some bytes => (parseSignature format bytes).map some

/-- The text of the file the manifest calls its changelog. -/
def readChangelog (manifest : PluginManifest) (base : Path)
    (entries : List (ArchiveEntry B)) :
    Except ArchiveError (Option String) :=
  match manifest.changelog with
  | none => .ok none
  | some path => do
    let bytes ← readWanted format maxChangelogBytes
      (joined base path.toList) entries
    return bytes.bind format.text

/-- `PackageArchive::inspect`. -/
def inspect (archive : List (ArchiveEntry B)) :
    Except ArchiveError (PackageInspection B) := do
  let entries := archive.take maxFiles
  let found ← findManifest entries none
  let (entry, path) ← okOr found .missingManifest
  let base := path.dropLast
  let bytes ← readEntry format maxManifestBytes entry
  let manifest ← parseManifest format bytes
  let checksums ←
    readWanted format maxChecksumsBytes (base ++ ["checksums.json"]) entries
  let signature ← readSignature format base entries
  let changelog ← readChangelog format manifest base entries
  return { manifest, checksums, signature, changelog }

-- ==== extraction

/-- What extraction has written so far: the tree below the staging
directory, the paths of its entries, the bytes they declare. -/
structure Extraction (B : Type) where
  tree : FileTree B
  paths : List Path
  bytes : Nat

def Extraction.start : Extraction B where
  tree := .ofList [([], .dir)]
  paths := []
  bytes := 0

/-- One round of the loop of `extract`. -/
def extractEntry (state : Extraction B) (entry : ArchiveEntry B) :
    Except ArchiveError (Extraction B) := do
  match ← normalizedArchivePath entry.name with
  | none => return state
  | some text =>
    let relative := components text
    ensure (relative ∉ state.paths) (.duplicatePath entry.name)
    let paths := relative :: state.paths
    let destination := resolve relative
    if entry.isDir then
      ensure (endsInDot text = false ∨ state.tree.isDir destination) .io
      let tree ← okOr (state.tree.createDirAll destination) .io
      return { state with tree, paths }
    else
      let bytes := saturatingAdd state.bytes entry.size
      ensure (bytes ≤ maxExtractedBytes) .expandsTooLarge
      let tree ← okOr (state.tree.createDirAll destination.dropLast) .io
      -- a directory cannot be created as a file
      ensure (tree.isDir destination = false ∧ endsInDot text = false) .io
      ensure (format.length entry.content ≤ entry.size) .expandsTooLarge
      return { tree := tree.write destination entry.content, paths, bytes }

/-- `find_package_root`: the tree's own root, or its only directory. -/
def findPackageRoot (state : Extraction B) : Except ArchiveError Path :=
  if state.tree.isFile ["plugin.json"] then .ok []
  else
    let children := (state.paths.filterMap fun path =>
      (resolve path).head?).dedup
    match children.filter fun child => state.tree.isDir [child] with
    | [child] =>
      if state.tree.isFile [child, "plugin.json"] then .ok [child]
      else .error .missingManifest
    | _ => .error .missingManifest

/-- `Sha256Digest::parse`. -/
def parseDigest (value : String) : Option String :=
  let hex := if "sha256:".toList.isPrefixOf value.toList then
    value.toList.drop 7 else value.toList
  if hex.length = 64 ∧ hex.all Char.isHexDigit then
    some (String.ofList (hex.map Char.toLower))
  else none

/-- `Checksums::parse`. -/
def parseChecksums (content : B) :
    Except ArchiveError (List (String × String)) := do
  let raw ← okOr (format.checksums content) .invalidChecksums
  ensure (raw ≠ []) .invalidChecksums
  raw.mapM fun (path, digest) => do
    ensure (isSafeRelativePath path.toList) .invalidChecksums
    let digest ← okOr (parseDigest digest) .invalidChecksums
    return (path, digest)

/-- A file's path, as checksums spell it. -/
def spelled (relative : Path) : String :=
  String.ofList (['/'].intercalate (relative.map String.toList))

/-- `relative_files`: the files extracted below the package root. -/
def relativeFiles (state : Extraction B) (root : Path) : List Path :=
  (state.paths.map resolve).filterMap fun path =>
    if root <+: path ∧ state.tree.isFile path then
      some (path.drop root.length)
    else none

/-- The file of a checksums entry has the digest it lists. -/
def verifyListed (tree : FileTree B) (root : Path) (id : String)
    (listed : String × String) : Except ArchiveError Unit :=
  match tree (root ++ resolve (components listed.1.toList)) with
  | some (.file content) => do
    ensure (endsInDot listed.1.toList = false) (.missingFile listed.1)
    ensure (format.hash content = listed.2) (.checksumMismatch id listed.1)
  | _ => .error (.missingFile listed.1)

/-- A file is listed, or one of the two that cannot be. -/
def verifyKnown (listed : List (String × String)) (relative : Path) :
    Except ArchiveError Unit :=
  ensure (relative = ["checksums.json"] ∨ relative = ["signature.json"]
      ∨ (listed.lookup (spelled relative)).isSome)
    (.unlistedFile (spelled relative))

/-- `verify_tree`. -/
def verifyTree (listed : List (String × String)) (state : Extraction B)
    (root : Path) (id : String) : Except ArchiveError Unit := do
  listed.forM (verifyListed format state.tree root id)
  (relativeFiles state root).forM (verifyKnown listed)

/-- The signature in the extracted tree. -/
def extractedSignature (tree : FileTree B) (root : Path) :
    Except ArchiveError (Option PackageSignature) :=
  match tree (root ++ ["signature.json"]) with
  | none => .ok none
  | some .dir => .error .io
  | some (.file bytes) => (parseSignature format bytes).map some

structure ExtractedPackage (B : Type) where
  tree : FileTree B
  root : Path
  manifest : PluginManifest
  checksums : B
  signature : Option PackageSignature

/-- `PackageArchive::extract`, into a directory of its own. The checks
of `validate_extracted_tree` (no link, and again the limits on files and
bytes) always pass on what the loop has written, and are left out. -/
def extract (archive : List (ArchiveEntry B)) :
    Except ArchiveError (ExtractedPackage B) := do
  ensure (archive ≠ [] ∧ archive.length ≤ maxFiles) .invalidEntryCount
  let state ← archive.foldlM (extractEntry format) .start
  let root ← findPackageRoot state
  let bytes ← okOr (state.tree.read (root ++ ["plugin.json"])) .io
  ensure (format.length bytes ≤ maxManifestBytes) .tooLarge
  let manifest ← parseManifest format bytes
  ensure (format.executable (state.tree.subtree root) manifest) .io
  let checksums ← okOr (state.tree.read (root ++ ["checksums.json"]))
    (.missingChecksums manifest.id)
  let listed ← parseChecksums format checksums
  verifyTree format listed state root manifest.id
  let signature ← extractedSignature format state.tree root
  return { tree := state.tree, root, manifest, checksums, signature }

end

-- ==== names

theorem not_mem_splitOn {α : Type} [DecidableEq α] {a : α} {l part : List α}
    (h : part ∈ l.splitOn a) : a ∉ part := by
  induction l generalizing part with
  | nil =>
    rw [splitOn_nil, mem_singleton] at h
    rw [h]
    exact not_mem_nil
  | cons x l ih =>
    rw [splitOn_cons_eq_if_modifyHead] at h
    split at h
    case isTrue =>
      rcases mem_cons.1 h with e | h
      · rw [e]
        exact not_mem_nil
      · exact ih h
    case isFalse hx =>
      cases hs : l.splitOn a with
      | nil => exact absurd hs (splitOn_ne_nil a l)
      | cons first rest =>
        rw [hs, modifyHead_cons] at h
        rcases mem_cons.1 h with e | h
        · rw [e, mem_cons]
          rintro (e | hm)
          · exact hx (by simp [e])
          · exact ih (hs ▸ mem_cons_self) hm
        · exact ih (hs ▸ mem_cons_of_mem _ h)

theorem forwardSlashes_id {text : List Char} (h : '\\' ∉ text) :
    forwardSlashes text = text := by
  unfold forwardSlashes
  induction text with
  | nil => rfl
  | cons c text ih =>
    rw [mem_cons, not_or] at h
    rw [map_cons, ih h.2, if_neg fun e => h.1 e.symm]

theorem stripDot_suffix (text : PathText) : stripDot text <:+ text := by
  unfold stripDot
  split
  case h_1 rest => exact ⟨['.', '/'], rfl⟩
  case h_2 => exact suffix_rfl

section

variable {name : String} {text : PathText}
  (h : normalizedArchivePath name = .ok (some text))
include h

theorem normalizedArchivePath_ok :
    isSafeRelativePath text = true ∧ '\\' ∉ text := by
  unfold normalizedArchivePath at h
  generalize hn : (stripDot (forwardSlashes name.toList)).rdropWhile
    (fun c => decide (c = '/')) = normalized at h
  by_cases he : normalized = []
  · rw [if_pos he] at h
    cases h
  · rw [if_neg he] at h
    split at h
    case isTrue hs =>
      cases h
      refine ⟨hs, fun hm => ?_⟩
      rw [← hn] at hm
      have h1 := ( rdropWhile_prefix _ _).subset hm
      have h2 := (stripDot_suffix _).subset h1
      obtain ⟨c, -, hc⟩ := mem_map.1 h2
      split at hc
      · cases hc
      · rename_i hne
        exact hne hc
    case isFalse => cases h

omit h in
theorem safe_parts {text : PathText} (h : isSafeRelativePath text = true)
    (hb : '\\' ∉ text) {p : List Char} (hp : p ∈ text.splitOn '/') :
    p ≠ [] ∧ p ≠ ['.', '.'] := by
  unfold isSafeRelativePath at h
  rw [forwardSlashes_id hb] at h
  simp only [Bool.and_eq_true, all_eq_true] at h
  have := h.2 p hp
  simpa using this

/-- The components of an entry's name, but for a first "." that
normalisation left. -/
theorem components_plain (hdot : (components text).head? ≠ some ".") :
    components text ≠ []
      ∧ ∀ c ∈ components text, Path.Plain c ∧ '/' ∉ c.toList := by
  obtain ⟨hsf, hb⟩ := normalizedArchivePath_ok h
  have hp := fun part => @safe_parts text hsf hb part
  have hsl := fun part => @not_mem_splitOn _ _ '/' text part
  unfold components at hdot ⊢
  cases hs : text.splitOn '/' with
  | nil => exact absurd hs (splitOn_ne_nil _ _)
  | cons first rest =>
    rw [hs] at hp hsl
    rw [hs] at hdot
    refine ⟨by simp, ?_⟩
    dsimp only at hdot ⊢
    rw [map_cons, head?_cons] at hdot
    intro c hc
    obtain ⟨part, hpr, rfl⟩ := mem_map.1 hc
    have hmem : part ∈ first :: rest := by
      rcases mem_cons.1 hpr with rfl | hr
      · exact mem_cons_self
      · exact mem_cons_of_mem _ (mem_filter.1 hr).1
    obtain ⟨h1, h2⟩ := hp part hmem
    have h3 : part ≠ ['.'] := by
      rcases mem_cons.1 hpr with rfl | hr
      · intro e
        exact hdot (by rw [e])
      · simpa using (mem_filter.1 hr).2
    refine ⟨⟨?_, ?_, ?_⟩, ?_⟩
    · intro e
      exact h1 (by simpa using congrArg String.toList e)
    · intro e
      exact h3 (by simpa using congrArg String.toList e)
    · intro e
      exact h2 (by simpa using congrArg String.toList e)
    · rw [String.toList_ofList]
      exact hsl part hmem

end

theorem resolve_plain {path : Path} (h : ∀ c ∈ path, Path.Plain c) :
    resolve path = path := by
  unfold resolve
  rw [filter_eq_self]
  intro c hc
  simpa using (h c hc).2.1

theorem components_spelled {path : Path} (hne : path ≠ [])
    (h : ∀ c ∈ path, Path.Plain c ∧ '/' ∉ c.toList) :
    components (spelled path).toList = path := by
  have hs : (spelled path).toList.splitOn '/'
      = path.map String.toList := by
    unfold spelled
    rw [String.toList_ofList]
    refine splitOn_intercalate '/' ?_ (by simpa using hne)
    intro p hp
    obtain ⟨c, hc, rfl⟩ := mem_map.1 hp
    exact (h c hc).2
  unfold components
  rw [hs]
  cases path with
  | nil => exact absurd rfl hne
  | cons first r =>
    have hr : (r.map String.toList).filter
        (fun p => decide (p ≠ ['.'])) = r.map String.toList := by
      rw [filter_eq_self]
      intro p hp
      obtain ⟨c, hc, rfl⟩ := mem_map.1 hp
      have hdot := (h c (mem_cons_of_mem _ hc)).1.2.1
      rw [decide_eq_true_eq]
      intro e
      exact hdot (String.toList_inj.1 e)
    simp only [map_cons, hr, map_map]
    simp [Function.comp_def]

-- ==== manifests

/-- The name keeps no "." in front. One that does is another spelling
of a file. -/
def plainName (name : String) : Bool :=
  match normalizedArchivePath name with
  | .ok (some text) => (components text).head? ≠ some "."
  | _ => true

section

variable {B : Type}

/-- Different names are different files. -/
def PlainNames (archive : List (ArchiveEntry B)) : Prop :=
  ∀ entry ∈ archive, plainName entry.name = true

instance (archive : List (ArchiveEntry B)) :
    Decidable (PlainNames archive) :=
  inferInstanceAs (Decidable (∀ entry ∈ archive, _))

variable {archive : List (ArchiveEntry B)}

theorem PlainNames.head (h : PlainNames archive) {e : ArchiveEntry B}
    (hm : e ∈ archive) {text : PathText}
    (hn : normalizedArchivePath e.name = .ok (some text)) :
    (components text).head? ≠ some "." := by
  have := h e hm
  unfold plainName at this
  rw [hn] at this
  simpa using this

variable {found : ArchiveEntry B × Path}

theorem findManifest_some {en : List (ArchiveEntry B)} {result}
    (h : findManifest en (some found) = .ok result) :
    result = some found ∧ ∀ ent ∈ en, ∀ text,
      normalizedArchivePath ent.name = .ok (some text) →
        isManifestPath (components text) = false := by
  induction en with
  | nil =>
    cases h
    exact ⟨rfl, fun ent he => absurd he not_mem_nil⟩
  | cons ent en ih =>
    rw [findManifest] at h
    have hc : ∀ {P : ArchiveEntry B → Prop}, P ent →
        (∀ e ∈ en, P e) → ∀ e ∈ ent :: en, P e := by
      intro P h1 h2 e he
      rcases mem_cons.1 he with rfl | he
      · exact h1
      · exact h2 e he
    split at h
    case h_1 => cases h
    case h_2 hn =>
      obtain ⟨h1, h2⟩ := ih h
      refine ⟨h1, hc (fun text ht => ?_) h2⟩
      rw [hn] at ht
      cases ht
    case h_3 text hn =>
      split at h
      case isTrue => cases h
      case isFalse hm =>
        obtain ⟨h1, h2⟩ := ih h
        refine ⟨h1, hc (fun text' ht => ?_) h2⟩
        rw [hn] at ht
        cases ht
        simpa using hm

theorem findManifest_only {e : List (ArchiveEntry B)}
    (h : findManifest e none = .ok (some found)) :
    ∀ en ∈ e, ∀ text,
      normalizedArchivePath en.name = .ok (some text) →
        isManifestPath (components text) = true → en = found.1 := by
  induction e with
  | nil => cases h
  | cons en e ih =>
    rw [findManifest] at h
    intro o hot text ht hm
    split at h
    case h_1 => cases h
    case h_2 hn =>
      rcases mem_cons.1 hot with rfl | ho
      · rw [hn] at ht
        cases ht
      · exact ih h o ho text ht hm
    case h_3 text' hn =>
      split at h
      case isTrue =>
        obtain ⟨h1, h2⟩ := findManifest_some h
        cases h1
        rcases mem_cons.1 hot with rfl | ho
        · rfl
        · rw [h2 o ho text ht] at hm
          cases hm
      case isFalse hno =>
        rcases mem_cons.1 hot with rfl | ho
        · rw [hn] at ht
          cases ht
          exact absurd hm hno
        · exact ih h o ho text ht hm

variable {format : PackageFormat B}

variable {content : B} {path : Path}

theorem readEntry_ok {l : Nat} {e : ArchiveEntry B}
    (h : readEntry format l e = .ok content) :
    content = e.content := by
  unfold readEntry at h
  split at h <;> cases h
  rfl

variable {inspection : PackageInspection B}

theorem inspect_manifest (h : inspect format archive = .ok inspection)
    (hl : archive.length ≤ maxFiles) {e : ArchiveEntry B}
    (hmem : e ∈ archive) {text : PathText}
    (hn : normalizedArchivePath e.name = .ok (some text))
    (hp : isManifestPath (components text) = true) :
    parseManifest format e.content = .ok inspection.manifest := by
  unfold inspect at h
  rw [take_of_length_le hl, bind_eq_ok] at h
  obtain ⟨found, hf, h⟩ := h
  rw [okOr_ok] at h
  obtain ⟨⟨other, path⟩, rfl, h⟩ := h
  have hs := findManifest_only hf e hmem text hn hp
  rw [bind_eq_ok] at h
  obtain ⟨bytes, hb, h⟩ := h
  rw [bind_eq_ok] at h
  obtain ⟨manifest, hm, h⟩ := h
  rw [readEntry_ok hb] at hm
  simp only [bind_eq_ok] at h
  obtain ⟨_, -, _, -, _, -, h⟩ := h
  cases h
  rw [hs]
  exact hm

-- ==== extraction

/-- Every extracted file has the content of an entry of its name. -/
structure Extracted (archive : List (ArchiveEntry B))
    (state : Extraction B) : Prop where
  root : state.tree [] = some .dir
  source : ∀ path content, state.tree path = some (.file content) →
    ∃ entry ∈ archive, ∃ text,
      normalizedArchivePath entry.name = .ok (some text)
        ∧ components text ∈ state.paths ∧ resolve (components text) = path
        ∧ entry.content = content

theorem extracted_start (archive : List (ArchiveEntry B)) :
    Extracted archive .start where
  root := rfl
  source := by
    intro path content h
    unfold Extraction.start FileTree.ofList at h
    dsimp only at h
    rw [lookup_cons] at h
    split at h <;> cases h

variable {t : FileTree B}

variable {t' : FileTree B} {d : Path}

theorem createDirAll_file (h : t.createDirAll d = some t')
    (hf : t' path = some (.file content)) :
    t path = some (.file content) := by
  unfold FileTree.createDirAll at h
  split at h <;> cases h
  unfold FileTree.mkdirs at hf
  split at hf
  · cases hf
  · exact hf

theorem createDirAll_present {found : Entry B}
    (h : t.createDirAll d = some t') (hp : t path = some found) :
    t' path = some found := by
  unfold FileTree.createDirAll at h
  split at h <;> cases h
  rw [FileTree.mkdirs_present d (by rw [hp]; exact nofun), hp]

variable {state : Extraction B}

theorem Extracted.entry {state' : Extraction B} {entry : ArchiveEntry B}
    (hmem : entry ∈ archive)
    (h : extractEntry format state entry = .ok state')
    (hx : Extracted archive state) : Extracted archive state' := by
  unfold extractEntry at h
  rw [bind_eq_ok] at h
  obtain ⟨name, hn, h⟩ := h
  cases name with
  | none =>
    cases h
    exact hx
  | some text =>
    rw [ensure_ok] at h
    obtain ⟨-, h⟩ := h
    split at h
    case isTrue =>
      rw [ensure_ok, okOr_ok] at h
      obtain ⟨-, tree, ht, h⟩ := h
      cases h
      refine ⟨createDirAll_present ht hx.root, ?_⟩
      intro path content hf
      obtain ⟨e, he, t, h1, h2, h3⟩ :=
        hx.source path content (createDirAll_file ht hf)
      exact ⟨e, he, t, h1, mem_cons_of_mem _ h2, h3⟩
    case isFalse =>
      rw [ensure_ok, okOr_ok] at h
      obtain ⟨-, tree, ht, h⟩ := h
      rw [ensure_ok, ensure_ok] at h
      obtain ⟨⟨hdir, -⟩, -, h⟩ := h
      cases h
      have hr := createDirAll_present ht hx.root
      constructor
      · dsimp only
        unfold FileTree.write
        rw [if_neg]
        · exact hr
        · intro e
          unfold FileTree.isDir at hdir
          rw [← e, hr] at hdir
          cases hdir
      · intro path content hf
        dsimp only at hf ⊢
        unfold FileTree.write at hf
        split at hf
        case isTrue e =>
          cases hf
          exact ⟨entry, hmem, text, hn, mem_cons_self, e.symm, rfl⟩
        case isFalse =>
          obtain ⟨e, he, t, h1, h2, h3⟩ :=
            hx.source path content (createDirAll_file ht hf)
          exact ⟨e, he, t, h1, mem_cons_of_mem _ h2, h3⟩

/-- What a successful extraction has established. -/
structure ExtractedAs (format : PackageFormat B)
    (archive : List (ArchiveEntry B)) (package : ExtractedPackage B)
    (state : Extraction B) (listed : List (String × String))
    (bytes : B) : Prop where
  length : archive.length ≤ maxFiles
  written : Extracted archive state
  tree : package.tree = state.tree
  root : package.root.length ≤ 1 ∧ state.tree package.root = some .dir
  manifestFile : state.tree (package.root ++ ["plugin.json"])
    = some (.file bytes)
  manifest : parseManifest format bytes = .ok package.manifest
  checksums : parseChecksums format package.checksums = .ok listed
  verified : verifyTree format listed state package.root
    package.manifest.id = .ok ()

theorem findPackageRoot_ok {r : Path}
    (h : findPackageRoot state = .ok r) (hr : state.tree [] = some .dir) :
    r.length ≤ 1 ∧ state.tree r = some .dir := by
  unfold findPackageRoot at h
  split at h
  case isTrue =>
    cases h
    exact ⟨Nat.zero_le _, hr⟩
  case isFalse =>
    dsimp only at h
    split at h
    case h_1 child hc =>
      split at h <;> cases h
      refine ⟨Nat.le_refl _, ?_⟩
      have hmem : child ∈ [child] := mem_singleton_self child
      rw [← hc] at hmem
      have hdir := (mem_filter.1 hmem).2
      unfold FileTree.isDir at hdir
      split at hdir
      case h_1 e => exact e
      case h_2 => cases hdir
    case h_2 => cases h

theorem read_file (h : t.read path = some content) :
    t.reachable path.dropLast = true ∧ t path = some (.file content) := by
  unfold FileTree.read at h
  split at h
  case isTrue hr =>
    split at h
    case h_1 e =>
      cases h
      exact ⟨hr, e⟩
    case h_2 => cases h
  case isFalse => cases h

variable {package : ExtractedPackage B}

theorem extract_ok (h : extract format archive = .ok package) :
    ∃ state listed bytes,
      ExtractedAs format archive package state listed bytes := by
  unfold extract at h
  rw [ensure_ok, bind_eq_ok] at h
  obtain ⟨⟨-, hlen⟩, state, hst, h⟩ := h
  have hw : Extracted archive state :=
    foldlM_invariant
      (fun entry he s s' hs hx => Extracted.entry he hs hx) hst
      (extracted_start archive)
  rw [bind_eq_ok] at h
  obtain ⟨root, hr, h⟩ := h
  rw [okOr_ok] at h
  obtain ⟨bytes, hb, h⟩ := h
  rw [ensure_ok, bind_eq_ok] at h
  obtain ⟨-, manifest, hman, h⟩ := h
  rw [ensure_ok, okOr_ok] at h
  obtain ⟨-, checksums, -, h⟩ := h
  rw [bind_eq_ok] at h
  obtain ⟨listed, hl, h⟩ := h
  rw [bind_eq_ok] at h
  obtain ⟨⟨⟩, hv, h⟩ := h
  rw [bind_eq_ok] at h
  obtain ⟨signature, -, h⟩ := h
  cases h
  exact ⟨state, listed, bytes, {
    length := hlen
    written := hw
    tree := rfl
    root := findPackageRoot_ok hr hw.root
    manifestFile := (read_file hb).2
    manifest := hman
    checksums := hl
    verified := hv }⟩

-- ---- what was reviewed

theorem Extracted.entry_of_file (hx : Extracted archive state)
    (hpl : PlainNames archive)
    (h : state.tree path = some (.file content)) :
    ∃ entry ∈ archive, ∃ text,
      normalizedArchivePath entry.name = .ok (some text)
        ∧ components text = path ∧ path ∈ state.paths
        ∧ entry.content = content
        ∧ ∀ c ∈ path, Path.Plain c ∧ '/' ∉ c.toList := by
  obtain ⟨entry, hmem, text, hn, hp, hres, hcn⟩ := hx.source path content h
  obtain ⟨-, hcm⟩ := components_plain hn (hpl.head hmem hn)
  rw [resolve_plain fun c hc => (hcm c hc).1] at hres
  subst hres
  exact ⟨entry, hmem, text, hn, rfl, hp, hcn, hcm⟩

variable {listed : List (String × String)}

theorem ExtractedAs.manifest_eq {b : B}
    (hx : ExtractedAs format archive package state listed b)
    (hp : PlainNames archive)
    (hi : inspect format archive = .ok inspection) :
    package.manifest = inspection.manifest := by
  obtain ⟨entry, hmem, text, hn, hpt, -, hc, -⟩ :=
    hx.written.entry_of_file hp hx.manifestFile
  have hm : isManifestPath (components text) = true := by
    unfold isManifestPath
    rw [hpt, getLast?_concat, length_append]
    have := hx.root.1
    simpa using this
  have hprs := inspect_manifest hi hx.length hmem hn hm
  rw [hc, hx.manifest] at hprs
  exact Except.ok.inj hprs

theorem verifyListed_ok {tr : FileTree B} {r : Path} {id : String}
    {e : String × String}
    (h : verifyListed format tr r id e = .ok ()) :
    ∃ content, tr (r ++ resolve (components e.1.toList))
        = some (.file content) ∧ format.hash content = e.2 := by
  unfold verifyListed at h
  split at h
  case h_1 content hf =>
    rw [ensure_ok] at h
    exact ⟨content, hf, ensure_eq_ok.1 h.2⟩
  case h_2 => cases h

theorem ExtractedAs.lookup_eq {b : B}
    (hx : ExtractedAs format archive package state listed b)
    (hpl : PlainNames archive)
    (hf : package.tree (package.root ++ path) = some (.file content))
    (hch : path ≠ ["checksums.json"])
    (hsig : path ≠ ["signature.json"]) :
    listed.lookup (spelled path) = some (format.hash content) := by
  rw [hx.tree] at hf
  obtain ⟨entry, hmem, text, hn, ht, hp, -, hcm⟩ :=
    hx.written.entry_of_file hpl hf
  have hown : ∀ c ∈ path, Path.Plain c ∧ '/' ∉ c.toList := fun c hc =>
    hcm c (mem_append_right _ hc)
  have hne : path ≠ [] := by
    intro e
    rw [e, append_nil, hx.root.2] at hf
    cases hf
  have hv := hx.verified
  unfold verifyTree at hv
  rw [bind_eq_ok] at hv
  obtain ⟨⟨⟩, hls, hk⟩ := hv
  -- the file is among those the check walks over
  have hw : path ∈ relativeFiles state package.root := by
    unfold relativeFiles
    rw [mem_filterMap]
    refine ⟨package.root ++ path, ?_, ?_⟩
    · refine mem_map.2 ⟨package.root ++ path, hp, ?_⟩
      exact resolve_plain fun c hc => (hcm c hc).1
    · rw [if_pos]
      · rw [drop_left]
      · refine ⟨prefix_append _ _, ?_⟩
        unfold FileTree.isFile
        rw [hf]
  have hs := forM_eq_ok.1 hk path hw
  unfold verifyKnown at hs
  rw [ensure_eq_ok] at hs
  rcases hs with e | e | hs
  · exact absurd e hch
  · exact absurd e hsig
  obtain ⟨di, hd⟩ := Option.isSome_iff_exists.1 hs
  rw [hd]
  -- and its listed digest was compared
  obtain ⟨l, r, hl, -⟩ := lookup_eq_some_iff.1 hd
  have hin : (spelled path, di) ∈ listed := by
    rw [hl]
    exact mem_append_right _ mem_cons_self
  obtain ⟨found, hfn, hh⟩ := verifyListed_ok (forM_eq_ok.1 hls _ hin)
  rw [components_spelled hne hown, resolve_plain fun c hc => (hown c hc).1,
    hf] at hfn
  cases hfn
  rw [hh]

end

end TikTools.Plugins
