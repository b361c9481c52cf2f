/-
Staging a native package into a plugin directory.

The old tree of the destination is taken away first; only then is the
package read, and a package that turns out to be wrong, or a copy that
fails, leaves the destination without it. And the check that the
destination lies in the plugin directory comes last, when everything has
been copied through whatever links lead there.

The disk's entries are names without '/', links are followed as the
system follows them, and every change is recorded in `touched`. What can
go wrong on the disk is given by `Faults`. A name is a text without
separators of its own; where one holds a backslash, the package's walk
writes it as a slash once it is a directory's.
-/
import TikTools.Lib.Json
import TikTools.Lib.Text
import TikTools.Lib.Effect
import TikTools.Lib.Disk
import TikTools.Plugins.Archive
import Mathlib.Data.List.Sort

namespace TikTools.Sdk

open TikTools.Lib
open TikTools.Plugins (PathText forwardSlashes isSafeRelativePath components
  resolve endsInDot stripDot)

def maxStageFiles : Nat := 4096

def maxStageFileBytes : Nat := 256 * 1024 * 1024

def maxStageRootLen : Nat := 512

def maxNativePackageLen : Nat := 256

def excludedDirectories : List String := ["node_modules", ".git", "target"]

def requiredExportConditions : List String :=
  ["import", "require", "default", "node", "types"]

/-- Paths are given by their steps from the top directory. -/
structure NativeStageRequest where
  package : String
  source : List String
  pluginDir : List String
  root : String
  overwrite : Bool

structure NativeStageReport where
  root : String
  files : List String
  nodeBinaries : List String
  deriving DecidableEq

inductive NativeStageError where
  | invalidPackage (package : String)
  | invalidRoot (root : String)
  | unusableDirectory (dir : List String)
  | alreadyStaged (destination : List String)
  | manifest (source : List String)
  | packageNameMismatch (expected found : String)
  | missingEntrypoint (value : String)
  | noNativeBinaries (source : List String)
  | symlinkRefused (path : List String)
  | escape (destination : List String)
  | tooManyFiles (source : List String)
  | fileTooLarge (relative : String)
  | io
  deriving DecidableEq

/-- What the libraries make of contents, and how many links the system
follows on one path. -/
structure System (B : Type) where
  json : B → Option Json
  size : B → Nat
  links : Nat

/-- How the copy of a file fails. -/
inductive CopyFault (B : Type) where
  /-- Once so many of its directories are made. -/
  | parents (made : Nat)
  /-- While it copies, with what is left under the name if anything. -/
  | content (left : Option B)

/-- What goes wrong on the disk. -/
structure Faults (B : Type) where
  /-- What cannot be read. -/
  unreadable : Path → Bool
  /-- A removal that fails, with the entries it does not get to. -/
  removal : Option (Path → Bool)
  /-- Making the destination fails once so many directories are made. -/
  making : Option Nat
  /-- How many files are copied before the copy that fails. -/
  copy : Option (Nat × CopyFault B)

/-- Nothing goes wrong. -/
def Faults.none {B : Type} : Faults B := ⟨fun _ => false, .none, .none, .none⟩

-- ==== the manifest

/-- `is_valid_native_package_name`. -/
def isValidNativePackageName (value : String) : Bool :=
  let chars := value.toList
  let parts := chars.splitOn '/'
  !(chars.isEmpty || decide (value.utf8ByteSize > maxNativePackageLen)
      || chars.head? = some '.' || chars.head? = some '/'
      || chars.head? = some '#' || chars.contains '\\'
      || chars.contains ':' || chars.contains '\x00'
      || chars.any isWhitespace)
    && parts.length = (if chars.head? = some '@' then 2 else 1)
    && parts.all (fun part =>
      !part.isEmpty && part ≠ ['.'] && part ≠ ['.', '.'])
    && !(chars.head? = some '@' && (parts.headD []).length ≤ 1)

mutual

/-- `collect_export_targets`. -/
def collectExportTargets : Json → List String
  | .string target => [target]
  | .array entries => collectEntries entries
  | .object conditions => collectConditions conditions
  | _ => []

def collectEntries : List Json → List String
  | [] => []
  | entry :: rest => collectExportTargets entry ++ collectEntries rest

def collectConditions : List (String × Json) → List String
  | [] => []
  | (condition, target) :: rest =>
    (if requiredExportConditions.contains condition then
      collectExportTargets target
    else []) ++ collectConditions rest

end

/-- `export_targets`: those under ".", if any key is a subpath. -/
def exportTargets (exports : Json) : List String :=
  match exports with
  | .object entries =>
    if entries.any fun entry => entry.1.toList.head? = some '.' then
      ((Json.member "." entries).map collectExportTargets).getD []
    else collectExportTargets exports
  | other => collectExportTargets other

/-- `normalize_entrypoint`. -/
def normalizeEntrypoint (value : String) :
    Except NativeStageError PathText :=
  let trimmed := stripDot value.toList
  if trimmed = [] ∨ isSafeRelativePath trimmed = false then
    .error (.missingEntrypoint value)
  else .ok trimmed

def declaredEntrypoints (manifest : Json) : List String :=
  let text := fun key => ((manifest.get key).bind Json.asStr).toList
  text "main" ++ ((manifest.get "exports").map exportTargets).getD []
    ++ text "types" ++ text "typings"

def textLe (a b : PathText) : Prop := String.ofList a ≤ String.ofList b

instance (a b : PathText) : Decidable (textLe a b) :=
  inferInstanceAs (Decidable (String.ofList a ≤ String.ofList b))

/-- `required_entrypoints`. -/
def requiredEntrypoints (manifest : Json) :
    Except NativeStageError (List PathText) :=
  ((declaredEntrypoints manifest).mapM normalizeEntrypoint).map fun found =>
    (found.insertionSort textLe).dedup

/-- `files_allowlist`. -/
def filesAllowlist (manifest : Json) : Option (List PathText) :=
  match manifest.get "files" with
  | some (.array entries) =>
    if entries.isEmpty then none
    else
      let allowlist := entries.filterMap Json.asStr
      some <| (if allowlist.contains "package.json" then allowlist
        else allowlist ++ ["package.json"]).map String.toList
  | _ => none

/-- `allowlist_matches`. -/
def allowlistMatches (allowlist : List PathText) (relative : PathText) :
    Bool :=
  allowlist.any fun pattern =>
    let pattern := stripDot pattern
    if pattern = relative then true
    else
      match pattern with
      | '*' :: '.' :: suffix =>
        !relative.contains '/' && suffix.isSuffixOf relative
          && decide (relative.length > suffix.length)
      | pattern =>
        let head := if pattern.getLast? = some '/' then pattern.dropLast
          else pattern
        !head.isEmpty
          && (relative = head || (head ++ ['/']).isPrefixOf relative)

-- ==== the package

section

variable {B : Type} [DecidableEq B] (sys : System B) (faults : Faults B)

/-- A path's steps: empty ones and "." lead nowhere. -/
def steps (text : PathText) : List String :=
  ((text.splitOn '/').filter fun part => part ≠ [] ∧ part ≠ ['.']).map
    String.ofList

/-- `fs::read`. -/
def readFile (disk : Disk B) (path : List String) : Option B :=
  match disk.follow sys.links [] path with
  | .file p =>
    match disk.find p with
    | some (.file content) =>
      if faults.unreadable p then none else some content
    | _ => none
  | _ => none

/-- `fs::read_dir`, by name. -/
def readDir (disk : Disk B) (d : Path) : Option (List String) :=
  if faults.unreadable d then none
  else some ((disk.names d).insertionSort (· ≤ ·))

/-- `read_package_manifest`. -/
def readPackageManifest (disk : Disk B) (source : List String) :
    Except NativeStageError Json :=
  match (readFile sys faults disk (source ++ ["package.json"])).bind
      sys.json with
  | some manifest => .ok manifest
  | none => .error (.manifest source)

/-- A name in a directory of the package, as a path in it. -/
def relativeTo (dir : PathText) (name : String) : PathText :=
  if dir = [] then name.toList
  else forwardSlashes dir ++ '/' :: name.toList

/-- The directories still to be read, last first, and the files
selected. -/
structure Walk where
  stack : List PathText
  selected : List PathText

def isWanted (allowlist : Option (List PathText)) (relative : PathText) :
    Bool :=
  match allowlist with
  | some allowlist => allowlistMatches allowlist relative
  | none => true

/-- Look at one entry of a directory of the package. -/
def visit (disk : Disk B) (allowlist : Option (List PathText)) (at' : Path)
    (dir : PathText) (walk : Walk) (name : String) :
    Except NativeStageError Walk :=
  let relative := relativeTo dir name
  match disk.find (at' ++ [name]) with
  | some (.link _) => .error (.symlinkRefused (at' ++ [name]))
  | some .dir =>
    if (relative.splitOn '/').any fun part =>
        excludedDirectories.contains (String.ofList part) then .ok walk
    else .ok { walk with stack := relative :: walk.stack }
  | some (.file _) =>
    if isWanted allowlist relative then
      .ok { walk with selected := walk.selected ++ [relative] }
    else .ok walk
  | none => .ok walk

/-- `select_source_files`; a round for every directory. -/
def selectFrom (disk : Disk B) (source : List String)
    (allowlist : Option (List PathText)) :
    Nat → Walk → Except NativeStageError (List PathText)
  | rounds, walk =>
    match walk.stack with
    | [] => .ok walk.selected
    | dir :: stack =>
      match rounds with
      | 0 => .error .io
      | rounds + 1 =>
        match disk.follow sys.links [] (source ++ steps dir) with
        | .dir at' _ =>
          match readDir faults disk at' with
          | none => .error .io
          | some names => do
            let walk ← names.foldlM
              (visit disk allowlist at' dir)
              { walk with stack := stack }
            selectFrom disk source allowlist rounds walk
        | _ => .error .io

def selectSourceFiles (disk : Disk B) (source : List String)
    (allowlist : Option (List PathText)) :
    Except NativeStageError (List PathText) :=
  selectFrom sys faults disk source allowlist (disk.entries.length + 1)
    ⟨[[]], []⟩

structure StagedFile (B : Type) where
  relative : PathText
  content : B

/-- A selected file's size is looked up; its content is what will be
copied. -/
def sized (disk : Disk B) (source : List String) (relative : PathText) :
    Except NativeStageError (StagedFile B) :=
  match disk.follow sys.links [] (source ++ steps relative) with
  | .file p =>
    match disk.find p with
    | some (.file content) =>
      if sys.size content > maxStageFileBytes then
        .error (.fileTooLarge (String.ofList relative))
      else .ok ⟨relative, content⟩
    | _ => .error .io
  | _ => .error .io

def isNodeBinary (relative : PathText) : Bool :=
  ".node".toList.isSuffixOf relative

/-- What is asked of the package before a file of it is copied. -/
def checkPackage (request : NativeStageRequest) (disk : Disk B) :
    Except NativeStageError (List (StagedFile B)) := do
  let manifest ← readPackageManifest sys faults disk request.source
  let found := ((manifest.get "name").bind Json.asStr).getD ""
  ensure (found = request.package)
    (.packageNameMismatch request.package found)
  let entrypoints ← requiredEntrypoints manifest
  let selected ← selectSourceFiles sys faults disk request.source
    (filesAllowlist manifest)
  ensure (selected.length ≤ maxStageFiles) (.tooManyFiles request.source)
  let files ← selected.mapM (sized sys disk request.source)
  ensure (files.any fun file => isNodeBinary file.relative)
    (.noNativeBinaries request.source)
  match entrypoints.find? fun entrypoint =>
      !files.any fun file => file.relative = entrypoint with
  | some entrypoint =>
    .error (.missingEntrypoint (String.ofList entrypoint))
  | none =>
    .ok (files.insertionSort fun a b => textLe a.relative b.relative)

-- ==== the staging

inductive Touch where
  | made (p : Path)
  | wrote (p : Path)
  | removed (p : Path)
  deriving DecidableEq

def Touch.path : Touch → Path
  | .made p | .wrote p | .removed p => p

/-- The disk, and every change made to it. -/
structure Staging (B : Type) where
  disk : Disk B
  touched : List Touch

def Staging.make (s : Staging B) (p : Path) : Staging B :=
  ⟨s.disk.put p .dir, s.touched ++ [.made p]⟩

def Staging.write (s : Staging B) (p : Path) (content : B) : Staging B :=
  ⟨s.disk.put p (.file content), s.touched ++ [.wrote p]⟩

/-- Make directories, each in the one before. -/
def Staging.makeAll (s : Staging B) (base : Path) :
    List String → Staging B
  | [] => s
  | name :: rest => (s.make (base ++ [name])).makeAll (base ++ [name]) rest

abbrev Stage (B : Type) := Effect (Staging B) NativeStageError

/-- The names of a requested root. -/
def rootNames (root : String) : List String :=
  resolve (components root.toList)

/-- What `fs::symlink_metadata` says of a destination. -/
inductive Located where
  | missing
  | io
  /-- A link or a file. -/
  | other
  | dir (p : Path)
  deriving DecidableEq

/-- Only the last part of a path is not followed, and "." is one. -/
def locate (disk : Disk B) (pluginRoot : Path) (root : String) : Located :=
  let names := rootNames root
  if endsInDot root.toList then
    match disk.follow sys.links pluginRoot names with
    | .dir p _ => .dir p
    | .missing => .missing
    | _ => .io
  else
    match names.getLast? with
    | none => .io
    | some last =>
      match disk.follow sys.links pluginRoot names.dropLast with
      | .dir p _ =>
        match disk.find (p ++ [last]) with
        | none => .missing
        | some .dir => .dir (p ++ [last])
        | some _ => .other
      | .missing => .missing
      | _ => .io

/-- What a removal takes away. A directory named by "." cannot go
itself. -/
def gone (d : Path) (dotted : Bool) (p : Path) : Bool :=
  d.isPrefixOf p && !(dotted && p = d)
    && !((faults.removal.map fun kept => kept p).getD false)

/-- `fs::remove_dir_all`. -/
def removeDirAll (d : Path) (dotted : Bool) : Stage B Unit := fun s =>
  (if dotted || faults.removal.isSome then .error .io else .ok (),
    ⟨s.disk.prune (gone faults d dotted),
      s.touched ++ ((s.disk.entries.map Prod.fst).filter
        (gone faults d dotted)).map .removed⟩)

/-- `prepare_destination`. -/
def prepareDestination (pluginRoot : Path) (request : NativeStageRequest) :
    Stage B Unit := fun s =>
  let destination := pluginRoot ++ rootNames request.root
  match locate sys s.disk pluginRoot request.root with
  | .missing => (.ok (), s)
  | .io => (.error .io, s)
  | .other => (.error (.symlinkRefused destination), s)
  | .dir d =>
    if request.overwrite then
      removeDirAll faults d (endsInDot request.root.toList) s
    else
      match readDir faults s.disk d with
      | none => (.error .io, s)
      | some [] => (.ok (), s)
      | some _ => (.error (.alreadyStaged destination), s)

/-- `fs::create_dir_all`. The path ends in "." if `dotted`, and then its
last directory has to be there. -/
def createDirAll (base : Path) (names : List String) (dotted : Bool)
    (fault : Option Nat) : Stage B Path := fun s =>
  match s.disk.landing sys.links base names with
  | none => (.error .io, s)
  | some (d, rest) =>
    let missing := if dotted then rest.dropLast else rest
    match fault with
    | some made => (.error .io, s.makeAll d (missing.take made))
    | none =>
      if dotted ∧ rest ≠ [] then (.error .io, s.makeAll d missing)
      else (.ok (d ++ rest), s.makeAll d missing)

/-- `fs::copy`, onto a name in a directory. -/
def copyContent (dir : Path) (name : String) (content : B) :
    Stage B Unit := fun s =>
  match s.disk.find (dir ++ [name]) with
  | none => (.ok (), s.write (dir ++ [name]) content)
  | some _ =>
    match s.disk.follow sys.links dir [name] with
    | .file p => (.ok (), s.write p content)
    | _ => (.error .io, s)

/-- Copy one file into the destination, making its directories. The
way to the destination itself is the one it was made by. -/
def copyFile (destination : Path) (file : StagedFile B)
    (fault : Option (CopyFault B)) : Stage B Unit := do
  let path := steps file.relative
  let name := path.getLastD ""
  match fault with
  | none =>
    let dir ← createDirAll sys destination path.dropLast false none
    copyContent sys dir name file.content
  | some (.parents made) =>
    let _ ← createDirAll sys destination path.dropLast false (some made)
    Effect.fail .io
  | some (.content left) =>
    let dir ← createDirAll sys destination path.dropLast false none
    match left with
    | some content => copyContent sys dir name content
    | none => pure ()
    Effect.fail .io

/-- Copy files in order, up to the one that fails. -/
def copyAll (destination : Path) :
    List (StagedFile B) → Option (Nat × CopyFault B) → Stage B Unit
  | [], _ => pure ()
  | file :: rest, none => do
    copyFile sys destination file none
    copyAll destination rest none
  | file :: _, some (0, fault) =>
    copyFile sys destination file (some fault)
  | file :: rest, some (n + 1, fault) => do
    copyFile sys destination file none
    copyAll destination rest (some (n, fault))

/-- `fs::canonicalize`, of a directory. -/
def canonicalDir (disk : Disk B) (base : Path) (path : List String) :
    Option Path :=
  match disk.follow sys.links base path with
  | .dir p _ => some p
  | _ => none

/-- The plugin directory of a request that can be staged at all. -/
def pluginRootOf (request : NativeStageRequest) (disk : Disk B) :
    Except NativeStageError Path :=
  if isValidNativePackageName request.package = false then
    .error (.invalidPackage request.package)
  else if request.root.utf8ByteSize > maxStageRootLen
      ∨ isSafeRelativePath request.root.toList = false then
    .error (.invalidRoot request.root)
  else
    match canonicalDir sys disk [] request.pluginDir with
    | some pluginRoot => .ok pluginRoot
    | none => .error (.unusableDirectory request.pluginDir)

/-- The canonical check, and the report. -/
def finish (pluginRoot : Path) (request : NativeStageRequest)
    (files : List (StagedFile B)) (disk : Disk B) :
    Except NativeStageError NativeStageReport :=
  let names := rootNames request.root
  let under := fun file : StagedFile B =>
    request.root ++ "/" ++ String.ofList file.relative
  match canonicalDir sys disk pluginRoot names with
  | none => .error .io
  | some canonical =>
    if pluginRoot.isPrefixOf canonical then
      .ok ⟨request.root, files.map under,
        (files.filter fun file => isNodeBinary file.relative).map under⟩
    else .error (.escape (pluginRoot ++ names))

/-- `stage_native_package`. -/
def stageNativePackage (request : NativeStageRequest) :
    Stage B NativeStageReport := do
  let pluginRoot ← Effect.look fun s => pluginRootOf sys request s.disk
  prepareDestination sys faults pluginRoot request
  let files ← Effect.look fun s => checkPackage sys faults request s.disk
  let destination ← createDirAll sys pluginRoot (rootNames request.root)
    (endsInDot request.root.toList) faults.making
  copyAll sys destination files faults.copy
  Effect.look fun s => finish sys pluginRoot request files s.disk

end

end TikTools.Sdk
