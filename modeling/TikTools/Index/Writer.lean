/-
The index writer: publishing packages into a static registry on disk.

`add` copies the package file into the registry, files its artifact in
the plugin's package document and rebuilds the catalog; `yank` and
`advise` change a release's flags. Each is a program on the file tree
that may fail on the way, and what it has written by then stays.
-/
import TikTools.Lib.Effect
import TikTools.Lib.FileTree
import TikTools.Index.Model
import Mathlib.Data.List.DropRight

namespace TikTools.Index

open TikTools.Lib

-- ==== files

structure PackageInspection where
  manifest : PluginManifest
  signature : Option String
  changelog : Option String

structure CatalogEntry where
  id : String
  name : String
  publisher : Option String
  description : Option String
  icon : Option String
  categories : List String
  tags : List String
  latest : String
  runtime : String
  updatedAt : Nat

structure CatalogPage where
  page : Nat
  pages : Nat
  total : Nat
  entries : List CatalogEntry

structure RegistryConfigDocument where
  protocol : Nat
  name : String
  description : Option String
  api : Option String
  mirrors : List String
  catalogPages : Nat
  revokedDigests : List String
  generatedAt : Nat
  expires : Option Nat

/-- What the files of a registry are made of: packages with their size,
digest and inspection, and the JSON documents. `truncated` is the file
that holds nothing. -/
structure Formats (B : Type) where
  truncated : B
  size : B → Nat
  sha256 : B → String
  inspect : B → Option PackageInspection
  printDocument : PackageDocument → B
  parseDocument : B → Option PackageDocument
  printPage : CatalogPage → B
  printConfig : RegistryConfigDocument → B
  parseConfig : B → Option RegistryConfigDocument

/-- Documents read back as they were written. -/
def Formats.ReadsBack {B : Type} (formats : Formats B) : Prop :=
  ∀ document, formats.parseDocument (formats.printDocument document)
    = some document

/-- The writer of one registry. `walk` lists the files below a directory
in the order the file system has them. -/
structure IndexWriter (B : Type) where
  root : Path
  name : String
  indexKey : Option (B → B)
  walk : FileTree B → Path → List Path
  formats : Formats B
  semver : Semver

namespace IndexWriter

variable {B : Type} (w : IndexWriter B)

abbrev Io (B : Type) := Effect (FileTree B) RegistryError

/-- The components of a path text. -/
def segments (relative : String) : List String :=
  (relative.toList.splitOn '/').map String.ofList

/-- Where a path relative to the registry leads. -/
def locate (relative : String) : Path :=
  (segments relative).foldl Path.join w.root

/-- Enter a directory, creating it when it is missing. -/
def enter (at_ : FileTree B × Path) (component : String) :
    Option (FileTree B × Path) :=
  let next := Path.join at_.2 component
  (at_.1.createDirAll next).map fun t => (t, next)

/-- `create_dir_all` on the parent of a relative path, one component at
a time unless it is there. -/
def createParent (relative : String) : Io B Unit :=
  Effect.change fun t =>
    if t.isDir (w.locate relative).dropLast then .ok t
    else ((segments relative).dropLast.foldlM enter (t, w.root)).elim
      (.error .io) fun at_ => .ok at_.1

/-- `fs::write`: into a directory, and not over one. -/
def writeFile (path : Path) (content : B) : Io B Unit :=
  Effect.change fun t =>
    if t.isDir path.dropLast ∧ ¬ t.isDir path
    then .ok (t.write path content)
    else .error .io

/-- `fs::read`; none when nothing is there. -/
def readFile (path : Path) : Io B (Option B) :=
  Effect.look fun t =>
    if t.isFile path then .ok (t.file path)
    else if t.isDir path ∨ ¬ t.clear path.dropLast then .error .io
    else .ok none

/-- `fs::remove_file`, whether it fails or not. -/
def removeFile (path : Path) : Io B Unit :=
  Effect.change fun t =>
    .ok (if t.isFile path then t.unlink path else t)

/-- `fs::remove_dir_all` on a directory that is there. -/
def removeDir (path : Path) : Io B Unit :=
  Effect.change fun t => .ok (if t.isDir path then t.remove path else t)

def readDocument (path : String) : Io B (Option PackageDocument) := do
  match ← readFile (w.locate path) with
  | none => pure none
  | some content =>
    match w.formats.parseDocument content with
    | some document => pure (some document)
    | none => Effect.fail (.invalidDocument path "invalid JSON")

/-- Sign what was written; without a key a signature left there is
removed. -/
def writeSignature (path : String) (content : B) : Io B Unit :=
  match w.indexKey with
  | some sign => writeFile (w.locate (path ++ ".sig")) (sign content)
  | none => removeFile (w.locate (path ++ ".sig"))

def writeSigned (path : String) (content : B) : Io B Unit := do
  w.createParent path
  writeFile (w.locate path) content
  w.writeSignature path content

-- ==== catalog

def registryProtocolVersion : Nat := 1

def catalogPageSize : Nat := 100

/-- The configuration of a registry that has none yet. -/
def newConfig : RegistryConfigDocument where
  protocol := registryProtocolVersion
  name := w.name
  description := none
  api := none
  mirrors := []
  catalogPages := 0
  revokedDigests := []
  generatedAt := 0
  expires := none

def loadConfig : Io B RegistryConfigDocument := do
  match ← readFile (w.locate "config.json") with
  | none => pure w.newConfig
  | some content =>
    match w.formats.parseConfig content with
    | some config => pure config
    | none => Effect.fail (.invalidDocument "config.json" "invalid JSON")

def writeConfig (now : Nat) (config : RegistryConfigDocument) : Io B Unit :=
  w.writeSigned "config.json" (w.formats.printConfig
    { config with
      name := w.name
      protocol := registryProtocolVersion
      generatedAt := now })

/-- The later of two releases, the second of equals. -/
def laterRelease (best : Option Release) (release : Release) :
    Option Release :=
  match best with
  | none => some release
  | some current =>
    if w.semver.leOption (current.semver w.semver) (release.semver w.semver)
    then some release else some current

def catalogEntry (document : PackageDocument) : Option CatalogEntry :=
  let latest := (document.releases.filter fun r => !r.yanked).foldl
    w.laterRelease none
  latest.map fun latest =>
    { id := document.id
      name := document.name
      publisher := document.publisher
      description := document.description
      icon := document.icon
      categories := document.categories
      tags := document.tags
      latest := latest.version
      runtime := latest.runtime
      updatedAt := latest.publishedAt }

/-- A file of the index that holds a package document. -/
def isJson (path : Path) : Bool :=
  path.getLast?.any fun name => ".json".toList.isSuffixOf name.toList

/-- The catalog entries of the package documents on disk. -/
def collect : Io B (List CatalogEntry) :=
  Effect.look fun t =>
    let index := w.root ++ ["index"]
    if ¬ t.isDir index then .ok []
    else
      ((w.walk t index).filter isJson).foldlM (fun entries path => do
        let document ← okOr ((t.file path).bind w.formats.parseDocument)
          (.invalidDocument (String.intercalate "/" path) "invalid JSON")
        pure (entries ++ (w.catalogEntry document).toList)) []

/-- Write the catalog anew from the package documents. -/
def rebuild (now : Nat) : Io B Unit := do
  let found ← w.collect
  let entries := found.insertionSort fun a b => a.id ≤ b.id
  let total := entries.length
  let pages := max ((total + catalogPageSize - 1) / catalogPageSize) 1
  removeDir (w.root ++ ["catalog"])
  Effect.forEach (List.range pages) fun page =>
    w.writeSigned ("catalog/page-" ++ toString (page + 1) ++ ".json")
      (w.formats.printPage
        { page := page + 1
          pages
          total
          entries := (entries.drop (page * catalogPageSize)).take
            catalogPageSize })
  let config ← w.loadConfig
  w.writeConfig now { config with catalogPages := pages }

def finishDocument (path : String) (document : PackageDocument) : Io B Unit :=
  w.writeSigned path (w.formats.printDocument (finished w.semver document))

-- ==== operations

/-- The name an added package is stored under. -/
def fileName (manifest : PluginManifest) (version : Version) : String :=
  manifest.id ++ "-" ++ w.semver.text version
    ++ ((manifest.targets.head?.map fun target => "-" ++ target).getD "")
    ++ ".plugin"

def artifactUrl (manifest : PluginManifest) (version : Version) : String :=
  "packages/" ++ manifest.id ++ "/" ++ w.fileName manifest version

/-- `fs::copy`: a file copied onto itself is truncated first. -/
def copyFile (source destination : Path) (content : B) : Io B Unit :=
  writeFile destination
    (if source = destination then w.formats.truncated else content)

/-- What `add` reads off the package file before it writes anything. -/
def openPackage (package : Path) :
    Io B (B × PackageInspection × Version) :=
  Effect.look fun t => do
    let content ← okOr (t.file package) .package
    let inspection ← okOr (w.formats.inspect content) .package
    let version ← okOr (inspection.manifest.semver w.semver)
      (.invalidDocument inspection.manifest.id
        "registry packages need a semver version")
    pure (content, inspection, version)

def artifactOf (content : B) (inspection : PackageInspection)
    (url : String) : Artifact where
  target := targetOf inspection.manifest
  url
  size := w.formats.size content
  sha256 := w.formats.sha256 content
  keyId := inspection.signature

/-- Where an added package is served from: a base address, or the
registry itself. -/
def servedFrom (base : Option String) (manifest : PluginManifest)
    (version : Version) : String :=
  match base with
  | some base =>
    String.ofList (base.toList.rdropWhile (· = '/')) ++ "/"
      ++ w.fileName manifest version
  | none => w.artifactUrl manifest version

/-- A package that is served from the registry is copied into it. -/
def store (package : Path) (base : Option String) (content : B)
    (manifest : PluginManifest) (version : Version) : Io B Unit :=
  match base with
  | some _ => pure ()
  | none => do
    let url := w.artifactUrl manifest version
    w.createParent url
    w.copyFile package (w.locate url) content

/-- The document a package is added to. -/
def documentFor (manifest : PluginManifest) : Io B PackageDocument := do
  let document ← w.readDocument (shardPath manifest.id)
  pure (document.getD (emptyDocument manifest))

/-- Publish a package. -/
def add (package : Path) (channel : String) (base : Option String)
    (now : Nat) : Io B Unit := do
  let (content, inspection, version) ← w.openPackage package
  let manifest := inspection.manifest
  let url := w.servedFrom base manifest version
  w.store package base content manifest version
  let path := shardPath manifest.id
  let document ← w.documentFor manifest
  let release := releaseFrom w.semver manifest channel now
    inspection.changelog (w.artifactOf content inspection url)
  let document ← Effect.lift <|
    addRelease w.semver path document manifest version release
  w.finishDocument path (refreshMetadata w.semver document manifest version)
  w.rebuild now

/-- Change a published release. -/
def updateRelease (id version : String) (now : Nat)
    (change : Release → Release) : Io B Unit := do
  let path := shardPath id
  let document ← w.readDocument path
  let document ← Effect.lift <| okOr document (.notFound id)
  let wanted ← Effect.lift <| okOr (w.semver.parseVersion version)
    (.invalidDocument path ("invalid version " ++ version))
  let _ ← Effect.lift <|
    okOr (document.releases.find? (isVersion w.semver wanted))
      (.notFound (id ++ "@" ++ version))
  w.finishDocument path
    { document with
      releases :=
        updateFirst (isVersion w.semver wanted) change document.releases }
  w.rebuild now

def yank (id version : String) (yanked : Bool) (now : Nat) : Io B Unit :=
  w.updateRelease id version now fun release => { release with yanked }

def advise (id version : String) (advisory : Option Advisory) (now : Nat) :
    Io B Unit :=
  w.updateRelease id version now fun release => { release with advisory }

end IndexWriter

end TikTools.Index
