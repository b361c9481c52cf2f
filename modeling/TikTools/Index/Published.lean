/-
What a listed artifact promises, and when publishing keeps it.

A package document lists artifacts by a path relative to the registry
root, with size and digest; `Matches` says that every listed artifact
has its file. `add` writes that file BEFORE it knows whether the
document takes the artifact, and under a name made of id, version and
first target only. `Sound` is the condition on a call under which every
promise survives it, whether it succeeds or fails.

# The argument

Files fall into three kinds by the end of their names: packages,
documents and signatures. The frame lemmas say which files a call can
touch: its own package file, its own document and signature, the catalog
and the configuration. `Trace` lists what an `add` can leave behind —
nothing, the copied package, or the package and its document — and
`Sound` makes each of them keep the promises.
-/
import TikTools.Index.Writer
import TikTools.Lib.Runs

namespace TikTools.Index

open TikTools.Lib List Effect FileTree Option Path

namespace IndexWriter

variable {B : Type} (w : IndexWriter B)

-- ==== runs

/-- What happens to a registry: calls of the writer, with packages served
from the registry, and anything at all outside its root. -/
inductive Action where
  | add (package : Path) (channel : String) (now : Nat)
  | yank (id version : String) (yanked : Bool) (now : Nat)
  | advise (id version : String) (advisory : Option Advisory) (now : Nat)
  | elsewhere

/-- One call, successful or not, takes the tree `t` to `t'`. -/
def Step (t : FileTree B) : Action → FileTree B → Prop
  | .add package channel now, t' => t' = (w.add package channel none now t).2
  | .yank id version yanked now, t' =>
    t' = (w.yank id version yanked now t).2
  | .advise id version advisory now, t' =>
    t' = (w.advise id version advisory now t).2
  | .elsewhere, t' => t'.Housed ∧ ∀ p, w.root <+: p → t' p = t p

/-- An artifact that a package document on disk lists. -/
structure Listed (t : FileTree B) (path : Path) (document : PackageDocument)
    (artifact : Artifact) : Prop where
  index : w.root ++ ["index"] <+: path
  json : isJson path
  content : (t.file path).bind w.formats.parseDocument = some document
  mem : ∃ release ∈ document.releases, artifact ∈ release.artifacts

/-- Every listed artifact refers to a file below the registry root with
its size and digest. -/
def Matches (t : FileTree B) : Prop :=
  ∀ path document artifact, w.Listed t path document artifact →
    w.root <+: w.locate artifact.url
      ∧ ∃ content, t.file (w.locate artifact.url) = some content
        ∧ w.formats.size content = artifact.size
        ∧ w.formats.sha256 content = artifact.sha256

/-- The artifacts a document still lists, as they are, once a package is
added to it. -/
def retained (document : PackageDocument) (manifest : PluginManifest)
    (version : Version) (release : Release) : List Artifact :=
  match document.releases.find? (isVersion w.semver version) with
  | some existing =>
    if existing.sameMetadata release then
      (document.releases.eraseP (isVersion w.semver version)).flatMap
          Release.artifacts
        ++ existing.artifacts.filter fun a => a.target ≠ targetOf manifest
    else document.releases.flatMap Release.artifacts
  | none => document.releases.flatMap Release.artifacts

/-- Where an added package is stored. -/
def destination (inspection : PackageInspection) (version : Version) :
    Path :=
  w.locate (w.artifactUrl inspection.manifest version)

/-- The document an added package is filed in. -/
def own (inspection : PackageInspection) : Path :=
  w.locate (shardPath inspection.manifest.id)

/-- The release an added package makes when it is served from `url`. -/
def releaseAt (url channel : String) (now : Nat) (content : B)
    (inspection : PackageInspection) : Release :=
  releaseFrom w.semver inspection.manifest channel now inspection.changelog
    (w.artifactOf content inspection url)

/-- The release of a package that is served from the registry. -/
def releaseOf (channel : String) (now : Nat) (content : B)
    (inspection : PackageInspection) (version : Version) : Release :=
  w.releaseAt (w.artifactUrl inspection.manifest version) channel now
    content inspection

/-- The call keeps every promise: the file it writes lies in the
registry, outside the catalog, is not the package itself, and holds no
artifact that stays listed with another size or digest. -/
def Sound (t : FileTree B) : Action → Prop
  | .add package channel now =>
    ∀ content inspection version,
      (w.openPackage package t).1 = .ok (content, inspection, version) →
      package ≠ w.destination inspection version
        ∧ w.root <+: w.destination inspection version
        ∧ ¬ w.root ++ ["catalog"] <+: w.destination inspection version
        ∧ ∀ path document artifact,
          w.Listed t path document artifact →
          w.locate artifact.url = w.destination inspection version →
          (path = w.own inspection →
            artifact ∈ w.retained document inspection.manifest version
              (w.releaseOf channel now content inspection version)) →
          artifact.size = w.formats.size content
            ∧ artifact.sha256 = w.formats.sha256 content
  | _ => True

-- ==== paths

/-- The last component of a path ends in a text. -/
def EndsIn (p : Path) (ending : String) : Prop :=
  ∃ dir name, p = dir ++ [name] ∧ ending.toList <:+ name.toList

theorem segments_append (s e : String) (h : '/' ∉ e.toList) :
    ∃ i l, segments (s ++ e) = i ++ [l] ∧ e.toList <:+ l.toList := by
  obtain ⟨i, l, hl⟩ := splitOn_append h s.toList
  refine ⟨i.map String.ofList, String.ofList (l ++ e.toList), ?_, ?_⟩
  · unfold segments
    rw [String.toList_append, hl, map_append]
    rfl
  · rw [String.toList_ofList]
    exact suffix_append l e.toList

theorem locate_append (s ending : String) (h : '/' ∉ ending.toList)
    (hlen : 3 ≤ ending.toList.length) :
    EndsIn (w.locate (s ++ ending)) ending := by
  obtain ⟨init, last, hs, hen⟩ := segments_append s ending h
  have hp : Path.Plain last := by
    have hle := hen.length_le
    refine ⟨?_, ?_, ?_⟩ <;> rintro rfl
    · exact absurd (hlen.trans hle) (by decide)
    · exact absurd (hlen.trans hle) (by decide)
    · exact absurd (hlen.trans hle) (by decide)
  unfold locate
  rw [hs, foldl_append, foldl_cons, foldl_nil, join_plain hp]
  exact ⟨_, last, rfl, hen⟩

theorem EndsIn.exclusive {p : Path} {e e' : String} (h : EndsIn p e)
    (h' : EndsIn p e') :
    e.toList <:+ e'.toList ∨ e'.toList <:+ e.toList := by
  obtain ⟨dir, name, rfl, hn⟩ := h
  obtain ⟨dir', name', heq, hn'⟩ := h'
  obtain ⟨-, hc⟩ := append_inj' heq rfl
  cases hc
  exact suffix_or_suffix_of_suffix hn hn'

theorem isJson_iff {p : Path} : isJson p ↔ EndsIn p ".json" := by
  unfold isJson EndsIn
  rcases eq_nil_or_concat p with rfl | ⟨dir, n, rfl⟩
  · constructor
    · intro h
      cases h
    · rintro ⟨dir, n, h, -⟩
      exact absurd h.symm (append_ne_nil_of_right_ne_nil _ nofun)
  · rw [concat_eq_append, getLast?_concat, any_some,
      isSuffixOf_iff_suffix]
    constructor
    · intro h
      exact ⟨dir, n, rfl, h⟩
    · rintro ⟨dir', name', h, hn⟩
      obtain ⟨-, hc⟩ := append_inj' h rfl
      cases hc
      exact hn

-- ==== what calls touch

section frames

variable {w} {p : Path}

theorem enter_tree {start next : FileTree B × Path} {component : String}
    (h : enter start component = some next) :
    ∃ d, next.1 = start.1.mkdirs d := by
  simp only [enter, FileTree.createDirAll] at h
  split at h
  · cases h
    exact ⟨_, rfl⟩
  · cases h

section

variable {inv : FileTree B → Prop}
  (hstep : ∀ start component next, enter start component = some next → inv
    start.1 → inv next.1)
include hstep

theorem foldlM_enter {c : List String}
    {start next : FileTree B × Path}
    (h : c.foldlM enter start = some next) (hs : inv start.1) :
    inv next.1 := by
  induction c generalizing start with
  | nil =>
    cases h
    exact hs
  | cons component rest ih =>
    rw [foldlM_cons, bind_eq_bind, bind_eq_some_iff] at h
    obtain ⟨mid, hm, h⟩ := h
    exact ih h (hstep _ _ _ hm hs)

theorem createParent_change (r : String) :
    Effect.Maintains inv (w.createParent r) := by
  apply Effect.Maintains.change
  intro s t h hs
  split at h
  · cases h
    exact hs
  · cases hf : (segments r).dropLast.foldlM enter (s, w.root) with
    | none =>
      rw [hf] at h
      cases h
    | some last =>
      rw [hf] at h
      cases h
      exact foldlM_enter hstep hf hs

end

theorem createParent_keeps (r : String) :
    Effect.Keeps (fun t : FileTree B => t.file p) (w.createParent r) := by
  intro s
  exact @createParent_change B w (fun t => t.file p = s.file p)
    (fun _ _ _ h hs => by
      obtain ⟨d, hd⟩ := enter_tree h
      rw [hd, file_mkdirs]
      exact hs) r s rfl

theorem createParent_housed (r : String) :
    Effect.Maintains FileTree.Housed (w.createParent r) :=
  createParent_change (fun _ _ _ h hs => by
    obtain ⟨d, hd⟩ := enter_tree h
    rw [hd]
    exact hs.mkdirs d) r

theorem writeFile_keeps {path : Path} (content : B) (h : p ≠ path) :
    Effect.Keeps (fun t : FileTree B => t.file p)
      (writeFile path content) := by
  apply Effect.Keeps.change
  intro s t ht
  split at ht
  · cases ht
    exact file_write_ne s content h
  · cases ht

theorem writeFile_housed (path : Path) (content : B) :
    Effect.Maintains FileTree.Housed (writeFile path content) := by
  apply Effect.Maintains.change
  intro s t ht hs
  split at ht
  · next hd =>
    cases ht
    exact hs.write content hd.1 (Bool.not_eq_true _ ▸ hd.2)
  · cases ht

theorem removeFile_keeps {path : Path} (h : p ≠ path) :
    Effect.Keeps (fun t : FileTree B => t.file p) (removeFile path) := by
  apply Effect.Keeps.change
  intro s t ht
  cases ht
  split
  · exact file_unlink s h
  · rfl

theorem removeFile_housed (path : Path) :
    Effect.Maintains (σ := FileTree B) FileTree.Housed (removeFile path) := by
  apply Effect.Maintains.change
  intro s t ht hs
  cases ht
  split
  · next hf => exact hs.unlink hf
  · exact hs

theorem removeDir_keeps {path : Path} (h : ¬ path <+: p) :
    Effect.Keeps (fun t : FileTree B => t.file p) (removeDir path) := by
  apply Effect.Keeps.change
  intro s t ht
  cases ht
  split
  · exact file_remove s h
  · rfl

theorem removeDir_housed (path : Path) :
    Effect.Maintains (σ := FileTree B) FileTree.Housed (removeDir path) := by
  apply Effect.Maintains.change
  intro s t ht hs
  cases ht
  split
  · exact hs.remove path
  · exact hs

theorem writeSignature_keeps {path : String} (content : B)
    (h : p ≠ w.locate (path ++ ".sig")) :
    Effect.Keeps (fun t : FileTree B => t.file p)
      (w.writeSignature path content) := by
  unfold writeSignature
  split
  · exact writeFile_keeps _ h
  · exact removeFile_keeps h

theorem writeSignature_housed (path : String) (content : B) :
    Effect.Maintains FileTree.Housed (w.writeSignature path content) := by
  unfold writeSignature
  split
  · exact writeFile_housed _ _
  · exact removeFile_housed _

theorem writeSigned_keeps {path : String} (content : B)
    (h : p ≠ w.locate path) (hs : p ≠ w.locate (path ++ ".sig")) :
    Effect.Keeps (fun t : FileTree B => t.file p)
      (w.writeSigned path content) := by
  refine .bind (createParent_keeps path) fun _ => ?_
  refine .bind (writeFile_keeps content h) fun _ => ?_
  exact writeSignature_keeps content hs

theorem writeSigned_housed (path : String) (content : B) :
    Effect.Maintains FileTree.Housed (w.writeSigned path content) := by
  refine .bind (createParent_housed path) fun _ => ?_
  refine .bind (writeFile_housed _ content) fun _ => ?_
  exact writeSignature_housed path content

/-- The files the writer's bookkeeping leaves alone: packages outside the
catalog, and package documents. -/
def Kept (p : Path) : Prop :=
  ¬ w.root ++ ["catalog"] <+: p
    ∧ (EndsIn p ".plugin" ∨ w.root ++ ["index"] <+: p ∧ EndsIn p ".json")

theorem Kept.not_signature (h : w.Kept p) (path : String) :
    p ≠ w.locate (path ++ ".sig") := by
  rintro rfl
  have hsig := w.locate_append path ".sig" (by decide) (by decide)
  rcases h.2 with hend | ⟨-, hend⟩
  · exact absurd (hend.exclusive hsig) (by decide)
  · exact absurd (hend.exclusive hsig) (by decide)

theorem locate_config :
    w.locate "config.json" = w.root ++ ["config.json"] := by
  have hs : segments "config.json" = ["config.json"] := by decide
  unfold locate
  rw [hs, foldl_cons, foldl_nil, join_plain (by decide)]

theorem Kept.not_config (h : w.Kept p) : p ≠ w.locate "config.json" := by
  rintro rfl
  rcases h.2 with hend | ⟨hin, -⟩
  · have hj := w.locate_append "config" ".json" (by decide) (by decide)
    exact absurd (hend.exclusive hj) (by decide)
  · rw [locate_config] at hin
    exact (@apart_children w.root _ _ (by decide)).1 hin

theorem locate_page (n : Nat) : w.root ++ ["catalog"]
    <+: w.locate ("catalog/page-" ++ toString n ++ ".json") := by
  have ht : ("catalog/page-" ++ toString n ++ ".json").toList
      = "catalog".toList ++ '/' :: ("page-".toList
        ++ (toString n).toList ++ ".json".toList) := by
    rw [String.toList_append, String.toList_append]
    rfl
  have hpg : '/' ∉ "page-".toList ++ (toString n).toList
      ++ ".json".toList := by
    intro h
    rcases mem_append.1 h with h | h
    · rcases mem_append.1 h with h | h
      · exact absurd h (by decide)
      · exact absurd (isDigit_of_mem_toString h) (by decide)
    · exact absurd h (by decide)
  have hp : Path.Plain (String.ofList ("page-".toList
      ++ (toString n).toList ++ ".json".toList)) := by
    refine ⟨?_, ?_, ?_⟩ <;> intro h <;>
      exact absurd (congrArg (fun s : String => s.toList.head?) h) (by simp)
  unfold locate segments
  rw [ht, splitOn_append_cons_self_of_not_mem (by decide),
    splitOn_eq_singleton hpg, map_cons, map_cons,
    map_nil, String.ofList_toList, foldl_cons, foldl_cons,
    foldl_nil, join_plain hp, join_plain (by decide)]
  exact prefix_append _ _

theorem Kept.not_page (h : w.Kept p) (n : Nat) :
    p ≠ w.locate ("catalog/page-" ++ toString n ++ ".json") := by
  rintro rfl
  exact h.1 (w.locate_page n)

theorem loadConfig_keeps :
    Effect.Keeps (fun t : FileTree B => t.file p) w.loadConfig := by
  refine .bind (.look _) fun found => ?_
  split
  · exact .pure _
  · split
    · exact .pure _
    · exact .fail _

theorem rebuild_keeps (h : w.Kept p) (now : Nat) :
    Effect.Keeps (fun t : FileTree B => t.file p) (w.rebuild now) := by
  refine .bind (.look _) fun found => ?_
  refine .bind (removeDir_keeps h.1) fun _ => ?_
  refine .bind (.forEach (fun page => ?_) _) fun _ => ?_
  · exact writeSigned_keeps _ (h.not_page _) (h.not_signature _)
  · refine .bind loadConfig_keeps fun config => ?_
    exact writeSigned_keeps _ h.not_config (h.not_signature _)

theorem rebuild_housed (now : Nat) :
    Effect.Maintains FileTree.Housed (w.rebuild now) := by
  refine .bind (.look _) fun f => ?_
  refine .bind (removeDir_housed _) fun _ => ?_
  refine .bind (.forEach (fun page => writeSigned_housed _ _) _) fun _ => ?_
  refine .bind ?_ fun config => writeSigned_housed _ _
  refine .bind (.look _) fun f => ?_
  split
  · exact .pure _
  · split
    · exact .pure _
    · exact .fail _

-- ---- a document's file

theorem createParent_of_isFile {t : FileTree B} (path : String)
    (ht : t.Housed) (hf : t.isFile (w.locate path)) :
    w.createParent path t = (.ok (), t) := by
  apply change_ok
  rw [if_pos (ht _ hf)]

theorem writeFile_ok {t : FileTree B} {path : Path} (content : B)
    (hp : t.isDir path.dropLast) (h : ¬ t.isDir path) :
    writeFile path content t = (.ok (), t.write path content) := by
  apply change_ok
  rw [if_pos ⟨hp, h⟩]

theorem writeFile_file (t : FileTree B) (path : Path) (content : B) :
    (writeFile path content t).1 = .ok ()
        ∧ (writeFile path content t).2.file path = some content
      ∨ (∃ e, (writeFile path content t).1 = .error e)
        ∧ (writeFile path content t).2 = t := by
  by_cases h : t.isDir path.dropLast ∧ ¬ t.isDir path
  · rw [writeFile_ok content h.1 h.2]
    exact .inl ⟨rfl, file_write_self t path content⟩
  · have herr : writeFile path content t = (.error .io, t) :=
      change_error (if_neg h)
    rw [herr]
    exact .inr ⟨⟨_, rfl⟩, rfl⟩

/-- The signature of a document is another file. -/
def Signed (path : String) : Prop := w.locate path ≠ w.locate (path ++ ".sig")

/-- However writing a document ends, its file is as it was or holds the
document. -/
theorem writeSigned_own {path : String} (content : B)
    (h : w.Signed path) (t : FileTree B) :
    (w.writeSigned path content t).2.file (w.locate path)
        = t.file (w.locate path)
      ∨ (w.writeSigned path content t).2.file (w.locate path)
        = some content := by
  have hpar := @createParent_keeps B w (w.locate path) path t
  unfold writeSigned
  cases hc : w.createParent path t with
  | mk r t₁ =>
    rw [hc] at hpar
    cases r with
    | error e =>
      rw [bind_error hc]
      exact .inl hpar
    | ok =>
      rw [bind_ok hc]
      cases hw : writeFile (w.locate path) content t₁ with
      | mk r t₂ =>
        have hf := writeFile_file t₁ (w.locate path) content
        rw [hw] at hf
        rcases hf with ⟨rfl, hf⟩ | ⟨⟨e, rfl⟩, rfl⟩
        · rw [bind_ok hw]
          right
          rw [← hf]
          exact writeSignature_keeps content h t₂
        · rw [bind_error hw]
          exact .inl hpar

theorem writeSigned_over {path : String} (content : B)
    (hs : w.Signed path) {t : FileTree B} (ht : t.Housed)
    (hf : t.isFile (w.locate path)) :
    (w.writeSigned path content t).2.file (w.locate path) = some content := by
  have h : ¬ t.isDir (w.locate path) := by
    intro h
    rw [isFile_of_isDir h] at hf
    cases hf
  unfold writeSigned
  rw [bind_ok (createParent_of_isFile path ht hf),
    bind_ok (writeFile_ok content (ht _ hf) h)]
  rw [← file_write_self t (w.locate path) content]
  exact writeSignature_keeps content hs _

-- ---- finishing a call

/-- Writing a document back and rebuilding the catalog. -/
def finish (path : String) (document : PackageDocument) (now : Nat) :
    Io B Unit := do
  w.finishDocument path document
  w.rebuild now

section

variable {path : String}

theorem finish_keeps (document : PackageDocument) (now : Nat) (h : w.Kept p)
    (hp : p ≠ w.locate path) :
    Effect.Keeps (fun t : FileTree B => t.file p)
      (w.finish path document now) :=
  .bind (writeSigned_keeps _ hp (h.not_signature path))
    fun _ => rebuild_keeps h now

theorem finish_housed (path : String) (document : PackageDocument)
    (now : Nat) : Effect.Maintains FileTree.Housed
      (w.finish path document now) :=
  .bind (writeSigned_housed _ _) fun _ => rebuild_housed now

theorem finish_own_eq (document : PackageDocument) (now : Nat)
    (h : w.Kept (w.locate path)) (t : FileTree B) :
    (w.finish path document now t).2.file (w.locate path)
      = (w.finishDocument path document t).2.file (w.locate path) := by
  unfold finish
  cases hf : w.finishDocument path document t with
  | mk r t' =>
    cases r with
    | ok =>
      rw [bind_ok hf]
      exact rebuild_keeps h now t'
    | error e => rw [bind_error hf]

/-- However finishing ends, the document's file is as it was or holds
the document. -/
theorem finish_own (document : PackageDocument) (now : Nat)
    (h : w.Kept (w.locate path)) (t : FileTree B) :
    (w.finish path document now t).2.file (w.locate path)
        = t.file (w.locate path)
      ∨ (w.finish path document now t).2.file (w.locate path)
        = some (w.formats.printDocument (finished w.semver document)) := by
  rw [finish_own_eq document now h]
  exact writeSigned_own _ (h.not_signature path) t

theorem finish_ok (document : PackageDocument) (now : Nat)
    (h : w.Kept (w.locate path)) {t t' : FileTree B}
    (hok : w.finish path document now t = (.ok (), t')) :
    t'.file (w.locate path)
      = some (w.formats.printDocument (finished w.semver document)) := by
  obtain ⟨_, t₃, hd, hr⟩ := bind_eq_ok.1 hok
  obtain ⟨_, t₁, -, hrs⟩ := bind_eq_ok.1 hd
  obtain ⟨_, t₂, hw, hs⟩ := bind_eq_ok.1 hrs
  have hf := writeFile_file t₁ (w.locate path)
    (w.formats.printDocument (finished w.semver document))
  rw [hw] at hf
  rcases hf with ⟨-, hf⟩ | ⟨⟨e, he⟩, -⟩
  · have h₃ := writeSignature_keeps
      (w.formats.printDocument (finished w.semver document))
      (h.not_signature path) t₂
    have h' := rebuild_keeps h now t₃
    rw [hs] at h₃
    rw [hr] at h'
    exact h'.trans (h₃.trans hf)
  · cases he

theorem finish_over (document : PackageDocument) (now : Nat)
    (h : w.Kept (w.locate path)) {t : FileTree B} (ht : t.Housed)
    (hf : t.isFile (w.locate path)) :
    (w.finish path document now t).2.file (w.locate path)
      = some (w.formats.printDocument (finished w.semver document)) := by
  rw [finish_own_eq document now h]
  exact writeSigned_over _ (h.not_signature path) ht hf

end

-- ---- adding

theorem readFile_of_file {t : FileTree B} {path : Path} {content : B}
    (h : t.file path = some content) :
    readFile path t = (.ok (some content), t) := by
  apply look_ok
  rw [if_pos (isFile_of_file h), h]

theorem readFile_eq {t : FileTree B} {path : Path} {f : Option B}
    (h : (readFile path t).1 = .ok f) : f = t.file path := by
  unfold readFile Effect.look at h
  dsimp only at h
  split at h
  · exact (Except.ok.inj h).symm
  · next hfl =>
    split at h
    · cases h
    · cases h
      cases hf : t.file path with
      | none => rfl
      | some content => exact absurd (isFile_of_file hf) hfl

theorem readDocument_eq {t : FileTree B} {path : String}
    {f : Option PackageDocument}
    (h : (w.readDocument path t).1 = .ok f) :
    f = (t.file (w.locate path)).bind w.formats.parseDocument := by
  have hf : readFile (w.locate path) t
      = ((readFile (w.locate path) t).1, t) := rfl
  unfold readDocument at h
  rcases error_or_ok (readFile (w.locate path) t).1 with
    ⟨e, he⟩ | ⟨content, hc⟩
  · rw [he] at hf
    rw [bind_error hf] at h
    cases h
  · rw [hc] at hf
    rw [bind_ok hf] at h
    rw [← readFile_eq hc]
    cases content with
    | none =>
      cases h
      rfl
    | some content =>
      dsimp only at h
      rw [bind_some]
      cases hp : w.formats.parseDocument content with
      | none =>
        rw [hp] at h
        cases h
      | some document =>
        rw [hp] at h
        cases h
        rfl

section

variable {t : FileTree B} {manifest : PluginManifest}
  {document : PackageDocument}

theorem documentFor_present
    (h : (t.file (w.locate (shardPath manifest.id))).bind
      w.formats.parseDocument = some document) :
    w.documentFor manifest t = (.ok document, t) := by
  obtain ⟨content, hf, hp⟩ := bind_eq_some_iff.1 h
  have hr : w.readDocument (shardPath manifest.id) t
      = (.ok (some document), t) := by
    unfold readDocument
    rw [bind_ok (readFile_of_file hf)]
    dsimp only
    rw [hp]
    rfl
  unfold documentFor
  rw [bind_ok hr]
  rfl

/-- Without a readable document there, a package is added to an empty
one or to none. -/
theorem documentFor_absent
    (h : (t.file (w.locate (shardPath manifest.id))).bind
      w.formats.parseDocument = none)
    (hd : (w.documentFor manifest t).1 = .ok document) :
    document = emptyDocument manifest := by
  unfold documentFor at hd
  cases hr : w.readDocument (shardPath manifest.id) t with
  | mk r t' =>
    cases r with
    | error e =>
      rw [bind_error hr] at hd
      cases hd
    | ok found =>
      have hf := readDocument_eq (congrArg Prod.fst hr)
      rw [bind_ok hr, hf, h] at hd
      cases hd
      rfl

end

theorem readDocument_reads (path : String) :
    Effect.Keeps id (w.readDocument path) := by
  refine .bind (.look _) fun found => ?_
  split
  · exact .pure _
  · split
    · exact .pure _
    · exact .fail _

theorem documentFor_reads (manifest : PluginManifest) :
    Effect.Keeps id (w.documentFor manifest) :=
  .bind (readDocument_reads _) fun _ => .pure _

theorem openPackage_reads (package : Path) :
    Effect.Keeps id (w.openPackage package) := .look _

variable {package : Path} {channel : String} {base : Option String}
  {now : Nat} {content : B} {inspection : PackageInspection}
  {version : Version} {release : Release}

/-- Filing a package: from its document on disk to the end of the
call. -/
def file (now : Nat) (manifest : PluginManifest) (version : Version)
    (release : Release) : Io B Unit := do
  let document ← w.documentFor manifest
  let document ← Effect.lift <|
    addRelease w.semver (shardPath manifest.id) document manifest version
      release
  w.finish (shardPath manifest.id)
    (refreshMetadata w.semver document manifest version) now

theorem add_eq (package : Path) (channel : String) (base : Option String)
    (now : Nat) :
    w.add package channel base now = (do
      let (content, inspection, version) ← w.openPackage package
      w.store package base content inspection.manifest version
      w.file now inspection.manifest version
        (w.releaseAt (w.servedFrom base inspection.manifest version) channel
          now content inspection)) := rfl

theorem destination_plugin (inspection : PackageInspection)
    (version : Version) :
    EndsIn (w.destination inspection version) ".plugin" := by
  unfold destination artifactUrl fileName
  rw [← String.append_assoc]
  exact w.locate_append _ ".plugin" (by decide) (by decide)

theorem own_json (inspection : PackageInspection) :
    EndsIn (w.own inspection) ".json" :=
  w.locate_append _ ".json" (by decide) (by decide)

theorem own_ne_destination :
    w.own inspection ≠ w.destination inspection version := by
  intro h
  have hp := w.destination_plugin inspection version
  rw [← h] at hp
  exact absurd (hp.exclusive (w.own_json inspection)) (by decide)

/-- The document's file holds the document with the package added. -/
def Rewritten (manifest : PluginManifest) (version : Version)
    (release : Release) (before after : Option B) : Prop :=
  ∃ document filed,
    (before.bind w.formats.parseDocument = some document
      ∨ before.bind w.formats.parseDocument = none
        ∧ document = emptyDocument manifest)
    ∧ addRelease w.semver (shardPath manifest.id) document manifest
      version release = .ok filed
    ∧ after = some (w.formats.printDocument (finished w.semver
      (refreshMetadata w.semver filed manifest version)))

/-- What filing a package does to the document's file. -/
def Filed (manifest : PluginManifest) (version : Version)
    (release : Release) (before after : Option B) : Prop :=
  (after = before ∧ ∀ document,
      before.bind w.formats.parseDocument = some document →
      ∃ e, addRelease w.semver (shardPath manifest.id) document manifest
        version release = .error e)
    ∨ w.Rewritten manifest version release before after

theorem file_keeps (h : w.Kept p) (hp : p ≠ w.own inspection) :
    Effect.Keeps (fun t : FileTree B => t.file p)
      (w.file now inspection.manifest version release) := by
  refine .bind (fun t => ?_) fun document => ?_
  · exact congrArg (fun t : FileTree B => t.file p)
      (documentFor_reads inspection.manifest t)
  · exact .bind (.lift _) fun _ => finish_keeps _ now h hp

theorem file_housed : Effect.Maintains FileTree.Housed
    (w.file now inspection.manifest version release) := by
  refine .bind (fun t ht => ?_) fun document => ?_
  · rw [show (w.documentFor inspection.manifest t).2 = t from
      documentFor_reads inspection.manifest t]
    exact ht
  · exact .bind (.lift _) fun _ => finish_housed _ _ now

/-- Filing a package leaves its document as it was, which then refuses
the package or is not there, or writes it with the package. -/
theorem file_own (h : w.Kept (w.own inspection)) {t : FileTree B}
    (ht : t.Housed) :
    w.Filed inspection.manifest version release
      (t.file (w.own inspection))
      ((w.file now inspection.manifest version release t).2.file
        (w.own inspection)) := by
  have hp : ∀ document, (t.file (w.own inspection)).bind
      w.formats.parseDocument = some document →
      w.documentFor inspection.manifest t = (.ok document, t) :=
    fun _ hd => documentFor_present hd
  have hr : (w.documentFor inspection.manifest t).2 = t :=
    documentFor_reads inspection.manifest t
  have hdoc : w.documentFor inspection.manifest t
      = ((w.documentFor inspection.manifest t).1, t) := Prod.ext rfl hr
  unfold file
  rcases error_or_ok (w.documentFor inspection.manifest t).1 with
    ⟨e, he⟩ | ⟨document, hd⟩
  · rw [he] at hdoc
    rw [bind_error hdoc]
    refine .inl ⟨rfl, fun document hd => ?_⟩
    rw [hp document hd] at hdoc
    cases hdoc
  · rw [hd] at hdoc
    rw [bind_ok hdoc]
    have hs : ∀ other, (t.file (w.own inspection)).bind
        w.formats.parseDocument = some other → other = document := by
      intro other ho
      rw [hp other ho] at hdoc
      cases hdoc
      rfl
    rcases error_or_ok (addRelease w.semver
        (shardPath inspection.manifest.id) document inspection.manifest
        version release) with
      ⟨e, hadd⟩ | ⟨filed, hadd⟩
    · rw [bind_error (lift_error hadd t)]
      refine .inl ⟨rfl, fun other ho => ⟨e, ?_⟩⟩
      rw [hs other ho]
      exact hadd
    · rw [bind_ok (lift_ok hadd t)]
      have hdc : (t.file (w.own inspection)).bind
            w.formats.parseDocument = some document
          ∨ (t.file (w.own inspection)).bind w.formats.parseDocument = none
            ∧ document = emptyDocument inspection.manifest := by
        cases hb : (t.file (w.own inspection)).bind
            w.formats.parseDocument with
        | some other => exact .inl (congrArg some (hs other hb))
        | none => exact .inr ⟨rfl, documentFor_absent hb hd⟩
      by_cases hf : t.isFile (w.own inspection)
      · exact .inr ⟨document, filed, hdc, hadd, finish_over _ now h ht hf⟩
      · rcases finish_own (refreshMetadata w.semver filed
          inspection.manifest version) now h t with hold | hnew
        · refine .inl ⟨hold, fun other ho => ?_⟩
          obtain ⟨content, hc, -⟩ := bind_eq_some_iff.1 ho
          exact absurd (isFile_of_file hc) hf
        · exact .inr ⟨document, filed, hdc, hadd, hnew⟩

theorem file_ok (h : w.Kept (w.own inspection)) {t t' : FileTree B}
    (hok : w.file now inspection.manifest version release t = (.ok (), t')) :
    w.Rewritten inspection.manifest version release
      (t.file (w.own inspection)) (t'.file (w.own inspection)) := by
  obtain ⟨document, t₁, hd, hrs⟩ := bind_eq_ok.1 hok
  have ht₁ : t₁ = t := by
    have hr := @documentFor_reads B w inspection.manifest t
    rw [hd] at hr
    exact hr
  obtain ⟨f, t₂, hl, hf⟩ := bind_eq_ok.1 hrs
  have hadd := congrArg Prod.fst hl
  have ht₂ : t₁ = t₂ := congrArg Prod.snd hl
  rw [ht₁] at hd ht₂
  rw [← ht₂] at hf
  refine ⟨document, f, ?_, hadd, finish_ok _ now h hf⟩
  cases hb : (t.file (w.own inspection)).bind w.formats.parseDocument with
  | some other =>
    rw [documentFor_present hb] at hd
    cases hd
    exact .inl rfl
  | none =>
    exact .inr ⟨rfl, documentFor_absent hb (congrArg Prod.fst hd)⟩

-- ---- storing a package

theorem copyFile_keeps (s : Path) {path : Path} (content : B)
    {p : Path} (hp : p ≠ path) :
    Effect.Keeps (fun t : FileTree B => t.file p)
      (w.copyFile s path content) :=
  writeFile_keeps _ hp

theorem store_keeps {p : Path} (hp : p ≠ w.destination inspection version) :
    Effect.Keeps (fun t : FileTree B => t.file p)
      (w.store package base content inspection.manifest version) := by
  cases base with
  | some base => exact .pure _
  | none =>
    refine .bind (createParent_keeps _) fun _ => ?_
    exact copyFile_keeps _ _ hp

theorem store_housed : Effect.Maintains FileTree.Housed
    (w.store package base content inspection.manifest version) := by
  cases base with
  | some base => exact .pure _
  | none =>
    exact .bind (createParent_housed _) fun _ => writeFile_housed _ _

theorem store_eq (hne : package ≠ w.destination inspection version) :
    w.store package none content inspection.manifest version = (do
      w.createParent (w.artifactUrl inspection.manifest version)
      writeFile (w.destination inspection version) content) := by
  have hc : w.copyFile package (w.destination inspection version) content
      = writeFile (w.destination inspection version) content := by
    unfold copyFile
    rw [if_neg hne]
  rw [← hc]
  rfl

theorem store_over {t : FileTree B} (ht : t.Housed)
    (hne : package ≠ w.destination inspection version)
    (hp : t.isFile (w.destination inspection version)) :
    w.store package none content inspection.manifest version t
      = (.ok (), t.write (w.destination inspection version) content) := by
  have h : ¬ t.isDir (w.destination inspection version) := by
    intro h
    rw [isFile_of_isDir h] at hp
    cases hp
  rw [store_eq hne,
    bind_ok (createParent_of_isFile _ ht hp),
    writeFile_ok content (ht _ hp) h]

theorem store_copies (hne : package ≠ w.destination inspection version)
    (t : FileTree B) :
    (∃ e t', w.store package none content inspection.manifest version t
        = (.error e, t') ∧ ∀ p, t'.file p = t.file p)
      ∨ ∃ t', w.store package none content inspection.manifest version t
          = (.ok (), t') ∧ t'.file (w.destination inspection version) = some content := by
  rw [store_eq hne]
  cases hc : w.createParent (w.artifactUrl inspection.manifest version) t with
  | mk r t₁ =>
    have hk : ∀ p, t₁.file p = t.file p := by
      intro p
      have hp := @createParent_keeps B w p
        (w.artifactUrl inspection.manifest version) t
      rw [hc] at hp
      exact hp
    cases r with
    | error e =>
      rw [bind_error hc]
      exact .inl ⟨e, t₁, rfl, hk⟩
    | ok =>
      rw [bind_ok hc]
      cases hw : writeFile (w.destination inspection version) content t₁ with
      | mk r t₂ =>
        have hf := writeFile_file t₁
          (w.destination inspection version) content
        rw [hw] at hf
        rcases hf with ⟨rfl, hf⟩ | ⟨⟨e, rfl⟩, rfl⟩
        · exact .inr ⟨t₂, rfl, hf⟩
        · exact .inl ⟨e, t₂, rfl, hk⟩

/-- What an added package leaves behind: every file as it was, or the
package in its place and its document as filing left it. -/
theorem add_leaves {t : FileTree B} (ht : t.Housed)
    (hop : (w.openPackage package t).1 = .ok (content, inspection, version))
    (hne : package ≠ w.destination inspection version) :
    (∀ p, w.Kept p → (w.add package channel none now t).2.file p = t.file p)
    ∨ (∀ p, w.Kept p → p ≠ w.own inspection →
        (w.add package channel none now t).2.file p
          = if p = w.destination inspection version then some content
            else t.file p)
      ∧ (w.Kept (w.own inspection) →
        w.Filed inspection.manifest version
          (w.releaseOf channel now content inspection version)
          (t.file (w.own inspection))
          ((w.add package channel none now t).2.file
            (w.own inspection))) := by
  have ho' : w.openPackage package t
      = (.ok (content, inspection, version), t) :=
    Prod.ext hop (openPackage_reads package t)
  rw [add_eq, bind_ok ho']
  dsimp only
  rcases store_copies hne t with ⟨e, t₁, hp, hkp⟩ | ⟨t₁, hp, hf⟩
  · rw [bind_error hp]
    exact .inl fun p _ => hkp p
  · rw [bind_ok hp]
    have ht₁ : t₁.Housed := by
      have hh := @store_housed B w package none content inspection version
        t ht
      rw [hp] at hh
      exact hh
    have ho : ∀ p, p ≠ w.destination inspection version →
        t₁.file p = t.file p := by
      intro p hne
      have hk := @store_keeps B w package none content inspection version p
        hne t
      rw [hp] at hk
      exact hk
    refine .inr ⟨fun p hke h => ?_, fun h => ?_⟩
    · refine (file_keeps hke h t₁).trans ?_
      split
      · next hd =>
        rw [hd]
        exact hf
      · next hd => exact ho p hd
    · rw [← ho _ own_ne_destination]
      exact file_own h ht₁

-- ---- changing a release

/-- What changing a release leaves behind: every file as it was but its
document, and that as it was or with the change. -/
theorem updateRelease_leaves (id version : String) (now : Nat)
    (change : Release → Release) (t : FileTree B) :
    (∀ p, w.Kept p → p ≠ w.locate (shardPath id) →
        (w.updateRelease id version now change t).2.file p = t.file p)
      ∧ (w.Kept (w.locate (shardPath id)) →
        (w.updateRelease id version now change t).2.file
            (w.locate (shardPath id)) = t.file (w.locate (shardPath id))
          ∨ ∃ document q,
            (t.file (w.locate (shardPath id))).bind w.formats.parseDocument
                = some document
              ∧ (w.updateRelease id version now change t).2.file
                  (w.locate (shardPath id))
                = some (w.formats.printDocument (finished w.semver
                  { document with
                    releases := updateFirst q change document.releases })))
    := by
  have hrd : w.readDocument (shardPath id) t
      = ((w.readDocument (shardPath id) t).1, t) :=
    Prod.ext rfl (readDocument_reads (shardPath id) t)
  constructor
  · intro p hp hown
    refine (Effect.Keeps.bind (fun s => ?_) fun found => ?_ :
      Effect.Keeps (fun t : FileTree B => t.file p)
        (w.updateRelease id version now change)) t
    · exact congrArg (fun t : FileTree B => t.file p)
        (readDocument_reads (shardPath id) s)
    · refine .bind (.lift _) fun document => ?_
      refine .bind (.lift _) fun wanted => ?_
      exact .bind (.lift _) fun _ => finish_keeps _ now hp hown
  · intro hk
    unfold updateRelease
    rcases error_or_ok (w.readDocument (shardPath id) t).1 with
      ⟨e, he⟩ | ⟨found, hf⟩
    · rw [he] at hrd
      rw [bind_error hrd]
      exact .inl rfl
    · have hfl := readDocument_eq hf
      rw [hf] at hrd
      rw [bind_ok hrd]
      rcases error_or_ok (okOr found (RegistryError.notFound id)) with
        ⟨e, hd⟩ | ⟨document, hd⟩
      · rw [bind_error (lift_error hd t)]
        exact .inl rfl
      · rw [bind_ok (lift_ok hd t)]
        rw [okOr_eq_ok.1 hd] at hfl
        rcases error_or_ok (okOr (w.semver.parseVersion version)
            (RegistryError.invalidDocument (shardPath id)
              ("invalid version " ++ version))) with
          ⟨e, hv⟩ | ⟨wanted, hv⟩
        · rw [bind_error (lift_error hv t)]
          exact .inl rfl
        · rw [bind_ok (lift_ok hv t)]
          rcases error_or_ok (okOr (document.releases.find?
              (isVersion w.semver wanted))
              (RegistryError.notFound (id ++ "@" ++ version))) with
            ⟨e, hr⟩ | ⟨release, hr⟩
          · rw [bind_error (lift_error hr t)]
            exact .inl rfl
          · rw [bind_ok (lift_ok hr t)]
            rcases finish_own { document with
                releases := updateFirst (isVersion w.semver wanted) change
                  document.releases } now hk t with hold | hnew
            · exact .inl hold
            · exact .inr ⟨document, _, hfl.symm, hnew⟩

-- ==== invariants

/-- What is kept of a listed artifact: its file lies in the registry,
outside the catalog, is a package file, and holds what is listed. -/
structure Promise (t : FileTree B) (artifact : Artifact) : Prop where
  root : w.root <+: w.locate artifact.url
  outside : ¬ w.root ++ ["catalog"] <+: w.locate artifact.url
  plugin : EndsIn (w.locate artifact.url) ".plugin"
  holds : ∃ content, t.file (w.locate artifact.url) = some content
    ∧ w.formats.size content = artifact.size
    ∧ w.formats.sha256 content = artifact.sha256

/-- Every listed artifact's promise is kept. -/
def Sure (t : FileTree B) : Prop :=
  ∀ path document artifact, w.Listed t path document artifact →
    w.Promise t artifact

theorem Sure.matches {t : FileTree B} (h : w.Sure t) : w.Matches t := by
  intro path document artifact hl
  have hp := h path document artifact hl
  exact ⟨hp.root, hp.holds⟩

section

variable {t : FileTree B} {artifact : Artifact}

theorem Listed.kept {path : Path} {document : PackageDocument}
    (h : w.Listed t path document artifact) : w.Kept path := by
  refine ⟨fun hc => ?_, .inr ⟨h.index, isJson_iff.1 h.json⟩⟩
  have ha : Path.Apart (w.root ++ ["catalog"]) (w.root ++ ["index"]) :=
    apart_children (by decide)
  exact (ha.below hc h.index).1 (prefix_refl path)

theorem Promise.kept (h : w.Promise t artifact) :
    w.Kept (w.locate artifact.url) :=
  ⟨h.outside, .inl h.plugin⟩

theorem Promise.ne_json (h : w.Promise t artifact) {path : Path}
    (hj : EndsIn path ".json") :
    w.locate artifact.url ≠ path := by
  intro heq
  have hp := h.plugin
  rw [heq] at hp
  exact absurd (hp.exclusive hj) (by decide)

theorem Promise.of_file_eq {t' : FileTree B}
    (h : w.Promise t artifact)
    (hf : t'.file (w.locate artifact.url)
      = t.file (w.locate artifact.url)) : w.Promise t' artifact where
  root := h.root
  outside := h.outside
  plugin := h.plugin
  holds := by
    rw [hf]
    exact h.holds

theorem Listed.of_file_eq {t' : FileTree B} {path : Path}
    {document : PackageDocument} (h : w.Listed t' path document artifact)
    (hf : t'.file path = t.file path) :
    w.Listed t path document artifact where
  index := h.index
  json := h.json
  content := by
    rw [← hf]
    exact h.content
  mem := h.mem

end

theorem Sure.of_kept {t t' : FileTree B} (h : w.Sure t)
    (hk : ∀ p, w.Kept p → t'.file p = t.file p) : w.Sure t' := by
  intro path document artifact hl
  have hp := h path document artifact (hl.of_file_eq (hk path hl.kept))
  exact hp.of_file_eq (hk _ hp.kept)

-- ---- listed releases

section

variable {document : PackageDocument} {manifest : PluginManifest}
  {added : Release} {artifact : Artifact}

/-- What a document lists once a package is added: artifacts that stay,
and the package's own. -/
theorem mem_addRelease {f : PackageDocument} {path : String}
    {release : Release}
    (h : addRelease w.semver path document manifest version added = .ok f)
    (hr : release ∈ f.releases)
    (ha : artifact ∈ release.artifacts) :
    artifact ∈ w.retained document manifest version added
      ∨ artifact ∈ added.artifacts := by
  unfold addRelease at h
  unfold retained
  cases hf : document.releases.find? (isVersion w.semver version) with
  | none =>
    rw [hf] at h
    cases h
    rcases mem_append.1 hr with hr | hr
    · exact .inl (mem_flatMap.2 ⟨release, hr, ha⟩)
    · rw [mem_singleton.1 hr] at ha
      exact .inr ha
  | some existing =>
    rw [hf] at h
    dsimp only at h ⊢
    split at h
    · next hs =>
      cases h
      rw [if_pos hs]
      rcases mem_updateFirst_find hf hr with hr | rfl
      · exact .inl (mem_append_left _ (mem_flatMap.2 ⟨release, hr, ha⟩))
      · rcases mem_append.1 ha with ha | ha
        · exact .inl (mem_append_right _ ha)
        · exact .inr ha
    · cases h

theorem listed_of_retained
    (h : artifact ∈ w.retained document manifest version added) :
    ∃ release ∈ document.releases, artifact ∈ release.artifacts := by
  unfold retained at h
  split at h
  · next e hf =>
    split at h
    · rcases mem_append.1 h with h | h
      · obtain ⟨release, hr, hm⟩ := mem_flatMap.1 h
        exact ⟨release, mem_of_mem_eraseP hr, hm⟩
      · exact ⟨e, mem_of_find?_eq_some hf, (mem_filter.1 h).1⟩
    · obtain ⟨release, hr, hm⟩ := mem_flatMap.1 h
      exact ⟨release, hr, hm⟩
  · obtain ⟨release, hr, hm⟩ := mem_flatMap.1 h
    exact ⟨release, hr, hm⟩

theorem retained_of_refused {path : String} {release : Release}
    {e : RegistryError}
    (h : addRelease w.semver path document manifest version added = .error e)
    (hr : release ∈ document.releases)
    (ha : artifact ∈ release.artifacts) :
    artifact ∈ w.retained document manifest version added := by
  unfold addRelease at h
  unfold retained
  cases hf : document.releases.find? (isVersion w.semver version) with
  | none =>
    rw [hf] at h
    cases h
  | some existing =>
    rw [hf] at h
    dsimp only at h
    split at h
    · cases h
    · next hs =>
      dsimp only
      rw [if_neg hs]
      exact mem_flatMap.2 ⟨release, hr, ha⟩

end

-- ---- steps

theorem Sure.add (hrd : w.formats.ReadsBack) {t : FileTree B}
    (ht : t.Housed) (h : w.Sure t)
    (hsn : w.Sound t (.add package channel now)) :
    w.Sure (w.add package channel none now t).2 := by
  rcases error_or_ok (w.openPackage package t).1 with
    ⟨e, he⟩ | ⟨⟨content, inspection, version⟩, ho⟩
  · have ho : w.openPackage package t = (.error e, t) :=
      Prod.ext he (openPackage_reads package t)
    rw [add_eq, bind_error ho]
    exact h
  · obtain ⟨hne, hro, hc, hag⟩ :=
      hsn content inspection version ho
    rcases @add_leaves B w package channel now content inspection version t
      ht ho hne with hk | ⟨hot, hw⟩
    · exact h.of_kept hk
    · have hne_own : ∀ a, w.Promise t a →
          w.locate a.url ≠ w.own inspection :=
        fun a ha => ha.ne_json (w.own_json inspection)
      -- an artifact that stays listed: its file is the old one, or it
      -- lies where the package was copied and agrees with it
      have hs : ∀ path document artifact,
          w.Listed t path document artifact →
          (path = w.own inspection →
            artifact ∈ w.retained document inspection.manifest version
              (w.releaseOf channel now content inspection version)) →
          w.Promise (w.add package channel none now t).2 artifact := by
        intro path document artifact hl hrt
        have hp := h path document artifact hl
        have hf := hot _ hp.kept (hne_own _ hp)
        by_cases hd : w.locate artifact.url = w.destination inspection version
        · obtain ⟨hsz, hsha⟩ :=
            hag path document artifact hl hd hrt
          rw [if_pos hd] at hf
          exact ⟨hp.root, hp.outside, hp.plugin,
            content, hf, hsz.symm, hsha.symm⟩
        · rw [if_neg hd] at hf
          exact hp.of_file_eq hf
      intro path document artifact hl
      by_cases hpt : path = w.own inspection
      · rw [hpt] at hl
        rcases hw hl.kept with ⟨haf, hrf⟩
          | ⟨before, filed, hb, hadd, haf⟩
        · have hold := hl.of_file_eq haf
          obtain ⟨e, he⟩ := hrf document hold.content
          obtain ⟨release, hrel, hart⟩ := hold.mem
          exact hs _ _ _ hold fun _ => retained_of_refused he hrel hart
        · have hcn := hl.content
          rw [haf, bind_some, hrd] at hcn
          cases hcn
          obtain ⟨release, hrel, hart⟩ := hl.mem
          rw [mem_finished, releases_refreshMetadata] at hrel
          rcases mem_addRelease hadd hrel hart with hold | hn
          · rcases hb with hb | ⟨-, rfl⟩
            · exact hs _ before artifact ⟨hl.index,
                hl.json, hb, listed_of_retained hold⟩
                fun _ => hold
            · obtain ⟨r, hr, -⟩ := listed_of_retained hold
              exact absurd hr not_mem_nil
          · rw [mem_singleton.1 hn]
            have hpl := w.destination_plugin inspection version
            have hf := hot _ ⟨hc, .inl hpl⟩ (Ne.symm own_ne_destination)
            rw [if_pos rfl] at hf
            exact ⟨hro, hc, hpl, content, hf, rfl, rfl⟩
      · have hf : (w.add package channel none now t).2.file path
            = t.file path := by
          rw [hot path hl.kept hpt, if_neg]
          intro hd
          have hpl := w.destination_plugin inspection version
          rw [← hd] at hpl
          exact absurd (hpl.exclusive (isJson_iff.1 hl.json)) (by decide)
        exact hs path document artifact (hl.of_file_eq hf)
          fun heq => absurd heq hpt

/-- Changing a release keeps every promise when the change keeps the
artifacts. -/
theorem Sure.updateRelease (hrd : w.formats.ReadsBack) {t : FileTree B}
    (h : w.Sure t) (id version : String) (now : Nat)
    {change : Release → Release}
    (hchg : ∀ r, (change r).artifacts = r.artifacts) :
    w.Sure (w.updateRelease id version now change t).2 := by
  obtain ⟨ho, hown⟩ := @updateRelease_leaves B w id version now change t
  have hj : EndsIn (w.locate (shardPath id)) ".json" :=
    w.locate_append _ ".json" (by decide) (by decide)
  have hs : ∀ artifact, w.Promise t artifact →
      w.Promise (w.updateRelease id version now change t).2 artifact := by
    intro artifact hp
    exact hp.of_file_eq (ho _ hp.kept (hp.ne_json hj))
  intro path document artifact hl
  apply hs
  by_cases hpt : path = w.locate (shardPath id)
  · rw [hpt] at hl
    rcases hown hl.kept with hold | ⟨b, q, hb, ha⟩
    · exact h _ _ _ (hl.of_file_eq hold)
    · have hc := hl.content
      rw [ha, bind_some, hrd] at hc
      cases hc
      obtain ⟨release, hrel, hart⟩ := hl.mem
      rw [mem_finished] at hrel
      refine h _ b artifact ⟨hl.index, hl.json, hb, ?_⟩
      rcases mem_updateFirst hrel with hold | ⟨r, hr, rfl⟩
      · exact ⟨release, hold, hart⟩
      · exact ⟨r, hr, hchg r ▸ hart⟩
  · exact h _ _ _ (hl.of_file_eq (ho _ hl.kept hpt))

theorem add_housed (package : Path) (channel : String)
    (base : Option String) (now : Nat) :
    Effect.Maintains FileTree.Housed (w.add package channel base now) := by
  refine .bind (.look _) fun opened => ?_
  exact .bind store_housed fun _ => file_housed

theorem updateRelease_housed (id version : String) (now : Nat)
    (c : Release → Release) : Effect.Maintains FileTree.Housed
      (w.updateRelease id version now c) := by
  refine .bind (fun t ht => ?_) fun found => ?_
  · rw [show (w.readDocument (shardPath id) t).2 = t from
      readDocument_reads (shardPath id) t]
    exact ht
  · refine .bind (.lift _) fun document => ?_
    refine .bind (.lift _) fun wanted => ?_
    exact .bind (.lift _) fun _ => finish_housed _ _ now

theorem Sure.elsewhere {t t' : FileTree B} (h : w.Sure t)
    (hs : ∀ p, w.root <+: p → t' p = t p) : w.Sure t' := by
  have hf : ∀ p, w.root <+: p → t'.file p = t.file p := by
    intro p hp
    unfold FileTree.file
    rw [hs p hp]
  intro path document artifact hl
  have hpt : w.root <+: path := (prefix_append _ _).trans hl.index
  have hpr := h path document artifact (hl.of_file_eq (hf path hpt))
  exact hpr.of_file_eq (hf _ hpr.root)

theorem Sure.step (hr : w.formats.ReadsBack) {t t' : FileTree B}
    {a : Action} (h : w.Sure t ∧ t.Housed) (hsn : w.Sound t a)
    (hstep : w.Step t a t') : w.Sure t' ∧ t'.Housed := by
  obtain ⟨hs, ht⟩ := h
  cases a with
  | add package channel now =>
    cases hstep
    exact ⟨hs.add hr ht hsn, add_housed package channel none now t ht⟩
  | yank id version yanked now =>
    cases hstep
    exact ⟨hs.updateRelease hr id version now fun _ => rfl,
      updateRelease_housed id version now _ t ht⟩
  | advise id version advisory now =>
    cases hstep
    exact ⟨hs.updateRelease hr id version now fun _ => rfl,
      updateRelease_housed id version now _ t ht⟩
  | elsewhere => exact ⟨hs.elsewhere hstep.2, hstep.1⟩

theorem add_refused {t : FileTree B} (ht : t.Housed)
    (ho : (w.openPackage package t).1 = .ok (content, inspection, version))
    (hne : package ≠ w.destination inspection version)
    (hp : t.isFile (w.destination inspection version))
    {document : PackageDocument}
    (hd : (t.file (w.own inspection)).bind w.formats.parseDocument
      = some document)
    {e : RegistryError}
    (hr : addRelease w.semver (shardPath inspection.manifest.id)
      document inspection.manifest version
      (w.releaseOf channel now content inspection version) = .error e) :
    w.add package channel none now t
      = (.error e, t.write (w.destination inspection version) content) := by
  have ho' : w.openPackage package t
      = (.ok (content, inspection, version), t) :=
    Prod.ext ho (openPackage_reads package t)
  rw [add_eq, bind_ok ho']
  dsimp only
  rw [bind_ok (store_over ht hne hp)]
  have hown : ((t.write (w.destination inspection version) content).file
      (w.own inspection)).bind w.formats.parseDocument = some document := by
    rw [file_write_ne t content own_ne_destination]
    exact hd
  unfold file
  rw [bind_ok (documentFor_present hown)]
  exact bind_error (lift_error hr _)

end frames

theorem not_listed_of_empty {t : FileTree B}
    (hem : ∀ p, w.root <+: p → t.isFile p = false) {path : Path}
    {document : PackageDocument} {artifact : Artifact} :
    ¬ w.Listed t path document artifact := by
  intro hl
  obtain ⟨content, hc, -⟩ := bind_eq_some_iff.1 hl.content
  have hf := hem path ((prefix_append _ _).trans hl.index)
  rw [isFile_of_file hc] at hf
  cases hf

/-- The files of a small registry: packages by name, documents as they
are. -/
inductive Blob where
  | package (name : String)
  | document (document : PackageDocument)
  | page (page : CatalogPage)
  | config (config : RegistryConfigDocument)
  | truncated

/-- Version 1.0.0 of the plugin "ab". -/
def demoManifest (permissions : List String) : PluginManifest where
  schemaVersion := 3
  id := "ab"
  name := "Demo"
  version := "1.0.0"
  description := none
  icon := none
  tags := []
  runtime := .process
  capabilities := []
  permissions
  protocolVersion := 1
  abiVersion := none
  targets := []
  metadata :=
    { publisher := none, license := none, homepage := none
      repository := none, engine := none, dependencies := []
      categories := [] }

def demoFormats : Formats Blob where
  truncated := .truncated
  size
    | .package name => name.length
    | _ => 0
  sha256
    | .package name => name
    | _ => ""
  inspect
    | .package name =>
      some ⟨demoManifest (if name = "second" then ["audio"] else []),
        none, none⟩
    | _ => none
  printDocument := .document
  parseDocument
    | .document document => some document
    | _ => none
  printPage := .page
  printConfig := .config
  parseConfig
    | .config config => some config
    | _ => none

def demoSemver : Semver where
  parse value := if value = "1.0.0" then some ⟨1, 0, 0, "", ""⟩ else none
  text _ := "1.0.0"
  le _ _ := true
  parseReq _ := none
  isMatch _ _ := false

def demoWriter : IndexWriter Blob where
  root := ["site"]
  name := "demo"
  indexKey := none
  walk _ index := [index ++ ["ab", "__", "ab.json"]]
  formats := demoFormats
  semver := demoSemver

/-- An empty registry, and two packages of one version that ask for
different permissions. -/
def demoDisk : FileTree Blob := FileTree.ofList
  [([], .dir), (["site"], .dir),
    (["first.plugin"], .file (.package "first")),
    (["second.plugin"], .file (.package "second"))]

/-- The first package as the registry files it. -/
def demoFiled : PackageDocument :=
  refreshMetadata demoSemver
    { emptyDocument (demoManifest []) with
      releases := [demoWriter.releaseOf "stable" 0 (.package "first")
        ⟨demoManifest [], none, none⟩ ⟨1, 0, 0, "", ""⟩] }
    (demoManifest []) ⟨1, 0, 0, "", ""⟩

def demoPublished : Path := ["site", "packages", "ab", "ab-1.0.0.plugin"]

/-- The disk once the first package is copied. -/
def demoCopied : FileTree Blob :=
  ((demoDisk.mkdirs ["site", "packages"]).mkdirs
    ["site", "packages", "ab"]).write demoPublished (.package "first")

/-- The disk once the first package is published. -/
def demoFirst : FileTree Blob :=
  (demoWriter.add ["first.plugin"] "stable" none 0 demoDisk).2

theorem demoDisk_housed : demoDisk.Housed := housed_ofList (by decide)

theorem demo_readsBack : demoWriter.formats.ReadsBack := fun _ => rfl

theorem demo_locate_own : demoWriter.locate (shardPath "ab")
    = ["site", "index", "ab", "__", "ab.json"] := by decide

theorem demo_destination (pe : List String) :
    demoWriter.destination ⟨demoManifest pe, none, none⟩
      ⟨1, 0, 0, "", ""⟩ = demoPublished := by
  show demoWriter.locate "packages/ab/ab-1.0.0.plugin" = demoPublished
  decide

theorem demo_kept_own :
    demoWriter.Kept (demoWriter.locate (shardPath "ab")) := by
  refine ⟨?_, .inr ⟨?_, demoWriter.locate_append _ ".json" (by decide)
    (by decide)⟩⟩
  · rw [demo_locate_own]
    decide
  · rw [demo_locate_own]
    decide

theorem demoFirst_eq : demoFirst
    = (demoWriter.finish (shardPath "ab") demoFiled 0 demoCopied).2 := by
  have ho : demoWriter.openPackage ["first.plugin"] demoDisk
      = (.ok (.package "first", ⟨demoManifest [], none, none⟩,
        ⟨1, 0, 0, "", ""⟩), demoDisk) := rfl
  have hpar : demoWriter.createParent
      (demoWriter.artifactUrl (demoManifest []) ⟨1, 0, 0, "", ""⟩) demoDisk
      = (.ok (), (demoDisk.mkdirs ["site", "packages"]).mkdirs
        ["site", "packages", "ab"]) := rfl
  have hc : writeFile (demoWriter.destination
      ⟨demoManifest [], none, none⟩ ⟨1, 0, 0, "", ""⟩)
      (Blob.package "first")
      ((demoDisk.mkdirs ["site", "packages"]).mkdirs
        ["site", "packages", "ab"]) = (.ok (), demoCopied) := rfl
  have hs : demoWriter.store ["first.plugin"] none (.package "first")
      (demoManifest []) ⟨1, 0, 0, "", ""⟩ demoDisk
      = (.ok (), demoCopied) := by
    have hne : ["first.plugin"] ≠ demoWriter.destination
        ⟨demoManifest [], none, none⟩ ⟨1, 0, 0, "", ""⟩ := by
      rw [demo_destination]
      decide
    refine (congrFun (store_eq hne) demoDisk).trans ?_
    rw [bind_ok hpar, hc]
  unfold demoFirst
  rw [add_eq, bind_ok ho]
  dsimp only
  rw [bind_ok hs]
  rfl

theorem demoFirst_housed : demoFirst.Housed :=
  add_housed _ _ _ _ _ demoDisk_housed

theorem demoFirst_document :
    demoFirst.file (demoWriter.locate (shardPath "ab"))
      = some (.document (finished demoSemver demoFiled)) := by
  have hpar : demoWriter.createParent (shardPath "ab") demoCopied
      = (.ok (), ((demoCopied.mkdirs ["site", "index"]).mkdirs
        ["site", "index", "ab"]).mkdirs ["site", "index", "ab", "__"]) := rfl
  rw [demoFirst_eq, finish_own_eq demoFiled 0 demo_kept_own]
  unfold finishDocument writeSigned
  rw [bind_ok hpar, bind_ok (writeFile_ok _ (by rfl) (by decide))]
  refine (writeSignature_keeps _ (demo_kept_own.not_signature _) _).trans ?_
  exact file_write_self _ _ _

theorem demoFirst_package (p : Path) (hp : demoWriter.Kept p)
    (h : p ≠ demoWriter.locate (shardPath "ab")) :
    demoFirst.file p = demoCopied.file p := by
  rw [demoFirst_eq]
  exact finish_keeps demoFiled 0 hp h demoCopied

theorem demoDisk_empty (p : Path) (hp : demoWriter.root <+: p) :
    demoDisk.isFile p = false := by
  by_contra hf
  have hne : demoDisk p ≠ none := by
    intro hn
    unfold FileTree.isFile at hf
    rw [hn] at hf
    exact hf rfl
  have hmem := ofList_mem hne
  simp only [map_cons, map_nil, mem_cons, not_mem_nil, or_false] at hmem
  rcases hmem with rfl | rfl | rfl | rfl
  · exact absurd hp (by decide)
  · exact absurd hf (by decide)
  · exact absurd hp (by decide)
  · exact absurd hp (by decide)

theorem demo_sound : demoWriter.Sound demoDisk
    (.add ["first.plugin"] "stable" 0) := by
  intro content inspection version ho
  have hr : (demoWriter.openPackage ["first.plugin"] demoDisk).1
      = .ok (.package "first", ⟨demoManifest [], none, none⟩,
        ⟨1, 0, 0, "", ""⟩) := rfl
  rw [hr] at ho
  cases ho
  rw [demo_destination]
  refine ⟨by decide, by decide, by decide, ?_⟩
  intro path document artifact hl
  exact absurd hl (demoWriter.not_listed_of_empty demoDisk_empty)

theorem demoFirst_published :
    demoFirst.file demoPublished = some (.package "first") := by
  rw [demoFirst_package demoPublished
    ⟨by decide, .inl ⟨["site", "packages", "ab"], "ab-1.0.0.plugin", rfl,
      by decide⟩⟩
    (by rw [demo_locate_own]; decide)]
  exact file_write_self _ _ _

theorem demoFirst_second :
    demoFirst.file ["second.plugin"] = some (.package "second") := by
  rw [demoFirst_package ["second.plugin"]
    ⟨by decide, .inl ⟨[], "second.plugin", rfl, by decide⟩⟩
    (by rw [demo_locate_own]; decide)]
  rfl

theorem demoSecond_eq :
    (demoWriter.add ["second.plugin"] "stable" none 0 demoFirst).2
      = demoFirst.write demoPublished (.package "second") := by
  have ho : (demoWriter.openPackage ["second.plugin"] demoFirst).1
      = .ok (.package "second", ⟨demoManifest ["audio"], none, none⟩,
        ⟨1, 0, 0, "", ""⟩) := by
    show (okOr (demoFirst.file ["second.plugin"]) _ >>= _) = _
    rw [demoFirst_second]
    rfl
  have hd : (demoFirst.file (demoWriter.own
      ⟨demoManifest ["audio"], none, none⟩)).bind
      demoWriter.formats.parseDocument
      = some (finished demoSemver demoFiled) := by
    show (demoFirst.file (demoWriter.locate (shardPath "ab"))).bind _ = _
    rw [demoFirst_document]
    rfl
  have hadd := @add_refused _ demoWriter ["second.plugin"] "stable" 0 _ _ _ _
    demoFirst_housed ho (by rw [demo_destination]; decide)
    (by
      rw [demo_destination]
      exact isFile_of_file demoFirst_published)
    (finished demoSemver demoFiled) hd _ rfl
  rw [hadd, demo_destination]

end IndexWriter

end TikTools.Index
