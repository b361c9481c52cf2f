/-
Where the entries of an archive are written.

The check of a name is about its text, and the file it leads to is the
platform's affair: a drive letter replaces the staging directory on
Windows, and a "." that a path begins with is a component that tells
two paths apart and leads nowhere.
-/
import TikTools.Plugins.Archive

namespace TikTools.Plugins

open TikTools.Lib List

-- ==== paths of a platform

inductive Platform where
  | unix | windows
  deriving DecidableEq

/-- A path as the platform takes it apart. -/
structure PlatformPath where
  drive : Option Char
  rooted : Bool
  parts : Path
  deriving DecidableEq

/-- A letter and a colon are a prefix on Windows. -/
def splitDrive : Platform → PathText → Option Char × PathText
  | .windows, letter :: ':' :: rest =>
    if letter.isAlpha then (some letter.toUpper, rest)
    else (none, letter :: ':' :: rest)
  | _, text => (none, text)

/-- `PathBuf::from`. -/
def platformPath (p : Platform) (text : PathText) : PlatformPath where
  drive := (splitDrive p text).1
  rooted := (splitDrive p text).2.head? = some '/'
  parts := (components (splitDrive p text).2).filter (· ≠ "")

namespace PlatformPath

/-- Where `Path::join` leads: a path with a drive replaces the base, and
one with a root replaces all of it but the drive. -/
def join (base relative : PlatformPath) : PlatformPath :=
  if relative.drive ≠ none then
    { relative with parts := resolve relative.parts }
  else if relative.rooted then
    { relative with drive := base.drive, parts := resolve relative.parts }
  else { base with parts := base.parts ++ resolve relative.parts }

def Inside (path base : PlatformPath) : Prop :=
  path.drive = base.drive ∧ path.rooted = base.rooted
    ∧ base.parts <+: path.parts ∧ path.parts ≠ base.parts

/-- The same path with a "." in front. -/
def dotted (path : PlatformPath) : PlatformPath :=
  { path with parts := "." :: path.parts }

end PlatformPath

/-- An absolute staging directory. -/
def stagingDir (drive : Option Char) (parts : Path) : PlatformPath :=
  ⟨drive, true, parts⟩

variable {B : Type}

/-- The files the loop of `extract` creates, in order: an entry is
refused whose path was there before. -/
def writtenFiles (p : Platform) (staging : PlatformPath) :
    List PlatformPath → List (ArchiveEntry B) →
    Except ArchiveError (List PlatformPath)
  | _, [] => .ok []
  | seen, entry :: entries =>
    match normalizedArchivePath entry.name with
    | .error error => .error error
    | .ok none => writtenFiles p staging seen entries
    | .ok (some text) =>
      let relative := platformPath p text
      if relative ∈ seen then .error (.duplicatePath entry.name)
      else
        let files := writtenFiles p staging (relative :: seen) entries
        if entry.isDir then files
        else files.map (staging.join relative :: ·)

-- ==== accepted names

variable {p : Platform} {name : String} {text : PathText}
variable {a b : PlatformPath}

theorem mem_components {c : String} (h : c ∈ components text) :
    ∃ part ∈ text.splitOn '/', c = String.ofList part := by
  unfold components at h
  split at h
  case h_1 => cases h
  case h_2 first rest hs =>
    obtain ⟨part, hp, rfl⟩ := mem_map.1 h
    refine ⟨part, ?_, rfl⟩
    rw [hs]
    rcases mem_cons.1 hp with rfl | hp
    · exact mem_cons_self
    · exact mem_cons_of_mem _ (mem_of_mem_filter hp)

theorem components_mem {pa : List Char} (h : pa ∈ text.splitOn '/')
    (hdot : pa ≠ ['.']) : String.ofList pa ∈ components text := by
  unfold components
  cases hs : text.splitOn '/' with
  | nil => simp [hs] at h
  | cons first rest =>
    rw [hs] at h
    refine mem_map_of_mem ?_
    rcases mem_cons.1 h with rfl | h
    · exact mem_cons_self
    · exact mem_cons_of_mem _ (mem_filter.2 ⟨h, by simpa⟩)

theorem dot_not_mem_tail : "." ∉ (platformPath p text).parts.tail := by
  unfold platformPath components
  split
  case h_1 => simp
  case h_2 first rest _ =>
    have hr : "." ∉ ((rest.filter fun pa => pa ≠ ['.']).map
        String.ofList).filter (· ≠ "") := by
      intro h
      obtain ⟨pa, hp, heq⟩ := mem_map.1 (mem_of_mem_filter h)
      have hdot : pa = ['.'] := by
        rw [← String.toList_ofList (l := pa), heq]
        rfl
      simp [hdot] at hp
    rw [map_cons, filter_cons]
    split
    · exact hr
    · exact fun h => hr (mem_of_mem_tail h)

section

variable (h : normalizedArchivePath name = .ok (some text))
include h

theorem not_rooted :
    (platformPath p text).rooted = false := by
  obtain ⟨hs, hb⟩ := normalizedArchivePath_ok h
  unfold isSafeRelativePath at hs
  rw [forwardSlashes_id hb] at hs
  simp only [Bool.and_eq_true, decide_eq_true_eq] at hs
  have hh := hs.1.1.1.2
  have hc := hs.1.1.2
  unfold platformPath splitDrive
  split
  case h_1 letter rest =>
    split
    case isTrue =>
      rw [decide_eq_false_iff_not]
      intro hr
      obtain ⟨more, rfl⟩ := head?_eq_some_iff.1 hr
      simp at hc
    case isFalse => simpa using hh
  case h_2 => simpa using hh

omit h in
theorem splitDrive_none (h : (splitDrive p text).1 = none) :
    splitDrive p text = (none, text) := by
  unfold splitDrive
  split
  case h_1 letter rest =>
    have hf : (if letter.isAlpha then (some letter.toUpper, rest)
        else (none, letter :: ':' :: rest)).1 = none := h
    split at hf
    case isTrue => cases hf
    case isFalse hl => rw [if_neg hl]
  case h_2 => rfl

/-- A name whose file lies in the staging directory: without a drive,
and not of dots alone. -/
def StaysInside (p : Platform) (text : PathText) : Prop :=
  (splitDrive p text).1 = none ∧ ∃ part ∈ text.splitOn '/', part ≠ ['.']

theorem inside_iff (drive : Option Char) (base : Path) :
    ((stagingDir drive base).join (platformPath p text)).Inside
        (stagingDir drive base) ↔ StaysInside p text := by
  have hr := @not_rooted p name text h
  unfold PlatformPath.join StaysInside
  by_cases hd : (splitDrive p text).1 = none
  · have hbl : resolve (platformPath p text).parts ≠ []
        ↔ ∃ part ∈ text.splitOn '/', part ≠ ['.'] := by
      unfold platformPath
      rw [splitDrive_none hd]
      constructor
      · intro hne
        obtain ⟨c, hc⟩ := exists_mem_of_ne_nil _ hne
        simp only [resolve, mem_filter, decide_eq_true_eq] at hc
        obtain ⟨part, hp, rfl⟩ := mem_components hc.1.1
        exact ⟨part, hp, by rintro rfl; exact hc.2 rfl⟩
      · rintro ⟨part, hp, hdot⟩ hnil
        obtain ⟨hs, hb⟩ := normalizedArchivePath_ok h
        have hne := (safe_parts hs hb hp).1
        have hmem := components_mem hp hdot
        have hin : String.ofList part
            ∈ resolve ((components text).filter (· ≠ "")) := by
          simp only [resolve, mem_filter, decide_eq_true_eq]
          refine ⟨⟨hmem, ?_⟩, ?_⟩
          · rw [Ne, ← String.toList_inj, String.toList_ofList]
            exact hne
          · rw [Ne, ← String.toList_inj, String.toList_ofList]
            exact hdot
        rw [hnil] at hin
        cases hin
    have hn : (platformPath p text).drive = none := hd
    rw [if_neg (not_not_intro hn), if_neg (by simp [hr]), ← hbl]
    simp [PlatformPath.Inside, stagingDir, hd]
  · have hsm : (platformPath p text).drive ≠ none := hd
    rw [if_pos hsm]
    simp [PlatformPath.Inside, stagingDir, hd, hr]

end

-- ==== one file for two entries

theorem join_eq_iff (ha : a.rooted = false) (hb : b.rooted = false)
    (d : Option Char) (ba : Path) :
    (stagingDir d ba).join a = (stagingDir d ba).join b
      ↔ a.drive = b.drive ∧ resolve a.parts = resolve b.parts := by
  unfold PlatformPath.join stagingDir
  rw [ha, hb]
  by_cases hda : a.drive = none <;> by_cases hdb : b.drive = none
  · simp [hda, hdb]
  · simp [hda, hdb, Ne.symm hdb]
  · simp [hda, hdb]
  · simp [hda, hdb]

theorem resolve_cons {f : String} {rest : Path} (h : "." ∉ rest) :
    resolve (f :: rest) = if f = "." then rest else f :: rest := by
  have hr : resolve rest = rest := by
    unfold resolve
    rw [filter_eq_self]
    intro c hc
    simpa using fun heq : c = "." => h (heq ▸ hc)
  unfold resolve at hr ⊢
  rw [filter_cons, hr]
  by_cases hdot : f = "." <;> simp [hdot]

theorem resolve_eq_iff {l l' : Path} (hl : "." ∉ l.tail)
    (hl' : "." ∉ l'.tail) (hne : l ≠ l') :
    resolve l = resolve l' ↔ l = "." :: l' ∨ l' = "." :: l := by
  cases l with
  | nil =>
    cases l' with
    | nil => exact absurd rfl hne
    | cons f rest =>
      rw [@resolve_cons f rest hl']
      by_cases hdot : f = "."
      · subst hdot
        simp [resolve, eq_comm]
      · simp [resolve, hdot]
  | cons f rest =>
    cases l' with
    | nil =>
      rw [@resolve_cons f rest hl]
      by_cases hdot : f = "."
      · subst hdot
        simp [resolve]
      · simp [resolve, hdot]
    | cons f' rest' =>
      rw [@resolve_cons f rest hl, @resolve_cons f' rest' hl']
      by_cases hdot : f = "." <;> by_cases hdot' : f' = "."
      · subst hdot hdot'
        rw [if_pos rfl, if_pos rfl]
        have hr : rest ≠ rest' := fun h => hne (h ▸ rfl)
        simp only [hr, false_iff, not_or, List.cons.injEq, true_and]
        exact ⟨fun h => hl (h ▸ mem_cons_self),
          fun h => hl' (h ▸ mem_cons_self)⟩
      · subst hdot
        simp [hdot']
      · subst hdot'
        simp [hdot, eq_comm]
      · rw [if_neg hdot, if_neg hdot']
        simp_all

/-- A file entry and its path. -/
def FileAt (p : Platform) (archive : List (ArchiveEntry B))
    (path : PlatformPath) : Prop :=
  ∃ entry ∈ archive, entry.isDir = false
    ∧ ∃ text, normalizedArchivePath entry.name = .ok (some text)
      ∧ path = platformPath p text

theorem writtenFiles_ok {staging : PlatformPath}
    {ar : List (ArchiveEntry B)} :
    ∀ {seen files : List PlatformPath},
      writtenFiles p staging seen ar = .ok files →
      ∃ paths : List PlatformPath, paths.Nodup ∧ (∀ path ∈ paths, path ∉ seen)
        ∧ files = paths.map staging.join
        ∧ ∀ path, path ∈ paths ↔ FileAt p ar path := by
  induction ar with
  | nil =>
    rintro seen _ ⟨⟩
    exact ⟨[], nodup_nil, nofun, rfl, by simp [FileAt]⟩
  | cons entry entries ih =>
    intro seen files h
    unfold writtenFiles at h
    split at h
    case h_1 => cases h
    case h_2 hnn =>
      obtain ⟨paths, hn, hs, hf, hp⟩ := ih h
      exact ⟨paths, hn, hs, hf, by simp [hp, FileAt, hnn]⟩
    case h_3 text ht =>
      dsimp only at h
      split at h
      case isTrue => cases h
      case isFalse hnew =>
        split at h
        case isTrue hdir =>
          obtain ⟨paths, hn, hs, hf, hp⟩ := ih h
          exact ⟨paths, hn,
            fun path hpt hin => hs path hpt (mem_cons_of_mem _ hin),
            hf, by simp [hp, FileAt, hdir]⟩
        case isFalse hfl =>
          cases hr : writtenFiles p staging
              (platformPath p text :: seen) entries with
          | error error =>
            rw [hr] at h
            cases h
          | ok rest =>
            rw [hr] at h
            cases h
            obtain ⟨paths, hn, hs, rfl, hp⟩ := ih hr
            refine ⟨platformPath p text :: paths, nodup_cons.2
              ⟨fun hin => hs _ hin mem_cons_self, hn⟩, ?_, rfl,
              fun path => ?_⟩
            · rintro path hpt
              rcases mem_cons.1 hpt with rfl | hpt
              · exact hnew
              · exact fun hin =>
                  hs path hpt (mem_cons_of_mem _ hin)
            · simp [hp, FileAt, ht, hfl]

/-- An accepted name's file lies in the staging directory exactly if it
has no drive and is not made of dots alone; two accepted entries write
one file exactly if the path of one is that of the other with a "." in
front. -/
theorem extraction_confined_iff (p : Platform) (drive : Option Char)
    (base : Path) :
    (∀ name text, normalizedArchivePath name = .ok (some text) →
      (((stagingDir drive base).join (platformPath p text)).Inside
        (stagingDir drive base) ↔ StaysInside p text))
    ∧ ∀ (archive : List (ArchiveEntry B)) files,
      writtenFiles p (stagingDir drive base) [] archive = .ok files →
      (files.Nodup ↔ ∀ a b, FileAt p archive a → FileAt p archive b →
        a ≠ b.dotted) := by
  refine ⟨fun name text h => inside_iff h drive base,
    fun archive files h => ?_⟩
  obtain ⟨paths, hn, -, rfl, hp⟩ := writtenFiles_ok h
  have hpl : ∀ path ∈ paths, path.rooted = false
      ∧ "." ∉ path.parts.tail := by
    intro path hpt
    obtain ⟨_, -, -, text, ht, rfl⟩ := (hp path).1 hpt
    exact ⟨not_rooted ht, dot_not_mem_tail⟩
  have hj : ∀ a ∈ paths, ∀ b ∈ paths, a ≠ b →
      ((stagingDir drive base).join a = (stagingDir drive base).join b
        ↔ a = b.dotted ∨ b = a.dotted) := by
    intro a ha b hb hne
    obtain ⟨har, had⟩ := hpl a ha
    obtain ⟨hbr, hbd⟩ := hpl b hb
    rw [join_eq_iff har hbr]
    obtain ⟨_, _, l⟩ := a
    obtain ⟨_, _, l'⟩ := b
    cases har
    cases hbr
    simp only [PlatformPath.dotted, PlatformPath.mk.injEq, true_and]
    by_cases hpr : l = l'
    · subst hpr
      simp_all
    · rw [resolve_eq_iff had hbd hpr]
      tauto
  rw [nodup_map_iff_inj_on hn]
  constructor
  · intro hinj a b ha hb hd
    have hne : a ≠ b := by
      rintro rfl
      have := congrArg (fun path => path.parts.length) hd
      simp [PlatformPath.dotted] at this
    have ha' := (hp a).2 ha
    have hb' := (hp b).2 hb
    exact hne (hinj a ha' b hb' ((hj a ha' b hb' hne).2 (.inl hd)))
  · intro hdt a ha b hb heq
    by_contra hne
    have ha' := (hp a).1 ha
    have hb' := (hp b).1 hb
    rcases (hj a ha b hb hne).1 heq with h | h
    · exact hdt a b ha' hb' h
    · exact hdt b a hb' ha' h

theorem drive_leaves_staging :
    ¬ ∀ (p : Platform) (drive : Option Char) (base : Path) (name : String)
      (text : PathText), normalizedArchivePath name = .ok (some text) →
      ((stagingDir drive base).join (platformPath p text)).Inside
        (stagingDir drive base) := by
  intro h
  have hin := h .windows (some 'C') ["staging"] "C:x" ['C', ':', 'x']
    (by decide +kernel)
  exact absurd hin.2.1 (by decide +kernel)

end TikTools.Plugins
