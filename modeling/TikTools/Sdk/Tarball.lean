/-
The names of a package tarball, and where they are written.

A name is checked as the platform takes it apart. What is joined to the
destination is the name put together again, with every backslash written
as a slash. On Unix a backslash is a character like any other until
then, and on Windows a component with a drive replaces what was put
together before it. An accepted tarball stays inside the destination
exactly if its names have neither (`extracted_confined_iff`).
-/
import TikTools.Lib.Checked
import TikTools.Plugins.Destinations

namespace TikTools.Sdk.Tarball

open TikTools.Lib List
open TikTools.Plugins (Platform PathText forwardSlashes splitDrive)

-- ==== names

def separates : Platform → Char → Bool
  | .unix, c => c = '/'
  | .windows, c => c = '/' || c = '\\'

/-- A letter and a colon begin a path of their own on Windows. -/
def hasDrive : Platform → PathText → Bool
  | .windows, letter :: ':' :: _ => letter.isAlpha
  | _, _ => false

inductive Component where
  | drive
  | rootDir
  | curDir
  | parentDir
  | normal (name : PathText)
  deriving DecidableEq

/-- `Path::components`. A name with two separators in front has a root,
or on Windows a server: both are refused alike. -/
def pathComponents (p : Platform) (name : PathText) : List Component :=
  let rest := (splitDrive p name).2
  let parts := rest.splitOnP (separates p)
  (if hasDrive p name then [.drive] else [])
    ++ (if rest.any (separates p) ∧ parts.head? = some [] then [.rootDir]
      else if parts.head? = some ['.'] then [.curDir] else [])
    ++ (parts.filter fun part => part ≠ [] ∧ part ≠ ['.']).map fun part =>
      if part = ['.', '.'] then .parentDir else .normal part

def separator : Platform → Char
  | .unix => '/'
  | .windows => '\\'

/-- `PathBuf::push`: a drive replaces the path, and nothing comes between
a drive alone and what is pushed onto it. -/
def push (p : Platform) (path name : PathText) : PathText :=
  if hasDrive p name then name
  else if path = [] ∨ hasDrive p path ∧ path.length = 2 then
    path ++ name
  else path ++ separator p :: name

-- ==== extraction

/-- An entry of the archive; its name is as it displays. -/
structure Entry where
  isFile : Bool
  path : PathText
  bytes : List UInt8
  deriving DecidableEq

structure ExtractedFile where
  relative : PathText
  bytes : List UInt8
  deriving DecidableEq

def maxExtractedFiles : Nat := 4096

def maxExtractedBytes : Nat := 256 * 1024 * 1024

/-- The components below `package`, all of them names. -/
def namesOf (path : PathText) :
    List Component → Except String (List PathText)
  | [] => .ok []
  | .normal name :: rest => do
    let names ← namesOf path rest
    return name :: names
  | _ =>
    .error ("entry " ++ String.ofList path ++ " is not a safe relative path")

def relativeOf (p : Platform) (path : PathText) : Except String PathText :=
  match pathComponents p path with
  | .normal first :: rest => do
    ensure (first = "package".toList)
      ("entry " ++ String.ofList path ++ " escapes the package root")
    let names ← namesOf path rest
    let relative := names.foldl (push p) []
    ensure (relative ≠ []) "archive holds an empty entry path"
    return relative
  | _ => .error ("entry " ++ String.ofList path ++ " escapes the package root")

/-- The loop over the entries; none is an entry that cannot be read. -/
def extractEntries (p : Platform) :
    Nat → Nat → List (Option Entry) → Except String (List ExtractedFile)
  | _, _, [] => .ok []
  | _, _, none :: _ => .error "unreadable entry"
  | files, total, some entry :: entries => do
    ensure (files < maxExtractedFiles) "archive holds more than 4096 files"
    ensure (entry.isFile = true) "archive holds a non-regular file"
    let relative ← relativeOf p entry.path
    ensure (total + entry.bytes.length ≤ maxExtractedBytes)
      "archive extracts to more than 268435456 bytes"
    let rest ←
      extractEntries p (files + 1) (total + entry.bytes.length) entries
    return ⟨forwardSlashes relative, entry.bytes⟩ :: rest

def extractNpmTarball (p : Platform) (archive : List (Option Entry)) :
    Except String (List ExtractedFile) := do
  let files ← extractEntries p 0 0 archive
  ensure (files ≠ []) "archive holds no files"
  return files

/-- Where `write_source_file` writes: a drive or a root replaces the
destination. -/
def written (p : Platform) (dest : List PathText) (relative : PathText) :
    Option (List PathText) :=
  if hasDrive p relative ∨ relative.head? = some '/' then none
  else some ((relative.splitOn '/').foldl (fun place part =>
    if part = [] ∨ part = ['.'] then place
    else if part = ['.', '.'] then place.dropLast
    else place ++ [part]) dest)

-- ==== confinement

def Plain (part : PathText) : Prop :=
  part ≠ [] ∧ part ≠ ['.'] ∧ part ≠ ['.', '.']

/-- The path keeps below the destination, part by part. -/
def Confined (p : Platform) (dest : List PathText) (relative : PathText) :
    Prop :=
  relative ≠ [] ∧ (∀ part ∈ relative.splitOn '/', Plain part)
    ∧ ∃ more ≠ [], written p dest relative = some (dest ++ more)

/-- With backslashes read as separators all parts of the component are
plain, and it has no drive. -/
def Sound (p : Platform) (name : PathText) : Prop :=
  hasDrive p name = false
    ∧ ∀ part ∈ (forwardSlashes name).splitOn '/', Plain part

/-- The components of an entry below `package` are sound. -/
def SoundPath (p : Platform) (path : PathText) : Prop :=
  ∀ name, .normal name ∈ (pathComponents p path).tail → Sound p name

variable {p : Platform} {path name : PathText}

theorem hasDrive_windows {a b : Char} {r : PathText} :
    hasDrive .windows (a :: b :: r) = (b = ':' && a.isAlpha) := by
  by_cases hb : b = ':'
  · subst hb
    rfl
  · simp [hasDrive, hb]

theorem hasDrive_push (hp : path ≠ []) :
    hasDrive p (path ++ separator p :: name) = hasDrive p path := by
  cases p with
  | unix => rfl
  | windows =>
    match path with
    | [_] => rfl
    | _ :: _ :: _ => rw [cons_append, cons_append, hasDrive_windows,
        hasDrive_windows]

theorem hasDrive_append (h : hasDrive p path = true) :
    hasDrive p (path ++ name) = true := by
  cases p with
  | unix => cases h
  | windows =>
    match path with
    | [_] => cases h
    | _ :: _ :: _ =>
      rw [hasDrive_windows] at h
      rwa [cons_append, cons_append, hasDrive_windows]

theorem forwardSlashes_push (hp : path ≠ [])
    (hn : hasDrive p name = false) (h : hasDrive p path = false) :
    forwardSlashes (push p path name)
      = forwardSlashes path ++ '/' :: forwardSlashes name := by
  have hsep : (if separator p = '\\' then '/' else separator p) = '/' := by
    cases p <;> rfl
  unfold push forwardSlashes
  rw [hn, h]
  simp [hp, hsep]

theorem sound_push (hpt : path ≠ []) :
    Sound p (push p path name) ↔ Sound p path ∧ Sound p name := by
  cases hn : hasDrive p name with
  | true => simp [Sound, push, hn]
  | false =>
    cases hold : hasDrive p path with
    | true =>
      have hk : hasDrive p (push p path name) = true := by
        unfold push
        rw [hn]
        split
        · contradiction
        · split <;> exact hasDrive_append hold
      simp [Sound, hk, hold]
    | false =>
      have hpl : push p path name = path ++ separator p :: name := by
        simp [push, hn, hold, hpt]
      have hnew := @hasDrive_push p path name hpt
      rw [← hpl, hold] at hnew
      unfold Sound
      rw [forwardSlashes_push hpt hn hold, hnew, hn, hold,
        splitOn_append_cons_self]
      simp only [true_and, mem_append]
      exact ⟨fun h => ⟨fun part hp => h part (.inl hp),
        fun part hp => h part (.inr hp)⟩,
        fun h part => Or.rec (h.1 part) (h.2 part)⟩

theorem sound_foldl {n : List PathText} (hp : path ≠ []) :
    Sound p (n.foldl (push p) path)
      ↔ Sound p path ∧ ∀ name ∈ n, Sound p name := by
  induction n generalizing path with
  | nil => simp
  | cons name rest ih =>
    have hn : push p path name ≠ [] := by
      unfold push
      split
      · rintro rfl
        cases p <;> contradiction
      · split <;> simp [hp]
    rw [foldl_cons, ih hn, sound_push hp, forall_mem_cons, and_assoc]

theorem hasDrive_forwardSlashes :
    hasDrive p (forwardSlashes path) = hasDrive p path := by
  cases p with
  | unix => rfl
  | windows =>
    match path with
    | [] | [_] => rfl
    | a :: b :: r =>
      show hasDrive .windows (_ :: _ :: forwardSlashes r) = _
      rw [hasDrive_windows, hasDrive_windows]
      by_cases ha : a = '\\' <;> by_cases hb : b = '\\' <;> simp [ha, hb]

theorem confined_iff {dest : List PathText} :
    Confined p dest (forwardSlashes path) ↔ Sound p path := by
  unfold Sound
  rw [← hasDrive_forwardSlashes]
  generalize forwardSlashes path = relative
  constructor
  · rintro ⟨-, hp, more, -, hw⟩
    refine ⟨Bool.eq_false_iff.2 fun hd => ?_, hp⟩
    rw [written, if_pos (.inl hd)] at hw
    cases hw
  · rintro ⟨hd, hp⟩
    have hpl : ∀ place : List PathText, ∀ parts : List PathText,
        (∀ part ∈ parts, Plain part) →
        parts.foldl (fun place part =>
          if part = [] ∨ part = ['.'] then place
          else if part = ['.', '.'] then place.dropLast
          else place ++ [part]) place = place ++ parts := by
      intro place parts hall
      induction parts generalizing place with
      | nil => simp
      | cons part rest ih =>
        obtain ⟨⟨hne, hdot, hup⟩, hr⟩ := forall_mem_cons.1 hall
        rw [foldl_cons, if_neg (not_or.2 ⟨hne, hdot⟩), if_neg hup,
          ih _ hr, append_assoc, singleton_append]
    have hrt : relative.head? ≠ some '/' := by
      intro hh
      obtain ⟨rest, rfl⟩ := head?_eq_some_iff.1 hh
      refine (hp [] ?_).1 rfl
      rw [← nil_append ('/' :: rest), splitOn_append_cons_self]
      exact mem_cons_self
    refine ⟨?_, hp, _, splitOn_ne_nil '/' relative, ?_⟩
    · rintro rfl
      exact (hp [] mem_cons_self).1 rfl
    · rw [written, if_neg (by simp [hd, hrt]), hpl _ _ hp]

theorem normal_ne_nil (h : .normal name ∈ pathComponents p path) :
    name ≠ [] := by
  simp only [pathComponents, mem_append, mem_map, mem_filter] at h
  rcases h with (h | h) | ⟨part, ⟨-, hp⟩, heq⟩
  · split at h <;> simp at h
  · split at h
    · simp at h
    · split at h <;> simp at h
  · split at heq
    · cases heq
    · cases heq
      exact (of_decide_eq_true hp).1

theorem namesOf_ok {rest : List Component} {n : List PathText}
    (h : namesOf path rest = .ok n) : rest = n.map .normal := by
  induction rest generalizing n with
  | nil =>
    cases h
    rfl
  | cons c rest ih =>
    cases c with
    | normal =>
      obtain ⟨more, hmr, h⟩ := bind_eq_ok.1 h
      cases h
      rw [map_cons, ← ih hmr]
    | _ => cases h

theorem relativeOf_spec {r : PathText}
    (h : relativeOf p path = .ok r) :
    Sound p r ↔ SoundPath p path := by
  unfold relativeOf at h
  split at h
  · next first rest heq =>
    obtain ⟨-, h⟩ := ensure_ok.1 h
    obtain ⟨n, hn, h⟩ := bind_eq_ok.1 h
    obtain ⟨hne, h⟩ := ensure_ok.1 h
    cases h
    have hr := namesOf_ok hn
    subst hr
    cases n with
    | nil => exact absurd rfl hne
    | cons name n =>
      have hnm : name ≠ [] := normal_ne_nil (by
        rw [heq]
        exact mem_cons_of_mem _ mem_cons_self)
      have hp : push p [] name = name := by
        unfold push
        split
        · rfl
        · exact if_pos (.inl rfl)
      rw [foldl_cons, hp, sound_foldl hnm, SoundPath, heq, tail_cons]
      simp
  · cases h

theorem extractEntries_confined {dest : List PathText}
    {a : List (Option Entry)} {c t : Nat}
    {f : List ExtractedFile}
    (h : extractEntries p c t a = .ok f) :
    (∀ file ∈ f, Confined p dest file.relative)
      ↔ ∀ e, some e ∈ a → SoundPath p e.path := by
  induction a generalizing f c t with
  | nil =>
    cases h
    simp
  | cons e entries ih =>
    cases e with
    | none => cases h
    | some e =>
      obtain ⟨-, h⟩ := ensure_ok.1 h
      obtain ⟨-, h⟩ := ensure_ok.1 h
      obtain ⟨relative, hrl, h⟩ := bind_eq_ok.1 h
      obtain ⟨-, h⟩ := ensure_ok.1 h
      obtain ⟨rest, hr, h⟩ := bind_eq_ok.1 h
      cases h
      rw [forall_mem_cons, ih hr, confined_iff, relativeOf_spec hrl]
      simp

/-- An accepted tarball keeps to the destination exactly if the components
of its names do. -/
theorem extracted_confined_iff (p : Platform) (dest : List PathText)
    (archive : List (Option Entry)) (files : List ExtractedFile)
    (h : extractNpmTarball p archive = .ok files) :
    (∀ file ∈ files, Confined p dest file.relative)
      ↔ ∀ entry, some entry ∈ archive → SoundPath p entry.path := by
  obtain ⟨found, hf, h⟩ := bind_eq_ok.1 h
  obtain ⟨-, h⟩ := ensure_ok.1 h
  cases h
  exact extractEntries_confined hf

/-- A backslash hides the way up. -/
def climbing : List (Option Entry) :=
  [some ⟨true, "package/..\\evil".toList, []⟩]

theorem backslash_leaves_destination :
    extractNpmTarball .unix climbing
        = .ok [⟨"../evil".toList, []⟩]
      ∧ ¬ Confined .unix ["dest".toList] "../evil".toList := by
  refine ⟨by decide +kernel, fun ⟨_, h, _⟩ => ?_⟩
  exact (h ['.', '.'] (by decide +kernel)).2.2 rfl

theorem climbing_not_sound :
    (∀ file ∈ [ExtractedFile.mk "../evil".toList []],
        Confined .unix ["dest".toList] file.relative)
      ↔ ∀ entry, some entry ∈ climbing → SoundPath .unix entry.path :=
  extracted_confined_iff .unix ["dest".toList] climbing _ (by decide +kernel)

end TikTools.Sdk.Tarball
