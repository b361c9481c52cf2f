/-
Copying a package into its destination.

What was selected of a package are paths that lead down, none of them
behind another's file (`checkPackage_sound`); the disk's names must hold
no backslash for that, or the walk of the package mistakes them for
several. Copied into an empty directory such files fill it one by one:
`Filling` says what the directory holds on the way, and that nothing
outside it changes.
-/
import TikTools.Sdk.Walk

namespace TikTools.Sdk

open TikTools.Lib
open TikTools.Lib.Disk
open TikTools.Plugins (PathText forwardSlashes isSafeRelativePath components
  resolve endsInDot stripDot forwardSlashes_id not_mem_splitOn)
open List Effect

-- ==== the selection

section

variable {B : Type} {sys : System B} {faults : Faults B} {disk : Disk B}

/-- What the copying relies on: there is a file, the paths lead down,
and no file's path goes on behind another's. -/
structure Sound (files : List (StagedFile B)) : Prop where
  some_file : files ≠ []
  leads : ∀ file ∈ files,
    Descends (steps file.relative) ∧ steps file.relative ≠ []
  apart : ∀ file ∈ files, ∀ other ∈ files, ∀ more, more ≠ [] →
    steps other.relative ≠ steps file.relative ++ more

variable {source : List String}

theorem sized_ok {r : PathText} {file : StagedFile B}
    (h : sized sys disk source r = .ok file) :
    file.relative = r
      ∧ ∃ p, disk.follow sys.links [] (source ++ steps r) = .file p := by
  unfold sized at h
  split at h
  · next p hp =>
    split at h
    · split at h <;> cases h
      exact ⟨rfl, p, hp⟩
    · cases h
  · cases h

theorem mapM_sized :
    ∀ {se : List PathText} {files : List (StagedFile B)},
      se.mapM (sized sys disk source) = .ok files →
      files.map StagedFile.relative = se
        ∧ ∀ file ∈ files, ∃ p, disk.follow sys.links []
          (source ++ steps file.relative) = .file p
  | [], files, h => by
    cases h
    exact ⟨rfl, nofun⟩
  | relative :: rest, files, h => by
    rw [mapM_cons] at h
    obtain ⟨file, hfl, h⟩ := bind_eq_ok.1 h
    obtain ⟨others, ho, h⟩ := bind_eq_ok.1 h
    cases h
    obtain ⟨heq, p, hp⟩ := sized_ok hfl
    obtain ⟨hmp, hot⟩ := mapM_sized ho
    exact ⟨by rw [map_cons, heq, hmp],
      forall_mem_cons.2 ⟨⟨p, by rw [heq, hp]⟩, hot⟩⟩

variable [DecidableEq B] {request : NativeStageRequest}

/-- An accepted package. -/
structure Package (sys : System B) (faults : Faults B)
    (request : NativeStageRequest) (disk : Disk B) (manifest : Json)
    (top : Path) (files : List (StagedFile B)) : Prop where
  manifest_eq : readPackageManifest sys faults disk request.source
    = .ok manifest
  source : ∃ left, disk.follow sys.links [] request.source = .dir top left
  some_file : files ≠ []
  found : ∀ file ∈ files, ∃ p, disk.follow sys.links []
    (request.source ++ steps file.relative) = .file p
  in_order : files.Pairwise fun a b => textLe a.relative b.relative
  once : (files.map StagedFile.relative).Nodup
  entrypoints : ∀ found, requiredEntrypoints manifest = .ok found →
    ∀ entrypoint ∈ found, ∃ file ∈ files, file.relative = entrypoint
  mem : ∀ relative, (∃ file ∈ files, file.relative = relative)
    ↔ isWanted (filesAllowlist manifest) relative = true
      ∧ Packed disk top relative

theorem checkPackage_ok {files : List (StagedFile B)}
    (hwf : disk.WellFormed) (hpr : Portable disk)
    (h : checkPackage sys faults request disk = .ok files) :
    ∃ m top, Package sys faults request disk m top files := by
  obtain ⟨m, hman, h⟩ := bind_eq_ok.1 h
  obtain ⟨-, h⟩ := ensure_ok.1 h
  obtain ⟨entrypoints, hent, h⟩ := bind_eq_ok.1 h
  obtain ⟨selected, hsel, h⟩ := bind_eq_ok.1 h
  obtain ⟨-, h⟩ := ensure_ok.1 h
  obtain ⟨found, hfn, h⟩ := bind_eq_ok.1 h
  obtain ⟨hbn, h⟩ := ensure_ok.1 h
  split at h
  · cases h
  next hn =>
  cases h
  obtain ⟨top, left, hs, ho, hmem⟩ := selected_packed hwf hpr hsel
  obtain ⟨hmap, hfo⟩ := mapM_sized hfn
  have hp := perm_insertionSort (fun a b : StagedFile B =>
    textLe a.relative b.relative) found
  have hin (r : PathText) : (∃ file ∈ found.insertionSort fun a b =>
      textLe a.relative b.relative, file.relative = r) ↔ r ∈ selected := by
    rw [← hmap, mem_map]
    simp only [hp.mem_iff]
  have ht : Std.Total fun a b : StagedFile B =>
      textLe a.relative b.relative := ⟨fun _ _ => String.le_total ..⟩
  have htr : IsTrans (StagedFile B) fun a b =>
      textLe a.relative b.relative := ⟨fun _ _ _ => String.le_trans⟩
  refine ⟨m, top, hman, ⟨left, hs⟩, ?_, ?_,
    pairwise_insertionSort _ found, ?_, ?_,
    fun r => (hin r).trans (hmem r)⟩
  · obtain ⟨file, hf, -⟩ := any_eq_true.1 hbn
    exact ne_nil_of_mem (hp.mem_iff.2 hf)
  · exact fun file hf => hfo file (hp.mem_iff.1 hf)
  · exact (hp.map _).nodup_iff.2 (hmap ▸ ho)
  · intro found' hf' e he
    cases hent.symm.trans hf'
    have hany := find?_eq_none.1 hn e he
    rw [Bool.not_eq_true, Bool.not_eq_false', any_eq_true] at hany
    obtain ⟨file, hf, heq⟩ := hany
    exact ⟨file, hp.mem_iff.2 hf, of_decide_eq_true heq⟩

theorem checkPackage_sound (hwf : disk.WellFormed) (hpr : Portable disk)
    {files : List (StagedFile B)}
    (h : checkPackage sys faults request disk = .ok files) :
    Sound files := by
  obtain ⟨manifest, top, hpk⟩ := checkPackage_ok hwf hpr h
  have htop := follow_isDir hwf rfl hpk.source.choose_spec
  refine ⟨hpk.some_file, fun file hf => ?_,
    fun file hf o ho more hne heq => ?_⟩
  · obtain ⟨-, dir, path, name, content, hr, hfl, heq⟩ :=
      (hpk.mem _).1 ⟨file, hf, rfl⟩
    obtain ⟨hl, hst⟩ := leads_relativeTo hwf hpr (by rw [hfl]; nofun)
      (hr.known hwf hpr htop).leads
    exact heq ▸ ⟨hl.1, hst⟩
  · obtain ⟨p, hp⟩ := hpk.found file hf
    obtain ⟨q, hq⟩ := hpk.found o ho
    have hb := follow_file_append hne hp
    rw [append_assoc, ← heq, hq] at hb
    cases hb

end

-- ==== making directories

/-- The directories on a way down from one. -/
def below (base : Path) : List String → List Path
  | [] => []
  | name :: rest => (base ++ [name]) :: below (base ++ [name]) rest

theorem mem_below {p : Path} (rest : List String) (base : Path) :
    p ∈ below base rest ↔ base <+: p ∧ p ≠ base ∧ p <+: base ++ rest := by
  induction rest generalizing base with
  | nil =>
    rw [append_nil]
    refine ⟨nofun, fun ⟨h1, h2, h3⟩ => absurd ?_ h2⟩
    exact h3.eq_of_length_le h1.length_le
  | cons name rest ih =>
    rw [below, mem_cons, ih]
    constructor
    · rintro (rfl | ⟨h1, -, h3⟩)
      · exact ⟨prefix_append _ _, by simp, ⟨rest, by simp⟩⟩
      · refine ⟨(prefix_append _ _).trans h1, ?_, by simpa using h3⟩
        rintro rfl
        have hlen := h1.length_le
        rw [length_append, length_singleton] at hlen
        omega
    · rintro ⟨⟨more, rfl⟩, hne, h3⟩
      rw [prefix_append_right_inj] at h3
      cases more with
      | nil => exact absurd (append_nil base) hne
      | cons c more =>
        obtain ⟨rfl, ht⟩ := cons_prefix_cons.1 h3
        by_cases hmr : more = []
        · rw [hmr]
          exact .inl rfl
        · refine .inr ⟨⟨more, by simp⟩, by simpa using hmr, ?_⟩
          simpa using ht

section

variable {B : Type}

theorem find_makeAll (r : List String) (s : Staging B) (base p : Path) :
    (s.makeAll base r).disk.find p
      = if p ∈ below base r then some .dir else s.disk.find p := by
  induction r generalizing s base with
  | nil => rfl
  | cons n r ih =>
    rw [Staging.makeAll, ih, below]
    have hput : (s.make (base ++ [n])).disk.find p
        = if p = base ++ [n] then some .dir else s.disk.find p :=
      find_put _ _ _ _ (by simp)
    rw [hput]
    by_cases hr : p ∈ below (base ++ [n]) r
    · rw [if_pos hr, if_pos (mem_cons_of_mem _ hr)]
    · rw [if_neg hr]
      by_cases heq : p = base ++ [n]
      · rw [if_pos heq, if_pos (by rw [heq]; exact mem_cons_self)]
      · rw [if_neg heq, if_neg]
        intro h
        exact (mem_cons.1 h).elim heq hr

theorem touched_makeAll (r : List String) (s : Staging B) (base : Path) :
    (s.makeAll base r).touched = s.touched ++ (below base r).map .made := by
  induction r generalizing s base with
  | nil => exact (append_nil _).symm
  | cons name r ih =>
    rw [Staging.makeAll, ih, below, map_cons]
    exact append_assoc _ _ _

variable {base : Path}

variable {s : Staging B}

theorem leaf_makeAll
    (hn : ∀ p ∈ below base rest, s.disk.find p = none) (p : Path) :
    (s.makeAll base rest).disk.leaf p = s.disk.leaf p := by
  by_cases h : p ∈ below base rest
  · rw [leaf_eq_none_iff.2 (.inl (hn p h)), leaf_eq_none_iff]
    exact .inr (by rw [find_makeAll, if_pos h])
  · exact leaf_congr (by rw [find_makeAll, if_neg h])

theorem below_missing {disk : Disk B} (hwf : disk.WellFormed)
    (hf : ∀ name more, rest = name :: more →
      disk.find (base ++ [name]) = none) :
    ∀ p ∈ below base rest, disk.find p = none := by
  intro p hp
  cases rest with
  | nil => cases hp
  | cons name more =>
    rcases mem_cons.1 hp with rfl | hp
    · exact hf name more rfl
    · by_contra hs
      exact hwf.exists_of_prefix ((mem_below _ _).1 hp).1 hs
        (hf name more rfl)

-- ==== copying

/-- What the files copied so far put at a place; the last one counts. -/
def placed (files : List (StagedFile B)) (relative : Path) :
    Option (Node B) :=
  (files.reverse.find? fun file => steps file.relative = relative).map
    fun file => .file file.content

theorem placed_snoc (files : List (StagedFile B)) (file : StagedFile B)
    (relative : Path) : placed (files ++ [file]) relative
      = if steps file.relative = relative then some (.file file.content)
        else placed files relative := by
  unfold placed
  rw [reverse_append, reverse_singleton, singleton_append, find?_cons]
  by_cases h : steps file.relative = relative
  · rw [if_pos h, decide_eq_true h]
    rfl
  · rw [if_neg h, decide_eq_false h]

variable {files : List (StagedFile B)}

theorem placed_some {relative : Path} {node : Node B}
    (h : placed files relative = some node) :
    ∃ file ∈ files, steps file.relative = relative := by
  obtain ⟨file, hf, -⟩ := Option.map_eq_some_iff.1 h
  refine ⟨file, mem_reverse.1 (mem_of_find?_eq_some hf), ?_⟩
  simpa using find?_some hf

/-- What a failing copy leaves of its file. -/
def CopyFault.left (file : StagedFile B) :
    CopyFault B → List (StagedFile B)
  | .parents _ => []
  | .content none => []
  | .content (some part) => [{ file with content := part }]

/-- What is copied until a copy fails. -/
def copied : List (StagedFile B) → Option (Nat × CopyFault B) →
    List (StagedFile B)
  | [], _ => []
  | file :: rest, none => file :: copied rest none
  | file :: _, some (0, fault) => fault.left file
  | file :: rest, some (n + 1, fault) => file :: copied rest (some (n, fault))

/-- A copy fails. -/
def stops : List (StagedFile B) → Option (Nat × CopyFault B) → Bool
  | [], _ => false
  | _ :: rest, none => stops rest none
  | _ :: _, some (0, _) => true
  | _ :: rest, some (n + 1, fault) => stops rest (some (n, fault))

/-- A failing copy changes nothing. -/
def CopyFault.idle (path : List String) : CopyFault B → Bool
  | .parents made => (path.dropLast.take made).isEmpty
  | .content left => path.dropLast.isEmpty && left.isNone

def idleCopies (files : List (StagedFile B))
    (copy : Option (Nat × CopyFault B)) : Bool :=
  match files, copy with
  | [], _ => true
  | file :: _, some (0, fault) => fault.idle (steps file.relative)
  | _ :: _, _ => false

variable {sys : System B}

/-- A destination `d` that is being filled with `files`, from `start`
on: `done` is what has been copied. -/
structure Filling (d : Path) (files : List (StagedFile B))
    (start : Staging B) (done : List (StagedFile B)) (s : Staging B) :
    Prop where
  dir : s.disk.find d = some .dir
  outside : ∀ p, ¬ d <+: p → s.disk.find p = start.disk.find p
  /-- A directory lies on the way to a file. -/
  dirs : ∀ relative, relative ≠ [] →
    s.disk.find (d ++ relative) = some .dir →
    ∃ file ∈ files, ∃ more, more ≠ [] ∧ steps file.relative = relative ++ more
  links : ∀ relative, s.disk.isLink (d ++ relative) = false
  leaves : ∀ relative, s.disk.leaf (d ++ relative) = placed done relative
  known : ∀ file ∈ done, ∃ file' ∈ files, file'.relative = file.relative
  touched : ∃ new, s.touched = start.touched ++ new
    ∧ ∀ t ∈ new, d <+: t.path ∧ t.path ≠ d

theorem Filling.start {d : Path} (hd : s.disk.find d = some .dir)
    (hem : ∀ relative, relative ≠ [] → s.disk.find (d ++ relative) = none) :
    Filling d files s [] s where
  dir := hd
  outside _ _ := rfl
  dirs relative hne h := by
    rw [hem relative hne] at h
    cases h
  links relative := by
    by_cases h : relative = []
    · rw [h, append_nil]
      exact isLink_of_dir hd
    · unfold isLink
      rw [hem relative h]
  leaves relative := by
    show _ = none
    rw [leaf_eq_none_iff]
    by_cases h : relative = []
    · rw [h, append_nil]
      exact .inr hd
    · exact .inl (hem relative h)
  known := nofun
  touched := ⟨[], (append_nil _).symm, nofun⟩

variable {d : Path} {files done : List (StagedFile B)}
variable {start s : Staging B} {file : StagedFile B}

variable {more : List String}

theorem Filling.clear (h : Filling d files start done s)
    (hs : Sound files) (hf : file ∈ files) {way : List String}
    (hmr : more ≠ []) (hp : steps file.relative = way ++ more) :
    s.disk.find (d ++ way) = none ∨ s.disk.find (d ++ way) = some .dir := by
  rw [← leaf_eq_none_iff, h.leaves]
  by_contra hsm
  obtain ⟨node, hn⟩ := Option.ne_none_iff_exists'.1 hsm
  obtain ⟨c, hc, hw⟩ := placed_some hn
  obtain ⟨o, ho, hr⟩ := h.known c hc
  refine hs.apart o ho file hf more hmr ?_
  rw [hp, hr, hw]

variable {ds : List String} {q : Path}

theorem Filling.mkdirs (h : Filling d files start done s)
    (hs : Sound files) (hf : file ∈ files) (hmr : more ≠ [])
    (hpt : steps file.relative = ds ++ more) {made : List String}
    (hq : d <+: q) (hway : q ++ made <+: d ++ ds) :
    Filling d files start done (s.makeAll q made) := by
  have hb : ∀ p ∈ below q made, ∃ r rest, p = d ++ r
      ∧ r ≠ [] ∧ ds = r ++ rest := by
    intro p hp
    obtain ⟨h1, h2, h3⟩ := (mem_below _ _).1 hp
    obtain ⟨r, rfl⟩ := hq.trans h1
    obtain ⟨rest, hr⟩ := (prefix_append_right_inj d).1 (h3.trans hway)
    refine ⟨r, rest, rfl, ?_, hr.symm⟩
    rintro rfl
    rw [append_nil] at h1 h2
    exact h2 (hq.eq_of_length_le h1.length_le)
  have hl : ∀ p, (s.makeAll q made).disk.leaf p = s.disk.leaf p := by
    intro p
    by_cases hp : p ∈ below q made
    · obtain ⟨r, rest, rfl, -, hds⟩ := hb p hp
      have hway : steps file.relative = r ++ (rest ++ more) := by
        rw [hpt, hds, append_assoc]
      have hc := h.clear hs hf (by simp [hmr]) hway
      rw [leaf_eq_none_iff.2 hc, leaf_eq_none_iff]
      exact .inr (by rw [find_makeAll, if_pos hp])
    · exact leaf_congr (by rw [find_makeAll, if_neg hp])
  refine ⟨?_, fun p hp => ?_, fun r hne hd => ?_, fun r => ?_,
    fun r => (hl _).trans (h.leaves r), h.known, ?_⟩
  · rw [find_makeAll, h.dir, ite_self]
  · rw [find_makeAll, if_neg, h.outside p hp]
    exact fun hmm => hp (hq.trans ((mem_below _ _).1 hmm).1)
  · rw [find_makeAll] at hd
    split at hd
    · next hmm =>
      obtain ⟨relative', rest, heq, -, hds⟩ := hb _ hmm
      rw [append_cancel_left heq]
      exact ⟨file, hf, rest ++ more, by simp [hmr],
        by rw [hpt, hds, append_assoc]⟩
    · exact h.dirs r hne hd
  · by_cases hmm : d ++ r ∈ below q made
    · exact isLink_of_dir (by rw [find_makeAll, if_pos hmm])
    · have hsm : (s.makeAll q made).disk.find (d ++ r)
          = s.disk.find (d ++ r) := by rw [find_makeAll, if_neg hmm]
      exact (isLink_congr hsm).trans (h.links r)
  · obtain ⟨new, hn, hu⟩ := h.touched
    refine ⟨new ++ (below q made).map .made, ?_, fun t ht => ?_⟩
    · rw [touched_makeAll, hn, append_assoc]
    · rcases mem_append.1 ht with ht | ht
      · exact hu t ht
      · obtain ⟨p, hp, rfl⟩ := mem_map.1 ht
        obtain ⟨r, -, rfl, hne, -⟩ := hb p hp
        exact ⟨prefix_append _ _, by simpa [Touch.path] using hne⟩

theorem Filling.wrote (h : Filling d files start done s)
    (hfl : ∃ f' ∈ files, f'.relative = file.relative)
    (hne : steps file.relative ≠ []) :
    Filling d files start (done ++ [file])
      (s.write (d ++ steps file.relative) file.content) := by
  have hf : ∀ p, (s.write (d ++ steps file.relative)
      file.content).disk.find p = if p = d ++ steps file.relative
        then some (.file file.content) else s.disk.find p :=
    fun p => find_put _ _ _ _ (by simp [hne])
  refine ⟨?_, fun p hp => ?_, fun r hr h' => ?_,
    fun r => ?_, fun r => ?_, fun g hg => ?_, ?_⟩
  · rw [hf, if_neg (by simpa using hne), h.dir]
  · rw [hf, if_neg, h.outside p hp]
    rintro rfl
    exact hp (prefix_append _ _)
  · rw [hf] at h'
    split at h'
    · cases h'
    · exact h.dirs r hr h'
  · by_cases heq : r = steps file.relative
    · unfold isLink
      rw [hf, if_pos (by rw [heq])]
    · rw [isLink_congr (hf (d ++ r) |>.trans
        (if_neg fun e => heq (append_cancel_left e)))]
      exact h.links r
  · rw [placed_snoc]
    by_cases heq : steps file.relative = r
    · rw [if_pos heq]
      unfold leaf
      rw [hf, if_pos (by rw [heq])]
    · rw [if_neg heq, ← h.leaves]
      refine leaf_congr ((hf _).trans (if_neg fun e => heq ?_))
      exact (append_cancel_left e).symm
  · rcases mem_append.1 hg with hg | hg
    · exact h.known g hg
    · rw [mem_singleton.1 hg]
      exact hfl
  · obtain ⟨new, hn, hu⟩ := h.touched
    refine ⟨new ++ [.wrote (d ++ steps file.relative)], ?_, fun t ht => ?_⟩
    · show s.touched ++ _ = _
      rw [hn, append_assoc]
    · rcases mem_append.1 ht with ht | ht
      · exact hu t ht
      · rw [mem_singleton.1 ht]
        exact ⟨prefix_append _ _, by simpa [Touch.path] using hne⟩

/-- The directories of a file can be made in the destination, and then
its content can be copied. -/
theorem Filling.parents (sys : System B) (h : Filling d files start done s)
    (hs : Sound files) (hf : file ∈ files)
    (hp : steps file.relative = ds ++ [name]) :
    ∃ q r, s.disk.landing sys.links d ds = some (q, r)
      ∧ q ++ r = d ++ ds
      ∧ ∀ n, Filling d files start done (s.makeAll q (r.take n)) := by
  have hst : Descends ds := fun c hc =>
    (hs.leads file hf).1 c (by rw [hp]; simp [hc])
  obtain ⟨q, r, hl, heq, hq⟩ := landing_clear s.disk sys.links
    hst fun way hway => by
      obtain ⟨more, hmr⟩ := hway
      have hw : steps file.relative = way ++ (more ++ [name]) := by
        rw [hp, ← hmr, append_assoc]
      exact h.clear hs hf (by simp) hw
  refine ⟨q, r, hl, heq, fun n => ?_⟩
  refine h.mkdirs hs hf (cons_ne_nil _ _) hp hq ?_
  rw [← heq]
  exact (prefix_append_right_inj q).2 ( take_prefix n r)

theorem copyContent_filling (h : Filling d files start done s)
    (hs : Sound files) (hf : file ∈ files)
    (hpt : steps file.relative = ds ++ [name]) (c : B) :
    copyContent sys (d ++ ds) name c s
        = (.ok (), s.write (d ++ steps file.relative) c) := by
  obtain ⟨hdot, hd⟩ := (hs.leads file hf).1 name (by rw [hpt]; simp)
  have hp : d ++ ds ++ [name] = d ++ steps file.relative := by
    rw [hpt, append_assoc]
  unfold copyContent
  rw [hp]
  cases hfn : s.disk.find (d ++ steps file.relative) with
  | none => rfl
  | some n =>
    have hfol : ∃ old, n = .file old := by
      cases n with
      | dir =>
        obtain ⟨o, ho, more, hmr, heq⟩ := h.dirs _ (hs.leads file hf).2 hfn
        exact absurd heq (hs.apart file hf o ho more hmr)
      | file old => exact ⟨old, rfl⟩
      | link t =>
        have hno := h.links (steps file.relative)
        rw [isLink_iff.2 ⟨t, hfn⟩] at hno
        cases hno
    obtain ⟨old, rfl⟩ := hfol
    have hend : s.disk.follow sys.links (d ++ ds) [name]
        = .file (d ++ steps file.relative) := by
      unfold follow hop
      rw [if_neg hdot, if_neg hd, hp, hfn]
      rfl
    rw [hend]

theorem createDirAll_plain {n : List String}
    (hl : s.disk.landing sys.links base n = some (q, rest)) :
    createDirAll sys base n false none s
      = (.ok (q ++ rest), s.makeAll q rest) := by
  unfold createDirAll
  rw [hl]
  rfl

theorem createDirAll_fault {n : List String} (m : Nat)
    (hl : s.disk.landing sys.links base n = some (q, rest)) :
    createDirAll sys base n false (some m) s
      = (.error .io, s.makeAll q (rest.take m)) := by
  unfold createDirAll
  rw [hl]
  rfl

theorem wrote_touched (s : Staging B) (q p : Path) (m : List String)
    (c : B) :
    ((s.makeAll q m).write p c).touched ≠ s.touched := by
  intro h
  have hlen := congrArg List.length h
  simp [Staging.write, touched_makeAll] at hlen

theorem copyFile_ok (sys : System B) (h : Filling d files start done s)
    (hs : Sound files) (hf : file ∈ files) :
    ∃ s', copyFile sys d file none s = (.ok (), s')
      ∧ Filling d files start (done ++ [file]) s'
      ∧ s'.touched ≠ s.touched := by
  obtain ⟨ds, name, hp⟩ := (eq_nil_or_concat
    (steps file.relative)).resolve_left (hs.leads file hf).2
  rw [concat_eq_append] at hp
  obtain ⟨q, r, hl, heq, hmk⟩ := h.parents sys hs hf hp
  have hfl := hmk r.length
  rw [take_length] at hfl
  refine ⟨_, ?_, hfl.wrote ⟨file, hf, rfl⟩ (hs.leads file hf).2,
    wrote_touched _ _ _ _ _⟩
  unfold copyFile
  dsimp only
  rw [hp, dropLast_concat, getLastD_concat,
    bind_ok (createDirAll_plain hl), heq,
    copyContent_filling hfl hs hf hp, hp]

theorem copyFile_fault (h : Filling d files start done s)
    (hs : Sound files) (hf : file ∈ files) (f : CopyFault B) :
    ∃ s', copyFile sys d file (some f) s = (.error .io, s')
      ∧ Filling d files start (done ++ f.left file) s' := by
  obtain ⟨ds, name, hp⟩ := (eq_nil_or_concat
    (steps file.relative)).resolve_left (hs.leads file hf).2
  rw [concat_eq_append] at hp
  obtain ⟨q, rest, hl, heq, hmk⟩ := h.parents sys hs hf hp
  have hfl := hmk rest.length
  rw [take_length] at hfl
  unfold copyFile
  rw [hp, dropLast_concat, getLastD_concat]
  cases f with
  | parents made =>
    refine ⟨_, bind_error (createDirAll_fault made hl), ?_⟩
    rw [CopyFault.left, append_nil]
    exact hmk made
  | content left =>
    dsimp only
    rw [bind_ok (createDirAll_plain hl), heq]
    cases left with
    | none =>
      refine ⟨_, rfl, ?_⟩
      rw [CopyFault.left, append_nil]
      exact hfl
    | some part =>
      have hpr : ∃ file' ∈ files, file'.relative
          = ({ file with content := part } : StagedFile B).relative :=
        ⟨file, hf, rfl⟩
      refine ⟨_, ?_, hfl.wrote hpr (hs.leads file hf).2⟩
      dsimp only
      rw [bind_ok (copyContent_filling hfl hs hf hp part)]
      rfl

/-- The copying fills the destination with what `copied` says, and
fails if a copy does. -/
theorem copyAll_filling (sys : System B) (hs : Sound files)
    (rest : List (StagedFile B)) (copy : Option (Nat × CopyFault B))
    (h : Filling d files start done s) (hr : rest ⊆ files) :
    ∃ s', copyAll sys d rest copy s
        = (if stops rest copy then .error .io else .ok (), s')
      ∧ Filling d files start (done ++ copied rest copy) s' := by
  induction rest generalizing copy done s with
  | nil =>
    refine ⟨s, ?_, by rwa [copied, append_nil]⟩
    rfl
  | cons file rest ih =>
    obtain ⟨hf, hr⟩ := cons_subset.1 hr
    match copy with
    | some (0, f) => exact copyFile_fault h hs hf f
    | none =>
      obtain ⟨s', hc, h', -⟩ := copyFile_ok sys h hs hf
      obtain ⟨s'', ha, h''⟩ := ih none h' hr
      refine ⟨s'', (bind_ok hc).trans ha, ?_⟩
      rwa [append_assoc] at h''
    | some (n + 1, f) =>
      obtain ⟨s', hc, h', -⟩ := copyFile_ok sys h hs hf
      obtain ⟨s'', ha, h''⟩ := ih (some (n, f)) h' hr
      refine ⟨s'', (bind_ok hc).trans ha, ?_⟩
      rwa [append_assoc] at h''

theorem makeAll_idle (s : Staging B) (base : Path) (made : List String) :
    (s.makeAll base made).touched = s.touched ↔ made = [] := by
  rw [touched_makeAll, append_right_eq_self, map_eq_nil_iff]
  cases made with
  | nil => exact ⟨fun _ => rfl, fun _ => rfl⟩
  | cons name rest => exact ⟨nofun, nofun⟩

theorem copyFile_idle (h : Filling d files s [] s) (hs : Sound files)
    (hf : file ∈ files)
    (hem : ∀ n, s.disk.find (d ++ [n]) = none)
    (f : CopyFault B) :
    (copyFile sys d file (some f) s).2.touched = s.touched
      ↔ f.idle (steps file.relative) = true := by
  obtain ⟨ds, n, hp⟩ := (eq_nil_or_concat
    (steps file.relative)).resolve_left (hs.leads file hf).2
  rw [concat_eq_append] at hp
  have hst : Descends ds := fun c hc =>
    (hs.leads file hf).1 c (by rw [hp]; simp [hc])
  have hl := landing_missing s.disk sys.links hst fun n _ _ => hem n
  have hfl : Filling d files s [] (s.makeAll d ds) :=
    h.mkdirs hs hf (cons_ne_nil _ _) hp (prefix_refl d) (prefix_refl _)
  unfold copyFile
  rw [hp, dropLast_concat, getLastD_concat]
  cases f with
  | parents m =>
    dsimp only
    rw [bind_error (createDirAll_fault m hl), makeAll_idle,
      CopyFault.idle, List.dropLast_concat, List.isEmpty_iff]
  | content l =>
    dsimp only
    rw [bind_ok (createDirAll_plain hl), CopyFault.idle, dropLast_concat]
    cases l with
    | none =>
      show (s.makeAll d ds).touched = s.touched ↔ _
      rw [makeAll_idle]
      simp
    | some p =>
      dsimp only
      rw [bind_ok (copyContent_filling hfl hs hf hp p)]
      refine ⟨fun heq => absurd heq (wrote_touched _ _ _ _ _), ?_⟩
      simp

theorem Filling.rebase (h : Filling d files start done s) :
    Filling d files s done s where
  dir := h.dir
  outside _ _ := rfl
  dirs := h.dirs
  links := h.links
  leaves := h.leaves
  known := h.known
  touched := ⟨[], (append_nil _).symm, nofun⟩

theorem copied_of_idle {c : Option (Nat × CopyFault B)}
    (h : idleCopies files c = true) : copied files c = [] := by
  unfold idleCopies at h
  split at h
  · rfl
  · next f =>
    cases f with
    | parents made => rfl
    | content left =>
      rw [CopyFault.idle, Bool.and_eq_true] at h
      rw [copied, Option.isNone_iff_eq_none.1 h.2]
      rfl
  · cases h

/-- What is copied into an empty destination changes something, unless
the first copy fails at once. -/
theorem copyAll_idle (sys : System B) (hs : Sound files)
    (copy : Option (Nat × CopyFault B)) (h : Filling d files s [] s)
    (hem : ∀ name, s.disk.find (d ++ [name]) = none) :
    (copyAll sys d files copy s).2.touched = s.touched
      ↔ idleCopies files copy = true := by
  have hn : ∀ file rest copy', file :: rest = files →
      ((copyFile sys d file none >>= fun _ => copyAll sys d rest copy')
        s).2.touched ≠ s.touched := by
    intro file rest copy' hf
    have hfl : file ∈ files := by rw [← hf]; exact mem_cons_self
    have hr : rest ⊆ files := by
      rw [← hf]
      exact subset_cons_self file rest
    obtain ⟨s', hcp, h', hc⟩ := copyFile_ok sys h hs hfl
    obtain ⟨s'', hall, h''⟩ := copyAll_filling sys hs rest copy' h'.rebase hr
    obtain ⟨new, hnew, -⟩ := h''.touched
    obtain ⟨first, hfr, -⟩ := h'.touched
    rw [bind_ok hcp, hall]
    rw [hnew, hfr, append_assoc]
    rw [hfr] at hc
    intro heq
    rw [append_right_eq_self, append_eq_nil_iff] at heq
    exact hc (by rw [heq.1, append_nil])
  cases hf : files with
  | nil => exact absurd hf hs.some_file
  | cons file rest =>
    match copy with
    | some (0, fault) =>
      exact copyFile_idle h hs (by rw [hf]; exact mem_cons_self) hem fault
    | none =>
      exact ⟨fun heq => absurd heq (hn file rest none hf.symm), nofun⟩
    | some (n + 1, fault) =>
      exact ⟨fun heq => absurd heq
        (hn file rest (some (n, fault)) hf.symm), nofun⟩

end

end TikTools.Sdk
