/-
The walk of a package.

It reads every directory that is not excluded, each once (`Visited`), and
offers what files it finds there (`selected_packed`). The disk's names
must hold no backslash for that, or they are mistaken for several.
-/
import TikTools.Sdk.NativeStage

namespace TikTools.Sdk

open TikTools.Lib
open TikTools.Lib.Disk
open TikTools.Plugins (PathText forwardSlashes isSafeRelativePath components
  resolve forwardSlashes_id not_mem_splitOn)
open List Except

-- ==== names

variable {part : List Char}

theorem mem_splitOn_forward (hp : '\\' ∉ part) :
    ∀ {t : List Char}, part ∈ t.splitOn '/' →
      part ∈ (forwardSlashes t).splitOn '/' := by
  intro t
  induction hn : t.length using Nat.strong_induction_on generalizing t
  next n ih =>
  intro h
  by_cases hs : '/' ∈ t
  · obtain ⟨a, b, rfl, ha⟩ := eq_append_cons_of_mem hs
    rw [splitOn_append_cons_self_of_not_mem ha] at h
    have hfwd : forwardSlashes (a ++ '/' :: b)
        = forwardSlashes a ++ '/' :: forwardSlashes b := by
      unfold forwardSlashes
      rw [map_append, map_cons]
      rfl
    rw [hfwd, splitOn_append_cons_self]
    rcases mem_cons.1 h with rfl | hr
    · rw [forwardSlashes_id hp, splitOn_eq_singleton ha]
      exact mem_append_left _ mem_cons_self
    · refine mem_append_right _ (ih b.length ?_ rfl hr)
      rw [← hn, length_append, length_cons]
      omega
  · rw [splitOn_eq_singleton hs, mem_singleton] at h
    rw [← h, forwardSlashes_id hp, h, splitOn_eq_singleton hs]
    exact mem_cons_self

/-- The parts of a safe path are not empty and not "..", however its
separators are read. -/
theorem isSafe_part {t : List Char} (h : isSafeRelativePath t = true)
    (hp : part ∈ t.splitOn '/') : part ≠ ['.', '.'] := by
  rintro rfl
  have hmem := mem_splitOn_forward (by decide) hp
  unfold isSafeRelativePath at h
  simp only [Bool.and_eq_true, all_eq_true] at h
  have hbad := h.2 _ hmem
  simp at hbad

theorem rootNames_descends {r : String}
    (h : isSafeRelativePath r.toList = true) :
    Descends (rootNames r) := by
  intro name hn
  obtain ⟨hm, hd⟩ := mem_filter.1 hn
  refine ⟨by simpa using hd, ?_⟩
  rintro rfl
  unfold components at hm
  cases hs : r.toList.splitOn '/' with
  | nil => exact splitOn_ne_nil _ _ hs
  | cons first rest =>
    rw [hs] at hm
    obtain ⟨part, hp, heq⟩ := mem_map.1 hm
    have ht : part = ['.', '.'] := by
      have := congrArg String.toList heq
      rwa [String.toList_ofList] at this
    refine isSafe_part h ?_ ht
    rw [hs]
    rcases mem_cons.1 hp with rfl | hr
    · exact mem_cons_self
    · exact mem_cons_of_mem _ (mem_filter.1 hr).1

theorem steps_append (a b : PathText) :
    steps (a ++ '/' :: b) = steps a ++ steps b := by
  unfold steps
  rw [splitOn_append_cons_self, filter_append, map_append]

variable {name : String}

theorem steps_name (h : Path.Plain name)
    (hs : '/' ∉ name.toList) : steps name.toList = [name] := by
  unfold steps
  rw [splitOn_eq_singleton hs, filter_cons, if_pos]
  · rw [filter_nil, map_singleton, String.ofList_toList]
  · rw [decide_eq_true_eq]
    constructor
    · intro e
      exact h.1 (String.toList_inj.1 e)
    · intro e
      exact h.2.1 (String.toList_inj.1 e)

-- ==== the selection

/-- No name on the disk holds a backslash. -/
def Portable {B : Type} (disk : Disk B) : Prop :=
  ∀ p, disk.find p ≠ none → ∀ name ∈ p, '\\' ∉ name.toList

/-- A text whose steps lead down, and that has no other separator. -/
def Leads (text : PathText) : Prop := Descends (steps text) ∧ '\\' ∉ text

section

variable {B : Type} {sys : System B} {faults : Faults B} {disk : Disk B}

variable {dir : PathText} {at' : Path}

theorem leads_relativeTo (hwf : disk.WellFormed) (hp : Portable disk)
    (hf : disk.find (at' ++ [name]) ≠ none) (h : Leads dir) :
    Leads (relativeTo dir name) ∧ steps (relativeTo dir name) ≠ [] := by
  have hmem : name ∈ at' ++ [name] := mem_append_right _ mem_cons_self
  obtain ⟨hem, hdot, hd, hs⟩ := hwf.named _ hf name hmem
  have hb := hp _ hf name hmem
  have hn := steps_name ⟨hem, hdot, hd⟩ hs
  have hone : Descends [name] := fun c hc => by
    rw [mem_singleton.1 hc]
    exact ⟨hdot, hd⟩
  unfold relativeTo
  split
  · rw [Leads, hn]
    exact ⟨⟨hone, hb⟩, cons_ne_nil _ _⟩
  · rw [forwardSlashes_id h.2, Leads, steps_append, hn]
    refine ⟨⟨fun c hc => ?_, fun hc => ?_⟩, by simp⟩
    · rcases mem_append.1 hc with hc | hc
      · exact h.1 c hc
      · exact hone c hc
    · rcases mem_append.1 hc with hc | hc
      · exact h.2 hc
      · rcases mem_cons.1 hc with e | hc
        · cases e
        · exact hb hc

theorem relativeTo_eq (dir : PathText) (name : String) (h : '\\' ∉ dir) :
    relativeTo dir name
      = if dir = [] then name.toList else dir ++ '/' :: name.toList := by
  unfold relativeTo
  rw [forwardSlashes_id h]

-- ==== the package

variable {top path path' : Path} {dir' : PathText} {name' : String}

/-- The directories of a package that are not excluded: the paths of the
report and the names they stand for. -/
inductive Reached (disk : Disk B) (top : Path) : PathText → Path → Prop
  | top : Reached disk top [] []
  | child {dir : PathText} {path : Path} {name : String}
      (hdir : Reached disk top dir path)
      (hfind : disk.find (top ++ path ++ [name]) = some .dir)
      (hname : name ∉ excludedDirectories) :
      Reached disk top (relativeTo dir name) (path ++ [name])

/-- The files of a package. -/
def Packed (disk : Disk B) (top : Path) (relative : PathText) : Prop :=
  ∃ dir path name content, Reached disk top dir path
    ∧ disk.find (top ++ path ++ [name]) = some (.file content)
    ∧ relative = relativeTo dir name

def isExcluded (relative : PathText) : Bool :=
  (relative.splitOn '/').any fun part =>
    excludedDirectories.contains (String.ofList part)

/-- What is known of a directory that is read. -/
structure Known (disk : Disk B) (top : Path) (dir : PathText)
    (path : Path) : Prop where
  leads : Leads dir
  steps_eq : steps dir = path
  dirs : ∀ q, q <+: path → disk.find (top ++ q) = some .dir
  included : isExcluded dir = false

section

variable (hwf : disk.WellFormed)
include hwf

theorem name_plain (hf : disk.find (path ++ [name]) ≠ none) :
    '/' ∉ name.toList :=
  (hwf.named _ hf name (mem_append_right _ mem_cons_self)).2.2.2

theorem isExcluded_relativeTo (hk : Known disk top dir path)
    (hf : disk.find (path' ++ [name]) ≠ none) :
    isExcluded (relativeTo dir name) = excludedDirectories.contains name := by
  have hone := splitOn_eq_singleton (name_plain hwf hf)
  have hin := hk.included
  unfold isExcluded at hin ⊢
  rw [relativeTo_eq dir name hk.leads.2]
  split
  · rw [hone, any_cons, any_nil, Bool.or_false, String.ofList_toList]
  · rw [splitOn_append_cons_self, any_append, hin, hone, any_cons, any_nil,
      Bool.or_false, String.ofList_toList, Bool.false_or]

variable (hpr : Portable disk) (htop : disk.find top = some .dir)
include hpr htop

theorem Reached.known (h : Reached disk top dir path) :
    Known disk top dir path := by
  induction h with
  | top =>
    refine ⟨⟨nofun, not_mem_nil⟩, rfl, fun q hq => ?_, by decide⟩
    rw [prefix_nil.1 hq, append_nil]
    exact htop
  | @child dir path name _ hfind hname ih =>
    have hex : disk.find (top ++ path ++ [name]) ≠ none := by
      rw [hfind]
      nofun
    obtain ⟨hne, hdot, hdd, hs⟩ := hwf.named _ hex name (by simp)
    have hone := steps_name ⟨hne, hdot, hdd⟩ hs
    refine ⟨(leads_relativeTo hwf hpr hex ih.leads).1, ?_, fun q hq => ?_, ?_⟩
    · rw [relativeTo_eq _ _ ih.leads.2]
      split
      · next hd =>
        rw [hone, ← ih.steps_eq, hd]
        rfl
      · rw [steps_append, hone, ih.steps_eq]
    · rcases prefix_concat_iff.1 hq with rfl | hq
      · rw [← append_assoc]
        exact hfind
      · exact ih.dirs q hq
    · rw [isExcluded_relativeTo hwf ih hex]
      simpa using hname

/-- A path of the package tells its directory and its name. -/
theorem reached_inj (h : Reached disk top dir path)
    (h' : Reached disk top dir' path')
    (hf : disk.find (top ++ path ++ [name]) ≠ none)
    (hf' : disk.find (top ++ path' ++ [name']) ≠ none)
    (heq : relativeTo dir name = relativeTo dir' name') :
    dir = dir' ∧ name = name' := by
  have hs := name_plain hwf hf
  have hs' := name_plain hwf hf'
  rw [relativeTo_eq _ _ (h.known hwf hpr htop).leads.2,
    relativeTo_eq _ _ (h'.known hwf hpr htop).leads.2] at heq
  split at heq
  · next hd =>
    split at heq
    · next hd' => exact ⟨hd.trans hd'.symm, String.toList_inj.1 heq⟩
    · exact absurd (heq ▸ by simp) hs
  · split at heq
    · exact absurd (heq ▸ by simp) hs'
    · obtain ⟨hdir, hn⟩ := append_cons_inj heq hs hs'
      exact ⟨hdir, String.toList_inj.1 hn⟩

end

-- ==== one directory

variable {allowlist : Option (List PathText)} {d : Path}

/-- The directories to read among the names of one. -/
def opens (disk : Disk B) (d : Path) (dir : PathText) (name : String) : Bool :=
  disk.isDir (d ++ [name]) && !isExcluded (relativeTo dir name)

/-- The files to take. -/
def takes (disk : Disk B) (allowlist : Option (List PathText)) (d : Path)
    (dir : PathText) (name : String) : Bool :=
  match disk.find (d ++ [name]) with
  | some (.file _) => isWanted allowlist (relativeTo dir name)
  | _ => false

theorem visits_eq (n : List String) {w w' : Walk}
    (h : n.foldlM (visit disk allowlist d dir) w = .ok w') :
    w' = ⟨((n.filter (opens disk d dir)).map (relativeTo dir)).reverse
        ++ w.stack,
      w.selected
        ++ (n.filter (takes disk allowlist d dir)).map (relativeTo dir)⟩ := by
  induction n generalizing w with
  | nil =>
    cases h
    rw [filter_nil, filter_nil, map_nil, reverse_nil, append_nil]
    rfl
  | cons name rest ih =>
    rw [foldlM_cons] at h
    obtain ⟨next, hv, h⟩ := bind_eq_ok.1 h
    rw [ih h, filter_cons, filter_cons]
    unfold visit at hv
    unfold opens takes isDir isExcluded
    split at hv
    · cases hv
    · next hf =>
      rw [hf]
      dsimp only at hv
      split at hv
      · next hex =>
        cases hv
        rw [if_neg (by rw [hex]; nofun), if_neg (by simp)]
      · next hex =>
        cases hv
        rw [if_pos (by simpa using hex), if_neg (by simp)]
        simp
    · next hf =>
      rw [hf]
      dsimp only at hv
      split at hv
      · next hw =>
        cases hv
        rw [if_neg (by simp), if_pos hw]
        simp
      · next hw =>
        cases hv
        rw [if_neg (by simp), if_neg hw]
    · next hf =>
      cases hv
      rw [hf, if_neg (by simp), if_neg (by simp)]

/-- A walk on its way: `done` are the directories it has read. -/
structure Visited (disk : Disk B) (top : Path)
    (allowlist : Option (List PathText)) (walk : Walk)
    (done : List PathText) : Prop where
  reached : ∀ dir ∈ walk.stack ++ done, ∃ path, Reached disk top dir path
  top_mem : [] ∈ walk.stack ++ done
  once : (walk.stack ++ done).Nodup
  closed : ∀ dir ∈ done, ∀ path name, Reached disk top dir path →
    disk.find (top ++ path ++ [name]) = some .dir →
    name ∉ excludedDirectories → relativeTo dir name ∈ walk.stack ++ done
  above : ∀ dir path name, Reached disk top dir path →
    disk.find (top ++ path ++ [name]) ≠ none →
    relativeTo dir name ∈ walk.stack ++ done → dir ∈ done
  selected : ∀ relative, relative ∈ walk.selected
    ↔ isWanted allowlist relative = true
      ∧ ∃ dir ∈ done, ∃ path name content, Reached disk top dir path
        ∧ disk.find (top ++ path ++ [name]) = some (.file content)
        ∧ relative = relativeTo dir name
  selected_once : walk.selected.Nodup

theorem Visited.start (hwf : disk.WellFormed) :
    Visited disk top allowlist ⟨[[]], []⟩ [] where
  reached dir hdir := ⟨[], by
    rw [append_nil, mem_singleton] at hdir
    exact hdir ▸ .top⟩
  top_mem := mem_cons_self
  once := nodup_singleton _
  closed := nofun
  above dir path name hr hf hmem := by
    rw [append_nil, mem_singleton] at hmem
    unfold relativeTo at hmem
    split at hmem
    · exact absurd (String.toList_inj.1 hmem)
        (hwf.named _ hf name (by simp)).1
    · exact absurd hmem (by simp)
  selected relative := by simp
  selected_once := nodup_nil

variable [DecidableEq B] {faults : Faults B}

theorem readDir_ok {d : Path} {n : List String}
    (h : readDir faults disk d = some n) :
    n.Nodup ∧ ∀ name, name ∈ n ↔ disk.find (d ++ [name]) ≠ none := by
  unfold readDir at h
  split at h
  · cases h
  cases h
  have hp := perm_insertionSort (· ≤ ·) (disk.names d)
  refine ⟨hp.nodup_iff.2 (nodup_dedup _), fun name => ?_⟩
  rw [hp.mem_iff, Disk.names, mem_dedup, mem_filterMap]
  constructor
  · rintro ⟨⟨p, no⟩, hm, hs⟩
    split at hs
    · next hd =>
      obtain ⟨init, rfl⟩ := getLast?_eq_some_iff.1 hs
      rw [dropLast_concat] at hd
      exact hd ▸ find_of_mem hm
    · cases hs
  · intro hne
    obtain ⟨no, hn⟩ := mem_of_find (by simp) hne
    exact ⟨_, hn, by simp⟩

theorem Visited.visit (hwf : disk.WellFormed) (hpr : Portable disk)
    (htop : disk.find top = some .dir) {dir : PathText} {path : Path}
    {st s done : List PathText} {n : List String}
    {w : Walk}
    (h : Visited disk top allowlist ⟨dir :: st, s⟩ done)
    (hr : Reached disk top dir path)
    (hn : readDir faults disk (top ++ path) = some n)
    (hv : n.foldlM (Sdk.visit disk allowlist (top ++ path) dir)
      ⟨st, s⟩ = .ok w) :
    Visited disk top allowlist w (dir :: done) := by
  obtain ⟨hno, hmem⟩ := readDir_ok hn
  have hk := hr.known hwf hpr htop
  have hnew : dir ∉ done := fun hd =>
    (nodup_cons.1 h.once).1 (mem_append_right _ hd)
  have hinj : ∀ a ∈ n, ∀ b ∈ n,
      relativeTo dir a = relativeTo dir b → a = b := fun a ha b hb heq =>
    (reached_inj hwf hpr htop hr hr ((hmem a).1 ha) ((hmem b).1 hb) heq).2
  rw [visits_eq n hv]
  have hdirs : ∀ c, c ∈ (n.filter (opens disk (top ++ path) dir)).map
      (relativeTo dir) ↔ ∃ name, disk.find (top ++ path ++ [name]) = some .dir
        ∧ name ∉ excludedDirectories ∧ relativeTo dir name = c := by
    intro c
    simp only [mem_map, mem_filter, hmem, opens, Bool.and_eq_true, isDir_iff]
    refine exists_congr fun name => ?_
    constructor
    · rintro ⟨⟨hex, hf, hopen⟩, heq⟩
      rw [isExcluded_relativeTo hwf hk hex] at hopen
      exact ⟨hf, by simpa using hopen, heq⟩
    · rintro ⟨hf, hopen, heq⟩
      have hex : disk.find (top ++ path ++ [name]) ≠ none := by
        rw [hf]
        nofun
      rw [isExcluded_relativeTo hwf hk hex]
      exact ⟨⟨hex, hf, by simpa using hopen⟩, heq⟩
  have hfiles : ∀ c, c ∈ (n.filter (takes disk allowlist (top ++ path)
      dir)).map (relativeTo dir) ↔ isWanted allowlist c = true
        ∧ ∃ name co, disk.find (top ++ path ++ [name])
          = some (.file co) ∧ c = relativeTo dir name := by
    intro c
    simp only [mem_map, mem_filter, hmem, takes]
    constructor
    · rintro ⟨name, ⟨-, ht⟩, rfl⟩
      split at ht
      · next co hf => exact ⟨ht, name, co, hf, rfl⟩
      · cases ht
    · rintro ⟨hw, name, co, hf, rfl⟩
      exact ⟨name, ⟨by rw [hf]; nofun, by rw [hf]; exact hw⟩, rfl⟩
  generalize hds : (n.filter (opens disk (top ++ path) dir)).map
    (relativeTo dir) = dirs at hdirs
  have hperm : (dirs.reverse ++ st) ++ dir :: done
      ~ dirs ++ (dir :: st ++ done) := by
    rw [append_assoc]
    exact (reverse_perm dirs).append perm_middle
  refine ⟨fun c hc => ?_, ?_, ?_, ?_, ?_, fun relative => ?_, ?_⟩
  · rcases mem_append.1 (hperm.mem_iff.1 hc) with hc | hc
    · obtain ⟨name, hf, hopen, rfl⟩ := (hdirs c).1 hc
      exact ⟨_, .child hr hf hopen⟩
    · exact h.reached c hc
  · exact hperm.mem_iff.2 (mem_append_right _ h.top_mem)
  · refine hperm.nodup_iff.2 (nodup_append.2 ⟨?_, h.once, ?_⟩)
    · rw [← hds]
      exact (hno.filter _).map_on fun a ha b hb =>
        hinj a (mem_filter.1 ha).1 b (mem_filter.1 hb).1
    · rintro c hc d hd rfl
      obtain ⟨name, hf, -, rfl⟩ := (hdirs c).1 hc
      exact hnew (h.above dir path name hr (by rw [hf]; nofun) hd)
  · intro dir' hd path' name hr' hf hopen
    refine hperm.mem_iff.2 (mem_append.2 ?_)
    rcases mem_cons.1 hd with rfl | hd
    · have hp := (hr'.known hwf hpr htop).steps_eq
      rw [← hp, hk.steps_eq] at hf
      exact .inl ((hdirs _).2 ⟨name, hf, hopen, rfl⟩)
    · exact .inr (h.closed dir' hd path' name hr' hf hopen)
  · intro dir' path' name hr' hf hc
    rcases mem_append.1 (hperm.mem_iff.1 hc) with hc | hc
    · obtain ⟨other, ho, -, heq⟩ := (hdirs _).1 hc
      have hsame := reached_inj hwf hpr htop hr hr' (by rw [ho]; nofun) hf heq
      exact hsame.1 ▸ mem_cons_self
    · exact mem_cons_of_mem _ (h.above dir' path' name hr' hf hc)
  · rw [mem_append, h.selected, hfiles, ← and_or_left]
    refine and_congr_right fun _ => ?_
    constructor
    · rintro (⟨dir', hd, r⟩ | ⟨name, co, hf, heq⟩)
      · exact ⟨dir', mem_cons_of_mem _ hd, r⟩
      · exact ⟨dir, mem_cons_self, path, name, co, hr, hf, heq⟩
    · rintro ⟨dir', hd, path', name, co, hr', hf, heq⟩
      rcases mem_cons.1 hd with rfl | hd
      · have hp := (hr'.known hwf hpr htop).steps_eq
        rw [← hp, hk.steps_eq] at hf
        exact .inr ⟨name, co, hf, heq⟩
      · exact .inl ⟨dir', hd, path', name, co, hr', hf, heq⟩
  · refine nodup_append.2 ⟨h.selected_once, ?_, ?_⟩
    · exact (hno.filter _).map_on fun a ha b hb =>
        hinj a (mem_filter.1 ha).1 b (mem_filter.1 hb).1
    · rintro c hc d hd rfl
      obtain ⟨-, dir', hd', path', name', content', hr', hf', rfl⟩ :=
        (h.selected c).1 hc
      obtain ⟨-, name, co, hf, heq⟩ := (hfiles _).1 hd
      have hsame := reached_inj hwf hpr htop hr' hr (by rw [hf']; nofun)
        (by rw [hf]; nofun) heq
      exact hnew (hsame.1 ▸ hd')

/-- A walk that comes to its end has read every directory, and taken
every file that is wanted, each once. -/
theorem selectFrom_packed {sys : System B} {source : List String}
    {left : Nat} (hwf : disk.WellFormed) (hpr : Portable disk)
    (htop : disk.find top = some .dir)
    (hsource : disk.follow sys.links [] source = .dir top left) (rounds : Nat)
    {walk : Walk} {done selected : List PathText}
    (h : Visited disk top allowlist walk done)
    (hs : selectFrom sys faults disk source allowlist rounds walk
      = .ok selected) :
    selected.Nodup ∧ ∀ relative, relative ∈ selected
      ↔ isWanted allowlist relative = true ∧ Packed disk top relative := by
  have hend : ∀ {walk : Walk} {done : List PathText}, walk.stack = [] →
      Visited disk top allowlist walk done → walk.selected.Nodup
        ∧ ∀ relative, relative ∈ walk.selected
          ↔ isWanted allowlist relative = true
            ∧ Packed disk top relative := by
    intro walk done hnil h
    have hall : ∀ {dir path}, Reached disk top dir path → dir ∈ done := by
      intro dir path hr
      have hin : dir ∈ walk.stack ++ done := by
        induction hr with
        | top => exact h.top_mem
        | child hdir hfind hname ih =>
          rw [hnil] at ih
          exact h.closed _ ih _ _ hdir hfind hname
      rwa [hnil] at hin
    refine ⟨h.selected_once, fun relative => (h.selected relative).trans ?_⟩
    refine and_congr_right fun _ => ⟨?_, ?_⟩
    · rintro ⟨dir, -, rest⟩
      exact ⟨dir, rest⟩
    · rintro ⟨dir, path, name, content, hr, rest⟩
      exact ⟨dir, hall hr, path, name, content, hr, rest⟩
  induction rounds generalizing walk done with
  | zero =>
    unfold selectFrom at hs
    split at hs
    · next hnil =>
      cases hs
      exact hend hnil h
    · cases hs
  | succ rounds ih =>
    unfold selectFrom at hs
    split at hs
    · next hnil =>
      cases hs
      exact hend hnil h
    · next dir stack hstack =>
      obtain ⟨path, hr⟩ := h.reached dir (by simp [hstack])
      have hk := hr.known hwf hpr htop
      rw [hk.steps_eq, follow_onward path hsource,
        follow_dirs left (hk.steps_eq ▸ hk.leads.1) hk.dirs] at hs
      dsimp only at hs
      split at hs
      · cases hs
      · next names hn =>
        obtain ⟨next, hv, hrest⟩ := bind_eq_ok.1 hs
        obtain ⟨stack', taken⟩ := walk
        cases hstack
        exact ih (h.visit hwf hpr htop hr hn hv) hrest

theorem selected_packed {sys : System B} {source : List String}
    (hwf : disk.WellFormed) (hpr : Portable disk) {selected : List PathText}
    (h : selectSourceFiles sys faults disk source allowlist = .ok selected) :
    ∃ top left, disk.follow sys.links [] source = .dir top left
      ∧ selected.Nodup ∧ ∀ relative, relative ∈ selected
        ↔ isWanted allowlist relative = true ∧ Packed disk top relative := by
  obtain ⟨top, left, hsource⟩ : ∃ top left,
      disk.follow sys.links [] source = .dir top left := by
    unfold selectSourceFiles selectFrom at h
    dsimp only at h
    split at h
    · next hfol =>
      rw [show steps [] = [] from rfl, append_nil] at hfol
      exact ⟨_, _, hfol⟩
    · cases h
  exact ⟨top, left, hsource, selectFrom_packed hwf hpr
    (follow_isDir hwf rfl hsource) hsource _ (.start hwf) h⟩

end

end TikTools.Sdk
