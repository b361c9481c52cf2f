/-
A disk with symbolic links: what the system makes of a path.

`follow` resolves a path the way a system call does, through every link
it meets, and says where it ends; a limit on the links it follows keeps
it from going round for ever. What it arrives at is a path without
links. Where no link lies on the way it is the path itself
(`follow_plain`).

`landing` is what creating a directory with its parents needs: the part
of the path that is there already and the names still to be made.
-/
import TikTools.Lib.FileTree

namespace TikTools.Lib

open List

/-- What a symbolic link says: the parts of a path, from the top or from
the link's own directory. -/
structure Target where
  absolute : Bool
  parts : List String
  deriving DecidableEq

inductive Node (B : Type) where
  | dir
  | file (content : B)
  | link (target : Target)
  deriving DecidableEq

/-- The entries of a disk below its top directory, by their paths. -/
structure Disk (B : Type) where
  entries : List (Path × Node B)

/-- Where a path leads. -/
inductive Resolved where
  /-- A directory, and how many more links may be followed. -/
  | dir (path : Path) (links : Nat)
  | file (path : Path)
  /-- Nothing of that name, or nothing of a name on the way. -/
  | missing
  /-- A file on the way, or too many links. -/
  | blocked
  deriving DecidableEq

/-- Where a path leads up to its first link. -/
inductive Hop where
  | dir (path : Path)
  | file (path : Path)
  | missing
  | blocked
  | link (base : Path) (target : Target) (rest : List String)

namespace Disk

variable {B : Type}

def find (disk : Disk B) (p : Path) : Option (Node B) :=
  if p = [] then some .dir else disk.entries.lookup p

def put (disk : Disk B) (p : Path) (node : Node B) : Disk B :=
  ⟨(p, node) :: disk.entries⟩

/-- Take away the entries that `gone` holds of. -/
def prune (disk : Disk B) (gone : Path → Bool) : Disk B :=
  ⟨disk.entries.filter fun e => !gone e.1⟩

def isDir (disk : Disk B) (p : Path) : Bool :=
  match disk.find p with
  | some .dir => true
  | _ => false

def isLink (disk : Disk B) (p : Path) : Bool :=
  match disk.find p with
  | some (.link _) => true
  | _ => false

/-- What lies at a path, unless it is a directory. -/
def leaf (disk : Disk B) (p : Path) : Option (Node B) :=
  match disk.find p with
  | some .dir => none
  | found => found

/-- The names in a directory, each once. -/
def names [DecidableEq B] (disk : Disk B) (d : Path) : List String :=
  (disk.entries.filterMap fun e =>
    if e.1.dropLast = d then e.1.getLast? else none).dedup

/-- Walk to the first link on a path. -/
def hop (disk : Disk B) (base : Path) : List String → Hop
  | [] => .dir base
  | name :: rest =>
    if name = "." then disk.hop base rest
    else if name = ".." then disk.hop base.dropLast rest
    else
      match disk.find (base ++ [name]) with
      | some .dir => disk.hop (base ++ [name]) rest
      | some (.file _) =>
        if rest = [] then .file (base ++ [name]) else .blocked
      | some (.link target) => .link base target rest
      | none => .missing

/-- Where a path leads from a directory, through at most `links`
links. -/
def follow (disk : Disk B) (links : Nat) (base : Path)
    (path : List String) : Resolved :=
  match disk.hop base path with
  | .dir p => .dir p links
  | .file p => .file p
  | .missing => .missing
  | .blocked => .blocked
  | .link at' target rest =>
    match links with
    | 0 => .blocked
    | links + 1 =>
      disk.follow links (if target.absolute then [] else at')
        (target.parts ++ rest)

/-- The directory a path of names leads to as far as there is one, and
the names that are missing from there on; nothing if something else is
in the way. -/
def landing (disk : Disk B) (links : Nat) (base : Path) :
    List String → Option (Path × List String)
  | [] => some (base, [])
  | name :: rest =>
    match disk.follow links base [name] with
    | .dir p links => disk.landing links p rest
    | _ =>
      if disk.find (base ++ [name]) = none then some (base, name :: rest)
      else none

/-- Every entry lies in a directory, and has a name that is no step. -/
structure WellFormed (disk : Disk B) : Prop where
  housed : ∀ p name, disk.find (p ++ [name]) ≠ none → disk.find p = some .dir
  named : ∀ p, disk.find p ≠ none → ∀ name ∈ p,
    name ≠ "" ∧ name ≠ "." ∧ name ≠ ".." ∧ '/' ∉ name.toList

-- ==== single lookups

theorem find_put (disk : Disk B) (p q : Path) (n : Node B)
    (hp : p ≠ []) :
    (disk.put p n).find q = if q = p then some n else disk.find q := by
  unfold find put
  by_cases hq : q = []
  · rw [if_pos hq, if_neg (fun h => hp (h.symm.trans hq)), if_pos hq]
  · rw [if_neg hq, if_neg hq, lookup_cons]
    by_cases h : q = p
    · rw [if_pos h, beq_iff_eq.2 h]
    · rw [if_neg h, beq_eq_false_iff_ne.2 h]

theorem lookup_filter (g : Path → Bool) (q : Path) :
    ∀ en : List (Path × Node B),
      (en.filter fun e => !g e.1).lookup q = if g q then none else en.lookup q
  | [] => by split <;> rfl
  | (p, node) :: rest => by
    have ih := lookup_filter g q rest
    rw [filter_cons, lookup_cons]
    by_cases hg : g p = true
    · rw [if_neg (by simp [hg]), ih]
      by_cases hq : q = p
      · rw [hq, if_pos hg, if_pos hg]
      · rw [beq_eq_false_iff_ne.2 hq]
    · rw [if_pos (by simp [hg]), lookup_cons, ih]
      by_cases hq : q = p
      · rw [hq, beq_self_eq_true, if_neg hg, if_neg hg]
      · rw [beq_eq_false_iff_ne.2 hq]

variable {q : Path}

theorem find_prune (disk : Disk B) (g : Path → Bool) (hq : q ≠ []) :
    (disk.prune g).find q = if g q then none else disk.find q := by
  unfold find prune
  rw [if_neg hq, if_neg hq]
  exact lookup_filter g q disk.entries

variable {disk : Disk B} {p : Path}

theorem mem_of_find (hp : p ≠ []) (h : disk.find p ≠ none) :
    ∃ n, (p, n) ∈ disk.entries := by
  unfold find at h
  rw [if_neg hp] at h
  obtain ⟨n, hn⟩ := Option.ne_none_iff_exists'.1 h
  obtain ⟨before, after, heq, -⟩ := lookup_eq_some_iff.1 hn
  exact ⟨n, by rw [heq]; exact mem_append_right _ mem_cons_self⟩

theorem find_of_mem {n : Node B} (h : (p, n) ∈ disk.entries) :
    disk.find p ≠ none := by
  unfold find
  split
  · exact Option.some_ne_none _
  · intro hn
    have hne := lookup_eq_none_iff.1 hn (p, n) h
    rw [bne_self_eq_false] at hne
    cases hne

theorem isDir_iff : disk.isDir p = true ↔ disk.find p = some .dir := by
  unfold isDir
  split
  · next h => exact ⟨fun _ => h, fun _ => rfl⟩
  · next h => exact ⟨nofun, fun hd => absurd hd h⟩

theorem isLink_iff :
    disk.isLink p = true ↔ ∃ t, disk.find p = some (.link t) := by
  unfold isLink
  split
  · next t h => exact ⟨fun _ => ⟨t, h⟩, fun _ => rfl⟩
  · next h => exact ⟨nofun, fun ⟨t, hl⟩ => absurd hl (h t)⟩

theorem isLink_of_dir (h : disk.find p = some .dir) :
    disk.isLink p = false := by
  unfold isLink
  rw [h]

theorem leaf_eq_none_iff :
    disk.leaf p = none ↔ disk.find p = none ∨ disk.find p = some .dir := by
  unfold leaf
  split
  · next h => exact ⟨fun _ => .inr h, fun _ => rfl⟩
  · next h => exact ⟨.inl, fun h' => h'.resolve_right h⟩

theorem leaf_congr {d' : Disk B} (h : disk.find p = d'.find p) :
    disk.leaf p = d'.leaf p := by
  unfold leaf
  rw [h]

theorem isLink_congr {d' : Disk B} (h : disk.find p = d'.find p) :
    disk.isLink p = d'.isLink p := by
  unfold isLink
  rw [h]

-- ==== above what is there

section

variable (h : disk.WellFormed)
include h

theorem WellFormed.above (q : Path) :
    ∀ more : Path, more ≠ [] → disk.find (q ++ more) ≠ none →
      disk.find q = some .dir := by
  intro more
  induction more using List.reverseRecOn with
  | nil => intro hne; exact absurd rfl hne
  | append_singleton init last ih =>
    intro _ hf
    rw [← append_assoc] at hf
    have hup := h.housed _ _ hf
    cases init with
    | nil => rwa [append_nil] at hup
    | cons c rest =>
      exact ih (cons_ne_nil c rest) (by rw [hup]; nofun)

theorem WellFormed.exists_of_prefix (hqp : q <+: p)
    (hp : disk.find p ≠ none) : disk.find q ≠ none := by
  obtain ⟨m, rfl⟩ := hqp
  cases m with
  | nil => rwa [append_nil] at hp
  | cons c rest =>
    rw [h.above q _ (cons_ne_nil c rest) hp]
    nofun

theorem WellFormed.eq_of_link {l : Path}
    (hl : disk.isLink l = true) (hlp : l <+: p) (hp : disk.find p ≠ none) :
    p = l := by
  obtain ⟨m, rfl⟩ := hlp
  cases m with
  | nil => rw [append_nil]
  | cons c rest =>
    have hdir := h.above l _ (cons_ne_nil c rest) hp
    rw [isLink_of_dir hdir] at hl
    cases hl

theorem WellFormed.dropLast
    (hp : disk.find p = some .dir) : disk.find p.dropLast = some .dir := by
  cases p using List.reverseRecOn with
  | nil => exact hp
  | append_singleton i l =>
    rw [dropLast_concat]
    exact h.housed i l (by rw [hp]; nofun)

theorem WellFormed.prune {g : Path → Bool}
    (hd : ∀ p n, g p = true →
      g (p ++ [n]) = true) : (disk.prune g).WellFormed where
  housed p n hf := by
    rw [find_prune _ _ (by simp)] at hf
    split at hf
    · exact absurd rfl hf
    · next hk =>
      have hdir := h.housed p n hf
      by_cases hp : p = []
      · rw [hp]
        rfl
      · rw [find_prune _ _ hp, if_neg, hdir]
        exact fun hg => hk (hd p n hg)
  named p hf := by
    refine h.named p ?_
    by_cases hp : p = []
    · rw [hp]
      nofun
    · rw [find_prune _ _ hp] at hf
      split at hf
      · exact absurd rfl hf
      · exact hf

end

theorem wellFormed_of_entries
    (h : disk.entries.all (fun e => disk.isDir e.1.dropLast
      && e.1.all fun n => n ≠ "" && n ≠ "." && n ≠ ".."
        && !n.toList.contains '/') = true) : disk.WellFormed := by
  rw [all_eq_true] at h
  constructor
  · intro p n hp
    obtain ⟨no, hm⟩ := mem_of_find (by simp) hp
    have hdir := h _ hm
    rw [Bool.and_eq_true, dropLast_concat, isDir_iff] at hdir
    exact hdir.1
  · intro p hp n hn
    obtain ⟨no, hm⟩ := mem_of_find (ne_nil_of_mem hn) hp
    have hall := h _ hm
    rw [Bool.and_eq_true, all_eq_true] at hall
    simpa [and_assoc] using hall.2 n hn

-- ==== resolving

/-- Steps that lead down. -/
def Descends (path : List String) : Prop :=
  ∀ name ∈ path, name ≠ "." ∧ name ≠ ".."

variable {rest path : List String} {links left : Nat}

theorem Descends.tail {n : String}
    (h : Descends (n :: rest)) : Descends rest :=
  fun c hc => h c (mem_cons_of_mem n hc)

theorem hop_cons (disk : Disk B) (base : Path) (name : String)
    (rest : List String) : disk.hop base (name :: rest)
      = if name = "." then disk.hop base rest
        else if name = ".." then disk.hop base.dropLast rest
        else
          match disk.find (base ++ [name]) with
          | some .dir => disk.hop (base ++ [name]) rest
          | some (.file _) =>
            if rest = [] then .file (base ++ [name]) else .blocked
          | some (.link t) => .link base t rest
          | none => .missing :=
  rfl

variable {base : Path}

theorem hop_isDir (h : disk.WellFormed) (path : List String)
    (hb : disk.find base = some .dir) :
    (∀ p, disk.hop base path = .dir p → disk.find p = some .dir)
      ∧ ∀ p target rest, disk.hop base path = .link p target rest →
        disk.find p = some .dir := by
  induction path generalizing base with
  | nil =>
    refine ⟨fun p hp => ?_, nofun⟩
    cases hp
    exact hb
  | cons name rest ih =>
    unfold hop
    split
    · exact ih hb
    · split
      · exact ih (h.dropLast hb)
      · split
        · next hf => exact ih hf
        · split <;> exact ⟨nofun, nofun⟩
        · refine ⟨nofun, fun p target rest' hp => ?_⟩
          cases hp
          exact hb
        · exact ⟨nofun, nofun⟩

theorem follow_isDir (h : disk.WellFormed)
    (hb : disk.find base = some .dir)
    (hp : disk.follow links base path = .dir p left) :
    disk.find p = some .dir := by
  induction links generalizing base path with
  | zero =>
    unfold follow at hp
    split at hp
    · next hh =>
      cases hp
      exact (hop_isDir h path hb).1 p hh
    all_goals cases hp
  | succ links ih =>
    unfold follow at hp
    split at hp
    · next hh =>
      cases hp
      exact (hop_isDir h path hb).1 p hh
    · cases hp
    · cases hp
    · cases hp
    · next at' t rest hh =>
      refine ih ?_ hp
      split
      · rfl
      · exact (hop_isDir h path hb).2 at' t rest hh

theorem hop_plain (hs : Descends path)
    (hpl : ∀ q, q <+: path → disk.isLink (base ++ q) = false) :
    (∀ p, disk.hop base path = .dir p → p = base ++ path)
      ∧ ∀ p target rest, disk.hop base path ≠ .link p target rest := by
  induction path generalizing base with
  | nil =>
    refine ⟨fun p hp => ?_, nofun⟩
    cases hp
    exact (append_nil base).symm
  | cons name rest ih =>
    obtain ⟨hdot, hd⟩ := hs name mem_cons_self
    unfold hop
    rw [if_neg hdot, if_neg hd]
    split
    · have hr : ∀ q, q <+: rest →
          disk.isLink (base ++ [name] ++ q) = false := by
        intro q hq
        rw [append_assoc]
        exact hpl (name :: q) (prefix_cons_inj name |>.mpr hq)
      have hn := ih hs.tail hr
      refine ⟨fun p hp => ?_, hn.2⟩
      rw [hn.1 p hp, append_assoc]
      rfl
    · split <;> exact ⟨nofun, nofun⟩
    · next target hl =>
      have hnot := hpl [name] ⟨rest, rfl⟩
      rw [isLink_iff.2 ⟨target, hl⟩] at hnot
      cases hnot
    · exact ⟨nofun, nofun⟩

theorem follow_plain (hs : Descends path)
    (hpl : ∀ q, q <+: path → disk.isLink (base ++ q) = false)
    (hp : disk.follow links base path = .dir p left) :
    p = base ++ path ∧ left = links := by
  obtain ⟨hd, hl⟩ := hop_plain hs hpl
  unfold follow at hp
  split at hp
  · next hh =>
    cases hp
    exact ⟨hd p hh, rfl⟩
  · cases hp
  · cases hp
  · cases hp
  · next hh => exact absurd hh (hl _ _ _)

theorem hop_dirs (hs : Descends path)
    (hd : ∀ q, q <+: path → disk.find (base ++ q) = some .dir) :
    disk.hop base path = .dir (base ++ path) := by
  induction path generalizing base with
  | nil => rw [append_nil]; rfl
  | cons n rest ih =>
    obtain ⟨hdot, hdt⟩ := hs n mem_cons_self
    unfold hop
    rw [if_neg hdot, if_neg hdt, hd [n] ⟨rest, rfl⟩]
    rw [ih hs.tail, append_assoc]
    · rfl
    · intro q hq
      rw [append_assoc]
      exact hd (n :: q) (prefix_cons_inj n |>.mpr hq)

theorem follow_dirs (links : Nat) (hs : Descends path)
    (hd : ∀ q, q <+: path → disk.find (base ++ q) = some .dir) :
    disk.follow links base path = .dir (base ++ path) links := by
  unfold follow
  rw [hop_dirs hs hd]

theorem hop_file {m : List String} (hmr : m ≠ []) (path : List String)
    (base : Path) (hp : disk.hop base path = .file p) :
    disk.hop base (path ++ m) = .blocked := by
  induction path generalizing base with
  | nil => cases hp
  | cons n path ih =>
    rw [cons_append]
    unfold hop at hp ⊢
    split at hp
    · next hdot =>
      rw [if_pos hdot]
      exact ih base hp
    · next hdot =>
      rw [if_neg hdot]
      split at hp
      · next hd =>
        rw [if_pos hd]
        exact ih base.dropLast hp
      · next hd =>
        rw [if_neg hd]
        split at hp
        · exact ih (base ++ [n]) hp
        · exact if_neg (by simp [hmr])
        · cases hp
        · cases hp

theorem hop_onward (disk : Disk B) (more path : List String)
    (base : Path) :
    (∀ p, disk.hop base path = .dir p →
      disk.hop base (path ++ more) = disk.hop p more)
      ∧ (disk.hop base path = .missing →
        disk.hop base (path ++ more) = .missing)
      ∧ ∀ p target rest, disk.hop base path = .link p target rest →
        disk.hop base (path ++ more) = .link p target (rest ++ more) := by
  induction path generalizing base with
  | nil =>
    refine ⟨fun p hp => ?_, nofun, nofun⟩
    cases hp
    rfl
  | cons name path ih =>
    rw [cons_append, hop_cons, hop_cons]
    split
    · exact ih base
    · split
      · exact ih base.dropLast
      · split
        · exact ih (base ++ [name])
        · refine ⟨fun p hp => ?_, fun hp => ?_, fun p t r hp => ?_⟩ <;>
            split at hp <;> cases hp
        · refine ⟨nofun, nofun, fun p t r hp => ?_⟩
          cases hp
          rfl
        · exact ⟨nofun, fun _ => rfl, nofun⟩

theorem follow_file_append {m : List String}
    (hmr : m ≠ []) (hp : disk.follow links base path = .file p) :
    disk.follow links base (path ++ m) = .blocked := by
  induction links generalizing base path with
  | zero =>
    unfold follow at hp ⊢
    split at hp
    · cases hp
    · next hh => rw [hop_file hmr path base hh]
    all_goals cases hp
  | succ links ih =>
    unfold follow at hp ⊢
    split at hp
    · cases hp
    · next hh => rw [hop_file hmr path base hh]
    · cases hp
    · cases hp
    · next hh =>
      rw [(hop_onward disk m path base).2.2 _ _ _ hh]
      dsimp only
      rw [← append_assoc]
      exact ih hp

theorem follow_onward
    (more : List String) (hp : disk.follow links base path = .dir p left) :
    disk.follow links base (path ++ more) = disk.follow left p more := by
  induction links generalizing base path with
  | zero =>
    have hgo := hop_onward disk more path base
    unfold follow at hp
    split at hp
    · next hhop =>
      cases hp
      unfold follow
      rw [hgo.1 _ hhop]
    all_goals cases hp
  | succ links ih =>
    have hgo := hop_onward disk more path base
    unfold follow at hp
    split at hp
    · next hhop =>
      cases hp
      unfold follow
      rw [hgo.1 _ hhop]
    · cases hp
    · cases hp
    · cases hp
    · next hhop =>
      rw [← ih hp, follow, hgo.2.2 _ _ _ hhop, append_assoc]

theorem follow_missing_onward
    (m : List String) (hp : disk.follow links base path = .missing) :
    disk.follow links base (path ++ m) = .missing := by
  induction links generalizing base path with
  | zero =>
    have hgo := hop_onward disk m path base
    unfold follow at hp
    split at hp
    · cases hp
    · cases hp
    · next hh =>
      unfold follow
      rw [hgo.2.1 hh]
    · cases hp
    · cases hp
  | succ links ih =>
    have hgo := hop_onward disk m path base
    unfold follow at hp
    split at hp
    · cases hp
    · cases hp
    · next hh =>
      unfold follow
      rw [hgo.2.1 hh]
    · cases hp
    · next hh =>
      rw [follow, hgo.2.2 _ _ _ hh]
      dsimp only
      rw [← append_assoc]
      exact ih hp

theorem follow_missing_plain (h : disk.WellFormed) (hs : Descends path)
    (hpl : ∀ q, q <+: path → disk.isLink (base ++ q) = false)
    (hp : disk.follow links base path = .missing) :
    disk.find (base ++ path) = none := by
  have hhop : disk.hop base path = .missing := by
    unfold follow at hp
    split at hp
    · cases hp
    · cases hp
    · assumption
    · cases hp
    · next hl => exact absurd hl ((hop_plain hs hpl).2 _ _ _)
  clear hp
  induction path generalizing base with
  | nil => cases hhop
  | cons n rest ih =>
    obtain ⟨hdot, hd⟩ := hs n mem_cons_self
    unfold hop at hhop
    rw [if_neg hdot, if_neg hd] at hhop
    have ha : base ++ n :: rest = base ++ [n] ++ rest := by simp
    split at hhop
    · rw [ha]
      refine ih hs.tail (fun q hq => ?_) hhop
      rw [append_assoc]
      exact hpl (n :: q) (prefix_cons_inj n |>.mpr hq)
    · split at hhop <;> cases hhop
    · cases hhop
    · next hn =>
      by_contra hsm
      rw [ha] at hsm
      exact h.exists_of_prefix ⟨rest, rfl⟩ hsm hn

-- ==== landing

/-- What is found of a path is a directory, and the next name is
missing there. -/
theorem landing_spec (h : disk.WellFormed)
    (hb : disk.find base = some .dir)
    (hq : disk.landing links base path = some (q, rest)) :
    disk.find q = some .dir
      ∧ ∀ n m, rest = n :: m → disk.find (q ++ [n]) = none := by
  induction path generalizing links base with
  | nil =>
    cases hq
    exact ⟨hb, nofun⟩
  | cons n m ih =>
    unfold landing at hq
    split at hq
    · next p left hf => exact ih (follow_isDir h hb hf) hq
    · split at hq
      · next hn =>
        cases hq
        refine ⟨hb, fun name' more' heq => ?_⟩
        cases heq
        exact hn
      · cases hq

theorem landing_follow (h : disk.landing links base path = some (q, [])) :
    ∃ left, disk.follow links base path = .dir q left := by
  induction path generalizing links base with
  | nil =>
    cases h
    exact ⟨links, by unfold follow; rfl⟩
  | cons name m ih =>
    unfold landing at h
    split at h
    · next p left hf =>
      obtain ⟨l', hmr⟩ := ih h
      refine ⟨l', ?_⟩
      rw [← hmr]
      exact follow_onward m hf
    · split at h <;> cases h

/-- With no link on the way, what is found and what is missing make up
the path. -/
theorem landing_plain (hs : Descends path)
    (hp : ∀ q, q <+: path → disk.isLink (base ++ q) = false)
    (hq : disk.landing links base path = some (q, rest)) :
    q ++ rest = base ++ path := by
  induction path generalizing links base with
  | nil =>
    cases hq
    rfl
  | cons n m ih =>
    unfold landing at hq
    split at hq
    · next p left hf =>
      have hone : ∀ q, q <+: [n] → disk.isLink (base ++ q) = false :=
        fun q hq => hp q (hq.trans ⟨m, rfl⟩)
      have hn : Descends [n] := fun c hc => by
        rw [mem_singleton.1 hc]
        exact hs n mem_cons_self
      obtain ⟨rfl, rfl⟩ := follow_plain hn hone hf
      rw [ih hs.tail ?_ hq, append_assoc]
      · rfl
      · intro q hq
        rw [append_assoc]
        exact hp (n :: q) (prefix_cons_inj n |>.mpr hq)
    · split at hq
      · cases hq
        rfl
      · cases hq

theorem landing_missing (disk : Disk B) (links : Nat)
    (hs : Descends path) (hn : ∀ n m, path = n :: m →
      disk.find (base ++ [n]) = none) :
    disk.landing links base path = some (base, path) := by
  cases path with
  | nil => rfl
  | cons n m =>
    obtain ⟨hdot, hd⟩ := hs n mem_cons_self
    have hf := hn n m rfl
    have hms : disk.follow links base [n] = .missing := by
      unfold follow hop
      rw [if_neg hdot, if_neg hd, hf]
    unfold landing
    rw [hms]
    exact if_pos hf

theorem landing_clear (disk : Disk B) (links : Nat)
    (hs : Descends path) (hcl : ∀ q, q <+: path →
      disk.find (base ++ q) = none ∨ disk.find (base ++ q) = some .dir) :
    ∃ q rest, disk.landing links base path = some (q, rest)
      ∧ q ++ rest = base ++ path ∧ base <+: q := by
  induction path generalizing base with
  | nil => exact ⟨base, [], rfl, rfl, prefix_refl base⟩
  | cons name more ih =>
    obtain ⟨hdot, hd⟩ := hs name mem_cons_self
    have hds : Descends [name] := fun c hc => by
      rw [mem_singleton.1 hc]
      exact ⟨hdot, hd⟩
    unfold landing
    rcases hcl [name] ⟨more, rfl⟩ with hn | hdir
    · have hms : disk.follow links base [name] = .missing := by
        unfold follow hop
        rw [if_neg hdot, if_neg hd, hn]
      rw [hms]
      refine ⟨base, name :: more, ?_, rfl, prefix_refl base⟩
      rw [if_pos hn]
    · have hnx : disk.follow links base [name]
          = .dir (base ++ [name]) links := by
        unfold follow hop
        rw [if_neg hdot, if_neg hd, hdir]
        rfl
      rw [hnx]
      have hc' : ∀ q, q <+: more →
          disk.find (base ++ [name] ++ q) = none
            ∨ disk.find (base ++ [name] ++ q) = some .dir := by
        intro q hq
        rw [append_assoc]
        exact hcl (name :: q) (prefix_cons_inj name |>.mpr hq)
      obtain ⟨q, rest, hl, heq, hp⟩ := ih hs.tail hc'
      refine ⟨q, rest, hl, ?_, (prefix_append base _).trans hp⟩
      rw [heq, append_assoc]
      rfl

end Disk

end TikTools.Lib
