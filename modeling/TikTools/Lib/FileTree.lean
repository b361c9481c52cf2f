/-
File trees: the part of a file system a program owns, as a function
from paths to entries.

A path is the list of its components. Joining a component means what
the operating system makes of it: "." and the empty component name the
directory itself, ".." its parent, anything else a child
(`Path.join`). A component that is PLAIN can only name a child.

The operations — remove, graft, move, create directories, write — are
total functions on trees; whether a call succeeds is the caller's
question. Each comes with the same two lemmas: what is found at the
place it worked on, and that a place APART from it (neither above nor
below) is untouched.
-/
import Mathlib.Data.List.Infix

namespace TikTools.Lib

open List

/-- A path, as its components from the root. -/
abbrev Path := List String

namespace Path

-- ==== paths

/-- A component that names a child, not the directory or its parent. -/
def Plain (component : String) : Prop :=
  component ≠ "" ∧ component ≠ "." ∧ component ≠ ".."

instance (component : String) : Decidable (Plain component) :=
  inferInstanceAs (Decidable (_ ∧ _ ∧ _))

/-- Join one component to a directory, as the file system resolves
it. -/
def join (base : Path) (component : String) : Path :=
  if component = "" ∨ component = "." then base
  else if component = ".." then base.dropLast
  else base ++ [component]

variable {base : Path}

theorem join_plain {c : String} (h : Plain c) :
    join base c = base ++ [c] := by
  obtain ⟨h1, h2, h3⟩ := h
  unfold join
  rw [if_neg (by simp [h1, h2]), if_neg h3]

@[simp] theorem join_dot (base : Path) : join base "." = base := by
  simp [join]

@[simp] theorem join_dotdot (base : Path) :
    join base ".." = base.dropLast := by
  simp [join]

theorem isPrefix_join (base : Path) (l component : String) :
    base <+: join (base ++ [l]) component := by
  unfold join
  split
  · exact prefix_append base [l]
  · split
    · rw [dropLast_concat]
    · rw [append_assoc]
      exact prefix_append base _

theorem isPrefix_join_plain (base : Path) {component : String}
    (h : Plain component) : base <+: join base component := by
  rw [join_plain h]
  exact prefix_append base [component]

/-- Neither path lies at or below the other. -/
def Apart (p q : Path) : Prop := ¬ p <+: q ∧ ¬ q <+: p

instance (p q : Path) : Decidable (Apart p q) :=
  inferInstanceAs (Decidable (_ ∧ _))

variable {p q : Path}

theorem Apart.symm (h : Apart p q) : Apart q p := ⟨h.2, h.1⟩

theorem Apart.ne (h : Apart p q) : p ≠ q := by
  intro e
  subst e
  exact h.1 (prefix_refl p)

theorem apart_children {a b : String} (h : a ≠ b) :
    Apart (base ++ [a]) (base ++ [b]) := by
  constructor
  · intro hp
    have := (prefix_append_right_inj base).1 hp
    simp [cons_prefix_cons, h] at this
  · intro hp
    have := (prefix_append_right_inj base).1 hp
    simp [cons_prefix_cons, Ne.symm h] at this

theorem Apart.below {p' q' : Path} (h : Apart p q) (hp : p <+: p')
    (hq : q <+: q') : Apart p' q' := by
  constructor
  · intro hle
    rcases prefix_or_prefix_of_prefix (hp.trans hle) hq with h1 | h1
    · exact h.1 h1
    · exact h.2 h1
  · intro hle
    rcases prefix_or_prefix_of_prefix (hq.trans hle) hp with h1 | h1
    · exact h.2 h1
    · exact h.1 h1

theorem apart_of_ne {a b : String} (h : a ≠ b) :
    Apart (base ++ a :: p) (base ++ b :: q) := by
  have hap : Apart (base ++ [a]) (base ++ [b]) := apart_children h
  refine hap.below ?_ ?_
  · exact ⟨p, by simp⟩
  · exact ⟨q, by simp⟩

end Path

-- ==== trees

/-- What a path holds: a directory, or a file with its content. -/
inductive Entry (B : Type) where
  | dir
  | file (content : B)
  deriving DecidableEq

/-- A file tree. -/
abbrev FileTree (B : Type) := Path → Option (Entry B)

variable {entries : List (Path × Entry B)}

namespace FileTree

variable {B : Type}

/-- The tree found at a path, relative to it. -/
def subtree (t : FileTree B) (p : Path) : FileTree B := fun q => t (p ++ q)

/-- The tree below a directory; nothing when the path holds none. -/
def directory (t : FileTree B) (p : Path) : Option (FileTree B) :=
  match t p with
  | some .dir => some (t.subtree p)
  | _ => none

/-- Remove a path and everything below it. -/
def remove (t : FileTree B) (p : Path) : FileTree B := fun q =>
  if p <+: q then none else t q

/-- Replace whatever a path holds by the tree `s`. -/
def graft (t : FileTree B) (p : Path) (s : FileTree B) : FileTree B := fun q =>
  if p <+: q then s (q.drop p.length) else t q

/-- Move the tree at `s` to `d`. -/
def move (t : FileTree B) (s d : Path) : FileTree B :=
  (t.remove s).graft d (t.subtree s)

/-- Create a directory and its missing ancestors. -/
def mkdirs (t : FileTree B) (p : Path) : FileTree B := fun q =>
  if q <+: p ∧ t q = none then some .dir else t q

/-- Write a file. -/
def write (t : FileTree B) (p : Path) (content : B) : FileTree B := fun q =>
  if q = p then some (.file content) else t q

/-- Remove one file. -/
def unlink (t : FileTree B) (p : Path) : FileTree B := fun q =>
  if q = p then none else t q

/-- The part of a tree a filter keeps. -/
def restrict (t : FileTree B) (keep : Path → Bool) : FileTree B := fun q =>
  if keep q then t q else none

/-- The tree that holds nothing. -/
def empty : FileTree B := fun _ => none

/-- A path holds a directory. -/
def isDir (t : FileTree B) (p : Path) : Bool :=
  match t p with
  | some .dir => true
  | _ => false

/-- A path holds a file. -/
def isFile (t : FileTree B) (p : Path) : Bool :=
  match t p with
  | some (.file _) => true
  | _ => false

/-- No file stands at a path or on the way to it. -/
def clear (t : FileTree B) (p : Path) : Bool :=
  p.inits.all fun q => !t.isFile q

/-- A path and everything on the way to it is a directory. -/
def reachable (t : FileTree B) (p : Path) : Bool :=
  p.inits.all fun q => t.isDir q

/-- Whatever exists lies in a directory. -/
def WellFormed (t : FileTree B) : Prop :=
  ∀ p q, p <+: q → p ≠ q → t q ≠ none → t p = some .dir

/-- Every file lies in a directory. -/
def Housed (t : FileTree B) : Prop :=
  ∀ p, t.isFile p = true → t.isDir p.dropLast = true

/-- Create a directory and its missing ancestors, unless a file stands
in the way. -/
def createDirAll (t : FileTree B) (p : Path) : Option (FileTree B) :=
  if t.clear p then some (t.mkdirs p) else none

/-- Read a file. -/
def read (t : FileTree B) (p : Path) : Option B :=
  if t.reachable p.dropLast then
    match t p with
    | some (.file content) => some content
    | _ => none
  else none

/-- The file a path holds. -/
def file (t : FileTree B) (p : Path) : Option B :=
  match t p with
  | some (.file content) => some content
  | _ => none

-- ---- one operation

theorem subtree_apply (t : FileTree B) (p q : Path) :
    t.subtree p q = t (p ++ q) := rfl

theorem subtree_nil (t : FileTree B) : t.subtree [] = t := rfl

variable {s t : FileTree B} {p : Path}

theorem subtree_congr (h : ∀ q, p <+: q → s q = t q) :
    s.subtree p = t.subtree p := by
  funext q
  exact h _ (prefix_append p q)

variable {q : Path}

theorem isDir_congr (h : s p = t q) : s.isDir p = t.isDir q := by
  unfold isDir
  rw [h]

theorem isFile_congr (h : s p = t q) : s.isFile p = t.isFile q := by
  unfold isFile
  rw [h]

theorem directory_eq_none (h : t.isDir p = false) : t.directory p = none := by
  unfold isDir at h
  unfold directory
  split at h
  case h_1 => cases h
  case h_2 => rfl

theorem directory_subtree (t : FileTree B) (p : Path) :
    (t.subtree p).directory [] = t.directory p := by
  unfold directory
  rw [subtree_apply, append_nil, subtree_nil]

theorem remove_self (t : FileTree B) (p : Path) :
    (t.remove p).subtree p = empty := by
  funext q
  simp [subtree, remove, empty]

theorem remove_below (t : FileTree B) (h : p <+: q) :
    (t.remove p).subtree q = empty := by
  funext r
  unfold subtree remove empty
  rw [if_pos (h.trans (prefix_append q r))]

theorem remove_apart (t : FileTree B) (h : Path.Apart p q) :
    (t.remove p).subtree q = t.subtree q := by
  refine subtree_congr fun r hr => ?_
  unfold remove
  rw [if_neg]
  intro hp
  exact (h.below (prefix_refl p) hr).1 hp

@[simp] theorem graft_self (t : FileTree B) (p : Path) (s : FileTree B) :
    (t.graft p s).subtree p = s := by
  funext q
  simp [subtree, graft]

theorem graft_below (t : FileTree B) (p q : Path) (s : FileTree B) :
    (t.graft p s).subtree (p ++ q) = s.subtree q := by
  funext r
  simp [subtree, graft, append_assoc]

theorem graft_apart (t : FileTree B) (s : FileTree B) (h : Path.Apart p q) :
    (t.graft p s).subtree q = t.subtree q := by
  refine subtree_congr fun r hr => ?_
  unfold graft
  rw [if_neg]
  intro hp
  exact (h.below (prefix_refl p) hr).1 hp

theorem move_destination (t : FileTree B) (s d : Path) :
    (t.move s d).subtree d = t.subtree s := graft_self _ _ _

/-- Creating directories adds nothing below a path that is not on the
way to them. -/
theorem mkdirs_off (t : FileTree B) (h : ¬ q <+: p) :
    (t.mkdirs p).subtree q = t.subtree q := by
  refine subtree_congr fun r hr => ?_
  unfold mkdirs
  rw [if_neg]
  intro hp
  exact h (hr.trans hp.1)

theorem write_apart (t : FileTree B) (c : B) (h : ¬ q <+: p) :
    (t.write p c).subtree q = t.subtree q := by
  refine subtree_congr fun r hr => ?_
  unfold write
  rw [if_neg]
  intro e
  exact h (e ▸ hr)

-- ---- on the way to a path

theorem clear_iff : t.clear p = true ↔ ∀ q, q <+: p → t.isFile q = false := by
  simp [clear]

theorem reachable_iff :
    t.reachable p = true ↔ ∀ q, q <+: p → t.isDir q = true := by
  simp [reachable]

theorem isFile_of_isDir (h : t.isDir p = true) : t.isFile p = false := by
  unfold isDir at h
  unfold isFile
  split at h
  case h_1 e => rw [e]
  case h_2 => cases h

theorem clear_of_reachable (h : t.reachable p = true) : t.clear p = true := by
  rw [clear_iff]
  intro q hq
  exact isFile_of_isDir (reachable_iff.1 h q hq)

theorem clear_below (h : t.clear p = true) (hq : q <+: p) :
    t.clear q = true := by
  rw [clear_iff] at h ⊢
  intro r hr
  exact h r (hr.trans hq)

theorem clear_congr (h : ∀ q, q <+: p → s.isFile q = t.isFile q) :
    s.clear p = t.clear p := by
  rw [Bool.eq_iff_iff, clear_iff, clear_iff]
  constructor
  · intro hs q hq
    rw [← h q hq]
    exact hs q hq
  · intro ht q hq
    rw [h q hq]
    exact ht q hq

theorem reachable_congr (h : ∀ q, q <+: p → s q = t q) :
    s.reachable p = t.reachable p := by
  rw [Bool.eq_iff_iff, reachable_iff, reachable_iff]
  constructor
  · intro hs q hq
    rw [← isDir_congr (h q hq)]
    exact hs q hq
  · intro ht q hq
    rw [isDir_congr (h q hq)]
    exact ht q hq

theorem reachable_child {c : String} (h : t.reachable p = true)
    (hc : t.isDir (p ++ [c]) = true) : t.reachable (p ++ [c]) = true := by
  rw [reachable_iff] at h ⊢
  intro q hq
  rcases prefix_concat_iff.1 hq with rfl | hq
  · exact hc
  · exact h q hq

theorem isFile_mkdirs (t : FileTree B) (d p : Path) :
    (t.mkdirs d).isFile p = t.isFile p := by
  unfold isFile mkdirs
  by_cases h : p <+: d ∧ t p = none
  · rw [if_pos h, h.2]
  · rw [if_neg h]

theorem file_mkdirs (t : FileTree B) (d p : Path) :
    (t.mkdirs d).file p = t.file p := by
  unfold file mkdirs
  by_cases h : p <+: d ∧ t p = none
  · rw [if_pos h, h.2]
  · rw [if_neg h]

theorem file_write_self (t : FileTree B) (p : Path) (content : B) :
    (t.write p content).file p = some content := by
  unfold file write
  rw [if_pos rfl]

theorem file_write_ne (t : FileTree B) (c : B) (h : q ≠ p) :
    (t.write p c).file q = t.file q := by
  unfold file write
  rw [if_neg h]

theorem file_unlink (t : FileTree B) (h : q ≠ p) :
    (t.unlink p).file q = t.file q := by
  unfold file unlink
  rw [if_neg h]

theorem file_remove (t : FileTree B) (h : ¬ p <+: q) :
    (t.remove p).file q = t.file q := by
  unfold file remove
  rw [if_neg h]

theorem mkdirs_present (d : Path) (h : t p ≠ none) : t.mkdirs d p = t p := by
  unfold mkdirs
  rw [if_neg fun hc => h hc.2]

variable {d : Path}

theorem graft_off (s : FileTree B) (h : ¬ d <+: p) : t.graft d s p = t p := by
  unfold graft
  rw [if_neg h]

theorem clear_mkdirs (d : Path) (h : t.clear p = true) :
    (t.mkdirs d).clear p = true := by
  rw [clear_iff] at h ⊢
  intro q hq
  have := h q hq
  unfold isFile mkdirs at *
  by_cases hd : q <+: d ∧ t q = none
  · rw [if_pos hd]
  · rw [if_neg hd]
    exact this

theorem clear_remove (d : Path) (h : t.clear p = true) :
    (t.remove d).clear p = true := by
  rw [clear_iff] at h ⊢
  intro q hq
  have := h q hq
  unfold isFile remove at *
  by_cases hd : d <+: q
  · rw [if_pos hd]
  · rw [if_neg hd]
    exact this

theorem clear_graft (s : FileTree B) (hd : ¬ d <+: p) (h : t.clear p = true) :
    (t.graft d s).clear p = true := by
  rw [clear_iff] at h ⊢
  intro q hq
  have := h q hq
  unfold isFile graft at *
  rw [if_neg fun hdq => hd (hdq.trans hq)]
  exact this

theorem clear_write (c : B) (hd : ¬ d <+: p) (h : t.clear p = true) :
    (t.write d c).clear p = true := by
  rw [clear_iff] at h ⊢
  intro q hq
  have := h q hq
  have hne : q ≠ d := by
    intro e
    subst e
    exact hd hq
  unfold isFile write at *
  rw [if_neg hne]
  exact this

-- ---- housed files

theorem isFile_of_file {c : B} (h : t.file p = some c) :
    t.isFile p = true := by
  unfold isFile
  unfold file at h
  split at h
  case h_1 e => rfl
  case h_2 => cases h

theorem isDir_mkdirs (d : Path) (h : t.isDir p = true) :
    (t.mkdirs d).isDir p = true := by
  rw [← h]
  apply isDir_congr
  apply mkdirs_present
  intro hn
  rw [isDir, hn] at h
  cases h

theorem Housed.mkdirs (h : t.Housed) (d : Path) : (t.mkdirs d).Housed := by
  intro p hp
  rw [isFile_mkdirs] at hp
  exact isDir_mkdirs d (h p hp)

theorem Housed.write (h : t.Housed) (c : B)
    (hp : t.isDir p.dropLast = true) (hd : t.isDir p = false) :
    (t.write p c).Housed := by
  have hk : ∀ q, t.isDir q = true →
      (t.write p c).isDir q = true := by
    intro q hq
    rw [← hq]
    apply isDir_congr
    unfold FileTree.write
    rw [if_neg]
    rintro rfl
    rw [hq] at hd
    cases hd
  intro q hq
  by_cases hqp : q = p
  · subst hqp
    exact hk _ hp
  · apply hk
    apply h
    rw [← hq]
    apply isFile_congr
    unfold FileTree.write
    rw [if_neg hqp]

theorem Housed.unlink (h : t.Housed) (hf : t.isFile p = true) :
    (t.unlink p).Housed := by
  intro q hq
  have hqp : q ≠ p := by
    rintro rfl
    unfold isFile FileTree.unlink at hq
    rw [if_pos rfl] at hq
    cases hq
  have hold : t.isFile q = true := by
    rw [← hq]
    apply isFile_congr
    unfold FileTree.unlink
    rw [if_neg hqp]
  have hdir := h q hold
  rw [← hdir]
  apply isDir_congr
  unfold FileTree.unlink
  rw [if_neg]
  intro e
  rw [e] at hdir
  rw [isFile_of_isDir hdir] at hf
  cases hf

theorem Housed.remove (h : t.Housed) (d : Path) : (t.remove d).Housed := by
  intro q hq
  have hqd : ¬ d <+: q := by
    intro hd
    unfold isFile FileTree.remove at hq
    rw [if_pos hd] at hq
    cases hq
  have hold : t.isFile q = true := by
    rw [← hq]
    apply isFile_congr
    unfold FileTree.remove
    rw [if_neg hqd]
  rw [← h q hold]
  apply isDir_congr
  unfold FileTree.remove
  rw [if_neg fun hd => hqd (hd.trans ( dropLast_prefix q))]

-- ---- finite trees

/-- The tree that holds the listed entries. -/
def ofList (entries : List (Path × Entry B)) : FileTree B := fun p =>
  entries.lookup p

theorem ofList_mem
    (h : ofList entries p ≠ none) : p ∈ entries.map Prod.fst := by
  unfold ofList at h
  induction entries with
  | nil => exact absurd rfl h
  | cons e l ih =>
    rw [lookup_cons] at h
    by_cases he : p = e.1
    · rw [he]
      exact mem_cons_self
    · rw [beq_eq_false_iff_ne.2 he] at h
      exact mem_cons_of_mem _ (ih h)

theorem wellFormed_ofList
    (h : ∀ q ∈ entries.map Prod.fst, ∀ p ∈ q.inits, p = q
      ∨ (ofList entries).isDir p = true) : (ofList entries).WellFormed := by
  intro p q hpq hne hq
  rcases h q (ofList_mem hq) p (mem_inits _ _ |>.2 hpq) with e | hd
  · exact absurd e hne
  · unfold isDir at hd
    split at hd
    case h_1 e => exact e
    case h_2 => cases hd

theorem housed_ofList
    (h : ∀ p ∈ entries.map Prod.fst, (ofList entries).isFile p = true →
      (ofList entries).isDir p.dropLast = true) :
    (ofList entries).Housed := by
  intro p hp
  refine h p (ofList_mem fun hn => ?_) hp
  rw [isFile, hn] at hp
  cases hp

theorem ofList_off {base : Path}
    (h : ∀ p ∈ entries.map Prod.fst, ¬ base <+: p) (q : Path) :
    ofList entries (base ++ q) = none := by
  by_contra hne
  exact h _ (ofList_mem hne) (prefix_append base q)

end FileTree

-- ==== families

/-- A family of places, each apart from the others. What a program does
at one of them it does not do at another. -/
structure Places (ι : Type) where
  path : ι → Path
  nonempty : ∀ i, path i ≠ []
  apart : ∀ i j, i ≠ j → Path.Apart (path i) (path j)

namespace Places

variable {ι B : Type} (F : Places ι)

/-- What a tree holds at each place. -/
def slots (t : FileTree B) : ι → FileTree B := fun i => t.subtree (F.path i)

theorem slots_root (t : FileTree B) (i : ι) :
    F.slots t i [] = t (F.path i) := by
  simp [slots, FileTree.subtree]

theorem not_prefix_parent (i j : ι) :
    ¬ F.path i <+: (F.path j).dropLast := by
  intro h
  have hj : (F.path j).dropLast <+: F.path j := dropLast_prefix _
  by_cases hij : i = j
  · subst hij
    have hlen := h.length_le
    have hpos := length_pos_of_ne_nil (F.nonempty i)
    rw [length_dropLast] at hlen
    omega
  · exact (F.apart i j hij).1 (h.trans hj)

theorem slots_mkdirs_above (t : FileTree B) {p : Path} (j : ι)
    (hp : p <+: (F.path j).dropLast) :
    F.slots (t.mkdirs p) = F.slots t := by
  funext i
  exact FileTree.mkdirs_off t fun h => F.not_prefix_parent i j (h.trans hp)

theorem clear_parent_graft {t : FileTree B} {i j : ι} (s : FileTree B)
    (h : t.clear (F.path i).dropLast = true) :
    (t.graft (F.path j) s).clear (F.path i).dropLast = true :=
  FileTree.clear_graft s (F.not_prefix_parent j i) h

variable [DecidableEq ι]

theorem slots_remove (t : FileTree B) (j : ι) :
    F.slots (t.remove (F.path j))
      = Function.update (F.slots t) j FileTree.empty := by
  funext i
  rw [Function.update_apply]
  split
  case isTrue h =>
    subst h
    exact FileTree.remove_self t _
  case isFalse h => exact FileTree.remove_apart t (F.apart j i (Ne.symm h))

theorem slots_graft (t : FileTree B) (j : ι) (s : FileTree B) :
    F.slots (t.graft (F.path j) s) = Function.update (F.slots t) j s := by
  funext i
  rw [Function.update_apply]
  split
  case isTrue h =>
    subst h
    exact FileTree.graft_self t _ s
  case isFalse h => exact FileTree.graft_apart t s (F.apart j i (Ne.symm h))

end Places

end TikTools.Lib
