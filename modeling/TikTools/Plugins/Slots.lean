/-
The installer on slots.

The files one operation touches are five kinds of SLOT, apart from one
another: the package, its receipt, the candidate in its staging
directory, the place of a package that could not be activated, and the
children of the plugin's versions directory. What a tree holds there is
a function on slots, and a move between two of them is `moveSlot`.

`Sees` relates the two. It is exact except at the receipts of the
version being retained, where it only speaks of directories: these are
written whatever happens next, and never in the place of a directory.
The outcome lemmas (`install_outcome` to `swapRetained_outcome`) say
that a run that returns its fault's error ends, as seen on slots, in
the state the slot functions compute.
-/
import TikTools.Plugins.Installer
import Mathlib.Logic.Function.Basic

namespace TikTools.Plugins

open TikTools.Lib List FileTree Function Path

-- ==== slots

inductive Slot where
  | package
  | receipt
  | candidate
  | failed
  | kept (component : {c : String // Path.Plain c})
  deriving DecidableEq

/-- Where one operation on a plugin works. -/
structure Site where
  layout : StoreLayout
  pluginId : String
  stagingName : String
  failedName : String
  /-- The package root below the staging's "package" directory. -/
  root : Path
  valid : isValidPluginId pluginId = true
  separate : Path.Apart layout.plugins layout.store
  distinct : stagingName ≠ failedName

namespace Site

variable (site : Site)

def path : Slot → Path
  | .package => site.layout.plugins ++ [site.pluginId]
  | .receipt =>
    site.layout.store ++ ["receipts", site.pluginId ++ ".json"]
  | .candidate =>
    site.layout.plugins
      ++ ".staging" :: site.stagingName :: "package" :: site.root
  | .failed =>
    site.layout.plugins ++ [".staging", site.failedName, site.pluginId]
  | .kept c => site.layout.store ++ ["versions", site.pluginId, c]

theorem pluginId_ne_staging : site.pluginId ≠ ".staging" := by
  intro e
  have h := site.valid
  rw [e] at h
  revert h
  decide

theorem plugins_store (p q : Path) :
    Path.Apart (site.layout.plugins ++ p) (site.layout.store ++ q) :=
  site.separate.below (prefix_append _ _) (prefix_append _ _)

theorem store_plugins (p q : Path) :
    Path.Apart (site.layout.store ++ p) (site.layout.plugins ++ q) :=
  (site.plugins_store q p).symm

theorem path_apart (i j : Slot) (h : i ≠ j) :
    Path.Apart (site.path i) (site.path j) := by
  have hid := site.pluginId_ne_staging
  cases i <;> cases j
  all_goals first
    | exact absurd rfl h
    | exact site.plugins_store _ _
    | exact site.store_plugins _ _
    | exact apart_of_ne hid
    | exact apart_of_ne (Ne.symm hid)
    | exact apart_of_ne (show "receipts" ≠ "versions" by decide)
    | exact apart_of_ne (show "versions" ≠ "receipts" by decide)
    | skip
  case candidate.failed =>
    have := @apart_of_ne (site.layout.plugins ++ [".staging"])
      ("package" :: site.root) [site.pluginId] _ _ site.distinct
    simpa [path] using this
  case failed.candidate =>
    have := @apart_of_ne (site.layout.plugins ++ [".staging"])
      [site.pluginId] ("package" :: site.root) _ _
      (Ne.symm site.distinct)
    simpa [path] using this
  case kept.kept a b =>
    have hne : a.val ≠ b.val := by
      intro e
      exact h (congrArg Slot.kept (Subtype.ext e))
    have := @apart_of_ne
      (site.layout.store ++ ["versions", site.pluginId]) [] [] _ _ hne
    simpa [path] using this

/-- The slots as a family of places. -/
def places : Places Slot where
  path := site.path
  nonempty := by
    intro i
    cases i <;> simp [path]
  apart := site.path_apart

end Site

-- ==== moving slots

section

variable {ι B : Type} [DecidableEq ι]
  (replaces : FileTree B → FileTree B → Bool)

/-- A move, as its outcome on slots. -/
def moveSlot (mishap : Option Mishap) (i j : ι) (σ : ι → FileTree B) :
    Bool × (ι → FileTree B) :=
  match mishap with
  | none =>
    if (σ i []).isSome && !occupied replaces (σ i) (σ j) then
      (true, Function.update (Function.update σ i .empty) j (σ i))
    else (false, σ)
  | some mishap =>
    if (σ j []).isSome then (false, σ)
    else
      (false, Function.update
        (Function.update σ j (mishap.destination (σ i))) i
        (mishap.source (σ i)))

end

/-- What a tree holds at the slots. Of a LOOSE slot only its directory
is known: receipts are written there. `ways` are the slots whose
parents can be created. -/
structure Sees {ι B : Type} (F : Places ι) (ways loose : ι → Prop)
    (t : FileTree B) (σ : ι → FileTree B) : Prop where
  exact : ∀ i, ¬ loose i → F.slots t i = σ i
  dirs : ∀ i, (F.slots t i).directory [] = (σ i).directory []
  clear : ∀ i, ways i → t.clear (F.path i).dropLast = true

namespace Sees

variable {ι B : Type} {F : Places ι} {ways loose : ι → Prop}
  {t : FileTree B} {σ : ι → FileTree B}

theorem start (t : FileTree B)
    (h : ∀ i, ways i → t.clear (F.path i).dropLast = true) :
    Sees F ways loose t (F.slots t) where
  exact := fun _ _ => rfl
  dirs := fun _ => rfl
  clear := h

variable {i j : ι}

section

variable (h : Sees F ways loose t σ)
include h

theorem root (hi : ¬ loose i) :
    t (F.path i) = σ i [] := by
  rw [← h.exact i hi, F.slots_root]

theorem subtree (hi : ¬ loose i) : t.subtree (F.path i) = σ i := h.exact i hi

theorem mkdirs {p : Path} (j : ι)
    (hp : p <+: (F.path j).dropLast) :
    Sees F ways loose (t.mkdirs p) σ where
  exact := fun i hi => by rw [F.slots_mkdirs_above t j hp, h.exact i hi]
  dirs := fun i => by rw [F.slots_mkdirs_above t j hp, h.dirs i]
  clear := fun i hi => clear_mkdirs p (h.clear i hi)

theorem widen (j : ι)
    (hj : t.clear (F.path j).dropLast = true) :
    Sees F (fun i => ways i ∨ i = j) loose t σ where
  exact := h.exact
  dirs := h.dirs
  clear := by
    rintro i (hi | rfl)
    · exact h.clear i hi
    · exact hj

end

theorem narrow {w' : ι → Prop} (h : Sees F ways loose t σ)
    (hw : ∀ i, w' i → ways i) : Sees F w' loose t σ where
  exact := h.exact
  dirs := h.dirs
  clear := fun i hi => h.clear i (hw i hi)

variable [DecidableEq ι]

section

variable (h : Sees F ways loose t σ)
include h

theorem graft (j : ι) (s : FileTree B) :
    Sees F ways loose (t.graft (F.path j) s) (Function.update σ j s) where
  exact := by
    intro i hi
    rw [F.slots_graft, update_apply, update_apply, h.exact i hi]
  dirs := by
    intro i
    rw [F.slots_graft, update_apply, update_apply]
    split
    · rfl
    · exact h.dirs i
  clear := fun i hi => F.clear_parent_graft s (h.clear i hi)

theorem remove (j : ι) :
    Sees F ways loose (t.remove (F.path j)) (Function.update σ j .empty) where
  exact := by
    intro i hi
    rw [F.slots_remove, update_apply, update_apply, h.exact i hi]
  dirs := by
    intro i
    rw [F.slots_remove, update_apply, update_apply]
    split
    · rfl
    · exact h.dirs i
  clear := fun i hi => clear_remove _ (h.clear i hi)

theorem move (hi : ¬ loose i)
    (j : ι) : Sees F ways loose (t.move (F.path i) (F.path j))
      (Function.update (Function.update σ i .empty) j (σ i)) := by
  unfold FileTree.move
  rw [h.subtree hi]
  exact (h.remove i).graft j _

theorem moveDir (replaces : FileTree B → FileTree B → Bool)
    (m : Option Mishap)
    (hi : ¬ loose i) (hj : ¬ loose j) (hw : ways j) :
    ∃ t', moveDir replaces m (F.path i) (F.path j) t
        = ((moveSlot replaces m i j σ).1, t')
      ∧ Sees F ways loose t' (moveSlot replaces m i j σ).2 := by
  have hm : Sees F ways loose (t.mkdirs (F.path j).dropLast) σ :=
    h.mkdirs _ (prefix_refl _)
  have hd : t.createDirAll (F.path j).dropLast
      = some (t.mkdirs (F.path j).dropLast) := by
    unfold FileTree.createDirAll
    rw [if_pos (h.clear j hw)]
  unfold Plugins.moveDir moveSlot
  simp only [hd]
  cases m with
  | none =>
    simp only [hm.root hi, hm.subtree hi, hm.subtree hj]
    split
    · exact ⟨_, rfl, hm.move hi j⟩
    · exact ⟨_, rfl, hm⟩
  | some m =>
    simp only [hm.root hj, hm.subtree hi]
    split
    · exact ⟨_, rfl, hm⟩
    · exact ⟨_, rfl, (hm.graft j _).graft i _⟩

theorem rewrite {t' : FileTree B}
    (hj : loose j) (hl : t.isDir (F.path j) = false)
    (hn : t'.isDir (F.path j) = false)
    (ho : ∀ k, k ≠ j → F.slots t' k = F.slots t k)
    (hc : ∀ k, t.clear (F.path k).dropLast = true →
      t'.clear (F.path k).dropLast = true) :
    Sees F ways loose t' σ where
  exact := by
    intro i hi
    rw [ho i fun e => hi (e ▸ hj), h.exact i hi]
  dirs := by
    intro i
    by_cases e : i = j
    · subst e
      have hσ := h.dirs i
      unfold Places.slots at hσ ⊢
      rw [directory_subtree] at hσ ⊢
      rw [directory_eq_none hl] at hσ
      rw [directory_eq_none hn, hσ]
    · rw [ho i e, h.dirs i]
  clear := fun i hi => hc i (h.clear i hi)

/-- A receipt is written to loose slots only, and never in the place of
a directory. -/
theorem writeReceipt {c : Codec B}
    (i j : ι) (hij : i ≠ j) (hi : loose i) (hj : loose j)
    (htmp : temporary (F.path i) = F.path j) (r : InstallReceipt) :
    Sees F ways loose (writeReceipt c (F.path i) r t).2 σ := by
  unfold Plugins.writeReceipt FileTree.createDirAll
  rw [htmp]
  split
  case h_1 => exact h
  case h_2 t1 h1 =>
    have hm : Sees F ways loose t1 σ := by
      split at h1
      · cases h1
        exact h.mkdirs _ (prefix_refl _)
      · cases h1
    split
    case isTrue => exact hm
    case isFalse ht =>
      have ht : t1.isDir (F.path j) = false := by simpa using ht
      -- the temporary file
      generalize hw : t1.write (F.path j) (c.encode r) = t2
      have hf : t2.isDir (F.path j) = false := by
        rw [← hw]
        simp [FileTree.isDir, FileTree.write]
      have hs : Sees F ways loose t2 σ := by
        refine hm.rewrite hj ht hf ?_ ?_
        · intro k hk
          rw [← hw]
          exact write_apart _ _ (F.apart k j hk).1
        · intro k hk
          rw [← hw]
          exact clear_write _ (F.not_prefix_parent j k) hk
      split
      case isTrue => exact hs
      case isFalse hp =>
        have hp : t1.isDir (F.path i) = false := by
          simpa using hp
        have hr : Sees F ways loose (t2.remove (F.path j)) σ := by
          refine hs.rewrite hj hf ?_ ?_ ?_
          · simp [FileTree.isDir, FileTree.remove]
          · intro k hk
            exact remove_apart _ (F.apart j k (Ne.symm hk))
          · intro k hk
            exact clear_remove _ hk
        have hsm : (t2.remove (F.path j)) (F.path i)
            = t1 (F.path i) := by
          unfold FileTree.remove
          rw [if_neg (F.apart j i (Ne.symm hij)).1, ← hw]
          unfold FileTree.write
          rw [if_neg (F.apart i j hij).ne]
        have hmv : (t2.move (F.path j) (F.path i)) (F.path i)
            = t2 (F.path j) := by
          simp [FileTree.move, FileTree.graft, FileTree.subtree]
        refine hr.rewrite hi ?_ ?_ ?_ ?_
        · rw [isDir_congr hsm]
          exact hp
        · show (t2.move (F.path j) (F.path i)).isDir (F.path i) = false
          rw [isDir_congr hmv]
          exact hf
        · intro k hk
          exact graft_apart _ _ (F.apart i k (Ne.symm hk))
        · intro k hk
          exact F.clear_parent_graft _ hk

theorem removeAbove {p : Path}
    (hp : p <+: F.path j) (ho : ∀ k, k ≠ j → Path.Apart p (F.path k)) :
    Sees F ways loose (t.remove p) (Function.update σ j .empty) := by
  have hs : F.slots (t.remove p)
      = Function.update (F.slots t) j .empty := by
    funext k
    rw [update_apply]
    split
    case isTrue e =>
      subst e
      exact remove_below t hp
    case isFalse hk => exact remove_apart t (ho k hk)
  refine ⟨?_, ?_, ?_⟩
  · intro i hi
    rw [hs, update_apply, update_apply, h.exact i hi]
  · intro i
    rw [hs, update_apply, update_apply]
    split
    · rfl
    · exact h.dirs i
  · intro i hi
    exact clear_remove _ (h.clear i hi)

theorem removeDirIfExists (hj : ¬ loose j) {t' : FileTree B}
    (hr : removeDirIfExists (F.path j) t = some t') :
    Sees F ways loose t'
      (if (σ j []).isSome then Function.update σ j .empty else σ) := by
  have hrt := h.root hj
  unfold Plugins.removeDirIfExists at hr
  split at hr
  case h_1 e =>
    cases hr
    rw [hrt] at e
    rw [if_neg (by simp [e])]
    exact h
  case h_2 e =>
    cases hr
    rw [hrt] at e
    rw [if_pos (by simp [e])]
    exact h.remove j
  case h_3 => cases hr

end

end Sees

-- ==== failing on slots

section

variable {B : Type} (replaces : FileTree B → FileTree B → Bool)

abbrev Component := {c : String // Path.Plain c}

/-- The undo move of `swap_in`. -/
def restoreSlot (retainedTo : Option Component) (σ : Slot → FileTree B) :
    Slot → FileTree B :=
  match retainedTo with
  | some d => (moveSlot replaces none (.kept d) .package σ).2
  | none => σ

/-- The slots after `install` has failed. -/
def installOutcome (fault : Fault) (retainedTo : Option Component)
    (σ : Slot → FileTree B) : Slot → FileTree B :=
  match fault with
  | .activate _ =>
    let σ := (moveSlot replaces none .candidate .package σ).2
    let σ := (moveSlot replaces none .package .failed σ).2
    Function.update (restoreSlot replaces retainedTo σ) .failed .empty
  | .move .install mishap =>
    restoreSlot replaces retainedTo
      (moveSlot replaces (some mishap) .candidate .package σ).2
  | _ => σ

/-- A slot as `swap_in` clears it for the current package. -/
def clearSlot (j : Slot) (σ : Slot → FileTree B) : Slot → FileTree B :=
  if (σ j []).isSome then Function.update σ j .empty else σ

/-- The slots after `swap_in` has failed over an installed package. -/
def overOutcome (fault : Fault) (d : Component) (σ : Slot → FileTree B) :
    Slot → FileTree B :=
  let σ := clearSlot (.kept d) σ
  match fault with
  | .move .retainCurrent mishap =>
    (moveSlot replaces (some mishap) .package (.kept d) σ).2
  | fault =>
    installOutcome replaces fault (some d)
      (moveSlot replaces none .package (.kept d) σ).2

/-- The slots after `swap_in` has failed. -/
def swapOutcome (fault : Fault) (retainedTo : Option Component)
    (σ : Slot → FileTree B) : Slot → FileTree B :=
  match fault, retainedTo with
  | .deactivate _, _ => σ
  | fault, none => installOutcome replaces fault none σ
  | fault, some d => overOutcome replaces fault d σ

/-- The slots after a rollback has failed. -/
def rollbackOutcome (fault : Fault) (d r : Component)
    (σ : Slot → FileTree B) : Slot → FileTree B :=
  match fault with
  | .move .takeRetained mishap =>
    (moveSlot replaces (some mishap) (.kept r) .candidate σ).2
  | fault =>
    let σ := (moveSlot replaces none (.kept r) .candidate σ).2
    let σ := swapOutcome replaces fault (some d) σ
    Function.update (moveSlot replaces none .candidate (.kept r) σ).2
      .candidate .empty

end

-- ==== the code on the slots

namespace Installer

variable {B : Type}

/-- What the host gives the installer: two separate directories, and
two different staging names. -/
structure Suited (host : Installer B) : Prop where
  separate : Path.Apart host.layout.plugins host.layout.store
  staging : Path.Plain host.stagingName
  failed : Path.Plain host.failedName
  distinct : host.stagingName ≠ host.failedName

variable {self : Installer B}

/-- The site of an operation. -/
def site (self : Installer B) (suited : self.Suited) {pluginId : String}
    (hid : isValidPluginId pluginId = true) (root : Path) : Site where
  layout := self.layout
  pluginId := pluginId
  stagingName := self.stagingName
  failedName := self.failedName
  root := root
  valid := hid
  separate := suited.separate
  distinct := suited.distinct

variable (suited : self.Suited) {pluginId : String}
  (hid : isValidPluginId pluginId = true) (root : Path)

theorem package_path : self.layout.package pluginId
    = (self.site suited hid root).path .package :=
  join_plain (pluginId_plain hid)

theorem receipt_path : self.layout.receipt pluginId
    = (self.site suited hid root).path .receipt := by
  unfold StoreLayout.receipt StoreLayout.receipts
  rw [join_plain (json_plain _),
    join_plain (show Path.Plain "receipts" by decide)]
  simp [site, Site.path]

theorem kept_path (c : Component) : self.layout.versions pluginId ++ [c.val]
    = (self.site suited hid root).path (.kept c) := by
  rw [StoreLayout.versions_eq _ hid]
  simp [site, Site.path]

theorem retained_path {v : String}
    (hv : Path.Plain (sanitizeVersion v)) :
    self.layout.retained pluginId v
      = (self.site suited hid root).path (.kept ⟨_, hv⟩) := by
  unfold StoreLayout.retained
  rw [join_plain hv, ← kept_path suited hid root]

theorem staging_path : self.layout.staging
    = self.layout.plugins ++ [".staging"] :=
  join_plain (show Path.Plain ".staging" by decide)

theorem failed_path : (self.layout.staging.join self.failedName).join
      pluginId = (self.site suited hid root).path .failed := by
  rw [join_plain (pluginId_plain hid), join_plain suited.failed, staging_path]
  simp [site, Site.path]

theorem candidate_path :
    self.layout.staging.join self.stagingName ++ "package" :: root
      = (self.site suited hid root).path .candidate := by
  rw [join_plain suited.staging, staging_path]
  simp [site, Site.path]

theorem failed_below :
    self.layout.staging.join self.failedName
      <+: (self.site suited hid root).path .failed := by
  rw [← failed_path suited hid root, join_plain (pluginId_plain hid)]
  exact prefix_append _ _

theorem candidate_below :
    self.layout.staging.join self.stagingName
      <+: (self.site suited hid root).path .candidate := by
  rw [← candidate_path suited hid root]
  exact prefix_append _ _

theorem staging_apart {n : String} (hn : Path.Plain n) (j : Slot)
    (hc : j = .candidate → n ≠ self.stagingName)
    (hf : j = .failed → n ≠ self.failedName) :
    Path.Apart (self.layout.staging.join n)
      ((self.site suited hid root).path j) := by
  rw [join_plain hn, staging_path]
  have hid' := (self.site suited hid root).pluginId_ne_staging
  cases j with
  | package =>
    simpa [site, Site.path] using
      @apart_of_ne self.layout.plugins [n] [] _ _ (Ne.symm hid')
  | candidate =>
    simpa [site, Site.path] using
      @apart_of_ne (self.layout.plugins ++ [".staging"]) []
        ("package" :: root) _ _ (hc rfl)
  | failed =>
    simpa [site, Site.path] using
      @apart_of_ne (self.layout.plugins ++ [".staging"]) []
        [pluginId] _ _ (hf rfl)
  | receipt =>
    simpa [site, Site.path] using
      (self.site suited hid root).plugins_store
        [".staging", n] ["receipts", pluginId ++ ".json"]
  | kept c =>
    simpa [site, Site.path] using
      (self.site suited hid root).plugins_store
        [".staging", n] ["versions", pluginId, c.val]

section

variable {suited hid root} {ways loose : Slot → Prop} {t : FileTree B}
  {σ : Slot → FileTree B}

theorem restore_outcome
    (h : Sees (self.site suited hid root).places ways loose t σ)
    (hway : ways .package) (hp : ¬ loose .package)
    (rt : Option Component)
    (hd : ∀ d, rt = some d → ¬ loose (.kept d)) :
    Sees (self.site suited hid root).places ways loose
      (self.restore
        (rt.map fun d => (self.site suited hid root).path (.kept d))
        ((self.site suited hid root).path .package) t)
      (restoreSlot self.replaces rt σ) := by
  cases rt with
  | none => exact h
  | some d =>
    obtain ⟨t1, h1, hs⟩ := h.moveDir self.replaces none (hd d rfl) hp hway

    show Sees _ _ _ (Plugins.moveDir self.replaces none _ _ t).2 _
    rw [show Plugins.moveDir self.replaces none
      ((self.site suited hid root).path (.kept d))
      ((self.site suited hid root).path .package) t = _ from h1]
    exact hs

/-- The slots whose state a failing operation must know exactly. -/
structure Exact (loose : Slot → Prop) : Prop where
  package : ¬ loose .package
  candidate : ¬ loose .candidate
  failed : ¬ loose .failed

theorem install_outcome {fault : Fault} (hfault : self.fault = some fault)
    (h : Sees (self.site suited hid root).places ways loose t σ)
    (hway : ways .package) (hl : Exact loose)
    (rt : Option Component)
    (hd : ∀ d, rt = some d → ¬ loose (.kept d))
    (he : (self.install pluginId
      ((self.site suited hid root).path .candidate)
      (rt.map fun d => (self.site suited hid root).path (.kept d))
      t).1 = .error fault.error) :
    Sees (self.site suited hid root).places ways loose
      (self.install pluginId
        ((self.site suited hid root).path .candidate)
        (rt.map fun d =>
          (self.site suited hid root).path (.kept d)) t).2
      (installOutcome self.replaces fault rt σ) := by
  obtain ⟨t1, h1, hs⟩ := h.moveDir self.replaces (self.mishap .install)
    hl.candidate hl.package hway
  have h1 : Plugins.moveDir self.replaces (self.mishap .install)
      ((self.site suited hid root).path .candidate)
      ((self.site suited hid root).path .package) t = _ := h1
  unfold install at he ⊢
  simp only [package_path suited hid root, h1] at he ⊢
  cases hm : (moveSlot self.replaces (self.mishap .install) .candidate
    .package σ).1 with
  | false =>
    simp only [hm] at he ⊢
    have hf : fault.error = .move .install := (Except.error.inj he).symm
    obtain ⟨mishap, rfl⟩ := Fault.move_of_error hf
    have hmis : self.mishap .install = some mishap := by
      simp [Installer.mishap, hfault]
    rw [hmis] at hs
    exact restore_outcome hs hway hl.package rt hd
  | true =>
    simp only [hm, hfault] at he ⊢
    cases fault with
    | deactivate => cases he
    | move => cases he
    | activate message =>
      have hmis : self.mishap .install = none := by
        simp [Installer.mishap, hfault]
      rw [hmis] at hs
      unfold newStagingDir FileTree.createDirAll at he ⊢
      by_cases hc : t1.clear (self.layout.staging.join self.failedName) = true
      · simp only [hc, if_true, Option.map_some] at he ⊢
        have hfl : (self.site suited hid root).path .failed
            = (self.layout.staging.join self.failedName) ++ [pluginId] := by
          rw [← failed_path suited hid root, join_plain (pluginId_plain hid)]
        have hpar :
            ((self.site suited hid root).places.path .failed).dropLast
              = self.layout.staging.join self.failedName := by
          show ((self.site suited hid root).path .failed).dropLast = _
          rw [hfl, dropLast_concat]
        have hw := (hs.mkdirs .failed
          (show self.layout.staging.join self.failedName <+: _ by
            rw [hpar])).widen .failed (by
            rw [hpar]
            exact clear_mkdirs _ hc)
        obtain ⟨t2, h2, hs2⟩ := hw.moveDir self.replaces none
          hl.package hl.failed (.inr rfl)
        have h2 : Plugins.moveDir self.replaces none
          ((self.site suited hid root).path .package)
          ((self.site suited hid root).path .failed) _ = _ := h2
        rw [failed_path suited hid root]
        simp only [h2]
        have hr := restore_outcome hs2 (.inl hway) hl.package rt hd
        have hg := hr.removeAbove (failed_below suited hid root)
          fun k hk => staging_apart suited hid root suited.failed k
            (fun _ => Ne.symm suited.distinct)
            (fun e => absurd e hk)
        exact hg.narrow fun i hi => .inl hi
      · simp only [hc] at he
        cases he

/-- The receipt of a version, and its temporary file: the slots of
which only the directory is known. -/
def receiptSlots (component : String) : Slot → Prop
  | .kept c => c.val = component ++ ".json"
      ∨ c.val = component ++ ".json" ++ ".tmp"
  | _ => False

theorem receiptSlots_exact (c : String) :
    Exact (receiptSlots c) where
  package := id
  candidate := id
  failed := id

theorem kept_exact (c : Component) : ¬ receiptSlots c.val (.kept c) := by
  rintro (h | h)
  · have := congrArg String.length h
    rw [String.length_append] at this
    have h5 : ".json".length = 5 := rfl
    omega
  · have := congrArg String.length h
    rw [String.length_append, String.length_append] at this
    have h5 : ".json".length = 5 := rfl
    omega

theorem temporary_path (c : Component) (d : Component)
    (h : d.val = c.val ++ ".tmp") :
    temporary ((self.site suited hid root).path (.kept c))
      = (self.site suited hid root).path (.kept d) := by
  have hl : (self.layout.store ++ ["versions", pluginId, c.val])
      = (self.layout.store ++ ["versions", pluginId]) ++ [c.val] := by
    simp
  show temporary (self.layout.store ++ ["versions", pluginId, c.val])
    = self.layout.store ++ ["versions", pluginId, d.val]
  unfold temporary
  rw [hl, dropLast_concat, getLastD_concat, h]
  simp

theorem tmp_plain (s : String) : Path.Plain (s ++ ".json" ++ ".tmp") := by
  rw [String.append_assoc]
  have hlen : 9 ≤ (s ++ (".json" ++ ".tmp")).length := by
    rw [String.length_append]
    have : (".json" ++ ".tmp").length = 9 := rfl
    omega
  refine plain_of_ne ?_ ?_ ?_
  all_goals
    intro e
    rw [e] at hlen
    revert hlen
    decide

theorem writeReceipt_sees {v : String}
    (h : Sees (self.site suited hid root).places ways
      (receiptSlots (sanitizeVersion v)) t σ)
    (r : InstallReceipt) :
    Sees (self.site suited hid root).places ways
      (receiptSlots (sanitizeVersion v))
      (writeReceipt self.codec
        (self.layout.retainedReceipt pluginId v) r t).2 σ := by
  have hp : self.layout.retainedReceipt pluginId v
      = (self.site suited hid root).path
          (.kept ⟨sanitizeVersion v ++ ".json", json_plain _⟩) := by
    rw [StoreLayout.retainedReceipt_eq,
      ← kept_path suited hid root ⟨_, json_plain _⟩]
  rw [hp]
  refine h.writeReceipt (.kept _)
    (.kept ⟨sanitizeVersion v ++ ".json" ++ ".tmp", tmp_plain _⟩)
    ?_ (.inl rfl) (.inr rfl) ?_ r
  · intro e
    have := congrArg (fun s => match s with
      | Slot.kept c => c.val.length
      | _ => 0) e
    dsimp only at this
    rw [String.length_append _ ".tmp"] at this
    have h4 : ".tmp".length = 4 := rfl
    omega
  · exact temporary_path _ _ rfl

theorem no_mishap {m : Option Mishap} {i j : Slot}
    (h : (moveSlot self.replaces m i j σ).1 = true) :
    m = none := by
  cases m with
  | none => rfl
  | some m =>
    unfold moveSlot at h
    dsimp only at h
    split at h <;> cases h

theorem swapOver_outcome {fault : Fault} (hfault : self.fault = some fault)
    {s : CurrentState}
    (hdir : s.directory = (self.site suited hid root).path .package)
    (hv : Path.Plain (sanitizeVersion s.receipt.version))
    (h : Sees (self.site suited hid root).places ways
      (receiptSlots (sanitizeVersion s.receipt.version)) t σ)
    (hway : ways .package) (hway' : ways (.kept ⟨_, hv⟩))
    (herr : (self.swapOver pluginId
      ((self.site suited hid root).path .candidate) s t).1
        = .error fault.error) :
    Sees (self.site suited hid root).places ways
      (receiptSlots (sanitizeVersion s.receipt.version))
      (self.swapOver pluginId
        ((self.site suited hid root).path .candidate) s t).2
      (overOutcome self.replaces fault ⟨_, hv⟩ σ) := by
  have hl := receiptSlots_exact (sanitizeVersion s.receipt.version)
  have hd := kept_exact ⟨_, hv⟩
  unfold swapOver at herr ⊢
  simp only [hdir, retained_path suited hid root hv] at herr ⊢
  cases hr : Plugins.removeDirIfExists
      ((self.site suited hid root).path (.kept ⟨_, hv⟩)) t with
  | none =>
    rw [hr] at herr
    cases fault <;> cases herr
  | some t1 =>
    rw [hr] at herr
    have hc : Sees _ _ _ t1 (clearSlot (.kept ⟨_, hv⟩) σ) :=
      h.removeDirIfExists hd hr
    obtain ⟨t2, h2, hs⟩ := hc.moveDir self.replaces
      (self.mishap .retainCurrent) hl.package hd hway'
    have h2 : Plugins.moveDir self.replaces (self.mishap .retainCurrent)
      ((self.site suited hid root).path .package)
      ((self.site suited hid root).path (.kept ⟨_, hv⟩)) t1 = _ := h2
    dsimp only at herr ⊢
    rw [h2] at herr ⊢
    cases hm : (moveSlot self.replaces (self.mishap .retainCurrent)
      .package (.kept ⟨_, hv⟩) (clearSlot (.kept ⟨_, hv⟩) σ)).1 with
    | false =>
      rw [hm] at herr
      have hf : fault.error = .move .retainCurrent :=
        (Except.error.inj herr).symm
      obtain ⟨mishap, rfl⟩ := Fault.move_of_error hf
      have hmis : self.mishap .retainCurrent = some mishap := by
        simp [Installer.mishap, hfault]
      rw [hmis] at hs
      exact hs
    | true =>
      rw [hm] at herr
      have hmis : self.mishap .retainCurrent = none := no_mishap hm
      rw [hmis] at hs
      have hw := writeReceipt_sees hs { s.receipt with retained := [] }
      have hin := install_outcome hfault hw hway hl (some ⟨_, hv⟩)
        (fun d e => Option.some.inj e ▸ hd) herr
      have hout : overOutcome self.replaces fault ⟨_, hv⟩ σ
          = installOutcome self.replaces fault (some ⟨_, hv⟩)
              (moveSlot self.replaces none .package (.kept ⟨_, hv⟩)
                (clearSlot (.kept ⟨_, hv⟩) σ)).2 := by
        cases fault with
        | deactivate => rfl
        | activate => rfl
        | move step m =>
          cases step with
          | takeRetained => rfl
          | install => rfl
          | retainCurrent =>
            simp [Installer.mishap, hfault] at hmis
      rw [hout]
      exact hin

theorem swapOver_blocked {fault : Fault} {s : CurrentState}
    (hdir : s.directory = (self.site suited hid root).path .package)
    (hv : Path.Plain (sanitizeVersion s.receipt.version))
    (h : Sees (self.site suited hid root).places ways
      (receiptSlots (sanitizeVersion s.receipt.version)) t σ)
    (hb : t.clear (self.layout.versions pluginId) = false)
    (he : (self.swapOver pluginId
      ((self.site suited hid root).path .candidate) s t).1
        = .error fault.error) :
    (∃ m, fault = .move .retainCurrent m)
      ∧ Sees (self.site suited hid root).places ways
        (receiptSlots (sanitizeVersion s.receipt.version))
        (self.swapOver pluginId
          ((self.site suited hid root).path .candidate) s t).2
        (clearSlot (.kept ⟨_, hv⟩) σ) := by
  have hd := kept_exact ⟨_, hv⟩
  have hpar : ((self.site suited hid root).path (.kept ⟨_, hv⟩)).dropLast
      = self.layout.versions pluginId := by
    rw [← kept_path suited hid root, dropLast_concat]
  unfold swapOver at he ⊢
  simp only [hdir, retained_path suited hid root hv] at he ⊢
  cases hr : Plugins.removeDirIfExists
      ((self.site suited hid root).path (.kept ⟨_, hv⟩)) t with
  | none =>
    rw [hr] at he
    cases fault <;> cases he
  | some t1 =>
    rw [hr] at he
    have hc : Sees _ _ _ t1 (clearSlot (.kept ⟨_, hv⟩) σ) :=
      h.removeDirIfExists hd hr
    have hs : t1.clear (self.layout.versions pluginId) = false := by
      unfold Plugins.removeDirIfExists at hr
      split at hr
      case h_1 =>
        cases hr
        exact hb
      case h_2 =>
        cases hr
        rw [← hb]
        refine clear_congr fun q hq => ?_
        unfold FileTree.isFile FileTree.remove
        rw [if_neg]
        intro hp
        rw [← hpar] at hq
        exact (self.site suited hid root).places.not_prefix_parent
          (.kept ⟨_, hv⟩) (.kept ⟨_, hv⟩) (hp.trans hq)
      case h_3 => cases hr
    have hmv : Plugins.moveDir self.replaces
        (self.mishap .retainCurrent)
        ((self.site suited hid root).path .package)
        ((self.site suited hid root).path (.kept ⟨_, hv⟩)) t1
        = (false, t1) := by
      unfold Plugins.moveDir FileTree.createDirAll
      rw [hpar, hs]
      rfl
    dsimp only at he ⊢
    rw [hmv] at he ⊢
    exact ⟨Fault.move_of_error (Except.error.inj he).symm, hc⟩

theorem package_parent (hid : isValidPluginId pluginId = true) :
    (self.layout.package pluginId).dropLast = self.layout.plugins := by
  unfold StoreLayout.package
  rw [join_plain (pluginId_plain hid), dropLast_concat]

theorem swapIn_deactivated (hid : isValidPluginId pluginId = true)
    {c : Path} {p : Option CurrentState} {m : String}
    (hfault : self.fault = some (.deactivate m)) :
    self.swapIn pluginId c p t = (.error (.deactivate m), t) := by
  unfold swapIn
  rw [if_neg (by simp [package_parent hid]), hfault]

theorem swapIn_over (hid : isValidPluginId pluginId = true)
    {c : Path} {s : CurrentState} {fault : Fault}
    (hfault : self.fault = some fault)
    (hd : ∀ m, fault ≠ .deactivate m) :
    self.swapIn pluginId c (some s) t = self.swapOver pluginId c s t := by
  unfold swapIn
  rw [if_neg (by simp [package_parent hid]), hfault]
  cases fault with
  | deactivate m => exact absurd rfl (hd m)
  | activate => rfl
  | move => rfl

section

variable {fault : Fault} (hfault : self.fault = some fault)
include hfault

theorem swapIn_fresh
    (h : Sees (self.site suited hid root).places ways loose t σ)
    (hw : ways .package) (hl : Exact loose) (he : (self.swapIn pluginId
      ((self.site suited hid root).path .candidate) none t).1
        = .error fault.error) :
    Sees (self.site suited hid root).places ways loose
      (self.swapIn pluginId
        ((self.site suited hid root).path .candidate) none t).2
      (swapOutcome self.replaces fault none σ) := by
  have hin := install_outcome hfault h hw hl none nofun
  unfold swapIn at he ⊢
  rw [if_neg (by simp [package_parent hid]), hfault] at he ⊢
  cases fault with
  | deactivate => exact h
  | activate => exact hin he
  | move => exact hin he

theorem swapIn_update {s : CurrentState}
    (hd : s.directory = (self.site suited hid root).path .package)
    (hv : Path.Plain (sanitizeVersion s.receipt.version))
    (h : Sees (self.site suited hid root).places ways
      (receiptSlots (sanitizeVersion s.receipt.version)) t σ)
    (hw : ways .package) (h' : ways (.kept ⟨_, hv⟩))
    (he : (self.swapIn pluginId
      ((self.site suited hid root).path .candidate) (some s) t).1
        = .error fault.error) :
    Sees (self.site suited hid root).places ways
      (receiptSlots (sanitizeVersion s.receipt.version))
      (self.swapIn pluginId
        ((self.site suited hid root).path .candidate) (some s) t).2
      (swapOutcome self.replaces fault (some ⟨_, hv⟩) σ) := by
  have ho := swapOver_outcome hfault hd hv h hw h'
  cases fault with
  | deactivate =>
    rw [swapIn_deactivated hid hfault]
    exact h
  | activate =>
    rw [swapIn_over hid hfault nofun] at he ⊢
    exact ho he
  | move =>
    rw [swapIn_over hid hfault nofun] at he ⊢
    exact ho he

theorem swapRetained_outcome {state : CurrentState} {target : String}
    (hdir : state.directory = (self.site suited hid []).path .package)
    (hv : Path.Plain (sanitizeVersion state.receipt.version))
    (hr : Path.Plain (sanitizeVersion target))
    (hl : ¬ receiptSlots (sanitizeVersion state.receipt.version)
      (.kept ⟨_, hr⟩)) (h : Sees (self.site suited hid []).places ways
      (receiptSlots (sanitizeVersion state.receipt.version)) t σ)
    (hway : ways .package) (hw : ways .candidate)
    (hwy : ways (.kept ⟨_, hv⟩)) (hwa : ways (.kept ⟨_, hr⟩))
    (herr : (self.swapRetained pluginId target state
      (self.layout.staging.join self.stagingName) t).1 = .error fault.error) :
    Sees (self.site suited hid []).places ways
      (receiptSlots (sanitizeVersion state.receipt.version))
      (self.swapRetained pluginId target state
        (self.layout.staging.join self.stagingName) t).2
      (rollbackOutcome self.replaces fault ⟨_, hv⟩ ⟨_, hr⟩ σ) := by
  have hl' := receiptSlots_exact (sanitizeVersion state.receipt.version)
  unfold swapRetained at herr ⊢
  simp only [retained_path suited hid [] hr,
    candidate_path suited hid []] at herr ⊢
  obtain ⟨t1, h1, hs⟩ := h.moveDir self.replaces
    (self.mishap .takeRetained) hl hl'.candidate hw
  have h1 : Plugins.moveDir self.replaces (self.mishap .takeRetained)
    ((self.site suited hid []).path (.kept ⟨_, hr⟩))
    ((self.site suited hid []).path .candidate) t = _ := h1
  rw [h1] at herr ⊢
  cases hm : (moveSlot self.replaces (self.mishap .takeRetained)
    (.kept ⟨_, hr⟩) .candidate σ).1 with
  | false =>
    rw [hm] at herr
    have hf : fault.error = .move .takeRetained :=
      (Except.error.inj herr).symm
    obtain ⟨mishap, rfl⟩ := Fault.move_of_error hf
    have hmis : self.mishap .takeRetained = some mishap := by
      simp [Installer.mishap, hfault]
    rw [hmis] at hs
    exact hs
  | true =>
    rw [hm] at herr
    have hmis : self.mishap .takeRetained = none := no_mishap hm
    rw [hmis] at hs
    have hout : rollbackOutcome self.replaces fault ⟨_, hv⟩ ⟨_, hr⟩ σ
        = Function.update (moveSlot self.replaces none .candidate
            (.kept ⟨_, hr⟩) (swapOutcome self.replaces fault
              (some ⟨_, hv⟩) (moveSlot self.replaces none
                (.kept ⟨_, hr⟩) .candidate σ).2)).2
            .candidate .empty := by
      cases fault with
      | deactivate => rfl
      | activate => rfl
      | move step m =>
        cases step with
        | install => rfl
        | retainCurrent => rfl
        | takeRetained => simp [Installer.mishap, hfault] at hmis
    have hsw := @swapIn_update _ self suited pluginId hid [] _ _ _ _
      hfault _ hdir hv hs hway hwy
    dsimp only at herr ⊢
    generalize hres : self.swapIn pluginId
      ((self.site suited hid []).path .candidate) (some state) t1 = res
      at herr hsw ⊢
    obtain ⟨o, t2⟩ := res
    cases o with
    | ok => cases herr
    | error error =>
      have hs2 := hsw herr
      obtain ⟨t3, h3, hs3⟩ :=
        hs2.moveDir self.replaces none hl'.candidate hl hwa

      have h3 : Plugins.moveDir self.replaces none
        ((self.site suited hid []).path .candidate)
        ((self.site suited hid []).path (.kept ⟨_, hr⟩)) t2 = _ := h3
      rw [hout]
      simp only [h3]
      exact hs3.removeAbove (candidate_below suited hid [])
        fun k hk => staging_apart suited hid [] suited.staging k
          (fun e => absurd e hk) (fun _ => suited.distinct)

end

end

end Installer

end TikTools.Plugins
