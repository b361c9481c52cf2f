/-
What a failed commit or rollback leaves behind.

An operation that fails in a hook or in a move should leave the
package, its receipt and the retained versions as they were
(`Unchanged`). It does not always: `swap_in` removes whatever is
retained under the CURRENT version before it moves anything, and a
rollback whose activation fails deletes the version it was restoring
along with the failed package. `failed_operation_unchanged_iff` is the
exact condition, per fault, on what the directories hold beforehand.
-/
import TikTools.Plugins.Slots

namespace TikTools.Plugins

open TikTools.Lib List FileTree Option Function Path

-- ==== swapping

section

variable {B : Type} (replaces : FileTree B → FileTree B → Bool)

/-- The directory a slot holds. -/
abbrev content (s : FileTree B) : Option (FileTree B) := s.directory []

/-- What an undo move leaves at its destination. -/
def putBack (s x : FileTree B) : FileTree B :=
  if (s []).isSome && !occupied replaces s x then s else x

/-- What a failed swap over an installed package leaves: at the
package, at its retained directory and at the candidate. -/
structure Left (τ σ : Slot → FileTree B) (d : Component)
    (a b c : FileTree B) : Prop where
  package : τ .package = a
  kept : τ (.kept d) = b
  candidate : τ .candidate = c
  others : ∀ e, e ≠ d → τ (.kept e) = σ (.kept e)
  receipt : τ .receipt = σ .receipt

variable {replaces} {σ : Slot → FileTree B} {d : Component}

theorem content_empty : content (FileTree.empty : FileTree B) = none := rfl

variable {s : FileTree B}

theorem content_of_absent (h : s [] = none) : content s = none := by
  unfold content FileTree.directory
  rw [h]

theorem occupied_absent {x : FileTree B} (h : x [] = none) :
    occupied replaces s x = false := by
  simp [occupied, h]

variable {j : Slot}

theorem moveSlot_free (i : Slot) (hi : (σ i []).isSome = true)
    (hj : σ j [] = none) : moveSlot replaces none i j σ
      = (true, Function.update (Function.update σ i .empty) j (σ i)) := by
  unfold moveSlot
  simp [hi, occupied_absent hj]

theorem moveSlot_absent (i : Slot) (hi : σ i [] = none) :
    moveSlot replaces none i j σ = (false, σ) := by
  unfold moveSlot
  simp [hi]

theorem moveSlot_failing (i : Slot) {m : Mishap} (hj : σ j [] = none) :
    moveSlot replaces (some m) i j σ
      = (false, Function.update
          (Function.update σ j (m.destination (σ i))) i
          (m.source (σ i))) := by
  unfold moveSlot
  simp [hj]

theorem clearSlot_free (j : Slot) (σ : Slot → FileTree B) :
    clearSlot j σ j [] = none := by
  unfold clearSlot
  split
  case isTrue => simp [FileTree.empty]
  case isFalse h => exact not_isSome_iff_eq_none.1 h

theorem clearSlot_of_ne {i : Slot} (h : i ≠ j) : clearSlot j σ i = σ i := by
  unfold clearSlot
  split
  · rw [update_of_ne h]
  · rfl

theorem retain_slots (hp : (σ .package []).isSome = true) :
    (moveSlot replaces none .package (.kept d) (clearSlot (.kept d) σ)).2
      = Function.update (Function.update (clearSlot (.kept d) σ) .package
          .empty) (.kept d) (σ .package) := by
  have hpkg : clearSlot (.kept d) σ .package = σ .package :=
    clearSlot_of_ne (by simp)
  rw [moveSlot_free _ (by rw [hpkg]; exact hp) (clearSlot_free _ _), hpkg]

theorem over_activate {m : String}
    (hp : (σ .package []).isSome = true) (hf : σ .failed [] = none) :
    Left (overOutcome replaces (.activate m) d σ) σ d (σ .package)
      .empty
      (if (σ .candidate []).isSome then .empty else σ .candidate) := by
  have hout : overOutcome replaces (.activate m) d σ
      = installOutcome replaces (.activate m) (some d)
          (moveSlot replaces none .package (.kept d)
            (clearSlot (.kept d) σ)).2 := rfl
  rw [hout, retain_slots hp]
  have hoff : ∀ j, j ≠ .kept d → clearSlot (.kept d) σ j = σ j :=
    fun j => clearSlot_of_ne
  generalize clearSlot (.kept d) σ = τ at hoff
  have hc := hoff .candidate (by simp)
  have hfl := hoff .failed (by simp)
  have hr := hoff .receipt (by simp)
  dsimp only [installOutcome, restoreSlot]
  by_cases hcn : (σ .candidate []).isSome = true
  · -- the candidate was installed, and goes to the failed packages
    rw [if_pos hcn]
    rw [moveSlot_free .candidate (by simpa [hc] using hcn)
      (by simp [FileTree.empty])]
    rw [moveSlot_free .package (by simpa [hc] using hcn)
      (by simpa [hfl] using hf)]
    rw [moveSlot_free (.kept d) (by simpa using hp)
      (by simp [FileTree.empty])]
    refine ⟨?_, ?_, ?_, ?_, ?_⟩
    · simp
    · simp
    · simp
    · intro e he
      simp [he, hoff]
    · simp [hr]
  · have hn := not_isSome_iff_eq_none.1 hcn
    rw [if_neg hcn]
    rw [moveSlot_absent .candidate (by simpa [hc] using hn)]
    rw [moveSlot_absent .package (by simp [FileTree.empty])]
    rw [moveSlot_free (.kept d) (by simpa using hp)
      (by simp [FileTree.empty])]
    refine ⟨?_, ?_, ?_, ?_, ?_⟩
    · simp
    · simp
    · simp [hc]
    · intro e he
      simp [he, hoff]
    · simp [hr]

theorem over_retain {m : Mishap} :
    Left (overOutcome replaces (.move .retainCurrent m) d σ) σ d
      (m.source (σ .package)) (m.destination (σ .package))
      (σ .candidate) := by
  have hout : overOutcome replaces (.move .retainCurrent m) d σ
      = (moveSlot replaces (some m) .package (.kept d)
          (clearSlot (.kept d) σ)).2 := rfl
  have hoff : ∀ j, j ≠ .kept d → clearSlot (.kept d) σ j = σ j :=
    fun j => clearSlot_of_ne
  rw [hout, moveSlot_failing _ (clearSlot_free _ _)]
  refine ⟨?_, ?_, ?_, ?_, ?_⟩
  · simp [hoff]
  · simp [hoff]
  · simp [hoff]
  · intro e he
    simp [he, hoff]
  · simp [hoff]

/-- A failed second move: the retained package goes back, unless the
failure has left something in its place. -/
theorem over_install {m : Mishap}
    (hp : (σ .package []).isSome = true) :
    Left (overOutcome replaces (.move .install m) d σ) σ d
      (if occupied replaces (σ .package)
          (m.destination (σ .candidate)) then
        m.destination (σ .candidate) else σ .package)
      (if occupied replaces (σ .package)
          (m.destination (σ .candidate)) then
        σ .package else .empty)
      (m.source (σ .candidate)) := by
  have hout : overOutcome replaces (.move .install m) d σ
      = installOutcome replaces (.move .install m) (some d)
          (moveSlot replaces none .package (.kept d)
            (clearSlot (.kept d) σ)).2 := rfl
  rw [hout, retain_slots hp]
  have hoff : ∀ j, j ≠ .kept d → clearSlot (.kept d) σ j = σ j :=
    fun j => clearSlot_of_ne
  generalize clearSlot (.kept d) σ = τ at hoff
  have hc := hoff .candidate (by simp)
  have hr := hoff .receipt (by simp)
  dsimp only [installOutcome, restoreSlot]
  rw [moveSlot_failing .candidate (by simp [FileTree.empty])]
  unfold moveSlot
  by_cases hocc : occupied replaces (σ .package)
      (m.destination (σ .candidate)) = true
  · refine ⟨?_, ?_, ?_, ?_, ?_⟩
    · simp [hc, hocc]
    · simp [hc, hocc]
    · simp [hc, hocc]
    · intro e he
      simp [hc, hocc, he, hoff]
    · simp [hc, hocc, hr]
  · refine ⟨?_, ?_, ?_, ?_, ?_⟩
    · simp [hc, hocc, hp]
    · simp [hc, hocc, hp]
    · simp [hc, hocc, hp]
    · intro e he
      simp [hc, hocc, hp, he, hoff]
    · simp [hc, hocc, hp, hr]

theorem fresh_outcome {fault : Fault} (hp : σ .package [] = none)
    (hf : σ .failed [] = none) :
    content (swapOutcome replaces fault none σ .package)
      = (match fault with
        | .move .install mishap =>
          content (mishap.destination (σ .candidate))
        | _ => none)
    ∧ (∀ e, swapOutcome replaces fault none σ (.kept e) = σ (.kept e))
    ∧ swapOutcome replaces fault none σ .receipt = σ .receipt := by
  have hn := content_of_absent hp
  cases fault with
  | deactivate => exact ⟨hn, fun _ => rfl, rfl⟩
  | activate message =>
    dsimp only [swapOutcome, installOutcome, restoreSlot]
    by_cases hc : (σ .candidate []).isSome = true
    · rw [moveSlot_free .candidate hc hp]
      rw [moveSlot_free .package (by simpa using hc) (by simpa using hf)]
      refine ⟨?_, ?_, ?_⟩
      · simp [content_empty]
      · intro e
        simp
      · simp
    · rw [moveSlot_absent .candidate
        (not_isSome_iff_eq_none.1 hc)]
      rw [moveSlot_absent .package hp]
      refine ⟨?_, ?_, ?_⟩
      · simpa using hn
      · intro e
        simp
      · simp
  | move step mishap =>
    cases step with
    | takeRetained => exact ⟨hn, fun _ => rfl, rfl⟩
    | retainCurrent => exact ⟨hn, fun _ => rfl, rfl⟩
    | install =>
      dsimp only [swapOutcome, installOutcome, restoreSlot]
      rw [moveSlot_failing _ hp]
      refine ⟨?_, ?_, ?_⟩
      · simp
      · intro e
        simp
      · simp

theorem rollback_left {τ υ : Slot → FileTree B} {r : Component}
    {a b c : FileTree B} (h : Left τ υ d a b c) :
    let σ := Function.update
      (moveSlot replaces none .candidate (.kept r) τ).2 .candidate .empty
    σ .package = a
      ∧ σ (.kept r) = putBack replaces c (if d = r then b else υ (.kept r))
      ∧ (d ≠ r → σ (.kept d) = b)
      ∧ (∀ e, e ≠ d → e ≠ r → σ (.kept e) = υ (.kept e))
      ∧ σ .receipt = υ .receipt := by
  have hr : τ (.kept r) = if d = r then b else υ (.kept r) := by
    by_cases hdr : d = r
    · rw [if_pos hdr, ← hdr, h.kept]
    · rw [if_neg hdr, h.others r (Ne.symm hdr)]
  have hp : (moveSlot replaces none .candidate (.kept r) τ).2 (.kept r)
      = putBack replaces c (if d = r then b else υ (.kept r)) := by
    unfold moveSlot putBack
    dsimp only
    rw [h.candidate, ← hr]
    split
    · simp
    · rfl
  have hoff : ∀ j, j ≠ .candidate → j ≠ .kept r →
      (moveSlot replaces none .candidate (.kept r) τ).2 j = τ j := by
    intro j hc hj
    unfold moveSlot
    dsimp only
    split
    · simp [hc, hj]
    · rfl
  refine ⟨?_, ?_, ?_, ?_, ?_⟩
  · simp [hoff, h.package]
  · simp [hp]
  · intro hdr
    simp [hoff, hdr, h.kept]
  · intro e hed her
    simp [hoff, her, h.others e hed]
  · simp [hoff, h.receipt]

end

-- ==== operations

inductive Operation (B : Type) where
  | commit (package : StagedPackage B) (policy : Option UpdatePolicy)
  | rollback (pluginId : String) (version : Option String)

namespace Operation

variable {B : Type}

def pluginId : Operation B → String
  | .commit package _ => package.manifest.id
  | .rollback pluginId _ => pluginId

end Operation

namespace Installer

variable {B : Type} (self : Installer B)

def perform (op : Operation B) (t : FileTree B) :
    Except InstallError InstallOutcome × FileTree B :=
  match op with
  | .commit package policy => self.commit package policy t
  | .rollback pluginId version => self.rollback pluginId version t

/-- The package, the receipt and the retained directories of a plugin
are what they were. -/
structure Unchanged (layout : StoreLayout) (pluginId : String)
    (before after : FileTree B) : Prop where
  package : after.directory (layout.package pluginId)
    = before.directory (layout.package pluginId)
  /-- The receipt lists the retained versions. -/
  receipt : after (layout.receipt pluginId) = before (layout.receipt pluginId)
  retained : ∀ component, Path.Plain component →
    after.directory (layout.versions pluginId ++ [component])
      = before.directory (layout.versions pluginId ++ [component])

-- ---- the condition

/-- A first install fails cleanly, unless a failed copy has left part
of the candidate as the package. -/
def FreshUndone (fault : Fault) (candidate : FileTree B) : Prop :=
  match fault with
  | .move .install mishap =>
    content (mishap.destination candidate) = none
  | _ => True

/-- A failed swap over an installed package leaves the plugin as it
was. `package`, `retained` and `candidate` are what is found before the
swap at the package, at the retained directory of the CURRENT version
and at the candidate. -/
def OverUndone (fault : Fault) (package retained candidate : FileTree B) :
    Prop :=
  match fault with
  | .deactivate _ => True
  | .activate _ => content retained = none
  | .move .retainCurrent mishap =>
    content (mishap.source package) = content package
      ∧ content (mishap.destination package) = content retained
  | .move .install mishap =>
    if occupied self.replaces package (mishap.destination candidate) then
      content (mishap.destination candidate) = content package
        ∧ content package = content retained
    else content retained = none
  | .move .takeRetained _ => True

/-- A failed rollback leaves the plugin as it was. `target` is the
retained directory of the version it restores; `same` says that this is
also the retained directory of the current version. -/
def RollbackUndone (fault : Fault) (same : Prop) [Decidable same]
    (package retained target : FileTree B) : Prop :=
  -- what the two undo moves owe, where the swap has left `left` at the
  -- retained directory and `candidate` in staging
  let restored (left candidate : FileTree B) :=
    if same then
      content (putBack self.replaces candidate left) = content target
    else
      content left = content retained
        ∧ content (putBack self.replaces candidate .empty) = content target
  match fault with
  | .deactivate _ => True
  | .activate _ => False
  | .move .takeRetained mishap =>
    content (mishap.source target) = content target
  | .move .retainCurrent mishap =>
    content (mishap.source package) = content package
      ∧ restored (mishap.destination package) target
  | .move .install mishap =>
    if occupied self.replaces package (mishap.destination target) then
      content (mishap.destination target) = content package
        ∧ restored package (mishap.source target)
    else restored .empty (mishap.source target)

/-- A file in the way of the versions directory stops the first move
before it has done anything. -/
def effective (pluginId : String) (t : FileTree B) : Fault → Fault
  | .move .retainCurrent mishap =>
    if t.clear (self.layout.versions pluginId) then
      .move .retainCurrent mishap
    else .move .retainCurrent .nothing
  | fault => fault

/-- The condition under which a failing operation changes nothing. -/
def Undone (op : Operation B) (fault : Fault) (t : FileTree B) : Prop :=
  match self.currentState op.pluginId t, op with
  | .ok none, .commit package _ =>
    FreshUndone fault (package.files.subtree package.root)
  | .ok (some current), .commit package _ =>
    self.OverUndone (self.effective package.manifest.id t fault)
      (t.subtree (self.layout.package package.manifest.id))
      (t.subtree (self.layout.retained package.manifest.id
        current.receipt.version))
      (package.files.subtree package.root)
  | .ok (some current), .rollback pluginId version =>
    match rollbackTarget current version with
    | none => True
    | some target =>
      self.RollbackUndone fault
        (sanitizeVersion current.receipt.version = sanitizeVersion target)
        (t.subtree (self.layout.package pluginId))
        (t.subtree (self.layout.retained pluginId current.receipt.version))
        (t.subtree (self.layout.retained pluginId target))
  | _, _ => True

/-- The versions an operation moves have directories of their own: no
dot component, and no directory in the place of a receipt. -/
def Ordinary (op : Operation B) (t : FileTree B) : Prop :=
  ∀ current, self.currentState op.pluginId t = .ok (some current) →
    let version := sanitizeVersion current.receipt.version
    Path.Plain version ∧
      match op with
      | .commit _ _ => True
      | .rollback _ requested =>
        ∀ target, rollbackTarget current requested = some target →
          Path.Plain (sanitizeVersion target)
            ∧ sanitizeVersion target ≠ version ++ ".json"
            ∧ sanitizeVersion target ≠ version ++ ".json" ++ ".tmp"

/-- The staging names are new. -/
def Fresh (t : FileTree B) : Prop :=
  ∀ q, t (self.layout.staging ++ self.stagingName :: q) = none
    ∧ t (self.layout.staging ++ self.failedName :: q) = none

-- ---- where a run fails

variable {self}

theorem fault_ne_io (fault : Fault) : fault.error ≠ .io := by
  cases fault <;> exact nofun

variable {t : FileTree B}

theorem finalize_error {r : InstallReceipt} {e : InstallError}
    (h : (self.finalize r t).1 = .error e) : e = .io := by
  unfold finalize at h
  dsimp only at h
  split at h
  · cases h
    rfl
  · split at h
    · cases h
    · cases h
      rfl

/-- The tree a commit swaps in: staging created, package extracted. -/
def staged (self : Installer B) (package : StagedPackage B)
    (t : FileTree B) : FileTree B :=
  let staging := self.layout.staging.join self.stagingName
  ((t.mkdirs self.layout.plugins).mkdirs staging).graft
    (staging ++ ["package"]) package.files

theorem commit_failed {package : StagedPackage B}
    {policy : Option UpdatePolicy} {fault : Fault}
    (hr : (self.commit package policy t).1 = .error fault.error) :
    (self.staged package t).clear
        (self.layout.staging.join self.stagingName) = true
    ∧ ∃ p, self.currentState package.manifest.id
        (self.staged package t) = .ok p
      ∧ (self.swapIn package.manifest.id
          (self.layout.staging.join self.stagingName
            ++ "package" :: package.root) p
          (self.staged package t)).1 = .error fault.error
      ∧ (self.commit package policy t).2
        = (self.swapIn package.manifest.id
          (self.layout.staging.join self.stagingName
            ++ "package" :: package.root) p
          (self.staged package t)).2.remove
            (self.layout.staging.join self.stagingName) := by
  unfold commit newStagingDir FileTree.createDirAll at hr ⊢
  by_cases hp : t.clear self.layout.plugins = true
  case neg =>
    simp only [hp] at hr
    exact absurd (Except.error.inj hr).symm (fault_ne_io fault)
  case pos =>
    by_cases hs : (t.mkdirs self.layout.plugins).clear
        (self.layout.staging.join self.stagingName) = true
    case neg =>
      simp only [hp, if_true, hs] at hr
      exact absurd (Except.error.inj hr).symm (fault_ne_io fault)
    case pos =>
      simp only [hp, if_true, hs, map_some] at hr ⊢
      constructor
      · refine clear_graft _ ?_ (clear_mkdirs _ hs)
        intro h
        have hlen := h.length_le
        rw [length_append, length_singleton] at hlen
        omega
      · change (self.commitStaged package policy _
          (self.staged package t)).1 = _ at hr
        change ∃ p, _ ∧ _ ∧
          (self.commitStaged package policy _
            (self.staged package t)).2.remove _ = _
        unfold commitStaged at hr ⊢
        dsimp only at hr ⊢
        split at hr
        case h_1 error he =>
          have := currentState_error he
          rw [this] at hr
          exact absurd (Except.error.inj hr).symm (fault_ne_io fault)
        case h_2 p he =>
          refine ⟨p, he, ?_⟩
          split at hr
          case h_1 error t1 hsw =>
            rw [hsw]
            exact ⟨congrArg Except.error (Except.error.inj hr), rfl⟩
          case h_2 t1 hsw =>
            split at hr
            case h_1 error t2 hfin =>
              have := finalize_error (congrArg Prod.fst hfin)
              rw [this] at hr
              exact absurd (Except.error.inj hr).symm (fault_ne_io fault)
            case h_2 => cases hr

theorem rollback_failed {pluginId : String} {v : Option String}
    {fault : Fault}
    (h : (self.rollback pluginId v t).1 = .error fault.error) :
    ∃ c ta m,
      self.currentState pluginId t = .ok (some c)
      ∧ rollbackTarget c v = some ta
      ∧ self.retainedManifest pluginId ta t = some m
      ∧ t.clear (self.layout.staging.join self.stagingName) = true
      ∧ (self.swapRetained pluginId ta c
          (self.layout.staging.join self.stagingName)
          (t.mkdirs (self.layout.staging.join self.stagingName))).1
        = .error fault.error
      ∧ (self.rollback pluginId v t).2
        = (self.swapRetained pluginId ta c
          (self.layout.staging.join self.stagingName)
          (t.mkdirs (self.layout.staging.join self.stagingName))).2 := by
  unfold rollback at h ⊢
  split at h
  case h_1 error he =>
    have := currentState_error he
    rw [this] at h
    exact absurd (Except.error.inj h).symm (fault_ne_io fault)
  case h_2 => cases fault <;> cases h
  case h_3 c he =>
    split at h
    case h_1 => cases fault <;> cases h
    case h_2 ta ht =>
      split at h
      case h_1 => cases fault <;> cases h
      case h_2 m hm =>
        split at h
        case isTrue => cases fault <;> cases h
        case isFalse hc =>
          rw [if_neg hc]
          unfold newStagingDir FileTree.createDirAll at h ⊢
          by_cases hs : t.clear
              (self.layout.staging.join self.stagingName) = true
          case neg =>
            simp only [hs] at h
            cases fault <;> cases h
          case pos =>
            simp only [hs, if_true, map_some] at h ⊢
            refine ⟨c, ta, m, he, ht, hm, trivial, ?_⟩
            split at h
            case h_1 error t1 hsw =>
              rw [hsw]
              exact ⟨congrArg Except.error (Except.error.inj h), rfl⟩
            case h_2 t1 hsw =>
              unfold finishRollback at h
              dsimp only at h
              split at h
              · cases fault <;> cases h
              · split at h
                case h_1 error t2 hfin =>
                  have := finalize_error (congrArg Prod.fst hfin)
                  rw [this] at h
                  exact absurd (Except.error.inj h).symm (fault_ne_io fault)
                case h_2 => cases h

-- ---- before the swap

section

variable {package : StagedPackage B} {t : FileTree B}

theorem staged_isFile {p : Path}
    (h : ¬ self.layout.staging.join self.stagingName <+: p) :
    (self.staged package t).isFile p = t.isFile p := by
  have hoff : (self.staged package t) p
      = ((t.mkdirs self.layout.plugins).mkdirs
          (self.layout.staging.join self.stagingName)) p := by
    refine graft_off _ fun hp => h ?_
    exact (prefix_append _ _).trans hp
  rw [isFile_congr hoff, isFile_mkdirs, isFile_mkdirs]

theorem plugins_below_staging (suited : self.Suited) :
    self.layout.plugins <+: self.layout.staging.join self.stagingName := by
  rw [join_plain suited.staging, staging_path, append_assoc]
  exact prefix_append _ _

/-- The ways that are clear when a package is swapped in. -/
def clearWays (self : Installer B) (pluginId : String) (t : FileTree B) :
    Slot → Prop
  | .package => True
  | .kept _ => t.clear (self.layout.versions pluginId) = true
  | _ => False

variable (suited : self.Suited)

variable {j : Slot}

theorem staged_subtree (hj : j ≠ .candidate) :
    (self.staged package t).subtree
      ((self.site suited package.manifest.valid package.root).path j)
    = t.subtree
      ((self.site suited package.manifest.valid package.root).path j) := by
  have hap := staging_apart suited package.manifest.valid
    package.root suited.staging j (fun e => absurd e hj)
    (fun _ => suited.distinct)
  have hg := hap.below
    (prefix_append (self.layout.staging.join self.stagingName)
      ["package"]) prefix_rfl
  unfold staged
  rw [graft_apart _ _ hg, mkdirs_off _ hap.2]
  refine mkdirs_off _ fun h => hap.2 ?_
  exact h.trans (plugins_below_staging suited)

theorem staged_slots :
    (self.site suited package.manifest.valid
        package.root).places.slots (self.staged package t)
      = Function.update
          ((self.site suited package.manifest.valid
            package.root).places.slots t) .candidate
          (package.files.subtree package.root) := by
  funext j
  by_cases hj : j = .candidate
  · subst hj
    show (self.staged package t).subtree
      ((self.site suited package.manifest.valid package.root).path
        .candidate) = _
    rw [← candidate_path suited package.manifest.valid package.root,
      append_cons]
    exact graft_below _ _ _ _
  · rw [update_of_ne hj]
    exact staged_subtree suited hj

theorem staged_clear (hj : ¬ self.layout.staging.join self.stagingName
      <+: ((self.site suited package.manifest.valid
        package.root).path j).dropLast) :
    (self.staged package t).clear
      ((self.site suited package.manifest.valid package.root).path j).dropLast
    = t.clear ((self.site suited package.manifest.valid
        package.root).path j).dropLast :=
  clear_congr fun _ hq => staged_isFile fun h => hj (h.trans hq)

theorem staging_off_store (hj : j ≠ .candidate) :
    ¬ self.layout.staging.join self.stagingName
      <+: ((self.site suited package.manifest.valid
        package.root).path j).dropLast := by
  have hap := staging_apart suited package.manifest.valid
    package.root suited.staging j (fun e => absurd e hj)
    (fun _ => suited.distinct)
  exact fun h => hap.1 (h.trans ( dropLast_prefix _))

theorem staged_sees (loose : Slot → Prop)
    (hc : (self.staged package t).clear
      (self.layout.staging.join self.stagingName) = true) :
    Sees (self.site suited package.manifest.valid package.root).places
      (self.clearWays package.manifest.id t) loose
      (self.staged package t)
      (Function.update
        ((self.site suited package.manifest.valid
          package.root).places.slots t) .candidate
        (package.files.subtree package.root)) := by
  have hs := @staged_slots _ self package t suited
  refine ⟨fun i _ => by rw [hs], fun i => by rw [hs], ?_⟩
  intro i hi
  cases i with
  | package =>
    refine clear_below hc ?_
    show ((self.site suited package.manifest.valid package.root).path
      .package).dropLast <+: _
    rw [← package_path suited package.manifest.valid package.root,
      package_parent package.manifest.valid]
    exact plugins_below_staging suited
  | kept c =>
    have hne : Slot.kept c ≠ .candidate := by simp
    refine (staged_clear suited (staging_off_store suited hne)).trans ?_
    rw [← kept_path suited package.manifest.valid package.root,
      dropLast_concat]
    exact hi
  | receipt => cases hi
  | candidate => cases hi
  | failed => cases hi

theorem currentState_staged (suited : self.Suited) (hwf : t.WellFormed) :
    self.currentState package.manifest.id (self.staged package t)
      = self.currentState package.manifest.id t := by
  have hv := package.manifest.valid
  have hpkg := @staged_subtree _ self package t suited .package (by simp)
  have hrec := @staged_subtree _ self package t suited .receipt (by simp)
  have hway := @staged_clear _ self package t suited .receipt
    (staging_off_store suited (by simp))
  rw [← package_path suited hv package.root] at hpkg
  rw [← receipt_path suited hv package.root] at hrec hway
  have hr := congrFun hpkg []
  have hrc := congrFun hrec []
  rw [subtree_apply, subtree_apply, append_nil] at hr
  rw [subtree_apply, subtree_apply, append_nil] at hrc
  unfold currentState readReceipt
  dsimp only
  rw [hr, hrc, hway]
  by_cases hp : t (self.layout.package package.manifest.id) = none
  · simp [hp]
  · have hman : self.layout.installedManifest self.codec
        package.manifest.id (self.staged package t)
        = self.layout.installedManifest self.codec package.manifest.id t := by
      unfold StoreLayout.installedManifest FileTree.read
      rw [if_pos hv, if_pos hv,
        join_plain (show Path.Plain "plugin.json" by decide),
        dropLast_concat]
      have hf := congrFun hpkg ["plugin.json"]
      rw [subtree_apply, subtree_apply] at hf
      rw [hf]
      have hre : (self.staged package t).reachable
          (self.layout.package package.manifest.id)
          = t.reachable (self.layout.package package.manifest.id) := by
        refine reachable_congr fun q hq => ?_
        by_cases hqp : q = self.layout.package package.manifest.id
        · rw [hqp, hr]
        · have hdir := hwf q _ hq hqp hp
          have hoff : ¬ self.layout.staging.join self.stagingName
              ++ ["package"] <+: q := by
            intro h
            have hap := staging_apart suited hv package.root
              suited.staging .package nofun (fun _ => suited.distinct)
            rw [← package_path suited hv package.root] at hap
            exact hap.1 (((prefix_append _ _).trans h).trans hq)
          unfold staged
          rw [graft_off _ hoff, mkdirs_present, mkdirs_present]
          · rw [hdir]
            exact nofun
          · rw [mkdirs_present _ (by rw [hdir]; exact nofun), hdir]
            exact nofun
      rw [hre]
    rw [hman]

end

-- ---- outcomes

section

variable {suited : self.Suited} {pluginId : String}
  {hid : isValidPluginId pluginId = true} {root : Path}
  {ways loose : Slot → Prop} {t t' : FileTree B} {τ : Slot → FileTree B}

theorem content_kept (c : Component) :
    content ((self.site suited hid root).places.slots t (.kept c))
      = t.directory (self.layout.versions pluginId ++ [c.val]) := by
  rw [kept_path suited hid root]
  exact directory_subtree t _

theorem content_package :
    content ((self.site suited hid root).places.slots t .package)
      = t.directory (self.layout.package pluginId) := by
  rw [package_path suited hid root]
  exact directory_subtree t _

theorem unchanged_iff
    (h : Sees (self.site suited hid root).places ways loose t' τ)
    (hl : ¬ loose .receipt)
    (hr : τ .receipt = (self.site suited hid root).places.slots t .receipt) :
    Unchanged self.layout pluginId t t'
      ↔ content (τ .package)
          = content ((self.site suited hid root).places.slots t .package)
        ∧ ∀ c, content (τ (.kept c))
          = content ((self.site suited hid root).places.slots t
              (.kept c)) := by
  have hpkg := h.dirs .package
  have hk := fun c => h.dirs (.kept c)
  rw [show ((self.site suited hid root).places.slots t' .package).directory
    [] = _ from content_package] at hpkg
  have hrc : t' (self.layout.receipt pluginId)
      = t (self.layout.receipt pluginId) := by
    have h1 := h.root hl
    rw [hr, Places.slots_root] at h1
    rw [receipt_path suited hid root]
    exact h1
  constructor
  · intro hu
    refine ⟨?_, ?_⟩
    · rw [content_package, ← hu.package]
      exact hpkg.symm
    · intro c
      rw [content_kept, ← hu.retained c.val c.property]
      exact (hk c).symm.trans (content_kept c)
  · intro ⟨h1, h2⟩
    refine ⟨?_, hrc, ?_⟩
    · rw [hpkg]
      exact h1.trans content_package
    · intro co hc
      have h3 := (hk ⟨co, hc⟩).trans (h2 ⟨co, hc⟩)
      exact (content_kept _).symm.trans (h3.trans (content_kept _))

theorem unchanged_left {σ : Slot → FileTree B} {d : Component}
    {a b c : FileTree B} (hlf : Left τ σ d a b c)
    (h : Sees (self.site suited hid root).places ways loose t'
      (Function.update τ .candidate .empty))
    (hl : ¬ loose .receipt)
    (hσ : ∀ j, j ≠ .candidate →
      σ j = (self.site suited hid root).places.slots t j) :
    Unchanged self.layout pluginId t t'
      ↔ content a = content (σ .package)
        ∧ content b = content (σ (.kept d)) := by
  rw [unchanged_iff h hl (by simp [hlf.receipt, hσ])]
  rw [← hσ .package (by simp)]
  constructor
  · rintro ⟨h1, h2⟩
    have hb := h2 d
    rw [← hσ _ (by simp)] at hb
    refine ⟨?_, ?_⟩
    · simpa [hlf.package] using h1
    · simpa [hlf.kept] using hb
  · rintro ⟨h1, h2⟩
    refine ⟨by simpa [hlf.package] using h1, ?_⟩
    intro e
    rw [← hσ _ (by simp)]
    by_cases hed : e = d
    · subst hed
      simpa [hlf.kept] using h2
    · simp [hlf.others e hed]

end

-- ---- commit

section

variable {t : FileTree B} {fault : Fault}

variable {ways : Slot → Prop}

theorem clean_sees (suited : self.Suited) {pluginId : String}
    {hid : isValidPluginId pluginId = true} {root : Path}
    {loose : Slot → Prop} {τ : Slot → FileTree B}
    (h : Sees (self.site suited hid root).places ways loose t τ) :
    Sees (self.site suited hid root).places ways loose
      (t.remove (self.layout.staging.join self.stagingName))
      (Function.update τ .candidate .empty) :=
  h.removeAbove (candidate_below suited hid root) fun k hk =>
    staging_apart suited hid root suited.staging k
      (fun e => absurd e hk) (fun _ => suited.distinct)

theorem failed_fresh (suited : self.Suited) (hf : self.Fresh t)
    {pluginId : String} (hid : isValidPluginId pluginId = true)
    (root : Path) :
    (self.site suited hid root).places.slots t .failed [] = none := by
  rw [Places.slots_root]
  show t ((self.site suited hid root).path .failed) = none
  rw [← failed_path suited hid root, join_plain suited.failed,
    join_plain (pluginId_plain hid), append_assoc]
  exact (hf [pluginId]).2

variable {policy : Option UpdatePolicy}

theorem commit_fresh_iff (suited : self.Suited) {package : StagedPackage B}
    (hfr : self.Fresh t) (hfl : self.fault = some fault)
    (h : self.currentState package.manifest.id t = .ok none)
    (hc : (self.staged package t).clear
      (self.layout.staging.join self.stagingName) = true)
    (hsw : (self.swapIn package.manifest.id
      ((self.site suited package.manifest.valid package.root).path
        .candidate) none (self.staged package t)).1
      = .error fault.error) :
    Unchanged self.layout package.manifest.id t
        ((self.swapIn package.manifest.id
          ((self.site suited package.manifest.valid package.root).path
            .candidate) none (self.staged package t)).2.remove
          (self.layout.staging.join self.stagingName))
      ↔ self.Undone (.commit package policy) fault t := by
  have hs := staged_sees suited (fun _ => False) hc
  have hout := swapIn_fresh hfl hs trivial ⟨id, id, id⟩ hsw
  have hg := clean_sees suited hout
  have habs := currentState_none h
  rw [package_path suited package.manifest.valid package.root] at habs
  have hp : Function.update ((self.site suited package.manifest.valid
      package.root).places.slots t) .candidate
      (package.files.subtree package.root) .package [] = none := by
    rw [update_of_ne (by simp), Places.slots_root]
    exact habs
  have hf : Function.update ((self.site suited package.manifest.valid
      package.root).places.slots t) .candidate
      (package.files.subtree package.root) .failed [] = none := by
    exact failed_fresh suited hfr _ _
  obtain ⟨h1, h2, h3⟩ := @fresh_outcome _ self.replaces _ fault hp hf
  rw [unchanged_iff hg id (by simp [h3])]
  rw [update_of_ne (by simp), h1]
  have hk : ∀ c, content (Function.update
        (swapOutcome self.replaces fault none (Function.update
          ((self.site suited package.manifest.valid
            package.root).places.slots t) .candidate
          (package.files.subtree package.root))) .candidate .empty
        (.kept c))
      = content ((self.site suited package.manifest.valid
          package.root).places.slots t (.kept c)) := by
    intro c
    rw [update_of_ne (by simp), h2, update_of_ne (by simp)]
  have hn : content ((self.site suited package.manifest.valid
      package.root).places.slots t .package) = none := by
    apply content_of_absent
    rw [Places.slots_root]
    exact habs
  have hund : self.Undone (.commit package policy) fault t
      ↔ FreshUndone fault (package.files.subtree package.root) := by
    unfold Undone Operation.pluginId
    simp only [h]
  rw [hund, hn, and_iff_left hk, update_self]
  unfold FreshUndone
  cases fault with
  | deactivate => simp
  | activate => simp
  | move st mishap => cases st <;> simp

theorem swapOver_ne_take (pluginId : String) (c : Path)
    (st : CurrentState) (t : FileTree B) :
    (self.swapOver pluginId c st t).1 ≠ .error (.move .takeRetained) := by
  unfold swapOver install
  dsimp only
  intro h
  split at h
  · cases h
  · split at h
    · cases h
    · split at h
      · cases h
      · split at h
        · split at h <;> cases h
        · cases h

/-- A swap that fails over an installed package leaves the package and
the retained directory of its version in the state `OverUndone`
compares with the one before. -/
theorem swapIn_left {suited : self.Suited} {pluginId : String}
    {hid : isValidPluginId pluginId = true} {root : Path}
    {σ : Slot → FileTree B} {cu : CurrentState}
    (hfl : self.fault = some fault)
    (hdir : cu.directory = (self.site suited hid root).path .package)
    (hv : Path.Plain (sanitizeVersion cu.receipt.version))
    (h : Sees (self.site suited hid root).places ways
      (receiptSlots (sanitizeVersion cu.receipt.version)) t σ)
    (hway : ways .package)
    (hw : t.clear (self.layout.versions pluginId) = true →
      ways (.kept ⟨_, hv⟩)) (hp : (σ .package []).isSome = true)
    (hf : σ .failed [] = none) (hr : (self.swapIn pluginId
      ((self.site suited hid root).path .candidate) (some cu) t).1
        = .error fault.error) :
    ∃ τ a b c, Left τ σ ⟨_, hv⟩ a b c
      ∧ Sees (self.site suited hid root).places ways
        (receiptSlots (sanitizeVersion cu.receipt.version))
        (self.swapIn pluginId
          ((self.site suited hid root).path .candidate) (some cu) t).2
        τ
      ∧ (content a = content (σ .package)
          ∧ content b = content (σ (.kept ⟨_, hv⟩))
        ↔ self.OverUndone (self.effective pluginId t fault) (σ .package)
            (σ (.kept ⟨_, hv⟩)) (σ .candidate)) := by
  have hs : Left σ σ ⟨_, hv⟩ (σ .package) (σ (.kept ⟨_, hv⟩))
      (σ .candidate) := ⟨rfl, rfl, rfl, fun _ _ => rfl, rfl⟩
  by_cases hc : t.clear (self.layout.versions pluginId) = true
  case pos =>
    have hout := swapIn_update hfl hdir hv h hway (hw hc) hr
    have heff : self.effective pluginId t fault = fault := by
      unfold effective
      split
      · rw [if_pos hc]
      · rfl
    rw [heff]
    cases fault with
    | deactivate m =>
      exact ⟨_, _, _, _, hs, hout, by simp [OverUndone]⟩
    | activate m =>
      refine ⟨overOutcome self.replaces (.activate m) ⟨_, hv⟩ σ,
        _, _, _, over_activate hp hf, hout, ?_⟩
      simp [OverUndone, content_empty, eq_comm]
    | move st mi =>
      cases st with
      | takeRetained =>
        rw [swapIn_over hid hfl nofun] at hr
        exact absurd hr (swapOver_ne_take _ _ _ _)
      | retainCurrent => exact ⟨_, _, _, _, over_retain, hout, Iff.rfl⟩
      | install =>
        refine ⟨_, _, _, _, over_install hp, hout, ?_⟩
        unfold OverUndone
        dsimp only
        split
        · rfl
        · simp [content_empty, eq_comm]
  case neg =>
    have hc : t.clear (self.layout.versions pluginId) = false := by
      simpa using hc
    by_cases hd : ∃ m, fault = .deactivate m
    · obtain ⟨m, rfl⟩ := hd
      rw [swapIn_deactivated hid hfl]
      exact ⟨σ, _, _, _, hs, h, by simp [OverUndone, effective]⟩
    · rw [swapIn_over hid hfl fun m e => hd ⟨m, e⟩]
        at hr ⊢
      obtain ⟨⟨mi, rfl⟩, hss⟩ := swapOver_blocked hdir hv h hc hr
      refine ⟨_, σ .package, _, σ .candidate,
        ⟨clearSlot_of_ne (by simp), rfl, clearSlot_of_ne (by simp), ?_,
          clearSlot_of_ne (by simp)⟩, hss, ?_⟩
      · intro e he
        exact clearSlot_of_ne (by simpa using he)
      · unfold effective OverUndone
        rw [hc, content_of_absent (clearSlot_free _ _)]
        rfl

theorem commit_unchanged_iff (suited : self.Suited)
    {package : StagedPackage B} (hwf : t.WellFormed) (hfr : self.Fresh t)
    (hfl : self.fault = some fault)
    (hpl : self.Ordinary (.commit package policy) t)
    (herr : (self.commit package policy t).1 = .error fault.error) :
    Unchanged self.layout package.manifest.id t
        (self.commit package policy t).2
      ↔ self.Undone (.commit package policy) fault t := by
  obtain ⟨hc, p, hcur, hsw, ha⟩ := commit_failed herr
  rw [currentState_staged suited hwf] at hcur
  rw [candidate_path suited package.manifest.valid package.root] at hsw ha
  rw [ha]
  cases p with
  | none =>
    exact commit_fresh_iff suited hfr hfl hcur hc hsw
  | some cu =>
    obtain ⟨hpr, hdir⟩ := currentState_some hcur
    have hv := (hpl cu hcur).1
    have hss := staged_sees suited
      (receiptSlots (sanitizeVersion cu.receipt.version)) hc
    rw [package_path suited package.manifest.valid package.root] at hdir hpr
    generalize hσ : Function.update ((self.site suited
      package.manifest.valid package.root).places.slots t) .candidate
      (package.files.subtree package.root) = σ at hss
    have hs : ∀ j, j ≠ .candidate → σ j = (self.site suited
        package.manifest.valid package.root).places.slots t j := by
      intro j hj
      rw [← hσ, update_of_ne hj]
    have hcn : σ .candidate = package.files.subtree package.root := by
      rw [← hσ, update_self]
    have hp : (σ .package []).isSome = true := by
      rw [hs .package (by simp), Places.slots_root]
      exact hpr
    have hf : σ .failed [] = none := by
      rw [hs .failed (by simp)]
      exact failed_fresh suited hfr _ _
    have hvr : (self.staged package t).clear
        (self.layout.versions package.manifest.id)
        = t.clear (self.layout.versions package.manifest.id) := by
      have := @staged_clear _ self package t suited
        (.kept ⟨_, hv⟩) (staging_off_store suited (by simp))
      rw [← kept_path suited package.manifest.valid package.root,
        dropLast_concat] at this
      exact this
    obtain ⟨τ, a, b, c, hl, ha, hiff⟩ := swapIn_left hfl hdir
      hv hss trivial (fun h => hvr.symm.trans h) hp hf hsw
    rw [unchanged_left hl (clean_sees suited ha) id hs, hiff]
    unfold Undone effective Operation.pluginId
    simp only [hcur, hvr]
    rw [hs .package (by simp), hs (.kept _) (by simp), hcn,
      package_path suited package.manifest.valid package.root,
      retained_path suited package.manifest.valid package.root hv]
    rfl

end

-- ---- rollback

section

variable {t : FileTree B} {fault : Fault}

theorem retained_reachable {pluginId ta : String}
    {m : PluginManifest}
    (h : self.retainedManifest pluginId ta t = some m) :
    m.id = pluginId
      ∧ t.reachable (self.layout.retained pluginId ta) = true := by
  obtain ⟨hrd, hid⟩ := filter_eq_some_iff.1 h
  refine ⟨by simpa using hid, ?_⟩
  unfold FileTree.read at hrd
  rw [join_plain (show Path.Plain "plugin.json" by decide),
    dropLast_concat] at hrd
  by_cases hr : t.reachable (self.layout.retained pluginId ta) = true
  · exact hr
  · rw [if_neg hr] at hrd
    cases hrd

/-- The slots once a rollback has taken its candidate. -/
def taken (r : Component) (σ : Slot → FileTree B) : Slot → FileTree B :=
  Function.update (Function.update σ (.kept r) .empty) .candidate
    (σ (.kept r))

theorem unchanged_rollback {suited : self.Suited} {pluginId : String}
    {hid : isValidPluginId pluginId = true} {ways loose : Slot → Prop}
    {t' : FileTree B} {σ τ : Slot → FileTree B} {d r : Component}
    {a b c : FileTree B}
    (hσ : (self.site suited hid []).places.slots t = σ)
    (hlf : Left τ (taken r σ) d a b c)
    (h : Sees (self.site suited hid []).places ways loose t'
      (Function.update (moveSlot self.replaces none .candidate (.kept r)
        τ).2 .candidate .empty))
    (hl : ¬ loose .receipt) :
    Unchanged self.layout pluginId t t'
      ↔ content a = content (σ .package)
        ∧ if d.val = r.val then
            content (putBack self.replaces c b) = content (σ (.kept r))
          else content b = content (σ (.kept d))
            ∧ content (putBack self.replaces c .empty)
              = content (σ (.kept r)) := by
  obtain ⟨h1, h2, h3, h4, h5⟩ :=
    @rollback_left _ self.replaces _ _ _ r _ _ _ hlf
  have hrc : taken r σ .receipt = σ .receipt := by simp [taken]
  rw [unchanged_iff h hl (by rw [h5, hrc, hσ]), hσ, h1]
  have hem : taken r σ (.kept r) = .empty := by simp [taken]
  rw [hem] at h2
  refine and_congr_right fun _ => ?_
  by_cases hdr : d = r
  · rw [if_pos (congrArg Subtype.val hdr)]
    rw [if_pos hdr] at h2
    constructor
    · intro ha
      rw [← h2]
      exact ha r
    · intro hr e
      by_cases her : e = r
      · rw [her, h2]
        exact hr
      · rw [h4 e (fun hed => her (hed.trans hdr)) her]
        simp [taken, her]
  · rw [if_neg fun hv => hdr (Subtype.ext hv)]
    rw [if_neg hdr] at h2
    constructor
    · intro ha
      refine ⟨?_, ?_⟩
      · rw [← h3 hdr]
        exact ha d
      · rw [← h2]
        exact ha r
    · intro ⟨hd, hr⟩ e
      by_cases hed : e = d
      · rw [hed, h3 hdr]
        exact hd
      · by_cases her : e = r
        · rw [her, h2]
          exact hr
        · rw [h4 e hed her]
          simp [taken, her]

/-- The ways that are clear when a retained package is taken back. -/
def takenWays : Slot → Prop
  | .package | .candidate | .kept _ => True
  | _ => False

theorem rollback_unchanged_iff (suited : self.Suited)
    {pluginId : String} {v : Option String}
    (hfr : self.Fresh t) (hfl : self.fault = some fault)
    (hpl : self.Ordinary (.rollback pluginId v) t)
    (herr : (self.rollback pluginId v t).1 = .error fault.error) :
    Unchanged self.layout pluginId t (self.rollback pluginId v t).2
      ↔ self.Undone (.rollback pluginId v) fault t := by
  obtain ⟨cu, ta, ma, hcur, htgt, hm, hcl, hsw, ha⟩ := rollback_failed herr
  obtain ⟨hmid, hrc⟩ := retained_reachable hm
  have hid : isValidPluginId pluginId = true := hmid ▸ ma.valid
  obtain ⟨hv, hrs⟩ := hpl cu hcur
  obtain ⟨hr, hne1, hne2⟩ := hrs ta htgt
  obtain ⟨hpr, hdir⟩ := currentState_some hcur
  have hls : ¬ receiptSlots (sanitizeVersion cu.receipt.version)
      (.kept ⟨_, hr⟩) := by
    rintro (h | h)
    · exact hne1 h
    · exact hne2 h
  rw [package_path suited hid []] at hdir hpr
  -- what the run starts from
  have hst : Sees (self.site suited hid []).places
      takenWays (receiptSlots (sanitizeVersion cu.receipt.version)) t
      ((self.site suited hid []).places.slots t) := by
    refine Sees.start t fun i hi => ?_
    cases i with
    | package =>
      refine clear_below hcl ?_
      show ((self.site suited hid []).path .package).dropLast <+: _
      rw [← package_path suited hid [], package_parent hid]
      exact plugins_below_staging suited
    | candidate =>
      show t.clear ((self.site suited hid []).path .candidate).dropLast = true
      rw [← candidate_path suited hid [], dropLast_concat]
      exact hcl
    | kept c =>
      show t.clear ((self.site suited hid []).path (.kept c)).dropLast = true
      rw [← kept_path suited hid [], dropLast_concat]
      refine clear_below (clear_of_reachable hrc) ?_
      rw [retained_path suited hid [] hr, ← kept_path suited hid []]
      exact prefix_append _ _
    | receipt => cases hi
    | failed => cases hi
  have hs := hst.mkdirs .candidate
    (show self.layout.staging.join self.stagingName <+: _ by
      show _ <+: ((self.site suited hid []).path .candidate).dropLast
      rw [← candidate_path suited hid [], dropLast_concat])
  generalize hσ : (self.site suited hid []).places.slots t = σ at hs
  have hout := swapRetained_outcome hfl hdir hv hr hls hs trivial
    trivial trivial trivial hsw
  rw [ha]
  have hp : (σ .package []).isSome = true := by
    rw [← hσ, Places.slots_root]
    exact hpr
  have hf : σ .failed [] = none := by
    rw [← hσ]
    exact failed_fresh suited hfr hid []
  have hc : σ .candidate [] = none := by
    rw [← hσ, Places.slots_root]
    show t ((self.site suited hid []).path .candidate) = none
    rw [← candidate_path suited hid [], join_plain suited.staging,
      append_assoc]
    exact (hfr ["package"]).1
  have hd : σ (.kept ⟨_, hr⟩) [] = some .dir := by
    rw [← hσ, Places.slots_root]
    show t ((self.site suited hid []).path (.kept ⟨_, hr⟩)) = _
    rw [← retained_path suited hid [] hr]
    have := reachable_iff.1 hrc _ prefix_rfl
    unfold FileTree.isDir at this
    split at this
    case h_1 e => exact e
    case h_2 => cases this
  have ht : (moveSlot self.replaces none (.kept ⟨_, hr⟩) .candidate
      σ).2 = taken ⟨_, hr⟩ σ := by
    rw [moveSlot_free _ (by simp [hd]) hc]
    rfl
  have hund : self.Undone (.rollback pluginId v) fault t
      ↔ self.RollbackUndone fault
          (sanitizeVersion cu.receipt.version = sanitizeVersion ta)
          (σ .package) (σ (.kept ⟨_, hv⟩)) (σ (.kept ⟨_, hr⟩)) := by
    unfold Undone Operation.pluginId
    simp only [hcur, htgt]
    rw [← hσ, package_path suited hid [], retained_path suited hid [] hv,
      retained_path suited hid [] hr]
    rfl
  rw [hund]
  have hl : ¬ receiptSlots (sanitizeVersion cu.receipt.version) .receipt := id
  have hpt : ((taken ⟨_, hr⟩ σ) .package []).isSome = true := by
    simpa [taken] using hp
  have hft : (taken ⟨_, hr⟩ σ) .failed [] = none := by
    simpa [taken] using hf
  have hpkg : (taken ⟨_, hr⟩ σ) .package = σ .package := by simp [taken]
  have hcn : (taken ⟨_, hr⟩ σ) .candidate = σ (.kept ⟨_, hr⟩) := by
    simp [taken]
  have hdr : content (σ (.kept ⟨_, hr⟩)) ≠ none := by
    unfold content FileTree.directory
    rw [hd]
    rintro ⟨⟩
  have hb : putBack self.replaces (σ (.kept ⟨_, hr⟩)) .empty
      = σ (.kept ⟨_, hr⟩) := by
    unfold putBack
    rw [hd, occupied_absent rfl]
    rfl
  cases fault with
  | deactivate m =>
    have hlf : Left (taken ⟨_, hr⟩ σ) (taken ⟨_, hr⟩ σ) ⟨_, hv⟩ _ _ _ :=
      ⟨rfl, rfl, rfl, fun _ _ => rfl, rfl⟩
    dsimp only [rollbackOutcome, swapOutcome] at hout
    rw [ht] at hout
    rw [unchanged_rollback hσ hlf hout hl, hpkg, hcn]
    dsimp only [RollbackUndone]
    rw [iff_true]
    refine ⟨rfl, ?_⟩
    split
    case isTrue e =>
      have he : (⟨_, hv⟩ : Component) = ⟨_, hr⟩ := Subtype.ext e
      rw [he, show taken ⟨_, hr⟩ σ (.kept ⟨_, hr⟩) = .empty by
        simp [taken], hb]
    case isFalse e =>
      have he : (⟨_, hv⟩ : Component) ≠ ⟨_, hr⟩ :=
        fun h => e (congrArg Subtype.val h)
      rw [hb]
      refine ⟨?_, rfl⟩
      rw [show taken ⟨_, hr⟩ σ (.kept ⟨_, hv⟩) = σ (.kept ⟨_, hv⟩) by
        simp only [taken, update_apply, reduceCtorEq,
          if_false, Slot.kept.injEq, he]]
  | activate m =>
    dsimp only [rollbackOutcome] at hout
    rw [ht] at hout
    have hlf := @over_activate _ self.replaces _ ⟨_, hv⟩ m hpt hft
    rw [hcn, if_pos (by simp [hd])] at hlf
    rw [unchanged_rollback hσ hlf hout hl]
    dsimp only [RollbackUndone]
    rw [iff_false]
    rintro ⟨-, h⟩
    have hn : putBack self.replaces (.empty : FileTree B) .empty
        = .empty := by simp [putBack]
    split at h
    · rw [hn] at h
      exact hdr h.symm
    · rw [hn] at h
      exact hdr h.2.symm
  | move st mi =>
    cases st with
    | takeRetained =>
      dsimp only [rollbackOutcome] at hout
      rw [moveSlot_failing _ hc] at hout
      rw [unchanged_iff hout hl (by simp [hσ]), hσ]
      dsimp only [RollbackUndone]
      constructor
      · rintro ⟨_, h⟩
        simpa using h ⟨_, hr⟩
      · intro h
        refine ⟨by simp, fun e => ?_⟩
        by_cases he : e = ⟨_, hr⟩
        · rw [he]
          simpa using h
        · simp [he]
    | retainCurrent =>
      dsimp only [rollbackOutcome] at hout
      rw [ht] at hout
      have hlf := @over_retain _ self.replaces (taken ⟨_, hr⟩ σ) ⟨_, hv⟩ mi
      rw [unchanged_rollback hσ hlf hout hl]
      rfl
    | install =>
      dsimp only [rollbackOutcome] at hout
      rw [ht] at hout
      have hlf := @over_install _ self.replaces _ ⟨_, hv⟩ mi hpt
      rw [hpkg, hcn] at hlf
      rw [unchanged_rollback hσ hlf hout hl]
      dsimp only [RollbackUndone]
      by_cases hocc : occupied self.replaces (σ .package)
          (mi.destination (σ (.kept ⟨_, hr⟩))) = true
      · simp only [hocc, if_true]
      · simp only [hocc]
        simp

end

/-- An operation that fails in a hook or in a move changes nothing
exactly when the directories it started from meet `Undone`. -/
theorem failed_operation_unchanged_iff (host : Installer B)
    (op : Operation B) (fault : Fault) (t : FileTree B)
    (suited : host.Suited) (hwf : t.WellFormed) (hfresh : host.Fresh t)
    (hfault : host.fault = some fault) (hplain : host.Ordinary op t)
    (herr : (host.perform op t).1 = .error fault.error) :
    Unchanged host.layout op.pluginId t (host.perform op t).2
      ↔ host.Undone op fault t := by
  cases op with
  | commit package policy =>
    exact commit_unchanged_iff suited hwf hfresh hfault hplain herr
  | rollback pluginId version =>
    exact rollback_unchanged_iff suited hfresh hfault hplain herr

-- ---- two stores

/-- Contents that are what they are read as. -/
inductive Document where
  | manifest (manifest : PluginManifest)
  | receipt (receipt : InstallReceipt)

def documents : Codec Document where
  manifest := fun
    | .manifest manifest => some manifest
    | _ => none
  receipt := fun
    | .receipt receipt => some receipt
    | _ => none
  encode := .receipt

def demoManifest (version : String) : PluginManifest where
  id := "demo"
  version := version
  runtime := "native"
  permissions := []
  capabilities := []
  valid := isValidPluginId_demo

/-- A store where version 2.0.0 is installed over `retained`. -/
def demoStore (retained : List (Path × Entry Document)) : FileTree Document :=
  .ofList ([
    ([], .dir), (["plugins"], .dir), (["plugins", "demo"], .dir),
    (["plugins", "demo", "plugin.json"],
      .file (.manifest (demoManifest "2.0.0")))] ++ retained)

/-- Version 1.0.0, retained. -/
def demoRetained : List (Path × Entry Document) := [
  (["store"], .dir), (["store", "versions"], .dir),
  (["store", "versions", "demo"], .dir),
  (["store", "versions", "demo", "1.0.0"], .dir),
  (["store", "versions", "demo", "1.0.0", "plugin.json"],
    .file (.manifest (demoManifest "1.0.0"))),
  (["store", "receipts"], .dir),
  (["store", "receipts", "demo.json"], .file (.receipt
    { adoptedReceipt (demoManifest "2.0.0") 1 with
      retained := [{ version := "1.0.0", retainedAt := 1 }] }))]

/-- A host on which the new package cannot be activated. -/
def failingHost : Installer Document where
  layout := { plugins := ["plugins"], store := ["store"] }
  codec := documents
  retain := 2
  compatible := fun _ => true
  replaces := fun _ _ => false
  now := 2
  stagingName := "demo-1-1"
  failedName := "failed-1-2"
  fault := some (.activate "crashed")

def demoPackage : StagedPackage Document where
  files := .ofList [([], .dir),
    (["plugin.json"], .file (.manifest (demoManifest "3.0.0")))]
  root := []
  manifest := demoManifest "3.0.0"
  origin := .file
  digest := "sha256:00"
  signature := .unsigned

theorem fresh_ofList {ho : Installer B} {e : List (Path × Entry B)}
    (h : ∀ p ∈ e.map Prod.fst,
      ¬ ho.layout.staging ++ [ho.stagingName] <+: p
        ∧ ¬ ho.layout.staging ++ [ho.failedName] <+: p) :
    ho.Fresh (.ofList e) := by
  intro q
  constructor
  · rw [append_cons]
    exact ofList_off (fun p hp => (h p hp).1) q
  · rw [append_cons]
    exact ofList_off (fun p hp => (h p hp).2) q

theorem failingHost_suited : failingHost.Suited where
  separate := by decide
  staging := by decide
  failed := by decide
  distinct := by decide

/-- A first update whose activation fails changes nothing. -/
theorem failed_update_unchanged :
    Unchanged failingHost.layout "demo" (demoStore [])
      (failingHost.perform (.commit demoPackage none) (demoStore [])).2 :=
  (failed_operation_unchanged_iff failingHost (.commit demoPackage none)
    (.activate "crashed") (demoStore []) failingHost_suited
    (wellFormed_ofList (by decide))
    (fresh_ofList (by decide)) rfl
    (by
      intro c h
      have : c.receipt.version = "2.0.0" := by
        cases h
        rfl
      refine ⟨?_, trivial⟩
      rw [this]
      decide)
    rfl).2 rfl

/-- A rollback whose activation fails loses the version it was to
restore, which the receipt still lists. -/
theorem failed_rollback_loses_version :
    (failingHost.perform (.rollback "demo" none) (demoStore demoRetained)).1
        = .error (.activate "crashed")
      ∧ (demoStore demoRetained).isDir
          ["store", "versions", "demo", "1.0.0"] = true
      ∧ (failingHost.perform (.rollback "demo" none)
          (demoStore demoRetained)).2.isDir
            ["store", "versions", "demo", "1.0.0"] = false
      ∧ ¬ Unchanged failingHost.layout "demo" (demoStore demoRetained)
          (failingHost.perform (.rollback "demo" none)
            (demoStore demoRetained)).2 := by
  refine ⟨rfl, rfl, rfl, fun h => ?_⟩
  have hl := h.retained "1.0.0" (by decide)
  exact absurd (show none = some _ from hl) nofun

end Installer

end TikTools.Plugins
