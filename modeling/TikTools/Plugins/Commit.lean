/-
What a successful commit leaves behind.

The package directory holds exactly the extracted package, it can be
reached, and the receipt file holds the receipt of the outcome. Nothing
is assumed about what was installed or retained before: a receipt may
name any version, and the directories of its versions may be the
versions directories themselves. All of them lie below the STORE, apart
from the plugins directory, and that is enough. `Stands` is what every
step on the way keeps, and `Aside` what it takes of the step's paths.
-/
import TikTools.Plugins.Slots

namespace TikTools.Plugins

open TikTools.Lib List FileTree Path

-- ==== frame

/-- The plugins directory can be reached, and a place below it holds
this tree. -/
structure Stands {B : Type} (plugins place : Path) (found t : FileTree B) :
    Prop where
  reachable : t.reachable plugins = true
  holds : t.subtree place = found

/-- Work at a path that neither is on the way to the plugins directory
nor touches a place. -/
structure Aside (plugins place d : Path) : Prop where
  below : ¬ d <+: plugins
  apart : Path.Apart d place

namespace Stands

variable {B : Type} {plugins place d : Path} {found t : FileTree B}

theorem aside_ne {r : Path} (hd : ¬ d <+: plugins) (hr : r <+: plugins) :
    ¬ d <+: r := fun h => hd (h.trans hr)

variable {t' : FileTree B}

section

variable (h : Stands plugins place found t)
include h

theorem congr (hw : ∀ r, r <+: plugins → t' r = t r)
    (hp : t'.subtree place = t.subtree place) :
    Stands plugins place found t' where
  reachable := by
    rw [reachable_congr hw]
    exact h.reachable
  holds := hp.trans h.holds

theorem mkdirs
    (hd : ¬ place <+: d) : Stands plugins place found (t.mkdirs d) := by
  refine h.congr (fun r hr => ?_) (mkdirs_off t hd)
  refine mkdirs_present d fun e => ?_
  have hdir := reachable_iff.1 h.reachable r hr
  unfold FileTree.isDir at hdir
  rw [e] at hdir
  cases hdir

theorem createDirAll (hd : ¬ place <+: d)
    (ht : t.createDirAll d = some t') : Stands plugins place found t' := by
  unfold FileTree.createDirAll at ht
  split at ht <;> cases ht
  exact h.mkdirs hd

section

variable (hd : Aside plugins place d)
include hd

theorem graft (s : FileTree B) :
    Stands plugins place found (t.graft d s) :=
  h.congr (fun _ hr => graft_off s (aside_ne hd.below hr))
    (graft_apart t s hd.apart)

theorem remove :
    Stands plugins place found (t.remove d) := by
  refine h.congr (fun r hr => ?_) (remove_apart t hd.apart)
  unfold FileTree.remove
  rw [if_neg (aside_ne hd.below hr)]

theorem write (c : B) :
    Stands plugins place found (t.write d c) := by
  refine h.congr (fun r hr => ?_) (write_apart t c hd.apart.2)
  unfold FileTree.write
  rw [if_neg]
  intro e
  exact hd.below (e ▸ hr)

theorem removeDirIfExists (ht : Plugins.removeDirIfExists d t = some t') :
    Stands plugins place found t' := by
  unfold Plugins.removeDirIfExists at ht
  split at ht
  · cases ht
    exact h
  · cases ht
    exact h.remove hd
  · cases ht

theorem removeFile :
    Stands plugins place found (Plugins.removeFile d t) := by
  unfold Plugins.removeFile
  split
  · exact h.remove hd
  · exact h

end

theorem moveDir
    (r : FileTree B → FileTree B → Bool) (m : Option Mishap)
    {s : Path} (hs : Aside plugins place s) (hd : Aside plugins place d) :
    Stands plugins place found (moveDir r m s d t).2 := by
  have hpar : ¬ place <+: d.dropLast := fun hp =>
    hd.apart.2 (hp.trans ( dropLast_prefix d))
  unfold Plugins.moveDir
  split
  case h_1 => exact h
  case h_2 t1 h1 =>
    have h1 := h.createDirAll hpar h1
    cases m with
    | none =>
      dsimp only
      split
      · exact (h1.remove hs).graft hd _
      · exact h1
    | some m =>
      dsimp only
      split
      · exact h1
      · exact (h1.graft hd _).graft hs _

theorem writeReceipt (c : Codec B) (hd : Aside plugins place d)
    (ht : Aside plugins place (temporary d)) (r : InstallReceipt) :
    Stands plugins place found (writeReceipt c d r t).2 := by
  have hpar : ¬ place <+: d.dropLast := fun hp =>
    hd.apart.2 (hp.trans ( dropLast_prefix d))
  unfold Plugins.writeReceipt
  split
  case h_1 => exact h
  case h_2 t1 h1 =>
    have h1 := h.createDirAll hpar h1
    split
    · exact h1
    · dsimp only
      have h2 := h1.write ht (c.encode r)
      split
      · exact h2
      · exact (h2.remove ht).graft hd _

end

end Stands

theorem writeReceipt_ok {B : Type} {c : Codec B} {p : Path}
    {r : InstallReceipt} {t t' : FileTree B}
    (h : writeReceipt c p r t = (true, t')) :
    t' p = some (.file (c.encode r)) := by
  unfold writeReceipt at h
  split at h
  case h_1 => cases h
  case h_2 =>
    split at h
    · cases h
    · dsimp only at h
      split at h
      · cases h
      · cases h
        unfold FileTree.move FileTree.graft
        simp [FileTree.subtree, FileTree.write]

-- ==== commit

variable {name : String}

namespace Installer

section

variable {B : Type} (self : Installer B)

variable {id : String}

theorem store_versions (hid : isValidPluginId id = true) :
    self.layout.store <+: (self.layout.versions id).dropLast := by
  rw [self.layout.versions_eq hid]
  exact ⟨["versions"], by simp⟩

theorem store_retained (hid : isValidPluginId id = true) (version : String) :
    self.layout.store <+: self.layout.retained id version := by
  have hv := self.store_versions hid
  have hup := hv.trans ( dropLast_prefix (self.layout.versions id))
  unfold StoreLayout.retained Path.join
  split
  · exact hup
  · split
    · exact hv
    · exact hup.trans (prefix_append _ _)

theorem store_retainedReceipt (hid : isValidPluginId id = true)
    (v : String) :
    self.layout.store <+: (self.layout.retainedReceipt id v).dropLast := by
  rw [self.layout.retainedReceipt_eq, dropLast_concat]
  exact (self.store_versions hid).trans ( dropLast_prefix _)

theorem store_receipt :
    self.layout.store <+: (self.layout.receipt id).dropLast := by
  unfold StoreLayout.receipt StoreLayout.receipts
  rw [join_plain (json_plain _), dropLast_concat,
    join_plain (show Path.Plain "receipts" by decide)]
  exact prefix_append _ _

end

variable {B : Type} {self : Installer B} {place : Path}

variable {d : Path}

theorem aside_store (s : self.Suited)
    (hp : self.layout.plugins <+: place) (hd : self.layout.store <+: d) :
    Aside self.layout.plugins place d where
  below := fun h => s.separate.2 (hd.trans h)
  apart := s.separate.symm.below hd hp

theorem aside_receipt (s : self.Suited)
    (hp : self.layout.plugins <+: place)
    (hd : self.layout.store <+: d.dropLast) :
    Aside self.layout.plugins place d
      ∧ Aside self.layout.plugins place (temporary d) := by
  constructor
  · exact aside_store s hp (hd.trans ( dropLast_prefix d))
  · exact aside_store s hp (hd.trans (prefix_append _ _))

/-- Something strictly below the plugins directory is aside of what it
is apart from. -/
theorem aside_below {c : String} {r : Path}
    (h : Path.Apart (self.layout.plugins ++ c :: r) place) :
    Aside self.layout.plugins place (self.layout.plugins ++ c :: r) where
  below := by
    intro hp
    have := hp.length_le
    rw [length_append, length_cons] at this
    omega
  apart := h

section

variable {pluginId : String} {t t' : FileTree B}

theorem package_eq (hid : isValidPluginId pluginId = true) :
    self.layout.package pluginId = self.layout.plugins ++ [pluginId] :=
  join_plain (pluginId_plain hid)

theorem staging_eq (hn : Path.Plain name) :
    self.layout.staging.join name
      = self.layout.plugins ++ ".staging" :: [name] := by
  rw [join_plain hn, staging_path, append_assoc]
  rfl

theorem pluginId_ne_staging (hid : isValidPluginId pluginId = true) :
    pluginId ≠ ".staging" := by
  intro e
  rw [e] at hid
  revert hid
  decide

theorem package_aside_staging (self : Installer B)
    (hid : isValidPluginId pluginId = true)
    (hn : Path.Plain name) (r : Path) :
    Aside self.layout.plugins (self.layout.staging.join name ++ r)
      (self.layout.package pluginId) := by
  rw [package_eq hid, staging_eq hn, append_assoc]
  exact aside_below (apart_of_ne (pluginId_ne_staging hid))

theorem staging_aside_package (self : Installer B)
    (hid : isValidPluginId pluginId = true) (hn : Path.Plain name) :
    Aside self.layout.plugins (self.layout.package pluginId)
      (self.layout.staging.join name) := by
  rw [package_eq hid, staging_eq hn]
  exact aside_below (apart_of_ne (Ne.symm (pluginId_ne_staging hid)))

variable {found : FileTree B}

theorem install_ok {c : Path} {rt : Option Path}
    (hid : isValidPluginId pluginId = true)
    (h : self.install pluginId c rt t = (.ok (), t'))
    (hc : Aside self.layout.plugins c (self.layout.package pluginId))
    (hs : ¬ c <+: self.layout.plugins)
    (ht : Stands self.layout.plugins c found t) :
    Stands self.layout.plugins (self.layout.package pluginId) found t' := by
  unfold install at h
  dsimp only at h
  split at h
  case h_1 => cases h
  case h_2 t1 hmv =>
    have h1 : t1 = t' := by
      split at h
      · split at h <;> cases h
      · cases h
        rfl
    subst h1
    unfold moveDir at hmv
    split at hmv
    case h_1 => cases hmv
    case h_2 t2 hdr =>
      have hpar : ¬ c
          <+: (self.layout.package pluginId).dropLast := by
        rw [package_parent hid]
        exact hs
      have h2 := ht.createDirAll hpar hdr
      split at hmv
      case h_1 =>
        split at hmv <;> cases hmv
        constructor
        · rw [reachable_congr fun r hr => ?_]
          · exact h2.reachable
          · unfold FileTree.move
            rw [graft_off _ (Stands.aside_ne hc.below hr)]
            unfold FileTree.remove
            rw [if_neg fun hp => hs (hp.trans hr)]
        · rw [move_destination]
          exact h2.holds
      case h_2 =>
        split at hmv <;> cases hmv

theorem swapIn_ok (su : self.Suited)
    (hn : Path.Plain name) {rest : Path}
    (hid : isValidPluginId pluginId = true) {p : Option CurrentState}
    (hpr : ∀ s, p = some s → s.directory = self.layout.package pluginId)
    (h : self.swapIn pluginId (self.layout.staging.join name ++ rest)
      p t = (.ok (), t')) (ht : Stands self.layout.plugins
      (self.layout.staging.join name ++ rest) found t) :
    Stands self.layout.plugins (self.layout.package pluginId) found t' := by
  have hpl : self.layout.plugins
      <+: self.layout.staging.join name ++ rest := by
    rw [staging_eq hn, append_assoc]
    exact prefix_append _ _
  have hc := self.package_aside_staging hid hn rest
  have hs : ¬ self.layout.staging.join name ++ rest
      <+: self.layout.plugins := by
    intro hp
    have := hp.length_le
    rw [staging_eq hn, length_append, length_append, length_cons] at this
    omega
  unfold swapIn at h
  rw [if_neg (by simp [package_parent hid])] at h
  split at h
  case h_1 => cases h
  case h_2 => exact install_ok hid h hc hs ht
  case h_3 s _ =>
    unfold swapOver at h
    dsimp only at h
    split at h
    case h_1 => cases h
    case h_2 t1 hrm =>
      have hk := aside_store su hpl
        (self.store_retained hid s.receipt.version)
      have h1 := ht.removeDirIfExists hk hrm
      rw [hpr s rfl] at h
      have h2 := h1.moveDir self.replaces (self.mishap .retainCurrent) hc hk
      split at h
      case h_1 => cases h
      case h_2 t2 hmv =>
        rw [hmv] at h2
        obtain ⟨hr, htmp⟩ := aside_receipt su hpl
          (self.store_retainedReceipt hid s.receipt.version)
        exact install_ok hid h hc hs (h2.writeReceipt self.codec hr htmp _)

variable {place : Path}

theorem prune_stands (s : self.Suited)
    (hp : self.layout.plugins <+: place)
    (hid : isValidPluginId pluginId = true) {n : Nat}
    {v kept : List RetainedVersion}
    (h : self.prune pluginId n v t = some (kept, t'))
    (ht : Stands self.layout.plugins place found t) :
    Stands self.layout.plugins place found t' := by
  induction n generalizing v t with
  | zero =>
    cases v <;> cases h <;> exact ht
  | succ n ih =>
    cases v with
    | nil =>
      cases h
      exact ht
    | cons r v =>
      rw [prune] at h
      split at h
      case h_1 => cases h
      case h_2 t1 hr =>
        have h1 := ht.removeDirIfExists (aside_store s hp
          (self.store_retained hid r.version)) hr
        refine ih h (h1.removeFile ?_)
        exact (aside_receipt s hp (self.store_retainedReceipt hid r.version)).1

theorem finalize_ok (s : self.Suited)
    (hp : self.layout.plugins <+: place)
    {r rc : InstallReceipt}
    (hid : isValidPluginId r.id = true)
    (h : self.finalize r t = (.ok rc, t'))
    (ht : Stands self.layout.plugins place found t) :
    Stands self.layout.plugins place found t'
      ∧ (∃ re, rc = { r with retained := re })
      ∧ t' (self.layout.receipt r.id)
        = some (.file (self.codec.encode rc)) := by
  unfold finalize at h
  dsimp only at h
  split at h
  case h_1 => cases h
  case h_2 re t1 hpr =>
    have h1 := prune_stands s hp hid hpr ht
    obtain ⟨hr, htmp⟩ := aside_receipt s hp (@store_receipt B self r.id)
    have h2 := h1.writeReceipt self.codec hr htmp { r with retained := re }
    split at h
    case h_1 t2 hw =>
      cases h
      rw [hw] at h2
      exact ⟨h2, ⟨re, rfl⟩, writeReceipt_ok hw⟩
    case h_2 => cases h

end

/-- What a committed package and its receipt look like. -/
structure Committed (host : Installer B) (package : StagedPackage B)
    (outcome : InstallOutcome) (t : FileTree B) : Prop where
  installed : Stands host.layout.plugins
    (host.layout.package package.manifest.id)
    (package.files.subtree package.root) t
  recorded : t (host.layout.receipt package.manifest.id)
    = some (.file (host.codec.encode outcome.receipt))
  permissions : outcome.receipt.grantedPermissions
    = package.manifest.permissions
  capabilities : outcome.receipt.grantedCapabilities
    = package.manifest.capabilities

variable {t : FileTree B}

theorem commit_ok (s : self.Suited) {p : StagedPackage B}
    {po : Option UpdatePolicy} {o : InstallOutcome}
    {t' : FileTree B} (h : self.commit p po t = (.ok o, t')) :
    self.Committed p o t' := by
  have hid := p.manifest.valid
  have hn := s.staging
  have hpkg : self.layout.plugins
      <+: self.layout.package p.manifest.id := by
    rw [package_eq hid]
    exact prefix_append _ _
  unfold commit newStagingDir at h
  split at h
  case h_1 => cases h
  case h_2 t1 h1 =>
    -- the plugins directory exists from here on
    have hrc : t1.reachable self.layout.plugins = true := by
      unfold FileTree.createDirAll at h1
      split at h1 <;> cases h1
      rename_i hc
      rw [reachable_iff]
      intro q hq
      unfold FileTree.isDir FileTree.mkdirs
      have hf := clear_iff.1 hc q hq
      unfold FileTree.isFile at hf
      cases ht : t q with
      | none => simp [hq]
      | some found =>
        cases found with
        | dir => simp
        | file content =>
          rw [ht] at hf
          cases hf
    dsimp only at h
    cases h2 : t1.createDirAll
        (self.layout.staging.join self.stagingName) with
    | none =>
      rw [h2] at h
      cases h
    | some t2 =>
      rw [h2] at h
      dsimp only [Option.map_some] at h
      generalize hs : self.layout.staging.join self.stagingName
        = staging at h h2
      have hpl : ¬ staging ++ ["package"] <+: self.layout.plugins := by
        intro hp
        have := hp.length_le
        rw [← hs, staging_eq hn, length_append,
          length_append, length_cons] at this
        omega
      have hst : Stands self.layout.plugins
          (staging ++ "package" :: p.root)
          (p.files.subtree p.root)
          (t2.graft (staging ++ ["package"]) p.files) := by
        constructor
        · rw [reachable_congr fun r hr =>
            graft_off _ (Stands.aside_ne hpl hr)]
          unfold FileTree.createDirAll at h2
          split at h2 <;> cases h2
          rw [reachable_congr fun r hr =>
            mkdirs_present _ fun e => ?_]
          · exact hrc
          · have hdir := reachable_iff.1 hrc r hr
            unfold FileTree.isDir at hdir
            rw [e] at hdir
            cases hdir
        · have := graft_below t2 (staging ++ ["package"])
            p.root p.files
          simpa using this
      generalize t2.graft (staging ++ ["package"]) p.files = t3 at h hst
      generalize hres : self.commitStaged p po staging t3 = res at h
      obtain ⟨result, t4⟩ := res
      cases h
      unfold commitStaged at hres
      dsimp only at hres
      split at hres
      case h_1 => cases hres
      case h_2 previous hcur =>
        split at hres
        case h_1 => cases hres
        case h_2 t5 hsw =>
          have h5 : Stands self.layout.plugins
              (self.layout.package p.manifest.id)
              (p.files.subtree p.root) t5 := by
            rw [← hs] at hsw hst
            refine swapIn_ok s hn hid ?_ hsw hst
            rintro state rfl
            exact (currentState_some hcur).2
          split at hres
          case h_1 => cases hres
          case h_2 receipt t6 hfn =>
            cases hres
            obtain ⟨h6, ⟨retained, hrec⟩, hf⟩ := finalize_ok s hpkg hid hfn h5
            have ha := self.staging_aside_package hid hn
            rw [hs] at ha
            refine ⟨h6.remove ha, ?_, ?_, ?_⟩
            · have hap : Path.Apart staging
                  (self.layout.receipt p.manifest.id) := by
                rw [← hs, staging_eq hn]
                exact s.separate.below (prefix_append _ _)
                  (self.store_receipt.trans ( dropLast_prefix _))
              unfold FileTree.remove
              rw [if_neg hap.1]
              exact hf
            · rw [hrec]
              rfl
            · rw [hrec]
              rfl

theorem Committed.installedManifest {i : Installer B}
    {p : StagedPackage B} {o : InstallOutcome}
    (h : i.Committed p o t) {bytes : B}
    (hrt : p.files p.root = some .dir)
    (hf : p.files (p.root ++ ["plugin.json"]) = some (.file bytes)) :
    i.layout.installedManifest i.codec p.manifest.id t
      = i.codec.manifest bytes := by
  have hid := p.manifest.valid
  have hat : ∀ path, t (i.layout.package p.manifest.id ++ path)
      = p.files (p.root ++ path) :=
    fun path => congrFun h.installed.holds path
  have hdir := hat []
  rw [append_nil, append_nil, hrt] at hdir
  have hr : t.reachable
      (i.layout.package p.manifest.id) = true := by
    rw [package_eq hid] at hdir ⊢
    refine reachable_child h.installed.reachable ?_
    unfold FileTree.isDir
    rw [hdir]
  unfold StoreLayout.installedManifest FileTree.read
  rw [if_pos hid, join_plain (show Path.Plain "plugin.json" by decide),
    dropLast_concat, if_pos hr, hat, hf]
  rfl

end Installer

end TikTools.Plugins
