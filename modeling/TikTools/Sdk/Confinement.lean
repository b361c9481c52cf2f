/-
When staging stays in its root and when a failed staging leaves the
plugin directory as it was.

A staging touches nothing, or it goes through the root's own
directories, or it goes through a link above them. In the last case its
first change lies outside the root. In the second it never leaves the
root, and if it fails then what is lost is what the root held, and what
is there instead is what had been copied. `Safe` puts this together.
-/
import TikTools.Sdk.Copying

namespace TikTools.Sdk

open TikTools.Lib
open TikTools.Lib.Disk
open TikTools.Plugins (PathText isSafeRelativePath endsInDot)
open List Effect Bool

-- ==== from a prepared disk

section

variable {B : Type} [DecidableEq B] (sys : System B) (faults : Faults B)
variable (request : NativeStageRequest)

/-- What `stage_native_package` does once the destination is ready. -/
def deliver (base : Path) : Stage B NativeStageReport := do
  let files ← Effect.look fun s => checkPackage sys faults request s.disk
  let destination ← createDirAll sys base (rootNames request.root)
    (endsInDot request.root.toList) faults.making
  copyAll sys destination files faults.copy
  Effect.look fun s => finish sys base request files s.disk

/-- The directories that have to be made for the destination and the
files that go there, if a package and its destination are as they should
be. -/
def course (base : Path) (disk : Disk B) :
    Option (List String × List (StagedFile B)) :=
  match checkPackage sys faults request disk with
  | .error _ => none
  | .ok files =>
    (disk.landing sys.links base (rootNames request.root)).map
      fun found => (found.2, files)

/-- Of the missing directories, those that can be made: the last one
cannot if it is called by ".". -/
def makeable (rest : List String) : List String :=
  if endsInDot request.root.toList then rest.dropLast else rest

/-- The copying is reached. -/
def starts (rest : List String) : Bool :=
  faults.making.isNone && (!endsInDot request.root.toList || rest.isEmpty)

/-- Nothing is made and nothing is copied. -/
def idle (rest : List String) (files : List (StagedFile B)) : Bool :=
  match faults.making with
  | some made => ((makeable request rest).take made).isEmpty
  | none =>
    (makeable request rest).isEmpty
      && (!rest.isEmpty || idleCopies files faults.copy)

variable {sys faults request} {base : Path} {s : Staging B}

/-- What lies between a directory and what is made below it is
missing. -/
def FreshWay (disk : Disk B) (p : Path) : Prop :=
  ∃ q, disk.find q = some .dir ∧ q <+: p ∧ p ≠ q
    ∧ ∀ y, q <+: y → y ≠ q → y <+: p → disk.find y = none

/-- Everything that a prepared disk can lead to. -/
inductive Delivery (sys : System B) (faults : Faults B)
    (request : NativeStageRequest) (base : Path) (s : Staging B) :
    Except NativeStageError NativeStageReport × Staging B → Prop
  | refused {e : NativeStageError}
      (hcourse : course sys faults request base s.disk = none) :
      Delivery sys faults request base s (.error e, s)
  | stopped {q : Path} {rest made : List String}
      {files : List (StagedFile B)}
      (hcourse : course sys faults request base s.disk = some (rest, files))
      (hland : s.disk.landing sys.links base (rootNames request.root)
        = some (q, rest))
      (hstarts : starts faults request rest = false) (hmade : made <+: rest)
      (hidle : made = [] ↔ idle faults request rest files = true) :
      Delivery sys faults request base s (.error .io, s.makeAll q made)
  | copying {q : Path} {rest : List String} {files : List (StagedFile B)}
      {s' : Staging B}
      (hcourse : course sys faults request base s.disk = some (rest, files))
      (hland : s.disk.landing sys.links base (rootNames request.root)
        = some (q, rest))
      (hstarts : starts faults request rest = true)
      (hfill : Filling (q ++ rest) files (s.makeAll q rest)
        (copied files faults.copy) s')
      (hidle : s'.touched = s.touched
        ↔ idle faults request rest files = true) :
      Delivery sys faults request base s
        (if stops files faults.copy then .error .io
          else finish sys base request files s'.disk, s')

omit [DecidableEq B] in
theorem filling_made {q : Path} {rest : List String}
    {fl : List (StagedFile B)} (hwf : s.disk.WellFormed)
    (hdir : s.disk.find q = some .dir)
    (hf : ∀ name more, rest = name :: more → s.disk.find (q ++ [name]) = none)
    (hk : rest = [] → ∀ name, s.disk.find (q ++ [name]) = none) :
    Filling (q ++ rest) fl (s.makeAll q rest) [] (s.makeAll q rest) := by
  refine .start ?_ fun re hne => ?_
  · rw [find_makeAll]
    cases rest with
    | nil =>
      rw [append_nil, hdir, ite_self]
    | cons name more =>
      rw [if_pos]
      rw [mem_below]
      exact ⟨prefix_append _ _, by simp, prefix_refl _⟩
  · rw [find_makeAll, if_neg]
    · cases re with
      | nil => exact absurd rfl hne
      | cons fi f =>
        by_contra hs
        cases rest with
        | nil =>
          exact hwf.exists_of_prefix (q := q ++ [fi])
            ⟨f, by simp⟩ hs (hk rfl fi)
        | cons name more =>
          exact hwf.exists_of_prefix (q := q ++ [name])
            ⟨more ++ fi :: f, by simp⟩ hs
            (hf name more rfl)
    · intro hmem
      have hlen := ((mem_below _ _).1 hmem).2.2.length_le
      rw [length_append] at hlen
      have := length_pos_of_ne_nil hne
      omega

theorem deliver_cases (hwf : s.disk.WellFormed) (hp : Portable s.disk)
    (hb : s.disk.find base = some .dir)
    (hk : ∀ q, s.disk.landing sys.links base (rootNames request.root)
      = some (q, []) → ∀ name, s.disk.find (q ++ [name]) = none) :
    Delivery sys faults request base s
      (deliver sys faults request base s) := by
  unfold deliver
  cases hc : checkPackage sys faults request s.disk with
  | error e =>
    have hlk : Effect.look
        (fun s => checkPackage sys faults request s.disk) s
        = (.error e, s) := look_error hc
    rw [bind_error hlk]
    exact .refused (by unfold course; rw [hc])
  | ok files =>
    have hs := checkPackage_sound hwf hp hc
    have hlk : Effect.look
        (fun s => checkPackage sys faults request s.disk) s
        = (.ok files, s) := look_ok hc
    rw [bind_ok hlk]
    cases hl : s.disk.landing sys.links base (rootNames request.root) with
    | none =>
      have hma : createDirAll sys base (rootNames request.root)
          (endsInDot request.root.toList) faults.making s
          = (.error .io, s) := by
        unfold createDirAll
        rw [hl]
      rw [bind_error hma]
      exact .refused (by
        unfold course
        rw [hc, hl]
        rfl)
    | some found =>
      obtain ⟨q, rest⟩ := found
      have hcr : course sys faults request base s.disk
          = some (rest, files) := by
        unfold course
        rw [hc, hl]
        rfl
      obtain ⟨hdir, hfr⟩ := landing_spec hwf hb hl
      have hml : makeable request rest <+: rest := by
        unfold makeable
        split
        · exact dropLast_prefix rest
        · exact prefix_refl rest
      cases hmk : faults.making with
      | some made =>
        have hma : createDirAll sys base (rootNames request.root)
            (endsInDot request.root.toList) (some made) s
            = (.error .io, s.makeAll q
              ((makeable request rest).take made)) := by
          unfold createDirAll makeable
          rw [hl]
        rw [bind_error hma]
        refine .stopped hcr hl ?_ (( take_prefix _ _).trans hml) ?_
        · unfold starts
          rw [hmk]
          rfl
        · unfold idle
          rw [hmk, List.isEmpty_iff]
      | none =>
        by_cases hd : endsInDot request.root.toList = true ∧ rest ≠ []
        · have hma : createDirAll sys base (rootNames request.root)
              (endsInDot request.root.toList) none s
              = (.error .io, s.makeAll q (makeable request rest)) := by
            unfold createDirAll makeable
            rw [hl]
            exact if_pos hd
          rw [bind_error hma]
          refine .stopped hcr hl ?_ hml ?_
          · unfold starts
            simp [hmk, hd.1, hd.2]
          · unfold idle
            simp [hmk, hd.2]
        · have hmd : makeable request rest = rest := by
            unfold makeable
            split
            · next hdot =>
              have hnil : rest = [] := by
                by_contra hne
                exact hd ⟨hdot, hne⟩
              rw [hnil]
              rfl
            · rfl
          have hok : createDirAll sys base (rootNames request.root)
              (endsInDot request.root.toList) none s
              = (.ok (q ++ rest), s.makeAll q rest) := by
            unfold createDirAll
            rw [hl]
            show (if _ then _ else _) = _
            rw [if_neg hd]
            show (_, s.makeAll q (makeable request rest)) = _
            rw [hmd]
          have hf : Filling (q ++ rest) files (s.makeAll q rest) []
              (s.makeAll q rest) :=
            filling_made hwf hdir hfr fun hnil => by
              rw [hnil] at hl
              exact hk q hl
          obtain ⟨s', hcp, hfl⟩ := copyAll_filling sys
            hs files faults.copy hf (List.Subset.refl files)
          rw [bind_ok hok]
          have hend : (copyAll sys (q ++ rest) files faults.copy >>=
              fun _ => Effect.look fun s =>
                finish sys base request files s.disk)
              (s.makeAll q rest)
              = (if stops files faults.copy then .error .io
                else finish sys base request files s'.disk, s') := by
            cases hst : stops files faults.copy with
            | true =>
              rw [hst] at hcp
              exact bind_error hcp
            | false =>
              rw [hst] at hcp
              exact bind_ok hcp
          rw [hend]
          refine .copying hcr hl ?_ hfl ?_
          · unfold starts
            rw [hmk]
            by_contra hno
            refine hd ?_
            simpa using hno
          · unfold idle
            rw [hmk, hmd]
            cases rest with
            | nil =>
              have hid := copyAll_idle sys hs
                faults.copy hf.rebase (d := q ++ []) (by
                  intro name
                  rw [append_nil]
                  exact hk q hl name)
              rw [hcp] at hid
              simpa [Staging.makeAll] using hid
            | cons name more =>
              refine ⟨fun heq => ?_, by simp⟩
              obtain ⟨new, hnew, -⟩ := hfl.touched
              rw [hnew, touched_makeAll, append_assoc,
                append_right_eq_self] at heq
              simp [below] at heq

-- ==== what it comes to

variable (sys faults request base)

/-- From here on nothing changes. -/
def idles (disk : Disk B) : Bool :=
  match course sys faults request base disk with
  | none => true
  | some (rest, files) => idle faults request rest files

/-- The package is as it should be and everything can be copied. -/
def succeeds (disk : Disk B) : Bool :=
  match course sys faults request base disk with
  | none => false
  | some (rest, files) =>
    starts faults request rest && !stops files faults.copy

/-- The files that get copied. -/
def gotten (disk : Disk B) : List (StagedFile B) :=
  match course sys faults request base disk with
  | none => []
  | some (rest, files) =>
    if starts faults request rest then copied files faults.copy else []

variable {sys faults request base}

variable {r : Except NativeStageError NativeStageReport × Staging B}

theorem Delivery.touched_iff (h : Delivery sys faults request base s r) :
    r.2.touched = s.touched
      ↔ idles sys faults request base s.disk = true := by
  unfold idles
  cases h with
  | refused hc =>
    rw [hc]
    exact ⟨fun _ => rfl, fun _ => rfl⟩
  | stopped hc _ _ _ hid =>
    rw [hc]
    exact (makeAll_idle s _ _).trans hid
  | copying hc _ _ _ hid =>
    rw [hc]
    exact hid

theorem Delivery.fresh (hwf : s.disk.WellFormed)
    (hb : s.disk.find base = some .dir)
    (hk : ∀ q, s.disk.landing sys.links base (rootNames request.root)
      = some (q, []) → ∀ name, s.disk.find (q ++ [name]) = none)
    (h : Delivery sys faults request base s r) :
    ∃ new, r.2.touched = s.touched ++ new
      ∧ ∀ t ∈ new, FreshWay s.disk t.path := by
  have hmd : ∀ {q : Path} {rest : List String},
      s.disk.landing sys.links base (rootNames request.root)
        = some (q, rest) → ∀ p ∈ below q rest, FreshWay s.disk p := by
    intro q rest hl p hp
    obtain ⟨hdir, hf⟩ := landing_spec hwf hb hl
    obtain ⟨h1, h2, h3⟩ := (mem_below _ _).1 hp
    refine ⟨q, hdir, h1, h2, fun y hy hne hyp => ?_⟩
    exact below_missing hwf hf y ((mem_below _ _).2 ⟨hy, hne, hyp.trans h3⟩)
  cases h with
  | refused => exact ⟨[], (append_nil _).symm, nofun⟩
  | @stopped q rest made files hc hl _ hpre _ =>
    refine ⟨_, touched_makeAll made s q, fun t ht => ?_⟩
    obtain ⟨p, hp, rfl⟩ := mem_map.1 ht
    refine hmd hl p ?_
    obtain ⟨h1, h2, h3⟩ := (mem_below _ _).1 hp
    exact (mem_below _ _).2 ⟨h1, h2, h3.trans
      ((prefix_append_right_inj q).2 hpre)⟩
  | @copying q rest files s' hc hl _ hfl _ =>
    obtain ⟨new, hnew, hu⟩ := hfl.touched
    refine ⟨(below q rest).map .made ++ new, ?_, fun t ht => ?_⟩
    · rw [hnew, touched_makeAll, append_assoc]
    rcases mem_append.1 ht with ht | ht
    · obtain ⟨p, hp, rfl⟩ := mem_map.1 ht
      exact hmd hl p hp
    obtain ⟨hd, hne⟩ := hu t ht
    obtain ⟨hdir, hf⟩ := landing_spec hwf hb hl
    obtain ⟨more, hmr⟩ := hd
    have hm' : more ≠ [] := by
      rintro rfl
      exact hne (by rw [← hmr, append_nil])
    refine ⟨q, hdir, ?_, ?_, fun y hy hyne hyp => ?_⟩
    · rw [← hmr, append_assoc]
      exact prefix_append _ _
    · intro heq
      rw [← hmr, append_assoc] at heq
      have hnil := append_right_eq_self.1 heq
      exact hm' (append_eq_nil_iff.1 hnil).2
    · obtain ⟨z, rfl⟩ := hy
      cases z with
      | nil => exact absurd (append_nil q) hyne
      | cons first z =>
        have hone : s.disk.find (q ++ [first]) = none := by
          cases rest with
          | nil => exact hk q hl first
          | cons name rest =>
            rw [← hmr, append_assoc, prefix_append_right_inj] at hyp
            obtain ⟨rfl, -⟩ := cons_prefix_cons.1 hyp
            exact hf first rest rfl
        by_contra hs
        exact hwf.exists_of_prefix (q := q ++ [first]) ⟨z, by simp⟩ hs hone

omit [DecidableEq B] in
theorem FreshWay.astray {disk : Disk B} (hwf : disk.WellFormed)
    {x l : Path} (h : FreshWay disk x) (hl : disk.isLink l = true) :
    ¬ l <+: x ∧ ¬ x <+: l := by
  obtain ⟨q, hd, hqx, hne, hms⟩ := h
  have hex : disk.find l ≠ none := by
    obtain ⟨target, ht⟩ := isLink_iff.1 hl
    rw [ht]
    nofun
  constructor
  · intro hlx
    rcases prefix_or_prefix_of_prefix hlx hqx with hlq | hql
    · have heq := hwf.eq_of_link hl hlq (by rw [hd]; nofun)
      rw [heq] at hd
      rw [isLink_of_dir hd] at hl
      cases hl
    · by_cases heq : l = q
      · rw [← heq] at hd
        rw [isLink_of_dir hd] at hl
        cases hl
      · exact hex (hms l hql heq hlx)
  · intro hxl
    exact hwf.exists_of_prefix hxl hex (hms x hqx hne (prefix_refl x))

/-- No part of the way to the root is a link. -/
def PlainRoot (disk : Disk B) (base : Path) (names : List String) : Prop :=
  ∀ q, q <+: names → disk.isLink (base ++ q) = false

/-- On a plain way, and into an empty place, a delivery stays in the
root, and what the root then holds is what was copied. -/
theorem Delivery.plain (hwf : s.disk.WellFormed)
    (hb : s.disk.find base = some .dir)
    (hn : Descends (rootNames request.root))
    (hpl : PlainRoot s.disk base (rootNames request.root))
    (hr : s.disk.leaf (base ++ rootNames request.root) = none)
    (hem : ∀ re, re ≠ [] →
      s.disk.find (base ++ rootNames request.root ++ re) = none)
    (h : Delivery sys faults request base s r) :
    (∃ new, r.2.touched = s.touched ++ new
      ∧ ∀ t ∈ new, base ++ rootNames request.root <+: t.path
        ∨ ∃ p, t = .made p ∧ p <+: base ++ rootNames request.root)
      ∧ (∀ p, ¬ base ++ rootNames request.root <+: p →
        r.2.disk.leaf p = s.disk.leaf p)
      ∧ (∀ re, r.2.disk.leaf
          (base ++ rootNames request.root ++ re)
          = placed (gotten sys faults request base s.disk) re)
      ∧ ((∃ e, r.1 = .error e)
        ↔ succeeds sys faults request base s.disk = false) := by
  have hnt : ∀ re, s.disk.leaf
      (base ++ rootNames request.root ++ re) = none := by
    intro re
    by_cases hrel : re = []
    · rw [hrel, append_nil]
      exact hr
    · exact leaf_eq_none_iff.2 (.inl (hem re hrel))
  unfold gotten succeeds
  cases h with
  | refused hc =>
    rw [hc]
    exact ⟨⟨[], (append_nil _).symm, nofun⟩, fun _ _ => rfl,
      hnt, fun _ => rfl, fun _ => ⟨_, rfl⟩⟩
  | @stopped q rest made files hc hl hs hpre _ =>
    rw [hc]
    dsimp only
    rw [hs]
    obtain ⟨hdir, hfr⟩ := landing_spec hwf hb hl
    have heq := landing_plain hn hpl hl
    have hmd : ∀ p ∈ below q made, p ∈ below q rest := by
      intro p hp
      obtain ⟨h1, h2, h3⟩ := (mem_below _ _).1 hp
      exact (mem_below _ _).2 ⟨h1, h2, h3.trans
        ((prefix_append_right_inj q).2 hpre)⟩
    have hlf : ∀ p, (s.makeAll q made).disk.leaf p = s.disk.leaf p :=
      leaf_makeAll fun p hp => below_missing hwf hfr p (hmd p hp)
    refine ⟨⟨_, touched_makeAll made s q, fun t ht => ?_⟩,
      fun p _ => hlf p, fun re => (hlf _).trans
        (hnt re), fun _ => rfl, fun _ => ⟨_, rfl⟩⟩
    obtain ⟨p, hp, rfl⟩ := mem_map.1 ht
    refine .inr ⟨p, rfl, ?_⟩
    rw [← heq]
    exact ((mem_below _ _).1 (hmd p hp)).2.2
  | @copying q rest files s' hc hl hs hf _ =>
    rw [hc]
    dsimp only
    rw [hs, if_pos rfl, Bool.true_and]
    obtain ⟨hdir, hfr⟩ := landing_spec hwf hb hl
    have heq := landing_plain hn hpl hl
    rw [heq] at hf
    have hlf : ∀ p, (s.makeAll q rest).disk.leaf p = s.disk.leaf p :=
      leaf_makeAll fun p hp => below_missing hwf hfr p hp
    refine ⟨?_, fun p hp => ?_, hf.leaves, ?_⟩
    · obtain ⟨new, hnew, hu⟩ := hf.touched
      refine ⟨(below q rest).map .made ++ new, ?_, fun t ht => ?_⟩
      · rw [hnew, touched_makeAll, append_assoc]
      rcases mem_append.1 ht with ht | ht
      · obtain ⟨p, hp, rfl⟩ := mem_map.1 ht
        refine .inr ⟨p, rfl, ?_⟩
        rw [← heq]
        exact ((mem_below _ _).1 hp).2.2
      · exact .inl (hu t ht).1
    · exact (leaf_congr (hf.outside p hp)).trans (hlf p)
    · cases hst : stops files faults.copy with
      | true => exact ⟨fun _ => rfl, fun _ => ⟨_, rfl⟩⟩
      | false =>
        have hway : ∀ q', q' <+: rootNames request.root →
            s'.disk.find (base ++ q') = some .dir := by
          intro q' hq'
          by_cases hall : q' = rootNames request.root
          · rw [hall]
            exact hf.dir
          have hup : base ++ q' <+: base ++ rootNames request.root :=
            (prefix_append_right_inj base).2 hq'
          rw [hf.outside, find_makeAll]
          · split
            · rfl
            · next hno =>
              rw [← heq] at hup
              rcases prefix_or_prefix_of_prefix hup
                (prefix_append q rest) with hle | hge
              · obtain ⟨more, hmr⟩ := hle
                by_cases hnil : more = []
                · rw [hnil, append_nil] at hmr
                  rw [hmr]
                  exact hdir
                · refine hwf.above _ more hnil ?_
                  rw [hmr, hdir]
                  nofun
              · by_cases heq' : base ++ q' = q
                · rw [heq']
                  exact hdir
                · exact absurd ((mem_below _ _).2 ⟨hge, heq', hup⟩) hno
          · intro hd
            have hlen := hd.length_le
            have hle := hq'.length_le
            rw [length_append, length_append] at hlen
            exact hall (hq'.eq_of_length (by omega))
        have hend : canonicalDir sys s'.disk base
            (rootNames request.root)
            = some (base ++ rootNames request.root) := by
          unfold canonicalDir
          rw [follow_dirs sys.links hn hway]
        show (∃ e, finish sys base request files s'.disk = .error e) ↔ _
        unfold finish
        dsimp only
        rw [hend]
        dsimp only
        rw [if_pos (by
          rw [ isPrefixOf_iff_prefix]
          exact prefix_append _ _)]
        exact ⟨nofun, nofun⟩

theorem Delivery.idle_leaf (hwf : s.disk.WellFormed)
    (hb : s.disk.find base = some .dir)
    (hk : ∀ q, s.disk.landing sys.links base (rootNames request.root)
      = some (q, []) → ∀ name, s.disk.find (q ++ [name]) = none)
    (h : Delivery sys faults request base s r)
    (hid : idles sys faults request base s.disk = true) (p : Path) :
    r.2.disk.leaf p = s.disk.leaf p := by
  unfold idles at hid
  cases h with
  | refused => rfl
  | stopped hc _ _ _ hil =>
    rw [hc] at hid
    rw [hil.2 hid]
    rfl
  | @copying q rest f s' hc hl hs hf hil =>
    rw [hc] at hid
    have hsm := hil.2 hid
    obtain ⟨hdir, hfr⟩ := landing_spec hwf hb hl
    have hnil : rest = [] := by
      obtain ⟨new, hnew, -⟩ := hf.touched
      rw [hnew, touched_makeAll, append_assoc,
        append_right_eq_self, append_eq_nil_iff,
        map_eq_nil_iff] at hsm
      cases rest with
      | nil => rfl
      | cons name more => cases hsm.1
    subst hnil
    rw [append_nil] at hf
    have hcp : copied f faults.copy = [] := by
      unfold idle at hid
      have hmk : faults.making = none := by
        unfold starts at hs
        rw [and_eq_true] at hs
        exact Option.isNone_iff_eq_none.1 hs.1
      rw [hmk] at hid
      simp only [isEmpty_nil, Bool.not_true, Bool.false_or,
        Bool.and_eq_true] at hid
      exact copied_of_idle hid.2
    by_cases hd : q <+: p
    · obtain ⟨re, rfl⟩ := hd
      rw [hf.leaves, hcp]
      show none = _
      rw [eq_comm, leaf_eq_none_iff]
      cases re with
      | nil =>
        rw [append_nil]
        exact .inr hdir
      | cons name more =>
        left
        by_contra hso
        exact hwf.exists_of_prefix (q := q ++ [name]) ⟨more, by simp⟩
          hso (hk q hl name)
    · exact leaf_congr (hf.outside p hd)

-- ==== what is promised

/-- Nothing is created, changed or deleted outside the root, but for the
directories that lead to it. -/
def Confined (root : Path) (touched : List Touch) : Prop :=
  ∀ t ∈ touched, root <+: t.path ∨ ∃ p, t = .made p ∧ p <+: root

/-- A plugin directory holds the files it held. -/
def Intact (base : Path) (before after : Disk B) : Prop :=
  ∀ p, base <+: p → after.leaf p = before.leaf p

variable (sys faults request)

/-- A staging keeps to its root, and one that fails leaves the plugin
directory as it was. -/
def Honoured (disk : Disk B) : Prop :=
  let outcome := stageNativePackage sys faults request ⟨disk, []⟩
  match canonicalDir sys disk [] request.pluginDir with
  | none => outcome.2.touched = []
  | some base =>
    Confined (base ++ rootNames request.root) outcome.2.touched
      ∧ ((∃ e, outcome.1 = .error e) → Intact base disk outcome.2.disk)

/-- With nothing removed: nothing is touched either, or the way is plain
and either all is copied or no file is. -/
def SafeAsFound (base : Path) (disk : Disk B) : Prop :=
  idles sys faults request base disk = true
    ∨ PlainRoot disk base (rootNames request.root)
      ∧ (succeeds sys faults request base disk = true
        ∨ gotten sys faults request base disk = [])

/-- With an old tree at `d`: nothing of it is removed, or the way is
plain, and the removal takes no file before it fails, or all is copied,
or the files copied are those that were there. -/
def SafeOver (base d : Path) (disk : Disk B) : Prop :=
  let dotted := endsInDot request.root.toList
  (∀ e ∈ disk.entries, gone faults d dotted e.1 = false)
    ∨ PlainRoot disk base (rootNames request.root)
      ∧ if dotted || faults.removal.isSome then
          ∀ p, gone faults d dotted p = true → disk.leaf p = none
        else
          let cleared := disk.prune (gone faults d dotted)
          succeeds sys faults request base cleared = true
            ∨ ∀ relative, disk.leaf (base ++ rootNames request.root
              ++ relative)
              = placed (gotten sys faults request base cleared) relative

/-- When a staging keeps its promise: it is refused before it touches
anything, or as above. -/
def Safe (disk : Disk B) : Prop :=
  match pluginRootOf sys request disk with
  | .error _ => True
  | .ok base =>
    match locate sys disk base request.root with
    | .io => True
    | .other => True
    | .missing => SafeAsFound sys faults request base disk
    | .dir d =>
      if request.overwrite then SafeOver sys faults request base d disk
      else
        match readDir faults disk d with
        | some [] => SafeAsFound sys faults request base disk
        | _ => True

variable {sys faults request} {disk : Disk B}

-- ==== destinations

omit [DecidableEq B] in
theorem not_plain {n : List String}
    (h : ¬ PlainRoot disk base n) :
    ∃ l, l <+: base ++ n ∧ disk.isLink l = true := by
  unfold PlainRoot at h
  push Not at h
  obtain ⟨q, hq, hl⟩ := h
  exact ⟨base ++ q, (prefix_append_right_inj base).2 hq, by
    simpa using hl⟩

omit [DecidableEq B] in
theorem locate_missing (hwf : disk.WellFormed)
    (hn : Descends (rootNames request.root))
    (h : locate sys disk base request.root = .missing) :
    (∀ q, disk.landing sys.links base (rootNames request.root)
        ≠ some (q, []))
      ∧ (PlainRoot disk base (rootNames request.root) →
        disk.find (base ++ rootNames request.root) = none) := by
  have hms : disk.follow sys.links base (rootNames request.root)
      = .missing → (∀ q, disk.landing sys.links base
        (rootNames request.root) ≠ some (q, []))
      ∧ (PlainRoot disk base (rootNames request.root) →
        disk.find (base ++ rootNames request.root) = none) := by
    intro hf
    refine ⟨fun q hl => ?_, fun hp =>
      follow_missing_plain hwf hn hp hf⟩
    obtain ⟨le, hdir⟩ := landing_follow hl
    rw [hf] at hdir
    cases hdir
  unfold locate at h
  dsimp only at h
  split at h
  · split at h
    · cases h
    · exact hms (by assumption)
    · cases h
  · split at h
    · cases h
    · next l hls =>
      have hs : rootNames request.root
          = (rootNames request.root).dropLast ++ [l] :=
        (dropLast_append_getLast? l hls).symm
      split at h
      · next p le hf =>
        split at h
        · next hnn =>
          obtain ⟨hdot, hd⟩ := hn l (by
            rw [hs]
            exact mem_append_right _ mem_cons_self)
          refine hms ?_
          rw [hs, follow_onward [l] hf]
          unfold follow
          rw [hop_cons, if_neg hdot, if_neg hd, hnn]
        · cases h
        · cases h
      · next hf =>
        refine hms ?_
        rw [hs]
        exact follow_missing_onward [l] hf
      · cases h

variable {d : Path}

omit [DecidableEq B] in
theorem locate_dir (hwf : disk.WellFormed)
    (hn : Descends (rootNames request.root))
    (h : locate sys disk base request.root = .dir d) :
    (∃ le, disk.follow sys.links base (rootNames request.root)
        = .dir d le)
      ∧ (endsInDot request.root.toList = false → d ≠ []
        ∧ rootNames request.root ≠ []
        ∧ (disk.find (base ++ rootNames request.root) ≠ none →
          PlainRoot disk base (rootNames request.root))) := by
  unfold locate at h
  dsimp only at h
  split at h
  · next hd =>
    split at h
    · next p le hf =>
      cases h
      refine ⟨⟨le, hf⟩, fun hno => ?_⟩
      rw [hno] at hd
      cases hd
    · cases h
    · cases h
  · split at h
    · cases h
    · next l hl =>
      have hs : rootNames request.root
          = (rootNames request.root).dropLast ++ [l] :=
        (dropLast_append_getLast? l hl).symm
      obtain ⟨hdot, hdt⟩ := hn l (by
        rw [hs]
        exact mem_append_right _ mem_cons_self)
      split at h
      · next p le hf =>
        split at h
        · cases h
        · next hdir =>
          cases h
          refine ⟨⟨le, ?_⟩, fun _ => ⟨by simp,
            by rw [hs]; simp, fun hex => ?_⟩⟩
          · rw [hs, follow_onward [l] hf]
            unfold follow
            rw [hop_cons, if_neg hdot, if_neg hdt, hdir]
            rfl
          -- the way is made of directories, so the place is the root
          have hway : ∀ q, q <+: (rootNames request.root).dropLast →
              disk.find (base ++ q) = some .dir := by
            intro q hq
            obtain ⟨m, hmr⟩ := hq
            refine hwf.above _ (m ++ [l]) (by simp) ?_
            rw [append_assoc, ← append_assoc q, hmr, ← hs]
            exact hex
          have hin : Descends (rootNames request.root).dropLast :=
            fun c hc => hn c (dropLast_subset _ hc)
          rw [follow_dirs sys.links hin hway] at hf
          cases hf
          intro q hq
          by_cases hall : q = rootNames request.root
          · rw [hall, hs, ← append_assoc]
            exact isLink_of_dir hdir
          · refine isLink_of_dir (hway q ?_)
            rw [hs] at hq hall
            exact (prefix_concat_iff.1 hq).resolve_left hall
        · cases h
      · cases h
      · cases h

theorem readDir_empty (h : readDir faults disk d = some []) (n : String) :
    disk.find (d ++ [n]) = none :=
  not_not.1 fun hne => absurd (((readDir_ok h).2 n).2 hne) not_mem_nil

omit [DecidableEq B] in
theorem located_root (hn : Descends (rootNames request.root))
    (hp : PlainRoot disk base (rootNames request.root))
    (h : ∃ l, disk.follow sys.links base (rootNames request.root)
      = .dir d l) : d = base ++ rootNames request.root := by
  obtain ⟨l, hf⟩ := h
  exact (follow_plain hn hp hf).1

-- ==== what is kept, and when

omit [DecidableEq B] in
theorem not_confined {n : List String} (hwf : disk.WellFormed)
    (hpn : ¬ PlainRoot disk base n) {t : Touch} {new : List Touch}
    (ht : t ∈ new) (hf : FreshWay disk t.path) :
    ¬ Confined (base ++ n) new := by
  intro hc
  obtain ⟨l, hl, hln⟩ := not_plain hpn
  obtain ⟨hd, hup⟩ := hf.astray hwf hln
  rcases hc t ht with hr | ⟨p, rfl, hp⟩
  · exact hd (hl.trans hr)
  · rcases prefix_or_prefix_of_prefix hp hl with hpl | hlp
    · exact hup hpl
    · exact hd hlp

omit [DecidableEq B] in
theorem placed_nil {f : List (StagedFile B)} :
    (∀ re, placed f re = none) ↔ f = [] := by
  constructor
  · intro h
    cases f with
    | nil => rfl
    | cons fi rest =>
      have hn := h (steps fi.relative)
      unfold placed at hn
      rw [Option.map_eq_none_iff, find?_eq_none] at hn
      exact absurd (decide_eq_true rfl) (hn fi (mem_reverse.2 mem_cons_self))
  · rintro rfl re
    rfl

theorem asFound_iff (hwf : disk.WellFormed) (hpr : Portable disk)
    (hb : disk.find base = some .dir)
    (hn : Descends (rootNames request.root))
    (hk : ∀ q, disk.landing sys.links base (rootNames request.root)
      = some (q, []) → ∀ name, disk.find (q ++ [name]) = none)
    (hr : PlainRoot disk base (rootNames request.root) →
      disk.leaf (base ++ rootNames request.root) = none
        ∧ ∀ relative, relative ≠ [] →
          disk.find (base ++ rootNames request.root ++ relative) = none) :
    let outcome := deliver sys faults request base ⟨disk, []⟩
    (Confined (base ++ rootNames request.root) outcome.2.touched
        ∧ ((∃ e, outcome.1 = .error e) → Intact base disk outcome.2.disk))
      ↔ SafeAsFound sys faults request base disk := by
  intro outcome
  have hc : Delivery sys faults request base ⟨disk, []⟩ outcome :=
    deliver_cases (s := ⟨disk, []⟩) hwf hpr hb hk
  have hpn := fun h => hc.plain hwf hb hn h (hr h).1 (hr h).2
  constructor
  · rintro ⟨hcn, hin⟩
    by_cases hid : idles sys faults request base disk = true
    · exact .inl hid
    right
    by_cases hway : PlainRoot disk base (rootNames request.root)
    · obtain ⟨-, -, hl, herr⟩ := hpn hway
      refine ⟨hway, ?_⟩
      by_cases hd : succeeds sys faults request base disk = true
      · exact .inl hd
      right
      rw [← placed_nil]
      intro relative
      have hsm := hin (herr.2 (by simpa using hd))
        (base ++ rootNames request.root ++ relative)
        (by rw [append_assoc]; exact prefix_append _ _)
      have hpl := hl relative
      rw [hsm] at hpl
      rw [← hpl]
      by_cases hrel : relative = []
      · rw [hrel, append_nil]
        exact (hr hway).1
      · exact leaf_eq_none_iff.2 (.inl ((hr hway).2 relative hrel))
    · exfalso
      obtain ⟨new, hnew, hfr⟩ := hc.fresh hwf hb hk
      cases hf : new with
      | nil =>
        rw [hf] at hnew
        exact hid (hc.touched_iff.1 hnew)
      | cons t rest =>
        have ht : t ∈ new := by rw [hf]; exact mem_cons_self
        rw [hnew] at hcn
        exact not_confined hwf hway ht (hfr t ht) hcn
  · rintro (hid | ⟨hway, hend⟩)
    · refine ⟨?_, fun _ p _ => hc.idle_leaf hwf hb hk hid p⟩
      rw [hc.touched_iff.2 hid]
      exact nofun
    · obtain ⟨⟨new, hnew, hu⟩, ho, hl, herr⟩ := hpn hway
      refine ⟨by rw [hnew]; exact hu, fun hfl p _ => ?_⟩
      have hs := herr.1 hfl
      rcases hend with hd | hnn
      · rw [show succeeds sys faults request base
          (⟨disk, []⟩ : Staging B).disk = _ from hd] at hs
        cases hs
      · by_cases hp : base ++ rootNames request.root <+: p
        · obtain ⟨relative, rfl⟩ := hp
          have hpl := hl relative
          rw [show gotten sys faults request base
            (⟨disk, []⟩ : Staging B).disk = _ from hnn] at hpl
          rw [hpl]
          by_cases hrel : relative = []
          · rw [hrel, append_nil]
            exact (hr hway).1.symm
          · exact (leaf_eq_none_iff.2 (.inl ((hr hway).2 relative hrel))).symm
        · exact ho p hp

-- ==== changes only grow

/-- A program only adds to the changes. -/
def Grows {α : Type} (m : Stage B α) : Prop :=
  ∀ s, ∃ new, (m s).2.touched = s.touched ++ new

omit [DecidableEq B] in
theorem Grows.bind {α β : Type} {m : Stage B α} {f : α → Stage B β}
    (hm : Grows m) (hf : ∀ a, Grows (f a)) : Grows (m >>= f) := by
  intro s
  obtain ⟨new, hn⟩ := hm s
  cases hr : m s with
  | mk re t =>
    rw [hr] at hn
    cases re with
    | error e =>
      rw [bind_error hr]
      exact ⟨new, hn⟩
    | ok a =>
      obtain ⟨mo, hmr⟩ := hf a t
      rw [bind_ok hr]
      exact ⟨new ++ mo, by rw [hmr, hn, append_assoc]⟩

omit [DecidableEq B] in
theorem Grows.still {α : Type} {m : Stage B α} (h : ∀ s, (m s).2 = s) :
    Grows m :=
  fun s => ⟨[], by rw [h, append_nil]⟩

omit [DecidableEq B] in
theorem createDirAll_grows (n : List String) (dotted : Bool)
    (f : Option Nat) :
    Grows (createDirAll sys base n dotted f) := by
  intro s
  unfold createDirAll
  cases s.disk.landing sys.links base n with
  | none => exact ⟨[], (append_nil _).symm⟩
  | some found =>
    cases f with
    | some made => exact ⟨_, touched_makeAll _ s _⟩
    | none =>
      dsimp only
      split <;> exact ⟨_, touched_makeAll _ s _⟩

omit [DecidableEq B] in
theorem copyContent_grows (dir : Path) (n : String) (c : B) :
    Grows (copyContent sys dir n c) := by
  intro s
  unfold copyContent
  split
  · exact ⟨_, rfl⟩
  · split
    · exact ⟨_, rfl⟩
    · exact ⟨[], (append_nil _).symm⟩

omit [DecidableEq B] in
theorem copyFile_grows (d : Path) (fi : StagedFile B)
    (f : Option (CopyFault B)) : Grows (copyFile sys d fi f) := by
  have hf : ∀ _ : Unit, Grows (Effect.fail .io : Stage B Unit) :=
    fun _ => .still fun _ => rfl
  unfold copyFile
  split
  · exact (createDirAll_grows _ _ _).bind fun _ => copyContent_grows _ _ _
  · exact (createDirAll_grows _ _ _).bind fun _ => hf ()
  · refine (createDirAll_grows _ _ _).bind fun dir => ?_
    split
    · exact (copyContent_grows _ _ _).bind hf
    · have hu : Grows (pure () : Stage B Unit) := .still fun _ => rfl
      exact hu.bind hf

omit [DecidableEq B] in
theorem copyAll_grows (d : Path) (files : List (StagedFile B))
    (copy : Option (Nat × CopyFault B)) :
    Grows (copyAll sys d files copy) := by
  induction files generalizing copy with
  | nil => exact .still fun _ => rfl
  | cons file rest ih =>
    match copy with
    | none => exact (copyFile_grows _ _ _).bind fun _ => ih none
    | some (0, fault) => exact copyFile_grows _ _ _
    | some (n + 1, fault) =>
      exact (copyFile_grows _ _ _).bind fun _ => ih (some (n, fault))

theorem deliver_grows : Grows (deliver sys faults request base) := by
  refine Grows.bind (.still fun _ => rfl) fun files => ?_
  refine (createDirAll_grows _ _ _).bind fun d => ?_
  exact (copyAll_grows _ _ _).bind fun _ => .still fun _ => rfl

-- ==== over a tree

variable {dotted : Bool}

omit [DecidableEq B] in
theorem gone_below {p : Path} (h : gone faults d dotted p = true) :
    d <+: p := by
  unfold gone at h
  simp only [and_eq_true, isPrefixOf_iff_prefix] at h
  exact h.1.1

omit [DecidableEq B] in
theorem gone_all {p : Path} (hr : faults.removal = none) :
    gone faults d false p = true ↔ d <+: p := by
  unfold gone
  rw [hr]
  simp

omit [DecidableEq B] in
theorem leaf_prune (disk : Disk B) (t : Path → Bool) (p : Path) :
    (disk.prune t).leaf p = if t p then none else disk.leaf p := by
  by_cases hp : p = []
  · rw [hp]
    show none = if t [] then none else none
    rw [ite_self]
  · unfold leaf
    rw [find_prune _ _ hp]
    by_cases ht : t p = true
    · rw [if_pos ht, if_pos ht]
    · rw [if_neg ht, if_neg ht]

variable (faults) in
/-- The changes a removal makes. -/
def takenAway (d : Path) (dotted : Bool) (disk : Disk B) : List Touch :=
  ((disk.entries.map Prod.fst).filter (gone faults d dotted)).map .removed

omit [DecidableEq B] in
theorem mem_takenAway {t : Touch} :
    t ∈ takenAway faults d dotted disk
      ↔ ∃ e ∈ disk.entries, gone faults d dotted e.1 = true
        ∧ t = .removed e.1 := by
  unfold takenAway
  simp only [mem_map, mem_filter]
  constructor
  · rintro ⟨p, ⟨⟨e, he, rfl⟩, hg⟩, rfl⟩
    exact ⟨e, he, hg, rfl⟩
  · rintro ⟨e, he, hg, rfl⟩
    exact ⟨e.1, ⟨⟨e, he, rfl⟩, hg⟩, rfl⟩

omit [DecidableEq B] in
theorem exists_of_confined {ro : Path} {new : List Touch}
    (hwf : disk.WellFormed)
    (hc : Confined ro (takenAway faults d dotted disk ++ new))
    {e : Path × Node B} (he : e ∈ disk.entries)
    (hg : gone faults d dotted e.1 = true) :
    ro <+: e.1 ∧ disk.find ro ≠ none := by
  rcases hc (.removed e.1) (mem_append_left _
    (mem_takenAway.2 ⟨e, he, hg, rfl⟩)) with hr | ⟨p, hp, -⟩
  · exact ⟨hr, hwf.exists_of_prefix hr (find_of_mem he)⟩
  · cases hp

omit [DecidableEq B] in
theorem takenAway_confined : Confined d (takenAway faults d dotted disk) := by
  intro t ht
  obtain ⟨e, -, hg, rfl⟩ := mem_takenAway.1 ht
  exact .inl (gone_below hg)

omit [DecidableEq B] in
theorem removal_failed (hwf : disk.WellFormed)
    (hnm : Descends (rootNames request.root))
    (hfol : ∃ left, disk.follow sys.links base (rootNames request.root)
      = .dir d left) (ho : dotted = false →
      disk.find (base ++ rootNames request.root) ≠ none →
        PlainRoot disk base (rootNames request.root)) {e : Path × Node B}
    (he : e ∈ disk.entries) (hg : gone faults d dotted e.1 = true) :
    (Confined (base ++ rootNames request.root)
        (takenAway faults d dotted disk)
      ∧ Intact base disk (disk.prune (gone faults d dotted)))
      ↔ PlainRoot disk base (rootNames request.root)
        ∧ ∀ p, gone faults d dotted p = true → disk.leaf p = none := by
  constructor
  · rintro ⟨hc, hin⟩
    rw [← append_nil (takenAway faults d dotted disk)] at hc
    obtain ⟨hr, hex⟩ := exists_of_confined hwf hc he hg
    have hls : ∀ p, base <+: p → gone faults d dotted p = true →
        disk.leaf p = none := by
      intro p hp hg
      rw [← hin p hp, leaf_prune, if_pos hg]
    by_cases hpl : PlainRoot disk base (rootNames request.root)
    · refine ⟨hpl, fun p hp => hls p ?_ hp⟩
      have hd := located_root hnm hpl hfol
      have hdw := gone_below hp
      rw [hd] at hdw
      exact (prefix_append _ _).trans hdw
    · -- the root is a link, and it is what was taken away
      exfalso
      cases hdot : dotted with
      | false => exact hpl (ho hdot hex)
      | true =>
        obtain ⟨l, hl, hln⟩ := not_plain hpl
        have he' := hwf.exists_of_prefix hr (find_of_mem he)
        have heq' := hwf.eq_of_link hln (hl.trans hr) (find_of_mem he)
        have hn := hls e.1 ((prefix_append _ _).trans hr) hg
        rw [heq'] at hn
        unfold leaf at hn
        obtain ⟨target, htgt⟩ := isLink_iff.1 hln
        rw [htgt] at hn
        cases hn
  · rintro ⟨hpl, hls⟩
    have hd := located_root hnm hpl hfol
    refine ⟨?_, fun p _ => ?_⟩
    · rw [← hd]
      exact takenAway_confined
    · rw [leaf_prune]
      split
      · next hp => exact (hls p hp).symm
      · rfl

theorem removal_done (hwf : disk.WellFormed) (hpr : Portable disk)
    (hb : disk.find base = some .dir)
    (hnm : Descends (rootNames request.root))
    (hne : rootNames request.root ≠ [])
    (hpl : PlainRoot disk base (rootNames request.root))
    (hd : d = base ++ rootNames request.root)
    (hrm : faults.removal = none) :
    let cleared := disk.prune (gone faults d false)
    let outcome := deliver sys faults request base
      ⟨cleared, takenAway faults d false disk⟩
    Confined (base ++ rootNames request.root) outcome.2.touched
      ∧ (((∃ e, outcome.1 = .error e) → Intact base disk outcome.2.disk)
        ↔ succeeds sys faults request base cleared = true
          ∨ ∀ relative, disk.leaf (base ++ rootNames request.root ++ relative)
            = placed (gotten sys faults request base cleared) relative) := by
  intro cleared outcome
  have hg : ∀ p, gone faults d false p = true ↔
      base ++ rootNames request.root <+: p := by
    intro p
    rw [gone_all hrm, hd]
  have hf : ∀ p, p ≠ [] → ¬ base ++ rootNames request.root <+: p →
      cleared.find p = disk.find p := by
    intro p hp hout
    rw [find_prune _ _ hp, if_neg]
    exact fun h => hout ((hg p).1 h)
  have hn : ∀ p, base ++ rootNames request.root <+: p →
      cleared.find p = none := by
    intro p hp
    have hp' : p ≠ [] := by
      rintro rfl
      exact hne (append_eq_nil_iff.1 (prefix_nil.1 hp)).2
    rw [find_prune _ _ hp', if_pos ((hg p).2 hp)]
  have hwf' : cleared.WellFormed := by
    refine hwf.prune fun p name hp => ?_
    rw [hg] at hp ⊢
    exact hp.trans (prefix_append p [name])
  have hpr' : Portable cleared := by
    intro p hp
    refine hpr p ?_
    by_cases hr : base ++ rootNames request.root <+: p
    · exact absurd (hn p hr) hp
    · by_cases hnil : p = []
      · rw [hnil]
        nofun
      · rwa [hf p hnil hr] at hp
  have hb' : cleared.find base = some .dir := by
    by_cases hnil : base = []
    · rw [hnil]
      rfl
    · rw [hf base hnil, hb]
      intro hle
      have hlen := hle.length_le
      rw [length_append] at hlen
      have := length_pos_of_ne_nil hne
      omega
  have hpl' : PlainRoot cleared base (rootNames request.root) := by
    intro q hq
    by_cases hr : base ++ rootNames request.root <+: base ++ q
    · unfold isLink
      rw [hn _ hr]
    · by_cases hnil : base ++ q = []
      · rw [hnil]
        rfl
      · exact (isLink_congr (hf _ hnil hr)).trans (hpl q hq)
  have hkp : ∀ q, cleared.landing sys.links base (rootNames request.root)
      = some (q, []) → ∀ name, cleared.find (q ++ [name]) = none := by
    intro q hln name
    have heq := landing_plain hnm hpl' hln
    rw [append_nil] at heq
    rw [heq]
    exact hn _ (prefix_append _ _)
  have hc : Delivery sys faults request base
      ⟨cleared, takenAway faults d false disk⟩ outcome :=
    deliver_cases (s := ⟨cleared, takenAway faults d false disk⟩) hwf' hpr'
      hb' hkp
  obtain ⟨⟨new, hnew, hu⟩, ho, hl, herr⟩ :=
    hc.plain hwf' hb' hnm hpl'
      (leaf_eq_none_iff.2 (.inl (hn _ (prefix_refl _))))
      fun relative _ => hn _ (prefix_append _ _)
  have hk : ∀ p, ¬ base ++ rootNames request.root <+: p →
      cleared.leaf p = disk.leaf p := by
    intro p hp
    rw [leaf_prune, if_neg]
    exact fun h => hp ((hg p).1 h)
  refine ⟨?_, fun hin => ?_, fun hend hfl p _ => ?_⟩
  · rw [hnew]
    intro t ht
    rcases mem_append.1 ht with ht | ht
    · rw [← hd]
      exact takenAway_confined t ht
    · exact hu t ht
  · by_cases hdn : succeeds sys faults request base cleared = true
    · exact .inl hdn
    refine .inr fun relative => ?_
    rw [← hin (herr.2 (by simpa using hdn)) _ (by
      rw [append_assoc]
      exact prefix_append _ _)]
    exact hl relative
  · have hs := herr.1 hfl
    rcases hend with hdn | hsm
    · rw [show succeeds sys faults request base (⟨cleared,
        takenAway faults d false disk⟩ : Staging B).disk = _ from hdn]
        at hs
      cases hs
    · by_cases hp : base ++ rootNames request.root <+: p
      · obtain ⟨relative, rfl⟩ := hp
        rw [hsm relative]
        exact hl relative
      · exact (ho p hp).trans (hk p hp)

theorem over_iff (hwf : disk.WellFormed) (hpr : Portable disk)
    (hb : disk.find base = some .dir)
    (hn : Descends (rootNames request.root))
    (hl : locate sys disk base request.root = .dir d) :
    let outcome := (removeDirAll faults d (endsInDot request.root.toList)
      >>= fun _ => deliver sys faults request base) ⟨disk, []⟩
    (Confined (base ++ rootNames request.root) outcome.2.touched
        ∧ ((∃ e, outcome.1 = .error e) → Intact base disk outcome.2.disk))
      ↔ SafeOver sys faults request base d disk := by
  intro outcome
  obtain ⟨hfol, hu⟩ := locate_dir hwf hn hl
  have hdir := follow_isDir hwf hb hfol.choose_spec
  unfold SafeOver
  cases hf : endsInDot request.root.toList || faults.removal.isSome with
  | true =>
    have hout : outcome = (.error .io, ⟨disk.prune (gone faults d
        (endsInDot request.root.toList)), takenAway faults d
        (endsInDot request.root.toList) disk⟩) := by
      refine bind_error ?_
      unfold removeDirAll
      rw [hf]
      rfl
    rw [hout]
    dsimp only
    rw [if_pos hf]
    by_cases hnt : ∀ e ∈ disk.entries,
        gone faults d (endsInDot request.root.toList) e.1 = false
    · refine ⟨fun _ => .inl hnt, fun _ => ⟨fun t ht => ?_,
        fun _ p _ => ?_⟩⟩
      · obtain ⟨e, he, hg, -⟩ := mem_takenAway.1 ht
        rw [hnt e he] at hg
        cases hg
      · rw [leaf_prune]
        split
        · next hp =>
          by_contra hsm
          have hp' : disk.find p ≠ none := fun hno =>
            hsm (leaf_eq_none_iff.2 (.inl hno)).symm
          by_cases hnil : p = []
          · rw [hnil] at hsm
            exact hsm rfl
          · obtain ⟨node, hmem⟩ := mem_of_find hnil hp'
            rw [hnt _ hmem] at hp
            cases hp
        · rfl
    · push Not at hnt
      obtain ⟨e, he, hg⟩ := hnt
      have hg' : gone faults d (endsInDot request.root.toList) e.1
          = true := by simpa using hg
      have hiff := removal_failed hwf hn hfol
        (fun hdot => (hu hdot).2.2) he hg'
      constructor
      · rintro ⟨hc, hin⟩
        exact .inr (hiff.1 ⟨hc, hin ⟨_, rfl⟩⟩)
      · rintro (hno | hsf)
        · exact absurd (hno e he) hg
        · obtain ⟨hc, hin⟩ := hiff.2 hsf
          exact ⟨hc, fun _ => hin⟩
  | false =>
    rw [or_eq_false_iff] at hf
    obtain ⟨hdot, hr⟩ := hf
    have hr' : faults.removal = none := by
      simpa using hr
    obtain ⟨hdne, hne, hplainOf⟩ := hu hdot
    have hout : outcome = deliver sys faults request base
        ⟨disk.prune (gone faults d false),
          takenAway faults d false disk⟩ := by
      refine bind_ok (a := ()) ?_
      unfold removeDirAll
      rw [hdot, hr']
      rfl
    rw [hout, hdot]
    dsimp only
    rw [hr', if_neg (by simp)]
    -- the directory itself goes
    obtain ⟨node, hmem⟩ := mem_of_find hdne (by rw [hdir]; nofun)
    have hs : gone faults d false d = true := (gone_all hr').2 (prefix_refl d)
    constructor
    · rintro ⟨hc, hin⟩
      right
      obtain ⟨new, hnew⟩ := deliver_grows
        (⟨disk.prune (gone faults d false),
          takenAway faults d false disk⟩ : Staging B)
      have hc' := hc
      rw [hnew] at hc'
      have hpl := hplainOf (exists_of_confined hwf hc' hmem hs).2
      have hd := located_root hn hpl hfol
      exact ⟨hpl, (removal_done hwf hpr hb hn hne hpl hd hr').2.1 hin⟩
    · rintro (hno | ⟨hpl, hend⟩)
      · rw [hno _ hmem] at hs
        cases hs
      · have hd := located_root hn hpl hfol
        exact ⟨(removal_done hwf hpr hb hn hne hpl hd
          hr').1, (removal_done hwf hpr hb hn hne hpl hd
          hr').2.2 hend⟩

omit [DecidableEq B] in
theorem pluginRootOf_ok
    (h : pluginRootOf sys request disk = .ok base) :
    canonicalDir sys disk [] request.pluginDir = some base
      ∧ isSafeRelativePath request.root.toList = true := by
  unfold pluginRootOf at h
  split at h
  · cases h
  · split at h
    · cases h
    · next hr =>
      split at h
      · next hd =>
        cases h
        exact ⟨hd, by simpa using fun hno => hr (.inr hno)⟩
      · cases h

omit [DecidableEq B] in
theorem canonicalDir_isDir {p : List String} (hwf : disk.WellFormed)
    (h : canonicalDir sys disk [] p = some base) :
    disk.find base = some .dir := by
  unfold canonicalDir at h
  split at h
  · next hf =>
    cases h
    exact follow_isDir hwf rfl hf
  · cases h

theorem honoured_of_refused {e : NativeStageError}
    (h : stageNativePackage sys faults request ⟨disk, []⟩
      = (.error e, ⟨disk, []⟩)) : Honoured sys faults request disk := by
  unfold Honoured
  rw [h]
  split
  · rfl
  · exact ⟨nofun, fun _ _ _ => rfl⟩

theorem stage_eq (h : pluginRootOf sys request disk = .ok base) :
    stageNativePackage sys faults request ⟨disk, []⟩
      = (prepareDestination sys faults base request
          >>= fun _ => deliver sys faults request base) ⟨disk, []⟩ := by
  have hl : Effect.look (fun s : Staging B =>
      pluginRootOf sys request s.disk) ⟨disk, []⟩
      = (.ok base, ⟨disk, []⟩) := look_ok h
  unfold stageNativePackage
  rw [bind_ok hl]
  rfl

theorem prepareDestination_kept {sys : System B} {disk : Disk B}
    {base d : Path} {request : NativeStageRequest} (faults : Faults B)
    (hl : locate sys disk base request.root = .dir d)
    (ho : request.overwrite = false) :
    prepareDestination sys faults base request ⟨disk, []⟩
      = match readDir faults disk d with
        | none => (.error .io, ⟨disk, []⟩)
        | some [] => (.ok (), ⟨disk, []⟩)
        | some _ => (.error (.alreadyStaged
            (base ++ rootNames request.root)), ⟨disk, []⟩) := by
  unfold prepareDestination
  rw [hl]
  rw [ho]
  rfl

/-- A staging keeps to its root and, if it fails, leaves the plugin
directory as it was, exactly when it is safe. -/
theorem staging_honoured (sys : System B) (faults : Faults B)
    (request : NativeStageRequest) (disk : Disk B) (hwf : disk.WellFormed)
    (hport : Portable disk) :
    Honoured sys faults request disk ↔ Safe sys faults request disk := by
  unfold Safe
  cases hrt : pluginRootOf sys request disk with
  | error e =>
    refine ⟨fun _ => trivial, fun _ => honoured_of_refused (e := e) ?_⟩
    refine bind_error ?_
    exact look_error hrt
  | ok base =>
    obtain ⟨hc, hsf⟩ := pluginRootOf_ok hrt
    have hb := canonicalDir_isDir hwf hc
    have hn := rootNames_descends hsf
    have heq := @stage_eq _ _ _ faults _ _ _ hrt
    have hg : ∀ {outcome : Except NativeStageError NativeStageReport
        × Staging B}, (prepareDestination sys faults base request
          >>= fun _ => deliver sys faults request base) ⟨disk, []⟩
          = outcome → (Honoured sys faults request disk ↔
        Confined (base ++ rootNames request.root) outcome.2.touched
          ∧ ((∃ e, outcome.1 = .error e) →
            Intact base disk outcome.2.disk)) := by
      rintro outcome rfl
      unfold Honoured
      rw [heq]
      rw [hc]
    have hrf : ∀ e, prepareDestination sys faults base request
        ⟨disk, []⟩ = (.error e, ⟨disk, []⟩) →
        Honoured sys faults request disk := by
      intro e hp
      refine honoured_of_refused (e := e) ?_
      rw [heq, bind_error hp]
    have hrd : prepareDestination sys faults base request ⟨disk, []⟩
        = (.ok (), ⟨disk, []⟩) →
        (Honoured sys faults request disk ↔
          Confined (base ++ rootNames request.root)
              (deliver sys faults request base ⟨disk, []⟩).2.touched
            ∧ ((∃ e, (deliver sys faults request base ⟨disk, []⟩).1
                = .error e) → Intact base disk
                  (deliver sys faults request base ⟨disk, []⟩).2.disk)) :=
      fun hp => hg (bind_ok hp)
    dsimp only
    cases hl : locate sys disk base request.root with
    | io =>
      refine ⟨fun _ => trivial, fun _ => hrf .io ?_⟩
      unfold prepareDestination
      rw [hl]
    | other =>
      refine ⟨fun _ => trivial, fun _ => hrf (.symlinkRefused
        (base ++ rootNames request.root)) ?_⟩
      unfold prepareDestination
      rw [hl]
    | missing =>
      obtain ⟨hnl, hgn⟩ := locate_missing hwf hn hl
      refine (hrd ?_).trans (asFound_iff hwf hport hb hn
        (fun q hln => absurd hln (hnl q)) fun hpl => ?_)
      · unfold prepareDestination
        rw [hl]
      · refine ⟨leaf_eq_none_iff.2 (.inl (hgn hpl)), ?_⟩
        intro relative _
        by_contra hs
        exact hwf.exists_of_prefix (prefix_append _ _) hs (hgn hpl)
    | dir d =>
      cases ho : request.overwrite with
      | true =>
        dsimp only
        refine (hg ?_).trans (over_iff hwf hport hb hn hl)
        have hp : prepareDestination sys faults base request
            ⟨disk, []⟩ = removeDirAll faults d
              (endsInDot request.root.toList) ⟨disk, []⟩ := by
          unfold prepareDestination
          rw [hl]
          rw [ho]
          rfl
        exact bind_congr hp
      | false =>
        dsimp only
        rw [if_neg (by simp)]
        have hp := prepareDestination_kept faults hl ho
        split
        · next hr =>
          rw [hr] at hp
          have hem := readDir_empty hr
          have hfol := (locate_dir hwf hn hl).1
          refine (hrd hp).trans (asFound_iff hwf hport hb
            hn (fun q hln => ?_) fun hpl => ?_)
          · obtain ⟨left, hq⟩ := landing_follow hln
            obtain ⟨left', hd⟩ := hfol
            rw [hq] at hd
            cases hd
            exact hem
          · have hd := located_root hn hpl hfol
            have hdir := follow_isDir hwf hb hfol.choose_spec
            rw [← hd]
            refine ⟨leaf_eq_none_iff.2 (.inr hdir), ?_⟩
            intro relative hne
            cases relative with
            | nil => exact absurd rfl hne
            | cons first more =>
              by_contra hs
              have hup : d ++ [first] <+: d ++ first :: more :=
                ⟨more, by simp⟩
              exact hwf.exists_of_prefix hup hs (hem first)
        · next hr =>
          refine ⟨fun _ => trivial, fun _ => ?_⟩
          cases hls : readDir faults disk d with
          | none =>
            rw [hls] at hp
            exact hrf _ hp
          | some names =>
            rw [hls] at hp
            cases names with
            | nil => exact absurd hls hr
            | cons name rest => exact hrf _ hp

end

-- ==== examples

/-- Contents that are JSON, and small. -/
def jsonSystem : System Json := ⟨some, fun _ => 0, 40⟩

/-- A plugin that has a package staged, and a checkout of the package
under a name. -/
def plugin (name : String) : Disk Json where
  entries := [
    (["plugin"], .dir), (["plugin", "addon"], .dir),
    (["plugin", "addon", "old.node"], .file .null),
    (["checkout"], .dir),
    (["checkout", "package.json"], .file (.object [("name", .string name)])),
    (["checkout", "new.node"], .file .null)]

def restage : NativeStageRequest where
  package := "addon"
  source := ["checkout"]
  pluginDir := ["plugin"]
  root := "addon"
  overwrite := true

theorem plugin_wellFormed (n : String) : (plugin n).WellFormed :=
  wellFormed_of_entries rfl

theorem portable_of_entries {disk : Disk Json}
    (h : disk.entries.all (fun e =>
      e.1.all fun c => !c.toList.contains '\\') = true) : Portable disk := by
  intro p hp c hc
  obtain ⟨node, hm⟩ := mem_of_find (ne_nil_of_mem hc) hp
  rw [all_eq_true] at h
  have ht := all_eq_true.1 (h _ hm) c hc
  simpa using ht

theorem plugin_portable (n : String) : Portable (plugin n) :=
  portable_of_entries rfl

/-- Staging a checkout that turns out to be another package takes the
staged one away. -/
theorem other_package_takes_tree :
    ¬ Honoured jsonSystem .none restage (plugin "other") := by
  intro h
  have hc : canonicalDir jsonSystem (plugin "other") []
      restage.pluginDir = some ["plugin"] := by decide +kernel
  have herr : (stageNativePackage jsonSystem .none restage
      ⟨plugin "other", []⟩).1
      = .error (.packageNameMismatch "addon" "other") := by decide +kernel
  unfold Honoured at h
  have hl := h.2 ⟨_, herr⟩ ["plugin", "addon", "old.node"]
    ⟨["addon", "old.node"], rfl⟩
  exact absurd hl (by decide +kernel)

/-- The right package replaces the staged one. -/
theorem staging_honoured_restage :
    Honoured jsonSystem .none restage (plugin "addon") := by
  refine (staging_honoured _ _ _ _ (plugin_wellFormed "addon")
    (plugin_portable "addon")).2 ?_
  have hr : pluginRootOf jsonSystem restage (plugin "addon")
      = .ok ["plugin"] := by decide +kernel
  have hl : locate jsonSystem (plugin "addon") ["plugin"] restage.root
      = .dir ["plugin", "addon"] := by decide +kernel
  unfold Safe
  rw [hr]
  dsimp only
  refine .inr ⟨fun q hq => ?_, .inl ?_⟩
  · have hall : (rootNames restage.root).inits.all (fun q =>
        !(plugin "addon").isLink (["plugin"] ++ q)) = true := by
      decide +kernel
    have ht := all_eq_true.1 hall q ((mem_inits q _).2 hq)
    simpa using ht
  · decide +kernel

end TikTools.Sdk
