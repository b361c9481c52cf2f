/-
The files of a package that are staged.

A package's `files` list admits a path it names, what lies in a directory
it names and, by a pattern `*.suffix`, top-level files. These are
documented to end with `.suffix`, but the match leaves the dot out
(`strays`): `*.js` admits `extra.mjs`.
-/
import TikTools.Sdk.Confinement

namespace TikTools.Sdk

open TikTools.Lib
open TikTools.Lib.Disk
open TikTools.Plugins (PathText stripDot)
open List Except

-- ==== what is documented

/-- The patterns of a list of `files` that is not empty. -/
def declaredPatterns (manifest : Json) : Option (List PathText) :=
  match manifest.get "files" with
  | some (.array (entry :: entries)) =>
    some (((entry :: entries).filterMap Json.asStr).map String.toList)
  | _ => none

/-- The suffix of a pattern `*.suffix`. -/
def suffixOf : PathText → Option PathText
  | '*' :: '.' :: suffix => some suffix
  | _ => none

/-- A pattern admits the path it is, a suffix top-level files, and any
other what lies in the directory it names. -/
def admits (relative pattern : PathText) : Bool :=
  let pattern := stripDot pattern
  relative = pattern
    || match suffixOf pattern with
      | some suffix =>
        !relative.contains '/' && ('.' :: suffix).isSuffixOf relative
      | none =>
        let dir := if pattern.getLast? = some '/' then pattern.dropLast
          else pattern
        !dir.isEmpty && (relative = dir || (dir ++ ['/']).isPrefixOf relative)

/-- The file of the manifest counts as a pattern. -/
def documented (manifest : Json) (relative : PathText) : Bool :=
  match declaredPatterns manifest with
  | none => true
  | some patterns =>
    ("package.json".toList :: patterns).any (admits relative)

/-- A name that ends with what follows `*.` in a pattern. -/
def strays (relative pattern : PathText) : Bool :=
  (suffixOf (stripDot pattern)).any fun suffix =>
    !relative.contains '/' && suffix.isSuffixOf relative
      && decide (relative.length > suffix.length)

theorem allowlistMatches_singleton (r p : PathText) :
    allowlistMatches [p] r = (admits r p || strays r p) := by
  unfold allowlistMatches admits strays
  rw [any_cons, any_nil, Bool.or_false]
  dsimp only
  generalize stripDot p = p
  by_cases heq : p = r
  · rw [if_pos heq, decide_eq_true heq.symm]
    rfl
  rw [if_neg heq, decide_eq_false (Ne.symm heq), Bool.false_or]
  split
  · next s =>
    rw [suffixOf, Option.any_some, Bool.eq_iff_iff]
    simp only [Bool.and_eq_true, Bool.or_eq_true, isSuffixOf_iff_suffix,
      decide_eq_true_eq]
    refine ⟨.inr, ?_⟩
    rintro (⟨hs, re, rfl⟩ | h)
    · refine ⟨⟨hs, re ++ ['.'], by simp⟩, ?_⟩
      simp only [length_append, length_cons]
      omega
    · exact h
  · next hno =>
    have hn : suffixOf p = none := by
      unfold suffixOf
      split
      · next s => exact absurd rfl (hno s)
      · rfl
    rw [hn, Option.any_none, Bool.or_false]

theorem isWanted_eq (m : Json) (r : PathText) :
    isWanted (filesAllowlist m) r
      = (documented m r
        || ((declaredPatterns m).getD []).any (strays r)) := by
  have hall (p : List PathText) :
      allowlistMatches p r = (p.any (admits r)
        || p.any (strays r)) := by
    induction p with
    | nil => rfl
    | cons pa rest ih =>
      have hc : allowlistMatches (pa :: rest) r
          = (allowlistMatches [pa] r
            || allowlistMatches rest r) := by
        unfold allowlistMatches
        rw [any_cons, any_cons, any_nil, Bool.or_false]
      rw [hc, allowlistMatches_singleton, ih, any_cons, any_cons]
      ac_rfl
  unfold filesAllowlist documented declaredPatterns
  cases m.get "files" with
  | none => rfl
  | some fi =>
    cases fi with
    | array e =>
      cases e with
      | nil => rfl
      | cons entry e =>
        have hany (f : PathText → Bool) (p : List String) :
            ((if p.contains "package.json" then p
              else p ++ ["package.json"]).map String.toList).any f
            = (f "package.json".toList
              || (p.map String.toList).any f) := by
          split
          · next h =>
            cases hf : f "package.json".toList with
            | true =>
              rw [Bool.true_or, any_eq_true]
              exact ⟨_, mem_map_of_mem (contains_iff_mem.1 h), hf⟩
            | false => rw [Bool.false_or]
          · rw [map_append, any_append, Bool.or_comm, map_singleton, any_cons,
              any_nil, Bool.or_false]
        have hnot : strays r "package.json".toList = false := rfl
        refine (hall _).trans ?_
        rw [hany, hany, hnot, Bool.false_or]
        rfl
    | _ => rfl

-- ==== the staging

section

variable {B : Type} [DecidableEq B]

/-- The disk the package is read from: the old tree of the destination is
gone. -/
def walkedDisk (sys : System B) (faults : Faults B)
    (request : NativeStageRequest) (disk : Disk B) : Disk B :=
  match pluginRootOf sys request disk with
  | .ok base => (prepareDestination sys faults base request ⟨disk, []⟩).2.disk
  | .error _ => disk

/-- A staging that succeeds reports what it copied: the files of the
package, in order and each once, with every entrypoint. They are the
documented ones exactly when no top-level file is taken for a suffix that
its name does not end with. -/
theorem staged_documented_iff (sys : System B) (faults : Faults B)
    (r : NativeStageRequest) (disk : Disk B)
    (report : NativeStageReport) (s : Staging B)
    (h : stageNativePackage sys faults r ⟨disk, []⟩ = (.ok report, s))
    (hwf : (walkedDisk sys faults r disk).WellFormed)
    (hpr : Portable (walkedDisk sys faults r disk)) :
    ∃ m top files,
      report.files = files.map (fun file : StagedFile B =>
        r.root ++ "/" ++ String.ofList file.relative)
      ∧ (∃ d start done,
        copyAll sys d files faults.copy start = (.ok (), done))
      ∧ Package sys faults r (walkedDisk sys faults r disk) m top files
      ∧ ((∀ re, (∃ file ∈ files, file.relative = re)
          ↔ documented m re = true
            ∧ Packed (walkedDisk sys faults r disk) top re)
        ↔ ∀ name c, (walkedDisk sys faults r disk).find
            (top ++ [name]) = some (.file c) →
          ((declaredPatterns m).getD []).any (strays name.toList) →
          documented m name.toList = true) := by
  obtain ⟨base, _, hrt, hrs⟩ := Effect.bind_eq_ok.1 h
  obtain ⟨hb, rfl⟩ := Prod.mk.inj hrt
  obtain ⟨⟨⟩, s₁, hpp, hrs⟩ := Effect.bind_eq_ok.1 hrs
  obtain ⟨files, _, hlk, hrs⟩ := Effect.bind_eq_ok.1 hrs
  obtain ⟨hfl, rfl⟩ := Prod.mk.inj hlk
  obtain ⟨d, _, -, hrs⟩ := Effect.bind_eq_ok.1 hrs
  obtain ⟨⟨⟩, _, hc, hl⟩ := Effect.bind_eq_ok.1 hrs
  have hfn := (Prod.mk.inj hl).1
  have hd : walkedDisk sys faults r disk = s₁.disk := by
    unfold walkedDisk
    rw [show pluginRootOf sys r disk = .ok base from hb]
    dsimp only
    rw [hpp]
  rw [hd] at hwf hpr ⊢
  obtain ⟨m, top, hpc⟩ := checkPackage_ok hwf hpr hfl
  refine ⟨m, top, files, ?_, ⟨_, _, _, hc⟩, hpc, ?_⟩
  · unfold finish at hfn
    dsimp only at hfn
    split at hfn
    · cases hfn
    · split at hfn <;> cases hfn
      rfl
  have htop := follow_isDir hwf rfl hpc.source.choose_spec
  constructor
  · intro hall name c hf hst
    refine ((hall name.toList).1 ((hpc.mem name.toList).2 ⟨?_, ?_⟩)).1
    · rw [isWanted_eq, hst, Bool.or_true]
    · exact ⟨[], [], name, c, .top, by rwa [append_nil], rfl⟩
  · intro hno re
    rw [hpc.mem, isWanted_eq, Bool.or_eq_true]
    refine and_congr_left fun hp => or_iff_left_of_imp fun hst => ?_
    obtain ⟨dir, path, name, c, hr, hf, rfl⟩ := hp
    have hk := hr.known hwf hpr htop
    have hsl : '/' ∉ relativeTo dir name := by
      obtain ⟨pattern, -, hs⟩ := any_eq_true.1 hst
      obtain ⟨suffix, -, hs⟩ := (Option.any_eq_true _ _).1 hs
      simp only [Bool.and_eq_true] at hs
      simpa using hs.1.1
    rw [relativeTo_eq _ _ hk.leads.2] at hsl hst ⊢
    split at hsl
    · next hdir =>
      subst hdir
      rw [if_pos rfl] at hst ⊢
      refine hno name c ?_ hst
      rwa [← hk.steps_eq, show steps [] = [] from rfl, append_nil] at hf
    · exact absurd (by simp) hsl

end

/-- A package whose list names scripts and binaries by their suffixes. -/
def addonManifest : Json := .object [("name", .string "addon"),
  ("files", .array [.string "*.js", .string "*.node"])]

def checkout : Disk Json where
  entries := [
    (["plugin"], .dir), (["checkout"], .dir),
    (["checkout", "package.json"], .file addonManifest),
    (["checkout", "extra.mjs"], .file .null),
    (["checkout", "new.node"], .file .null)]

/-- The staging takes a file that no pattern admits. -/
theorem module_staged_as_script :
    (stageNativePackage jsonSystem .none restage ⟨checkout, []⟩).1
        = .ok ⟨"addon", ["addon/extra.mjs", "addon/new.node",
          "addon/package.json"], ["addon/new.node"]⟩
      ∧ documented addonManifest "extra.mjs".toList = false := by
  decide +kernel

theorem staged_documented_checkout :
    ∃ m top files, Package jsonSystem .none restage
      (walkedDisk jsonSystem .none restage checkout) m top files := by
  have hw : walkedDisk jsonSystem .none restage checkout = checkout :=
    congrArg Disk.mk (by decide +kernel : _ = checkout.entries)
  have hok : (stageNativePackage jsonSystem .none restage
      ⟨checkout, []⟩).1.isOk = true := by decide +kernel
  cases hrun : stageNativePackage jsonSystem .none restage ⟨checkout, []⟩ with
  | mk result s =>
    rw [hrun] at hok
    cases result with
    | error => cases hok
    | ok report =>
      obtain ⟨m, top, files, -, -, hpack, -⟩ := staged_documented_iff
        jsonSystem .none restage checkout report s hrun
        (hw ▸ wellFormed_of_entries rfl) (hw ▸ portable_of_entries rfl)
      exact ⟨m, top, files, hpack⟩

end TikTools.Sdk
