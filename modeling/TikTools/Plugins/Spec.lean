/-
Package specs: what a user names a package by, and its text.

A text is a file or a URL before it is a registry package: by its
prefix, by a slash or by the ending of an archive. A registry package
is printed as `registry:id@range` and nothing is escaped, so a spec
comes back from its text only where no part looks like something else:
`Portable` says when.

Versions, ranges and URLs are read by libraries outside the repository.
-/
import TikTools.Lib.Checked
import TikTools.Lib.Text
import TikTools.Index.Model
import Mathlib

namespace TikTools.Plugins

open TikTools.Lib
open TikTools.Index (Semver VersionReq)
open List

-- ==== specs

inductive PackageSpec where
  | registry (registry : Option String) (id : String)
      (requirement : Option VersionReq)
  | url (url : String)
  | file (path : String)
  deriving DecidableEq

inductive PackageSpecInput where
  | file (path : String)
  | url (url : String)
  | registry (id : String) (version registry : Option String)
  | spec (spec : String)

/-- An install error of code `Unsupported`. -/
structure SpecError where
  message : String
  deriving DecidableEq

/-- The libraries specs are read and printed with. -/
structure SpecLibs extends Semver where
  reqText : VersionReq → String
  reqError : String → String
  isAllowedUrl : String → Bool

def trimmed (text : String) : String := String.ofList (trim text.toList)

/-- `str::split_once`. -/
def splitOnce (sep : Char) (l : List Char) :
    Option (List Char × List Char) :=
  if sep ∈ l then
    some (l.takeWhile (· ≠ sep), (l.dropWhile (· ≠ sep)).tail)
  else none

/-- The ending of a plugin archive, in any case. -/
def endsInPlugin (value : List Char) : Bool :=
  ".plugin".toList.isSuffixOf (value.map Char.toLower)

/-- The characters of a printed range. -/
def rangeChar (c : Char) : Bool :=
  c.isAlphanum
    || c ∈ ['+', '-', '.', '*', '<', '>', '=', '~', '^', ',', ' ']

namespace SpecLibs

variable (libs : SpecLibs)

def fileSpec (path : String) : Except SpecError PackageSpec := do
  let path := trimmed path
  ensure (path ≠ "" ∧ path.utf8ByteSize ≤ 32767)
    ⟨"plugin archive path must be 1..=32767 characters"⟩
  return .file path

def urlSpec (url : String) : Except SpecError PackageSpec := do
  ensure (libs.isAllowedUrl url)
    ⟨"only https URLs are allowed (http is accepted for localhost): " ++ url⟩
  return .url url

def parseRequirement (version : String) : Except SpecError VersionReq :=
  match libs.parseVersion version with
  | some exact =>
    let range := "=" ++ libs.text exact
    okOr (libs.parseReq range) ⟨libs.reqError range⟩
  | none =>
    okOr (libs.parseReq version)
      ⟨"`" ++ version ++ "` is not a valid version range"⟩

def registrySpec (registry : Option String) (id : String)
    (version : Option String) : Except SpecError PackageSpec := do
  ensure (Index.isValidPluginId id) ⟨"`" ++ id ++ "` is not a valid plugin id"⟩
  ensure (∀ name ∈ registry, name ≠ "" ∧ name.utf8ByteSize ≤ 32)
    ⟨"registry names must be 1..=32 characters"⟩
  let requirement ←
    (match (version.map trimmed).filter fun v => v ≠ "" ∧ v ≠ "latest" with
    | none => .ok none
    | some version => (libs.parseRequirement version).map some)
  return .registry registry id requirement

def fromStr (value : String) : Except SpecError PackageSpec :=
  let value := trim value.toList
  if value = [] ∨ 4096 < (String.ofList value).utf8ByteSize then
    .error ⟨"package specs must be 1..=4096 characters"⟩
  else match "file:".toList.isPrefixOf? value with
  | some path => fileSpec (String.ofList path)
  | none =>
    if "https://".toList.isPrefixOf value
        ∨ "http://".toList.isPrefixOf value then
      libs.urlSpec (String.ofList value)
    else if endsInPlugin value ∨ '/' ∈ value ∨ '\\' ∈ value then
      fileSpec (String.ofList value)
    else
      let (registry, rest) := match splitOnce ':' value with
        | some (registry, rest) => (some (String.ofList registry), rest)
        | none => (none, value)
      let (id, version) := match splitOnce '@' rest with
        | some (id, version) => (id, some (String.ofList version))
        | none => (rest, none)
      libs.registrySpec registry (String.ofList id) version

def tryFrom : PackageSpecInput → Except SpecError PackageSpec
  | .file path => fileSpec path
  | .url url => libs.urlSpec url
  | .registry id version registry => libs.registrySpec registry id version
  | .spec spec => libs.fromStr spec

def display : PackageSpec → String
  | .registry registry id requirement =>
    registry.elim "" (· ++ ":") ++ id
      ++ requirement.elim "" fun r => "@" ++ libs.reqText r
  | .url url => url
  | .file path => path

-- ==== the range library

/-- What is relied on of the version library: a range prints to a text
that parses as that range again and is no version. It begins with an
operator, a digit or a wildcard and ends with no blank. -/
structure Prints : Prop where
  reparse : ∀ {s r}, libs.parseReq s = some r →
    libs.parseReq (libs.reqText r) = some r
  notVersion : ∀ {s r}, libs.parseReq s = some r →
    libs.parse (libs.reqText r) = none
  head : ∀ {s r}, libs.parseReq s = some r →
    ∃ c rest, (libs.reqText r).toList = c :: rest
      ∧ (c.isDigit ∨ c ∈ ['*', '<', '>', '=', '~', '^'])
  chars : ∀ {s r}, libs.parseReq s = some r →
    ∀ c ∈ (libs.reqText r).toList, rangeChar c
  last : ∀ {s r}, libs.parseReq s = some r →
    (libs.reqText r).toList.getLast? ≠ some ' '

/-- A registry spec whose text is read as that spec: the registry's name
is not `file`, begins with no white space and has neither a colon nor a
slash, the text does not end like an archive and is not too long. -/
def Portable : PackageSpec → Prop
  | .registry registry id requirement =>
    (∀ name ∈ registry, name ≠ "file" ∧ ':' ∉ name.toList
      ∧ '/' ∉ name.toList ∧ '\\' ∉ name.toList
      ∧ ∀ c ∈ name.toList.head?, Lib.isWhitespace c = false)
    ∧ endsInPlugin (requirement.elim id libs.reqText).toList = false
    ∧ registry.elim 0 (fun name => name.utf8ByteSize + 1)
        + id.utf8ByteSize
        + requirement.elim 0 (fun r => (libs.reqText r).utf8ByteSize + 1)
      ≤ 4096
  | _ => False

end SpecLibs

-- ==== texts

variable {sep : Char} {a b l : List Char}

theorem splitOnce_append (h : sep ∉ a) :
    splitOnce sep (a ++ sep :: b) = some (a, b) := by
  have hk : ∀ c ∈ a, decide (c ≠ sep) = true := fun c hc =>
    decide_eq_true fun heq => h (heq ▸ hc)
  unfold splitOnce
  rw [if_pos (by simp), takeWhile_append_of_pos hk,
    dropWhile_append_of_pos hk]
  simp

theorem splitOnce_eq_some (h : splitOnce sep l = some (a, b)) :
    l = a ++ sep :: b ∧ sep ∉ a := by
  by_cases hmem : sep ∈ l
  · obtain ⟨front, back, rfl, hf⟩ := eq_append_cons_of_mem hmem
    rw [splitOnce_append hf] at h
    cases h
    exact ⟨rfl, hf⟩
  · rw [splitOnce, if_neg hmem] at h
    cases h

theorem head_trim : ∀ c ∈ (trim l).head?, Lib.isWhitespace c = false := by
  intro c hc
  obtain ⟨rest, hr⟩ : trim l <+: l.dropWhile Lib.isWhitespace := by
    have hsuf := dropWhile_suffix (l :=
      (l.dropWhile Lib.isWhitespace).reverse) Lib.isWhitespace
    simpa [trim] using reverse_prefix.2 hsuf
  have hh := head?_dropWhile_not Lib.isWhitespace l
  rwa [← hr, head?_append, Option.mem_def.1 hc] at hh

theorem endsInPlugin_append (hs : sep ∈ [':', '@']) :
    endsInPlugin (a ++ sep :: b) = endsInPlugin b := by
  have hl : sep.toLower = sep ∧ sep ∉ ".plugin".toList := by
    rcases mem_cons.1 hs with rfl | hs
    · decide
    · rw [mem_singleton] at hs
      subst hs
      decide
  unfold endsInPlugin
  rw [Bool.eq_iff_iff, isSuffixOf_iff_suffix,
    isSuffixOf_iff_suffix, map_append, map_cons, hl.1]
  constructor
  · intro h
    rcases suffix_or_suffix_of_suffix h (suffix_append _ _)
      with h | h
    · rcases suffix_cons_iff.1 h with h | h
      · exact absurd (h ▸ mem_cons_self) hl.2
      · exact h
    · exact absurd (h.subset mem_cons_self) hl.2
  · intro h
    exact (h.trans (suffix_cons _ _)).trans (suffix_append _ _)

/-- A text without white space around it that nothing takes for a path
or for the name of a registry. -/
structure Behind (l : List Char) : Prop where
  ne : l ≠ []
  head : ∀ c ∈ l.head?, Lib.isWhitespace c = false
  last : ∀ c ∈ l.getLast?, Lib.isWhitespace c = false
  chars : ∀ c ∈ l, c ∉ [':', '/', '\\']

theorem Behind.append (ha : Behind a) (hb : Behind b) :
    Behind (a ++ '@' :: b) where
  ne := by simp
  head c hc := ha.head c (by
    rwa [head?_append_of_ne_nil _ ha.ne] at hc)
  last c hc := hb.last c (by
    obtain ⟨d, more, rfl⟩ := exists_cons_of_ne_nil hb.ne
    simpa [getLast?_append, getLast?_cons] using hc)
  chars c hc := by
    rcases mem_append.1 hc with hc | hc
    · exact ha.chars c hc
    rcases mem_cons.1 hc with rfl | hc
    · decide
    · exact hb.chars c hc

theorem isWhitespace_eq_false {c : Char}
    (h : c.toNat < 128 ∧ 32 < c.toNat) : Lib.isWhitespace c = false := by
  simp only [Lib.isWhitespace, Bool.or_eq_false_iff, Bool.and_eq_false_iff,
    decide_eq_false_iff_not, beq_eq_false_iff_ne]
  omega

theorem trim_behind {f : List Char} (h : Behind l)
    (hfr : ∀ c ∈ f.head?, Lib.isWhitespace c = false) :
    trim (f ++ l) = f ++ l := by
  have hne : f ++ l ≠ [] := by simp [h.ne]
  have hf : Lib.isWhitespace ((f ++ l).head hne) = false := by
    cases f with
    | nil => exact h.head _ (head?_eq_some_head h.ne)
    | cons d f => exact hfr d rfl
  have hl : Lib.isWhitespace ((f ++ l).getLast hne) = false := by
    refine h.last _ ?_
    rw [Option.mem_def, getLast?_eq_some_getLast h.ne,
      getLast_append_of_ne_nil]
  simpa using @trim_append [] _ [] nofun nofun hne hf hl

theorem Behind.trim (h : Behind l) : trim l = l := @trim_behind l [] h nofun

-- ==== ids and ranges

variable {libs : SpecLibs} {registry : Option String} {id : String}
variable {requirement : Option VersionReq} {r : VersionReq}

theorem id_chars (hid : Index.isValidPluginId id = true) :
    ∀ c ∈ id.toList,
      Lib.isWhitespace c = false ∧ c ∉ [':', '@', '/', '\\'] := by
  unfold Index.isValidPluginId at hid
  simp only [decide_eq_true_eq] at hid
  intro c hc
  cases hl : id.toList with
  | nil => simp [hl] at hc
  | cons first rest =>
    rw [hl] at hid hc
    have hp : c.isLower ∨ c.isDigit ∨ c ∈ ['.', '_', '-'] := by
      rcases mem_cons.1 hc with rfl | hc
      · exact .inl (by simpa using hid.2.2.1)
      · have := all_eq_true.1 hid.2.2.2 c hc
        simpa [or_assoc] using this
    have hcd : c.toNat < 128 ∧ 32 < c.toNat ∧ c.toNat ≠ 58
        ∧ c.toNat ≠ 64 ∧ c.toNat ≠ 47 ∧ c.toNat ≠ 92 := by
      rcases hp with h | h | h
      · simp only [Char.isLower, Bool.and_eq_true, decide_eq_true_eq,
          ge_iff_le, UInt32.le_iff_toNat_le] at h
        change 97 ≤ c.toNat ∧ c.toNat ≤ 122 at h
        omega
      · simp only [Char.isDigit, Bool.and_eq_true, decide_eq_true_eq,
          ge_iff_le, UInt32.le_iff_toNat_le] at h
        change 48 ≤ c.toNat ∧ c.toNat ≤ 57 at h
        omega
      · simp only [mem_cons, not_mem_nil, or_false] at h
        rcases h with rfl | rfl | rfl <;> decide
    refine ⟨isWhitespace_eq_false ⟨hcd.1, hcd.2.1⟩, fun hm => ?_⟩
    simp only [mem_cons, not_mem_nil, or_false] at hm
    rcases hm with rfl | rfl | rfl | rfl <;> simp_all

theorem range_chars {c : Char} (h : rangeChar c = true) :
    (c ≠ ' ' → Lib.isWhitespace c = false) ∧ c ∉ [':', '/', '\\'] := by
  unfold rangeChar at h
  rw [Bool.or_eq_true, decide_eq_true_eq] at h
  have hc : c = ' ' ∨ (c.toNat < 128 ∧ 32 < c.toNat ∧ c.toNat ≠ 58
      ∧ c.toNat ≠ 47 ∧ c.toNat ≠ 92) := by
    rcases h with h | h
    · simp only [Char.isAlphanum, Char.isAlpha, Char.isUpper, Char.isLower,
        Char.isDigit, Bool.or_eq_true, Bool.and_eq_true, decide_eq_true_eq,
        ge_iff_le, UInt32.le_iff_toNat_le] at h
      change ((65 ≤ c.toNat ∧ c.toNat ≤ 90) ∨ (97 ≤ c.toNat ∧ c.toNat ≤ 122))
        ∨ (48 ≤ c.toNat ∧ c.toNat ≤ 57) at h
      omega
    · simp only [mem_cons, not_mem_nil, or_false] at h
      rcases h with rfl | rfl | rfl | rfl | rfl | rfl | rfl | rfl | rfl | rfl
        | rfl <;> decide
  rcases hc with rfl | hc
  · decide
  · refine ⟨fun _ => isWhitespace_eq_false ⟨hc.1, hc.2.1⟩,
      fun hm => ?_⟩
    simp only [mem_cons, not_mem_nil, or_false] at hm
    rcases hm with rfl | rfl | rfl <;> simp_all

namespace SpecLibs

/-- What a spec made from an input is known to be. -/
structure Admitted (libs : SpecLibs) (registry : Option String)
    (id : String) (requirement : Option VersionReq) : Prop where
  id : Index.isValidPluginId id = true
  name : ∀ name ∈ registry, name ≠ "" ∧ name.utf8ByteSize ≤ 32
  range : ∀ r ∈ requirement, ∃ s, libs.parseReq s = some r

theorem parseRequirement_ok {v : String}
    (h : libs.parseRequirement v = .ok r) :
    ∃ s, libs.parseReq s = some r := by
  unfold parseRequirement at h
  split at h <;> exact ⟨_, okOr_eq_ok.1 h⟩

theorem registrySpec_ok {v : Option String} {s : PackageSpec}
    (h : libs.registrySpec registry id v = .ok s) :
    ∃ requirement, s = .registry registry id requirement
      ∧ libs.Admitted registry id requirement := by
  obtain ⟨hid, h⟩ := ensure_ok.1 h
  obtain ⟨hn, h⟩ := ensure_ok.1 h
  obtain ⟨requirement, hr, h⟩ := bind_eq_ok.1 h
  cases h
  refine ⟨requirement, rfl, hid, hn, ?_⟩
  split at hr
  · cases hr
    nofun
  · next v _ =>
    cases hp : libs.parseRequirement v with
    | error e => simp [hp, Except.map] at hr
    | ok r =>
      rw [hp] at hr
      cases hr
      rintro _ ⟨⟩
      exact parseRequirement_ok hp

/-- The part of a registry spec's text behind the registry's name. -/
def rest (libs : SpecLibs) (id : String)
    (requirement : Option VersionReq) : List Char :=
  id.toList
    ++ (requirement.map fun r => '@' :: (libs.reqText r).toList).getD []

theorem display_toList :
    (libs.display (.registry registry id requirement)).toList
    = (registry.map fun n => n.toList ++ [':']).getD []
      ++ libs.rest id requirement := by
  unfold display rest
  cases registry <;> cases requirement <;> simp

theorem behind_id (hid : Index.isValidPluginId id = true) :
    Behind id.toList where
  ne hnil := by simp [Index.isValidPluginId, hnil] at hid
  head c hc := (id_chars hid c (mem_of_mem_head? hc)).1
  last c hc := (id_chars hid c (mem_of_mem_getLast? hc)).1
  chars c hc := by
    have := (id_chars hid c hc).2
    simp_all

theorem behind_range (hl : libs.Prints)
    (h : ∃ s, libs.parseReq s = some r) : Behind (libs.reqText r).toList := by
  obtain ⟨s, hs⟩ := h
  obtain ⟨c, rest, ht, hc⟩ := hl.head hs
  have hch := hl.chars hs
  refine ⟨by simp [ht], fun d hd => ?_, fun d hd => ?_, fun d hd =>
    (range_chars (hch d hd)).2⟩
  · refine (range_chars (hch d (mem_of_mem_head? hd))).1 ?_
    rintro rfl
    rw [ht, head?_cons, Option.mem_some] at hd
    subst hd
    rcases hc with hc | hc <;> exact absurd hc (by decide)
  · refine (range_chars (hch d (mem_of_mem_getLast? hd))).1 ?_
    rintro rfl
    exact hl.last hs hd

theorem behind_rest (hl : libs.Prints)
    (h : libs.Admitted registry id requirement) :
    Behind (libs.rest id requirement) := by
  cases requirement with
  | none => simpa [rest] using behind_id h.id
  | some r =>
    exact (behind_id h.id).append (behind_range hl (h.range r rfl))

theorem parseRequirement_reqText (hl : libs.Prints)
    (h : ∃ s, libs.parseReq s = some r) :
    libs.parseRequirement (libs.reqText r) = .ok r := by
  have htr := (behind_range hl h).trim
  obtain ⟨s, hs⟩ := h
  obtain ⟨c, rest, ht, hc⟩ := hl.head hs
  have hv : c ≠ 'v' := by
    rintro rfl
    rcases hc with hc | hc <;> exact absurd hc (by decide)
  have hn : libs.parseVersion (libs.reqText r) = none := by
    unfold Semver.parseVersion
    rw [htr, ht, dropWhile_cons_of_neg (by simpa using hv),
      ← ht, String.ofList_toList]
    exact hl.notVersion hs
  rw [parseRequirement, hn]
  rw [hl.reparse hs]
  rfl

theorem registrySpec_reqText (hl : libs.Prints)
    (h : libs.Admitted registry id requirement) :
    libs.registrySpec registry id (requirement.map libs.reqText)
      = .ok (.registry registry id requirement) := by
  unfold registrySpec
  rw [ensure_true h.id, ok_bind, ensure_true h.name, ok_bind]
  cases requirement with
  | none => rfl
  | some r =>
    have hr := h.range r rfl
    obtain ⟨s, hs⟩ := hr
    obtain ⟨c, rest, ht, hc⟩ := hl.head hs
    have htr : trimmed (libs.reqText r) = libs.reqText r := by
      rw [trimmed, (behind_range hl ⟨s, hs⟩).trim, String.ofList_toList]
    have hp : libs.reqText r ≠ "" ∧ libs.reqText r ≠ "latest" := by
      constructor
      · intro heq
        simp [heq] at ht
      · intro heq
        rw [heq] at ht
        cases ht
        rcases hc with hc | hc <;> exact absurd hc (by decide)
    rw [Option.map_some, Option.map_some, htr, Option.filter_some,
      if_pos (by simpa using hp)]
    dsimp only
    rw [parseRequirement_reqText hl ⟨s, hs⟩]
    rfl

-- ==== reading a text back

theorem fromStr_registry {value : String} {text behind : List Char}
    {version : Option String} (ht : trim value.toList = text)
    (hsz : (String.ofList text).utf8ByteSize ≤ 4096)
    (hf : ¬ "file:".toList <+: text)
    (hpl : endsInPlugin text = false)
    (hs : '/' ∉ text) (hbc : '\\' ∉ text)
    (hc : splitOnce ':' text = registry.map fun name => (name.toList, behind))
    (hb : registry = none → behind = text)
    (hat : splitOnce '@' behind = version.map fun v => (id.toList, v.toList))
    (hid : version = none → behind = id.toList) (hne : behind ≠ []) :
    libs.fromStr value = libs.registrySpec registry id version := by
  have hp : "file:".toList.isPrefixOf? text = none := by
    rw [Option.eq_none_iff_forall_ne_some]
    intro path hpt
    exact hf ⟨path, isPrefixOf?_eq_some_iff_append_eq.1 hpt⟩
  have hurl : ∀ head ∈ ["https://".toList, "http://".toList],
      ¬ head.isPrefixOf text = true := by
    intro head hh hpre
    rw [ isPrefixOf_iff_prefix] at hpre
    refine hs (hpre.subset ?_)
    simp only [mem_cons, not_mem_nil, or_false] at hh
    rcases hh with rfl | rfl <;> decide
  have hfl : text ≠ [] := by
    rintro rfl
    cases registry with
    | none => exact hne (hb rfl)
    | some name => cases hc
  unfold fromStr
  rw [ht, if_neg (not_or.2 ⟨hfl, Nat.not_lt.2 hsz⟩), hp]
  rw [if_neg (not_or.2 ⟨hurl _ mem_cons_self,
      hurl _ (mem_cons_of_mem _ mem_cons_self)⟩),
    if_neg (not_or.2 ⟨hpl ▸ Bool.false_ne_true, not_or.2 ⟨hs, hbc⟩⟩), hc]
  cases registry with
  | none =>
    dsimp only [Option.map_none]
    rw [← hb rfl, hat]
    cases version with
    | none => simp [hid rfl]
    | some version => simp
  | some name =>
    dsimp only [Option.map_some]
    rw [hat]
    cases version with
    | none => simp [hid rfl]
    | some version => simp

theorem fileSpec_ne {p : String} :
    fileSpec p ≠ .ok (.registry registry id requirement) := by
  intro h
  obtain ⟨-, h⟩ := ensure_ok.1 h
  cases h

theorem fromStr_eq_registry {v : String}
    (h : libs.fromStr v = .ok (.registry registry id requirement)) :
    (String.ofList (trim v.toList)).utf8ByteSize ≤ 4096
      ∧ ¬ "file:".toList <+: trim v.toList
      ∧ endsInPlugin (trim v.toList) = false
      ∧ '/' ∉ trim v.toList ∧ '\\' ∉ trim v.toList
      ∧ registry = (splitOnce ':' (trim v.toList)).map
        fun p => String.ofList p.1 := by
  unfold fromStr at h
  dsimp only at h
  split at h
  case isTrue => cases h
  case isFalse hs =>
    split at h
    case h_1 => exact absurd h fileSpec_ne
    case h_2 hpr =>
      split at h
      case isTrue =>
        obtain ⟨-, h⟩ := ensure_ok.1 h
        cases h
      case isFalse =>
        split at h
        case isTrue => exact absurd h fileSpec_ne
        case isFalse hp =>
          simp only [not_or, Bool.not_eq_true] at hp
          refine ⟨Nat.not_lt.1 (not_or.1 hs).2, ?_, hp.1, hp.2.1, hp.2.2, ?_⟩
          · rintro ⟨path, hp⟩
            rw [isPrefixOf?_eq_some_iff_append_eq.2 hp] at hpr
            cases hpr
          · cases hc : splitOnce ':' (trim v.toList) <;>
            · rw [hc] at h
              obtain ⟨_, heq, -⟩ := registrySpec_ok h
              cases heq
              rfl

theorem splitOnce_rest (hid : Index.isValidPluginId id = true) :
    splitOnce '@' (libs.rest id requirement)
      = requirement.map fun r => (id.toList, (libs.reqText r).toList) := by
  have hat : '@' ∉ id.toList := fun h => (id_chars hid '@' h).2 (by decide)
  cases requirement with
  | none => simp [rest, splitOnce, hat]
  | some r => exact splitOnce_append hat

theorem endsInPlugin_display :
    endsInPlugin (libs.display (.registry registry id requirement)).toList
      = endsInPlugin (requirement.elim id libs.reqText).toList := by
  have hr : endsInPlugin (libs.rest id requirement)
      = endsInPlugin (requirement.elim id libs.reqText).toList := by
    cases requirement with
    | none => simp [rest]
    | some r => exact endsInPlugin_append (by decide)
  rw [display_toList, ← hr]
  cases registry with
  | none => rfl
  | some name =>
    rw [Option.map_some, Option.getD_some, append_assoc]
    exact endsInPlugin_append (by decide)

theorem size_display :
    (libs.display (.registry registry id requirement)).utf8ByteSize
      = registry.elim 0 (fun n => n.utf8ByteSize + 1)
        + id.utf8ByteSize
        + requirement.elim 0 (fun r => (libs.reqText r).utf8ByteSize + 1)
      := by
  have hc : ":".utf8ByteSize = 1 := by decide
  have hat : "@".utf8ByteSize = 1 := by decide
  unfold display
  cases registry <;> cases requirement <;>
    simp [String.utf8ByteSize_append, hc, hat, Nat.add_comm]

theorem trim_display (hr : Behind (libs.rest id requirement))
    (hh : ∀ name ∈ registry, ∀ c ∈ name.toList.head?,
      Lib.isWhitespace c = false) (hn : registry ≠ some "") :
    trim (libs.display (.registry registry id requirement)).toList
      = (libs.display (.registry registry id requirement)).toList := by
  rw [display_toList]
  cases registry with
  | none => exact hr.trim
  | some name =>
    have hne : name.toList ≠ [] := fun hnil =>
      hn (congrArg some (String.toList_eq_nil_iff.1 hnil))
    refine trim_behind hr fun c hc => hh name rfl c ?_
    rwa [Option.map_some, Option.getD_some,
      head?_append_of_ne_nil _ hne] at hc

theorem portable_of_read (hl : libs.Prints)
    (hsc : libs.Admitted registry id requirement)
    (h : libs.fromStr (libs.display (.registry registry id requirement))
      = .ok (.registry registry id requirement)) :
    libs.Portable (.registry registry id requirement) := by
  obtain ⟨hsz, hf, hpl, hs, hb, hcl⟩ := fromStr_eq_registry h
  have hnm : registry ≠ some "" := by
    rintro rfl
    exact (hsc.name _ rfl).1 rfl
  have hp : ∀ name ∈ registry, ':' ∉ name.toList
      ∧ ∃ behind, trim (libs.display
          (.registry registry id requirement)).toList
        = name.toList ++ ':' :: behind := by
    intro name hmem
    obtain ⟨⟨front, behind⟩, hsp, hft⟩ :=
      Option.map_eq_some_iff.1 (hcl.symm.trans hmem)
    obtain rfl : front = name.toList := by
      rw [← hft, String.toList_ofList]
    exact ⟨(splitOnce_eq_some hsp).2, behind, (splitOnce_eq_some hsp).1⟩
  have hh : ∀ name ∈ registry, ∀ c ∈ name.toList.head?,
      Lib.isWhitespace c = false := by
    intro name hmem c hc
    obtain ⟨-, behind, ht⟩ := hp name hmem
    have hfr : c ∈ (trim (libs.display
        (.registry registry id requirement)).toList).head? := by
      rw [ht, head?_append, Option.mem_def.1 hc]
      rfl
    exact head_trim c hfr
  rw [trim_display (behind_rest hl hsc) hh hnm] at hsz hf hpl hs hb hp
  rw [String.ofList_toList] at hsz
  dsimp only [Portable]
  rw [← @endsInPlugin_display libs registry id requirement, ← size_display]
  refine ⟨fun name hmem => ?_, hpl, hsz⟩
  obtain ⟨hn, behind, ht⟩ := hp name hmem
  rw [ht] at hf hs hb
  refine ⟨?_, hn, fun hin => hs (mem_append_left _ hin),
    fun hin => hb (mem_append_left _ hin), hh name hmem⟩
  rintro rfl
  exact hf ⟨behind, rfl⟩

theorem read_of_portable (hl : libs.Prints)
    (hs : libs.Admitted registry id requirement)
    (h : libs.Portable (.registry registry id requirement)) :
    libs.fromStr (libs.display (.registry registry id requirement))
      = .ok (.registry registry id requirement) := by
  obtain ⟨hn, hp, hsz⟩ := h
  rw [← @endsInPlugin_display libs registry id requirement] at hp
  rw [← size_display] at hsz
  have hr := behind_rest hl hs
  have ht := @display_toList libs registry id requirement
  have hcl : splitOnce ':' (libs.display
      (.registry registry id requirement)).toList
      = registry.map fun name => (name.toList, libs.rest id requirement) := by
    rw [ht]
    cases registry with
    | none =>
      exact if_neg fun hin => hr.chars _ hin mem_cons_self
    | some name =>
      simpa using splitOnce_append (hn name rfl).2.1
  have hfar : ∀ c ∈ ['/', '\\'],
      c ∉ (libs.display (.registry registry id requirement)).toList := by
    intro c hc hin
    rw [ht] at hin
    rcases mem_append.1 hin with hin | hin
    · cases registry with
      | none => simp at hin
      | some name =>
        simp only [mem_cons, not_mem_nil, or_false] at hc
        rcases hc with rfl | rfl <;> simp_all
    · exact hr.chars c hin (mem_cons_of_mem _ hc)
  rw [← registrySpec_reqText hl hs]
  refine fromStr_registry
    (trim_display hr (fun name hmem => (hn name hmem).2.2.2.2) ?_)
    (by rwa [String.ofList_toList]) ?_ hp (hfar _ (by decide))
    (hfar _ (by decide)) hcl ?_ ?_ ?_ hr.ne
  · rintro rfl
    exact (hs.name _ rfl).1 rfl
  · rintro ⟨path, hpt⟩
    have hf := @splitOnce_append ':' "file".toList path (by decide)
    rw [show "file".toList ++ ':' :: path = "file:".toList ++ path from rfl,
      hpt, hcl] at hf
    obtain ⟨name, hmem, hpr⟩ := Option.map_eq_some_iff.1 hf
    exact (hn name hmem).1 (String.toList_inj.1 (Prod.mk.inj hpr).1)
  · rintro rfl
    exact ht.symm
  · rw [splitOnce_rest hs.id, Option.map_map]
    rfl
  · intro hnn
    rw [Option.map_eq_none_iff.1 hnn, rest]
    simp

/-- A registry spec comes back from its text exactly if it is portable,
and a plugin id alone is read as that plugin exactly if it does not end
like an archive. -/
theorem registry_round_trip_iff (libs : SpecLibs) (hlibs : libs.Prints) :
    (∀ id version registry spec,
      libs.tryFrom (.registry id version registry) = .ok spec →
        (libs.fromStr (libs.display spec) = .ok spec ↔ libs.Portable spec))
      ∧ ∀ id, Index.isValidPluginId id = true →
        (libs.fromStr id = .ok (.registry none id none)
          ↔ endsInPlugin id.toList = false) := by
  refine ⟨fun id version registry spec h => ?_, fun id hid => ?_⟩
  · obtain ⟨requirement, rfl, hs⟩ := registrySpec_ok h
    exact ⟨portable_of_read hlibs hs, read_of_portable hlibs hs⟩
  · have hs : libs.Admitted none id none := ⟨hid, nofun, nofun⟩
    have ht : libs.display (.registry none id none) = id := by
      simp [display]
    have hsh : id.utf8ByteSize ≤ 4096 := by
      simp only [Index.isValidPluginId, decide_eq_true_eq] at hid
      omega
    have hr := portable_of_read hlibs hs
    have hb := read_of_portable hlibs hs
    rw [ht] at hr hb
    exact ⟨fun h => (hr h).2.1, fun h => hb ⟨nofun, h, by simpa⟩⟩

/-- The libraries as far as one range goes. -/
def oneRange : SpecLibs where
  parse _ := none
  text _ := ""
  le _ _ := true
  parseReq s := if s = "^1.2" then some ⟨[⟨.caret, 1, some 2, none, ""⟩]⟩
    else none
  isMatch _ _ := false
  reqText _ := "^1.2"
  reqError _ := "unexpected end of input"
  isAllowedUrl _ := false

theorem oneRange_prints : oneRange.Prints where
  reparse {s r} h := by
    change (if s = "^1.2" then some _ else none) = some r at h
    split at h
    · exact h
    · cases h
  notVersion _ := rfl
  head _ := ⟨'^', ['1', '.', '2'], (by decide : "^1.2".toList = _), by decide⟩
  chars _ := by
    exact List.all_eq_true.1 (by decide : "^1.2".toList.all rangeChar)
  last _ := by
    change "^1.2".toList.getLast? ≠ some ' '
    decide

theorem registry_round_trip_iff_range :
    oneRange.fromStr "official:acme.tts@^1.2"
      = .ok (.registry (some "official") "acme.tts"
        (some ⟨[⟨.caret, 1, some 2, none, ""⟩]⟩)) := by
  have hr := ((registry_round_trip_iff oneRange oneRange_prints).1
    "acme.tts" (some "^1.2") (some "official")
    (.registry (some "official") "acme.tts"
      (some ⟨[⟨.caret, 1, some 2, none, ""⟩]⟩)) (by decide +kernel)).2
  refine hr ⟨?_, by decide +kernel, by decide +kernel⟩
  intro name hn
  cases hn
  refine ⟨by decide +kernel, by decide +kernel, by decide +kernel,
    by decide +kernel, ?_⟩
  rw [(by decide +kernel : "official".toList.head? = some 'o')]
  intro c hc
  cases hc
  decide +kernel

/-- `acme.plugin` is a plugin id and is read as a file. -/
theorem id_read_as_file :
    ¬ ∀ (libs : SpecLibs), libs.Prints →
      ∀ id version registry spec,
        libs.tryFrom (.registry id version registry) = .ok spec →
        libs.fromStr (libs.display spec) = .ok spec := by
  intro h
  have hr := h oneRange oneRange_prints "acme.plugin" none none
    (.registry none "acme.plugin" none) (by decide +kernel)
  revert hr
  decide +kernel

end SpecLibs

end TikTools.Plugins
