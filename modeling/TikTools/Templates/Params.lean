/-
Rule template parameters: `{{ params.* }}` spans, substituted by the
library and by the web view.

The library scans for braces by hand, the web view replaces a pattern.
Both are meant to do what `instantiate` says: a string that is one
placeholder takes the parameter's value, a placeholder inside a string
becomes text, a missing parameter becomes the empty string, and all other
text stays.

# Where they agree

They read a placeholder alike when only common white space stands at its
inner ends, none stands behind `params.`, its path has at most 128
characters, and an even number of braces stands before it; they read a
string alike when one that is a placeholder has no white space outside;
they look a path up alike when no part of it is a member every object of
the web view inherits, or the empty name of a member; they print a value
alike when its numbers have the same text on both sides and its objects
list their members in key order. `substitution_agrees` says that this is
enough, for every value tree. `substitution_differs` and
`substitution_differs_braces` have inputs that miss it.
-/
import TikTools.Automation.Template
import TikTools.Lib.Rewrite
import TikTools.Lib.Text
import Mathlib

namespace TikTools.Templates

open TikTools.Lib
open TikTools.Automation (Text splitPair valueToString)
open List Option

/-- The members of an object. -/
abbrev Members := List (String × Json)

-- ==== the library

/-- Walk the parts of a path, each through an object; a part that is
empty ends the walk with nothing. -/
def walk : Option Json → List Text → Option Json
  | current, [] => current
  | current, part :: rest =>
    if part = [] then none
    else walk (current.bind fun value => value.get (String.ofList part)) rest

def readParamPath (params : Members) (path : Text) : Option Json :=
  walk (some (.object params)) (path.splitOn '.')

def scalarText (value : Option Json) : Text :=
  (value.map valueToString).getD []

/-- `[a-zA-Z0-9_.]`. -/
def isPathChar (c : Char) : Bool := c.isAlphanum || c == '_' || c == '.'

/-- The characters are ASCII, so the bytes of a path are its
characters. -/
def validParamPath (path : Text) : Bool :=
  path ≠ [] ∧ path.length ≤ 128 ∧ path.all isPathChar

def paramsDot : Text := "params.".toList

/-- Scan one span, of which the text begins behind the `{{`: its path,
and the text behind the `}}`. -/
def scanParamsSpan (text : Text) : Option (Text × Text) :=
  match splitPair '}' text with
  | none => none
  | some (inner, rest) =>
    match paramsDot.isPrefixOf? (trim inner) with
    | none => none
    | some path =>
      if validParamPath (trim path) then some (trim path, rest)
      else none

/-- The path of a text that is exactly one span, with white space
around. -/
def soleParamsSpan (text : Text) : Option Text :=
  let trimmed := trim text
  if ['{', '{'].isPrefixOf trimmed ∧ ['}', '}'].isSuffixOf trimmed then
    match scanParamsSpan (trimmed.drop 2) with
    | some (path, []) => some path
    | _ => none
  else none

/-- The loop over a text of at most `fuel` characters. -/
def renderSpansIn (params : Members) : Nat → Text → Text
  | 0, text => text
  | fuel + 1, text =>
    match splitPair '{' text with
    | none => text
    | some (before, behind) =>
      match scanParamsSpan behind with
      | some (path, rest) =>
        before ++ scalarText (readParamPath params path)
          ++ renderSpansIn params fuel rest
      | none =>
        before ++ '{' :: '{' :: renderSpansIn params fuel behind

def substituteString (text : Text) (params : Members) : Json :=
  match soleParamsSpan text with
  | some path => (readParamPath params path).getD (.string "")
  | none =>
    .string (String.ofList (renderSpansIn params text.length text))

mutual

def substituteParams (params : Members) : Json → Json
  | .string text => substituteString text.toList params
  | .array items => .array (substituteItems params items)
  | .object members => .object (substituteMembers params members)
  | .null => .null
  | .bool b => .bool b
  | .number text => .number text

def substituteItems (params : Members) : List Json → List Json
  | [] => []
  | item :: rest =>
    substituteParams params item :: substituteItems params rest

def substituteMembers (params : Members) : Members → Members
  | [] => []
  | (key, value) :: rest =>
    (key, substituteParams params value) :: substituteMembers params rest

end

-- ==== the web view

/-- What a value of the web view is, where it may also be something that
every object inherits: the object prototype, or one of its functions. -/
inductive WebValue where
  | null
  | bool (b : Bool)
  | number (text : String)
  | string (s : String)
  | array (items : List WebValue)
  | object (members : List (String × WebValue))
  | prototype
  | function

mutual

/-- A parsed document, as a value of the web view. -/
def WebValue.ofJson : Json → WebValue
  | .null => .null
  | .bool b => .bool b
  | .number text => .number text
  | .string s => .string s
  | .array items => .array (WebValue.ofItems items)
  | .object members => .object (WebValue.ofMembers members)

def WebValue.ofItems : List Json → List WebValue
  | [] => []
  | item :: rest => .ofJson item :: WebValue.ofItems rest

def WebValue.ofMembers : Members → List (String × WebValue)
  | [] => []
  | (key, value) :: rest =>
    (key, .ofJson value) :: WebValue.ofMembers rest

end

/-- What the web view takes from its platform: the text of a number, and
the order in which an object lists its members. -/
structure Platform where
  numberText : String → Text
  listing : List (String × Text) → List (String × Text)

/-- What a property lookup gives. -/
inductive Property where
  | own (value : Json)
  | prototype
  | function

def Property.value : Property → WebValue
  | .own value => .ofJson value
  | .prototype => .prototype
  | .function => .function

def prototypeFunctions : List String :=
  ["constructor", "__defineGetter__", "__defineSetter__",
    "hasOwnProperty", "__lookupGetter__", "__lookupSetter__",
    "isPrototypeOf", "propertyIsEnumerable", "toString", "valueOf",
    "toLocaleString"]

/-- What an object without a member of this name has under it. -/
def inherited (name : String) : Option Property :=
  if name = "__proto__" then some .prototype
  else if name ∈ prototypeFunctions then some .function
  else none

/-- One step of `readPath`; nothing is read off a value that is no
object. -/
def property (current : Property) (name : String) : Option Property :=
  match current with
  | .own (.object members) =>
    match Json.member name members with
    | some value => some (.own value)
    | none => inherited name
  | .own _ => none
  | .prototype =>
    if name = "__proto__" then some (.own .null) else inherited name
  | .function => none

def readProperties : Property → List Text → Option Property
  | current, [] => some current
  | current, part :: rest =>
    (property current (String.ofList part)).bind fun next =>
      readProperties next rest

def readPath (params : Members) (path : Text) : Option Property :=
  readProperties (.own (.object params)) (path.splitOn '.')

/-- The text behind two closing braces. -/
def closing : Text → Option Text
  | '}' :: '}' :: rest => some rest
  | _ => none

/-- One match of the pattern at the front of a text: its path, and the
text behind it. -/
def matchParams : Text → Option (Text × Text)
  | '{' :: '{' :: text =>
    match paramsDot.isPrefixOf? (text.dropWhile isJsSpace) with
    | none => none
    | some text =>
      let path := text.takeWhile isPathChar
      match closing ((text.dropWhile isPathChar).dropWhile isJsSpace) with
      | some rest => if path = [] then none else some (path, rest)
      | none => none
  | _ => none

-- ==== the grammar

/-- White space of either side. -/
def isAnySpace (c : Char) : Bool := isWhitespace c || isJsSpace c

/-- A placeholder in parts: `{{ lead params. gap path trail }}`. -/
structure Placeholder where
  lead : Text
  gap : Text
  path : Text
  trail : Text

namespace Placeholder

def source (ph : Placeholder) : Text :=
  '{' :: '{' :: (ph.lead ++ paramsDot ++ ph.gap ++ ph.path ++ ph.trail)
    ++ ['}', '}']

/-- The parts are what they are called, with white space of a kind. -/
structure Spaced (space : Char → Bool) (ph : Placeholder) : Prop where
  lead : ∀ c ∈ ph.lead, space c
  gap : ∀ c ∈ ph.gap, space c
  path : ∀ c ∈ ph.path, isPathChar c
  path_ne : ph.path ≠ []
  trail : ∀ c ∈ ph.trail, space c

end Placeholder

/-- Read a placeholder off the front of a text, where `space` is white
space. -/
def readPlaceholder (space : Char → Bool) :
    Text → Option (Placeholder × Text)
  | '{' :: '{' :: text =>
    match paramsDot.isPrefixOf? (text.dropWhile space) with
    | none => none
    | some named =>
      let behind := named.dropWhile space
      let end_ := behind.dropWhile isPathChar
      match closing (end_.dropWhile space) with
      | some rest =>
        if behind.takeWhile isPathChar = [] then none
        else some (⟨text.takeWhile space, named.takeWhile space,
          behind.takeWhile isPathChar, end_.takeWhile space⟩, rest)
      | none => none
  | _ => none

/-- White space is told from a path, from `params.` and from a brace. -/
structure Separates (space : Char → Bool) : Prop where
  path : ∀ c, isPathChar c → space c = false
  brace : space '}' = false

variable {c : Char} {space : Char → Bool} {params : Members}
  {ph : Placeholder} {front rest path text : Text}

theorem Separates.name (h : Separates space) :
    space 'p' = false :=
  h.path 'p' (by decide)

theorem takeWhile_append_cons {p : Char → Bool}
    (hf : ∀ c ∈ front, p c) (hc : p c = false) :
    (front ++ c :: rest).takeWhile p = front := by
  rw [takeWhile_append_of_pos hf, takeWhile_cons_of_neg
    (by simp [hc]), append_nil]

theorem dropWhile_append_cons {p : Char → Bool}
    (hf : ∀ c ∈ front, p c) (hc : p c = false) :
    (front ++ c :: rest).dropWhile p = c :: rest := by
  rw [dropWhile_append_of_pos hf, dropWhile_cons_of_neg (by simp [hc])]

theorem eq_source_of_read {l : Text}
    (h : readPlaceholder space l = some (ph, rest)) :
    l = ph.source ++ rest ∧ ph.Spaced space := by
  unfold readPlaceholder at h
  split at h
  · next text =>
    split at h
    · cases h
    · next named hn =>
      dsimp only at h
      split at h
      · next rest' hclg =>
        split at h
        · cases h
        · next hpt =>
          cases h
          have ht : text.dropWhile space = paramsDot ++ named :=
            (isPrefixOf?_eq_some_iff_append_eq.1 hn).symm
          have hend : ((named.dropWhile space).dropWhile
              isPathChar).dropWhile space = '}' :: '}' :: rest := by
            unfold closing at hclg
            split at hclg
            · cases hclg
              assumption
            · cases hclg
          have hb : named.dropWhile space
              = (named.dropWhile space).takeWhile isPathChar
                ++ (((named.dropWhile space).dropWhile
                  isPathChar).takeWhile space ++ '}' :: '}' :: rest) := by
            rw [← hend, takeWhile_append_dropWhile,
              takeWhile_append_dropWhile]
          have hp : text = text.takeWhile space ++ (paramsDot
              ++ (named.takeWhile space ++ named.dropWhile space)) := by
            rw [takeWhile_append_dropWhile, ← ht, takeWhile_append_dropWhile]
          constructor
          · calc '{' :: '{' :: text
                = '{' :: '{' :: (text.takeWhile space ++ (paramsDot
                    ++ (named.takeWhile space ++ named.dropWhile space))) :=
                  congrArg (fun t => '{' :: '{' :: t) hp
              _ = _ := by
                  conv_lhs => rw [hb]
                  simp [Placeholder.source]
          · exact ⟨fun c hc => mem_takeWhile_imp hc,
              fun c hc => mem_takeWhile_imp hc,
              fun c hc => mem_takeWhile_imp hc, hpt,
              fun c hc => mem_takeWhile_imp hc⟩
      · cases h
  · cases h

theorem read_source (hs : Separates space)
    (h : ph.Spaced space) (rest : Text) :
    readPlaceholder space (ph.source ++ rest) = some (ph, rest) := by
  obtain ⟨lead, gap, path, trail⟩ := ph
  obtain ⟨hl, hg, hp, hne, ht⟩ := h
  obtain ⟨first, more, rfl⟩ := exists_cons_of_ne_nil hne
  have hf : space first = false := hs.path first (hp first mem_cons_self)
  have hb : isPathChar '}' = false := by decide
  have hls : ∀ tail : Text, ∃ c t, trail ++ '}' :: tail = c :: t
      ∧ isPathChar c = false := by
    intro tail
    cases trail with
    | nil => exact ⟨'}', tail, rfl, hb⟩
    | cons c t =>
      refine ⟨c, t ++ '}' :: tail, rfl, ?_⟩
      by_contra hc
      have hsep := hs.path c (by simpa using hc)
      rw [ht c mem_cons_self] at hsep
      cases hsep
  obtain ⟨c, t, hct, hc⟩ := hls ('}' :: rest)
  obtain ⟨tail, hn⟩ : ∃ tail, paramsDot = 'p' :: tail := ⟨_, rfl⟩
  have hsrc : Placeholder.source ⟨lead, gap, first :: more, trail⟩ ++ rest
      = '{' :: '{' :: (lead ++ 'p' :: (tail ++ (gap
        ++ first :: (more ++ (trail ++ '}' :: '}' :: rest))))) := by
    simp only [Placeholder.source, hn, append_assoc, cons_append, nil_append]
  have hnm : paramsDot.isPrefixOf? ('p' :: (tail ++ (gap
      ++ first :: (more ++ (trail ++ '}' :: '}' :: rest)))))
      = some (gap ++ first :: (more ++ (trail ++ '}' :: '}' :: rest))) := by
    rw [hn]
    exact isPrefixOf?_eq_some_iff_append_eq.2 rfl
  have hw : first :: (more ++ (trail ++ '}' :: '}' :: rest))
      = (first :: more) ++ c :: t := by
    rw [hct]
    rfl
  rw [hsrc]
  simp only [readPlaceholder, dropWhile_append_cons hl hs.name,
    takeWhile_append_cons hl hs.name, hnm,
    dropWhile_append_cons hg hf, takeWhile_append_cons hg hf]
  rw [hw, dropWhile_append_cons hp hc, takeWhile_append_cons hp hc,
    ← hct, dropWhile_append_cons ht hs.brace,
    takeWhile_append_cons ht hs.brace]
  simp [closing]

theorem read_iff (hs : Separates space) {l : Text} :
    readPlaceholder space l = some (ph, rest)
      ↔ l = ph.source ++ rest ∧ ph.Spaced space := by
  constructor
  · exact eq_source_of_read
  · rintro ⟨rfl, h⟩
    exact read_source hs h rest

-- ---- the white spaces

theorem toNat_of_isPathChar (h : isPathChar c) :
    (48 ≤ c.toNat ∧ c.toNat ≤ 57) ∨ (65 ≤ c.toNat ∧ c.toNat ≤ 90)
      ∨ (97 ≤ c.toNat ∧ c.toNat ≤ 122) ∨ c.toNat = 95 ∨ c.toNat = 46 := by
  simp only [isPathChar, Char.isAlphanum, Char.isAlpha, Char.isUpper,
    Char.isLower, Char.isDigit, Bool.or_eq_true, Bool.and_eq_true,
    decide_eq_true_eq, beq_iff_eq, UInt32.le_iff_toNat_le] at h
  rcases h with ((h | h) | h) | h
  · rcases h with h | h
    all_goals simp at h; omega
  · simp at h
    omega
  · subst h
    decide
  · subst h
    decide

theorem separates_rust : Separates isWhitespace where
  path c h := by
    have hc := toNat_of_isPathChar h
    simp only [isWhitespace, Bool.or_eq_false_iff, Bool.and_eq_false_iff,
      decide_eq_false_iff_not, beq_eq_false_iff_ne]
    omega
  brace := by decide

theorem separates_js : Separates isJsSpace where
  path c h := by
    have hc := toNat_of_isPathChar h
    simp only [isJsSpace, separates_rust.path c h, Bool.false_and,
      Bool.false_or, beq_eq_false_iff_ne]
    omega
  brace := by decide

theorem separates_any : Separates isAnySpace where
  path c h := by
    rw [isAnySpace, separates_rust.path c h, separates_js.path c h]
    rfl
  brace := by decide

theorem Placeholder.Spaced.mono {w : Char → Bool} (h : ph.Spaced space)
    (hw : ∀ c, space c → w c) : ph.Spaced w where
  lead c hc := hw c (h.lead c hc)
  gap c hc := hw c (h.gap c hc)
  path := h.path
  path_ne := h.path_ne
  trail c hc := hw c (h.trail c hc)

theorem read_any (hsp : Separates space)
    (hw : ∀ c, space c → isAnySpace c) {l : Text}
    (h : readPlaceholder space l = some (ph, rest)) :
    readPlaceholder isAnySpace l = some (ph, rest) := by
  obtain ⟨hl, hs⟩ := (read_iff hsp).1 h
  exact (read_iff separates_any).2 ⟨hl, hs.mono hw⟩

theorem any_of_rust (c : Char) (h : isWhitespace c) : isAnySpace c := by
  simp [isAnySpace, h]

theorem any_of_js (c : Char) (h : isJsSpace c) : isAnySpace c := by
  simp [isAnySpace, h]

-- ---- the two readers

theorem matchParams_eq (l : Text) :
    matchParams l = (readPlaceholder isJsSpace l).bind fun r =>
      if r.1.gap = [] then some (r.1.path, r.2)
      else none := by
  unfold matchParams readPlaceholder
  split
  · next text =>
    cases hnm : paramsDot.isPrefixOf? (text.dropWhile isJsSpace) with
    | none => rfl
    | some named =>
      dsimp only
      by_cases hgap : named.takeWhile isJsSpace = []
      · have hd : named.dropWhile isJsSpace = named := by
          have hs := @takeWhile_append_dropWhile _ isJsSpace named
          rwa [hgap, nil_append] at hs
        rw [hd]
        cases closing ((named.dropWhile isPathChar).dropWhile isJsSpace) with
        | none => rfl
        | some rest =>
          by_cases hp : named.takeWhile isPathChar = []
          · simp [hp]
          · simp [hp, hgap]
      · have hp : named.takeWhile isPathChar = [] := by
          cases named with
          | nil => rfl
          | cons c t =>
            have hc : isJsSpace c = true := by
              by_contra hc
              exact hgap (takeWhile_cons_of_neg hc)
            refine takeWhile_cons_of_neg fun hn => ?_
            rw [separates_js.path c hn] at hc
            cases hc
        rw [hp]
        cases closing (((named.dropWhile isJsSpace).dropWhile
            isPathChar).dropWhile isJsSpace) with
        | none => split <;> rfl
        | some rest =>
          by_cases hb : (named.dropWhile isJsSpace).takeWhile isPathChar = []
          · simp [hb]
            split <;> rfl
          · simp [hb, hgap]
            split <;> rfl
  · rfl

theorem matchParams_iff {l : Text} :
    matchParams l = some (path, rest)
      ↔ ∃ ph, readPlaceholder isJsSpace l = some (ph, rest)
        ∧ ph.gap = [] ∧ ph.path = path := by
  rw [matchParams_eq, bind_eq_some_iff]
  constructor
  · rintro ⟨⟨ph, rest'⟩, hr, h⟩
    split at h
    · next hgap =>
      cases h
      exact ⟨ph, hr, hgap, rfl⟩
    · cases h
  · rintro ⟨ph, hr, hgap, rfl⟩
    exact ⟨(ph, rest), hr, if_pos hgap⟩

theorem splitPair_append {i : Text} (h : '}' ∉ i) :
    splitPair '}' (i ++ '}' :: '}' :: rest) = some (i, rest) := by
  induction i with
  | nil => rfl
  | cons c i ih =>
    obtain ⟨hc, hin⟩ := ne_and_not_mem_of_not_mem_cons h
    obtain ⟨d, t, hdt⟩ : ∃ d t, i ++ '}' :: '}' :: rest = d :: t := by
      cases i <;> exact ⟨_, _, rfl⟩
    have hr := ih hin
    rw [hdt] at hr
    rw [cons_append, hdt, splitPair, if_neg fun hb =>
      hc hb.1.symm, hr]
    rfl

theorem isPathChar_of_valid (h : validParamPath path) :
    path ≠ [] ∧ path.length ≤ 128 ∧ ∀ c ∈ path, isPathChar c := by
  simpa [validParamPath] using h

/-- The scan reads a placeholder with the white space of the library and
a path that is not too long. -/
theorem scanParamsSpan_iff {l : Text} :
    scanParamsSpan l = some (path, rest)
      ↔ ∃ ph, readPlaceholder isWhitespace ('{' :: '{' :: l)
          = some (ph, rest) ∧ ph.path = path ∧ path.length ≤ 128 := by
  constructor
  · intro h
    unfold scanParamsSpan at h
    split at h
    · cases h
    · next inner rest' hsp =>
      split at h
      · cases h
      · next named hn =>
        split at h
        · next hv =>
          cases h
          obtain ⟨hne, hlen, hp⟩ := isPathChar_of_valid hv
          obtain ⟨lead, trail, hin, hld, ht⟩ := exists_trim inner
          obtain ⟨gap, tail, hnm, hgap, htl⟩ := exists_trim named
          have htr : trim inner = paramsDot ++ named :=
            (isPrefixOf?_eq_some_iff_append_eq.1 hn).symm
          let ph : Placeholder := ⟨lead, gap, trim named, tail ++ trail⟩
          refine ⟨ph, (read_iff separates_rust).2 ⟨?_, hld, hgap, hp,
            hne, ?_⟩, rfl, hlen⟩
          · calc '{' :: '{' :: l
                = '{' :: '{' :: (lead ++ (paramsDot ++ (gap ++ trim named
                    ++ tail)) ++ trail ++ '}' :: '}' :: rest) := by
                  rw [Automation.eq_of_splitPair hsp, ← hnm, ← htr, ← hin]
              _ = ph.source ++ rest := by
                  simp [ph, Placeholder.source]
          · intro c hc
            rcases mem_append.1 hc with hc | hc
            · exact htl c hc
            · exact ht c hc
        · cases h
  · rintro ⟨ph, hr, rfl, hlen⟩
    obtain ⟨hl, hld, hgap, hp, hne, ht⟩ := (read_iff separates_rust).1 hr
    obtain ⟨lead, gap, path, trail⟩ := ph
    have hb : isPathChar '}' = false := by decide
    have hin : '}' ∉ lead ++ (paramsDot ++ gap ++ path) ++ trail := by
      have hs : isWhitespace '}' = false := separates_rust.brace
      have hnm : '}' ∉ paramsDot := by decide
      simp only [mem_append, not_or]
      refine ⟨⟨fun h => ?_, ⟨hnm, fun h => ?_⟩, fun h => ?_⟩, fun h => ?_⟩
      · simpa [hs] using hld _ h
      · simpa [hs] using hgap _ h
      · simpa [hb] using hp _ h
      · simpa [hs] using ht _ h
    have hl' : l = lead ++ (paramsDot ++ gap ++ path) ++ trail
        ++ '}' :: '}' :: rest := by
      simpa [Placeholder.source] using hl
    have hf : ∀ h, isWhitespace ((paramsDot ++ gap ++ path).head h)
        = false := fun _ => separates_rust.name
    have hls : ∀ h, isWhitespace ((paramsDot ++ gap ++ path).getLast h)
        = false := by
      intro h
      rw [getLast_append_of_ne_nil h hne]
      exact separates_rust.path _ (hp _ (getLast_mem hne))
    have htr : trim (lead ++ (paramsDot ++ gap ++ path) ++ trail)
        = paramsDot ++ (gap ++ path) := by
      rw [trim_append hld ht (by simp [hne]) (hf _) (hls _), append_assoc]
    have hn : trim (gap ++ path) = path := by
      have hpt := @trim_append gap path [] hgap (by simp) hne
        (separates_rust.path _ (hp _ (head_mem hne)))
        (separates_rust.path _ (hp _ (getLast_mem hne)))
      rwa [append_nil] at hpt
    have hv : validParamPath path := by
      simpa [validParamPath, hne, hlen] using hp
    unfold scanParamsSpan
    rw [hl', splitPair_append hin]
    dsimp only
    rw [htr, isPrefixOf?_eq_some_iff_append_eq.2 rfl]
    dsimp only
    rw [hn, if_pos hv]

theorem source_ne_nil (ph : Placeholder) : ph.source ≠ [] := cons_ne_nil _ _

/-- The placeholders of a text, by the grammar of both sides. -/
def placeholders : Recogniser Char Placeholder where
  read := readPlaceholder isAnySpace
  takes h := ⟨_, source_ne_nil _, ((read_iff separates_any).1 h).1⟩

theorem placeholders_read {l : Text} :
    placeholders.read l = some (ph, rest)
      ↔ l = ph.source ++ rest ∧ ph.Spaced isAnySpace :=
  read_iff separates_any

/-- `PARAMS_PATTERN`. -/
def paramsPattern : Recogniser Char Text where
  read := matchParams
  takes h := by
    obtain ⟨ph, hread, -⟩ := matchParams_iff.1 h
    exact ⟨_, source_ne_nil ph, ((read_iff separates_js).1 hread).1⟩

-- ==== substitution

section
variable (web : Platform)

/-- The texts between the brackets. -/
def joined : List Text → Text
  | [] => []
  | [text] => text
  | text :: rest => text ++ ',' :: joined rest

mutual

/-- `JSON.stringify`. -/
def stringify : Json → Text
  | .null => "null".toList
  | .bool b => (toString b).toList
  | .number text => web.numberText text
  | .string s => Json.encodeString s
  | .array items => '[' :: joined (stringifyItems items) ++ [']']
  | .object members =>
    '{' :: joined ((web.listing (stringifyMembers members)).map
      fun member => Json.encodeString member.1 ++ ':' :: member.2)
      ++ ['}']

def stringifyItems : List Json → List Text
  | [] => []
  | item :: rest => stringify item :: stringifyItems rest

def stringifyMembers : Members → List (String × Text)
  | [] => []
  | (key, value) :: rest => (key, stringify value) :: stringifyMembers rest

end

/-- `scalarText` of the web view. -/
def webText : Option Property → Text
  | none | some (.own .null) | some .function => []
  | some (.own (.string text)) => text.toList
  | some (.own value) => stringify web value
  | some .prototype => "{}".toList

def substituteRuleString (text : Text) (params : Members) : WebValue :=
  match matchParams text with
  | some (path, []) =>
    ((readPath params path).map Property.value).getD (.string "")
  | _ =>
    .string (String.ofList (paramsPattern.replace
      (fun path => webText web (readPath params path)) text))

mutual

def substituteRuleParams (params : Members) : Json → WebValue
  | .string text => substituteRuleString web text.toList params
  | .array items => .array (substituteRuleItems params items)
  | .object members => .object (substituteRuleMembers params members)
  | .null => .null
  | .bool b => .bool b
  | .number text => .number text

def substituteRuleItems (params : Members) : List Json → List WebValue
  | [] => []
  | item :: rest =>
    substituteRuleParams params item :: substituteRuleItems params rest

def substituteRuleMembers (params : Members) :
    Members → List (String × WebValue)
  | [] => []
  | (key, value) :: rest =>
    (key, substituteRuleParams params value)
      :: substituteRuleMembers params rest

end

end

-- ==== what is meant

/-- The placeholder a text is, if it is one and nothing else. -/
def wholePlaceholder (text : Text) : Option Placeholder :=
  match readPlaceholder isAnySpace text with
  | some (ph, []) => some ph
  | _ => none

/-- A string after substitution: a placeholder alone is the parameter's
value, others become text where they stand. -/
def instantiateString (text : Text) (params : Members) : Json :=
  match wholePlaceholder text with
  | some ph => (readParamPath params ph.path).getD (.string "")
  | none =>
    .string (String.ofList (placeholders.replace
      (fun ph => scalarText (readParamPath params ph.path)) text))

mutual

/-- A value tree after substitution. -/
def instantiate (params : Members) : Json → Json
  | .string text => instantiateString text.toList params
  | .array items => .array (instantiateItems params items)
  | .object members => .object (instantiateMembers params members)
  | .null => .null
  | .bool b => .bool b
  | .number text => .number text

def instantiateItems (params : Members) : List Json → List Json
  | [] => []
  | item :: rest => instantiate params item :: instantiateItems params rest

def instantiateMembers (params : Members) : Members → Members
  | [] => []
  | (key, value) :: rest =>
    (key, instantiate params value) :: instantiateMembers params rest

end

-- ==== the condition

/-- The braces a text ends in. -/
def bracesBefore (front : Text) : Nat :=
  (front.reverse.takeWhile (· == '{')).length

/-- A placeholder that both sides read: common white space at its inner
ends, none behind `params.`, and a path that is not too long. -/
structure Placeholder.Plain (ph : Placeholder) : Prop where
  gap : ph.gap = []
  length : ph.path.length ≤ 128
  lead : ∀ c ∈ ph.lead, isWhitespace c ∧ isJsSpace c
  trail : ∀ c ∈ ph.trail, isWhitespace c ∧ isJsSpace c

/-- A path that walks over members of the objects themselves. -/
def OwnPath : Json → List Text → Prop
  | .object members, part :: rest =>
    match Json.member (String.ofList part) members with
    | some value => part ≠ [] ∧ OwnPath value rest
    | none => inherited (String.ofList part) = none
  | _, _ => True

section
variable (web : Platform)

mutual

/-- A value both sides print alike. -/
def PlainValue : Json → Prop
  | .number text => web.numberText text = text.toList
  | .array items => PlainItems items
  | .object members =>
    web.listing (stringifyMembers web members)
        = stringifyMembers web members
      ∧ PlainMembers members
  | .null | .bool _ | .string _ => True

def PlainItems : List Json → Prop
  | [] => True
  | item :: rest => PlainValue item ∧ PlainItems rest

def PlainMembers : Members → Prop
  | [] => True
  | (_, value) :: rest => PlainValue value ∧ PlainMembers rest

end

/-- A string both sides substitute alike. -/
structure PlainText (params : Members) (text : Text) : Prop where
  spans : ∀ {front l rest : Text} {ph : Placeholder}, text = front ++ l →
    placeholders.read l = some (ph, rest) →
      bracesBefore front % 2 = 0 ∧ ph.Plain
  lookups : ∀ {front l rest : Text} {ph : Placeholder}, text = front ++ l →
    placeholders.read l = some (ph, rest) →
      OwnPath (.object params) (ph.path.splitOn '.')
  values : wholePlaceholder text = none →
    ∀ {front l rest : Text} {ph : Placeholder}, text = front ++ l →
      placeholders.read l = some (ph, rest) →
        ∀ value, readParamPath params ph.path = some value →
          PlainValue web value
  sole : ∀ {ph : Placeholder},
    placeholders.read (trim text) = some (ph, []) → trim text = text

mutual

/-- A value tree of which all strings are plain. -/
def PlainTree (params : Members) : Json → Prop
  | .string text => PlainText web params text.toList
  | .array items => PlainTrees params items
  | .object members => PlainTreeMembers params members
  | .null | .bool _ | .number _ => True

def PlainTrees (params : Members) : List Json → Prop
  | [] => True
  | item :: rest => PlainTree params item ∧ PlainTrees params rest

def PlainTreeMembers (params : Members) : Members → Prop
  | [] => True
  | (_, value) :: rest =>
    PlainTree params value ∧ PlainTreeMembers params rest

end

end

-- ==== reading both ways

section
variable {l : Text}

theorem matchParams_plain
    (h : ∀ ph rest, placeholders.read l = some (ph, rest) → ph.Plain) :
    matchParams l = (placeholders.read l).map fun r =>
      (r.1.path, r.2) := by
  cases hr : placeholders.read l with
  | none =>
    cases hmt : matchParams l with
    | none => rfl
    | some found =>
      obtain ⟨ph, hjs, -⟩ := matchParams_iff.1 hmt
      have hany := read_any separates_js any_of_js hjs
      cases hr.symm.trans hany
  | some r =>
    obtain ⟨ph, rest⟩ := r
    have hp := h ph rest hr
    obtain ⟨hl, hs⟩ := placeholders_read.1 hr
    refine matchParams_iff.2 ⟨ph, (read_iff separates_js).2 ⟨hl, ?_⟩,
      hp.gap, rfl⟩
    exact ⟨fun c hc => (hp.lead c hc).2,
      fun c hc => by simp [hp.gap] at hc, hs.path,
      hs.path_ne, fun c hc => (hp.trail c hc).2⟩

theorem scanParamsSpan_plain
    (h : ∀ ph rest, placeholders.read ('{' :: '{' :: l) = some (ph, rest) →
      ph.Plain) :
    scanParamsSpan l = (placeholders.read ('{' :: '{' :: l)).map
      fun r => (r.1.path, r.2) := by
  cases hr : placeholders.read ('{' :: '{' :: l) with
  | none =>
    cases hsc : scanParamsSpan l with
    | none => rfl
    | some found =>
      obtain ⟨ph, hrs, -⟩ := scanParamsSpan_iff.1 hsc
      have hany := read_any separates_rust any_of_rust hrs
      cases hr.symm.trans hany
  | some r =>
    obtain ⟨ph, rest⟩ := r
    have hp := h ph rest hr
    obtain ⟨hl, hs⟩ := placeholders_read.1 hr
    refine scanParamsSpan_iff.2 ⟨ph, (read_iff separates_rust).2
      ⟨hl, ?_⟩, rfl, hp.length⟩
    exact ⟨fun c hc => (hp.lead c hc).1,
      fun c hc => by simp [hp.gap] at hc, hs.path,
      hs.path_ne, fun c hc => (hp.trail c hc).1⟩

end

-- ==== the library's two cases

theorem splitPair_first {before behind : Text}
    (h : splitPair c text = some (before, behind)) :
    ∀ s, s <:+ before → s ≠ [] → ¬ [c, c] <+: s ++ c :: c :: behind := by
  induction text generalizing before with
  | nil => simp [splitPair] at h
  | cons a text ih =>
    cases text with
    | nil => simp [splitPair] at h
    | cons b rest =>
      simp only [splitPair] at h
      split at h
      · cases h
        intro s hs hne
        exact absurd (suffix_nil.1 hs) hne
      · next hp =>
        obtain ⟨⟨tail, _⟩, ht, heq⟩ := map_eq_some_iff.1 h
        cases heq
        intro s hs hne hst
        rcases suffix_cons_iff.1 hs with rfl | hs
        · have hr := Automation.eq_of_splitPair ht
          rw [cons_append, ← hr] at hst
          simp only [cons_prefix_cons] at hst
          exact hp ⟨hst.1.symm, hst.2.1.symm⟩
        · exact ih ht s hs hne hst

theorem prefix_of_read {l : Text}
    (h : placeholders.read l = some (ph, rest)) : ['{', '{'] <+: l := by
  obtain ⟨rfl, -⟩ := placeholders_read.1 h
  exact ⟨_, rfl⟩

theorem read_none {l : Text} (h : ¬ ['{', '{'] <+: l) :
    placeholders.read l = none := by
  cases hr : placeholders.read l with
  | none => rfl
  | some reading => exact absurd (prefix_of_read hr) h

theorem bracesBefore_brace (front : Text) :
    bracesBefore (front ++ ['{']) = bracesBefore front + 1 := by
  simp [bracesBefore]

theorem bracesBefore_source (front : Text) (ph : Placeholder) :
    bracesBefore (front ++ ph.source) = 0 := by
  simp [bracesBefore, Placeholder.source]

theorem bracesBefore_even {before behind : Text}
    (hev : bracesBefore front % 2 = 0)
    (h : splitPair '{' text = some (before, behind)) :
    bracesBefore (front ++ before) % 2 = 0 := by
  rcases eq_nil_or_concat before with rfl | ⟨init, c, rfl⟩
  · rwa [append_nil]
  · have hc : c ≠ '{' := by
      rintro rfl
      refine splitPair_first h ['{'] ?_ (cons_ne_nil _ _) ⟨_, rfl⟩
      exact ⟨init, by simp⟩
    simp [bracesBefore, hc]

theorem renderSpansIn_eq (params : Members) {fuel : Nat}
    (hf : text.length ≤ fuel) (hev : bracesBefore front % 2 = 0)
    (hp : ∀ {before l rest : Text} {ph : Placeholder},
      front ++ text = before ++ l → placeholders.read l = some (ph, rest) →
        bracesBefore before % 2 = 0 ∧ ph.Plain) :
    renderSpansIn params fuel text
      = placeholders.replace
        (fun ph => scalarText (readParamPath params ph.path)) text := by
  induction fuel generalizing front text with
  | zero =>
    obtain rfl := eq_nil_of_length_eq_zero (Nat.le_zero.1 hf)
    rfl
  | succ fuel ih =>
    unfold renderSpansIn
    split
    · next hn =>
      have hpr := Automation.splitPair_eq_none_iff.1 hn
      have hr : ∀ s, s <:+ text → s ≠ [] →
          placeholders.read (s ++ []) = none := by
        intro s hs _
        rw [append_nil]
        exact read_none fun hst =>
          hpr (hst.isInfix.trans hs.isInfix)
      have hrp := Recogniser.replace_append
        (f := fun ph => scalarText (readParamPath params ph.path)) hr
      simpa using hrp.symm
    · next before behind hsp =>
      have ht := Automation.eq_of_splitPair hsp
      have hh := bracesBefore_even hev hsp
      have hpos : ∀ l : Text, text = before ++ l →
          front ++ text = (front ++ before) ++ l := by
        rintro l rfl
        rw [append_assoc]
      have hsc := scanParamsSpan_plain fun ph rest hr =>
        (hp (hpos _ ht) hr).2
      have hlen : behind.length + 2 + before.length = text.length := by
        rw [ht]
        simp only [length_append, length_cons]
        omega
      have hbef : ∀ s, s <:+ before → s ≠ [] →
          placeholders.read (s ++ '{' :: '{' :: behind) = none :=
        fun s hs hne => read_none (splitPair_first hsp s hs hne)
      rw [ht, Recogniser.replace_append hbef]
      cases hr : placeholders.read ('{' :: '{' :: behind) with
      | some r =>
        obtain ⟨ph, rest⟩ := r
        have hsrc := (placeholders_read.1 hr).1
        have hsh := placeholders.shorter hr
        simp only [length_cons] at hsh
        rw [hr] at hsc
        simp only [hsc, map_some]
        rw [Recogniser.replace_read hr, append_assoc,
          @ih ((front ++ before) ++ ph.source) rest (by omega)
            (by rw [bracesBefore_source])]
        intro before' l rest' ph' hl
        refine hp ?_
        rw [hpos _ ht, hsrc, ← hl, append_assoc, append_assoc, append_assoc]
      | none =>
        rw [hr] at hsc
        simp only [hsc, map_none]
        have hodd : placeholders.read ('{' :: behind) = none := by
          cases hse : placeholders.read ('{' :: behind) with
          | none => rfl
          | some r =>
            have hl : front ++ text
                = (front ++ before ++ ['{']) ++ '{' :: behind := by
              rw [hpos _ ht]
              simp
            have hc := (hp hl hse).1
            rw [bracesBefore_brace] at hc
            omega
        rw [Recogniser.replace_skip hr, Recogniser.replace_skip hodd,
          @ih (front ++ before ++ ['{'] ++ ['{']) behind (by omega)
            (by rw [bracesBefore_brace, bracesBefore_brace]; omega)]
        intro before' l rest' ph' hl
        refine hp ?_
        rw [hpos _ ht, ← hl]
        simp

theorem trim_source (ph : Placeholder) : trim ph.source = ph.source := by
  have ho : isWhitespace '{' = false := by decide
  have hc : isWhitespace '}' = false := by decide
  have hl : ∀ h, ph.source.getLast h = '}' := by
    intro h
    simp [Placeholder.source]
  have ht := @trim_append [] ph.source [] (by simp) (by simp)
    (source_ne_nil ph) ho (by rw [hl]; exact hc)
  simpa using ht

theorem wholePlaceholder_iff :
    wholePlaceholder text = some ph
      ↔ placeholders.read text = some (ph, []) := by
  unfold wholePlaceholder
  change _ ↔ readPlaceholder isAnySpace text = some (ph, [])
  split
  · next ph' hr => simp [hr]
  · next ho =>
    constructor
    · intro h
      cases h
    · intro h
      exact absurd h (ho ph)

theorem read_of_soleParamsSpan (h : soleParamsSpan text = some path) :
    ∃ ph, placeholders.read (trim text) = some (ph, []) := by
  unfold soleParamsSpan at h
  dsimp only at h
  split at h
  · next hen =>
    split at h
    · next path' hs =>
      obtain ⟨l, hl⟩ := isPrefixOf_iff_prefix.1 hen.1
      have ht : trim text = '{' :: '{' :: l := hl.symm
      rw [ht] at hs ⊢
      obtain ⟨ph, hr, -⟩ := scanParamsSpan_iff.1 hs
      exact ⟨ph, read_any separates_rust any_of_rust hr⟩
    · cases h
  · cases h

theorem soleParamsSpan_plain
    (hp : ∀ ph rest, placeholders.read text = some (ph, rest) → ph.Plain)
    (hsl : ∀ ph, placeholders.read (trim text) = some (ph, []) →
      trim text = text) :
    soleParamsSpan text = (wholePlaceholder text).map Placeholder.path := by
  cases hw : wholePlaceholder text with
  | none =>
    cases h : soleParamsSpan text with
    | none => rfl
    | some path =>
      obtain ⟨ph, hr⟩ := read_of_soleParamsSpan h
      rw [hsl ph hr] at hr
      cases hw.symm.trans (wholePlaceholder_iff.2 hr)
  | some ph =>
    have hr := wholePlaceholder_iff.1 hw
    obtain ⟨ht, -⟩ := placeholders_read.1 hr
    rw [append_nil] at ht
    have htr : trim text = text := by rw [ht, trim_source]
    obtain ⟨l, hl⟩ : ∃ l, text = '{' :: '{' :: l :=
      ⟨_, ht.trans rfl⟩
    have ho : ['{', '{'].isPrefixOf text = true := by
      rw [hl]
      rfl
    have hc : ['}', '}'].isSuffixOf text = true := by
      rw [ht]
      exact isSuffixOf_iff_suffix.2 ⟨_, rfl⟩
    have hs : scanParamsSpan (text.drop 2) = some (ph.path, []) := by
      have hp' := scanParamsSpan_plain (l := l) (hl ▸ hp)
      rw [← hl, hr] at hp'
      rw [hl]
      exact hp'
    unfold soleParamsSpan
    rw [htr, if_pos ⟨ho, hc⟩, hs]
    rfl

-- ==== lookups

theorem walk_none (p : List Text) : walk none p = none := by
  induction p with
  | nil => rfl
  | cons part rest ih =>
    unfold walk
    split
    · rfl
    · exact ih

theorem walk_absent {v : Json} {p : Text} {rest : List Text}
    (h : v.get (String.ofList p) = none) :
    walk (some v) (p :: rest) = none := by
  unfold walk
  split
  · rfl
  · rw [bind_some, h, walk_none]

theorem readProperties_own {value : Json} {parts : List Text}
    (h : OwnPath value parts) :
    readProperties (.own value) parts
      = (walk (some value) parts).map .own := by
  induction parts generalizing value with
  | nil => rfl
  | cons part rest ih =>
    cases value with
    | object m =>
      simp only [OwnPath] at h
      cases hmm : Json.member (String.ofList part) m with
      | some value =>
        rw [hmm] at h
        have hget : (Json.object m).get (String.ofList part)
            = some value := hmm
        simp only [readProperties, property, hmm,
          bind_some, walk, if_neg h.1, hget]
        exact ih h.2
      | none =>
        rw [hmm] at h
        have hget : (Json.object m).get (String.ofList part) = none := hmm
        rw [walk_absent hget]
        simp only [readProperties, property, hmm]
        rw [show inherited (String.ofList part) = none from h]
        rfl
    | null | bool _ | number _ | string _ | array _ =>
      rw [walk_absent rfl]
      rfl

theorem readPath_own (h : OwnPath (.object params) (path.splitOn '.')) :
    readPath params path = (readParamPath params path).map .own :=
  readProperties_own h

-- ==== texts

section
variable {web : Platform}

mutual

theorem stringify_plain : ∀ {v : Json}, PlainValue web v →
    stringify web v = v.encode
  | .null, _ => rfl
  | .bool true, _ => rfl
  | .bool false, _ => rfl
  | .number _, h => h
  | .string _, _ => rfl
  | .array items, h => by
    rw [stringify, Json.encode, joined_stringifyItems h]
  | .object members, h => by
    rw [stringify, Json.encode, h.1, joined_stringifyMembers h.2]

theorem joined_stringifyItems : ∀ {i : List Json},
    PlainItems web i →
    joined (stringifyItems web i) = Json.encodeItems i
  | [], _ => rfl
  | [v], h => by
    rw [Json.encodeItems, ← stringify_plain h.1]
    rfl
  | v :: next :: rest, h => by
    rw [Json.encodeItems, ← stringify_plain h.1, ← joined_stringifyItems h.2]
    rfl

theorem joined_stringifyMembers : ∀ {m : Members},
    PlainMembers web m →
    joined ((stringifyMembers web m).map fun me =>
      Json.encodeString me.1 ++ ':' :: me.2) = Json.encodeMembers m
  | [], _ => rfl
  | [(key, v)], h => by
    rw [Json.encodeMembers, ← stringify_plain h.1]
    rfl
  | (key, v) :: next :: rest, h => by
    rw [Json.encodeMembers, ← stringify_plain h.1,
      ← joined_stringifyMembers h.2]
    rfl

end

theorem webText_own {value : Option Json}
    (h : ∀ v, value = some v → PlainValue web v) :
    webText web (value.map .own) = scalarText value := by
  cases value with
  | none => rfl
  | some value =>
    have hp := h value rfl
    cases value with
    | null => rfl
    | string text => rfl
    | bool b => exact stringify_plain hp
    | number text => exact stringify_plain hp
    | array items => exact stringify_plain hp
    | object members => exact stringify_plain hp

-- ==== the agreement

theorem substituteString_plain (h : PlainText web params text) :
    substituteString text params = instantiateString text params := by
  have hp : ∀ {b l rest : Text} {ph : Placeholder},
      [] ++ text = b ++ l → placeholders.read l = some (ph, rest) →
        bracesBefore b % 2 = 0 ∧ ph.Plain := h.spans
  have hh : ∀ ph rest, placeholders.read text = some (ph, rest) →
      ph.Plain := fun ph rest hr => (@hp [] _ _ _ rfl hr).2
  unfold substituteString instantiateString
  rw [soleParamsSpan_plain hh fun ph => h.sole]
  cases wholePlaceholder text with
  | some ph => rfl
  | none =>
    simp only [map_none]
    rw [renderSpansIn_eq params (Nat.le_refl _) rfl hp]

theorem substituteRuleString_plain (h : PlainText web params text) :
    substituteRuleString web text params
      = .ofJson (instantiateString text params) := by
  have hmt : ∀ s, s <:+ text → matchParams s
      = (placeholders.read s).map fun r =>
        (r.1.path, r.2) := by
    rintro s ⟨front, rfl⟩
    exact matchParams_plain fun ph rest hr => (h.spans rfl hr).2
  have hlk : ∀ {front l rest : Text} {ph : Placeholder},
      text = front ++ l → placeholders.read l = some (ph, rest) →
        readPath params ph.path = (readParamPath params ph.path).map .own :=
    fun hl hr => readPath_own (h.lookups hl hr)
  unfold substituteRuleString instantiateString
  rw [hmt text suffix_rfl]
  cases hw : wholePlaceholder text with
  | some ph =>
    have hr := wholePlaceholder_iff.1 hw
    rw [hr]
    simp only [map_some]
    rw [@hlk [] _ _ _ rfl hr]
    cases readParamPath params ph.path with
    | none => rfl
    | some value => rfl
  | none =>
    have hrp : paramsPattern.replace
        (fun path => webText web (readPath params path)) text
        = placeholders.replace
          (fun ph => scalarText (readParamPath params ph.path)) text := by
      refine Recogniser.replace_congr (g := Placeholder.path) hmt ?_
      intro ph hph
      obtain ⟨front, l, rest, hl, hr⟩ := Recogniser.exists_read_of_mem hph
      rw [hlk hl hr]
      exact webText_own (h.values hw hl hr)
    rw [hrp]
    cases hr : placeholders.read text with
    | none => rfl
    | some r =>
      obtain ⟨ph, rest⟩ := r
      cases rest with
      | nil =>
        cases hw.symm.trans (wholePlaceholder_iff.2 hr)
      | cons c rest => rfl

mutual

/-- On a value tree with plain strings the library and the web view do
the same, and what is meant: they keep the type of a parameter that
stands alone, write the others as text, write nothing for a missing one,
and keep all other text. -/
theorem substitution_agrees_tree : ∀ {v : Json},
    PlainTree web params v →
      substituteParams params v = instantiate params v
        ∧ substituteRuleParams web params v = .ofJson (instantiate params v)
  | .string _, h => ⟨substituteString_plain h, substituteRuleString_plain h⟩
  | .array _, h =>
    have hit := substitution_agrees_items h
    ⟨congrArg Json.array hit.1, congrArg WebValue.array hit.2⟩
  | .object _, h =>
    have hmm := substitution_agrees_members h
    ⟨congrArg Json.object hmm.1, congrArg WebValue.object hmm.2⟩
  | .null, _ => ⟨rfl, rfl⟩
  | .bool _, _ => ⟨rfl, rfl⟩
  | .number _, _ => ⟨rfl, rfl⟩

theorem substitution_agrees_items :
    ∀ {i : List Json}, PlainTrees web params i →
      substituteItems params i = instantiateItems params i
        ∧ substituteRuleItems web params i
          = WebValue.ofItems (instantiateItems params i)
  | [], _ => ⟨rfl, rfl⟩
  | _ :: _, h =>
    have hit := substitution_agrees_tree h.1
    have hr := substitution_agrees_items h.2
    ⟨congrArg₂ List.cons hit.1 hr.1, congrArg₂ List.cons hit.2 hr.2⟩

theorem substitution_agrees_members :
    ∀ {m : Members}, PlainTreeMembers web params m →
      substituteMembers params m = instantiateMembers params m
        ∧ substituteRuleMembers web params m
          = WebValue.ofMembers (instantiateMembers params m)
  | [], _ => ⟨rfl, rfl⟩
  | (key, _) :: _, h =>
    have hv := substitution_agrees_tree h.1
    have hr := substitution_agrees_members h.2
    ⟨congrArg₂ List.cons (congrArg (Prod.mk key) hv.1) hr.1,
      congrArg₂ List.cons (congrArg (Prod.mk key) hv.2) hr.2⟩

end

end

/-- For every plain value tree and every parameter map. -/
theorem substitution_agrees (web : Platform) (params : Members)
    (value : Json) (h : PlainTree web params value) :
    substituteParams params value = instantiate params value
      ∧ substituteRuleParams web params value
        = .ofJson (substituteParams params value) := by
  obtain ⟨hr, hweb⟩ := substitution_agrees_tree h
  exact ⟨hr, by rw [hr, hweb]⟩

/-- Test every placeholder of a text, with the text before it. -/
def spansAll (p : Text → Placeholder → Bool) (text : Text) : Bool :=
  (List.range (text.length + 1)).all fun n =>
    match placeholders.read (text.drop n) with
    | none => true
    | some (ph, _) => p (text.take n) ph

theorem of_spansAll {p : Text → Placeholder → Bool}
    (h : spansAll p text) {l : Text} (ht : text = front ++ l)
    (hr : placeholders.read l = some (ph, rest)) : p front ph := by
  have hpos := all_eq_true.1 h front.length
    (mem_range.2 (by rw [ht, length_append]; omega))
  rw [ht, drop_left, hr, take_left] at hpos
  exact hpos

/-- White space to both readers. -/
def isPlainSpace (c : Char) : Bool := isWhitespace c && isJsSpace c

instance (ph : Placeholder) : Decidable ph.Plain :=
  decidable_of_iff (ph.gap = [] ∧ ph.path.length ≤ 128
      ∧ ph.lead.all isPlainSpace = true ∧ ph.trail.all isPlainSpace = true)
    ⟨fun ⟨gap, length, lead, trail⟩ => ⟨gap, length,
        by simpa [isPlainSpace] using lead,
        by simpa [isPlainSpace] using trail⟩,
      fun h => ⟨h.gap, h.length,
        by simpa [isPlainSpace] using h.lead,
        by simpa [isPlainSpace] using h.trail⟩⟩

/-- A platform that prints integers as they are written and keeps the
order of members. -/
def plainPlatform : Platform := ⟨String.toList, id⟩

def tenParams : Members := [("delta", .number "10")]

/-- A text whose placeholders are plain ones of `delta`. -/
def plainDelta (text : Text) : Bool :=
  spansAll (fun front ph => bracesBefore front % 2 == 0 && decide ph.Plain
    && ph.path == "delta".toList) text

theorem plainText_delta (h : plainDelta text)
    (hsl : trim text = text) : PlainText plainPlatform tenParams text := by
  have hs : ∀ {front l rest : Text} {ph : Placeholder},
      text = front ++ l → placeholders.read l = some (ph, rest) →
        (bracesBefore front % 2 = 0 ∧ ph.Plain)
          ∧ ph.path = "delta".toList := by
    intro front l rest ph ht hr
    simpa using of_spansAll h ht hr
  have hv : readParamPath tenParams "delta".toList
      = some (.number "10") := by decide +kernel
  have hown : OwnPath (.object tenParams) ("delta".toList.splitOn '.') := by
    have hp : "delta".toList.splitOn '.' = ["delta".toList] := by
      decide +kernel
    have hmm : Json.member (String.ofList "delta".toList) tenParams
        = some (.number "10") := by decide +kernel
    rw [hp]
    exact ⟨by decide, trivial⟩
  refine ⟨fun ht hr => (hs ht hr).1,
    fun ht hr => (hs ht hr).2 ▸ hown,
    fun _ => ?_, fun _ => hsl⟩
  intro front l rest ph ht hr value hr'
  rw [(hs ht hr).2, hv] at hr'
  cases hr'
  rfl

theorem substitution_agrees_delta :
    substituteParams tenParams (.array [.string "{{ params.delta }}",
        .string "n={{params.delta}}!"])
        = .array [.number "10", .string "n=10!"]
      ∧ substituteRuleParams plainPlatform tenParams
          (.array [.string "{{ params.delta }}",
            .string "n={{params.delta}}!"])
        = .array [.number "10", .string "n=10!"] := by
  have hp : PlainTree plainPlatform tenParams (.array
      [.string "{{ params.delta }}", .string "n={{params.delta}}!"]) :=
    ⟨plainText_delta (by decide +kernel) (by decide +kernel),
      plainText_delta (by decide +kernel) (by decide +kernel), trivial⟩
  have hr : substituteParams tenParams (.array
      [.string "{{ params.delta }}", .string "n={{params.delta}}!"])
      = .array [.number "10", .string "n=10!"] := by decide +kernel
  refine ⟨hr, ?_⟩
  rw [(substitution_agrees plainPlatform tenParams _ hp).2, hr]
  rfl

/-- White space around a placeholder: the library gives the number, the
web view the text with the spaces. -/
theorem substitution_differs :
    substituteRuleParams plainPlatform tenParams
        (.string " {{ params.delta }} ")
      ≠ .ofJson (substituteParams tenParams
          (.string " {{ params.delta }} ")) := by
  have hr : substituteParams tenParams (.string " {{ params.delta }} ")
      = .number "10" := by decide +kernel
  have hweb : substituteRuleParams plainPlatform tenParams
      (.string " {{ params.delta }} ") = .string " 10 " := by rfl
  nofun

end TikTools.Templates
