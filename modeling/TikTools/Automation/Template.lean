/-
Templates: the `{{ path }}` spans of automation texts and how they are
filled in.

Two renderers are in use. The automation runtime fills spans from the
global variables and the event (`renderTemplate`), a declarative action
fills them from a scope object (`renderScopedTemplate`). Both scan a
text once, left to right; what a span is replaced by is not scanned
again in the same pass.

A text without the pair `{{` comes out of a pass unchanged whatever the
spans stand for, and no other text does (`renderTemplate_fixed_iff`):
that is what a second pass over an already rendered text comes down to.
-/
import TikTools.Lib.Json
import TikTools.Lib.Text
import Mathlib.Data.List.Infix

namespace TikTools.Automation

open TikTools.Lib List

abbrev Text := List Char

/-- The snapshot of the global variables, in key order. -/
abbrev Globals := List (String × String)

-- ==== the scanner

/-- The text before and after the first `cc`. -/
def splitPair (c : Char) : Text → Option (Text × Text)
  | a :: b :: rest =>
    if a = c ∧ b = c then some ([], rest)
    else (splitPair c (b :: rest)).map fun (before, after) =>
      (a :: before, after)
  | _ => none

inductive SpanAction where
  | render (text : Text)
  | drop
  | keep

/-- What an action puts in the place of the span `path`. -/
def SpanAction.text (path : Text) : SpanAction → Text
  | .render text => text
  | .drop => []
  | .keep => '{' :: '{' :: path ++ ['}', '}']

/-- `substituteSpans` for a text of at most `fuel` characters. -/
def substituteSpansIn (resolve : Text → SpanAction) : Nat → Text → Text
  | 0, source => source
  | fuel + 1, source =>
    match splitPair '{' source with
    | none => source
    | some (before, expression) =>
      match splitPair '}' expression with
      -- the rest is pushed by the early exit and again after the loop
      | none => before ++ '{' :: '{' :: expression ++ source
      | some (path, rest) =>
        before ++ (resolve (trim path)).text path
          ++ substituteSpansIn resolve fuel rest

/-- Replace every span of the text by what its trimmed path resolves
to. -/
def substituteSpans (source : Text) (resolve : Text → SpanAction) : Text :=
  substituteSpansIn resolve source.length source

-- ==== reading paths

/-- `scheme:///path` has no host. -/
def hasEmptyAuthority : Text → Bool
  | ':' :: '/' :: '/' :: rest => rest.head? == some '/'
  | _ :: rest => hasEmptyAuthority rest
  | [] => false

def isGlobalsPath (path : Text) : Bool :=
  path == "globals".toList || "globals.".toList.isPrefixOf path

/-- The text of a value inside a rendered text. -/
def valueToString : Json → Text
  | .null => []
  | .string value => value.toList
  | value => value.encode

/-- Dots in the names of globals are literal; the bare `globals` reads
the whole snapshot. -/
def readGlobalPath (globals : Globals) (path : Text) : Option Text :=
  if path = "globals".toList then
    some (valueToString (.object
      (globals.map fun g => (g.1, Json.string g.2))))
  else do
    let key ← "globals.".toList.isPrefixOf? path
    (globals.lookup (String.ofList key)).map String.toList

/-- The non-empty parts of a dotted path. -/
def pathParts (path : Text) : List String :=
  ((path.splitOn '.').filter (· ≠ [])).map String.ofList

/-- Walk down a value, one object key per part. -/
def readParts (value : Json) (parts : List String) : Option Json :=
  parts.foldlM (fun current part => current.get part) value

/-- Without the dots at both ends. -/
def trimDots (path : Text) : Text :=
  ((path.dropWhile (· = '.')).reverse.dropWhile (· = '.')).reverse

/-- The parts an event path walks: a leading `event.` and then a
leading `event` are no part of it. -/
def eventParts (path : Text) : List String :=
  let path := trim path
  let path := ("event.".toList.isPrefixOf? path).getD path
  let path := ("event".toList.isPrefixOf? path).getD path
  pathParts (trimDots path)

def readEventPath (event : Json) (path : Text) : Option Json :=
  readParts event (eventParts path)

-- ==== the renderers

/-- What a span stands for at run time: globals from the snapshot,
everything else from the event. -/
def resolveSpan (event : Json) (globals : Globals) (path : Text) :
    SpanAction :=
  match readGlobalPath globals path with
  | some text => .render text
  | none =>
    if isGlobalsPath path then .drop
    else
      match readEventPath event path with
      | some value => .render (valueToString value)
      | none => .drop

/-- Full runtime render. -/
def renderTemplate (source : Text) (event : Json) (globals : Globals) :
    Text :=
  substituteSpans source (resolveSpan event globals)

/-- The first pass over a URL: only `{{ globals.* }}` resolves, every
other span stays for the second pass. -/
def renderGlobalsOnly (source : Text) (globals : Globals) : Text :=
  substituteSpans source fun path =>
    match readGlobalPath globals path with
    | some text => .render text
    | none => if isGlobalsPath path then .drop else .keep

def readScopePath (scope : Json) (path : Text) : Option Json :=
  readParts scope (pathParts path)

/-- `renderScopedTemplate` for a text of at most `fuel` characters. -/
def renderScopedIn (scope : Json) : Nat → Text → Text
  | 0, source => source
  | fuel + 1, source =>
    match splitPair '{' source with
    | none => source
    | some (before, expression) =>
      match splitPair '}' expression with
      | none => source
      | some (path, rest) =>
        before
          ++ ((readScopePath scope (trim path)).map valueToString).getD []
          ++ renderScopedIn scope fuel rest

/-- Render `{{ dotted.path }}` spans against a scope object; unknown
paths render empty. -/
def renderScopedTemplate (source : Text) (scope : Json) : Text :=
  renderScopedIn scope source.length source

-- ==== what a pass changes

variable {c : Char}

variable {source path : Text}

theorem eq_of_splitPair {before after : Text}
    (h : splitPair c source = some (before, after)) :
    source = before ++ c :: c :: after := by
  induction source generalizing before with
  | nil => simp [splitPair] at h
  | cons a source ih =>
    cases source with
    | nil => simp [splitPair] at h
    | cons b rest =>
      simp only [splitPair] at h
      split at h
      · next hab =>
        obtain ⟨rfl, rfl⟩ := hab
        obtain ⟨rfl, rfl⟩ := h
        rfl
      · obtain ⟨⟨tail, _⟩, ht, heq⟩ := Option.map_eq_some_iff.1 h
        obtain ⟨rfl, rfl⟩ := heq
        rw [ih ht, cons_append]

theorem splitPair_eq_none_iff :
    splitPair c source = none ↔ ¬ [c, c] <:+: source := by
  constructor
  · intro h hinf
    obtain ⟨s, t, rfl⟩ := hinf
    induction s with
    | nil => simp [splitPair] at h
    | cons a s ih =>
      cases s with
      | nil =>
        change splitPair c (a :: c :: c :: t) = none at h
        rw [splitPair] at h
        split at h
        · cases h
        · exact ih (Option.map_eq_none_iff.1 h)
      | cons b s =>
        change splitPair c (a :: b :: (s ++ [c, c] ++ t)) = none at h
        rw [splitPair] at h
        split at h
        · cases h
        · exact ih (Option.map_eq_none_iff.1 h)
  · intro h
    cases hs : splitPair c source with
    | none => rfl
    | some found =>
      refine absurd ?_ h
      rw [eq_of_splitPair hs]
      exact ⟨found.1, found.2, by simp⟩

theorem substituteSpans_eq_self
    (h : ¬ ['{', '{'] <:+: source) (r : Text → SpanAction) :
    substituteSpans source r = source := by
  have hn := splitPair_eq_none_iff.2 h
  unfold substituteSpans
  cases source with
  | nil => rfl
  | cons a rest =>
    simp only [length_cons, substituteSpansIn, hn]

theorem length_substituteSpansIn_le {r r' : Text → SpanAction}
    (h : ∀ path span, ((r path).text span).length
      ≤ ((r' path).text span).length) :
    ∀ fuel source, (substituteSpansIn r fuel source).length
      ≤ (substituteSpansIn r' fuel source).length
  | 0, source => Nat.le_refl _
  | fuel + 1, source => by
    simp only [substituteSpansIn]
    cases ho : splitPair '{' source with
    | none => exact Nat.le_refl _
    | some f =>
      obtain ⟨before, e⟩ := f
      cases hc : splitPair '}' e with
      | none =>
        simp only [hc]
        exact Nat.le_refl _
      | some f =>
        obtain ⟨path, rest⟩ := f
        have hr := length_substituteSpansIn_le h fuel rest
        have hs := h (trim path) path
        simp only [hc, length_append]
        omega

/-- The smallest value that has `leaf` at the end of the path. -/
def nest (parts : List String) (leaf : Json) : Json :=
  parts.foldr (fun part value => .object [(part, value)]) leaf

theorem readParts_nest (l : Json) : ∀ p,
    readParts (nest p l) p = some l
  | [] => rfl
  | pa :: p => by
    show (Json.get pa (.object [(pa, nest p l)])).bind
      (fun v => readParts v p) = some l
    simp [Json.get, Json.member, readParts_nest l p]

theorem readParts_null {p : List String} {v : Json}
    (h : readParts .null p = some v) : v = .null := by
  cases p with
  | nil =>
    cases h
    rfl
  | cons part p => cases h

theorem readGlobalPath_nil (h : path ≠ "globals".toList) :
    readGlobalPath [] path = none := by
  simp only [readGlobalPath, if_neg h]
  cases "globals.".toList.isPrefixOf? path <;> rfl

theorem resolveSpan_null (h : path ≠ "globals".toList)
    (s : Text) : (resolveSpan .null [] path).text s = [] := by
  unfold resolveSpan
  rw [readGlobalPath_nil h]
  dsimp only
  split
  · rfl
  · cases hr : readEventPath .null path with
    | none => rfl
    | some value =>
      obtain rfl := readParts_null hr
      rfl

theorem resolveSpan_globals (e : Json) (globals : Globals)
    (s : Text) :
    (resolveSpan e globals "globals".toList).text s
      = Json.encode (.object (globals.map fun g => (g.1, .string g.2))) :=
  rfl

variable {globals : Globals}

theorem resolveSpan_global {e : Json} {text : Text}
    (h : readGlobalPath globals path = some text) :
    resolveSpan e globals path = .render text := by
  rw [resolveSpan, h]

theorem resolveSpan_event {e v : Json}
    (hg : readGlobalPath globals path = none)
    (h : isGlobalsPath path = false)
    (hr : readEventPath e path = some v) :
    resolveSpan e globals path = .render (valueToString v) := by
  rw [resolveSpan, hg, h, hr]
  rfl

theorem length_resolveSpan_null_le (e : Json) (globals : Globals)
    (path s : Text) :
    ((resolveSpan .null [] path).text s).length
      ≤ ((resolveSpan e globals path).text s).length := by
  by_cases hp : path = "globals".toList
  · subst hp
    rw [resolveSpan_globals, resolveSpan_globals]
    simp only [Json.encode, length_cons, length_append,
      map_nil, Json.encodeMembers, length_nil]
    omega
  · rw [resolveSpan_null hp]
    exact Nat.zero_le _

theorem exists_longer_span (path : Text) : ∃ event globals, ∀ span,
    ((resolveSpan .null [] path).text span).length
      < ((resolveSpan event globals path).text span).length := by
  by_cases hp : path = "globals".toList
  · subst hp
    refine ⟨.null, [("", "")], fun span => ?_⟩
    rw [resolveSpan_globals, resolveSpan_globals]
    decide
  · cases hkey : isGlobalsPath path with
    | true =>
      -- a global of this name
      simp only [isGlobalsPath, Bool.or_eq_true, beq_iff_eq, hp,
        false_or, isPrefixOf_iff_prefix] at hkey
      obtain ⟨key, rfl⟩ := hkey
      refine ⟨.null, [(String.ofList key, "x")], fun span => ?_⟩
      have hr : readGlobalPath [(String.ofList key, "x")]
          ("globals.".toList ++ key) = some ['x'] := by
        rw [readGlobalPath, if_neg hp,
          isPrefixOf?_eq_some_iff_append_eq.2 rfl]
        simp
      rw [resolveSpan_null hp, resolveSpan_global hr]
      exact Nat.zero_lt_one
    | false =>
      refine ⟨nest (eventParts path) (.string "x"), [], fun span => ?_⟩
      have hr : readEventPath (nest (eventParts path) (.string "x"))
          path = some (.string "x") := readParts_nest _ _
      rw [resolveSpan_null hp,
        resolveSpan_event (readGlobalPath_nil hp) hkey hr]
      exact Nat.zero_lt_one

/-- A pass leaves a text alone, whatever the spans stand for, exactly
when the text has no opening pair. -/
theorem renderTemplate_fixed_iff :
    (∀ event globals, renderTemplate source event globals = source)
      ↔ ¬ ['{', '{'] <:+: source := by
  refine ⟨fun h => ?_, fun h event globals =>
    substituteSpans_eq_self h _⟩
  rw [← splitPair_eq_none_iff]
  cases ho : splitPair '{' source with
  | none => rfl
  | some f =>
    exfalso
    obtain ⟨b, e⟩ := f
    have hsrc := eq_of_splitPair ho
    obtain ⟨n, hn⟩ : ∃ n, source.length = n + 1 :=
      ⟨b.length + e.length + 1, by
        rw [hsrc]
        simp only [length_append, length_cons]
        omega⟩
    cases hc : splitPair '}' e with
    | none =>
      -- the unclosed rest is written twice
      have hlen := congrArg List.length (h .null [])
      simp only [renderTemplate, substituteSpans, hn,
        substituteSpansIn, ho, hc, length_append,
        length_cons] at hlen
      omega
    | some f =>
      -- two runs that replace the first span by different lengths
      obtain ⟨path, rest⟩ := f
      obtain ⟨event, globals, hl⟩ := exists_longer_span (trim path)
      have hlow := congrArg List.length (h .null [])
      have hh := congrArg List.length (h event globals)
      have hr := length_substituteSpansIn_le
        (length_resolveSpan_null_le event globals) n rest
      have hs := hl path
      simp only [renderTemplate, substituteSpans, hn,
        substituteSpansIn, ho, hc, length_append]
        at hlow hh
      omega

end TikTools.Automation
