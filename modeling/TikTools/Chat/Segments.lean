/-
Chat comments and the emotes in them.

A bracketed token of a comment becomes an image when the event's emotes
or the catalog know it, and what the event sent without a place in the
text follows at the end. No text is lost (`plain_resolve`), and an emote
is shown once for every time it was sent, more often only where the
comment names it more often.

Texts are UTF-16 code units. The case folding of the platform and its
URL parser are parameters.
-/
import TikTools.Lib.Table
import Mathlib.Data.List.DropRight

namespace TikTools.Chat

open TikTools.Lib List Table

-- ==== texts and URLs

abbrev Text := List Nat

def openBracket : Nat := 91

def closeBracket : Nat := 93

structure Url where
  protocol : Text
  hostname : Text
  username : Text
  password : Text

structure Platform where
  toLowerCase : Text → Text
  /-- `new URL`, nothing where it throws. -/
  parseUrl : Text → Option Url

/-- What `trim` strips. -/
def isSpace (unit : Nat) : Bool :=
  (9 ≤ unit ∧ unit ≤ 13) ∨ unit = 32 ∨ unit = 160 ∨ unit = 5760
    ∨ (8192 ≤ unit ∧ unit ≤ 8202) ∨ unit = 8232 ∨ unit = 8233
    ∨ unit = 8239 ∨ unit = 8287 ∨ unit = 12288 ∨ unit = 65279

def trim (text : Text) : Text :=
  ((text.dropWhile isSpace).reverse.dropWhile isSpace).reverse

def ascii (text : String) : Text := text.toList.map Char.toNat

-- ==== the catalog

structure CatalogEmote where
  id : Text
  shortcode : Text
  imageUrl : Option Text

def maxEmoteTokenLength : Nat := 32

def emoteCatalog : List CatalogEmote :=
  ["laughcry", "happy", "wow", "heart", "cry", "laugh", "angry", "shock",
    "thumbsup", "fire"].map fun id =>
      ⟨ascii id, ascii ("[" ++ id ++ "]"), none⟩

-- ==== emotes

/-- An emote of an event. A field of another type is none. -/
structure LiveEmote where
  id : Option Text
  shortcode : Option Text
  imageUrl : Option Text
  /-- A natural number. -/
  index : Option Nat

structure NormalizedEmote where
  id : Text
  shortcode : Option Text
  imageUrl : Option Text
  index : Option Nat
  deriving DecidableEq

inductive ChatSegment where
  | text (value : Text)
  | emote (id : Text) (shortcode imageUrl : Option Text)
      (fallbackText : Text)

def maxEmotesPerEvent : Nat := 64

def maxEmoteUrlLength : Nat := 2048

def maxEmoteIdLength : Nat := 128

/-- `slice(1, -1)`. -/
def inner (token : Text) : Text := token.tail.dropLast

def normalizeShortcode (value : Text) : Option Text :=
  let token := trim value
  if token.length < 3 ∨ token.head? ≠ some openBracket
      ∨ token.getLast? ≠ some closeBracket then none
  else if inner token = [] ∨ (inner token).length > maxEmoteTokenLength then
    none
  else some token

section

variable (platform : Platform)

def catalogEmoteById (id : Text) : Option CatalogEmote :=
  let key := platform.toLowerCase (trim id)
  if key = [] then none else emoteCatalog.find? fun entry => entry.id = key

def isSafeEmoteImageUrl (value : Text) : Bool :=
  let url := trim value
  if url = [] ∨ url.length > maxEmoteUrlLength then false
  else
    match platform.parseUrl url with
    | none => false
    | some parsed => parsed.protocol = ascii "https:" ∧ parsed.hostname ≠ []
      ∧ parsed.username = [] ∧ parsed.password = []

/-- One round of `normalizeEmoteList`. -/
def normalizeEmote (emote : LiveEmote) : Option NormalizedEmote := do
  let rawId := trim (← emote.id)
  let shortcode := emote.shortcode.bind normalizeShortcode
  let imageUrl := (emote.imageUrl.filter
    (isSafeEmoteImageUrl platform)).map trim
  if rawId = [] ∧ shortcode = none ∧ imageUrl = none then none
  else if rawId.length > maxEmoteIdLength then none
  else
    some {
      id := if rawId ≠ [] then rawId
        else ((shortcode.map inner).filter (· ≠ [])).getD (ascii "emote")
      shortcode, imageUrl
      index := emote.index }

/-- An entry that is no object is none. -/
def normalizeEmoteList (emotes : List (Option LiveEmote)) :
    List NormalizedEmote :=
  (emotes.filterMap fun emote => emote.bind (normalizeEmote platform)).take
    maxEmotesPerEvent

/-- The map of `normalizeEmotes`; the first entry of a key counts. -/
def normalizeEmotes (emotes : List NormalizedEmote) :
    List (Text × NormalizedEmote) :=
  emotes.flatMap fun entry =>
    let catalogEntry := catalogEmoteById platform entry.id
    let keys := (entry.shortcode.map fun token =>
        platform.toLowerCase (inner token)).toList
      ++ (catalogEntry.map (·.id)).toList
    let normalized := match catalogEntry with
      | some found => { entry with shortcode := some found.shortcode }
      | none => entry
    keys.map fun key => (key, normalized)

-- ==== indices

/-- The characters of a text; a surrogate without its other half is one
of its own. -/
def characters : Text → List Text
  | high :: low :: rest =>
    if 0xD800 ≤ high ∧ high ≤ 0xDBFF ∧ 0xDC00 ≤ low ∧ low ≤ 0xDFFF then
      [high, low] :: characters rest
    else [high] :: characters (low :: rest)
  | [unit] => [[unit]]
  | [] => []

def utf8ByteLength : Text → Nat
  | [unit] => if unit ≤ 0x7f then 1 else if unit ≤ 0x7ff then 2 else 3
  | _ => 4

/-- The offsets at which an index may point: each character with the
offsets of its units, its number and its bytes. -/
def offsetsFrom (index : Nat) : List Text → Nat → Nat → Nat → List Nat
  | [], offset, count, bytes =>
    if count = index ∨ bytes = index then [offset] else []
  | character :: rest, offset, count, bytes =>
    (if count = index ∨ bytes = index then [offset] else [])
      ++ offsetsFrom index rest (offset + character.length) (count + 1)
        (bytes + utf8ByteLength character)

def possibleOffsets (comment : Text) (index : Nat) : List Nat :=
  ((if index ≤ comment.length then [index] else [])
    ++ offsetsFrom index (characters comment) 0 0 0).dedup

def bracketTokenAt (comment : Text) (offset : Nat) : Option Text :=
  match comment.drop offset with
  | [] => none
  | first :: rest =>
    if first = openBracket ∧ closeBracket ∈ rest then
      normalizeShortcode
        (first :: rest.takeWhile (· ≠ closeBracket) ++ [closeBracket])
    else none

structure Indexed where
  byOffset : Table Nat NormalizedEmote := ∅
  ambiguous : List Nat := []

/-- One round of `indexMatches`. -/
def indexMatch (comment : Text) (state : Indexed) (emote : NormalizedEmote) :
    Indexed :=
  let matching := match emote.index with
    | none => []
    | some index => (possibleOffsets comment index).filter fun offset =>
      match bracketTokenAt comment offset with
      | none => false
      | some token => emote.shortcode.all fun shortcode =>
        platform.toLowerCase token = platform.toLowerCase shortcode
  match matching with
  | [offset] =>
    if offset ∈ state.ambiguous then state
    else if state.byOffset[offset]?.any fun found => found.id ≠ emote.id then
      { byOffset := state.byOffset.erase offset
        ambiguous := offset :: state.ambiguous }
    else { state with byOffset := state.byOffset.insert offset emote }
  | _ => state

def indexMatches (comment : Text) (emotes : List NormalizedEmote) : Indexed :=
  emotes.foldl (indexMatch platform comment) {}

def lookupEmote (token : Text) (metadata : List (Text × NormalizedEmote)) :
    Option NormalizedEmote :=
  if token = [] ∨ token.length > maxEmoteTokenLength then none
  else
    let key := platform.toLowerCase token
    match metadata.lookup key with
    | some found => some found
    | none => (catalogEmoteById platform key).map fun found =>
      ⟨found.id, some found.shortcode, found.imageUrl, none⟩

-- ==== the loop

/-- What tells one emote from another. -/
def NormalizedEmote.shown (emote : NormalizedEmote) : Text × Option Text :=
  (emote.id, emote.imageUrl)

def NormalizedEmote.segment (emote : NormalizedEmote) (fallbackText : Text) :
    ChatSegment :=
  .emote emote.id emote.shortcode emote.imageUrl fallbackText

/-- `remaining` are the entries whose places are not in `consumed`. -/
structure Resolving where
  segments : List ChatSegment
  buffer : Text
  remaining : List NormalizedEmote

namespace Resolving

def write (state : Resolving) (text : Text) : Resolving :=
  { state with buffer := state.buffer ++ text }

def flush (state : Resolving) : Resolving :=
  if state.buffer = [] then state
  else
    { state with
      segments := state.segments ++ [.text state.buffer]
      buffer := [] }

/-- Consume the first entry that is shown alike, and push the segment. -/
def push (state : Resolving) (found : NormalizedEmote) (token : Text) :
    Resolving :=
  let flushed := state.flush
  { flushed with
    segments := flushed.segments ++ [found.segment token]
    remaining := state.remaining.eraseP fun entry =>
      entry.shown = found.shown }

end Resolving

/-- What comes before the first bracket token of a text, what stands in
it, and what follows. -/
def nextToken (text : Text) : Option (Text × Text × Text) :=
  match text.dropWhile (· ≠ openBracket) with
  | [] => none
  | _ :: tail =>
    match tail.dropWhile (· ≠ closeBracket) with
    | [] => none
    | _ :: more =>
      some (text.takeWhile (· ≠ openBracket),
        tail.takeWhile (· ≠ closeBracket), more)

def bracketed (content : Text) : Text :=
  openBracket :: content ++ [closeBracket]

/-- Where a bracket is found, it ends what comes before it. -/
theorem take_drop {stop unit : Nat} {text tail : Text}
    (h : text.dropWhile (· ≠ stop) = unit :: tail) :
    text.takeWhile (· ≠ stop) ++ stop :: tail = text := by
  have hu := head?_dropWhile_not (· ≠ stop) text
  rw [h] at hu
  have hu : unit = stop := by simpa using hu
  rw [← hu, ← h, hu, takeWhile_append_dropWhile]

variable {text before content more : Text}

theorem nextToken_some (h : nextToken text = some (before, content, more)) :
    text = before ++ (bracketed content ++ more) := by
  unfold nextToken at h
  split at h
  · cases h
  · next ho =>
    split at h
    · cases h
    · next hc =>
      cases h
      rw [bracketed, append_assoc, cons_append, cons_append, nil_append,
        take_drop hc, take_drop ho]

theorem nextToken_shorter
    (h : nextToken text = some (before, content, more)) :
    more.length < text.length := by
  rw [nextToken_some h, bracketed]
  simp only [length_append, length_cons]
  omega

/-- The loop over the tokens; `rest` is the comment from `index` on. -/
def resolveFrom (resolve : Nat → Text → Option NormalizedEmote) (index : Nat)
    (rest : Text) (state : Resolving) : Resolving :=
  match _h : nextToken rest with
  | none => state.write rest
  | some (before, content, more) =>
    let token := bracketed content
    let offset := index + before.length
    let state := state.write before
    resolveFrom resolve (offset + token.length) more
      (match resolve offset content with
      | some found => state.push found token
      | none => state.write token)
termination_by rest.length
decreasing_by exact nextToken_shorter _h

/-- What a bracket token of the comment stands for. -/
def resolver (comment : Text) (emotes : List NormalizedEmote)
    (offset : Nat) (content : Text) : Option NormalizedEmote :=
  ((indexMatches platform comment emotes).byOffset[offset]?).or
    (lookupEmote platform content (normalizeEmotes platform emotes))

def resolveChatSegments (comment : Text)
    (emotes : List (Option LiveEmote)) : List ChatSegment :=
  let emoteList := normalizeEmoteList platform emotes
  if comment = [] then
    emoteList.map fun emote => emote.segment (emote.shortcode.getD [])
  else
    let state := (resolveFrom (resolver platform comment emoteList) 0 comment
      ⟨[], [], emoteList⟩).flush
    state.segments ++ state.remaining.map fun emote => emote.segment []

end

/-- The bracket tokens of a text, by their offsets. -/
def bracketTokens (index : Nat) (rest : Text) : List (Nat × Text) :=
  match _h : nextToken rest with
  | none => []
  | some (before, content, more) =>
    let offset := index + before.length
    (offset, content)
      :: bracketTokens (offset + (bracketed content).length) more
termination_by rest.length
decreasing_by exact nextToken_shorter _h

def ChatSegment.plain : ChatSegment → Text
  | .text value => value
  | .emote _ _ _ fallbackText => fallbackText

def segmentsToPlainText (segments : List ChatSegment) : Text :=
  segments.flatMap ChatSegment.plain

namespace ChatSegment

def imageUrl : ChatSegment → Option Text
  | .text _ => none
  | .emote _ _ imageUrl _ => imageUrl

def shown : ChatSegment → Option (Text × Option Text)
  | .text _ => none
  | .emote id _ imageUrl _ => some (id, imageUrl)

end ChatSegment

-- ==== the text

namespace Resolving

/-- The text resolved so far. -/
def plain (state : Resolving) : Text :=
  segmentsToPlainText state.segments ++ state.buffer

theorem plain_write (s : Resolving) (text : Text) :
    (s.write text).plain = s.plain ++ text :=
  (append_assoc _ _ _).symm

theorem plain_flush (s : Resolving) :
    segmentsToPlainText s.flush.segments = s.plain := by
  unfold flush plain
  split
  · next h => rw [h, append_nil]
  · unfold segmentsToPlainText
    rw [flatMap_append, flatMap_singleton]
    rfl

theorem plain_push (state : Resolving) (found : NormalizedEmote)
    (token : Text) :
    (state.push found token).plain = state.plain ++ token := by
  have hf := state.plain_flush
  have hb : state.flush.buffer = [] := by
    unfold flush
    split
    · next h => exact h
    · rfl
  unfold push plain
  dsimp only
  rw [hb, append_nil]
  unfold segmentsToPlainText at hf ⊢
  rw [flatMap_append, hf, flatMap_singleton]
  rfl

end Resolving

variable {resolve : Nat → Text → Option NormalizedEmote}

theorem plain_resolveFrom (index : Nat) (rest : Text) (state : Resolving) :
    (resolveFrom resolve index rest state).plain = state.plain ++ rest := by
  fun_induction resolveFrom resolve index rest state with
  | case1 => rw [Resolving.plain_write]
  | case2 index rest state before content more h token offset w ih =>
    have hw : w.plain = state.plain ++ before :=
      Resolving.plain_write state before
    have hp : (match resolve offset content with
        | some found => w.push found token
        | none => w.write token).plain = w.plain ++ token := by
      cases resolve offset content with
      | some found => exact w.plain_push found token
      | none => exact w.plain_write token
    rw [ih, hp, hw, nextToken_some h, append_assoc, append_assoc]

-- ==== what was sent

/-- What is left of a list once each of some emotes took away the first
that is shown alike. -/
def leftover (sent resolved : List NormalizedEmote) : List NormalizedEmote :=
  resolved.foldl (fun left found =>
    left.eraseP fun entry => entry.shown = found.shown) sent

theorem leftover_sublist (sent r : List NormalizedEmote) :
    (leftover sent r).Sublist sent := by
  induction r generalizing sent with
  | nil => exact Sublist.refl _
  | cons found rest ih => exact (ih _).trans (eraseP_sublist ..)

theorem count_leftover (sent r : List NormalizedEmote)
    (pair : Text × Option Text) :
    ((leftover sent r).map NormalizedEmote.shown).count pair
      = (sent.map NormalizedEmote.shown).count pair
        - (r.map NormalizedEmote.shown).count pair := by
  induction r generalizing sent with
  | nil => exact (Nat.sub_zero _).symm
  | cons f rest ih =>
    have hes : (sent.eraseP fun e => e.shown = f.shown).map
        NormalizedEmote.shown
        = (sent.map NormalizedEmote.shown).erase f.shown := by
      rw [erase_eq_eraseP', eraseP_map]
      refine congrArg (map NormalizedEmote.shown) ?_
      congr 1
      funext e
      exact (Bool.beq_eq_decide_eq _ _).symm
    show ((leftover (sent.eraseP _) rest).map _).count pair = _
    rw [ih, hes, count_erase, map_cons, count_cons]
    omega

namespace Resolving

theorem remaining_flush (s : Resolving) :
    s.flush.remaining = s.remaining := by
  unfold flush
  split <;> rfl

theorem segments_flush (s : Resolving) :
    s.flush.segments.filterMap ChatSegment.shown
      = s.segments.filterMap ChatSegment.shown := by
  unfold flush
  split
  · rfl
  · rw [filterMap_append]
    exact append_nil _

end Resolving

/-- What the tokens of a text stand for, in order. -/
def resolutions (resolve : Nat → Text → Option NormalizedEmote)
    (index : Nat) (rest : Text) : List NormalizedEmote :=
  (bracketTokens index rest).filterMap fun token => resolve token.1 token.2

theorem bracketTokens_some {i : Nat}
    (h : nextToken text = some (before, content, more)) :
    bracketTokens i text = (i + before.length, content)
      :: bracketTokens (i + before.length + (bracketed content).length)
        more := by
  rw [bracketTokens]
  split
  · next h' => cases h.symm.trans h'
  · next h' =>
    cases h.symm.trans h'
    rfl

/-- The loop shows every resolution, and each takes away what is shown
alike. -/
theorem resolveFrom_resolutions (i : Nat) (r : Text)
    (s : Resolving) :
    (resolveFrom resolve i r s).remaining
        = leftover s.remaining (resolutions resolve i r)
      ∧ (resolveFrom resolve i r s).segments.filterMap
          ChatSegment.shown
        = s.segments.filterMap ChatSegment.shown
          ++ (resolutions resolve i r).map NormalizedEmote.shown := by
  unfold resolutions
  fun_induction resolveFrom resolve i r s with
  | case1 i r s h =>
    have hnone : bracketTokens i r = [] := by
      rw [bracketTokens]
      split
      · rfl
      · next h' => cases h.symm.trans h'
    rw [hnone]
    exact ⟨rfl, (append_nil _).symm⟩
  | case2 i r s before content more h token o written ih =>
    rw [ih.1, ih.2, bracketTokens_some h, filterMap_cons]
    cases hf : resolve o content with
    | none =>
      simp only
      exact ⟨rfl, rfl⟩
    | some found =>
      simp only
      unfold Resolving.push
      dsimp only
      rw [filterMap_append, Resolving.segments_flush, append_assoc, map_cons]
      exact ⟨rfl, rfl⟩

-- ==== images

section

variable {platform : Platform}

theorem trim_trim (text : Text) : trim (trim text) = trim text := by
  have hh : ∀ text : Text, (trim text).dropWhile isSpace = trim text := by
    intro text
    rw [dropWhile_eq_self_iff]
    intro h
    have hl : trim text <+: text.dropWhile isSpace :=
      rdropWhile_prefix isSpace (text.dropWhile isSpace)
    have hne := ne_nil_of_length_pos (h.trans_le hl.length_le)
    rw [hl.getElem h]
    have hnot := head_dropWhile_not isSpace hne
    rw [head_eq_getElem] at hnot
    exact Bool.eq_false_iff.1 hnot
  rw [trim, hh]
  exact rdropWhile_idempotent isSpace (text.dropWhile isSpace)

/-- An image that may be shown: from an entry, or from the catalog. -/
def Sourced (platform : Platform) (emotes : List NormalizedEmote)
    (url : Text) : Prop :=
  isSafeEmoteImageUrl platform url = true
    ∧ ((∃ entry ∈ emotes, entry.imageUrl = some url)
      ∨ ∃ entry ∈ emoteCatalog, entry.imageUrl = some url)

theorem normalized_safe {em : List (Option LiveEmote)}
    {e : NormalizedEmote} {url : Text}
    (hen : e ∈ normalizeEmoteList platform em)
    (hu : e.imageUrl = some url) :
    isSafeEmoteImageUrl platform url = true := by
  obtain ⟨_, -, hsm⟩ := mem_filterMap.1 (mem_of_mem_take hen)
  obtain ⟨emote, -, hem⟩ := Option.bind_eq_some_iff.1 hsm
  unfold normalizeEmote at hem
  obtain ⟨id, -, hem⟩ := Option.bind_eq_some_iff.1 hem
  dsimp only at hem
  split at hem
  · cases hem
  split at hem
  · cases hem
  cases hem
  obtain ⟨raw, h, rfl⟩ := Option.map_eq_some_iff.1 hu
  have hs := (Option.filter_eq_some_iff.1 h).2
  unfold isSafeEmoteImageUrl at hs ⊢
  rwa [trim_trim]

theorem indexMatches_mem {c : Text} {emotes : List NormalizedEmote}
    {offset : Nat} {entry : NormalizedEmote}
    (h : (indexMatches platform c emotes).byOffset[offset]?
      = some entry) : entry ∈ emotes := by
  -- what the map holds was put there by a round over the list
  have hf : ∀ (rest : List NormalizedEmote) (s : Indexed),
      rest ⊆ emotes →
      (∀ (offset : Nat) (entry : NormalizedEmote),
        s.byOffset[offset]? = some entry → entry ∈ emotes) →
      ∀ (offset : Nat) (entry : NormalizedEmote),
        (rest.foldl (indexMatch platform c) s).byOffset[offset]?
          = some entry → entry ∈ emotes := by
    intro rest
    induction rest with
    | nil => exact fun _ _ hs => hs
    | cons emote rest ih =>
      intro s hsub hs
      obtain ⟨hem, hr⟩ := cons_subset.1 hsub
      refine ih _ hr fun offset entry hen => ?_
      unfold indexMatch at hen
      dsimp only at hen
      split at hen
      · split at hen
        · exact hs offset entry hen
        split at hen
        · dsimp only at hen
          rw [get_erase] at hen
          split at hen
          · cases hen
          · exact hs offset entry hen
        · dsimp only at hen
          rw [get_insert] at hen
          split at hen
          · cases hen
            exact hem
          · exact hs offset entry hen
      · exact hs offset entry hen
  exact hf emotes {} (Subset.refl _) (fun _ _ hn => by simp at hn)
    offset entry h

theorem normalizeEmotes_url {em : List NormalizedEmote} {key : Text}
    {f : NormalizedEmote}
    (h : (key, f) ∈ normalizeEmotes platform em) :
    ∃ e ∈ em, e.imageUrl = f.imageUrl := by
  obtain ⟨e, hen, hin⟩ := mem_flatMap.1 h
  dsimp only at hin
  obtain ⟨_, -, heq⟩ := mem_map.1 hin
  cases heq
  refine ⟨e, hen, ?_⟩
  split <;> rfl

/-- What a token stands for has the image of an entry or of the catalog,
which has none. -/
theorem resolver_url {c : Text} {emotes : List NormalizedEmote}
    {offset : Nat} {content url : Text} {found : NormalizedEmote}
    (h : resolver platform c emotes offset content = some found)
    (hurl : found.imageUrl = some url) :
    ∃ entry ∈ emotes, entry.imageUrl = some url := by
  unfold resolver at h
  rcases Option.or_eq_some_iff.1 h with hin | ⟨-, hl⟩
  · exact ⟨found, indexMatches_mem hin, hurl⟩
  · unfold lookupEmote at hl
    split at hl
    · cases hl
    dsimp only at hl
    split at hl
    · next known hk =>
      cases hl
      obtain ⟨before, after, heq, -⟩ := lookup_eq_some_iff.1 hk
      obtain ⟨entry, hen, him⟩ := normalizeEmotes_url (heq ▸
        mem_append_right before mem_cons_self)
      exact ⟨entry, hen, him.trans hurl⟩
    · obtain ⟨entry, hen, rfl⟩ := Option.map_eq_some_iff.1 hl
      unfold catalogEmoteById at hen
      dsimp only at hen
      split at hen
      · cases hen
      · obtain ⟨id, -, rfl⟩ := mem_map.1 (mem_of_find?_eq_some hen)
        cases hurl

theorem plain_resolve (platform : Platform) (comment : Text)
    (emotes : List (Option LiveEmote)) (hne : comment ≠ []) :
    segmentsToPlainText (resolveChatSegments platform comment emotes)
      = comment := by
  unfold resolveChatSegments
  rw [if_neg hne]
  dsimp only
  unfold segmentsToPlainText
  rw [flatMap_append]
  have ht : ∀ left : List NormalizedEmote,
      (left.map fun emote => emote.segment []).flatMap ChatSegment.plain
        = [] := by
    intro left
    induction left with
    | nil => rfl
    | cons entry rest ih => exact ih
  rw [ht, append_nil]
  exact (Resolving.plain_flush _).trans (plain_resolveFrom _ _ _)

/-- Segments of a comment's text and tokens, and then of the emotes that
no token took away. -/
structure Split (platform : Platform) (comment : Text)
    (sent : List NormalizedEmote) (segments body : List ChatSegment)
    (trailing : List NormalizedEmote) : Prop where
  segments_eq : segments = body ++ trailing.map fun entry => entry.segment
    (if comment = [] then entry.shortcode.getD [] else [])
  shown_body : body.filterMap ChatSegment.shown
    = (resolutions (resolver platform comment sent) 0 comment).map
        NormalizedEmote.shown
  in_order : trailing.Sublist sent
  counts : ∀ pair, (trailing.map NormalizedEmote.shown).count pair
    = (sent.map NormalizedEmote.shown).count pair
      - ((resolutions (resolver platform comment sent) 0 comment).map
          NormalizedEmote.shown).count pair

theorem split_resolve (platform : Platform) (c : Text)
    (e : List (Option LiveEmote)) :
    ∃ body trailing, Split platform c
      (normalizeEmoteList platform e)
      (resolveChatSegments platform c e) body trailing := by
  unfold resolveChatSegments
  dsimp only
  generalize normalizeEmoteList platform e = sent
  by_cases hem : c = []
  · subst hem
    have hn : resolutions (resolver platform [] sent) 0 [] = [] := by
      unfold resolutions
      rw [bracketTokens]
      rfl
    refine ⟨[], sent, rfl, ?_, Sublist.refl _, ?_⟩
    all_goals rw [hn]
    · rfl
    · exact fun _ => rfl
  · rw [if_neg hem]
    obtain ⟨hl, hs⟩ := @resolveFrom_resolutions
      (resolver platform c sent) 0 c ⟨[], [], sent⟩
    rw [← Resolving.remaining_flush] at hl
    rw [← Resolving.segments_flush] at hs
    generalize (resolveFrom _ 0 c _).flush = state at hl hs ⊢
    refine ⟨state.segments, state.remaining, ?_, hs, ?_, ?_⟩
    · simp only [if_neg hem]
    · exact hl ▸ leftover_sublist _ _
    · exact hl ▸ count_leftover _ _

/-- The segments of a comment are its text, show safe images of what was
sent, and each emote as often as it was sent. -/
theorem chat_segments_preserve (platform : Platform) (comment : Text)
    (emotes : List (Option LiveEmote)) :
    (comment ≠ [] →
      segmentsToPlainText (resolveChatSegments platform comment emotes)
        = comment)
      ∧ (∀ segment ∈ resolveChatSegments platform comment emotes,
        ∀ url, segment.imageUrl = some url →
          Sourced platform (normalizeEmoteList platform emotes) url)
      ∧ ∃ body trailing, Split platform comment
        (normalizeEmoteList platform emotes)
        (resolveChatSegments platform comment emotes) body trailing := by
  obtain ⟨body, trailing, hs⟩ := split_resolve platform comment emotes
  refine ⟨plain_resolve platform comment emotes, ?_, body, trailing, hs⟩
  intro segment hsg url hurl
  have hsr : ∃ entry ∈ normalizeEmoteList platform emotes,
      entry.imageUrl = some url := by
    rw [hs.segments_eq] at hsg
    rcases mem_append.1 hsg with hin | hin
    · have hsh : ∃ id, segment.shown = some (id, some url) := by
        cases segment with
        | text value => cases hurl
        | emote id shortcode imageUrl fallbackText =>
          cases hurl
          exact ⟨id, rfl⟩
      obtain ⟨id, hid⟩ := hsh
      have hmem := mem_filterMap.2 ⟨segment, hin, hid⟩
      rw [hs.shown_body] at hmem
      obtain ⟨found, hf, hp⟩ := mem_map.1 hmem
      obtain ⟨token, -, hr⟩ := mem_filterMap.1 hf
      exact resolver_url hr (congrArg Prod.snd hp)
    · obtain ⟨entry, hen, rfl⟩ := mem_map.1 hin
      exact ⟨entry, hs.in_order.subset hen, hurl⟩
  obtain ⟨entry, hen, him⟩ := hsr
  exact ⟨normalized_safe hen him, .inl ⟨entry, hen, him⟩⟩

end

end TikTools.Chat
