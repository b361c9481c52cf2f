/-
Merging processor results into an event, and what becomes of its stable
projection.

Every result leaves its provider's own copy under
`intel.providers.<plugin>`. Beside it, the first valid `comment` and
`user` annotations and the first projectable `comment` and `nickname`
views become the fields other plugins read: `intel.comment`,
`intel.user` and the `tts` objects in them. `StableOwnership` remembers
which of the four have been written.

# First writer wins, almost

Nothing else under `intel` touches the two fields, so each is a field
with a slot (`commentField`, `userField`), offered by one result after
the other, and `parts_mergeOutcome` says that merging is just that. An
annotation replaces its field as a whole, after dropping a `tts` of its
own. When the view came first, from an earlier processor, that drops the
`tts` the view had established. `stable_projection_iff` says that this is
the only way for an established field to change.

How a typed annotation is read and how a confidence compares with one
are left to a parameter, `Contract`.
-/
import TikTools.Lib.FirstWriter
import TikTools.Lib.Json
import TikTools.Lib.Runs
import TikTools.Lib.Text

namespace TikTools.Processors.Merge

open TikTools.Lib Option

/-- The members of an object, in key order. -/
abbrev Members := List (String × Json)

-- ==== child access

/-- The members of a value, none when it is no object. -/
def membersOf (value : Json) : Members := value.asObject.getD []

/-- The named child as an object, empty when it is missing or mistyped. -/
def childObject (key : String) (parent : Json) : Json :=
  match parent.get key with
  | some (.object members) => .object members
  | _ => .object []

/-- Put a child in place; a parent that is no object becomes one. -/
def withChild (key : String) (child parent : Json) : Json :=
  .object (Json.setMember key child (membersOf parent))

/-- Change the child `ensure_child_object` returns. -/
def modifyChildObject (key : String) (f : Json → Json) (parent : Json) :
    Json :=
  withChild key (f (childObject key parent)) parent

/-- Change the child `ensure_child_value` returns. -/
def modifyChildValue (key : String) (f : Json → Json) (parent : Json) :
    Json :=
  withChild key (f ((parent.get key).getD .null)) parent

@[simp] theorem get_withChild_self (key : String) (child parent : Json) :
    (withChild key child parent).get key = some child :=
  Json.member_setMember_self key child _

theorem get_withChild_ne {key other : String} (child parent : Json)
    (h : key ≠ other) :
    (withChild key child parent).get other = parent.get other := by
  have hmm := Json.member_setMember_ne child h (membersOf parent)
  cases parent <;> exact hmm

mutual

/-- Merge a value into another, objects member by member. -/
def deepMerge : (target source : Json) → Json
  | .object target, .object source => .object (deepMergeMembers target source)
  | _, source => source

def deepMergeMembers : (target source : Members) → Members
  | target, [] => target
  | target, (key, value) :: source =>
    match Json.member key target with
    | some slot =>
      deepMergeMembers
        (Json.setMember key (deepMerge slot value) target) source
    | none => deepMergeMembers (Json.setMember key value target) source

end

-- ==== text views

/-- Pronunciation evidence for one view. Confidences are kept by their
text. -/
structure TextPronunciation where
  ipa : Option String
  language : Option String
  dialect : Option String
  confidence : Option String

structure TextView where
  text : String
  language : Option String
  confidence : Option String
  source : String
  speak : Bool
  reason : Option String
  pronunciation : Option TextPronunciation

/-- A member that is left out when there is nothing to say. -/
def optional (key : String) (value : Option Json) : Members :=
  match value with
  | some value => [(key, value)]
  | none => []

def TextPronunciation.toJson (p : TextPronunciation) : Json :=
  .object (optional "confidence" (p.confidence.map .number)
    ++ optional "dialect" (p.dialect.map .string)
    ++ optional "ipa" (p.ipa.map .string)
    ++ optional "language" (p.language.map .string))

/-- A view as it is written out; a projected `tts` looks the same. -/
def TextView.toJson (view : TextView) : Json :=
  .object (optional "confidence" (view.confidence.map .number)
    ++ optional "language" (view.language.map .string)
    ++ optional "pronunciation"
      (view.pronunciation.map TextPronunciation.toJson)
    ++ optional "reason" (view.reason.map .string)
    ++ [("source", .string view.source)]
    ++ optional "speak" (if view.speak then none else some (.bool false))
    ++ [("text", .string view.text)])

/-- `user` in its canonical form. -/
structure StableUser where
  nickname : Option Members
  uniqueId : Option Json

def StableUser.toJson (user : StableUser) : Json :=
  .object (optional "nickname" (user.nickname.map .object)
    ++ optional "uniqueId" user.uniqueId)

/-- What the typed contract decides: whether an annotation has the shape
and the bounds of a stable `comment` or `user`, and what its contract
fields are; and whether a confidence lies between zero and one. -/
structure Contract where
  canonicalStableComment : Json → Option Members
  canonicalStableUser : Json → Option StableUser
  inUnit : String → Bool

/-- A text of at most `max` characters, or none. -/
def checkText (value : Option String) (max : Nat) : Bool :=
  match value with
  | some text => text.length ≤ max
  | none => true

def Contract.checkUnit (contract : Contract) (value : Option String) :
    Bool :=
  match value with
  | some confidence => contract.inUnit confidence
  | none => true

def Contract.validPronunciation (contract : Contract)
    (p : TextPronunciation) : Bool :=
  checkText p.ipa 256 && checkText p.language 32 && checkText p.dialect 32
    && contract.checkUnit p.confidence

/-- `IntelTts::validate`. -/
def Contract.validTts (contract : Contract) (view : TextView) : Bool :=
  checkText (some view.text) 8192 && checkText view.language 32
    && contract.checkUnit view.confidence && checkText (some view.source) 64
    && checkText view.reason 128
    && (view.pronunciation.map contract.validPronunciation).getD true

/-- Skip-policy views carry empty text with `speak` false; anything else
needs speakable text. -/
def Contract.projectViewTts (contract : Contract) (view : TextView) :
    Option Json :=
  if trim view.text.toList = [] ∧ view.speak then none
  else if contract.validTts view then some view.toJson
  else none

-- ==== merging

/-- What one processor returns. -/
structure EventEnrichmentResult where
  annotations : Members
  views : List (String × TextView)

/-- Outcome of one processor call; a failure contributes nothing. -/
structure ProcessorOutcome where
  pluginId : String
  result : Option EventEnrichmentResult

structure StableOwnership where
  comment : Bool
  user : Bool
  commentTts : Bool
  nicknameTts : Bool

/-- The view under a name. -/
def viewNamed (name : String) (views : List (String × TextView)) :
    Option TextView :=
  (views.find? fun view => view.1 = name).map Prod.snd

/-- One annotation into the provider's copy; `views` is reserved. -/
def mergeAnnotation (provider : Json) (entry : String × Json) : Json :=
  if entry.1 = "views" then provider
  else
    modifyChildValue entry.1 (fun slot => deepMerge slot entry.2) provider

/-- The provider's copy of a result. -/
def mergeProvider (result : EventEnrichmentResult) (provider : Json) :
    Json :=
  let provider := result.annotations.foldl mergeAnnotation provider
  if result.views.isEmpty then provider
  else
    modifyChildObject "views" (fun views =>
      result.views.foldl (fun views view =>
        modifyChildValue view.1 (fun _ => view.2.toJson) views) views)
      provider

def mergeProviderResult (event : Json) (pluginId : String)
    (result : EventEnrichmentResult) : Json :=
  modifyChildObject "intel" (modifyChildObject "providers"
    (modifyChildObject pluginId (mergeProvider result))) event

/-- The event, who owns its stable fields, and whether a contribution
was invalid. -/
structure Promotion where
  event : Json
  owned : StableOwnership
  invalid : Bool

section
variable (contract : Contract)

/-- The four contributions of a result, as far as they are valid. The
outer `none` means that there is no such contribution. -/
def commentOf (result : EventEnrichmentResult) : Option (Option Members) :=
  (Json.member "comment" result.annotations).map
    contract.canonicalStableComment

def userOf (result : EventEnrichmentResult) : Option (Option StableUser) :=
  (Json.member "user" result.annotations).map contract.canonicalStableUser

def commentTtsOf (result : EventEnrichmentResult) : Option (Option Json) :=
  (viewNamed "comment" result.views).map contract.projectViewTts

def nicknameTtsOf (result : EventEnrichmentResult) : Option (Option Json) :=
  (viewNamed "nickname" result.views).map contract.projectViewTts

/-- Views are canonical for spoken text: an annotation's `tts` never
promotes into the stable namespace. -/
def withoutTts (members : Members) : Members :=
  members.filter fun member => member.1 ≠ "tts"

def stableComment (canonical : Members) : Json :=
  .object (withoutTts canonical)

def stableUser (canonical : StableUser) : Json :=
  StableUser.toJson
    { canonical with nickname := canonical.nickname.map withoutTts }

def setComment (canonical : Members) (event : Json) : Json :=
  modifyChildObject "intel"
    (modifyChildValue "comment" fun _ => stableComment canonical) event

def setUser (canonical : StableUser) (event : Json) : Json :=
  modifyChildObject "intel"
    (modifyChildValue "user" fun _ => stableUser canonical) event

def setCommentTts (tts event : Json) : Json :=
  modifyChildObject "intel" (modifyChildObject "comment"
    (modifyChildValue "tts" fun _ => tts)) event

def setNicknameTts (tts event : Json) : Json :=
  modifyChildObject "intel" (modifyChildObject "user"
    (modifyChildObject "nickname" (modifyChildValue "tts" fun _ => tts)))
    event

def promoteComment (result : EventEnrichmentResult) (p : Promotion) :
    Promotion :=
  if p.owned.comment then p
  else
    match commentOf contract result with
    | none => p
    | some none => { p with invalid := true }
    | some (some canonical) =>
      { p with
        event := setComment canonical p.event
        owned := { p.owned with comment := true } }

def promoteUser (result : EventEnrichmentResult) (p : Promotion) :
    Promotion :=
  if p.owned.user then p
  else
    match userOf contract result with
    | none => p
    | some none => { p with invalid := true }
    | some (some canonical) =>
      { p with
        event := setUser canonical p.event
        owned := { p.owned with user := true } }

def promoteCommentTts (result : EventEnrichmentResult) (p : Promotion) :
    Promotion :=
  if p.owned.commentTts then p
  else
    match commentTtsOf contract result with
    | none => p
    | some none => { p with invalid := true }
    | some (some tts) =>
      { p with
        event := setCommentTts tts p.event
        owned := { p.owned with commentTts := true } }

def promoteNicknameTts (result : EventEnrichmentResult) (p : Promotion) :
    Promotion :=
  if p.owned.nicknameTts then p
  else
    match nicknameTtsOf contract result with
    | none => p
    | some none => { p with invalid := true }
    | some (some tts) =>
      { p with
        event := setNicknameTts tts p.event
        owned := { p.owned with nicknameTts := true } }

/-- Promote the stable contributions of one result, in this order. -/
def promoteStableFields (result : EventEnrichmentResult) (p : Promotion) :
    Promotion :=
  promoteNicknameTts contract result (promoteCommentTts contract result
    (promoteUser contract result (promoteComment contract result p)))

/-- Merge one outcome. -/
def mergeOutcome (p : Promotion) (outcome : ProcessorOutcome) : Promotion :=
  match outcome.result with
  | none => { p with invalid := true }
  | some result =>
    promoteStableFields contract result
      { p with
        event := mergeProviderResult p.event outcome.pluginId result }

/-- Nothing is merged yet. -/
def Promotion.start (event : Json) : Promotion :=
  ⟨event, ⟨false, false, false, false⟩, false⟩

/-- Mark an event some processor failed. -/
def degrade (event : Json) : Json :=
  modifyChildObject "intel" (modifyChildObject "processing"
    (modifyChildValue "status" fun _ => .string "degraded")) event

/-- The event that is returned once everything is merged. -/
def Promotion.finish (p : Promotion) : Json :=
  if p.invalid then degrade p.event else p.event

def mergeProcessorOutcomes (event : Json)
    (outcomes : List ProcessorOutcome) : Json :=
  (outcomes.foldl (mergeOutcome contract) (.start event)).finish

end

-- ==== what merging leaves

section
variable {contract : Contract} {key : String} (hkey : "intel" ≠ key)
include hkey

theorem get_modifyIntel (f : Json → Json) (e : Json) :
    (modifyChildObject "intel" f e).get key = e.get key :=
  get_withChild_ne _ e hkey

theorem get_promoteStableFields (result : EventEnrichmentResult)
    (p : Promotion) :
    (promoteStableFields contract result p).event.get key
      = p.event.get key := by
  have hc : ∀ p : Promotion,
      (promoteComment contract result p).event.get key = p.event.get key := by
    intro p
    unfold promoteComment setComment
    split <;> try split
    all_goals first | rfl | exact get_modifyIntel hkey _ _
  have hu : ∀ p : Promotion,
      (promoteUser contract result p).event.get key = p.event.get key := by
    intro p
    unfold promoteUser setUser
    split <;> try split
    all_goals first | rfl | exact get_modifyIntel hkey _ _
  have hcommentTts : ∀ p : Promotion,
      (promoteCommentTts contract result p).event.get key
        = p.event.get key := by
    intro p
    unfold promoteCommentTts setCommentTts
    split <;> try split
    all_goals first | rfl | exact get_modifyIntel hkey _ _
  have hnicknameTts : ∀ p : Promotion,
      (promoteNicknameTts contract result p).event.get key
        = p.event.get key := by
    intro p
    unfold promoteNicknameTts setNicknameTts
    split <;> try split
    all_goals first | rfl | exact get_modifyIntel hkey _ _
  rw [promoteStableFields, hnicknameTts, hcommentTts, hu, hc]

theorem get_mergeOutcome (p : Promotion) (outcome : ProcessorOutcome) :
    (mergeOutcome contract p outcome).event.get key = p.event.get key := by
  unfold mergeOutcome
  cases outcome.result with
  | none => rfl
  | some result =>
    rw [get_promoteStableFields hkey]
    exact get_modifyIntel hkey _ _

theorem get_mergeProcessorOutcomes (event : Json)
    (o : List ProcessorOutcome) :
    (mergeProcessorOutcomes contract event o).get key = event.get key := by
  have hf : ∀ p : Promotion,
      (o.foldl (mergeOutcome contract) p).event.get key
        = p.event.get key := by
    induction o with
    | nil => exact fun _ => rfl
    | cons outcome rest ih =>
      intro p
      rw [List.foldl_cons, ih, get_mergeOutcome hkey]
  unfold mergeProcessorOutcomes Promotion.finish
  split
  · unfold degrade
    rw [get_modifyIntel hkey, hf]
    rfl
  · exact hf _

end

-- ==== the two fields

/-- `intel.comment` and `intel.user`. -/
structure Projection where
  comment : Option Json
  user : Option Json
  deriving DecidableEq

/-- The stable fields of an event. -/
def stable (event : Json) : Projection where
  comment := (event.get "intel").bind (Json.get "comment")
  user := (event.get "intel").bind (Json.get "user")

/-- The child as an object, of a value that may be missing. -/
def objectOr (value : Option Json) : Json :=
  match value with
  | some (.object members) => .object members
  | _ => .object []

/-- A member of a value that may be missing. -/
def field (key : String) (value : Option Json) : Option Json :=
  value.bind (Json.get key)

theorem get_objectOr (key : String) (value : Option Json) :
    (objectOr value).get key = field key value := by
  cases value with
  | none => rfl
  | some v => cases v <;> rfl

theorem childObject_eq (key : String) (pa : Json) :
    childObject key pa = objectOr (pa.get key) := rfl

theorem member_withoutTts_self (me : Members) :
    Json.member "tts" (withoutTts me) = none := by
  induction me with
  | nil => rfl
  | cons mm me ih =>
    obtain ⟨key, value⟩ := mm
    by_cases hkey : key = "tts"
    · simpa [withoutTts, hkey] using ih
    · simpa [withoutTts, hkey, Json.member] using ih

theorem member_withoutTts_ne {key : String} (members : Members)
    (h : key ≠ "tts") :
    Json.member key (withoutTts members) = Json.member key members := by
  induction members with
  | nil => rfl
  | cons member members ih =>
    obtain ⟨key', value⟩ := member
    by_cases hkey : key' = "tts"
    · have hne : key' ≠ key := by
        rintro rfl
        exact h hkey
      simpa [withoutTts, hkey, Json.member, hkey ▸ hne] using ih
    · by_cases he : key' = key
      · simp [withoutTts, Json.member, he, h]
      · simpa [withoutTts, hkey, Json.member, he] using ih

/-- A value shows the members of an object, its `tts` apart. -/
def Shows (members : Members) (value : Option Json) : Prop :=
  ∀ key ≠ "tts", ∀ v, Json.member key members = some v →
    field key value = some v

/-- `intel.comment`: an object of contract fields, with the slot
`tts`. -/
def commentField : FirstWriter.Field (Option Json) Members Json where
  whole := fun canonical => some (stableComment canonical)
  put := fun tts comment =>
    some (withChild "tts" tts (objectOr comment))
  slot := field "tts"
  Holds := Shows
  slot_whole := member_withoutTts_self
  slot_put := fun tts _ => get_withChild_self "tts" tts _
  holds_whole := fun canonical key hkey v hv =>
    (member_withoutTts_ne canonical hkey).trans hv
  holds_put := fun canonical tts comment h key hkey v hv => by
    show (withChild "tts" tts (objectOr comment)).get key = some v
    rw [get_withChild_ne _ _ (Ne.symm hkey), get_objectOr]
    exact h key hkey v hv

/-- A user value shows a canonical user, the nickname's `tts` apart. -/
def ShowsUser (canonical : StableUser) (value : Option Json) : Prop :=
  (∀ handle, canonical.uniqueId = some handle →
      field "uniqueId" value = some handle)
    ∧ ∀ nickname, canonical.nickname = some nickname →
      Shows nickname (field "nickname" value)

theorem get_stableUser_nickname (c : StableUser) :
    (stableUser c).get "nickname"
      = c.nickname.map fun n =>
        .object (withoutTts n) := by
  obtain ⟨n, ui⟩ := c
  cases n <;> cases ui <;> rfl

theorem get_stableUser_uniqueId (c : StableUser) :
    (stableUser c).get "uniqueId" = c.uniqueId := by
  obtain ⟨n, ui⟩ := c
  cases n <;> cases ui <;> rfl

/-- `intel.user`, with the slot `nickname.tts`. -/
def userField : FirstWriter.Field (Option Json) StableUser Json where
  whole := fun canonical => some (stableUser canonical)
  put := fun tts user =>
    some (modifyChildObject "nickname"
      (modifyChildValue "tts" fun _ => tts) (objectOr user))
  slot := fun user => field "tts" (field "nickname" user)
  Holds := ShowsUser
  slot_whole := fun canonical => by
    show field "tts" ((stableUser canonical).get "nickname") = none
    rw [get_stableUser_nickname]
    cases canonical.nickname with
    | none => rfl
    | some nickname => exact member_withoutTts_self nickname
  slot_put := fun tts user => by
    show field "tts" ((modifyChildObject _ _ _).get "nickname") = some tts
    rw [modifyChildObject, get_withChild_self]
    exact get_withChild_self "tts" tts _
  holds_whole := fun canonical => by
    refine ⟨fun handle h => ?_, fun nickname h key hkey v hv => ?_⟩
    · exact (get_stableUser_uniqueId canonical).trans h
    · show field key ((stableUser canonical).get "nickname") = some v
      rw [get_stableUser_nickname, h]
      exact (member_withoutTts_ne nickname hkey).trans hv
  holds_put := fun canonical tts user h => by
    refine ⟨fun handle hhandle => ?_, fun nickname hname key hkey v hv => ?_⟩
    · show (modifyChildObject _ _ _).get "uniqueId" = some handle
      rw [modifyChildObject, get_withChild_ne _ _ (by decide), get_objectOr]
      exact h.1 handle hhandle
    · show field key ((modifyChildObject _ _ _).get "nickname") = some v
      rw [modifyChildObject, get_withChild_self]
      show (withChild "tts" tts _).get key = some v
      rw [get_withChild_ne _ _ (Ne.symm hkey), childObject_eq, get_objectOr,
        get_objectOr]
      exact h.2 nickname hname key hkey v hv

-- ==== merging, in parts

/-- The two fields with their first offers. -/
structure Parts where
  comment : FirstWriter.State (Option Json) Members Json
  user : FirstWriter.State (Option Json) StableUser Json

/-- A promotion and the parts it comes down to. -/
structure Tracks (p : Promotion) (q : Parts) : Prop where
  stable : stable p.event = ⟨q.comment.value, q.user.value⟩
  owned : p.owned = ⟨q.comment.first.isSome, q.user.first.isSome,
    q.comment.firstSlot.isSome, q.user.firstSlot.isSome⟩

section
variable (contract : Contract)

/-- What an outcome offers: the contributions that are valid. -/
def offeredComment (outcome : ProcessorOutcome) : Option Members :=
  (outcome.result.bind (commentOf contract)).join

def offeredUser (outcome : ProcessorOutcome) : Option StableUser :=
  (outcome.result.bind (userOf contract)).join

def offeredCommentTts (outcome : ProcessorOutcome) : Option Json :=
  (outcome.result.bind (commentTtsOf contract)).join

def offeredNicknameTts (outcome : ProcessorOutcome) : Option Json :=
  (outcome.result.bind (nicknameTtsOf contract)).join

/-- Both fields take what an outcome offers. -/
def Parts.step (q : Parts) (outcome : ProcessorOutcome) : Parts where
  comment := commentField.step (offeredComment contract outcome)
    (offeredCommentTts contract outcome) q.comment
  user := userField.step (offeredUser contract outcome)
    (offeredNicknameTts contract outcome) q.user

end

-- ---- the stable fields

theorem stable_modifyIntel (f : Json → Json) (event : Json) :
    stable (modifyChildObject "intel" f event)
      = ⟨(f (childObject "intel" event)).get "comment",
        (f (childObject "intel" event)).get "user"⟩ := by
  simp only [stable, modifyChildObject, get_withChild_self, bind_some]

theorem get_intel (e : Json) (key : String) :
    (childObject "intel" e).get key
      = (e.get "intel").bind (Json.get key) := by
  rw [childObject_eq, get_objectOr]
  rfl

theorem stable_modifyOther {key : String} (f : Json → Json) (event : Json)
    (hc : key ≠ "comment") (hu : key ≠ "user") :
    stable (modifyChildObject "intel" (modifyChildObject key f) event)
      = stable event := by
  rw [stable_modifyIntel]
  simp only [modifyChildObject, get_withChild_ne _ _ hc,
    get_withChild_ne _ _ hu, get_intel, stable]

theorem stable_mergeProviderResult (event : Json) (pl : String)
    (result : EventEnrichmentResult) :
    stable (mergeProviderResult event pl result) = stable event :=
  stable_modifyOther _ event (by decide) (by decide)

theorem stable_degrade (event : Json) :
    stable (degrade event) = stable event :=
  stable_modifyOther _ event (by decide) (by decide)

theorem stable_setComment (c : Members) (event : Json) :
    stable (setComment c event)
      = ⟨commentField.whole c, (stable event).user⟩ := by
  rw [setComment, stable_modifyIntel]
  simp only [modifyChildValue, get_withChild_self,
    get_withChild_ne _ _ (show "comment" ≠ "user" by decide), get_intel]
  rfl

theorem stable_setUser (c : StableUser) (event : Json) :
    stable (setUser c event)
      = ⟨(stable event).comment, userField.whole c⟩ := by
  rw [setUser, stable_modifyIntel]
  simp only [modifyChildValue, get_withChild_self,
    get_withChild_ne _ _ (show "user" ≠ "comment" by decide), get_intel]
  rfl

theorem stable_setCommentTts (tts event : Json) :
    stable (setCommentTts tts event)
      = ⟨commentField.put tts (stable event).comment,
        (stable event).user⟩ := by
  rw [setCommentTts, stable_modifyIntel]
  simp only [modifyChildObject, get_withChild_self,
    get_withChild_ne _ _ (show "comment" ≠ "user" by decide), get_intel,
    childObject_eq "comment"]
  rfl

theorem stable_setNicknameTts (tts event : Json) :
    stable (setNicknameTts tts event)
      = ⟨(stable event).comment, userField.put tts (stable event).user⟩ := by
  rw [setNicknameTts, stable_modifyIntel]
  simp only [modifyChildObject, get_withChild_self,
    get_withChild_ne _ _ (show "user" ≠ "comment" by decide), get_intel,
    childObject_eq "user"]
  rfl

namespace Tracks

variable {contract : Contract} {p : Promotion} {q : Parts}

theorem start (e : Json) :
    Tracks (.start e) ⟨⟨(Merge.stable e).comment, none, none⟩,
      ⟨(Merge.stable e).user, none, none⟩⟩ :=
  ⟨rfl, rfl⟩

section

variable (h : Tracks p q)
include h

theorem of_same {p' : Promotion}
    (hs : Merge.stable p'.event = Merge.stable p.event)
    (ho : p'.owned = p.owned) : Tracks p' q :=
  ⟨hs.trans h.stable, ho.trans h.owned⟩

variable (result : EventEnrichmentResult)

theorem promoteComment :
    Tracks (promoteComment contract result p)
      { q with
        comment :=
          commentField.offer (commentOf contract result).join q.comment } := by
  obtain ⟨⟨value, f, slot⟩, user⟩ := q
  have ho : p.owned.comment = f.isSome := by rw [h.owned]
  unfold Merge.promoteComment FirstWriter.Field.offer
  cases f with
  | some c => simpa [ho] using h
  | none =>
    simp only [ho, isSome_none, Bool.false_eq_true, if_false]
    cases hof : commentOf contract result with
    | none => exact h
    | some v =>
      cases v with
      | none => exact h.of_same rfl rfl
      | some canonical =>
        refine ⟨?_, ?_⟩
        · rw [stable_setComment, h.stable]
          rfl
        · rw [h.owned]
          rfl

theorem promoteUser :
    Tracks (promoteUser contract result p)
      { q with
        user := userField.offer (userOf contract result).join q.user } := by
  obtain ⟨comment, ⟨value, f, slot⟩⟩ := q
  have ho : p.owned.user = f.isSome := by rw [h.owned]
  unfold Merge.promoteUser FirstWriter.Field.offer
  cases f with
  | some c => simpa [ho] using h
  | none =>
    simp only [ho, isSome_none, Bool.false_eq_true, if_false]
    cases hof : userOf contract result with
    | none => exact h
    | some v =>
      cases v with
      | none => exact h.of_same rfl rfl
      | some canonical =>
        refine ⟨?_, ?_⟩
        · rw [stable_setUser, h.stable]
          rfl
        · rw [h.owned]
          rfl

theorem promoteCommentTts :
    Tracks (promoteCommentTts contract result p)
      { q with
        comment := commentField.offerSlot
          (commentTtsOf contract result).join q.comment } := by
  obtain ⟨⟨value, first, slot⟩, user⟩ := q
  have ho : p.owned.commentTts = slot.isSome := by rw [h.owned]
  unfold Merge.promoteCommentTts FirstWriter.Field.offerSlot
  cases slot with
  | some t => simpa [ho] using h
  | none =>
    simp only [ho, isSome_none, Bool.false_eq_true, if_false]
    cases hof : commentTtsOf contract result with
    | none => exact h
    | some v =>
      cases v with
      | none => exact h.of_same rfl rfl
      | some tts =>
        refine ⟨?_, ?_⟩
        · rw [stable_setCommentTts, h.stable]
          rfl
        · rw [h.owned]
          rfl

theorem promoteNicknameTts :
    Tracks (promoteNicknameTts contract result p)
      { q with
        user := userField.offerSlot
          (nicknameTtsOf contract result).join q.user } := by
  obtain ⟨comment, ⟨value, first, slot⟩⟩ := q
  have ho : p.owned.nicknameTts = slot.isSome := by rw [h.owned]
  unfold Merge.promoteNicknameTts FirstWriter.Field.offerSlot
  cases slot with
  | some t => simpa [ho] using h
  | none =>
    simp only [ho, isSome_none, Bool.false_eq_true, if_false]
    cases hof : nicknameTtsOf contract result with
    | none => exact h
    | some v =>
      cases v with
      | none => exact h.of_same rfl rfl
      | some tts =>
        refine ⟨?_, ?_⟩
        · rw [stable_setNicknameTts, h.stable]
          rfl
        · rw [h.owned]
          rfl

theorem mergeOutcome (outcome : ProcessorOutcome) :
    Tracks (mergeOutcome contract p outcome) (q.step contract outcome) := by
  obtain ⟨pl, result⟩ := outcome
  cases result with
  | none =>
    have hn : q.step contract ⟨pl, none⟩ = q := by
      simp [Parts.step, offeredComment, offeredUser, offeredCommentTts,
        offeredNicknameTts]
    rw [hn]
    exact h.of_same rfl rfl
  | some result =>
    have hp : Tracks
        { p with
          event := mergeProviderResult p.event pl result } q :=
      h.of_same (stable_mergeProviderResult p.event pl result) rfl
    exact (((hp.promoteComment result).promoteUser
      result).promoteCommentTts result).promoteNicknameTts result

end

end Tracks

theorem stable_finish (p : Promotion) :
    stable p.finish = stable p.event := by
  unfold Promotion.finish
  cases p.invalid with
  | false => rfl
  | true => exact stable_degrade p.event

-- ==== the claim

/-- The first valid contributions of each kind. -/
structure Established where
  comment : Option Members
  user : Option StableUser
  commentTts : Option Json
  nicknameTts : Option Json

/-- Merging under way, and what has been established so far. -/
structure Merging where
  promotion : Promotion
  established : Established

/-- Every established field still shows what established it. -/
structure Merging.Kept (m : Merging) : Prop where
  comment : ∀ c, m.established.comment = some c →
    Shows c (stable m.promotion.finish).comment
  user : ∀ u, m.established.user = some u →
    ShowsUser u (stable m.promotion.finish).user
  commentTts : ∀ tts, m.established.commentTts = some tts →
    field "tts" (stable m.promotion.finish).comment = some tts
  nicknameTts : ∀ tts, m.established.nicknameTts = some tts →
    field "tts" (field "nickname" (stable m.promotion.finish).user) = some tts

section
variable (contract : Contract)

def Established.note (e : Established) (outcome : ProcessorOutcome) :
    Established where
  comment := e.comment.or (offeredComment contract outcome)
  user := e.user.or (offeredUser contract outcome)
  commentTts := e.commentTts.or (offeredCommentTts contract outcome)
  nicknameTts := e.nicknameTts.or (offeredNicknameTts contract outcome)

def Merging.start (event : Json) : Merging :=
  ⟨.start event, ⟨none, none, none, none⟩⟩

/-- Merge one more outcome. -/
def Merging.next (m : Merging) (outcome : ProcessorOutcome) :
    Option Merging :=
  some ⟨mergeOutcome contract m.promotion outcome,
    m.established.note contract outcome⟩

/-- The first valid `comment` annotation does not come after an earlier
processor's view has established the comment's `tts`, nor the first valid
`user` annotation after the nickname's. -/
def Merging.StepOk (m : Merging) (outcome : ProcessorOutcome) : Prop :=
  (m.established.comment = none →
      (offeredComment contract outcome).isSome →
      m.established.commentTts = none)
    ∧ (m.established.user = none →
      (offeredUser contract outcome).isSome →
      m.established.nicknameTts = none)

/-- An outcome without a valid stable contribution. -/
def Silent (outcome : ProcessorOutcome) : Prop :=
  offeredComment contract outcome = none
    ∧ offeredUser contract outcome = none
    ∧ offeredCommentTts contract outcome = none
    ∧ offeredNicknameTts contract outcome = none

/-- The stable projection does not depend on the outcomes that contribute
nothing to it. -/
def Independent (event : Json) (outcomes : List ProcessorOutcome) : Prop :=
  ∀ before outcome after, outcomes = before ++ outcome :: after →
    Silent contract outcome →
    stable (mergeProcessorOutcomes contract event outcomes)
      = stable (mergeProcessorOutcomes contract event (before ++ after))

end

variable {contract : Contract}

/-- The two fields of an event under way. -/
def Merging.parts (m : Merging) : Parts where
  comment := ⟨(stable m.promotion.event).comment, m.established.comment,
    m.established.commentTts⟩
  user := ⟨(stable m.promotion.event).user, m.established.user,
    m.established.nicknameTts⟩

/-- Ownership is what has been established. -/
def Merging.Agrees (m : Merging) : Prop := Tracks m.promotion m.parts

theorem Merging.kept_iff (m : Merging) :
    m.Kept ↔ commentField.Kept m.parts.comment
      ∧ userField.Kept m.parts.user := by
  constructor
  · rintro ⟨hc, hu, hco, ht⟩
    rw [stable_finish] at hc hu hco ht
    exact ⟨⟨hc, hco⟩, ⟨hu, ht⟩⟩
  · rintro ⟨⟨hc, hco⟩, ⟨hu, ht⟩⟩
    constructor
    all_goals rw [stable_finish]
    · exact hc
    · exact hu
    · exact hco
    · exact ht

variable {t m : Merging}

variable {outcome : ProcessorOutcome}

theorem Merging.parts_next (h : m.Agrees)
    (hn : m.next contract outcome = some t) :
    t.Agrees ∧ t.parts = m.parts.step contract outcome := by
  obtain rfl := Option.some.inj hn
  have ht := @Tracks.mergeOutcome contract _ _ h outcome
  have hp : Merging.parts ⟨mergeOutcome contract m.promotion outcome,
      m.established.note contract outcome⟩
      = m.parts.step contract outcome := by
    have hs := ht.stable
    unfold Merging.parts at hs ⊢
    rw [hs]
    congr 1
    · exact FirstWriter.Field.step_eq _ _
    · exact FirstWriter.Field.step_eq _ _
  refine ⟨?_, hp⟩
  show Tracks _ _
  rw [hp]
  exact ht

theorem Merging.agrees_start (e : Json) :
    (Merging.start e).Agrees := Tracks.start e

/-- One more outcome keeps what was established exactly if it is one of
those admitted. -/
theorem Merging.kept_next_iff (h : m.Agrees)
    (hk : m.Kept) (hn : m.next contract outcome = some t) :
    t.Kept ↔ m.StepOk contract outcome := by
  obtain ⟨hc, hu⟩ := (Merging.kept_iff m).1 hk
  rw [Merging.kept_iff, (Merging.parts_next h hn).2]
  exact and_congr
    (FirstWriter.Field.kept_step_iff hc _ _)
    (FirstWriter.Field.kept_step_iff hu _ _)

theorem tracks_foldl (o : List ProcessorOutcome) :
    ∀ {p : Promotion} {q : Parts}, Tracks p q →
      Tracks (o.foldl (mergeOutcome contract) p)
        (o.foldl (Parts.step contract) q) := by
  induction o with
  | nil => exact fun h => h
  | cons outcome o ih => exact fun h => ih (h.mergeOutcome outcome)

theorem Silent.step (h : Silent contract outcome) (q : Parts) :
    q.step contract outcome = q := by
  obtain ⟨hc, hu, hco, ht⟩ := h
  simp [Parts.step, hc, hu, hco, ht]

theorem independent (e : Json) (outcomes : List ProcessorOutcome) :
    Independent contract e outcomes := by
  rintro b outcome a rfl hs
  unfold mergeProcessorOutcomes
  rw [stable_finish, stable_finish,
    (tracks_foldl (b ++ outcome :: a) (Tracks.start e)).stable,
    (tracks_foldl (b ++ a) (Tracks.start e)).stable,
    List.foldl_append, List.foldl_append, List.foldl_cons, hs.step]

-- ==== over every list

/-- For every event and every list of outcomes, merged in their order:
what earlier processors have established of the stable projection is
still there after each later merge, and the projection does not depend on
processors that contribute nothing to it, if and only if no annotation
takes a field after an earlier view has taken the `tts` inside it. -/
theorem stable_projection_iff (contract : Contract) (event : Json)
    (outcomes : List ProcessorOutcome) :
    ((∀ t, Reaches (Merging.next contract) (.start event) outcomes t →
          t.Kept)
        ∧ Independent contract event outcomes)
      ↔ ∀ before outcome after t u, outcomes = before ++ outcome :: after →
        runActions (Merging.next contract) (.start event) before = some t →
        t.next contract outcome = some u → t.StepOk contract outcome := by
  rw [and_iff_left (independent event outcomes)]
  exact reaches_iff_within Merging.Agrees Merging.Kept
    (Merging.agrees_start event) ⟨nofun, nofun, nofun, nofun⟩
    (fun _ _ _ h hn => (Merging.parts_next h hn).1)
    (fun _ _ _ h hk hn => Merging.kept_next_iff h hk hn)
    outcomes

-- ---- where it goes wrong

/-- A contract that takes the members as they are. -/
def plainContract : Contract where
  canonicalStableComment := Json.asObject
  canonicalStableUser := fun value => value.asObject.map fun members =>
    ⟨(Json.member "nickname" members).bind Json.asObject,
      Json.member "uniqueId" members⟩
  inUnit := fun _ => true

/-- One processor decides that a comment is not to be spoken. -/
def muted : ProcessorOutcome :=
  ⟨"policy", some ⟨[], [("comment",
    ⟨"", none, none, "policy", false, none, none⟩)]⟩⟩

/-- Another one normalizes the comment. -/
def normalized : ProcessorOutcome :=
  ⟨"text", some ⟨[("comment", .object [("normalized", .string "hi")])], []⟩⟩

/-- The decision is lost with the next processor's annotation. -/
theorem speak_false_is_lost :
    ∃ t, Reaches (Merging.next plainContract) (.start (.object []))
      [muted, normalized] t ∧ ¬ t.Kept := by
  refine ⟨_, ⟨[muted, normalized], [], rfl, rfl⟩, ?_⟩
  intro hk
  have hl := hk.commentTts _ rfl
  revert hl
  decide +kernel

end TikTools.Processors.Merge
