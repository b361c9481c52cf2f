/-
What a test of a rule quotes of the event it replayed, and where it
panics.

A test replays the last event of its trigger, or a sample that is shaped
by the rule's own filters. When the filters do not match, its summary
quotes the data of the event, cut after a number of bytes, and a cut
inside a character panics. Nothing else on the way does: what is indexed
is an object each time.
-/
import TikTools.Automation.EmitChains
import Mathlib.Data.List.Infix
import TikTools.Lib.Weight

namespace TikTools.Automation.Preview

open TikTools.Lib TikTools.Automation.EmitChains
open TikTools.Lib.Json (size)
open Option List

-- ==== slices

/-- `&text[..bytes]`: it panics when no characters of the text end
there. -/
def slice (bytes : Nat) (text : List Char) : Option (List Char) :=
  text.inits.find? fun head => size head = bytes

theorem slice_spec {bytes : Nat} {text head : List Char}
    (h : slice bytes text = some head) :
    head <+: text ∧ size head = bytes := by
  have hs := find?_some h
  exact ⟨(mem_inits _ _).1 (mem_of_find?_eq_some h), of_decide_eq_true hs⟩

theorem slice_isSome {bytes : Nat} {text : List Char} :
    (slice bytes text).isSome
      ↔ ∃ head, head <+: text ∧ size head = bytes := by
  unfold slice
  rw [find?_isSome]
  simp only [mem_inits, decide_eq_true_eq]

-- ==== pinned samples

/-- `value[key] = item`: it panics unless the value is an object or
null. -/
def setIndex (key : String) (item : Json) : Json → Option Json
  | .object members => some (.object (Json.setMember key item members))
  | .null => some (.object [(key, item)])
  | _ => none

/-- `trim_start_matches` of a doubled character. -/
def trimPairs (c : Char) : Text → Text
  | a :: b :: rest =>
    if a = c ∧ b = c then trimPairs c rest else a :: b :: rest
  | text => text

def pinParts (path : Text) : List String :=
  let opened := trimPairs '{' (trim path)
  let parts :=
    pathParts (trimDots (trim (trimPairs '}' opened.reverse).reverse))
  if parts.head? = some "event" then parts.tail else parts

/-- `pin_event_path` from a value on: objects are made on the way, and
the flag says whether the leaf was written. -/
def pinAt (coerce : Option Json → Json) :
    List String → Json → Option (Json × Bool)
  | [], value => some (value, false)
  | part :: rest, value =>
    if value.asObject = none then some (value, false)
    else if rest = [] then
      (setIndex part (coerce (value.get part)) value).map (·, true)
    else do
      let child ← pinAt coerce rest ((value.get part).getD (.object []))
      (setIndex part child.1 value).map (·, child.2)

/-- The path and the value of an `eq` filter. -/
def pinOf (filter : Json) : Option (String × String) := do
  let operator ← (filter.get "operator").bind Json.asStr
  let path ← (filter.get "path").bind Json.asStr
  let value ← (filter.get "value").bind Json.asStr
  if operator = "eq" then some (path, value) else none

/-- Pin one filter and note it. -/
def pin (coerce : Option Json → String → Json)
    (sample : Json × List String) (filter : String × String) :
    Option (Json × List String) := do
  let next ← pinAt (coerce · filter.2) (pinParts filter.1.toList) sample.1
  some (next.1, if next.2
    then sample.2 ++ [filter.1 ++ "='" ++ filter.2 ++ "'"] else sample.2)

def pinEventToRecord (coerce : Option Json → String → Json)
    (event record : Json) : Option (Json × List String) :=
  match record.get "filters" with
  | some (.array filters) =>
    (filters.filterMap pinOf).foldlM (pin coerce) (event, [])
  | _ => some (event, [])

theorem pinAt_returns (co : Option Json → Json) (p : List String)
    (v : Json) : (pinAt co p v).isSome := by
  induction p generalizing v with
  | nil => rfl
  | cons part rest ih =>
    cases v with
    | object m =>
      unfold pinAt
      by_cases hl : rest = []
      · simp [hl, setIndex]
      · obtain ⟨child, hc⟩ := isSome_iff_exists.1
          (ih (((Json.object m).get part).getD (.object [])))
        simp [hl, hc, setIndex]
    | _ => rfl

theorem pinEventToRecord_returns
    (coerce : Option Json → String → Json) (event record : Json) :
    (pinEventToRecord coerce event record).isSome := by
  have hf : ∀ (pins : List (String × String)) sample,
      (pins.foldlM (pin coerce) sample).isSome := by
    intro pins
    induction pins with
    | nil => exact fun _ => rfl
    | cons filter rest ih =>
      intro sample
      obtain ⟨next, hn⟩ := isSome_iff_exists.1
        (pinAt_returns (coerce · filter.2) (pinParts filter.1.toList)
          sample.1)
      rw [foldlM_cons, pin, hn]
      exact ih _
  unfold pinEventToRecord
  split
  · exact hf _ _
  · rfl

-- ==== the harness

/-- What a test takes from the rest of the core. An event is remembered
under the type it carries; `coerce` is `coerce_pin_value`, which reads
numbers, `cohereGiftPair` fills in one member of a gift from the catalog,
and `execute` runs an action. -/
structure Core where
  env : Env
  automation : AutomationService
  lastEvents : String → Option Json
  remembered : ∀ trigger event, lastEvents trigger = some event →
    typeOf event = some trigger
  sample : String → Json
  coerce : Option Json → String → Json
  cohereGiftPair : Json → List String → Json
  pick : Nat
  execute : Json → Json → Json → Json

def maxPreview : Nat := 120

/-- The data of an event as the summary quotes it. -/
def preview (data : Json) : Option (List Char) :=
  if maxPreview < size data.encode
  then (slice maxPreview data.encode).map (· ++ ['…'])
  else some data.encode

def mismatchSummary (source : String) (preview : Option (List Char)) :
    String :=
  let origin :=
    if source = "live" then "the last live event" else "the sample event"
  "Event filters did not match " ++ origin
    ++ (match preview.filter (· ≠ []) with
      | some text => " (event data: " ++ String.ofList text ++ ")."
      | none => ".")

/-- The outcome of a test; its `error` is the summary of a failure. -/
structure TestRun where
  status : String
  eventName : String
  actionName : String
  summary : String
  eventSource : String
  pinned : List String
  actions : List Json
  deriving DecidableEq

namespace Core

variable (c : Core) (now : Nat) (record : Json)

def testEventFor (trigger : String) : Option (Json × String) :=
  match c.lastEvents trigger with
  | none => some (c.sample trigger, "sample")
  | some event =>
    if (triggerOf record).all (· == trigger)
        && eventRecordMatches c.env record event then
      (setIndex "timestamp" (.ofNat now) event).map (·, "live")
    else some (c.sample trigger, "sample")

/-- The shaped event and its pins. -/
def pinSampleToRecord (event : Json) (source : String) :
    Option (Json × List String) :=
  if source ≠ "sample" then some (event, [])
  else do
    let pinned ← pinEventToRecord c.coerce event record
    some (if pinned.2 = [] then pinned
      else (c.cohereGiftPair pinned.1 pinned.2, pinned.2))

/-- The event a test replays, where it is from and what is pinned. -/
def replayed : Option (Json × String × List String) := do
  let event ←
    c.testEventFor now record ((triggerOf record).getD "tiktok.chat")
  let pinned ← c.pinSampleToRecord record event.1 event.2
  some (pinned.1, event.2, pinned.2)

/-- `test_event`; a panic is no result. -/
def testEvent : Option TestRun := do
  let (event, source, pinned) ← c.replayed now record
  let run := fun status summary actions => TestRun.mk status
    ((triggerOf record).getD "tiktok.chat")
    (((record.get "name").bind Json.asStr).getD "Event") summary source
    pinned actions
  if ¬ eventRecordMatches c.env record event then
    let quoted ← (event.get "data").mapM preview
    some (run "error" (mismatchSummary source quoted) [])
  else
    let actions := c.automation.actionsForEvent record c.pick
    if actions = [] then
      some (run "error" "The event has no saved actions to test." [])
    else
      let runs := actions.map (c.execute · event record)
      if runs.any (·.get "status" == some (.string "error")) then
        some (run "error" "One or more actions failed." runs)
      else some (run "ok" "All referenced actions passed." runs)

/-- A cut at the bound is between two characters wherever the data of a
replayed event that the filters do not match is cut. -/
def Quotable : Prop :=
  ∀ event source pinned data,
    c.replayed now record = some (event, source, pinned) →
      eventRecordMatches c.env record event = false →
        event.get "data" = some data → maxPreview < size data.encode →
          ∃ head, head <+: data.encode ∧ size head = maxPreview

theorem replayed_returns : (c.replayed now record).isSome := by
  have hev : ∀ t, (c.testEventFor now record t).isSome := by
    intro t
    unfold testEventFor
    cases hl : c.lastEvents t with
    | none => rfl
    | some e =>
      have ht := c.remembered t e hl
      cases e with
      | object members =>
        dsimp only
        split <;> rfl
      | _ => cases ht
  obtain ⟨e, hev⟩ := isSome_iff_exists.1 (hev
    ((triggerOf record).getD "tiktok.chat"))
  obtain ⟨pins, hp⟩ := isSome_iff_exists.1
    (pinEventToRecord_returns c.coerce e.1 record)
  unfold replayed pinSampleToRecord
  rw [hev]
  simp only [bind_eq_bind, bind_some]
  split
  · rfl
  · rw [hp]
    rfl

end Core

/-- What a summary quotes is all of the data or begins it. -/
theorem preview_begins {d : Json} {s : List Char}
    (h : preview d = some s) :
    ∃ he, he <+: d.encode ∧ size he ≤ maxPreview
      ∧ (s = he ∨ s = he ++ ['…']) := by
  unfold preview at h
  split at h
  · obtain ⟨he, hh, rfl⟩ := map_eq_some_iff.1 h
    obtain ⟨hb, hsz⟩ := slice_spec hh
    exact ⟨he, hb, hsz.le, .inr rfl⟩
  · next hs =>
    cases h
    exact ⟨_, prefix_refl _, not_lt.1 hs, .inl rfl⟩

theorem preview_isSome {data : Json} :
    (preview data).isSome ↔ (maxPreview < size data.encode →
      ∃ head, head <+: data.encode ∧ size head = maxPreview) := by
  unfold preview
  split
  · next hl =>
    rw [isSome_map, slice_isSome]
    simp only [hl, true_imp_iff]
  · next hs => simp [hs]

/-- A test returns, with previews that begin the data and keep to the
bound, exactly when no cut is inside a character. -/
theorem testEvent_returns_iff (c : Core) (now : Nat) (record : Json) :
    ((c.testEvent now record).isSome
      ∧ ∀ data shown, preview data = some shown →
        ∃ head, head <+: data.encode ∧ size head ≤ maxPreview
          ∧ (shown = head ∨ shown = head ++ ['…']))
      ↔ c.Quotable now record := by
  rw [and_iff_left fun data shown => preview_begins]
  obtain ⟨⟨event, source, pinned⟩, hr⟩ :=
    isSome_iff_exists.1 (c.replayed_returns now record)
  unfold Core.testEvent Core.Quotable
  rw [hr]
  simp only [bind_eq_bind, bind_some, Option.some.injEq,
    Prod.mk.injEq, and_imp]
  cases hmt : eventRecordMatches c.env record event with
  | true =>
    refine iff_of_true ?_ ?_
    · rw [if_neg (by simp)]
      split
      · rfl
      · split <;> rfl
    · rintro _ _ _ _ rfl - - hno
      rw [hmt] at hno
      cases hno
  | false =>
    cases hd : event.get "data" with
    | none => exact iff_of_true rfl (by
        rintro _ _ _ _ rfl - - - hget
        rw [hd] at hget
        cases hget)
    | some data =>
      constructor
      · rintro h _ _ _ _ rfl - - - hget
        rw [hd] at hget
        cases hget
        refine preview_isSome.1 ?_
        cases hp : preview data with
        | none => simp [hp] at h
        | some _ => rfl
      · intro h
        obtain ⟨shown, hs⟩ := isSome_iff_exists.1
          (preview_isSome.2 (h _ _ _ _ rfl rfl rfl hmt hd))
        simp [hs]

-- ==== a cut inside a character

/-- A sample of a chat, and nothing remembered. -/
def chatCore : Core where
  env := ⟨⟨fun _ => none, fun _ => none, fun _ => true⟩, fun _ => none,
    fun filter _ => filter.get "operator" == some (.string "eq")⟩
  automation := ⟨∅, ∅, ∅, [], ∅⟩
  lastEvents := fun _ => none
  remembered := nofun
  sample := fun trigger => .object
    [("data", .object [("comment", .string "Hello there"),
      ("emotes", .array []), ("isHistory", .bool false)]),
     ("type", .string trigger)]
  coerce := fun _ value => .string value
  cohereGiftPair := fun event _ => event
  pick := 0
  execute := fun action _ _ => action

/-- A rule on a comment of 121 bytes and on a flag the sample lacks. -/
def accentedRule : Json := .object
  [("filters", .array
    [.object [("operator", .string "eq"), ("path", .string "data.comment"),
      ("value", .string (String.ofList ('a' :: List.replicate 60 'ñ')))],
     .object [("operator", .string "is-true"),
      ("path", .string "data.isHistory")]]),
   ("trigger", .string "tiktok.chat")]

theorem accented_preview_panics :
    chatCore.testEvent 0 accentedRule = none := by
  decide +kernel

end TikTools.Automation.Preview
