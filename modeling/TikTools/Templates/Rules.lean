/-
Rule templates: the document parsers of the library and of the web view.

The two are written as twins, so they are one definition here, over the
`Dialect` that a side reads its fields in; `library` and `web` are the two
dialects, and the parsers of either side are the definition at its own
dialect. A text of the library is a list of characters, one of the web
view a list of UTF-16 code units, which is also how it counts a length.

The dialects differ in what they trim, in how they count the characters
of a text that is cut to a length, in the numbers they take as a version
or as a cooldown, and the web view refuses a profile where a list of
templates is imported.
-/
import TikTools.Lib.Json
import TikTools.Lib.Text
import Mathlib.Data.Nat.Log
import Mathlib.Algebra.Group.Nat.Defs

namespace TikTools.Templates

open TikTools.Lib

-- ==== templates

/-- A text with the key of its translation. -/
structure TemplateText (τ : Type) where
  default : τ
  i18key : Option τ
  deriving DecidableEq

structure RuleTemplateAction (τ : Type) where
  name : τ
  typeId : τ
  enabled : Bool
  config : List (String × Json)
  deriving DecidableEq

structure RuleTemplateFilter (τ : Type) where
  path : τ
  operator : String
  value : τ
  values : Option (List τ)
  deriving DecidableEq

inductive CooldownScope where
  | user
  | global
  deriving DecidableEq

inductive RunMode where
  | random
  | all
  deriving DecidableEq

structure RuleTemplateEvent (τ : Type) where
  name : τ
  enabled : Bool
  trigger : τ
  filters : List (RuleTemplateFilter τ)
  cooldownMs : Nat
  cooldownScope : CooldownScope
  runMode : RunMode
  deriving DecidableEq

structure RuleTemplate (τ : Type) where
  id : τ
  title : TemplateText τ
  description : TemplateText τ
  icon : τ
  params : Option (List (String × Json))
  actions : List (RuleTemplateAction τ)
  event : RuleTemplateEvent τ
  deriving DecidableEq

section
variable {τ υ : Type} (f : τ → υ)

def TemplateText.map (text : TemplateText τ) : TemplateText υ :=
  ⟨f text.default, text.i18key.map f⟩

def RuleTemplateAction.map (action : RuleTemplateAction τ) :
    RuleTemplateAction υ :=
  ⟨f action.name, f action.typeId, action.enabled, action.config⟩

def RuleTemplateFilter.map (filter : RuleTemplateFilter τ) :
    RuleTemplateFilter υ :=
  ⟨f filter.path, filter.operator, f filter.value,
    filter.values.map (List.map f)⟩

def RuleTemplateEvent.map (event : RuleTemplateEvent τ) :
    RuleTemplateEvent υ :=
  ⟨f event.name, event.enabled, f event.trigger,
    event.filters.map (RuleTemplateFilter.map f), event.cooldownMs,
    event.cooldownScope, event.runMode⟩

/-- The template with its texts in another form. -/
def RuleTemplate.map (template : RuleTemplate τ) : RuleTemplate υ :=
  ⟨f template.id, template.title.map f, template.description.map f,
    f template.icon, template.params,
    template.actions.map (RuleTemplateAction.map f),
    template.event.map f⟩

end

-- ==== parsing

/-- How a side reads the fields of a document. -/
structure Dialect (τ : Type) where
  /-- A text without the white space around it, cut to a length. -/
  readText : Option Json → Nat → Option τ
  /-- A text cut to a length. -/
  clip : String → Nat → τ
  /-- A literal. -/
  literal : String → τ
  validId : τ → Bool
  isVersion : Option Json → Bool
  cooldownMs : Option Json → Nat
  actionsNotArray : String
  filtersNotArray : String
  refusesProfiles : Bool

def maxActions : Nat := 8
def maxFilters : Nat := 12
def maxImportDocs : Nat := 32

def operators : List String :=
  ["gte", "gt", "lte", "lt", "eq", "neq", "contains", "starts-with", "in",
    "is-true", "is-false"]

/-- A result, when there is one, and what was wrong on the way. -/
abbrev Parsed (α : Type) := Option α × List String

/-- The message of a check that failed. -/
def required (check : Bool) (message : String) : List String :=
  if check then [] else [message]

section
variable {τ : Type} (d : Dialect τ)

def readLocalized (value : Option Json) (max : Nat) :
    Option (TemplateText τ) :=
  match value with
  | some (.string text) =>
    (d.readText (some (.string text)) max).map fun default =>
      ⟨default, none⟩
  | some (.object members) =>
    (d.readText (Json.member "default" members) max).map fun default =>
      ⟨default, d.readText (Json.member "i18key" members) 128⟩
  | _ => none

/-- Absent or true. -/
def isEnabled (value : Option Json) : Bool :=
  value.all fun value => value = .bool true

def indexed (path : String) (index : Nat) : String :=
  path ++ "[" ++ toString index ++ "]"

/-- The clipped texts of an array, when all its items are texts. -/
def clipAll : List Json → Option (List τ)
  | [] => some []
  | .string text :: rest => (clipAll rest).map (d.clip text 500 :: ·)
  | _ :: _ => none

/-- The `values` of a filter; none when they are no array of texts. -/
def filterValues (value : Option Json) : Option (Option (List τ)) :=
  match value with
  | none => some none
  | some (.array items) => (clipAll d items).map some
  | some _ => none

def parseFilter (value : Json) (index : Nat) :
    Parsed (RuleTemplateFilter τ) :=
  let here := indexed "event.filters" index
  match value with
  | .object map =>
    let path := d.readText (Json.member "path" map) 200
    let errors := required path.isSome (here ++ ".path is required")
    match ((Json.member "operator" map).bind Json.asStr).filter
        (· ∈ operators) with
    | none =>
      (none, errors ++ [here ++ ".operator must be one of "
        ++ String.intercalate ", " operators])
    | some operator =>
      match filterValues d (Json.member "values" map) with
      | none =>
        (none, errors ++ [here ++ ".values must be an array of strings"])
      | some values =>
        (path.map fun path =>
          { path, operator
            value := d.clip (((Json.member "value" map).bind
              Json.asStr).getD "") 500
            values }, errors)
  | _ => (none, [here ++ " must be an object"])

def parseAction (value : Json) (index : Nat) :
    Parsed (RuleTemplateAction τ) :=
  let here := indexed "actions" index
  match value with
  | .object item =>
    let name := d.readText (Json.member "name" item) 80
    let typeId := d.readText (Json.member "typeId" item) 128
    let config := (Json.member "config" item).bind Json.asObject
    let action := do
      pure { name := ← name, typeId := ← typeId
             enabled := isEnabled (Json.member "enabled" item)
             config := ← config }
    (action,
      required name.isSome (here ++ ".name is required")
        ++ required typeId.isSome (here ++ ".typeId is required")
        ++ required config.isSome (here ++ ".config must be an object"))
  | _ => (none, [here ++ " must be an object"])

/-- Parse every item, keeping the results and the messages. -/
def parseEach {α : Type} (parse : Json → Nat → Parsed α) :
    Nat → List Json → List α × List String
  | _, [] => ([], [])
  | index, item :: rest =>
    let (result, errors) := parse item index
    let (results, more) := parseEach parse (index + 1) rest
    (result.toList ++ results, errors ++ more)

def parseActions (value : Option Json) :
    List (RuleTemplateAction τ) × List String :=
  match value with
  | some (.array items) =>
    if items = [] ∨ maxActions < items.length
    then ([], ["actions must hold 1-8 entries"])
    else parseEach (parseAction d) 0 items
  | _ => ([], [d.actionsNotArray])

def parseFilters (value : Option Json) :
    List (RuleTemplateFilter τ) × List String :=
  match value with
  | none => ([], [])
  | some (.array items) =>
    if maxFilters < items.length
    then ([], ["event.filters allows at most 12 entries"])
    else parseEach (parseFilter d) 0 items
  | some _ => ([], [d.filtersNotArray])

def parseEvent (value : Option Json) : Parsed (RuleTemplateEvent τ) :=
  match value with
  | some (.object raw) =>
    let name := d.readText (Json.member "name" raw) 80
    let trigger := d.readText (Json.member "trigger" raw) 128
    let (filters, errors) := parseFilters d (Json.member "filters" raw)
    let event := do
      pure { name := ← name
             enabled := isEnabled (Json.member "enabled" raw)
             trigger := ← trigger
             filters
             cooldownMs := d.cooldownMs (Json.member "cooldownMs" raw)
             cooldownScope :=
               if Json.member "cooldownScope" raw = some (.string "user")
               then .user else .global
             runMode :=
               if Json.member "runMode" raw = some (.string "random")
               then .random else .all }
    (event,
      required name.isSome "event.name is required"
        ++ required trigger.isSome "event.trigger is required" ++ errors)
  | _ => (none, ["event must be an object"])

/-- The `params` of a document; none when they are no object. -/
def parseParams (value : Option Json) :
    Parsed (List (String × Json)) :=
  match value with
  | none => (none, [])
  | some (.object map) => (some map, [])
  | some _ => (none, ["params must be an object"])

/-- Validate a document into a template. -/
def parseRuleTemplate (value : Json) :
    Except (List String) (RuleTemplate τ) :=
  match value with
  | .object doc =>
    if d.isVersion (Json.member "templateVersion" doc) then
      let id := (d.readText (Json.member "id" doc) 64).filter d.validId
      let title := readLocalized d (Json.member "title" doc) 120
      let description :=
        (readLocalized d (Json.member "description" doc) 500).getD
          ⟨d.literal "", none⟩
      let icon := (d.readText (Json.member "icon" doc) 32).getD
        (d.literal "plugin")
      let (params, wrongParams) := parseParams (Json.member "params" doc)
      let (actions, wrongActions) :=
        parseActions d (Json.member "actions" doc)
      let (event, wrongEvent) := parseEvent d (Json.member "event" doc)
      let errors :=
        required id.isSome "id must match [a-z0-9][a-z0-9._-]\x7b1,63\x7d"
          ++ required title.isSome "title is required" ++ wrongParams
          ++ wrongActions ++ wrongEvent
      match id, title, event with
      | some id, some title, some event =>
        if errors = [] ∧ actions ≠ [] then
          .ok { id, title, description, icon, params, actions, event }
        else .error errors
      | _, _, _ => .error errors
    else .error ["unsupported templateVersion (want 1)"]
  | _ => .error ["template must be a JSON object"]

/-- One document, an array of them, or an object with `templates`. -/
def templateDocuments : Json → List Json
  | .array items => items
  | .object doc =>
    match Json.member "templates" doc with
    | some (.array items) => items
    | _ => [.object doc]
  | value => [value]

/-- What an import calls an entry in its messages. -/
def entryLabel (entry : Json) (index : Nat) : String :=
  match (entry.get "id").bind Json.asStr with
  | some id => " (" ++ id ++ ")"
  | none => "#" ++ toString (index + 1)

def importEntry (entry : Json) (index : Nat) : Parsed (RuleTemplate τ) :=
  match parseRuleTemplate d entry with
  | .ok template => (some template, [])
  | .error errors =>
    (none, errors.map fun error =>
      "template" ++ entryLabel entry index ++ ": " ++ error)

/-- An object with a profile version and no template version. -/
def isProfile (value : Json) : Bool :=
  (value.get "profileVersion").isSome && (value.get "templateVersion").isNone

def parseRuleTemplateList (value : Json) :
    List (RuleTemplate τ) × List String :=
  if d.refusesProfiles && isProfile value then
    ([], ["this is a profile document; import it with the template CLI "
      ++ "profile-import"])
  else
    let documents := templateDocuments value
    if documents = [] then ([], ["no templates found"])
    else if maxImportDocs < documents.length then
      ([], ["at most 32 templates per import"])
    else parseEach (importEntry d) 0 documents

end

-- ==== the dialects

def isIdStart (c : Nat) : Bool := (97 ≤ c && c ≤ 122) || (48 ≤ c && c ≤ 57)

def isIdPart (c : Nat) : Bool := isIdStart c || c == 46 || c == 95 || c == 45

/-- `valid_id` on the codes of the characters. All of them are ASCII, so
the bytes of an id are its characters. -/
def validId : List Nat → Bool
  | [] => false
  | first :: rest =>
    isIdStart first && 1 ≤ rest.length && rest.length ≤ 63
      && rest.all isIdPart

/-- The fields as the library reads them. -/
def library : Dialect (List Char) where
  readText value max :=
    match value with
    | some (.string text) =>
      let trimmed := trim text.toList
      if trimmed = [] then none else some (trimmed.take max)
    | _ => none
  clip text max := text.toList.take max
  literal := String.toList
  validId id := validId (id.map Char.toNat)
  isVersion value := value.bind Json.asU64 == some 1
  cooldownMs value := (value.bind Json.asU64).getD 0
  actionsNotArray := "actions must hold 1-8 entries"
  filtersNotArray := "event.filters allows at most 12 entries"
  refusesProfiles := false

/-- The nearest number with 53 significant bits, the even one of two. -/
def roundDouble (n : Nat) : Nat :=
  if n < 2 ^ 53 then n
  else
    let unit := 2 ^ (n.log2 - 52)
    let down := n / unit
    let twice := 2 * (n % unit)
    if unit < twice ∨ (unit = twice ∧ down % 2 = 1)
    then (down + 1) * unit else down * unit

/-- `Math.max(0, Math.floor(x))` of a number by its canonical text. -/
def flooredNumber (text : List Char) : Nat :=
  match text with
  | '-' :: _ => 0
  | text =>
    let whole := text.takeWhile Char.isDigit
    let afterWhole := text.dropWhile Char.isDigit
    let fraction := (afterWhole.drop 1).takeWhile Char.isDigit
    let exponent := (afterWhole.dropWhile (· ≠ 'e')).drop 1
    let digits := Nat.ofDigitChars 10 (whole ++ fraction) 0
    match exponent with
    | '-' :: shift =>
      digits / 10 ^ (fraction.length + Nat.ofDigitChars 10 shift 0)
    | shift =>
      let shift := Nat.ofDigitChars 10 (shift.filter Char.isDigit) 0
      roundDouble (digits * 10 ^ shift / 10 ^ fraction.length)

/-- The fields as the web view reads them. -/
def web : Dialect (List Nat) where
  readText value max :=
    match value with
    | some (.string text) =>
      let trimmed := jsTrim text.toList
      if trimmed = [] then none else some ((utf16 trimmed).take max)
    | _ => none
  clip text max := (utf16 text.toList).take max
  literal text := utf16 text.toList
  validId := validId
  -- the number one may also be written with a fraction
  isVersion value :=
    value.bind Json.asU64 == some 1 || value == some (.number "1.0")
  cooldownMs value :=
    match value with
    | some (.number text) => flooredNumber text.toList
    | _ => 0
  actionsNotArray := "actions must be an array"
  filtersNotArray := "event.filters must be an array"
  refusesProfiles := true

end TikTools.Templates
