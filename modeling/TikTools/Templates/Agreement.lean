/-
Where the two rule template parsers agree.

Of a plain document both sides make the same template, or none; and a
document of which they do, and which the library accepts, is plain. The
same holds of an import, whose documents have to be plain, and which must
be no profile that lists documents (`parsers_agree`). The sections go up
from the items of a list to the document and to the list that is
imported. `parsers_differ` has a document for each difference.
-/
import TikTools.Templates.Fields

namespace TikTools.Templates

open TikTools.Lib List Option

-- ==== lists

section

variable {α β : Type} {parse : Json → Nat → Parsed α}
  {parse' : Json → Nat → Parsed β} {f : α → β} {items : List Json}

theorem parseEach_alike (h : ∀ item ∈ items, ∀ i, parse' item i
      = ((parse item i).1.map f, (parse item i).2)) (i : Nat) :
    parseEach parse' i items
      = ((parseEach parse i items).1.map f, (parseEach parse i items).2) := by
  induction items generalizing i with
  | nil => rfl
  | cons item rest ih =>
    have hr := ih (fun item hit =>
      h item (mem_cons_of_mem _ hit)) (i + 1)
    simp only [parseEach, h item mem_cons_self i, hr]
    cases (parse item i).1 with
    | none => rfl
    | some result => rfl

/-- Two lists without a fault and with like results: the items have like
results, one by one. -/
theorem parseEach_each (hf : ∀ item i, (parse item i).2 = [] →
      (parse item i).1.isSome)
    (hf' : ∀ item i, (parse' item i).2 = [] →
      (parse' item i).1.isSome) {i : Nat}
    (hes : (parseEach parse i items).2 = [])
    (he' : (parseEach parse' i items).2 = [])
    (h : (parseEach parse' i items).1 = (parseEach parse i items).1.map f) :
    ∀ item ∈ items, ∃ i r, (parse item i).1 = some r
      ∧ (parse' item i).1 = some (f r) := by
  induction items generalizing i with
  | nil => simp
  | cons item rest ih =>
    simp only [parseEach, append_eq_nil_iff] at hes he'
    obtain ⟨r, hres⟩ := isSome_iff_exists.1 (hf item i hes.1)
    obtain ⟨result', hres'⟩ := isSome_iff_exists.1 (hf' item i he'.1)
    simp only [parseEach, hres, hres', toList_some,
      singleton_append, map_cons] at h
    obtain ⟨rfl, hr⟩ := List.cons.inj h
    intro o ho
    rcases mem_cons.1 ho with rfl | ho
    · exact ⟨i, r, hres, hres'⟩
    · exact ih hes.2 he'.2 hr o ho

end

/-- Two parts with results in another form, and faults on both sides or
on neither. -/
structure Alike {α β : Type} (f : α → β) (a : α × List String)
    (b : β × List String) : Prop where
  result : b.1 = f a.1
  errors : b.2 = [] ↔ a.2 = []

section

variable {value : Option Json}

theorem parseActions_alike (h : Each PlainAction value) :
    Alike (List.map (RuleTemplateAction.map utf16))
      (parseActions library value) (parseActions web value) := by
  have hn : Alike (List.map (RuleTemplateAction.map utf16))
      ([], [library.actionsNotArray]) ([], [web.actionsNotArray]) :=
    ⟨rfl, by simp⟩
  rcases value with _ | value
  · exact hn
  cases value with
  | array items =>
    have hit := parseEach_alike (fun i him => parseAction_alike (h i him)) 0
    simp only [parseActions]
    split
    · exact ⟨rfl, Iff.rfl⟩
    · rw [hit]
      exact ⟨rfl, Iff.rfl⟩
  | null | bool _ | number _ | string _ | object _ => exact hn

theorem plain_of_parseActions (hl : (parseActions library value).2 = [])
    (hw : (parseActions web value).2 = [])
    (h : (parseActions web value).1 = (parseActions library value).1.map
      (RuleTemplateAction.map utf16)) : Each PlainAction value := by
  rcases value with _ | value
  · trivial
  cases value with
  | array items =>
    by_cases hc : items = [] ∨ maxActions < items.length
    · simp [parseActions, hc] at hl
    · simp only [parseActions, hc, if_false] at hl hw h
      intro i hit
      obtain ⟨index, action, ha, ha'⟩ := parseEach_each
        (fun _ _ => parseAction_found) (fun _ _ => parseAction_found)
        hl hw h i hit
      exact plain_of_parseAction ha ha'
  | null | bool _ | number _ | string _ | object _ => trivial

theorem parseFilters_alike (h : Each PlainFilter value) :
    Alike (List.map (RuleTemplateFilter.map utf16))
      (parseFilters library value) (parseFilters web value) := by
  rcases value with _ | value
  · exact ⟨rfl, Iff.rfl⟩
  cases value with
  | array items =>
    have hit := parseEach_alike (fun i him => parseFilter_alike (h i him)) 0
    simp only [parseFilters]
    split
    · exact ⟨rfl, Iff.rfl⟩
    · rw [hit]
      exact ⟨rfl, Iff.rfl⟩
  | null | bool _ | number _ | string _ | object _ =>
    exact ⟨rfl, by simp [parseFilters]⟩

theorem plain_of_parseFilters (hl : (parseFilters library value).2 = [])
    (hw : (parseFilters web value).2 = [])
    (h : (parseFilters web value).1 = (parseFilters library value).1.map
      (RuleTemplateFilter.map utf16)) : Each PlainFilter value := by
  rcases value with _ | value
  · trivial
  cases value with
  | array items =>
    by_cases hc : maxFilters < items.length
    · simp [parseFilters, hc] at hl
    · simp only [parseFilters, hc, if_false] at hl hw h
      intro i hit
      obtain ⟨index, filter, hf, hf'⟩ := parseEach_each
        (fun _ _ => parseFilter_found) (fun _ _ => parseFilter_found)
        hl hw h i hit
      exact plain_of_parseFilter hf hf'
  | null | bool _ | number _ | string _ | object _ => trivial

theorem cooldown_alike (h : PlainCooldown value) :
    web.cooldownMs value = library.cooldownMs value := by
  rcases value with _ | value
  · rfl
  cases value with
  | number text => exact h
  | null | bool _ | string _ | array _ | object _ => rfl

theorem parseEvent_alike (h : PlainEvent value) :
    Alike (Option.map (RuleTemplateEvent.map utf16))
      (parseEvent library value) (parseEvent web value) := by
  rcases value with _ | value
  · exact ⟨rfl, Iff.rfl⟩
  cases value with
  | object raw =>
    have hf : PlainEventFields raw := h
    obtain ⟨hfl, hes⟩ := parseFilters_alike hf.filters
    simp only [parseEvent, readText_alike hf.name,
      readText_alike hf.trigger, cooldown_alike hf.cooldownMs,
      hfl, isSome_map]
    constructor
    · cases library.readText (Json.member "name" raw) 80 with
      | none => rfl
      | some name =>
        cases library.readText (Json.member "trigger" raw) 128 with
        | none => rfl
        | some trigger => rfl
    · simp only [append_eq_nil_iff, hes]
  | null | bool _ | number _ | string _ | array _ =>
    exact ⟨rfl, Iff.rfl⟩

theorem plain_of_cooldown
    (h : web.cooldownMs value = library.cooldownMs value) :
    PlainCooldown value := by
  rcases value with _ | value
  · trivial
  cases value with
  | number text => exact h
  | null | bool _ | string _ | array _ | object _ => trivial

theorem parseEvent_ok {τ : Type} {d : Dialect τ} {e : RuleTemplateEvent τ}
    (h : parseEvent d value = (some e, [])) :
    ∃ raw, value = some (.object raw)
      ∧ d.readText (Json.member "name" raw) 80 = some e.name
      ∧ d.readText (Json.member "trigger" raw) 128 = some e.trigger
      ∧ parseFilters d (Json.member "filters" raw) = (e.filters, [])
      ∧ d.cooldownMs (Json.member "cooldownMs" raw) = e.cooldownMs := by
  rcases value with _ | value
  · cases h
  cases value with
  | object raw =>
    simp only [parseEvent, bind_eq_bind, Option.pure_def,
      Prod.mk.injEq, bind_eq_some_iff, Option.some.injEq] at h
    obtain ⟨⟨name, hn, trigger, ht, rfl⟩, hes⟩ := h
    have hf := (append_eq_nil_iff.1 hes).2
    exact ⟨raw, rfl, hn, ht, Prod.ext rfl hf, rfl⟩
  | null | bool _ | number _ | string _ | array _ => cases h

theorem plain_of_parseEvent {e : RuleTemplateEvent (List Char)}
    (h : parseEvent library value = (some e, []))
    (hw : parseEvent web value = (some (e.map utf16), [])) :
    PlainEvent value := by
  obtain ⟨raw, rfl, hn, ht, hf, hc⟩ := parseEvent_ok h
  obtain ⟨raw', hr, hn', ht', hf', hc'⟩ := parseEvent_ok hw
  obtain rfl := Json.object.inj (Option.some.inj hr)
  exact {
    name := readText_alike_iff.1 (by rw [hn, hn']; rfl)
    trigger := readText_alike_iff.1 (by rw [ht, ht']; rfl)
    filters := plain_of_parseFilters (by rw [hf]) (by rw [hf'])
      (by rw [hf, hf']; rfl)
    cooldownMs := plain_of_cooldown (by
      rw [hc, hc']; rfl) : PlainEventFields raw }

theorem isVersion_alike (h : value ≠ some (.number "1.0")) :
    web.isVersion value = library.isVersion value := by
  simp [web, library, h]

end

-- ==== documents

variable {value : Json}

/-- A plain document becomes the same template on both sides, or none on
either. -/
theorem parseRuleTemplate_alike (h : PlainTemplate value) :
    (parseRuleTemplate web value).toOption
      = (parseRuleTemplate library value).toOption.map
        (RuleTemplate.map utf16) := by
  cases value with
  | object doc =>
    have hf : PlainFields doc := h
    obtain ⟨ha, hw⟩ := parseActions_alike hf.actions
    obtain ⟨hev, he⟩ := parseEvent_alike hf.event
    simp only [parseRuleTemplate, isVersion_alike hf.version,
      id_alike_iff.2 hf.id, readLocalized_alike hf.title,
      readLocalized_alike hf.description,
      readText_alike hf.icon, ha, hev, isSome_map]
    split
    · cases (library.readText (Json.member "id" doc) 64).filter
          library.validId with
      | none => rfl
      | some id =>
      cases readLocalized library (Json.member "title" doc) 120 with
      | none => rfl
      | some title =>
      cases (parseEvent library (Json.member "event" doc)).1 with
      | none => rfl
      | some event =>
        simp only [map_some, append_eq_nil_iff, hw, he, ne_eq, map_eq_nil_iff]
        split
        · cases readLocalized library (Json.member "description" doc)
            500 <;>
          cases library.readText (Json.member "icon" doc) 32 <;> rfl
        · rfl
    · rfl
  | null | bool _ | number _ | string _ | array _ => rfl

theorem parseRuleTemplate_ok {τ : Type} {d : Dialect τ}
    {t : RuleTemplate τ}
    (h : parseRuleTemplate d value = .ok t) :
    ∃ doc, value = .object doc
      ∧ d.isVersion (Json.member "templateVersion" doc)
      ∧ (d.readText (Json.member "id" doc) 64).filter d.validId = some t.id
      ∧ readLocalized d (Json.member "title" doc) 120 = some t.title
      ∧ (readLocalized d (Json.member "description" doc) 500).getD
          ⟨d.literal "", none⟩ = t.description
      ∧ (d.readText (Json.member "icon" doc) 32).getD (d.literal "plugin")
        = t.icon
      ∧ parseActions d (Json.member "actions" doc) = (t.actions, [])
      ∧ parseEvent d (Json.member "event" doc) = (some t.event, []) := by
  cases value with
  | object doc =>
    simp only [parseRuleTemplate] at h
    split at h
    · next hv =>
      split at h
      · next id title event hid ht hev =>
        split at h
        · next hok =>
          obtain ⟨hes, -⟩ := hok
          simp only [append_eq_nil_iff] at hes
          obtain ⟨⟨-, ha⟩, hw⟩ := hes
          cases h
          exact ⟨doc, rfl, hv, hid, ht, rfl, rfl,
            Prod.ext rfl ha, Prod.ext hev hw⟩
        · cases h
      · cases h
    · cases h
  | null | bool _ | number _ | string _ | array _ => cases h

/-- An accepted document that becomes the same template on the other side
is plain. -/
theorem plain_of_parseRuleTemplate {t : RuleTemplate (List Char)}
    (hl : parseRuleTemplate library value = .ok t)
    (hw : parseRuleTemplate web value = .ok (t.map utf16)) :
    PlainTemplate value := by
  obtain ⟨doc, rfl, h, hid, ht, hd, hic, ha, hev⟩ := parseRuleTemplate_ok hl
  obtain ⟨doc', hdoc, -, hid', ht', hd', hi', ha',
    he'⟩ := parseRuleTemplate_ok hw
  obtain rfl := Json.object.inj hdoc
  exact {
    version := by
      intro ho
      rw [ho] at h
      exact absurd h (by decide +kernel)
    id := id_alike_iff.1 (by rw [hid, hid']; rfl)
    title := plain_of_readLocalized (by rw [ht, ht']; rfl)
    description := plain_of_description (by
      rw [hd, hd']; rfl)
    icon := plain_of_icon (by rw [hic, hi']; rfl)
    actions := plain_of_parseActions (by rw [ha]) (by rw [ha'])
      (by rw [ha, ha']; rfl)
    event := plain_of_parseEvent hev he' : PlainFields doc }

theorem importEntry_fst {τ : Type} (d : Dialect τ) (e : Json)
    (i : Nat) :
    (importEntry d e i).1 = (parseRuleTemplate d e).toOption := by
  unfold importEntry
  cases parseRuleTemplate d e with
  | ok template => rfl
  | error errors => rfl

theorem parseEach_results {α β : Type} {parse : Json → Nat → Parsed α}
    {parse' : Json → Nat → Parsed β} {f : α → β} {items : List Json}
    (h : ∀ item ∈ items, ∀ i, (parse' item i).1
      = (parse item i).1.map f) (i : Nat) :
    (parseEach parse' i items).1 = (parseEach parse i items).1.map f := by
  induction items generalizing i with
  | nil => rfl
  | cons item rest ih =>
    have hr := ih (fun item hit =>
      h item (mem_cons_of_mem _ hit)) (i + 1)
    simp only [parseEach, hr, h item mem_cons_self i]
    cases (parse item i).1 with
    | none => rfl
    | some result => rfl

theorem parseRuleTemplate_profile (h : isProfile value) :
    (parseRuleTemplate library value).toOption = none := by
  cases value with
  | object doc =>
    have hver : Json.member "templateVersion" doc = none := by
      have hb := Bool.and_eq_true_iff.1 h
      exact isNone_iff_eq_none.1 hb.2
    simp only [parseRuleTemplate, hver]
    rfl
  | null | bool _ | number _ | string _ | array _ => rfl

theorem import_profile (h : isProfile value)
    (hn : ∀ items, value.get "templates" = some (.array items) →
      items = [] ∨ maxImportDocs < items.length) :
    (parseRuleTemplateList library value).1 = [] := by
  have hem : ∀ d : List Json,
      (d = [] ∨ maxImportDocs < d.length
        ∨ d = [value]) → templateDocuments value = d →
      (parseRuleTemplateList library value).1 = [] := by
    intro d hc hd
    simp only [parseRuleTemplateList, hd, library, Bool.false_and,
      Bool.false_eq_true, if_false]
    rcases hc with rfl | hl | rfl
    · rfl
    · split
      · rfl
      · rfl
    · have hen := parseRuleTemplate_profile h
      rw [← importEntry_fst library value 0] at hen
      simp only [library] at hen
      simp only [cons_ne_nil, if_false, maxImportDocs,
        length_singleton, parseEach]
      rw [hen]
      rfl
  cases value with
  | object doc =>
    cases ht : Json.member "templates" doc with
    | none => exact hem _ (.inr (.inr rfl)) (by
        simp only [templateDocuments, ht])
    | some t =>
      cases t with
      | array items =>
        have hit := hn items ht
        exact hem items (hit.imp_right .inl) (by
          simp only [templateDocuments, ht])
      | null | bool _ | number _ | string _ | object _ =>
        exact hem _ (.inr (.inr rfl)) (by
          simp only [templateDocuments, ht])
  | null | bool _ | number _ | string _ | array _ => cases h

theorem parseRuleTemplateList_alike (h : PlainImport value) :
    (parseRuleTemplateList web value).1
      = (parseRuleTemplateList library value).1.map
        (RuleTemplate.map utf16) := by
  by_cases hp : isProfile value = true
  · rw [import_profile hp (h.profile hp)]
    simp [parseRuleTemplateList, web, hp]
  · simp only [parseRuleTemplateList, hp, Bool.and_false,
      Bool.false_eq_true, if_false]
    split
    · rfl
    · split
      · rfl
      · next hlen =>
        refine parseEach_results (fun doc hdoc index => ?_) 0
        rw [importEntry_fst, importEntry_fst]
        exact parseRuleTemplate_alike
          (h.documents (Nat.le_of_not_lt hlen) doc hdoc)

/-- Both sides make the same template of a document, or none. -/
def SameTemplate (value : Json) : Prop :=
  (parseRuleTemplate web value).toOption
    = (parseRuleTemplate library value).toOption.map (RuleTemplate.map utf16)

/-- Both sides keep the same of an import, and refuse the same of its
documents. -/
structure SameImport (value : Json) : Prop where
  kept : (parseRuleTemplateList web value).1
    = (parseRuleTemplateList library value).1.map (RuleTemplate.map utf16)
  entries : (templateDocuments value).length ≤ maxImportDocs →
    ∀ doc ∈ templateDocuments value, SameTemplate doc

/-- The library accepts a document. -/
def Accepted (value : Json) : Prop :=
  ∃ template, parseRuleTemplate library value = .ok template

/-- The library keeps every document of an import. -/
structure AllAccepted (value : Json) : Prop where
  some : templateDocuments value ≠ []
  count : (templateDocuments value).length ≤ maxImportDocs
  accepted : ∀ doc ∈ templateDocuments value, Accepted doc

theorem plain_of_sameTemplate (ha : Accepted value)
    (h : SameTemplate value) : PlainTemplate value := by
  obtain ⟨template, hl⟩ := ha
  rw [SameTemplate, hl] at h
  cases hweb : parseRuleTemplate web value with
  | error errors =>
    rw [hweb] at h
    cases h
  | ok template' =>
    rw [hweb] at h
    obtain rfl := Option.some.inj h
    exact plain_of_parseRuleTemplate hl hweb

theorem parseRuleTemplateList_of {τ : Type} {d : Dialect τ}
    (hp : (d.refusesProfiles && isProfile value) = false)
    (hs : templateDocuments value ≠ [])
    (hc : (templateDocuments value).length ≤ maxImportDocs) :
    parseRuleTemplateList d value
      = parseEach (importEntry d) 0 (templateDocuments value) := by
  have hc := Nat.not_lt.2 hc
  simp only [parseRuleTemplateList, hp, hs, hc, if_false, Bool.false_eq_true]

theorem kept_ne_nil (h : AllAccepted value) :
    (parseRuleTemplateList library value).1 ≠ [] := by
  obtain ⟨doc, rest, hd⟩ := exists_cons_of_ne_nil h.some
  obtain ⟨template, ht⟩ := h.accepted doc (by simp [hd])
  have hen := importEntry_fst library doc 0
  rw [ht] at hen
  rw [parseRuleTemplateList_of rfl h.some h.count, hd]
  simp only [parseEach, hen]
  exact cons_ne_nil _ _

theorem plain_of_sameImport (ha : AllAccepted value)
    (h : SameImport value) : PlainImport value where
  documents hc doc hdoc :=
    plain_of_sameTemplate (ha.accepted doc hdoc) (h.entries hc doc hdoc)
  profile hp items hit := by
    have hr : (parseRuleTemplateList web value).1 = [] := by
      simp [parseRuleTemplateList, web, hp]
    have hk := h.kept
    rw [hr] at hk
    exact absurd (map_eq_nil_iff.1 hk.symm) (kept_ne_nil ha)

-- ==== the parsers

/-- A plain document becomes the same template on both sides, or none on
either, and a document that the library accepts has to be plain for
that. An import of plain documents that is no profile with a list keeps
the same on both sides, and one that the library keeps all of has to be
such an import. -/
theorem parsers_agree (value : Json) :
    (PlainTemplate value → SameTemplate value)
      ∧ (Accepted value → SameTemplate value → PlainTemplate value)
      ∧ (PlainImport value → SameImport value)
      ∧ (AllAccepted value → SameImport value → PlainImport value) := by
  refine ⟨parseRuleTemplate_alike, plain_of_sameTemplate, fun h => ?_,
    plain_of_sameImport⟩
  exact {
    kept := parseRuleTemplateList_alike h
    entries := fun hc doc hdoc =>
      parseRuleTemplate_alike (h.documents hc doc hdoc) }

/-- A rule with one action, by its version, its title and its cooldown. -/
def followFields (version : Json) (title : String) (cooldown : Json) :
    List (String × Json) :=
  [("templateVersion", version), ("id", .string "follow"),
    ("title", .string title),
    ("actions", .array [.object [("name", .string "Thank"),
      ("typeId", .string "chat.send"), ("config", .object [])]]),
    ("event", .object [("name", .string "Follow"),
      ("trigger", .string "follow"), ("cooldownMs", cooldown)])]

def followRule (version : Json) (title : String) (cooldown : Json) : Json :=
  .object (followFields version title cooldown)

theorem followRule_plain :
    PlainTemplate (followRule (.number "1") "Thanks" (.number "1500")) := by
  have ha : PlainAction (.object [("name", .string "Thank"),
      ("typeId", .string "chat.send"), ("config", .object [])]) :=
    ⟨PlainField.of_trims "Thank" rfl (by decide +kernel)
        (by decide +kernel),
      PlainField.of_trims "chat.send" (by decide +kernel)
        (by decide +kernel) (by decide +kernel)⟩
  have hev : PlainEventFields [("name", .string "Follow"),
      ("trigger", .string "follow"), ("cooldownMs", .number "1500")] := {
    name := PlainField.of_trims "Follow" (by decide +kernel)
      (by decide +kernel) (by decide +kernel)
    trigger := PlainField.of_trims "follow" (by decide +kernel)
      (by decide +kernel) (by decide +kernel)
    filters := trivial
    cooldownMs := plain_of_cooldown (by decide +kernel) }
  have hf : PlainFields
      (followFields (.number "1") "Thanks" (.number "1500")) := {
    version := by decide +kernel
    id := by
      have hid : Json.member "id" (followFields (.number "1") "Thanks"
          (.number "1500")) = some (.string "follow") := by decide +kernel
      exact PlainId.of_trims (by decide +kernel)
    title := by
      have ht : Json.member "title" (followFields (.number "1") "Thanks"
          (.number "1500")) = some (.string "Thanks") := by decide +kernel
      exact PlainString.of_trims (by decide +kernel)
        (by unfold Fits; decide +kernel)
    description := trivial
    icon := trivial
    actions := fun item hit => by
      obtain rfl := mem_singleton.1 hit
      exact ha
    event := hev }
  exact hf

theorem parsers_agree_follow :
    SameTemplate (followRule (.number "1") "Thanks" (.number "1500"))
      ∧ SameImport (.array
        [followRule (.number "1") "Thanks" (.number "1500")]) := by
  have him : PlainImport (.array
      [followRule (.number "1") "Thanks" (.number "1500")]) := {
    documents := fun _ doc hdoc => by
      obtain rfl := mem_singleton.1 hdoc
      exact followRule_plain
    profile := fun hp => by cases hp }
  exact ⟨(parsers_agree _).1 followRule_plain, (parsers_agree _).2.2.1 him⟩

/-- The two parsers differ on a version with a fraction, on the next line
control around a title, on a title of characters beyond the first plane,
on a cooldown with a fraction, and on a profile that lists a template. -/
theorem parsers_differ :
    ¬ SameTemplate (followRule (.number "1.0") "Thanks" (.number "0"))
      ∧ ¬ SameTemplate (followRule (.number "1") "\u0085Thanks" (.number "0"))
      ∧ ¬ SameTemplate (followRule (.number "1")
        (String.ofList (List.replicate 61 (Char.ofNat 128512)))
        (.number "0"))
      ∧ ¬ SameTemplate (followRule (.number "1") "Thanks" (.number "1500.5"))
      ∧ ¬ SameImport (.object [("profileVersion", .number "1"),
        ("templates", .array
          [followRule (.number "1") "Thanks" (.number "0")])]) := by
  refine ⟨?_, ?_, ?_, ?_, fun h => ?_⟩
  · unfold SameTemplate; decide +kernel
  · unfold SameTemplate; decide +kernel
  · unfold SameTemplate; decide +kernel
  · unfold SameTemplate; decide +kernel
  · exact absurd h.kept (by decide +kernel)

end TikTools.Templates
