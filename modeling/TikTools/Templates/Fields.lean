/-
The fields of a rule template that both sides read alike.

A document is plain when each of its fields is (`PlainTemplate`). The
sections go up from the texts to the filters and the actions. Each part
comes with the two directions: `_alike` for a plain one, and `plain_of_`
for one that is read alike, so that the conditions are exact.
-/
import TikTools.Templates.Rules

namespace TikTools.Templates

open TikTools.Lib List Option

-- ==== the condition

/-- Both sides cut a text to a length at the same character. -/
def Fits (text : List Char) (max : Nat) : Prop :=
  (utf16 (text.take max)).length ≤ max

/-- Both sides keep the same of a text that is trimmed and cut. -/
structure PlainString (text : String) (max : Nat) : Prop where
  blank : jsTrim text.toList = [] ↔ trim text.toList = []
  kept : (utf16 (jsTrim text.toList)).take max
    = utf16 ((trim text.toList).take max)

def PlainField : Option Json → Nat → Prop
  | some (.string text), max => PlainString text max
  | _, _ => True

/-- The key counts when there is a text to translate. -/
def PlainLocalized : Option Json → Nat → Prop
  | some (.string text), max => PlainString text max
  | some (.object members), max =>
    PlainField (Json.member "default" members) max
      ∧ (library.readText (Json.member "default" members) max ≠ none →
        PlainField (Json.member "i18key" members) 128)
  | _, _ => True

/-- Both sides keep the same id, or neither keeps one. -/
def PlainId : Option Json → Prop
  | some (.string text) =>
    let kept := (utf16 (jsTrim text.toList)).take 64
    let id := (trim text.toList).take 64
    validId kept = validId (id.map Char.toNat)
      ∧ (validId (id.map Char.toNat) → kept = utf16 id)
  | _ => True

def PlainClip : Option Json → Prop
  | some (.string text) => Fits text.toList 500
  | _ => True

def PlainAction : Json → Prop
  | .object item =>
    PlainField (Json.member "name" item) 80
      ∧ PlainField (Json.member "typeId" item) 128
  | _ => True

/-- The items of an array meet a condition. -/
def Each (p : Json → Prop) : Option Json → Prop
  | some (.array items) => ∀ item ∈ items, p item
  | _ => True

structure PlainFilterFields (map : List (String × Json)) : Prop where
  path : PlainField (Json.member "path" map) 200
  value : PlainClip (Json.member "value" map)
  values : Each (fun item => PlainClip (some item)) (Json.member "values" map)

def PlainFilter : Json → Prop
  | .object map => PlainFilterFields map
  | _ => True

/-- A whole number that both sides hold exactly, or nothing of one. -/
def PlainCooldown : Option Json → Prop
  | some (.number text) =>
    flooredNumber text.toList = ((Json.number text).asU64).getD 0
  | _ => True

structure PlainEventFields (raw : List (String × Json)) : Prop where
  name : PlainField (Json.member "name" raw) 80
  trigger : PlainField (Json.member "trigger" raw) 128
  filters : Each PlainFilter (Json.member "filters" raw)
  cooldownMs : PlainCooldown (Json.member "cooldownMs" raw)

def PlainEvent : Option Json → Prop
  | some (.object raw) => PlainEventFields raw
  | _ => True

structure PlainFields (doc : List (String × Json)) : Prop where
  version : Json.member "templateVersion" doc ≠ some (.number "1.0")
  id : PlainId (Json.member "id" doc)
  title : PlainLocalized (Json.member "title" doc) 120
  description : PlainLocalized (Json.member "description" doc) 500
  icon : PlainField (Json.member "icon" doc) 32
  actions : Each PlainAction (Json.member "actions" doc)
  event : PlainEvent (Json.member "event" doc)

/-- A document both sides read alike. -/
def PlainTemplate : Json → Prop
  | .object doc => PlainFields doc
  | _ => True

/-- An import both sides read alike: its documents are, and it is no
profile that lists documents. -/
structure PlainImport (value : Json) : Prop where
  documents : (templateDocuments value).length ≤ maxImportDocs →
    ∀ doc ∈ templateDocuments value, PlainTemplate doc
  profile : isProfile value → ∀ items,
    value.get "templates" = some (.array items) →
      items = [] ∨ maxImportDocs < items.length

-- ==== texts

theorem utf16_cons (c : Char) (text : List Char) :
    utf16 (c :: text) = utf16Units c ++ utf16 text := rfl

theorem utf16Units_cases (c : Char) :
    (c.toNat < 65536 ∧ utf16Units c = [c.toNat])
      ∨ (65536 ≤ c.toNat ∧ ∃ u v, utf16Units c = [u, v] ∧ 55296 ≤ u) := by
  by_cases h : c.toNat < 65536
  · exact .inl ⟨h, if_pos h⟩
  · exact .inr ⟨Nat.le_of_not_lt h, _, _, if_neg h, Nat.le_add_right _ _⟩

variable {value : Json} {text : List Char} {index : Nat}

theorem utf16_take {max : Nat} (h : Fits text max) :
    utf16 (text.take max) = (utf16 text).take max := by
  induction text generalizing max with
  | nil => simp [utf16]
  | cons c text ih =>
    cases max with
    | zero => rfl
    | succ max =>
      simp only [Fits, take_succ_cons, utf16_cons] at h ⊢
      rcases utf16Units_cases c with ⟨-, hc⟩ | ⟨-, u, v, hc, -⟩
      · rw [hc] at h ⊢
        simp only [cons_append, nil_append, take_succ_cons]
        rw [ih (Nat.le_of_succ_le_succ h)]
      · rw [hc] at h ⊢
        simp only [cons_append, nil_append, length_cons] at h
        have hr := @ih max (by unfold Fits; omega)
        have hs : (utf16 text).length < max := by
          have hlen := congrArg List.length hr
          rw [length_take] at hlen
          omega
        have hw : (utf16 text).take max = utf16 text :=
          take_of_length_le (by omega)
        have hb : ([u, v] ++ utf16 text).length ≤ max + 1 := by
          simp only [length_append, length_cons, length_nil]
          omega
        rw [hr, hw]
        exact (take_of_length_le hb).symm

theorem utf16_take_iff {max : Nat} :
    (utf16 text).take max = utf16 (text.take max) ↔ Fits text max := by
  constructor
  · intro h
    rw [Fits, ← h, length_take]
    exact Nat.min_le_left _ _
  · intro h
    exact (utf16_take h).symm

theorem PlainString.of_trims {text : String} {max : Nat}
    (ht : jsTrim text.toList = trim text.toList)
    (hf : Fits (trim text.toList) max) : PlainString text max where
  blank := by rw [ht]
  kept := by rw [ht, utf16_take_iff.2 hf]

theorem PlainField.of_trims (text : String) {value : Option Json}
    {max : Nat} (hv : value = some (.string text))
    (ht : jsTrim text.toList = trim text.toList)
    (hf : (utf16 ((trim text.toList).take max)).length ≤ max) :
    PlainField value max := by
  subst hv
  exact PlainString.of_trims ht hf

theorem readText_alike_iff {value : Option Json} {max : Nat} :
    web.readText value max = (library.readText value max).map utf16
      ↔ PlainField value max := by
  rcases value with _ | value
  · exact iff_of_true rfl trivial
  cases value with
  | string text =>
    have hf : PlainField (some (.string text)) max
        ↔ PlainString text max := Iff.rfl
    rw [hf]
    simp only [web, library]
    by_cases hweb : jsTrim text.toList = []
    · by_cases hlib : trim text.toList = []
      · have hp : PlainString text max :=
          ⟨by rw [hweb, hlib], by rw [hweb, hlib]; simp [utf16]⟩
        simp [hweb, hlib, hp]
      · have hp : ¬ PlainString text max := fun h =>
          hlib (h.blank.1 hweb)
        simp [hweb, hlib, hp]
    · by_cases hlib : trim text.toList = []
      · have hp : ¬ PlainString text max := fun h =>
          hweb (h.blank.2 hlib)
        simp [hweb, hlib, hp]
      · simp only [hweb, hlib, if_false, map_some,
          Option.some.injEq]
        exact ⟨fun h => ⟨iff_of_false hweb hlib, h⟩, fun h => h.kept⟩
  | null | bool _ | number _ | array _ | object _ =>
    exact iff_of_true rfl trivial

theorem readText_alike {value : Option Json} {max : Nat}
    (h : PlainField value max) :
    web.readText value max = (library.readText value max).map utf16 :=
  readText_alike_iff.2 h

theorem clip_alike_iff {text : String} :
    web.clip text 500 = utf16 (library.clip text 500)
      ↔ Fits text.toList 500 := utf16_take_iff

theorem clip_alike {text : String} (h : Fits text.toList 500) :
    web.clip text 500 = utf16 (library.clip text 500) :=
  clip_alike_iff.2 h

-- ==== ids

theorem lt_of_validId {id : List Nat} (h : validId id) :
    ∀ c ∈ id, c < 128 := by
  have hp : ∀ c, isIdPart c → c < 128 := by
    intro c hc
    simp only [isIdPart, isIdStart, Bool.or_eq_true, Bool.and_eq_true,
      decide_eq_true_eq, beq_iff_eq] at hc
    omega
  cases id with
  | nil => cases h
  | cons first rest =>
    simp only [validId, Bool.and_eq_true, decide_eq_true_eq] at h
    obtain ⟨⟨⟨hf, -⟩, -⟩, hr⟩ := h
    intro c hc
    rcases mem_cons.1 hc with rfl | hc
    · exact hp c (by simp [isIdPart, hf])
    · exact hp c (all_eq_true.1 hr c hc)

theorem utf16_of_lt (h : ∀ c ∈ text, c.toNat < 65536) :
    utf16 text = text.map Char.toNat := by
  induction text with
  | nil => rfl
  | cons c text ih =>
    have hc : utf16Units c = [c.toNat] := if_pos (h c mem_cons_self)
    rw [utf16_cons, hc, ih fun c hc => h c (mem_cons_of_mem _ hc)]
    rfl

theorem lt_of_units_lt {max : Nat}
    (h : ∀ u ∈ (utf16 text).take max, u < 55296) :
    ∀ c ∈ text.take max, c.toNat < 65536 := by
  induction text generalizing max with
  | nil => simp
  | cons c text ih =>
    cases max with
    | zero => simp
    | succ max =>
      rw [utf16_cons] at h
      rcases utf16Units_cases c with ⟨hc, hun⟩ | ⟨-, u, v, hun, hu⟩
      · rw [hun] at h
        simp only [cons_append, nil_append,
          take_succ_cons, mem_cons, forall_eq_or_imp] at h
        simp only [take_succ_cons, mem_cons, forall_eq_or_imp]
        exact ⟨hc, ih h.2⟩
      · rw [hun] at h
        have hl := h u (by simp)
        omega

/-- Cut to a length, a text is an id on both sides or on neither, and the
same one. -/
theorem validId_alike (text : List Char) (max : Nat) :
    validId ((utf16 text).take max) = validId ((text.take max).map
        Char.toNat)
      ∧ (validId ((text.take max).map Char.toNat) →
        (utf16 text).take max = utf16 (text.take max)) := by
  have hs : (∀ c ∈ text.take max, c.toNat < 65536) →
      (utf16 text).take max = (text.take max).map Char.toNat := by
    intro h
    have hun := utf16_of_lt h
    have hf : Fits text max := by
      rw [Fits, hun, length_map, length_take]
      exact Nat.min_le_left _ _
    rw [← utf16_take hf, hun]
  have hlib : validId ((text.take max).map Char.toNat) →
      ∀ c ∈ text.take max, c.toNat < 65536 := by
    intro h c hc
    have ha := lt_of_validId h _ (mem_map_of_mem hc)
    omega
  constructor
  · by_cases h : validId ((text.take max).map Char.toNat) = true
    · rw [hs (hlib h)]
    · by_cases hweb : validId ((utf16 text).take max) = true
      · have hun : ∀ u ∈ (utf16 text).take max, u < 55296 := by
          intro u hu
          have ha := lt_of_validId hweb u hu
          omega
        rw [hs (lt_of_units_lt hun)]
      · rw [Bool.eq_false_iff.2 h, Bool.eq_false_iff.2 hweb]
  · intro h
    rw [hs (hlib h), utf16_of_lt (hlib h)]

/-- An id that both sides trim alike; one that is cut within its length is
an id on neither side. -/
theorem PlainId.of_trims {text : String}
    (h : jsTrim text.toList = trim text.toList) :
    PlainId (some (.string text)) := by
  obtain ⟨hv, hc⟩ := validId_alike (trim text.toList) 64
  simp only [PlainId, h]
  exact ⟨hv, hc⟩

theorem id_alike_iff {value : Option Json} :
    (web.readText value 64).filter web.validId
        = ((library.readText value 64).filter library.validId).map utf16
      ↔ PlainId value := by
  rcases value with _ | value
  · exact iff_of_true rfl trivial
  cases value with
  | string text =>
    have hweb : (web.readText (some (.string text)) 64).filter web.validId
        = (some ((utf16 (jsTrim text.toList)).take 64)).filter validId := by
      by_cases h : jsTrim text.toList = []
      · simp only [web, h, if_true]
        rfl
      · simp [web, h]
    have hlib : (library.readText (some (.string text)) 64).filter
          library.validId
        = (some ((trim text.toList).take 64)).filter
          fun id => validId (id.map Char.toNat) := by
      by_cases h : trim text.toList = []
      · simp only [library, h, if_true]
        rfl
      · simp [library, h]
    rw [hweb, hlib]
    simp only [PlainId, filter_some]
    cases validId ((utf16 (jsTrim text.toList)).take 64) <;>
      cases validId (((trim text.toList).take 64).map Char.toNat) <;>
      simp
  | null | bool _ | number _ | array _ | object _ =>
    exact iff_of_true rfl trivial

-- ==== fields

section

variable {value : Option Json}

theorem readLocalized_alike {max : Nat} (h : PlainLocalized value max) :
    readLocalized web value max
      = (readLocalized library value max).map (TemplateText.map utf16) := by
  rcases value with _ | value
  · rfl
  cases value with
  | string text =>
    have ht : PlainField (some (.string text)) max := h
    simp only [readLocalized, readText_alike ht, Option.map_map]
    rfl
  | object m =>
    obtain ⟨hd, hkey⟩ := h
    simp only [readLocalized, readText_alike hd]
    cases ht : library.readText (Json.member "default" m) max with
    | none => rfl
    | some text =>
      have hkey := hkey (by rw [ht]; exact some_ne_none text)
      simp only [map_some, readText_alike hkey]
      rfl
  | null | bool _ | number _ | array _ => rfl

theorem plain_of_readLocalized {max : Nat} (h : readLocalized web value max
      = (readLocalized library value max).map (TemplateText.map utf16)) :
    PlainLocalized value max := by
  rcases value with _ | value
  · trivial
  cases value with
  | string text =>
    have hf : PlainField (some (.string text)) max :=
      readText_alike_iff.1 (by
        have hd := congrArg (Option.map TemplateText.default) h
        simpa [readLocalized, Option.map_map, Function.comp_def,
          TemplateText.map] using hd)
    exact hf
  | object m =>
    have hdf : web.readText (Json.member "default" m) max
        = (library.readText (Json.member "default" m) max).map utf16 := by
      have hd := congrArg (Option.map TemplateText.default) h
      simpa [readLocalized, Option.map_map, Function.comp_def,
        TemplateText.map] using hd
    refine ⟨readText_alike_iff.1 hdf, fun hs => ?_⟩
    obtain ⟨text, ht⟩ := ne_none_iff_exists'.1 hs
    simp only [readLocalized, hdf, ht, map_some,
      Option.some.injEq, TemplateText.map, TemplateText.mk.injEq,
      true_and] at h
    exact readText_alike_iff.1 h
  | null | bool _ | number _ | array _ => trivial

theorem library_readText_ne {max : Nat} (hmax : 0 < max) :
    library.readText value max ≠ some [] := by
  rcases value with _ | value
  · simp [library]
  cases value with
  | string text =>
    simp only [library]
    split
    · simp
    · next h =>
      have hmax := hmax.ne'
      simp [h, hmax]
  | null | bool _ | number _ | array _ | object _ => simp [library]

theorem utf16_eq_nil : utf16 text = [] ↔ text = [] := by
  cases text with
  | nil => exact iff_of_true rfl rfl
  | cons c text =>
    rcases utf16Units_cases c with ⟨-, hc⟩ | ⟨-, u, v, hc, -⟩ <;>
      simp [utf16_cons, hc]

theorem web_readText_ne {max : Nat} (hmax : 0 < max) :
    web.readText value max ≠ some [] := by
  rcases value with _ | value
  · simp [web]
  cases value with
  | string text =>
    simp only [web]
    split
    · simp
    · next h =>
      have hmax := hmax.ne'
      simp [h, hmax, utf16_eq_nil]
  | null | bool _ | number _ | array _ | object _ => simp [web]

theorem readLocalized_default {τ : Type} {d : Dialect τ} {max : Nat}
    {text : TemplateText τ} (h : readLocalized d value max = some text) :
    ∃ f, d.readText f max = some text.default := by
  rcases value with _ | value
  · cases h
  cases value with
  | string s =>
    obtain ⟨de, hd, rfl⟩ := map_eq_some_iff.1 h
    exact ⟨_, hd⟩
  | object members =>
    obtain ⟨de, hd, rfl⟩ := map_eq_some_iff.1 h
    exact ⟨_, hd⟩
  | null | bool _ | number _ | array _ => cases h

theorem plain_of_description
    (h : (readLocalized web value 500).getD ⟨web.literal "", none⟩
      = ((readLocalized library value 500).getD
        ⟨library.literal "", none⟩).map utf16) :
    PlainLocalized value 500 := by
  refine plain_of_readLocalized ?_
  cases hlib : readLocalized library value 500 with
  | none =>
    cases hweb : readLocalized web value 500 with
    | none => rfl
    | some text =>
      rw [hlib, hweb] at h
      obtain ⟨f, hf⟩ := readLocalized_default hweb
      have hem : text.default = [] := congrArg TemplateText.default h
      rw [hem] at hf
      exact absurd hf (web_readText_ne (by decide))
  | some text =>
    cases hweb : readLocalized web value 500 with
    | none =>
      rw [hlib, hweb] at h
      obtain ⟨f, hf⟩ := readLocalized_default hlib
      have hem : utf16 text.default = [] :=
        (congrArg TemplateText.default h).symm
      rw [utf16_eq_nil.1 hem] at hf
      exact absurd hf (library_readText_ne (by decide))
    | some text' =>
      rw [hlib, hweb] at h
      exact congrArg some h

theorem mem_of_head_utf16 {n : Nat} (hn : n < 55296)
    (h : (utf16 text).head? = some n) : ∃ c ∈ text, c.toNat = n := by
  cases text with
  | nil => cases h
  | cons c text =>
    rw [utf16_cons] at h
    rcases utf16Units_cases c with ⟨-, hc⟩ | ⟨-, u, v, hc, hu⟩
    · rw [hc] at h
      exact ⟨c, mem_cons_self, Option.some.inj h⟩
    · rw [hc] at h
      obtain rfl := Option.some.inj h
      omega

/-- Of a text that only one side finds empty, the other does not keep the
icon that stands for none: it begins with no white space. -/
theorem plain_of_icon (h : (web.readText value 32).getD (web.literal "plugin")
      = utf16 ((library.readText value 32).getD
        (library.literal "plugin"))) : PlainField value 32 := by
  have hp : (utf16 "plugin".toList).head? = some 112 := by
    decide +kernel
  rcases value with _ | value
  · trivial
  cases value with
  | string text =>
    obtain ⟨lead, trail, ht, hl, htr⟩ := exists_trim text.toList
    obtain ⟨lead', trail', ht', hl', htr'⟩ :=
      exists_strip isJsSpace text.toList
    change text.toList = lead' ++ jsTrim text.toList ++ trail' at ht'
    by_cases hweb : jsTrim text.toList = []
    · by_cases hlib : trim text.toList = []
      · exact ⟨by rw [hweb, hlib], by rw [hweb, hlib]; rfl⟩
      · simp only [web, library, hweb, hlib, if_true, if_false,
          getD_none, getD_some] at h
        rw [h] at hp
        obtain ⟨c, hc, hcd⟩ := mem_of_head_utf16 (by decide) hp
        have hmem : c ∈ lead' ++ trail' := by
          rw [hweb, append_nil] at ht'
          rw [← ht', ht]
          simp [mem_of_mem_take hc]
        have hs : isJsSpace c := (mem_append.1 hmem).elim (hl' c) (htr' c)
        simp [isJsSpace, isWhitespace, hcd] at hs
    · by_cases hlib : trim text.toList = []
      · simp only [web, library, hweb, hlib, if_true, if_false,
          getD_none, getD_some] at h
        rw [← h, head?_take, if_neg (by decide)] at hp
        obtain ⟨c, hc, hcd⟩ := mem_of_head_utf16 (by decide) hp
        have hmem : c ∈ lead ++ trail := by
          rw [hlib, append_nil] at ht
          rw [← ht, ht']
          simp [hc]
        have hs : isWhitespace c := (mem_append.1 hmem).elim (hl c) (htr c)
        simp [isWhitespace, hcd] at hs
      · simp only [web, library, hweb, hlib, if_false,
          getD_some] at h
        exact ⟨iff_of_false hweb hlib, h⟩
  | null | bool _ | number _ | array _ | object _ => trivial

theorem clipAll_alike {i : List Json}
    (h : ∀ item ∈ i, PlainClip (some item)) :
    clipAll web i = (clipAll library i).map (List.map utf16) := by
  induction i with
  | nil => rfl
  | cons item rest ih =>
    have hr := ih fun item hit => h item (mem_cons_of_mem _ hit)
    have hit := h item mem_cons_self
    cases item with
    | string text =>
      simp only [clipAll, hr, clip_alike hit, Option.map_map]
      rfl
    | null | bool _ | number _ | array _ | object _ => rfl

theorem plain_of_clipAll {i : List Json} {t : List (List Char)}
    (hlib : clipAll library i = some t)
    (hweb : clipAll web i = some (t.map utf16)) :
    ∀ item ∈ i, PlainClip (some item) := by
  induction i generalizing t with
  | nil => simp
  | cons item rest ih =>
    cases item with
    | string text =>
      obtain ⟨kept, hk, rfl⟩ := map_eq_some_iff.1 hlib
      obtain ⟨kept', hk', hb⟩ := map_eq_some_iff.1 hweb
      obtain ⟨ht, rfl⟩ := List.cons.inj hb
      intro item hit
      rcases mem_cons.1 hit with rfl | hit
      · exact clip_alike_iff.1 ht
      · exact ih hk hk' item hit
    | null | bool _ | number _ | array _ | object _ => cases hlib

theorem filterValues_alike
    (h : Each (fun i => PlainClip (some i)) value) :
    filterValues web value
      = (filterValues library value).map (Option.map (List.map utf16)) := by
  rcases value with _ | value
  · rfl
  cases value with
  | array items =>
    simp only [filterValues, clipAll_alike h, Option.map_map]
    rfl
  | null | bool _ | number _ | string _ | object _ => rfl

theorem plain_of_filterValues {v : Option (List (List Char))}
    (h : filterValues library value = some v)
    (hw : filterValues web value = some (v.map (List.map utf16))) :
    Each (fun i => PlainClip (some i)) value := by
  rcases value with _ | value
  · trivial
  cases value with
  | array items =>
    obtain ⟨texts, ht, rfl⟩ := map_eq_some_iff.1 h
    obtain ⟨texts', ht', hb⟩ := map_eq_some_iff.1 hw
    obtain rfl := Option.some.inj hb
    exact plain_of_clipAll ht ht'
  | null | bool _ | number _ | string _ | object _ => cases h

theorem clipText_alike (h : PlainClip value) :
    web.clip ((value.bind Json.asStr).getD "") 500
      = utf16 (library.clip ((value.bind Json.asStr).getD "") 500) := by
  rcases value with _ | value
  · exact clip_alike (Nat.zero_le _)
  cases value with
  | string text => exact clip_alike h
  | null | bool _ | number _ | array _ | object _ =>
    exact clip_alike (Nat.zero_le _)

theorem plain_of_clipText (h : web.clip ((value.bind Json.asStr).getD "") 500
      = utf16 (library.clip ((value.bind Json.asStr).getD "") 500)) :
    PlainClip value := by
  rcases value with _ | value
  · trivial
  cases value with
  | string text => exact clip_alike_iff.1 h
  | null | bool _ | number _ | array _ | object _ => trivial

end

theorem parseFilter_alike (h : PlainFilter value) (index : Nat) :
    parseFilter web value index
      = ((parseFilter library value index).1.map
          (RuleTemplateFilter.map utf16),
        (parseFilter library value index).2) := by
  cases value with
  | object map =>
    have hf : PlainFilterFields map := h
    simp only [parseFilter, readText_alike hf.path,
      filterValues_alike hf.values, clipText_alike hf.value,
      isSome_map]
    cases ((Json.member "operator" map).bind Json.asStr).filter
        (· ∈ operators) with
    | none => rfl
    | some operator =>
      cases filterValues library (Json.member "values" map) with
      | none => rfl
      | some values =>
        simp only [Option.map_some, Option.map_map]
        rfl
  | null | bool _ | number _ | string _ | array _ => rfl

theorem plain_of_parseFilter {f : RuleTemplateFilter (List Char)}
    (hlib : (parseFilter library value index).1 = some f)
    (hweb : (parseFilter web value index).1 = some (f.map utf16)) :
    PlainFilter value := by
  cases value with
  | object map =>
    simp only [parseFilter] at hlib hweb
    cases ho : ((Json.member "operator" map).bind
        Json.asStr).filter (· ∈ operators) with
    | none => rw [ho] at hlib; cases hlib
    | some operator =>
    simp only [ho] at hlib hweb
    cases hv : filterValues library (Json.member "values" map) with
    | none => rw [hv] at hlib; cases hlib
    | some values =>
    cases hv' : filterValues web (Json.member "values" map) with
    | none => rw [hv'] at hweb; cases hweb
    | some values' =>
    simp only [hv] at hlib
    simp only [hv'] at hweb
    obtain ⟨path, hp, rfl⟩ := map_eq_some_iff.1 hlib
    obtain ⟨path', hp', hb⟩ := map_eq_some_iff.1 hweb
    simp only [RuleTemplateFilter.map, RuleTemplateFilter.mk.injEq,
      true_and] at hb
    obtain ⟨rfl, hvl, rfl⟩ := hb
    exact {
      path := readText_alike_iff.1 (by rw [hp, hp', map_some])
      value := plain_of_clipText hvl
      values := plain_of_filterValues hv hv' : PlainFilterFields map }
  | null | bool _ | number _ | string _ | array _ => trivial

theorem parseFilter_found {τ : Type} {d : Dialect τ}
    (h : (parseFilter d value index).2 = []) :
    (parseFilter d value index).1.isSome := by
  cases value with
  | object map =>
    simp only [parseFilter] at h ⊢
    cases ho : ((Json.member "operator" map).bind
        Json.asStr).filter (· ∈ operators) with
    | none => simp [ho] at h
    | some operator =>
    simp only [ho] at h ⊢
    cases hv : filterValues d (Json.member "values" map) with
    | none => simp [hv] at h
    | some values =>
    simp only [hv] at h ⊢
    cases hp : d.readText (Json.member "path" map) 200 with
    | none => simp [hp, required] at h
    | some path => rfl
  | null | bool _ | number _ | string _ | array _ => cases h

theorem parseAction_alike (h : PlainAction value) (index : Nat) :
    parseAction web value index
      = ((parseAction library value index).1.map
          (RuleTemplateAction.map utf16),
        (parseAction library value index).2) := by
  cases value with
  | object item =>
    obtain ⟨hn, ht⟩ := h
    simp only [parseAction, readText_alike hn, readText_alike ht, isSome_map]
    cases library.readText (Json.member "name" item) 80 with
    | none => rfl
    | some name =>
      cases library.readText (Json.member "typeId" item) 128 with
      | none => rfl
      | some typeId =>
        cases (Json.member "config" item).bind Json.asObject with
        | none => rfl
        | some config => rfl
  | null | bool _ | number _ | string _ | array _ => rfl

theorem plain_of_parseAction {a : RuleTemplateAction (List Char)}
    (h : (parseAction library value index).1 = some a)
    (hw : (parseAction web value index).1 = some (a.map utf16)) :
    PlainAction value := by
  cases value with
  | object item =>
    simp only [parseAction, bind_eq_bind, Option.pure_def,
      bind_eq_some_iff, Option.some.injEq] at h hw
    obtain ⟨name, hn, typeId, ht, config, hc, rfl⟩ := h
    obtain ⟨name', hn', typeId', ht', config', -, hb⟩ := hw
    obtain ⟨rfl, rfl, -, -⟩ := hb
    exact ⟨readText_alike_iff.1 (by rw [hn, hn', map_some]),
      readText_alike_iff.1 (by rw [ht, ht', map_some])⟩
  | null | bool _ | number _ | string _ | array _ => trivial

theorem parseAction_found {τ : Type} {d : Dialect τ}
    (h : (parseAction d value index).2 = []) :
    (parseAction d value index).1.isSome := by
  cases value with
  | object item =>
    simp only [parseAction] at h ⊢
    cases hn : d.readText (Json.member "name" item) 80 with
    | none => simp [hn, required] at h
    | some name =>
    cases ht : d.readText (Json.member "typeId" item) 128 with
    | none => simp [ht, required] at h
    | some typeId =>
    cases hc : (Json.member "config" item).bind Json.asObject with
    | none => simp [hc, required] at h
    | some config => rfl
  | null | bool _ | number _ | string _ | array _ => cases h

end TikTools.Templates
