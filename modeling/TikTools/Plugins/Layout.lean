/-
Where the installer keeps things: the package directory of a plugin,
its receipt, and the directories and receipts of its retained versions.

A version is a free-form manifest string. Its path component is
`sanitizeVersion` of it, which maps every character outside
`[A-Za-z0-9.+_-]` to '_' — a LOSSY map whose image still contains the
dot components. `RetainedConfined` is what the layout is supposed to
guarantee for two versions of a plugin, and `retained_confined_iff` is
the exact condition on the two strings under which it does.
-/
import TikTools.Lib.FileTree

namespace TikTools.Plugins

open TikTools.Lib List Path String

-- ==== accepted manifests

/-- The characters with the Unicode White_Space property. -/
def isWhitespace (c : Char) : Bool :=
  (9 ≤ c.toNat && c.toNat ≤ 13) || c.toNat == 32 || c.toNat == 133
    || c.toNat == 160 || c.toNat == 5760
    || (8192 ≤ c.toNat && c.toNat ≤ 8202) || c.toNat == 8232
    || c.toNat == 8233 || c.toNat == 8239 || c.toNat == 8287
    || c.toNat == 12288

/-- Nothing but white space: what trimming leaves empty. -/
def isBlank (s : String) : Bool := s.toList.all isWhitespace

def isAsciiLowercase (c : Char) : Bool := 'a' ≤ c && c ≤ 'z'

def isAsciiUppercase (c : Char) : Bool := 'A' ≤ c && c ≤ 'Z'

def isAsciiDigit (c : Char) : Bool := '0' ≤ c && c ≤ '9'

/-- A plugin id: 2 to 128 bytes, a lowercase letter first, then
lowercase letters, digits, dots, underscores and dashes. -/
def isValidPluginId (value : String) : Bool :=
  2 ≤ value.utf8ByteSize && value.utf8ByteSize ≤ 128
    && match value.toList with
      | [] => false
      | first :: rest => isAsciiLowercase first
          && rest.all fun c => isAsciiLowercase c || isAsciiDigit c
            || c == '.' || c == '_' || c == '-'

/-- The id that the examples use. -/
theorem isValidPluginId_demo : isValidPluginId "demo" = true := by decide

/-- The version check of manifest parsing. -/
def isAcceptedVersion (version : String) : Bool :=
  !isBlank version && version.utf8ByteSize ≤ 128
    && !version.toList.any isWhitespace

-- ==== layout

/-- The characters a version keeps in its path component. -/
def isVersionChar (c : Char) : Bool :=
  isAsciiLowercase c || isAsciiUppercase c || isAsciiDigit c
    || c == '.' || c == '-' || c == '+' || c == '_'

def sanitizeChar (c : Char) : Char := if isVersionChar c then c else '_'

def sanitizeVersion (version : String) : String :=
  String.ofList (version.toList.map sanitizeChar)

/-- The two directories the installer owns. -/
structure StoreLayout where
  plugins : Path
  store : Path

namespace StoreLayout

variable (layout : StoreLayout)

def package (pluginId : String) : Path := layout.plugins.join pluginId

def staging : Path := layout.plugins.join ".staging"

def receipts : Path := layout.store.join "receipts"

def receipt (pluginId : String) : Path :=
  layout.receipts.join (pluginId ++ ".json")

def versions (pluginId : String) : Path :=
  (layout.store.join "versions").join pluginId

def retained (pluginId version : String) : Path :=
  (layout.versions pluginId).join (sanitizeVersion version)

def retainedReceipt (pluginId version : String) : Path :=
  (layout.versions pluginId).join (sanitizeVersion version ++ ".json")

end StoreLayout

-- ==== the components

theorem plain_of_ne {s : String} (h : s ≠ "") (h1 : s ≠ ".")
    (h2 : s ≠ "..") : Path.Plain s := ⟨h, h1, h2⟩

theorem pluginId_plain {id : String} (h : isValidPluginId id = true) :
    Path.Plain id := by
  refine ⟨?_, ?_, ?_⟩
  all_goals
    intro e
    subst e
    revert h
    decide

variable {version : String}

theorem sanitizeVersion_eq_dots {dots : String}
    (hd : dots = "." ∨ dots = "..") :
    sanitizeVersion version = dots ↔ version = dots := by
  have hdot : ∀ c, sanitizeChar c = '.' ↔ c = '.' := by
    intro c
    unfold sanitizeChar
    split
    · rfl
    · rename_i h
      constructor
      · intro e
        exact absurd e (by decide)
      · intro e
        subst e
        exact absurd (by decide) h
  have hinj : sanitizeVersion version = dots
      ↔ version.toList.map sanitizeChar = dots.toList := by
    unfold sanitizeVersion
    rw [← toList_inj, toList_ofList]
  rw [hinj, ← toList_inj]
  rcases hd with rfl | rfl
  · rw [show ".".toList = ['.'] from rfl]
    rcases version.toList with _ | ⟨a, _ | ⟨b, l⟩⟩ <;> simp [hdot]
  · rw [show "..".toList = ['.', '.'] from rfl]
    rcases version.toList with _ | ⟨a, _ | ⟨b, _ | ⟨c, l⟩⟩⟩ <;> simp [hdot]

theorem sanitizeVersion_ne_empty (h : version ≠ "") :
    sanitizeVersion version ≠ "" := by
  intro e
  apply h
  have hl : version.toList.map sanitizeChar = [] := by
    have := congrArg String.toList e
    simpa [sanitizeVersion] using this
  have : version.toList = [] := map_eq_nil_iff.1 hl
  exact toList_eq_nil_iff.1 this

-- ==== versions that collide

/-- Two characters with one image: equal, or both written as the
underscore. -/
def Alike (a b : Char) : Prop :=
  a = b ∨ (isVersionChar a = false ∨ a = '_')
    ∧ (isVersionChar b = false ∨ b = '_')

/-- Two strings of one length that agree up to alike characters. -/
def LookAlike (v w : String) : Prop := List.Forall₂ Alike v.toList w.toList

theorem sanitizeChar_eq_iff (a b : Char) :
    sanitizeChar a = sanitizeChar b ↔ Alike a b := by
  unfold sanitizeChar Alike
  by_cases ha : isVersionChar a = true <;>
    by_cases hb : isVersionChar b = true
  · simp only [ha, hb, if_true, Bool.true_eq_false, false_or]
    constructor
    · exact .inl
    · rintro (h | ⟨h1, h2⟩)
      · exact h
      · rw [h1, h2]
  · have hne : a ≠ b := fun e => hb (e ▸ ha)
    simp [ha, hb, hne]
  · have hne : a ≠ b := fun e => ha (e ▸ hb)
    simp [ha, hb, hne, eq_comm]
  · simp [ha, hb]

theorem sanitizeVersion_eq_iff (v w : String) :
    sanitizeVersion v = sanitizeVersion w ↔ LookAlike v w := by
  unfold sanitizeVersion LookAlike
  rw [← toList_inj, toList_ofList, toList_ofList]
  generalize v.toList = l
  generalize w.toList = m
  induction l generalizing m with
  | nil =>
    cases m with
    | nil => simp
    | cons b m =>
      constructor
      · intro h
        cases h
      · intro h
        cases h
  | cons a l ih =>
    cases m with
    | nil =>
      constructor
      · intro h
        cases h
      · intro h
        cases h
    | cons b m =>
      simp only [map_cons, List.cons.injEq,
        List.forall₂_cons, sanitizeChar_eq_iff, ih]

theorem sanitizeVersion_json (v : String) :
    sanitizeVersion (v ++ ".json") = sanitizeVersion v ++ ".json" := by
  unfold sanitizeVersion
  rw [← toList_inj]
  simp only [toList_append, map_append, toList_ofList]
  congr 1

theorem json_plain (s : String) : Path.Plain (s ++ ".json") := by
  have hlen : 5 ≤ (s ++ ".json").length := by
    rw [String.length_append]
    have : ".json".length = 5 := rfl
    omega
  refine plain_of_ne ?_ ?_ ?_
  all_goals
    intro e
    rw [e] at hlen
    revert hlen
    decide

variable {v : String}

theorem sanitizeVersion_plain (h : v ≠ "") (h1 : v ≠ ".") (h2 : v ≠ "..") :
    Path.Plain (sanitizeVersion v) := by
  refine plain_of_ne (sanitizeVersion_ne_empty h) ?_ ?_
  · rw [ne_eq, sanitizeVersion_eq_dots (.inl rfl)]
    exact h1
  · rw [ne_eq, sanitizeVersion_eq_dots (.inr rfl)]
    exact h2

theorem acceptedVersion_ne_empty (h : isAcceptedVersion v = true) :
    v ≠ "" := by
  intro e
  subst e
  revert h
  decide

-- ==== confinement

namespace StoreLayout

variable (layout : StoreLayout)

/-- The files that belong to a retained version: its directory and its
receipt. These are also all the paths that retaining, restoring or
evicting the version removes or writes. -/
def RetainedFile (pluginId version : String) (path : Path) : Prop :=
  layout.retained pluginId version <+: path
    ∨ path = layout.retainedReceipt pluginId version

/-- What the layout owes two versions of a plugin. -/
structure RetainedConfined (pluginId v w : String) : Prop where
  /-- A retained directory is a child of the plugin's own versions
  directory. -/
  child : ∀ u, u = v ∨ u = w → ∃ c,
    layout.retained pluginId u = layout.versions pluginId ++ [c]
  /-- No receipt lies inside a retained directory. -/
  receiptOutside : ∀ a b, a = v ∨ a = w → b = v ∨ b = w →
    ¬ layout.retained pluginId a <+: layout.retainedReceipt pluginId b
  /-- Different versions have different directories. -/
  distinct : v ≠ w → layout.retained pluginId v ≠ layout.retained pluginId w
  /-- No path belongs to both versions. -/
  untouched : v ≠ w → ∀ path,
    ¬ (layout.RetainedFile pluginId v path
      ∧ layout.RetainedFile pluginId w path)
  /-- No path belongs to one of the versions and lies among another
  plugin's retained files. -/
  others : ∀ other, isValidPluginId other = true → other ≠ pluginId →
    ∀ u, u = v ∨ u = w → ∀ path, layout.versions other <+: path →
      ¬ layout.RetainedFile pluginId u path

theorem versions_eq {id : String} (h : isValidPluginId id = true) :
    layout.versions id = layout.store ++ ["versions", id] := by
  unfold versions
  rw [join_plain (pluginId_plain h),
    join_plain (show Path.Plain "versions" by decide)]
  simp

theorem retainedReceipt_eq {id : String} (v : String) :
    layout.retainedReceipt id v
      = layout.versions id ++ [sanitizeVersion v ++ ".json"] :=
  join_plain (json_plain _)

theorem versions_apart {a b : String} (ha : isValidPluginId a = true)
    (hb : isValidPluginId b = true) (h : a ≠ b) :
    Path.Apart (layout.versions a) (layout.versions b) := by
  rw [layout.versions_eq ha, layout.versions_eq hb]
  have hap : Path.Apart (layout.store ++ ["versions"] ++ [a])
      (layout.store ++ ["versions"] ++ [b]) := apart_children h
  simpa using hap

section

variable {layout} {id v w : String}

theorem child_below {ba : Path} {a b : String} :
    ba ++ [a] <+: ba ++ [b] ↔ a = b := by
  simp [cons_prefix_cons]

/-- A dot version is retained outside the children of its plugin's
versions directory. -/
theorem retained_dots (hid : isValidPluginId id = true)
    (h : v = "." ∨ v = "..") (c : String) :
    layout.retained id v ≠ layout.versions id ++ [c] := by
  unfold retained
  rcases h with rfl | rfl
  · rw [(sanitizeVersion_eq_dots (.inl rfl)).2 rfl, join_dot]
    simp
  · rw [(sanitizeVersion_eq_dots (.inr rfl)).2 rfl, join_dotdot,
      layout.versions_eq hid]
    intro e
    have := congrArg List.length e
    simp at this

end

/-- Confinement holds of two accepted versions exactly when neither is
a dot component, they do not look alike unless they are the same, and
neither looks like the other's receipt. -/
theorem retained_confined_iff {id v w : String}
    (hid : isValidPluginId id = true)
    (hv : isAcceptedVersion v = true) (hw : isAcceptedVersion w = true) :
    layout.RetainedConfined id v w
      ↔ (∀ u, u = v ∨ u = w → u ≠ "." ∧ u ≠ "..")
        ∧ (v ≠ w → ¬ LookAlike v w)
        ∧ ¬ LookAlike v (w ++ ".json")
        ∧ ¬ LookAlike w (v ++ ".json") := by
  have hvne := acceptedVersion_ne_empty hv
  have hwne := acceptedVersion_ne_empty hw
  constructor
  · intro h
    have hd : ∀ u, u = v ∨ u = w → u ≠ "." ∧ u ≠ ".." := by
      intro u hu
      obtain ⟨c, hc⟩ := h.child u hu
      constructor
      · intro e
        exact retained_dots hid (.inl e) c hc
      · intro e
        exact retained_dots hid (.inr e) c hc
    have hpt : ∀ u, u = v ∨ u = w → layout.retained id u
        = layout.versions id ++ [sanitizeVersion u] := by
      intro u hu
      have hne : u ≠ "" := by
        rcases hu with rfl | rfl
        · exact hvne
        · exact hwne
      exact join_plain (sanitizeVersion_plain hne (hd u hu).1 (hd u hu).2)
    have hr : ∀ a b, a = v ∨ a = w → b = v ∨ b = w →
        ¬ LookAlike a (b ++ ".json") := by
      intro a b ha hb hl
      apply h.receiptOutside a b ha hb
      rw [hpt a ha, layout.retainedReceipt_eq, child_below,
        ← sanitizeVersion_json, sanitizeVersion_eq_iff]
      exact hl
    refine ⟨hd, ?_, hr v w (.inl rfl) (.inr rfl),
      hr w v (.inr rfl) (.inl rfl)⟩
    intro hne hl
    apply h.distinct hne
    rw [hpt v (.inl rfl), hpt w (.inr rfl), (sanitizeVersion_eq_iff v w).2 hl]
  · intro ⟨hd, hl, hvw, hwv⟩
    have hpt : ∀ u, u = v ∨ u = w → layout.retained id u
        = layout.versions id ++ [sanitizeVersion u] := by
      intro u hu
      have hne : u ≠ "" := by
        rcases hu with rfl | rfl
        · exact hvne
        · exact hwne
      exact join_plain (sanitizeVersion_plain hne (hd u hu).1 (hd u hu).2)
    have hs : ∀ u : String, sanitizeVersion u
        ≠ sanitizeVersion u ++ ".json" := by
      intro u e
      have := congrArg String.length e
      rw [String.length_append] at this
      have h5 : ".json".length = 5 := rfl
      omega
    have hcr : ∀ a b, a = v ∨ a = w → b = v ∨ b = w →
        sanitizeVersion a ≠ sanitizeVersion b ++ ".json" := by
      intro a b ha hb
      rcases ha with rfl | rfl <;> rcases hb with rfl | rfl
      · exact hs _
      · rw [← sanitizeVersion_json, ne_eq, sanitizeVersion_eq_iff]
        exact hvw
      · rw [← sanitizeVersion_json, ne_eq, sanitizeVersion_eq_iff]
        exact hwv
      · exact hs _
    have hdr : v ≠ w → sanitizeVersion v ≠ sanitizeVersion w := by
      intro hne
      rw [ne_eq, sanitizeVersion_eq_iff]
      exact hl hne
    refine ⟨?_, ?_, ?_, ?_, ?_⟩
    · intro u hu
      exact ⟨_, hpt u hu⟩
    · intro a b ha hb
      rw [hpt a ha, layout.retainedReceipt_eq, child_below]
      exact hcr a b ha hb
    · intro hne
      rw [hpt v (.inl rfl), hpt w (.inr rfl)]
      intro e
      exact hdr hne (by simpa using e)
    · intro hne path
      unfold RetainedFile
      rw [hpt v (.inl rfl), hpt w (.inr rfl),
        layout.retainedReceipt_eq, layout.retainedReceipt_eq]
      rintro ⟨h1 | h1, h2 | h2⟩
      · rcases prefix_or_prefix_of_prefix h1 h2 with hp | hp
        · exact hdr hne (child_below.1 hp)
        · exact hdr hne (child_below.1 hp).symm
      · rw [h2, child_below] at h1
        exact hcr v w (.inl rfl) (.inr rfl) h1
      · rw [h1, child_below] at h2
        exact hcr w v (.inr rfl) (.inl rfl) h2
      · rw [h1] at h2
        have : sanitizeVersion v ++ ".json" = sanitizeVersion w ++ ".json" := by
          simpa using h2
        rw [← String.toList_inj, String.toList_append,
          String.toList_append] at this
        exact hdr hne (String.toList_inj.1 (append_cancel_right this))
    · intro other ho hne u hu path hpre hf
      have hin : layout.versions id <+: path := by
        rcases hf with h | h
        · rw [hpt u hu] at h
          exact (prefix_append _ _).trans h
        · rw [h, layout.retainedReceipt_eq]
          exact prefix_append _ _
      have hap := layout.versions_apart ho hid hne
      rcases prefix_or_prefix_of_prefix hpre hin with h | h
      · exact hap.1 h
      · exact hap.2 h

/-- Two ordinary versions: the condition is about them alone. -/
theorem retained_confined_ordinary :
    (StoreLayout.mk ["plugins"] ["store"]).RetainedConfined
        "demo" "1.0.0" "2.0.0-rc.1"
      ↔ (∀ u, u = "1.0.0" ∨ u = "2.0.0-rc.1" → u ≠ "." ∧ u ≠ "..")
        ∧ ("1.0.0" ≠ "2.0.0-rc.1" → ¬ LookAlike "1.0.0" "2.0.0-rc.1")
        ∧ ¬ LookAlike "1.0.0" ("2.0.0-rc.1" ++ ".json")
        ∧ ¬ LookAlike "2.0.0-rc.1" ("1.0.0" ++ ".json") :=
  retained_confined_iff ⟨["plugins"], ["store"]⟩
    (by decide) (by decide) (by decide)

/-- The manifest parser admits ".." and "1/0" as versions. The retained
path of ".." is the versions directory of EVERY plugin, and "1/0" is
retained in the directory of "1_0". -/
theorem retained_confined_fails :
    isAcceptedVersion ".." = true ∧ isAcceptedVersion "1/0" = true
      ∧ isAcceptedVersion "1_0" = true
      ∧ (StoreLayout.mk ["plugins"] ["store"]).retained "demo" ".."
        = ["store", "versions"]
      ∧ ¬ (StoreLayout.mk ["plugins"] ["store"]).RetainedConfined
          "demo" ".." "1.0"
      ∧ ¬ (StoreLayout.mk ["plugins"] ["store"]).RetainedConfined
          "demo" "1/0" "1_0" := by
  refine ⟨by decide, by decide, by decide, by decide, ?_, ?_⟩
  · intro h
    obtain ⟨c, hc⟩ := h.child ".." (.inl rfl)
    exact retained_dots (by decide) (.inr rfl) c hc
  · intro h
    exact h.distinct (by decide) (by decide)

end StoreLayout

end TikTools.Plugins
