/-
The fan-out of domain events to the plugins that subscribe to them.

A cache holds, per plugin of the registry, the patterns it subscribes to
and whether it can receive events at all, with an index of the exact
topics. It is rebuilt when one of two revisions has moved. What it finds
for a topic are the plugins that can receive events and that subscribe to
the topic, each once (`mem_matching`, `nodup_matching`), as the manifest
language has it (`matches_entryOf`).
-/
import TikTools.Lib.Json
import TikTools.Lib.Text
import Mathlib.Data.List.Sort
import Mathlib.Data.List.Dedup
import Mathlib.Data.List.DropRight

namespace TikTools.PluginEvents

open TikTools.Lib List

-- ==== the plugins

/-- A plugin as the registry lists it. -/
structure DiscoveredPlugin where
  id : String
  declarative : Bool
  capabilities : List String
  eventSubscriptions : List String
  available : Bool
  running : Bool
  deriving DecidableEq

structure PluginActivation where
  installed : Bool
  enabled : Bool
  deriving DecidableEq

/-- What the observer reads of the plugins: the registry, the generation
that runs of each, and which are enabled. -/
structure Core where
  plugins : List DiscoveredPlugin
  instances : String → Option Nat
  activation : String → Option PluginActivation
  registryRevision : Nat
  activationRevision : Nat

namespace Core

variable (core : Core)

def get (id : String) : Option DiscoveredPlugin :=
  core.plugins.find? fun plugin => plugin.id = id

def runningGeneration (id : String) : Option Nat := core.instances id

def isRunning (id : String) : Bool := (core.instances id).isSome

/-- Available, and not known to be removed or disabled. -/
def pluginReady (id : String) : Bool :=
  match core.get id with
  | none => false
  | some plugin =>
    plugin.available
      && (core.activation id).all fun state =>
        state.installed && state.enabled

end Core

/-- A declared capability covers a requested one. -/
def capabilityMatches (declared requested : String) : Bool :=
  declared = "*" || declared = requested
    || (['.', '*'].isSuffixOf declared.toList
      && (declared.toList.rdropWhile (· = '*')).isPrefixOf requested.toList)

def eventsSubscribe : String := "events.subscribe"

def declaresCapability (plugin : DiscoveredPlugin) (requested : String) :
    Bool :=
  plugin.capabilities.any fun declared =>
    capabilityMatches declared requested

/-- The worker of a plugin may live. -/
def eligibleForDelivery (core : Core) (plugin : DiscoveredPlugin) : Bool :=
  !plugin.declarative && plugin.running && core.pluginReady plugin.id
    && declaresCapability plugin eventsSubscribe
    && !plugin.eventSubscriptions.isEmpty

-- ==== subscriptions

/-- The namespace of a wildcard such as `live.*`. -/
def wildcardNamespace (subscription : String) : Option String :=
  match subscription.toList.reverse with
  | '*' :: '.' :: name => some (String.ofList name.reverse)
  | _ => none

/-- A topic is below a namespace. -/
def below (topic name : String) : Bool := startsWith topic (name ++ ".")

/-- The manifest language: everything, one topic, or a namespace. -/
def eventSubscriptionMatches (subscription topic : String) : Bool :=
  subscription = "*" || subscription = topic
    || (wildcardNamespace subscription).any fun name =>
      name ≠ "" && below topic name

-- ==== the cache

structure FanoutEntry where
  id : String
  exact : List String
  prefixes : List String
  matchAll : Bool
  staticEligible : Bool

def FanoutEntry.matches (entry : FanoutEntry) (topic : String) : Bool :=
  entry.matchAll || entry.exact.any (· = topic)
    || entry.prefixes.any (below topic)

structure FanoutCache where
  registryRevision : Nat
  activationRevision : Nat
  entries : List FanoutEntry
  /-- The entries that name a topic, once for each time they do. -/
  exactIndex : String → List Nat
  matchAll : List Nat
  wildcard : List Nat

/-- The subscriptions of a plugin by kind. A wildcard without a namespace
is none. -/
def entryOf (plugin : DiscoveredPlugin) : FanoutEntry where
  id := plugin.id
  exact := plugin.eventSubscriptions.filter fun subscription =>
    subscription ≠ "*" && (wildcardNamespace subscription).isNone
  prefixes := plugin.eventSubscriptions.filterMap fun subscription =>
    if subscription = "*" then none
    else (wildcardNamespace subscription).filter (· ≠ "")
  matchAll := plugin.eventSubscriptions.any (· = "*")
  staticEligible :=
    plugin.running && plugin.available && !plugin.declarative
      && declaresCapability plugin eventsSubscribe
      && !plugin.eventSubscriptions.isEmpty

/-- The positions of the entries that meet a condition. -/
def indicesOf (entries : List FanoutEntry) (p : FanoutEntry → Bool) :
    List Nat :=
  (entries.zipIdx.filter fun entry => p entry.1).map Prod.snd

def rebuild (core : Core) : FanoutCache :=
  let entries := core.plugins.map entryOf
  { registryRevision := core.registryRevision
    activationRevision := core.activationRevision
    entries
    exactIndex := fun topic =>
      entries.zipIdx.flatMap fun entry =>
        (entry.1.exact.filter (· = topic)).map fun _ => entry.2
    matchAll := indicesOf entries (·.matchAll)
    wildcard := indicesOf entries fun entry => !entry.prefixes.isEmpty }

namespace FanoutCache

/-- The cache before the first event. -/
def empty : FanoutCache := ⟨0, 0, [], fun _ => [], [], []⟩

/-- The cache, rebuilt when a revision has moved. -/
def current (core : Core) (cache : FanoutCache) : FanoutCache :=
  if cache.registryRevision ≠ core.registryRevision
      ∨ cache.activationRevision ≠ core.activationRevision
  then rebuild core else cache

variable (cache : FanoutCache)

def eligible (index : Nat) : Bool :=
  (cache.entries[index]?).any (·.staticEligible)

def entryMatches (topic : String) (index : Nat) : Bool :=
  (cache.entries[index]?).any (·.matches topic)

/-- The positions of the entries an event goes to, in order; of all that
can receive events for the broadcast of a gap. -/
def matching (topic : String) (forceAllSubscribers : Bool) : List Nat :=
  if forceAllSubscribers then
    (List.range cache.entries.length).filter cache.eligible
  else
    let matched := (cache.exactIndex topic).filter cache.eligible
      ++ cache.matchAll.filter cache.eligible
    let matched := cache.wildcard.foldl (fun matched index =>
      if index ∈ matched then matched
      else if cache.eligible index && cache.entryMatches topic index
      then matched ++ [index] else matched) matched
    (matched.insertionSort (· ≤ ·)).dedup

/-- The plugins an event goes to. -/
def targets (topic : String) (forceAllSubscribers : Bool) : List String :=
  (cache.matching topic forceAllSubscribers).filterMap fun index =>
    (cache.entries[index]?).map (·.id)

end FanoutCache

-- ==== what is found

theorem mem_foldl_matching {cache : FanoutCache} {t : String}
    {i : Nat} (w m : List Nat) :
    i ∈ w.foldl (fun m i =>
        if i ∈ m then m
        else if cache.eligible i && cache.entryMatches t i
        then m ++ [i] else m) m
      ↔ i ∈ m ∨ (i ∈ w ∧ cache.eligible i ∧ cache.entryMatches t i) := by
  induction w generalizing m with
  | nil => simp
  | cons f rest ih =>
    rw [foldl_cons, ih]
    by_cases hmem : f ∈ m
    · rw [if_pos hmem]
      constructor
      · rintro (h | ⟨h, hok⟩)
        · exact .inl h
        · exact .inr ⟨mem_cons_of_mem _ h, hok⟩
      · rintro (h | ⟨h, hok⟩)
        · exact .inl h
        · rcases mem_cons.1 h with rfl | h
          · exact .inl hmem
          · exact .inr ⟨h, hok⟩
    · rw [if_neg hmem]
      by_cases hok : (cache.eligible f && cache.entryMatches t f) = true
      · rw [if_pos hok]
        rw [Bool.and_eq_true] at hok
        simp only [mem_append, mem_cons, not_mem_nil, or_false]
        constructor
        · rintro ((h | rfl) | ⟨h, hr⟩)
          · exact .inl h
          · exact .inr ⟨.inl rfl, hok⟩
          · exact .inr ⟨.inr h, hr⟩
        · rintro (h | ⟨rfl | h, hr⟩)
          · exact .inl (.inl h)
          · exact .inl (.inr rfl)
          · exact .inr ⟨h, hr⟩
      · rw [if_neg hok]
        rw [Bool.and_eq_true] at hok
        constructor
        · rintro (h | ⟨h, hr⟩)
          · exact .inl h
          · exact .inr ⟨mem_cons_of_mem _ h, hr⟩
        · rintro (h | ⟨h, hr⟩)
          · exact .inl h
          · rcases mem_cons.1 h with rfl | h
            · exact absurd hr hok
            · exact .inr ⟨h, hr⟩

theorem mem_indicesOf {e : List FanoutEntry}
    {p : FanoutEntry → Bool} {i : Nat} :
    i ∈ indicesOf e p ↔ (e[i]?).any p := by
  simp only [indicesOf, mem_map, mem_filter]
  constructor
  · rintro ⟨⟨en, position⟩, ⟨hen, hp⟩, rfl⟩
    rw [mem_zipIdx_iff_getElem?] at hen
    rw [hen]
    exact hp
  · intro h
    cases hen : e[i]? with
    | none => rw [hen] at h; cases h
    | some en =>
      rw [hen] at h
      exact ⟨(en, i), ⟨mem_zipIdx_iff_getElem?.2 hen, h⟩, rfl⟩

theorem mem_exactIndex {core : Core} {t : String} {i : Nat} :
    i ∈ (rebuild core).exactIndex t
      ↔ ((rebuild core).entries[i]?).any fun e =>
        e.exact.any (· = t) := by
  simp only [rebuild, mem_flatMap, mem_map, mem_filter, decide_eq_true_eq]
  constructor
  · rintro ⟨⟨e, position⟩, hen, n, ⟨hn, rfl⟩, rfl⟩
    rw [mem_zipIdx_iff_getElem?] at hen
    rw [hen, Option.any_some, any_eq_true]
    exact ⟨n, hn, decide_eq_true rfl⟩
  · intro h
    cases hen : (core.plugins.map entryOf)[i]? with
    | none => rw [hen] at h; cases h
    | some e =>
      rw [hen, Option.any_some, any_eq_true] at h
      obtain ⟨n, hn, ht⟩ := h
      exact ⟨(e, i), mem_zipIdx_iff_getElem?.2 hen, n,
        ⟨hn, of_decide_eq_true ht⟩, rfl⟩

theorem mem_matching {core : Core} {topic : String} {index : Nat} :
    index ∈ (rebuild core).matching topic false
      ↔ (rebuild core).eligible index
        ∧ (rebuild core).entryMatches topic index := by
  have hall : index ∈ (rebuild core).matchAll
      ↔ ((rebuild core).entries[index]?).any (·.matchAll) := mem_indicesOf
  have hw : index ∈ (rebuild core).wildcard
      ↔ ((rebuild core).entries[index]?).any
        fun entry => !entry.prefixes.isEmpty :=
    @mem_indicesOf _ (fun entry => !entry.prefixes.isEmpty) _
  simp only [FanoutCache.matching, Bool.false_eq_true, if_false,
    mem_dedup, mem_insertionSort]
  rw [mem_foldl_matching]
  simp only [mem_append, mem_filter, mem_exactIndex, hall, hw,
    FanoutCache.eligible, FanoutCache.entryMatches]
  cases hen : (rebuild core).entries[index]? with
  | none => simp
  | some entry =>
    have hs : entry.prefixes.any (below topic) →
        !entry.prefixes.isEmpty := by
      cases entry.prefixes with
      | nil => simp
      | cons first rest => simp
    simp only [Option.any_some, FanoutEntry.matches, Bool.or_eq_true]
    constructor
    · rintro ((⟨het, hok⟩ | ⟨hmt, hok⟩) | ⟨-, hok, hmt⟩)
      · exact ⟨hok, .inl (.inr het)⟩
      · exact ⟨hok, .inl (.inl hmt)⟩
      · exact ⟨hok, hmt⟩
    · rintro ⟨hok, (hmt | het) | hn⟩
      · exact .inl (.inr ⟨hmt, hok⟩)
      · exact .inl (.inl ⟨het, hok⟩)
      · exact .inr ⟨hs hn, hok, .inr hn⟩

theorem toList_of_wildcardNamespace {s n : String}
    (h : wildcardNamespace s = some n) :
    s.toList = n.toList ++ ['.', '*'] := by
  unfold wildcardNamespace at h
  split at h
  · next space heq =>
    cases h
    rw [String.toList_ofList, ← reverse_reverse s.toList, heq]
    simp
  · cases h

/-- An entry matches what its plugin's subscriptions do, but for a
wildcard without a namespace. -/
theorem matches_entryOf_iff (p : DiscoveredPlugin) (t : String) :
    (entryOf p).matches t = true
      ↔ ∃ s ∈ p.eventSubscriptions, s ≠ ".*"
        ∧ eventSubscriptionMatches s t = true := by
  simp only [FanoutEntry.matches, entryOf, Bool.or_eq_true,
    any_eq_true, mem_filter, mem_filterMap,
    decide_eq_true_eq, Bool.and_eq_true, eventSubscriptionMatches]
  constructor
  · rintro ((⟨n, hn, rfl⟩ | ⟨n, ⟨hn, -, hs⟩, rfl⟩)
      | ⟨sp, ⟨n, hn, hs⟩, hb⟩)
    · exact ⟨_, hn, by decide, .inl (.inl rfl)⟩
    · refine ⟨_, hn, ?_, .inl (.inr rfl)⟩
      rintro rfl
      cases hs
    · split at hs
      · cases hs
      · obtain ⟨hs, hne⟩ := Option.filter_eq_some_iff.1 hs
        refine ⟨n, hn, ?_, .inr ?_⟩
        · rintro rfl
          cases hs
          cases hne
        · rw [hs, Option.any_some, Bool.and_eq_true]
          exact ⟨hne, hb⟩
  · rintro ⟨n, hn, hbr, hmt⟩
    by_cases hall : n = "*"
    · exact .inl (.inl ⟨n, hn, hall⟩)
    · cases hs : wildcardNamespace n with
      | none =>
        rw [hs] at hmt
        rcases hmt with (h' | heq) | hs'
        · exact absurd h' hall
        · exact .inl (.inr ⟨n, ⟨hn, hall, by rw [hs]; rfl⟩, heq⟩)
        · cases hs'
      | some sp =>
        have ht := toList_of_wildcardNamespace hs
        have hne : sp ≠ "" := by
          rintro rfl
          exact hbr (String.toList_inj.1 ht)
        refine .inr ⟨sp, ⟨n, hn, ?_⟩, ?_⟩
        · rw [if_neg hall, hs]
          simpa using hne
        · rw [hs, Option.any_some, Bool.and_eq_true] at hmt
          rcases hmt with (h' | rfl) | ⟨-, hb⟩
          · exact absurd h' hall
          · -- the wildcard itself is a topic below its namespace
            simp [below, startsWith, ht]
          · exact hb

/-- An entry matches what its plugin's subscriptions do. A topic that is
itself a wildcard without a namespace is no topic. -/
theorem matches_entryOf (plugin : DiscoveredPlugin) {topic : String}
    (ht : wildcardNamespace topic = none) :
    (entryOf plugin).matches topic
      = plugin.eventSubscriptions.any
        fun s => eventSubscriptionMatches s topic := by
  have hb : eventSubscriptionMatches ".*" topic = false := by
    have hne : ".*" ≠ topic := by
      rintro rfl
      cases ht
    have hn : wildcardNamespace ".*" = some "" := by decide +kernel
    simp [eventSubscriptionMatches, hne, hn]
  rw [Bool.eq_iff_iff, matches_entryOf_iff, any_eq_true]
  refine exists_congr fun name => and_congr_right fun _ =>
    and_iff_right_of_imp ?_
  rintro hmt rfl
  rw [hb] at hmt
  cases hmt

/-- The table finds what a scan of the entries finds, in order and each
once, and an entry matches exactly if a pattern of its plugin does; a
wildcard without a namespace is no pattern. -/
theorem matching_eq_scan (core : Core) (topic : String) :
    (rebuild core).matching topic false
        = (List.range core.plugins.length).filter (fun index =>
          (rebuild core).eligible index
            && (rebuild core).entryMatches topic index)
      ∧ ∀ plugin ∈ core.plugins, (entryOf plugin).matches topic = true
        ↔ ∃ subscription ∈ plugin.eventSubscriptions, subscription ≠ ".*"
          ∧ eventSubscriptionMatches subscription topic = true := by
  refine ⟨?_, fun plugin _ => matches_entryOf_iff plugin topic⟩
  have hs : ((List.range core.plugins.length).filter fun index =>
      (rebuild core).eligible index
        && (rebuild core).entryMatches topic index).Pairwise (· < ·) :=
    pairwise_lt_range.sublist filter_sublist
  have hf : ((rebuild core).matching topic false).Pairwise (· < ·) := by
    have hsr := pairwise_insertionSort (· ≤ ·)
      ((rebuild core).wildcard.foldl (fun m index =>
        if index ∈ m then m
        else if (rebuild core).eligible index
            && (rebuild core).entryMatches topic index
        then m ++ [index] else m)
        (((rebuild core).exactIndex topic).filter (rebuild core).eligible
          ++ (rebuild core).matchAll.filter (rebuild core).eligible))
    exact (List.Pairwise.and (hsr.sublist (dedup_sublist _))
      (nodup_dedup _)).imp fun h => Nat.lt_of_le_of_ne h.1 h.2
  refine hf.eq_of_mem_iff hs fun index => ?_
  rw [mem_matching, mem_filter, mem_range, Bool.and_eq_true]
  refine (and_iff_right_of_imp fun h => ?_).symm
  by_contra hout
  have hn : (rebuild core).entries[index]? = none := by
    simpa [rebuild] using hout
  simp [FanoutCache.eligible, hn] at h

/-- The manifest language has `.*` match itself. -/
theorem bare_wildcard_unmatched :
    ¬ ∀ (plugin : DiscoveredPlugin) (topic : String),
      (entryOf plugin).matches topic = true
        ↔ ∃ subscription ∈ plugin.eventSubscriptions,
          eventSubscriptionMatches subscription topic = true := by
  intro h
  have hmt := (h ⟨"acme.tts", false, [], [".*"], true, true⟩ ".*").2
    ⟨".*", mem_cons_self, by decide +kernel⟩
  revert hmt
  decide +kernel

end TikTools.PluginEvents
