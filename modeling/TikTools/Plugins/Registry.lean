/-
The registry client: adding, refreshing and removing registries, and
the trust each of these steps gives and takes.

Every registry pins its own root keys, and its root-signed keys
document delegates further keys; all of them land in ONE trust store,
under free-form key ids. Whether a document of registry A verifies
should depend on A alone. `isolatedStore` is the store A would have if
no other registry existed; `registry_trust_isolated` says when the
shared store answers as that one does.

The condition is per key id. A step KEEPS an id APART when the registry
it concerns is, at that moment, the only configured registry to name
the id, if it names it at all. In runs that keep an id apart, signatures
under that id verify for the one registry that names it exactly as in
isolation.

# Ghost state

`World.accepted` remembers each configured registry's last accepted
keys document. No function of the client reads it.
-/
import TikTools.Lib.Runs
import TikTools.Plugins.Trust
import Mathlib.Data.List.Nodup

namespace TikTools.Plugins

open TikTools.Lib List

-- ==== sources

structure RegistrySource where
  name : String
  url : String
  enabled : Bool := true
  rootKeys : List PublicKey := []
  deriving DecidableEq, Repr

/-- A registry without pinned roots is taken at its word. -/
def RegistrySource.isVerified (source : RegistrySource) : Bool :=
  !source.rootKeys.isEmpty

inductive RegistryError where
  | duplicateRegistry (name : String)
  | unknownRegistry (name : String)
  | invalidName (name : String)
  | signature (error : PackageError)
  | document
  | unsupportedProtocol (protocol : Nat)
  | expired
  deriving DecidableEq, Repr

/-- The configured registries; no two share a name. -/
structure RegistriesConfig where
  registries : List RegistrySource
  distinct : (registries.map RegistrySource.name).Nodup

variable {name : String}

namespace RegistriesConfig

def get (config : RegistriesConfig) (name : String) :
    Option RegistrySource :=
  config.registries.find? fun source => source.name == name

theorem get_eq_some {config : RegistriesConfig}
    {source : RegistrySource} (h : config.get name = some source) :
    source ∈ config.registries ∧ source.name = name := by
  refine ⟨mem_of_find?_eq_some h, ?_⟩
  simpa using find?_some h

theorem get_eq_none {config : RegistriesConfig} (h : config.get name = none) :
    ∀ source ∈ config.registries, source.name ≠ name := by
  intro source hs
  simpa using find?_eq_none.1 h source hs

theorem eq_of_name {config : RegistriesConfig} {a b : RegistrySource}
    (ha : a ∈ config.registries) (hb : b ∈ config.registries)
    (h : a.name = b.name) : a = b :=
  inj_on_of_nodup_map config.distinct ha hb h

/-- Append a source of a new name. -/
def push (config : RegistriesConfig) (source : RegistrySource)
    (h : config.get source.name = none) : RegistriesConfig where
  registries := config.registries ++ [source]
  distinct := by
    rw [map_append]
    refine List.Nodup.append config.distinct (by simp) ?_
    intro name hn hs
    obtain ⟨other, hother, rfl⟩ := mem_map.1 hn
    have hs' : other.name = source.name := by simpa using hs
    exact get_eq_none h other hother hs'

/-- Drop the source of a name. -/
def drop (config : RegistriesConfig) (name : String) :
    RegistriesConfig where
  registries := config.registries.filter fun source =>
    source.name != name
  distinct := by
    exact config.distinct.sublist (filter_sublist.map _)

end RegistriesConfig

-- ==== client

/-- A fetched document with its detached signature; none when the
signature file is missing or does not parse. -/
structure Fetched (M G : Type) where
  bytes : M
  signature : Option (DetachedSignature G)

/-- The part of a registry's configuration document that decides its
acceptance. -/
structure RegistryConfigDocument where
  protocol : Nat
  expires : Option Nat
  deriving DecidableEq, Repr

def registryProtocolVersion : Nat := 1

/-- The parsers and the signature check the client relies on. -/
structure Formats (M G : Type) where
  check : PublicKey → M → G → Bool
  parseKeys : M → Option KeysDocument
  parseConfig : M → Option RegistryConfigDocument

structure RegistryClient where
  config : RegistriesConfig
  builtin : List String
  trust : TrustStore

variable {M G : Type} (F : Formats M G)

/-- Accept a document of a source: unconditionally from an unverified
source, else under the signature beside it. -/
def document (trust : TrustStore) (source : RegistrySource)
    (fetched : Fetched M G) (role : KeyRole) (now : Nat) :
    Except RegistryError M :=
  if source.isVerified then
    match fetched.signature with
    | none => .error .document
    | some signature =>
      match trust.verifyDetached F.check signature fetched.bytes role now with
      | .ok _ => .ok fetched.bytes
      | .error e => .error (.signature e)
  else .ok fetched.bytes

/-- The keys document a refresh of a source accepts: root-signed,
parsed and not expired. -/
def acceptKeys (trust : TrustStore) (source : RegistrySource)
    (fetched : Fetched M G) (now : Nat) :
    Except RegistryError KeysDocument := do
  let bytes ← document F trust source fetched .root now
  let keys ← okOr (F.parseKeys bytes) .document
  ensure (keys.isExpired now = false) .expired
  return keys

/-- Replace everything the store holds of a source by its roots and the
delegations of the document. -/
def adoptKeys (trust : TrustStore) (source : RegistrySource)
    (keys : KeysDocument) : TrustStore :=
  ((trust.removeSource source.name).pinRoots source.rootKeys
    source.name).extendDelegations keys source.name

/-- Accept the configuration document of a source. -/
def acceptConfig (trust : TrustStore) (source : RegistrySource)
    (fetched : Fetched M G) (now : Nat) :
    Except RegistryError RegistryConfigDocument := do
  let bytes ← document F trust source fetched .index now
  let config ← okOr (F.parseConfig bytes) .document
  ensure (config.protocol = registryProtocolVersion)
    (.unsupportedProtocol config.protocol)
  ensure ((config.expires.any fun expires => expires < now) = false) .expired
  return config

/-- What a server returns to a refresh. -/
structure Served (M G : Type) where
  keys : Fetched M G
  config : Fetched M G

/-- Load a registry. The store changes as soon as the keys document is
accepted, whatever becomes of the configuration document. -/
def loadRegistry (trust : TrustStore) (source : RegistrySource)
    (served : Served M G) (now : Nat) :
    TrustStore × Except RegistryError RegistryConfigDocument :=
  if source.isVerified then
    match acceptKeys F trust source served.keys now with
    | .error e => (trust, .error e)
    | .ok keys =>
      let trust := adoptKeys trust source keys
      (trust, acceptConfig F trust source served.config now)
  else (trust, acceptConfig F trust source served.config now)

namespace RegistryClient

/-- A client over a loaded configuration pins every source's roots. -/
def withClient (config : RegistriesConfig) (builtin : List String) :
    RegistryClient :=
  { config
    builtin
    trust := config.registries.foldl
      (fun trust source => trust.pinRoots source.rootKeys source.name)
      {} }

def add (client : RegistryClient) (source : RegistrySource) :
    Except RegistryError RegistryClient :=
  if h : client.config.get source.name = none then
    .ok { client with
      config := client.config.push source h
      trust := client.trust.pinRoots source.rootKeys source.name }
  else .error (.duplicateRegistry source.name)

def remove (client : RegistryClient) (name : String) :
    Except RegistryError RegistryClient := do
  ensure (name ∉ client.builtin) (.invalidName name)
  ensure (client.config.get name ≠ none) (.unknownRegistry name)
  return { client with
    config := client.config.drop name
    trust := client.trust.removeSource name }

def refresh (client : RegistryClient) (name : String)
    (served : Served M G) (now : Nat) :
    RegistryClient × Except RegistryError RegistryConfigDocument :=
  match client.config.get name with
  | none => (client, .error (.unknownRegistry name))
  | some source =>
    let (trust, result) := loadRegistry F client.trust source served now
    ({ client with trust }, result)

end RegistryClient

-- ==== runs

/-- The operations on a client that touch its trust. -/
inductive RegistryEvent (M G : Type) where
  | add (source : RegistrySource)
  | remove (name : String)
  | refresh (name : String) (served : Served M G) (now : Nat)

/-- A client with the ghost record of each registry's last accepted
keys document. -/
structure World where
  client : RegistryClient
  accepted : String → Option KeysDocument

def World.start (config : RegistriesConfig) (builtin : List String) :
    World :=
  { client := .withClient config builtin
    accepted := fun _ => none }

/-- The keys document a refresh accepts, if it accepts one. -/
def World.accepts (w : World) (name : String) (served : Served M G)
    (now : Nat) : Option (RegistrySource × KeysDocument) :=
  match w.client.config.get name with
  | none => none
  | some source =>
    if source.isVerified then
      match acceptKeys F w.client.trust source served.keys now with
      | .ok keys => some (source, keys)
      | .error _ => none
    else none

/-- One operation; a refused one changes nothing. -/
def World.apply (w : World) : RegistryEvent M G → World
  | .add source =>
    match w.client.add source with
    | .ok client => { w with client }
    | .error _ => w
  | .remove name =>
    match w.client.remove name with
    | .ok client =>
      { client
        accepted := fun n => if n = name then none
          else w.accepted n }
    | .error _ => w
  | .refresh name served now =>
    { client := (w.client.refresh F name served now).1
      accepted :=
        match w.accepts F name served now with
        | none => w.accepted
        | some (_, keys) => fun n => if n = name then some keys
            else w.accepted n }

/-- The store of a registry alone: its roots and its last accepted keys
document. -/
def isolatedStore (source : RegistrySource)
    (accepted : Option KeysDocument) : TrustStore :=
  let pinned := ({} : TrustStore).pinRoots source.rootKeys source.name
  match accepted with
  | none => pinned
  | some keys => pinned.extendDelegations keys source.name

/-- A source names an id among its roots or in a keys document. -/
def NamesId (source : RegistrySource) (accepted : Option KeysDocument)
    (id : KeyId) : Prop :=
  (∃ root ∈ source.rootKeys, root.keyId = id)
    ∨ ∃ keys ∈ accepted, ∃ key ∈ keys.delegated, key.key.keyId = id

/-- No configured registry but the one called `name` names the id. -/
def World.Alone (w : World) (name : String) (id : KeyId) : Prop :=
  ∀ other ∈ w.client.config.registries, other.name ≠ name →
    ¬ NamesId other (w.accepted other.name) id

/-- The operation keeps the id apart: the registry it concerns is the
only one to name it, if it names it at all. -/
def World.KeepsApart (id : KeyId) (w : World) :
    RegistryEvent M G → Prop
  | .add source => NamesId source none id → w.Alone source.name id
  | .remove _ => True
  | .refresh name served now =>
    ∀ source keys, w.accepts F name served now = some (source, keys) →
      NamesId source (some keys) id → w.Alone name id

-- ==== isolated stores

section

variable {source : RegistrySource} {accepted : Option KeysDocument}
  {id : KeyId}

theorem isolatedStore_source {en : TrustedKey × String}
    (h : (isolatedStore source accepted).get id = some en) :
    en.2 = source.name := by
  have hpin : ∀ (r : List PublicKey) (s : TrustStore),
      (∀ e, s.get id = some e → e.2 = source.name) →
      ∀ e, (s.pinRoots r source.name).get id = some e →
        e.2 = source.name := by
    intro r
    induction r with
    | nil =>
      intro s hs
      exact hs
    | cons root r ih =>
      intro s hs
      refine ih _ ?_
      intro e he
      rw [TrustStore.get_insert] at he
      split at he
      · injection he with he
        rw [← he]
      · exact hs e he
  have hext : ∀ (keys : List TrustedKey) (s : TrustStore),
      (∀ e, s.get id = some e → e.2 = source.name) →
      ∀ e, (keys.foldl (TrustStore.delegate source.name) s).get id
          = some e → e.2 = source.name := by
    intro keys
    induction keys with
    | nil =>
      intro s hs
      exact hs
    | cons key keys ih =>
      intro s hs
      refine ih _ ?_
      intro e he
      rw [TrustStore.get_delegate] at he
      split at he
      · injection he with he
        rw [← he]
      · exact hs e he
  have hem : ∀ e, ({} : TrustStore).get id = some e →
      e.2 = source.name := by
    intro e he
    simp at he
  cases accepted with
  | none => exact hpin _ _ hem _ h
  | some keys => exact hext _ _ (hpin _ _ hem) _ h

theorem isolatedStore_of_not_named (h : ¬ NamesId source accepted id) :
    (isolatedStore source accepted).get id = none := by
  have hrt : ∀ root ∈ source.rootKeys, root.keyId ≠ id := by
    intro root hr e
    exact h (.inl ⟨root, hr, e⟩)
  cases accepted with
  | none =>
    show (TrustStore.pinRoots _ _ _).get id = none
    rw [TrustStore.get_pinRoots_of_not_named _ hrt]
    exact TrustStore.get_empty id
  | some keys =>
    show (TrustStore.extendDelegations _ _ _).get id = none
    rw [TrustStore.get_extend_of_not_named,
      TrustStore.get_pinRoots_of_not_named _ hrt]
    · exact TrustStore.get_empty id
    · intro key hk e
      exact h (.inr ⟨keys, rfl, key, hk, e⟩)

end

-- ==== invariant

/-- The shared store is, at one id, the isolated store of the registry
that names it. -/
structure World.Apart (id : KeyId) (w : World) : Prop where
  /-- The registry that names the id is the only one and finds its own
  entry there. -/
  named : ∀ source ∈ w.client.config.registries,
    NamesId source (w.accepted source.name) id →
    w.Alone source.name id
      ∧ w.client.trust.get id
        = (isolatedStore source (w.accepted source.name)).get id
  /-- An id nobody names is absent. -/
  unnamed : (∀ source ∈ w.client.config.registries,
      ¬ NamesId source (w.accepted source.name) id) →
    w.client.trust.get id = none
  /-- Only configured registries have an accepted document. -/
  configured : ∀ name, w.client.config.get name = none →
    w.accepted name = none

namespace World.Apart

variable {id : KeyId} {w : World}

/-- Removing a registry's keys leaves an id to the other registry that
names it. -/
theorem get_removeSource_other (h : World.Apart id w)
    {source : RegistrySource} (hs : source ∈ w.client.config.registries)
    (hn : NamesId source (w.accepted source.name) id)
    (hne : source.name ≠ name) :
    (w.client.trust.removeSource name).get id
      = (isolatedStore source (w.accepted source.name)).get id := by
  obtain ⟨_, hget⟩ := h.named source hs hn
  rw [TrustStore.get_removeSource, hget]
  cases hen : (isolatedStore source (w.accepted source.name)).get id with
  | none => rfl
  | some entry =>
    have hsrc := isolatedStore_source hen
    simp [Option.filter, hsrc, hne]

/-- Removing the keys of the only registry that may name an id leaves
the id absent. -/
theorem get_removeSource_alone (h : World.Apart id w)
    (ha : w.Alone name id) :
    (w.client.trust.removeSource name).get id = none := by
  rw [TrustStore.get_removeSource]
  by_cases hsm : ∃ source ∈ w.client.config.registries,
      NamesId source (w.accepted source.name) id
  · obtain ⟨source, hs, hn⟩ := hsm
    have hnm : source.name = name := by
      by_contra hne
      exact ha source hs hne hn
    rw [(h.named source hs hn).2]
    cases hen : (isolatedStore source (w.accepted source.name)).get id with
    | none => rfl
    | some entry =>
      have hsrc := isolatedStore_source hen
      simp [Option.filter, hsrc, hnm]
  · have hnn := h.unnamed fun source hs hn =>
      hsm ⟨source, hs, hn⟩
    rw [hnn]
    rfl

variable {client : RegistryClient}

theorem add (h : World.Apart id w) {source : RegistrySource}
    (hd : w.client.add source = .ok client)
    (hok : NamesId source none id → w.Alone source.name id) :
    World.Apart id { w with client } := by
  unfold RegistryClient.add at hd
  split at hd
  case isFalse => cases hd
  case isTrue hnew =>
    injection hd with hd
    subst hd
    have hf : w.accepted source.name = none := h.configured _ hnew
    have hot := RegistriesConfig.get_eq_none hnew
    have hrt : ¬ NamesId source none id →
        ∀ r ∈ source.rootKeys, r.keyId ≠ id := by
      intro hnot r hr e
      exact hnot (.inl ⟨r, hr, e⟩)
    refine ⟨?_, ?_, ?_⟩
    · intro s hs hnm
      rcases mem_append.1 hs with hs | hs
      · -- an older registry: the new one does not name the id
        obtain ⟨ha, hg⟩ := h.named s hs hnm
        have hnot : ¬ NamesId source none id := fun hn =>
          hok hn s hs (hot s hs) hnm
        refine ⟨?_, ?_⟩
        · intro o ho hne
          rcases mem_append.1 ho with ho | ho
          · exact ha o ho hne
          · obtain rfl := mem_singleton.1 ho
            rw [hf]
            exact hnot
        · show (w.client.trust.pinRoots _ _).get id = _
          rw [TrustStore.get_pinRoots_of_not_named _ (hrt hnot)]
          exact hg
      · -- the new registry: nobody named the id before
        obtain rfl := mem_singleton.1 hs
        have hn' : NamesId s none id := by
          rw [← hf]
          exact hnm
        have ha := hok hn'
        refine ⟨?_, ?_⟩
        · intro o ho hne
          rcases mem_append.1 ho with ho | ho
          · exact ha o ho hne
          · exact absurd (by rw [mem_singleton.1 ho]) hne
        · have hnn : w.client.trust.get id = none :=
            h.unnamed fun o ho => ha o ho (hot o ho)
          have hem : w.client.trust.get id
              = ({} : TrustStore).get id := by
            rw [hnn, TrustStore.get_empty]
          show (w.client.trust.pinRoots _ _).get id
            = (isolatedStore s (w.accepted s.name)).get id
          rw [hf, TrustStore.get_pinRoots_congr _ _ hem]
          rfl
    · intro hnn
      have hnot : ¬ NamesId source none id := by
        rw [← hf]
        exact hnn source (mem_append.2 (.inr (mem_singleton.2 rfl)))
      rw [TrustStore.get_pinRoots_of_not_named _ (hrt hnot)]
      exact h.unnamed fun s hs => hnn s (mem_append.2 (.inl hs))
    · intro name hna
      refine h.configured name ?_
      unfold RegistriesConfig.get RegistriesConfig.push at hna
      rw [find?_append] at hna
      exact (Option.or_eq_none_iff.1 hna).1

theorem remove (h : World.Apart id w)
    (hr : w.client.remove name = .ok client) :
    World.Apart id
      { client
        accepted := fun n => if n = name then none else w.accepted n } := by
  obtain ⟨_, _, hr⟩ := bind_eq_ok.1 hr
  obtain ⟨_, _, hr⟩ := bind_eq_ok.1 hr
  injection hr with hr
  subst hr
  have hk : ∀ s, s ∈ (w.client.config.drop name).registries ↔
      s ∈ w.client.config.registries ∧ s.name ≠ name := by
    intro s
    unfold RegistriesConfig.drop
    simp
  refine ⟨?_, ?_, ?_⟩
  · intro s hs hnm
    obtain ⟨hs, hne⟩ := (hk s).1 hs
    simp only [if_neg hne] at hnm ⊢
    refine ⟨?_, h.get_removeSource_other hs hnm hne⟩
    intro o ho hot
    obtain ⟨ho, hone⟩ := (hk o).1 ho
    simp only [if_neg hone]
    exact (h.named s hs hnm).1 o ho hot
  · intro hnn
    refine h.get_removeSource_alone fun o ho hne => ?_
    have := hnn o ((hk o).2 ⟨ho, hne⟩)
    simpa only [if_neg hne] using this
  · intro n hn
    by_cases hna : n = name
    · simp [hna]
    · simp only [if_neg hna]
      refine h.configured n ?_
      unfold RegistriesConfig.get at hn ⊢
      rw [find?_eq_none] at hn ⊢
      intro s hs he
      have hsn : s.name = n := by simpa using he
      exact hn s ((hk s).2 ⟨hs, by rw [hsn]; exact hna⟩) he

theorem adopt (h : World.Apart id w) {source : RegistrySource}
    {keys : KeysDocument} (hs : source ∈ w.client.config.registries)
    (hok : NamesId source (some keys) id → w.Alone source.name id) :
    World.Apart id
      { client := { w.client with
          trust := adoptKeys w.client.trust source keys }
        accepted := fun n => if n = source.name then some keys
          else w.accepted n } := by
  have hown : (if source.name = source.name then some keys
      else w.accepted source.name) = some keys := if_pos rfl
  by_cases hnm : NamesId source (some keys) id
  · -- the refreshed registry names the id: it is the only one to do so
    have ha := hok hnm
    have hget : (adoptKeys w.client.trust source keys).get id
        = (isolatedStore source (some keys)).get id := by
      have hem : (w.client.trust.removeSource source.name).get id
          = ({} : TrustStore).get id := by
        rw [h.get_removeSource_alone ha, TrustStore.get_empty]
      exact TrustStore.get_extend_congr _ _
        (TrustStore.get_pinRoots_congr _ _ hem)
    refine ⟨?_, ?_, ?_⟩
    · intro s hs' hn
      by_cases hna : s.name = source.name
      · have := RegistriesConfig.eq_of_name hs' hs hna
        subst this
        refine ⟨?_, by simpa using hget⟩
        intro o ho hne
        simp only [if_neg hne]
        exact ha o ho hne
      · simp only [if_neg hna] at hn
        exact absurd hn (ha s hs' hna)
    · intro hnn
      exact absurd hnm (by simpa using hnn source hs)
    · intro n hn
      have hne : n ≠ source.name := by
        intro e
        exact RegistriesConfig.get_eq_none hn source hs e.symm
      simp only [if_neg hne]
      exact h.configured n hn
  · -- it does not name the id: another registry keeps what it had
    have hget : (adoptKeys w.client.trust source keys).get id
        = (w.client.trust.removeSource source.name).get id := by
      unfold adoptKeys
      rw [TrustStore.get_extend_of_not_named,
        TrustStore.get_pinRoots_of_not_named]
      · intro r hr e
        exact hnm (.inl ⟨r, hr, e⟩)
      · intro key hk e
        exact hnm (.inr ⟨keys, rfl, key, hk, e⟩)
    refine ⟨?_, ?_, ?_⟩
    · intro s hs' hn
      by_cases hna : s.name = source.name
      · have := RegistriesConfig.eq_of_name hs' hs hna
        subst this
        exact absurd (by simpa using hn) hnm
      · simp only [if_neg hna] at hn ⊢
        refine ⟨?_, ?_⟩
        · intro o ho hne
          by_cases hsrc : o.name = source.name
          · have := RegistriesConfig.eq_of_name ho hs hsrc
            subst this
            simpa using hnm
          · simp only [if_neg hsrc]
            exact (h.named s hs' hn).1 o ho hne
        · show (adoptKeys _ _ _).get id = _
          rw [hget]
          exact h.get_removeSource_other hs' hn hna
    · intro hnn
      rw [hget]
      refine h.get_removeSource_alone fun o ho hne => ?_
      simpa only [if_neg hne] using hnn o ho
    · intro n hn
      have hne : n ≠ source.name := by
        intro e
        exact RegistriesConfig.get_eq_none hn source hs e.symm
      simp only [if_neg hne]
      exact h.configured n hn

end World.Apart

-- ==== whole runs

/-- Pinning the roots of several registries of which one alone names
the id leaves that one's entry there, and none where nobody names
it. -/
theorem get_pinAll {id : KeyId} :
    ∀ (so : List RegistrySource) (st : TrustStore),
      st.get id = none →
      (so.map RegistrySource.name).Nodup →
      (∀ a ∈ so, ∀ b ∈ so, a.name ≠ b.name →
        NamesId a none id → ¬ NamesId b none id) →
      (∀ s ∈ so, NamesId s none id →
        (so.foldl (fun tr source =>
            tr.pinRoots source.rootKeys source.name) st).get id
          = (isolatedStore s none).get id)
      ∧ ((∀ s ∈ so, ¬ NamesId s none id) →
        (so.foldl (fun tr source =>
            tr.pinRoots source.rootKeys source.name) st).get id
          = none) := by
  intro so
  induction so with
  | nil =>
    intro st hnn _ _
    refine ⟨?_, fun _ => hnn⟩
    intro s hs
    cases hs
  | cons head rest ih =>
    intro st hnn hnd hone
    have hn' := nodup_cons.1 hnd
    by_cases hh : NamesId head none id
    · -- the head names the id, so the rest does not touch it
      have ho : ∀ s ∈ rest, ¬ NamesId s none id := by
        intro s hs
        refine hone head mem_cons_self s (mem_cons_of_mem _ hs) ?_ hh
        intro e
        exact hn'.1 (mem_map.2 ⟨s, hs, e.symm⟩)
      have hsk : ∀ (l : List RegistrySource) (t : TrustStore),
          (∀ s ∈ l, ¬ NamesId s none id) →
          (l.foldl (fun tr source =>
            tr.pinRoots source.rootKeys source.name) t).get id
            = t.get id := by
        intro l
        induction l with
        | nil =>
          intro t _
          rfl
        | cons s l ihl =>
          intro t hl
          rw [foldl_cons, ihl _ fun r hr => hl r (mem_cons_of_mem _ hr)]
          refine TrustStore.get_pinRoots_of_not_named _ ?_
          intro root hr e
          exact hl s mem_cons_self (.inl ⟨root, hr, e⟩)
      refine ⟨?_, fun h => absurd hh (h head mem_cons_self)⟩
      intro s hs hnm
      rcases mem_cons.1 hs with rfl | hs
      · rw [foldl_cons, hsk _ _ ho]
        refine TrustStore.get_pinRoots_congr _ _ ?_
        rw [hnn, TrustStore.get_empty]
      · exact absurd hnm (ho s hs)
    · have hst : (st.pinRoots head.rootKeys head.name).get id
          = none := by
        rw [TrustStore.get_pinRoots_of_not_named, hnn]
        intro root hr e
        exact hh (.inl ⟨root, hr, e⟩)
      obtain ⟨hnm, hu⟩ := ih _ hst hn'.2
        fun a ha b hb => hone a (mem_cons_of_mem _ ha) b
          (mem_cons_of_mem _ hb)
      refine ⟨?_, ?_⟩
      · intro s hs hn
        rcases mem_cons.1 hs with rfl | hs
        · exact absurd hn hh
        · exact hnm s hs hn
      · intro h
        exact hu fun s hs => h s (mem_cons_of_mem _ hs)

namespace World.Apart

/-- A fresh client keeps apart every id that at most one configured
registry pins. -/
theorem start {config : RegistriesConfig} {builtin : List String}
    {id : KeyId}
    (h : ∀ a ∈ config.registries, ∀ b ∈ config.registries,
      a.name ≠ b.name → NamesId a none id → ¬ NamesId b none id) :
    World.Apart id (World.start config builtin) := by
  obtain ⟨hnm, hu⟩ := get_pinAll config.registries {}
    (TrustStore.get_empty id) config.distinct h
  refine ⟨?_, hu, fun _ _ => rfl⟩
  intro source hs hn
  refine ⟨?_, hnm source hs hn⟩
  intro o ho hne
  exact h source hs o ho (Ne.symm hne) hn

theorem refresh_eq (w : World) (name : String) (s : Served M G)
    (now : Nat) :
    (w.client.refresh F name s now).1
      = match w.accepts F name s now with
        | none => w.client
        | some (source, keys) => { w.client with
            trust := adoptKeys w.client.trust source keys } := by
  unfold RegistryClient.refresh World.accepts loadRegistry
  cases w.client.config.get name with
  | none => rfl
  | some source =>
    cases hv : source.isVerified with
    | false => simp [hv]
    | true =>
      cases hk : acceptKeys F w.client.trust source s.keys now with
      | error e => simp [hv, hk]
      | ok keys => simp [hv, hk]

variable {w : World}

theorem accepts_source {s : Served M G} {now : Nat}
    {source : RegistrySource} {k : KeysDocument}
    (h : w.accepts F name s now = some (source, k)) :
    source ∈ w.client.config.registries ∧ source.name = name := by
  unfold World.accepts at h
  cases hget : w.client.config.get name with
  | none => simp [hget] at h
  | some found =>
    simp only [hget] at h
    split at h
    · split at h
      · injection h with h
        injection h with h _
        subst h
        exact RegistriesConfig.get_eq_some hget
      · cases h
    · cases h

theorem apply {id : KeyId} (h : World.Apart id w) (event : RegistryEvent M G)
    (hok : w.KeepsApart F id event) : World.Apart id (w.apply F event) := by
  cases event with
  | add source =>
    simp only [World.apply]
    cases hadd : w.client.add source with
    | error e => exact h
    | ok client => exact h.add hadd hok
  | remove name =>
    simp only [World.apply]
    cases hr : w.client.remove name with
    | error e => exact h
    | ok client => exact h.remove hr
  | refresh name served now =>
    simp only [World.apply, refresh_eq]
    cases ha : w.accepts F name served now with
    | none => exact h
    | some pair =>
      obtain ⟨source, keys⟩ := pair
      obtain ⟨hs, rfl⟩ := accepts_source F ha
      exact h.adopt hs (hok source keys ha)

end World.Apart

section

variable {F} {config : RegistriesConfig} {builtin : List String}
  {id : KeyId} {w : World} {source : RegistrySource}

/-- In every run whose operations keep an id apart, a document of a
registry signed under that id is accepted or refused exactly as the
registry's own roots, its own last accepted keys document and the time
decide, provided no other configured registry names the id at the
time. The same goes for a keys document. -/
theorem registry_trust_isolated
    (hstart : ∀ a ∈ config.registries, ∀ b ∈ config.registries,
      a.name ≠ b.name → NamesId a none id → ¬ NamesId b none id)
    (hrun : Run (fun w event w' => w' = World.apply F w event)
      (fun w event => World.KeepsApart F id w event)
      (World.start config builtin) w)
    (hs : source ∈ w.client.config.registries)
    (halone : w.Alone source.name id)
    (fetched : Fetched M G)
    (hid : ∀ signature ∈ fetched.signature, signature.keyId = id)
    (role : KeyRole) (now : Nat) :
    document F w.client.trust source fetched role now
        = document F (isolatedStore source (w.accepted source.name))
          source fetched role now
      ∧ acceptKeys F w.client.trust source fetched now
        = acceptKeys F (isolatedStore source (w.accepted source.name))
          source fetched now := by
  have hinv : World.Apart id w := by
    refine hrun.invariant (World.Apart.start hstart) ?_
    intro v event u hv hok hu
    subst hu
    exact hv.apply F event hok
  have hget : w.client.trust.get id
      = (isolatedStore source (w.accepted source.name)).get id := by
    by_cases hnm : NamesId source (w.accepted source.name) id
    · exact (hinv.named source hs hnm).2
    · rw [isolatedStore_of_not_named hnm]
      refine hinv.unnamed fun other ho hn => ?_
      by_cases hna : other.name = source.name
      · have := RegistriesConfig.eq_of_name ho hs hna
        subst this
        exact hnm hn
      · exact halone other ho hna hn
  have hdoc : ∀ role, document F w.client.trust source fetched role now
      = document F (isolatedStore source (w.accepted source.name))
        source fetched role now := by
    intro role
    unfold document
    cases hsig : fetched.signature with
    | none => rfl
    | some signature =>
      have hkey := hid signature hsig
      subst hkey
      have hvr :=
        TrustStore.verifyDetached_congr F.check hget fetched.bytes role now
      simp only [hvr]
  refine ⟨hdoc role, ?_⟩
  unfold acceptKeys
  rw [hdoc .root]

end

-- ==== two registries

/-- A toy signature scheme: the signature names the public key and the
message. -/
def plainFormats (parseKeys : String → Option KeysDocument) :
    Formats String (String × String) where
  check := fun key message signature =>
    signature == (key.publicKey, message)
  parseKeys
  parseConfig := fun _ => some ⟨1, none⟩

/-- A registry with one pinned root. -/
def rootedSource (name : String) : RegistrySource where
  name
  url := "https://" ++ name ++ ".example"
  rootKeys := [{ keyId := name ++ "-root", publicKey := name ++ "-root" }]

/-- A keys document that delegates one index key of the registry's own
under an id of its choice. -/
def indexKeys (name id : String) : KeysDocument where
  keys := [{ key := { keyId := id, publicKey := name ++ "-index" }
             role := .index }]

/-- A document signed by a registry's own key of an id. -/
def signedBy (publicKey id message : String) :
    Fetched String (String × String) where
  bytes := message
  signature := some { keyId := id, signature := (publicKey, message) }

def served (name id : String) : Served String (String × String) where
  keys := signedBy (name ++ "-root") (name ++ "-root") (name ++ ".keys")
  config := signedBy (name ++ "-index") id "config"

/-- The keys documents of two registries under given index ids. -/
def twoKeys (idA idB : String) : String → Option KeysDocument
  | "alpha.keys" => some (indexKeys "alpha" idA)
  | "beta.keys" => some (indexKeys "beta" idB)
  | _ => none

def twoSources : RegistriesConfig where
  registries := [rootedSource "alpha", rootedSource "beta"]
  distinct := by decide

/-- Both registries refreshed, alpha first. -/
def twoRefreshed (idA idB : String) : World :=
  ((World.start twoSources []).apply (plainFormats (twoKeys idA idB))
    (.refresh "alpha" (served "alpha" idA) 5)).apply
      (plainFormats (twoKeys idA idB))
      (.refresh "beta" (served "beta" idB) 5)

/-- Both registries call their index key `index-1`. Once beta is
refreshed, alpha's own documents no longer verify, while a document
signed by BETA's key passes as alpha's; each registry alone would say
the opposite. Removing beta does not bring alpha's key back. -/
theorem registry_trust_shared :
    let F := plainFormats (twoKeys "index-1" "index-1")
    let w := twoRefreshed "index-1" "index-1"
    let alpha := rootedSource "alpha"
    let alone := isolatedStore alpha (w.accepted "alpha")
    document F w.client.trust alpha
          (signedBy "alpha-index" "index-1" "doc") .index 6
        = .error (.signature .signatureMismatch)
      ∧ document F alone alpha
          (signedBy "alpha-index" "index-1" "doc") .index 6 = .ok "doc"
      ∧ document F w.client.trust alpha
          (signedBy "beta-index" "index-1" "doc") .index 6 = .ok "doc"
      ∧ document F alone alpha
          (signedBy "beta-index" "index-1" "doc") .index 6
        = .error (.signature .signatureMismatch)
      ∧ document F (w.apply F (.remove "beta")).client.trust alpha
          (signedBy "alpha-index" "index-1" "doc") .index 6
        = .error (.signature (.unknownKey "index-1")) :=
  ⟨rfl, rfl, rfl, rfl, rfl⟩

theorem rooted_not_named (source : RegistrySource)
    (h : source ∈ twoSources.registries) :
    ¬ NamesId source none "alpha-1" := by
  have h' : source = rootedSource "alpha" ∨ source = rootedSource "beta" := by
    simpa [twoSources] using h
  rcases h' with rfl | rfl <;> simp [NamesId, rootedSource]

/-- With index keys of their own names the two registries leave each
other alone. -/
theorem registry_trust_isolated_pair :
    let F := plainFormats (twoKeys "alpha-1" "beta-1")
    let w := twoRefreshed "alpha-1" "beta-1"
    let alpha := rootedSource "alpha"
    document F w.client.trust alpha
        (signedBy "alpha-index" "alpha-1" "doc") .index 6
      = document F (isolatedStore alpha (w.accepted "alpha")) alpha
          (signedBy "alpha-index" "alpha-1" "doc") .index 6 := by
  refine (@registry_trust_isolated String (String × String)
    (plainFormats (twoKeys "alpha-1" "beta-1")) twoSources [] "alpha-1"
    (twoRefreshed "alpha-1" "beta-1") (rootedSource "alpha")
    (fun a ha _ _ _ hn => absurd hn (rooted_not_named a ha))
    (.tail _ (.tail _ .refl ?_ rfl) ?_ rfl) (by decide) ?_
    (signedBy "alpha-index" "alpha-1" "doc") (by decide) .index 6).1
  · intro source keys hac hn other ho hne
    exact rooted_not_named other ho
  · intro source keys hac hn
    have hp : (source, keys)
        = (rootedSource "beta", indexKeys "beta" "beta-1") :=
      Option.some.inj (hac.symm.trans rfl)
    injection hp with h1 h2
    subst h1 h2
    exact absurd hn (by simp [NamesId, rootedSource, indexKeys,
      KeysDocument.delegated])
  · intro other ho hne
    have hb : other = rootedSource "beta" := by
      have ho' : other ∈ [rootedSource "alpha", rootedSource "beta"] := ho
      rw [mem_cons, mem_singleton] at ho'
      rcases ho' with rfl | rfl
      · exact absurd rfl hne
      · rfl
    subst hb
    have hacc : (twoRefreshed "alpha-1" "beta-1").accepted "beta"
        = some (indexKeys "beta" "beta-1") := rfl
    show ¬ NamesId _ ((twoRefreshed "alpha-1" "beta-1").accepted "beta") _
    rw [hacc]
    simp [NamesId, rootedSource, indexKeys, KeysDocument.delegated]

end TikTools.Plugins
