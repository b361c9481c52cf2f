/-
The cache of dynamic option lists, and whether it ever serves a list
from before a change.

A fetch reads the generation, looks the source up, and on a miss asks
the provider and stores what came back: `store_if_current` for the lists
of plugins, which refuses when the generation has moved, and plain
`store` for the host's own gift list. Three calls drop lists. `clear`
moves the generation and empties the cache in one critical section;
`invalidate` removes one key; `invalidate_action` collects the keys of
one action type in a first section and removes them one by one in
further sections. Every section is one step here, and the steps of all
fetches and calls interleave freely.

# What is claimed

A list served from the cache, after a call that covers its source has
returned, comes from a provider request that was started after the call.
The history that says so (`begun`, `covered`, and the number of calls a
request was started after) is read by no step of the service.

Only `clear` moves the generation, and only `store_if_current` looks at
it. So the condition under which the claim holds (`StepOk`) is about the
steps the generation does not guard; `never_stale_iff` says that it is
exact, and `option_cache_serves_stale` runs into each of its clauses.
-/
import TikTools.Lib.Json
import TikTools.Lib.Runs
import TikTools.Lib.Table
import TikTools.Lib.Text
import Mathlib.Logic.Function.Basic

namespace TikTools.Automation.OptionSources

open TikTools.Lib Option

-- ==== sources

/-- Source-id prefix for plugin dynamic options. -/
def optionSourcePrefix : String := "plugin-action-options:"

/-- The host-owned gift catalog source. -/
def hostGiftsSource : String := "host.gifts"

/-- Cache lifetime of one fetched list, in milliseconds. -/
def optionSourceTtl : Nat := 60000

/-- Split `plugin-action-options:<actionType>:<field>` into its parts. -/
def parseOptionSource (source : String) : Option (String × String) :=
  if startsWith source optionSourcePrefix then
    let rest := source.toList.drop optionSourcePrefix.length
    let actionType := rest.takeWhile (· ≠ ':')
    match rest.dropWhile (· ≠ ':') with
    | [] => none
    | _ :: field =>
      if trim actionType = [] ∨ trim field = [] ∨ ':' ∈ field then none
      else some (String.ofList actionType, String.ofList field)
  else none

/-- True for the allowlisted host-owned source. -/
def isHostOptionSource (source : String) : Bool := source == hostGiftsSource

/-- The sources an action type owns. -/
def ownedBy (actionType source : String) : Bool :=
  match parseOptionSource source with
  | some (owner, _) => owner == actionType
  | none => false

-- ==== the service

/-- One cached list, with the instant it was stored. -/
structure CachedOptions (V : Type) where
  fetchedAt : Nat
  list : V

/-- The cache and its generation, an atomic 64-bit counter. -/
structure OptionSourceService (V : Type) where
  cache : Table String (CachedOptions V)
  generation : Nat

namespace OptionSourceService

variable {V : Type}

/-- An empty service. -/
def new : OptionSourceService V := ⟨∅, 0⟩

/-- What a lookup returns: a list that has not expired. -/
def cached (service : OptionSourceService V) (source : String)
    (now : Nat) : Option V :=
  match service.cache[source]? with
  | some entry =>
    if now - entry.fetchedAt > optionSourceTtl then none
    else some entry.list
  | none => none

/-- What a lookup leaves behind: an expired list is dropped. -/
def afterLookup (service : OptionSourceService V) (source : String)
    (now : Nat) : OptionSourceService V :=
  match service.cache[source]? with
  | some entry =>
    if now - entry.fetchedAt > optionSourceTtl
    then { service with cache := service.cache.erase source }
    else service
  | none => service

/-- Keep a list, whatever happened since it was asked for. -/
def store (service : OptionSourceService V) (source : String) (list : V)
    (now : Nat) : OptionSourceService V :=
  { service with cache := service.cache.insert source ⟨now, list⟩ }

/-- An in-flight request from old settings must never repopulate the
cache: refuse when the generation has moved. -/
def storeIfCurrent (service : OptionSourceService V) (source : String)
    (list : V) (generation now : Nat) : Bool × OptionSourceService V :=
  if service.generation ≠ generation then (false, service)
  else (true, service.store source list now)

/-- Move the generation, which wraps, and empty the cache. -/
def clear (service : OptionSourceService V) : OptionSourceService V :=
  ⟨∅, (service.generation + 1) % (u64Max + 1)⟩

/-- Drop one cached list. -/
def invalidate (service : OptionSourceService V) (source : String) :
    OptionSourceService V :=
  { service with cache := service.cache.erase source }

/-- The keys `invalidate_action` collects before it removes them. -/
def ownedKeys (service : OptionSourceService V) (actionType : String) :
    List String :=
  service.cache.keys.filter (ownedBy actionType)

variable (service : OptionSourceService V)

theorem cached_store_self (source : String) (list : V) (now : Nat) :
    (service.store source list now).cached source now = some list := by
  simp [cached, store]

variable {other : String}

theorem cached_store_ne {source : String}
    (l : V) (now : Nat) (h : source ≠ other) :
    (service.store source l now).cached other now
      = service.cached other now := by
  simp [cached, store, Table.get_insert_ne _ _ h]

@[simp] theorem cached_clear (source : String) (now : Nat) :
    service.clear.cached source now = none := by
  simp [cached, clear]

@[simp] theorem cached_invalidate_self (source : String) (now : Nat) :
    (service.invalidate source).cached source now = none := by
  simp [cached, invalidate]

theorem cached_invalidate_ne
    {source : String} (now : Nat) (h : source ≠ other) :
    (service.invalidate source).cached other now
      = service.cached other now := by
  simp [cached, invalidate, Table.get_erase_ne _ h]

theorem cached_afterLookup (source other : String) (now : Nat) :
    (service.afterLookup source now).cached other now
      = service.cached other now := by
  unfold afterLookup
  cases hget : service.cache[source]? with
  | none => rfl
  | some e =>
    by_cases hold : now - e.fetchedAt > optionSourceTtl
    · simp only [if_pos hold]
      by_cases he : source = other
      · subst he
        simp [cached, hget, hold]
      · exact service.cached_invalidate_ne now he
    · simp only [if_neg hold]

theorem cached_of_later {service : OptionSourceService V}
    {source : String} {list : V} {now l : Nat} (hle : now ≤ l)
    (h : service.cached source l = some list) :
    service.cached source now = some list := by
  unfold cached at h ⊢
  cases hget : service.cache[source]? with
  | none => simp [hget] at h
  | some e =>
    by_cases hold : l - e.fetchedAt > optionSourceTtl
    · simp [hget, hold] at h
    · have hy : ¬ now - e.fetchedAt > optionSourceTtl := by omega
      simpa [hget, hold, hy] using h

end OptionSourceService

-- ==== the system

/-- The mapped items of a provider's document, and its selection. -/
structure OptionList where
  options : List Json
  selected : Option String

/-- A list, and how many dropping calls had been made when its provider
request was started. -/
structure Provided where
  list : OptionList
  requestedAfter : Nat

/-- A fetch under way. -/
inductive Fetch where
  /-- The generation is read; the cache comes next unless bypassed. -/
  | begun (source : String) (forceRefresh : Bool) (generation : Nat)
  | missed (source : String) (generation : Nat)
  /-- The provider was asked. -/
  | requested (source : String) (generation requestedAfter : Nat)
  | replied (source : String) (generation : Nat) (provided : Provided)

/-- An `invalidate_action` under way: the how-manieth call it is, and the
keys it has still to remove. -/
structure Invalidation where
  call : Nat
  actionType : String
  remaining : List String

/-- The service, what is under way, and the history. -/
structure System where
  now : Nat
  service : OptionSourceService Provided
  fetches : Table Nat Fetch
  calls : Table Nat Invalidation
  /-- How many dropping calls have been made. -/
  begun : Nat
  /-- The last of them to cover a source and to have returned. -/
  covered : String → Nat

def System.start : System where
  now := 0
  service := .new
  fetches := ∅
  calls := ∅
  begun := 0
  covered := fun _ => 0

/-- The atomic steps. -/
inductive Action where
  | elapse (milliseconds : Nat)
  /-- `resolve_action_options` reads the generation. -/
  | begin (fetch : Nat) (source : String) (forceRefresh : Bool)
  /-- It looks the source up, or goes on without. -/
  | look (fetch : Nat)
  /-- It asks the provider of a plugin's source. -/
  | request (fetch : Nat)
  | reply (fetch : Nat) (list : OptionList)
  /-- It maps the stored gift catalog, for the host's source. -/
  | readGifts (fetch : Nat) (options : List Json)
  /-- It stores what came back, and returns. -/
  | store (fetch : Nat)
  /-- It returns early, with an error. -/
  | fail (fetch : Nat)
  | clear
  | invalidate (source : String)
  /-- `invalidate_action` collects its keys. -/
  | invalidateAction (call : Nat) (actionType : String)
  /-- It removes the next one. -/
  | removeNext (call : Nat)
  /-- It returns. -/
  | finish (call : Nat)

namespace System

/-- The last section of a fetch. -/
def storeReplied (s : System) (source : String) (generation : Nat)
    (provided : Provided) : OptionSourceService Provided :=
  if isHostOptionSource source then s.service.store source provided s.now
  else (s.service.storeIfCurrent source provided generation s.now).2

/-- One step, if it is enabled. -/
def next (s : System) : Action → Option System
  | .elapse milliseconds => some { s with now := s.now + milliseconds }
  | .begin fetch source forceRefresh =>
    match s.fetches[fetch]? with
    | some _ => none
    | none =>
      some { s with
        fetches := s.fetches.insert fetch
          (.begun source forceRefresh s.service.generation) }
  | .look fetch =>
    match s.fetches[fetch]? with
    | some (.begun source forceRefresh generation) =>
      if forceRefresh then
        some { s with
          fetches := s.fetches.insert fetch (.missed source generation) }
      else
        let service := s.service.afterLookup source s.now
        match s.service.cached source s.now with
        | some _ =>
          some { s with
            service := service
            fetches := s.fetches.erase fetch }
        | none =>
          some { s with
            service := service
            fetches := s.fetches.insert fetch (.missed source generation) }
    | _ => none
  | .request fetch =>
    match s.fetches[fetch]? with
    | some (.missed source generation) =>
      if isHostOptionSource source = false
        ∧ (parseOptionSource source).isSome then
        some { s with
          fetches := s.fetches.insert fetch
            (.requested source generation s.begun) }
      else none
    | _ => none
  | .reply fetch list =>
    match s.fetches[fetch]? with
    | some (.requested source generation requestedAfter) =>
      some { s with
        fetches := s.fetches.insert fetch
          (.replied source generation ⟨list, requestedAfter⟩) }
    | _ => none
  | .readGifts fetch options =>
    match s.fetches[fetch]? with
    | some (.missed source generation) =>
      if isHostOptionSource source then
        some { s with
          fetches := s.fetches.insert fetch
            (.replied source generation ⟨⟨options, none⟩, s.begun⟩) }
      else none
    | _ => none
  | .store fetch =>
    match s.fetches[fetch]? with
    | some (.replied source generation provided) =>
      some { s with
        service := s.storeReplied source generation provided
        fetches := s.fetches.erase fetch }
    | _ => none
  | .fail fetch =>
    match s.fetches[fetch]? with
    | some _ => some { s with fetches := s.fetches.erase fetch }
    | none => none
  | .clear =>
    some { s with
      service := s.service.clear
      begun := s.begun + 1
      covered := fun _ => s.begun + 1 }
  | .invalidate source =>
    some { s with
      service := s.service.invalidate source
      begun := s.begun + 1
      covered := Function.update s.covered source (s.begun + 1) }
  | .invalidateAction call actionType =>
    match s.calls[call]? with
    | some _ => none
    | none =>
      some { s with
        begun := s.begun + 1
        calls := s.calls.insert call
          ⟨s.begun + 1, actionType, s.service.ownedKeys actionType⟩ }
  | .removeNext call =>
    match s.calls[call]? with
    | some ⟨n, actionType, source :: remaining⟩ =>
      some { s with
        service := s.service.invalidate source
        calls := s.calls.insert call ⟨n, actionType, remaining⟩ }
    | _ => none
  | .finish call =>
    match s.calls[call]? with
    | some ⟨n, actionType, []⟩ =>
      some { s with
        calls := s.calls.erase call
        covered := fun source =>
          if ownedBy actionType source then max n (s.covered source)
          else s.covered source }
    | _ => none

-- ==== the claim

/-- Whatever a lookup would serve was asked for after every call that
covers it and has returned. -/
def NeverStale (s : System) : Prop :=
  ∀ source provided, s.service.cached source s.now = some provided →
    s.covered source ≤ provided.requestedAfter

/-- The steps that keep it so. A fetch may store a list only if no call
that covers its source has returned since it asked for the list, unless
the generation has moved and the list is a plugin's. An
`invalidate_action` may return only if the cache holds no list of the
action that was asked for before the call. -/
def StepOk (s : System) : Action → Prop
  | .store fetch =>
    match s.fetches[fetch]? with
    | some (.replied source generation provided) =>
      s.covered source ≤ provided.requestedAfter
        ∨ (isHostOptionSource source = false
          ∧ s.service.generation ≠ generation)
    | _ => True
  | .finish call =>
    match s.calls[call]? with
    | some ⟨n, actionType, _⟩ =>
      ∀ source provided, ownedBy actionType source →
        s.service.cached source s.now = some provided →
        n ≤ provided.requestedAfter
    | none => True
  | _ => True

-- ---- step by step

variable {s t : System}

theorem NeverStale.start : System.start.NeverStale := by
  intro source provided h
  simp [System.start, OptionSourceService.new,
    OptionSourceService.cached] at h

section

variable (h : s.NeverStale)
include h

theorem NeverStale.of_serves_less (hc : t.covered = s.covered)
    (hl : ∀ source p,
      t.service.cached source t.now = some p →
      s.service.cached source s.now = some p) : t.NeverStale := by
  intro source p hcc
  rw [hc]
  exact h source p (hl source p hcc)

variable (source : String)

theorem NeverStale.look (f : Table Nat Fetch) :
    NeverStale { s with
      service := s.service.afterLookup source s.now
      fetches := f } := by
  refine h.of_serves_less rfl fun other provided hc => ?_
  rwa [← s.service.cached_afterLookup source other s.now]

omit h in
theorem NeverStale.clear (s : System) :
    NeverStale { s with
      service := s.service.clear
      begun := s.begun + 1
      covered := fun _ => s.begun + 1 } := by
  intro source provided hc
  simp at hc

theorem NeverStale.invalidate (n b : Nat) :
    NeverStale { s with
      service := s.service.invalidate source
      begun := b
      covered := Function.update s.covered source n } := by
  intro other p hc
  by_cases he : source = other
  · subst he
    simp at hc
  · rw [OptionSourceService.cached_invalidate_ne _ _ he] at hc
    show Function.update s.covered source n other ≤ _
    rw [Function.update_of_ne (Ne.symm he)]
    exact h other p hc

theorem NeverStale.removeNext (c : Table Nat Invalidation) :
    NeverStale { s with
      service := s.service.invalidate source
      calls := c } := by
  refine h.of_serves_less rfl fun other provided hc => ?_
  by_cases he : source = other
  · subst he
    simp at hc
  · rwa [OptionSourceService.cached_invalidate_ne _ _ he] at hc

theorem neverStale_store_iff
    (generation : Nat) (provided : Provided) (fetches : Table Nat Fetch) :
    NeverStale { s with
        service := s.storeReplied source generation provided
        fetches := fetches }
      ↔ s.covered source ≤ provided.requestedAfter
        ∨ (isHostOptionSource source = false
          ∧ s.service.generation ≠ generation) := by
  by_cases hr : isHostOptionSource source = false
      ∧ s.service.generation ≠ generation
  · obtain ⟨hh, hgen⟩ := hr
    have hs : s.storeReplied source generation provided = s.service := by
      simp [storeReplied, hh, OptionSourceService.storeIfCurrent, hgen]
    rw [hs]
    exact iff_of_true (h.of_serves_less rfl fun _ _ hc => hc)
      (Or.inr ⟨hh, hgen⟩)
  · have hst : s.storeReplied source generation provided
        = s.service.store source provided s.now := by
      unfold storeReplied OptionSourceService.storeIfCurrent
      by_cases hh : isHostOptionSource source = true
      · rw [if_pos hh]
      · rw [if_neg hh]
        have hcur : ¬ s.service.generation ≠ generation := fun hne =>
          hr ⟨by simpa using hh, hne⟩
        rw [if_neg hcur]
    rw [hst, or_iff_left hr]
    constructor
    · intro hf
      exact hf source provided
        (s.service.cached_store_self source provided s.now)
    · intro hle other list hc
      by_cases he : source = other
      · subst he
        have hsl := s.service.cached_store_self source provided s.now
        obtain rfl := Option.some.inj (hsl.symm.trans hc)
        exact hle
      · rw [OptionSourceService.cached_store_ne _ _ _ he] at hc
        exact h other list hc

theorem neverStale_finish_iff (n : Nat)
    (a : String) (c : Table Nat Invalidation) :
    NeverStale { s with
        calls := c
        covered := fun source =>
          if ownedBy a source then max n (s.covered source)
          else s.covered source }
      ↔ ∀ source p, ownedBy a source →
        s.service.cached source s.now = some p →
        n ≤ p.requestedAfter := by
  constructor
  · intro hf source p ho hc
    have hle := hf source p hc
    simp only [if_pos ho] at hle
    exact Nat.le_trans (Nat.le_max_left _ _) hle
  · intro hl source p hc
    have hbef := h source p hc
    by_cases ho : ownedBy a source = true
    · simp only [if_pos ho]
      exact Nat.max_le.2 ⟨hl source p ho hc, hbef⟩
    · simpa only [if_neg ho] using hbef

end

/-- A step keeps the cache from going stale exactly if it is one of
those admitted. -/
theorem neverStale_next_iff {a : Action} (h : s.NeverStale)
    (hn : s.next a = some t) : t.NeverStale ↔ s.StepOk a := by
  cases a with
  | elapse milliseconds =>
    obtain rfl := Option.some.inj hn
    refine iff_of_true (h.of_serves_less rfl fun _ _ hc => ?_) trivial
    exact OptionSourceService.cached_of_later
      (Nat.le_add_right s.now milliseconds) hc
  | begin fetch source forceRefresh =>
    simp only [next] at hn
    cases hf : s.fetches[fetch]? with
    | some f => simp [hf] at hn
    | none =>
      simp only [hf, some_inj] at hn
      subst hn
      exact iff_of_true h trivial
  | look fetch =>
    refine iff_of_true ?_ trivial
    simp only [next] at hn
    cases hf : s.fetches[fetch]? with
    | none => simp [hf] at hn
    | some f =>
      cases f with
      | begun source forceRefresh generation =>
        cases forceRefresh with
        | true =>
          simp only [hf, if_true, some_inj] at hn
          subst hn
          exact h
        | false =>
          simp only [hf, Bool.false_eq_true, if_false] at hn
          cases hc : s.service.cached source s.now with
          | none =>
            simp only [hc, some_inj] at hn
            subst hn
            exact h.look source _
          | some list =>
            simp only [hc, some_inj] at hn
            subst hn
            exact h.look source _
      | missed => simp [hf] at hn
      | requested => simp [hf] at hn
      | replied => simp [hf] at hn
  | request fetch =>
    refine iff_of_true ?_ trivial
    simp only [next] at hn
    split at hn
    · split at hn
      · obtain rfl := Option.some.inj hn
        exact h
      · cases hn
    · cases hn
  | reply fetch list =>
    refine iff_of_true ?_ trivial
    simp only [next] at hn
    split at hn
    · obtain rfl := Option.some.inj hn
      exact h
    · cases hn
  | readGifts fetch options =>
    refine iff_of_true ?_ trivial
    simp only [next] at hn
    split at hn
    · split at hn
      · obtain rfl := Option.some.inj hn
        exact h
      · cases hn
    · cases hn
  | store fetch =>
    simp only [next] at hn
    cases hf : s.fetches[fetch]? with
    | none => simp [hf] at hn
    | some f =>
      cases f with
      | replied source generation provided =>
        simp only [hf, some_inj] at hn
        subst hn
        simp only [StepOk, hf]
        exact neverStale_store_iff h source generation provided _
      | begun => simp [hf] at hn
      | missed => simp [hf] at hn
      | requested => simp [hf] at hn
  | fail fetch =>
    refine iff_of_true ?_ trivial
    simp only [next] at hn
    split at hn
    · obtain rfl := Option.some.inj hn
      exact h
    · cases hn
  | clear =>
    obtain rfl := Option.some.inj hn
    exact iff_of_true (.clear s) trivial
  | invalidate source =>
    obtain rfl := Option.some.inj hn
    exact iff_of_true (h.invalidate source _ _) trivial
  | invalidateAction call actionType =>
    refine iff_of_true ?_ trivial
    simp only [next] at hn
    split at hn
    · cases hn
    · obtain rfl := Option.some.inj hn
      exact h
  | removeNext call =>
    refine iff_of_true ?_ trivial
    simp only [next] at hn
    split at hn
    · obtain rfl := Option.some.inj hn
      exact h.removeNext _ _
    · cases hn
  | finish call =>
    simp only [next] at hn
    cases hcl : s.calls[call]? with
    | none => simp [hcl] at hn
    | some c =>
      obtain ⟨n, actionType, remaining⟩ := c
      cases remaining with
      | cons source remaining => simp [hcl] at hn
      | nil =>
        simp only [hcl, some_inj] at hn
        subst hn
        simp only [StepOk, hcl]
        exact neverStale_finish_iff h n actionType _

-- ==== over every schedule

/-- In every run of fetches and dropping calls, the cache never serves a
list from before a call that covers it and has returned, if and only if
every step of the run is one of those admitted. -/
theorem never_stale_iff (actions : List Action) :
    (∀ t, Reaches next System.start actions t → t.NeverStale)
      ↔ ∀ before a after t u, actions = before ++ a :: after →
        runActions next System.start before = some t →
        next t a = some u → t.StepOk a :=
  reaches_iff NeverStale.start
    (fun _ _ _ h hn => neverStale_next_iff h hn) actions

-- ---- where it goes wrong

/-- A list of one voice. -/
def voices : OptionList := ⟨[.string "voice"], some "voice"⟩

def voiceSource : String := "plugin-action-options:speak:voice"

/-- A successful action drops its lists while a fetch of one of them is
in flight; the fetch then stores what it got. -/
def overtakenRun : List Action :=
  [.begin 0 voiceSource false, .look 0, .request 0, .reply 0 voices,
    .invalidateAction 0 "speak", .finish 0, .store 0]

/-- A fetch stores its list after the call has collected its keys. -/
def uncollectedRun : List Action :=
  [.begin 0 voiceSource false, .look 0, .request 0, .reply 0 voices,
    .invalidateAction 0 "speak", .store 0, .finish 0]

/-- The host's list is stored whatever the generation says. -/
def hostRun : List Action :=
  [.begin 0 hostGiftsSource false, .look 0, .readGifts 0 [], .clear, .store 0]

/-- The last state of a run serves a list from before a call that covers
it. -/
def servesStale (actions : List Action) (source : String) : Bool :=
  match runActions next System.start actions with
  | some t =>
    match t.service.cached source t.now with
    | some provided => provided.requestedAfter < t.covered source
    | none => false
  | none => false

theorem not_neverStale_of_servesStale {a : List Action}
    {source : String} (h : servesStale a source = true) :
    ∃ t, Reaches next System.start a t ∧ ¬ t.NeverStale := by
  unfold servesStale at h
  cases ht : runActions next System.start a with
  | none => simp [ht] at h
  | some t =>
    cases hc : t.service.cached source t.now with
    | none => simp [ht, hc] at h
    | some p =>
      simp only [ht, hc, decide_eq_true_eq] at h
      refine ⟨t, ⟨a, [], (List.append_nil _).symm, ht⟩, ?_⟩
      intro hf
      have hle := hf source p hc
      omega

/-- An in-flight fetch brings back a list from before `invalidate_action`
or, for the host's source, from before `clear`. -/
theorem option_cache_serves_stale :
    (∃ t, Reaches next System.start overtakenRun t ∧ ¬ t.NeverStale)
      ∧ (∃ t, Reaches next System.start uncollectedRun t ∧ ¬ t.NeverStale)
      ∧ ∃ t, Reaches next System.start hostRun t ∧ ¬ t.NeverStale :=
  ⟨@not_neverStale_of_servesStale _ voiceSource (by decide +kernel),
    @not_neverStale_of_servesStale _ voiceSource (by decide +kernel),
    @not_neverStale_of_servesStale _ hostGiftsSource (by decide +kernel)⟩

end System

end TikTools.Automation.OptionSources
