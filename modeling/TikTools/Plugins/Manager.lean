/-
The runtime plugin manager: which plugins the registry calls running.

The registry of discovered plugins and the map of running instances are
under locks of their own. `start`, `stop` and the retirement of a failed
generation hold a lifecycle lock over all their steps; a scan does not.
It copies the ids of the running instances, and some time later replaces
the registry by what it discovered, each entry marked by that copy.

# The invariant

An entry's flag says whether the instance is there, up to the one plugin
whose flag the holder of the lifecycle lock is about to write
(`Stage.owes`). Every step of the lifecycle operations keeps this. A
scan's replacement keeps it exactly when its copy is still right, and
that is the condition `Timely` puts on it.

A worker is identified by its place in the order of spawning. Its
generation token comes from a counter of 64 bits.
-/
import TikTools.Lib.Runs
import Mathlib.Logic.Function.Basic
import Mathlib.Algebra.Group.Nat.Defs

namespace TikTools.PluginManager

open TikTools.Lib Option Function

-- ==== the state

/-- What a start reads of a discovered package. -/
structure Package where
  available : Bool
  /-- It declares no native addons, or they are allowed. -/
  addonsAllowed : Bool
  /-- A runtime of its kind is registered. -/
  hasRuntime : Bool

structure DiscoveredPlugin where
  package : Package
  running : Bool

structure RunningInstance where
  token : Nat
  worker : Nat

/-- A worker thread that was spawned; `asked` when it was sent the
shutdown message. -/
structure Worker where
  id : String
  token : Nat
  asked : Bool

/-- A scan between its two steps. -/
structure Scan where
  discovered : String → Option Package
  runningIds : String → Bool

/-- Where the holder of the lifecycle lock is. -/
inductive Stage where
  | free
  /-- `start`, before it looks for an instance. -/
  | starting (id : String)
  /-- `stop` or `stop_for_shutdown`, before it removes the instance. -/
  | stopping (id : String)
  /-- `remove_failed_worker`, before it looks for the generation. -/
  | failing (id : String) (token : Nat)
  /-- The instance is out of the map and not yet asked to stop; a start
  of a plugin whose worker died goes on afterwards. -/
  | removed (id : String) (current : RunningInstance) (restart : Bool)
  /-- Before `set_running(id, false)`. -/
  | unmark (id : String) (restart : Bool)
  /-- `start`, before it reads the registry entry. -/
  | fresh (id : String)
  /-- The worker is spawned and not yet in the map. -/
  | spawned (id : String) (current : RunningInstance)
  /-- Before `set_running(id, true)`. -/
  | mark (id : String)

structure Manager where
  registry : String → Option DiscoveredPlugin
  instances : String → Option RunningInstance
  nextToken : Nat
  lifecycle : Stage
  scans : List Scan
  /-- The workers by the order of spawning, and how many there are. -/
  workers : Nat → Option Worker
  workerCount : Nat

def Manager.start : Manager where
  registry := fun _ => none
  instances := fun _ => none
  nextToken := 1
  lifecycle := .free
  scans := []
  workers := fun _ => none
  workerCount := 0

inductive Action where
  /-- A scan has read the directories and copies the running ids. -/
  | snapshot (discovered : String → Option Package)
  /-- The scan at this place replaces the registry. -/
  | replace (index : Nat)
  | start (id : String)
  | stop (id : String)
  /-- A call on this worker failed or timed out. -/
  | fail (worker : Nat)
  /-- The holder of the lifecycle lock takes its next step: with the
  answer to whether the worker it found has finished, or whether the
  new one could be spawned. -/
  | go (answer : Bool)

-- ==== the steps

namespace Manager

variable (s : Manager)

def setRunning (id : String) (running : Bool) : Manager :=
  match s.registry id with
  | some plugin =>
    { s with
      registry :=
        Function.update s.registry id (some { plugin with running }) }
  | none => s

def goTo (lifecycle : Stage) : Manager := { s with lifecycle }

def removeInstance (id : String) (current : RunningInstance)
    (restart : Bool) : Manager :=
  { s with
    instances := Function.update s.instances id none
    lifecycle := .removed id current restart }

/-- Send the worker the shutdown message. -/
def ask (worker : Nat) : Manager :=
  { s with
    workers := Function.update s.workers worker
      ((s.workers worker).map fun w => { w with asked := true }) }

/-- Take a token and spawn a worker, if that succeeds. -/
def launch (id : String) (spawns : Bool) : Manager :=
  let s' := { s with nextToken := (s.nextToken + 1) % 2 ^ 64 }
  if spawns then
    { s' with
      workers := Function.update s.workers s.workerCount
        (some ⟨id, s.nextToken, false⟩)
      workerCount := s.workerCount + 1
      lifecycle := .spawned id ⟨s.nextToken, s.workerCount⟩ }
  else s'.goTo .free

/-- One step under the lifecycle lock. -/
def advance (answer : Bool) : Option Manager :=
  match s.lifecycle with
  | .free => none
  | .starting id =>
    match s.instances id with
    | some existing =>
      if answer then some (s.removeInstance id existing true)
      else some (s.goTo .free)
    | none => some (s.goTo (.fresh id))
  | .stopping id =>
    match s.instances id with
    | some existing => some (s.removeInstance id existing false)
    | none => some (s.goTo (.unmark id false))
  | .failing id token =>
    match s.instances id with
    | some current =>
      if current.token = token then
        some (s.removeInstance id current false)
      else some (s.goTo .free)
    | none => some (s.goTo .free)
  | .removed id existing restart =>
    some ((s.ask existing.worker).goTo (.unmark id restart))
  | .unmark id restart =>
    some ((s.setRunning id false).goTo (if restart then .fresh id else .free))
  | .fresh id =>
    match s.registry id with
    | some plugin =>
      if plugin.package.available ∧ plugin.package.addonsAllowed
          ∧ plugin.package.hasRuntime then some (s.launch id answer)
      else some (s.goTo .free)
    | none => some (s.goTo .free)
  | .spawned id current =>
    some
      { s with
        instances := Function.update s.instances id (some current)
        lifecycle := .mark id }
  | .mark id => some ((s.setRunning id true).goTo .free)

/-- An operation takes the lifecycle lock. -/
def enter (lifecycle : Stage) : Option Manager :=
  match s.lifecycle with
  | .free => some (s.goTo lifecycle)
  | _ => none

/-- The registry as a scan makes it. -/
def rebuilt (scan : Scan) (id : String) : Option DiscoveredPlugin :=
  (scan.discovered id).map fun package => ⟨package, scan.runningIds id⟩

def next (s : Manager) : Action → Option Manager
  | .snapshot discovered =>
    some { s with
      scans := s.scans ++ [⟨discovered, fun id => (s.instances id).isSome⟩] }
  | .replace index =>
    (s.scans[index]?).map fun scan =>
      { s with registry := rebuilt scan, scans := s.scans.eraseIdx index }
  | .start id => s.enter (.starting id)
  | .stop id => s.enter (.stopping id)
  | .fail worker =>
    (s.workers worker).bind fun w => s.enter (.failing w.id w.token)
  | .go answer => s.advance answer

end Manager

-- ==== the law

/-- The running flags follow the instances, and the generations follow
each other. -/
structure FollowsInstances (s : Manager) : Prop where
  flags : s.lifecycle = .free → ∀ id plugin,
    s.registry id = some plugin →
      (plugin.running = true ↔ (s.instances id).isSome = true)
  tokens : ∀ i j w w', s.workers i = some w → s.workers j = some w' →
    i < j → w.token < w'.token
  /-- A failure of an older generation leaves a newer one alone. -/
  older : ∀ id token current, s.lifecycle = .failing id token →
    s.instances id = some current → current.token ≠ token →
      ∀ answer, s.next (.go answer) = some (s.goTo .free)
  /-- What is marked stopped is not in the map. -/
  unmarked : ∀ id restart, s.lifecycle = .unmark id restart →
    s.instances id = none
  sole : ∀ i j w w', s.workers i = some w → s.workers j = some w' →
    w.id = w'.id → w.asked = false → w'.asked = false → i = j

/-- The plugin whose flag the holder of the lock is about to write. -/
def Stage.owes : Stage → Option String
  | .removed id _ _ | .unmark id _ | .mark id => some id
  | _ => none

/-- A scan replaces the registry when its copy of the running ids is
right for all it discovered, up to the flag that is about to be written;
and the tokens are not used up. -/
def Timely (s : Manager) : Action → Prop
  | .replace index => ∀ scan, s.scans[index]? = some scan →
      ∀ id, (scan.discovered id).isSome →
        scan.runningIds id = (s.instances id).isSome
          ∨ s.lifecycle.owes = some id
  | .go _ => s.nextToken + 1 < 2 ^ 64
  | _ => True

-- ==== the invariant

/-- The plugin that has no instance while the lock is held here. -/
def Stage.absent : Stage → Option String
  | .removed id _ _ | .unmark id _ | .fresh id | .spawned id _ => some id
  | _ => none

/-- The instance that is out of the map and not asked to stop. -/
def Stage.outside : Stage → Option (String × RunningInstance)
  | .removed id current _ | .spawned id current => some (id, current)
  | _ => none

structure Sound (s : Manager) : Prop where
  flag : ∀ id plugin, s.registry id = some plugin →
    plugin.running = (s.instances id).isSome ∨ s.lifecycle.owes = some id
  absent : ∀ id, s.lifecycle.absent = some id → s.instances id = none
  present : ∀ id, s.lifecycle = .mark id → (s.instances id).isSome
  /-- An instance is a worker that has not been asked to stop. -/
  held : ∀ id current, s.instances id = some current
      ∨ s.lifecycle.outside = some (id, current) →
    s.workers current.worker = some ⟨id, current.token, false⟩
  unasked : ∀ i w, s.workers i = some w → w.asked = false →
    ∃ current, current.worker = i ∧ (s.instances w.id = some current
      ∨ s.lifecycle.outside = some (w.id, current))
  spawned : ∀ i, s.workerCount ≤ i → s.workers i = none
  below : ∀ i w, s.workers i = some w → w.token < s.nextToken
  tokens : ∀ i j w w', s.workers i = some w → s.workers j = some w' →
    i < j → w.token < w'.token

variable {s t : Manager}

namespace Sound

theorem start : Sound .start where
  flag _ _ h := nomatch h
  absent _ _ := rfl
  present _ h := nomatch h
  held _ _ h := by rcases h with h | h <;> cases h
  unasked _ _ h := nomatch h
  spawned _ _ := rfl
  below _ _ h := nomatch h
  tokens _ _ _ _ h := nomatch h

theorem followsInstances (h : Sound s) : FollowsInstances s where
  flags hf id plugin hp := by
    have ho : s.lifecycle.owes ≠ some id := by
      rw [hf]
      exact nofun
    rw [(h.flag id plugin hp).resolve_right ho]
  tokens := h.tokens
  older id token current hs hcur hne answer := by
    simp only [Manager.next, Manager.advance, hs, hcur, if_neg hne]
  unmarked id restart hs := h.absent id (by rw [hs]; rfl)
  sole i j w w' hi hj hid hw hw' := by
    obtain ⟨a, rfl, ha⟩ := h.unasked i w hi hw
    obtain ⟨b, rfl, hb⟩ := h.unasked j w' hj hw'
    rw [← hid] at hb
    -- inside and outside exclude each other
    have hel : ∀ a b : RunningInstance,
        s.instances w.id = some a → s.lifecycle.outside = some (w.id, b) →
          False := by
      intro a b hin hout
      have habs : s.lifecycle.absent = some w.id := by
        cases hs : s.lifecycle <;> rw [hs] at hout <;> cases hout <;> rfl
      rw [h.absent w.id habs] at hin
      cases hin
    rcases ha with ha | ha <;> rcases hb with hb | hb
    · rw [Option.some.inj (ha.symm.trans hb)]
    · exact (hel a b ha hb).elim
    · exact (hel b a hb ha).elim
    · rw [(Prod.mk.inj (Option.some.inj (ha.symm.trans hb))).2]

variable {stage : Stage}

section

variable (h : Sound s)
include h

theorem goTo (hos : ∀ id, s.lifecycle.owes = some id → stage.owes = some id)
    (hb : ∀ id, stage.absent = some id → s.instances id = none)
    (hpr : ∀ id, stage ≠ .mark id)
    (ho : stage.outside = s.lifecycle.outside) :
    Sound (s.goTo stage) where
  flag id plugin hp := (h.flag id plugin hp).imp_right (hos id)
  absent := hb
  present id hs := absurd hs (hpr id)
  held id current hcur := h.held id current (ho ▸ hcur)
  unasked i w hw ha := by
    obtain ⟨current, hi, hcur⟩ := h.unasked i w hw ha
    exact ⟨current, hi, ho ▸ hcur⟩
  spawned := h.spawned
  below := h.below
  tokens := h.tokens

variable {current : RunningInstance} {id : String}

/-- An instance leaves the map: its flag is owed, and it is to be asked
to stop. -/
theorem removeInstance (hcur : s.instances id = some current)
    (hos : s.lifecycle.owes = none)
    (hot : s.lifecycle.outside = none) (r : Bool) :
    Sound (s.removeInstance id current r) where
  flag other plugin hp := by
    by_cases ho : other = id
    · exact .inr (congrArg some ho.symm)
    · refine .inl ?_
      show _ = (Function.update s.instances id none other).isSome
      rw [update_of_ne ho]
      refine (h.flag other plugin hp).resolve_right fun hs => ?_
      cases hos.symm.trans hs
  absent other ho := by
    cases ho
    exact update_self ..
  present _ hst := nomatch hst
  held other c hc := by
    rcases hc with hc | hc
    · by_cases ho : other = id
      · subst ho
        cases (update_self ..).symm.trans hc
      · exact h.held other c (.inl ((update_of_ne ho ..).symm.trans hc))
    · cases hc
      exact h.held id current (.inl hcur)
  unasked i w hw ha := by
    obtain ⟨c, hi, hc⟩ := h.unasked i w hw ha
    refine ⟨c, hi, ?_⟩
    rcases hc with hc | hc
    · by_cases hid : w.id = id
      · rw [hid, hcur] at hc
        cases hc
        exact .inr (congrArg (fun i => some (i, current)) hid.symm)
      · exact .inl ((update_of_ne hid ..).trans hc)
    · cases hot.symm.trans hc
  spawned := h.spawned
  below := h.below
  tokens := h.tokens

theorem ask
    {r : Bool} (hst : s.lifecycle = .removed id current r) :
    Sound ((s.ask current.worker).goTo (.unmark id r)) := by
  have hwr : s.workers current.worker
      = some ⟨id, current.token, false⟩ :=
    h.held id current (.inr (by rw [hst]; rfl))
  have hn : s.instances id = none := h.absent id (by rw [hst]; rfl)
  -- the workers differ in one bit
  have ho : ∀ i, i ≠ current.worker →
      (s.ask current.worker).workers i = s.workers i := fun i hi => by
    simp only [Manager.ask, update_of_ne hi]
  have hsl : (s.ask current.worker).workers current.worker
      = some ⟨id, current.token, true⟩ := by
    simp only [Manager.ask, update_self, hwr, map_some]
  have hb : ∀ i w, (s.ask current.worker).workers i = some w →
      ∃ w', s.workers i = some w' ∧ w'.token = w.token := by
    intro i w hw
    by_cases hi : i = current.worker
    · subst hi
      cases hsl.symm.trans hw
      exact ⟨_, hwr, rfl⟩
    · exact ⟨w, (ho i hi).symm.trans hw, rfl⟩
  have hos : s.lifecycle.owes = some id := by rw [hst]; rfl
  refine ⟨fun other plugin hp => ?_, fun other hid => ?_, nofun,
    fun other c hc => ?_, fun i w hw ha => ?_, fun i hi => ?_,
    fun i w hw => ?_, fun i j w w' hw hw' hlt => ?_⟩
  · exact (h.flag other plugin hp).imp_right fun hs => hos.symm.trans hs
  · cases hid
    exact hn
  · rcases hc with hc | hc
    · have hin : s.workers c.worker = some ⟨other, c.token, false⟩ :=
        h.held other c (.inl hc)
      refine (ho c.worker fun heq => ?_).trans hin
      rw [heq, hwr] at hin
      have hid : id = other := congrArg Worker.id (Option.some.inj hin)
      rw [← hid] at hc
      cases hn.symm.trans hc
    · cases hc
  · have hi : i ≠ current.worker := by
      rintro rfl
      cases hsl.symm.trans hw
      cases ha
    obtain ⟨c, hci, hc⟩ := h.unasked i w ((ho i hi).symm.trans hw) ha
    refine ⟨c, hci, hc.imp_right fun hout => ?_⟩
    rw [hst] at hout
    cases hout
    exact absurd hci.symm hi
  · refine (ho i fun heq => ?_).trans (h.spawned i hi)
    rw [heq] at hi
    cases hwr.symm.trans (h.spawned _ hi)
  · obtain ⟨w', hw', ht⟩ := hb i w hw
    rw [← ht]
    exact h.below i w' hw'
  · obtain ⟨v, hv, ht⟩ := hb i w hw
    obtain ⟨v', hv', ht'⟩ := hb j w' hw'
    rw [← ht, ← ht']
    exact h.tokens i j v v' hv hv' hlt

theorem setRunning {r : Bool} (hos : s.lifecycle.owes = some id)
    (hit : (s.instances id).isSome = r)
    (hot : s.lifecycle.outside = none) (hn : stage.owes = none)
    (hnt : stage.outside = none)
    (habs : ∀ other, stage.absent = some other → s.instances other = none) :
    Sound ((s.setRunning id r).goTo stage) := by
  have hin : (s.setRunning id r).instances = s.instances := by
    unfold Manager.setRunning
    split <;> rfl
  have hwr : (s.setRunning id r).workers = s.workers := by
    unfold Manager.setRunning
    split <;> rfl
  have hcn : (s.setRunning id r).workerCount = s.workerCount := by
    unfold Manager.setRunning
    split <;> rfl
  have ht : (s.setRunning id r).nextToken = s.nextToken := by
    unfold Manager.setRunning
    split <;> rfl
  have hen : ∀ other plugin,
      (s.setRunning id r).registry other = some plugin →
        other = id ∧ plugin.running = r
          ∨ other ≠ id ∧ s.registry other = some plugin := by
    intro other plugin hp
    by_cases ho : other = id
    · subst ho
      refine .inl ⟨rfl, ?_⟩
      cases hrgy : s.registry other with
      | none =>
        simp only [Manager.setRunning, hrgy] at hp
        cases hp
      | some old =>
        simp only [Manager.setRunning, hrgy, update_self,
          Option.some.injEq] at hp
        rw [← hp]
    · refine .inr ⟨ho, ?_⟩
      cases hrgy : s.registry id with
      | none =>
        simpa only [Manager.setRunning, hrgy] using hp
      | some old =>
        simpa only [Manager.setRunning, hrgy, update_of_ne ho] using hp
  refine ⟨fun other plugin hp => .inl ?_, fun other ho => ?_,
    fun other hmr => ?_, fun other c hc => ?_, fun i w hw ha => ?_,
    fun i hi => ?_, fun i w hw => ?_, fun i j w w' hw hw' => ?_⟩
  · show _ = ((s.setRunning id r).instances other).isSome
    rw [hin]
    rcases hen other plugin hp with ⟨rfl, hr⟩ | ⟨hne, hold⟩
    · rw [hr, hit]
    · refine (h.flag other plugin hold).resolve_right fun hs => ?_
      exact hne (Option.some.inj (hos.symm.trans hs)).symm
  · exact (congrFun hin other).trans (habs other ho)
  · have hm' : stage = .mark other := hmr
    rw [hm'] at hn
    cases hn
  · show (s.setRunning id r).workers c.worker = _
    rw [hwr]
    refine h.held other c (hc.imp (congrFun hin other).symm.trans
      fun hout => ?_)
    cases hnt.symm.trans hout
  · obtain ⟨c, hci, hc⟩ := h.unasked i w ((congrFun hwr i).symm.trans
      hw) ha
    refine ⟨c, hci, hc.imp (congrFun hin _).trans fun hout => ?_⟩
    cases hot.symm.trans hout
  · exact (congrFun hwr i).trans (h.spawned i (hcn ▸ hi))
  · show _ < (s.setRunning id r).nextToken
    rw [ht]
    exact h.below i w ((congrFun hwr i).symm.trans hw)
  · exact h.tokens i j w w' ((congrFun hwr i).symm.trans hw)
      ((congrFun hwr j).symm.trans hw')

theorem launch (hst : s.lifecycle = .fresh id)
    (ht : s.nextToken + 1 < 2 ^ 64) (spawns : Bool) :
    Sound (s.launch id spawns) := by
  have hn : s.instances id = none := h.absent id (by rw [hst]; rfl)
  have hmod : (s.nextToken + 1) % 2 ^ 64 = s.nextToken + 1 :=
    Nat.mod_eq_of_lt ht
  have hf : ∀ other plugin, s.registry other = some plugin →
      plugin.running = (s.instances other).isSome := by
    intro other plugin hp
    refine (h.flag other plugin hp).resolve_right fun hs => ?_
    rw [hst] at hs
    cases hs
  have hot : s.lifecycle.outside = none := by rw [hst]; rfl
  cases spawns with
  | false =>
    refine ⟨fun other plugin hp => .inl (hf other plugin hp),
      nofun, nofun, fun other c hc => ?_, fun i w hw ha => ?_,
      h.spawned, fun i w hw => ?_, h.tokens⟩
    · exact h.held other c (hc.imp_right nofun)
    · obtain ⟨c, hci, hc⟩ := h.unasked i w hw ha
      exact ⟨c, hci, .inl (hc.resolve_right fun hout => by
        cases hot.symm.trans hout)⟩
    · show w.token < (s.nextToken + 1) % 2 ^ 64
      rw [hmod]
      exact Nat.lt_succ_of_lt (h.below i w hw)
  | true =>
    have hsl : (s.launch id true).workers s.workerCount
        = some ⟨id, s.nextToken, false⟩ := by
      simp only [Manager.launch, if_true, update_self]
    have ho : ∀ i, i ≠ s.workerCount →
        (s.launch id true).workers i = s.workers i := fun i hi => by
      simp only [Manager.launch, if_true, update_of_ne hi]
    have hold : ∀ i w, s.workers i = some w → i < s.workerCount := by
      intro i w hw
      by_contra hge
      cases hw.symm.trans (h.spawned i (Nat.not_lt.1 hge))
    refine ⟨fun other plugin hp => .inl (hf other plugin hp),
      fun other habs => ?_, nofun, fun other c hc => ?_,
      fun i w hw ha => ?_, fun i hi => ?_, fun i w hw => ?_,
      fun i j w w' hw hw' hlt => ?_⟩
    · cases habs
      exact hn
    · rcases hc with hc | hc
      · have hin := h.held other c (.inl hc)
        exact (ho _ (Nat.ne_of_lt (hold _ _ hin))).trans hin
      · cases hc
        exact hsl
    · by_cases hi : i = s.workerCount
      · subst hi
        cases hsl.symm.trans hw
        exact ⟨⟨s.nextToken, s.workerCount⟩, rfl, .inr rfl⟩
      · obtain ⟨c, hci, hc⟩ := h.unasked i w
          ((ho i hi).symm.trans hw) ha
        exact ⟨c, hci, .inl (hc.resolve_right fun hout => by
          cases hot.symm.trans hout)⟩
    · have hge : s.workerCount + 1 ≤ i := hi
      exact (ho i (by omega)).trans (h.spawned i (by omega))
    · show w.token < (s.nextToken + 1) % 2 ^ 64
      rw [hmod]
      by_cases hi : i = s.workerCount
      · subst hi
        cases hsl.symm.trans hw
        exact Nat.lt_succ_self _
      · exact Nat.lt_succ_of_lt (h.below i w ((ho i hi).symm.trans hw))
    · have hi : i ≠ s.workerCount := by
        rintro rfl
        by_cases hj : j = s.workerCount
        · omega
        · have hjl := hold j w' ((ho j hj).symm.trans hw')
          omega
      by_cases hj : j = s.workerCount
      · subst hj
        cases hsl.symm.trans hw'
        exact h.below i w ((ho i hi).symm.trans hw)
      · exact h.tokens i j w w' ((ho i hi).symm.trans hw)
          ((ho j hj).symm.trans hw') hlt

theorem insert (hst : s.lifecycle = .spawned id current) :
    Sound { s with
      instances := Function.update s.instances id (some current)
      lifecycle := .mark id } where
  flag other plugin hp := by
    by_cases ho : other = id
    · exact .inr (congrArg some ho.symm)
    · refine .inl ?_
      show _ = (Function.update s.instances id (some current) other).isSome
      rw [update_of_ne ho]
      refine (h.flag other plugin hp).resolve_right fun hs => ?_
      rw [hst] at hs
      cases hs
  absent _ habs := nomatch habs
  present other hmr := by
    cases hmr
    show (Function.update s.instances id (some current) id).isSome = true
    rw [update_self]
    rfl
  held other c hc := by
    rcases hc with hc | hc
    · by_cases ho : other = id
      · subst ho
        cases (update_self ..).symm.trans hc
        exact h.held other current (.inr (by rw [hst]; rfl))
      · exact h.held other c (.inl ((update_of_ne ho ..).symm.trans hc))
    · cases hc
  unasked i w hw ha := by
    have hn : s.instances id = none := h.absent id (by rw [hst]; rfl)
    obtain ⟨c, hci, hc⟩ := h.unasked i w hw ha
    refine ⟨c, hci, .inl ?_⟩
    show Function.update s.instances id (some current) w.id = some c
    rcases hc with hc | hc
    · have ho : w.id ≠ id := by
        rintro heq
        rw [heq, hn] at hc
        cases hc
      rw [update_of_ne ho]
      exact hc
    · rw [hst] at hc
      cases hc
      exact update_self ..
  spawned := h.spawned
  below := h.below
  tokens := h.tokens

theorem replace {scan : Scan} {scans : List Scan}
    (hr : ∀ id, (scan.discovered id).isSome →
      scan.runningIds id = (s.instances id).isSome
        ∨ s.lifecycle.owes = some id) :
    Sound { s with registry := Manager.rebuilt scan, scans } where
  flag id plugin hp := by
    obtain ⟨package, hpkg, rfl⟩ := map_eq_some_iff.1 hp
    exact hr id (by rw [hpkg]; rfl)
  absent := h.absent
  present := h.present
  held := h.held
  unasked := h.unasked
  spawned := h.spawned
  below := h.below
  tokens := h.tokens

theorem enter (stage : Stage)
    (hen : stage.absent = none ∧ (∀ id, stage ≠ .mark id)
      ∧ stage.outside = none)
    (hn : s.enter stage = some t) : Sound t := by
  unfold Manager.enter at hn
  split at hn
  · next hf =>
    cases hn
    refine h.goTo (fun id ho => ?_) (fun id ha => ?_) hen.2.1 ?_
    · rw [hf] at ho
      cases ho
    · cases hen.1.symm.trans ha
    · rw [hf, hen.2.2]
      rfl
  · cases hn

theorem advance {answer : Bool}
    (ht : s.nextToken + 1 < 2 ^ 64)
    (hn : s.advance answer = some t) : Sound t := by
  unfold Manager.advance at hn
  cases hs : s.lifecycle with
  | free =>
    rw [hs] at hn
    cases hn
  | starting id =>
    simp only [hs] at hn
    cases hcur : s.instances id with
    | some current =>
      simp only [hcur] at hn
      split at hn
      · cases hn
        exact h.removeInstance hcur (by rw [hs]; rfl) (by rw [hs]; rfl) true
      · cases hn
        exact h.goTo (by rw [hs]; exact nofun) nofun nofun (by rw [hs]; rfl)
    | none =>
      simp only [hcur] at hn
      cases hn
      refine h.goTo (by rw [hs]; exact nofun) ?_ nofun (by rw [hs]; rfl)
      rintro other ⟨⟩
      exact hcur
  | stopping id =>
    simp only [hs] at hn
    cases hcur : s.instances id with
    | some current =>
      simp only [hcur] at hn
      cases hn
      exact h.removeInstance hcur (by rw [hs]; rfl) (by rw [hs]; rfl) false
    | none =>
      simp only [hcur] at hn
      cases hn
      refine h.goTo (by rw [hs]; exact nofun) ?_ nofun (by rw [hs]; rfl)
      rintro other ⟨⟩
      exact hcur
  | failing id token =>
    simp only [hs] at hn
    cases hcur : s.instances id with
    | some current =>
      simp only [hcur] at hn
      split at hn
      · cases hn
        exact h.removeInstance hcur (by rw [hs]; rfl) (by rw [hs]; rfl) false
      · cases hn
        exact h.goTo (by rw [hs]; exact nofun) nofun nofun (by rw [hs]; rfl)
    | none =>
      simp only [hcur] at hn
      cases hn
      exact h.goTo (by rw [hs]; exact nofun) nofun nofun (by rw [hs]; rfl)
  | removed id current r =>
    simp only [hs] at hn
    cases hn
    exact h.ask hs
  | unmark id r =>
    simp only [hs] at hn
    cases hn
    have hnn : s.instances id = none := h.absent id (by rw [hs]; rfl)
    refine h.setRunning (by rw [hs]; rfl) (by rw [hnn]; rfl)
      (by rw [hs]; rfl) (by cases r <;> rfl)
      (by cases r <;> rfl) fun other habs => ?_
    cases r with
    | false => cases habs
    | true =>
      cases habs
      exact hnn
  | fresh id =>
    simp only [hs] at hn
    have hf : Sound (s.goTo .free) :=
      h.goTo (by rw [hs]; exact nofun) nofun nofun (by rw [hs]; rfl)
    cases hp : s.registry id with
    | none =>
      simp only [hp] at hn
      cases hn
      exact hf
    | some plugin =>
      simp only [hp] at hn
      split at hn
      · cases hn
        exact h.launch hs ht answer
      · cases hn
        exact hf
  | spawned id current =>
    simp only [hs] at hn
    cases hn
    exact h.insert hs
  | mark id =>
    simp only [hs] at hn
    cases hn
    exact h.setRunning (by rw [hs]; rfl) (h.present id hs)
      (by rw [hs]; rfl) rfl rfl nofun

end

theorem next {a : Action} (h : Sound s) (ht : Timely s a)
    (hn : s.next a = some t) : Sound t := by
  cases a with
  | snapshot discovered =>
    cases hn
    exact ⟨h.flag, h.absent, h.present, h.held, h.unasked, h.spawned,
      h.below, h.tokens⟩
  | replace index =>
    obtain ⟨scan, hs, rfl⟩ := map_eq_some_iff.1 hn
    exact h.replace (ht scan hs)
  | start id =>
    exact h.enter (.starting id) ⟨rfl, nofun, rfl⟩ hn
  | stop id =>
    exact h.enter (.stopping id) ⟨rfl, nofun, rfl⟩ hn
  | fail worker =>
    obtain ⟨w, -, hn⟩ := bind_eq_some_iff.1 hn
    exact h.enter (.failing w.id w.token) ⟨rfl, nofun, rfl⟩ hn
  | go answer => exact h.advance ht hn

end Sound

/-- As long as every scan replaces the registry with a copy that is still
right, the flags follow the instances, whatever the interleaving. -/
theorem flags_follow_instances
    (hrun : Run (fun s action t => s.next action = some t) Timely .start s) :
    FollowsInstances s := by
  have hs : Sound s := hrun.invariant Sound.start
    fun _ _ _ h ht hn => h.next ht hn
  exact hs.followsInstances

-- ==== runs

/-- One package that can be started. -/
def onePackage (id : String) : Option Package :=
  if id = "p" then some ⟨true, true, true⟩ else none

def flagOf (s : Manager) : Option Bool :=
  (s.registry "p").map DiscoveredPlugin.running

/-- No scan, and no token beyond a thousand. -/
def calm (s : Manager) : Action → Bool
  | .replace _ => false
  | .go _ => s.nextToken < 1000
  | _ => true

theorem timely_of_calm (s : Manager) (action : Action)
    (h : calm s action = true) : Timely s action := by
  cases action with
  | replace index => cases h
  | go answer =>
    have ht : s.nextToken < 1000 := of_decide_eq_true h
    show s.nextToken + 1 < 2 ^ 64
    omega
  | _ => trivial

/-- A plugin is discovered and started, and its worker fails. -/
theorem flags_follow_instances_restarted :
    ∃ s : Manager, FollowsInstances s ∧ flagOf s = some false
      ∧ s.workerCount = 1 := by
  have hsc : Run (fun s action t => Manager.next s action = some t) Timely
      .start { Manager.start with
        registry := Manager.rebuilt ⟨onePackage, fun _ => false⟩ } := by
    refine (Run.refl.tail (.snapshot onePackage) trivial rfl).tail
      (.replace 0) ?_ rfl
    rintro scan ⟨⟩ id -
    exact .inl rfl
  have hex : ((runWhile Manager.next calm
      { Manager.start with
        registry := Manager.rebuilt ⟨onePackage, fun _ => false⟩ }
      [.start "p", .go false, .go true, .go true, .go true, .fail 0,
        .go true, .go true, .go true]).map
      fun s => (flagOf s, s.workerCount)) = some (some false, 1) := by
    decide +kernel
  obtain ⟨s, hs, hres⟩ := map_eq_some_iff.1 hex
  have hrun := Run.of_runWhile timely_of_calm hsc _ hs
  exact ⟨s, flags_follow_instances hrun, Prod.mk.inj hres⟩

/-- A scan that copied the running ids before a start and replaces the
registry after it marks the running plugin as stopped. -/
theorem scan_marks_running_plugin_stopped :
    ¬ ∀ s : Manager, Run (fun s action t => s.next action = some t)
      (fun _ _ => True) .start s → FollowsInstances s := by
  intro h
  have hex : ((runWhile Manager.next (fun _ _ => true) .start
      [.snapshot onePackage, .replace 0, .snapshot onePackage, .start "p",
        .go false, .go true, .go true, .go true, .replace 0]).map
      fun s => (flagOf s, (s.instances "p").isSome,
        match s.lifecycle with
        | .free => true
        | _ => false)) = some (some false, true, true) := by
    decide +kernel
  obtain ⟨s, hs, hres⟩ := map_eq_some_iff.1 hex
  simp only [Prod.mk.injEq] at hres
  obtain ⟨hfl, hin, hf⟩ := hres
  have hl : s.lifecycle = .free := by
    split at hf
    · assumption
    · cases hf
  obtain ⟨plugin, hp, hr⟩ := map_eq_some_iff.1 hfl
  have hrun := Run.of_runWhile (fun _ _ _ => trivial) .refl _ hs
  have hiff := (h s hrun).flags hl "p" plugin hp
  rw [hr, hin] at hiff
  exact absurd (hiff.2 rfl) (by decide)

end TikTools.PluginManager
