/-
The tally of a worker, as a number and as the events it counts.

The steps of the delivery say the same of every tally. `System.map`
changes the tallies by a homomorphism, and a step or a run commutes with
it (`next_map`, `run_map`): what the code does with numbers is what it
would do with the events, forgotten to their number (`run_card`).
-/
import TikTools.PluginEvents.Observer
import Mathlib.Algebra.Order.Group.Multiset

namespace TikTools.PluginEvents

open TikTools.Lib List Function

variable {γ δ : Type}

theorem map_modify {α β : Type} {f : α → α} {g : α → β} {h : β → β}
    (hc : ∀ a, g (f a) = h (g a)) (l : List α) (i : Nat) :
    (l.modify i f).map g = (l.map g).modify i h := by
  refine ext_getElem? fun j => ?_
  rw [getElem?_map, getElem?_modify, getElem?_modify, getElem?_map]
  cases l[j]? with
  | none => rfl
  | some a => by_cases hij : i = j <;> simp [hij, hc]

section
variable (f : γ → δ)

def Happening.map : Happening γ → Happening δ
  | .matched queued => .matched queued
  | .handed queued => .handed queued
  | .givenUp queued reason => .givenUp queued reason
  | .noticed lost => .noticed (f lost)

def Position.map : Position γ → Position δ
  | .receiving => .receiving
  | .taken queued => .taken queued
  | .ready queued => .ready queued
  | .notifying queued lost => .notifying queued (f lost)
  | .notified queued => .notified queued
  | .delivering => .delivering
  | .stopped => .stopped

def Worker.map (w : Worker γ) : Worker δ where
  pluginId := w.pluginId
  generation := w.generation
  queue := w.queue
  cancelled := w.cancelled
  pendingReliableGaps := f w.pendingReliableGaps
  position := w.position.map f

/-- The state with every tally changed. -/
def System.map (s : System γ) : System δ where
  core := s.core
  fanout := s.fanout
  shutdown := s.shutdown
  observer := s.observer
  handles := s.handles
  workers := s.workers.map (Worker.map f)
  history := s.history.map fun entry => (entry.1, entry.2.map f)

theorem Position.map_eq_stopped {p : Position γ} :
    p.map f = .stopped ↔ p = .stopped := by
  cases p <;> simp [Position.map]

end

namespace System

section
variable (f : γ → δ) (s : System γ)

@[simp] theorem observer_map : (s.map f).observer = s.observer := rfl

@[simp] theorem core_map : (s.map f).core = s.core := rfl

@[simp] theorem handles_map : (s.map f).handles = s.handles := rfl

variable (index : Nat) (pluginId : String)

theorem note_map (h : Happening γ) :
    (s.map f).note pluginId (h.map f) = (s.note pluginId h).map f := by
  simp [note, System.map]

theorem goOn_map (o : Observer) : (s.map f).goOn o = (s.goOn o).map f := rfl

theorem refuse_map (q : QueuedPluginEvent)
    (r : Reason) (t : List String) :
    (s.map f).refuse pluginId q r t = (s.refuse pluginId q r t).map f := by
  unfold refuse
  rw [← goOn_map, ← note_map]
  rfl

theorem notes_map (h : List (Happening γ)) :
    (h.map (Happening.map f)).foldl (·.note pluginId) (s.map f)
      = (h.foldl (·.note pluginId) s).map f := by
  induction h generalizing s with
  | nil => rfl
  | cons happening rest ih =>
    rw [map_cons, foldl_cons, note_map, ih]
    rfl

theorem setWorker_map (w : Worker γ) :
    (s.map f).setWorker index (w.map f) = (s.setWorker index w).map f := by
  simp [setWorker, System.map, map_set]

theorem cancel_map :
    (s.map f).cancel index = (s.cancel index).map f := by
  have hw := map_modify (f := Worker.cancel) (g := Worker.map f)
    (h := Worker.cancel) (fun _ => rfl) s.workers index
  simp only [cancel, System.map, hw]

theorem retire_map :
    (s.map f).retire pluginId = (s.retire pluginId).map f := by
  have hh : (s.map f).handles = s.handles := rfl
  unfold retire
  rw [hh]
  cases s.handles pluginId with
  | none => rfl
  | some index =>
    simp only [cancel_map]
    rfl

theorem getWorker_map :
    (s.map f).workers[index]? = (s.workers[index]?).map (Worker.map f) :=
  getElem?_map

theorem handled_map :
    ((s.map f).handles pluginId).bind ((s.map f).workers[·]?)
      = ((s.handles pluginId).bind (s.workers[·]?)).map (Worker.map f) := by
  have hh : (s.map f).handles = s.handles := rfl
  rw [hh]
  cases s.handles pluginId with
  | none => rfl
  | some index => exact s.getWorker_map f index

theorem cancelAll_map : (s.map f).cancelAll = s.cancelAll.map f := by
  simp only [cancelAll, System.map, map_map]
  rfl

theorem dispatch_map (q : QueuedPluginEvent) (fo : Bool) :
    (s.map f).dispatch q fo = (s.dispatch q fo).map f := by
  simp [dispatch, System.map, Happening.map, comp_def]

theorem retireStale_map (g : Nat) :
    (s.map f).retireStale pluginId g = (s.retireStale pluginId g).map f := by
  unfold retireStale
  rw [handled_map]
  cases (s.handles pluginId).bind (s.workers[·]?) with
  | none => rfl
  | some w =>
    have hgen : (w.map f).generation = w.generation := rfl
    simp only [Option.map_some, hgen]
    split
    · rfl
    · exact s.retire_map f pluginId

theorem alive_map (p : List DiscoveredPlugin) (pluginId : String)
    (w : Worker γ) :
    (s.map f).alive p pluginId (w.map f) = s.alive p pluginId w := rfl

end

end System

variable [AddCommMonoid γ] [AddCommMonoid δ] {f : γ →+ δ} {count : QueuedPluginEvent → γ}
  {count' : QueuedPluginEvent → δ}

theorem System.openWorker_map (s : System γ) (pluginId : String)
    (g : Nat) :
    (s.map f).openWorker pluginId g = (s.openWorker pluginId g).map f := by
  have hh : (s.map f).handles = s.handles := rfl
  unfold openWorker
  rw [hh]
  cases s.handles pluginId with
  | some index => rfl
  | none => simp [System.map, Worker.map, Position.map]

variable [DecidableEq γ] [DecidableEq δ]

theorem Worker.step_map (hz : ∀ x, f x = 0 ↔ x = 0) (co : Core)
    (w : Worker γ) (a : WorkerAction) :
    (w.map f).step co a
      = (w.step co a).map
        (Prod.map (Worker.map f) (List.map (Happening.map f))) := by
  obtain ⟨pluginId, g, q, c, pe, p⟩ := w
  cases a with
  | receive =>
    cases p <;> cases q <;> simp [Worker.step, Worker.map, Position.map]
  | check =>
    by_cases hr :
        (co.pluginReady pluginId && co.isRunning pluginId) = true <;>
      cases p <;>
      simp [Worker.step, Worker.map, Position.map, Happening.map, hr]
  | swap =>
    by_cases hp : pe = 0 <;> cases p <;>
      simp [Worker.step, Worker.map, Position.map, hz, hp]
  | notice d =>
    cases p <;> cases d <;>
      simp [Worker.step, Worker.map, Position.map, Happening.map]
  | call t =>
    by_cases hgen : co.runningGeneration pluginId
        = some g <;> cases p <;> cases t <;>
      simp [Worker.step, Worker.map, Position.map, Happening.map, hgen]
  | answer =>
    cases p <;> simp [Worker.step, Worker.map, Position.map]
  | stop =>
    cases c <;> cases p <;>
      simp [Worker.step, Worker.map, Position.map, Worker.finish,
        Worker.held, Happening.map]

namespace System

variable (s : System γ)

theorem offerTo_map (q : QueuedPluginEvent) (pluginId : String)
    (t : List String) (index : Nat) (w : Worker γ) :
    (s.map f).offerTo q pluginId t index (w.map f)
      = (s.offerTo q pluginId t index w).map f := by
  have hq : (w.map f).queue = w.queue := rfl
  have hp : (w.map f).push q = (w.push q).map f := rfl
  have hpos : (w.map f).position = .stopped
      ↔ w.position = .stopped := Position.map_eq_stopped f
  simp only [offerTo, hq, hpos, hp]
  split
  · rw [retire_map, refuse_map]
  · split
    · split
      · rfl
      · exact s.refuse_map f _ _ _ _
    · rw [setWorker_map, goOn_map]

theorem dropClosed_map : (s.map f).dropClosed = s.dropClosed.map f := by
  have hs : ∀ index : Nat,
      ((s.map f).workers[index]?).any (·.position ≠ .stopped)
        = (s.workers[index]?).any (·.position ≠ .stopped) := by
    intro index
    rw [getWorker_map, Option.any_map]
    cases s.workers[index]? with
    | none => rfl
    | some w =>
      have hpos : (w.map f).position = .stopped
          ↔ w.position = .stopped := Position.map_eq_stopped f
      simp [hpos]
  simp only [dropClosed, hs]
  rfl

theorem next_map (hz : ∀ x, f x = 0 ↔ x = 0)
    (hc : ∀ queued, f (count queued) = count' queued)
    (action : Action) :
    (s.map f).next count' action
      = (s.next count action).map (System.map f) := by
  cases action with
  | registry plugins => rfl
  | instances pluginId generation => rfl
  | activation pluginId state => rfl
  | shutdown => exact congrArg some (s.cancelAll_map f)
  | receive event =>
    simp only [next, observer_map]
    cases s.observer with
    | idle => exact congrArg some (s.dispatch_map f event.queued false)
    | _ => rfl
  | lagged lost now =>
    simp only [next, observer_map]
    cases s.observer with
    | idle => exact congrArg some (s.dispatch_map f _ true)
    | _ => rfl
  | locate =>
    simp only [next, observer_map, core_map]
    cases s.observer with
    | dispatching queued targets =>
      cases targets with
      | nil => rfl
      | cons pluginId targets =>
        simp only
        cases s.core.runningGeneration pluginId with
        | none => exact congrArg some (s.refuse_map f _ _ _ _)
        | some generation => rfl
    | _ => rfl
  | checkReady =>
    simp only [next, observer_map, core_map]
    cases s.observer with
    | located queued pluginId generation targets =>
      cases hr : s.core.pluginReady pluginId with
      | true =>
        simp only [hr, if_true]
        rfl
      | false =>
        simp only [hr, Bool.false_eq_true, if_false]
        exact congrArg some (s.refuse_map f _ _ _ _)
    | _ => rfl
  | offer =>
    simp only [next, observer_map]
    cases s.observer with
    | admitted queued pluginId generation targets =>
      simp only [retireStale_map, openWorker_map, handles_map]
      cases ((s.retireStale pluginId generation).openWorker pluginId
        generation).handles pluginId with
      | none => rfl
      | some index =>
        simp only [Option.bind_some, getWorker_map, Option.map_map]
        exact congrArg (Option.map · _)
          (funext fun w => offerTo_map _ _ _ _ _ w)
    | _ => rfl
  | shed =>
    simp only [next, observer_map]
    cases s.observer with
    | shedding queued pluginId index targets =>
      simp only [getWorker_map, Option.map_map]
      cases s.workers[index]? with
      | none => rfl
      | some w =>
        have howe : (w.map f).owe (count' queued)
            = (w.owe (count queued)).map f := by
          simp [Worker.owe, Worker.map, hc]
        simp only [Option.map_some, comp_apply, howe, setWorker_map, goOn_map]
    | _ => rfl
  | tick =>
    simp only [next, observer_map]
    cases s.observer <;> rfl
  | judge pluginId =>
    simp only [next, observer_map]
    cases s.observer with
    | reconciling plugins =>
      simp only [handled_map, Option.map_map]
      cases (s.handles pluginId).bind (s.workers[·]?) with
      | none => rfl
      | some w =>
        simp only [Option.map_some, comp_apply, alive_map, retire_map]
        exact congrArg some (apply_ite (System.map f) _ _ _).symm
    | _ => rfl
  | sweep =>
    simp only [next, observer_map]
    cases s.observer with
    | idle | reconciling _ => simp only [dropClosed_map, goOn_map]; rfl
    | _ => rfl
  | stop =>
    simp only [next, observer_map]
    cases s.observer with
    | idle => simp only [cancelAll_map]; rfl
    | _ => rfl
  | worker index action =>
    simp only [next, getWorker_map, core_map]
    cases s.workers[index]? with
    | none => rfl
    | some w =>
      simp only [Option.map_some, Option.bind_some,
        w.step_map hz s.core action, Option.map_map]
      cases w.step s.core action with
      | none => rfl
      | some result =>
        obtain ⟨w', happenings⟩ := result
        simp only [Option.map_some, comp_apply,
          Prod.map_apply, setWorker_map, notes_map]
        rfl

theorem run_map (hz : ∀ x, f x = 0 ↔ x = 0)
    (hc : ∀ q, f (count q) = count' q) (c : Core)
    (a : List Action) :
    runActions (next count') (start c) a
      = (runActions (next count) (start c) a).map (System.map f) := by
  exact runActions_map (fun s ac => s.next_map hz hc ac) (start c) a

end System

end TikTools.PluginEvents
