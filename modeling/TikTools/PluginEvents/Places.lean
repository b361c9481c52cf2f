/-
Where the copies of an event are.

For every plugin a copy that was made for it has been handed to its
transport, given up, or counted in a notice the plugin answered, or it
still waits, with the observer, in a queue or with a worker, or is in the
tally of a worker. What each update of the state changes in these sums
has a lemma, and so has what a worker does with its own
(`Worker.step_load`).
-/
import TikTools.PluginEvents.Tally
import Mathlib.Algebra.BigOperators.Group.List.Basic
import Mathlib.Tactic.Abel

namespace TikTools.PluginEvents

open TikTools.Lib List

/-- A part that counts for one plugin. -/
def only {M : Type} [AddCommMonoid M] (p pluginId : String) (x : M) : M :=
  if pluginId = p then x else 0

/-- What a list of copies has to account for. -/
def copies (queue : List QueuedPluginEvent) : Multiset QueuedPluginEvent :=
  queue.filter (·.reliable)

theorem copies_append (q rest : List QueuedPluginEvent) :
    copies (q ++ rest) = copies q + copies rest := by
  simp [copies, filter_append]

theorem copies_cons (queued : QueuedPluginEvent)
    (queue : List QueuedPluginEvent) :
    copies (queued :: queue) = copies [queued] + copies queue := by
  rw [← copies_append]
  rfl

theorem copies_of_reliable {q : QueuedPluginEvent}
    (h : q.reliable = true) : copies [q] = {q} := by
  simp [copies, h]

-- ==== the places

/-- The copies that the plugins still to be served wait for. -/
def owedTo (p : String) (queued : QueuedPluginEvent)
    (targets : List String) : Multiset QueuedPluginEvent :=
  (targets.map fun pluginId => only p pluginId (copies [queued])).sum

/-- The copies that wait with the observer. -/
def Observer.owed (p : String) : Observer → Multiset QueuedPluginEvent
  | .dispatching queued targets => owedTo p queued targets
  | .located queued pluginId _ targets
  | .admitted queued pluginId _ targets
  | .shedding queued pluginId _ targets =>
    owedTo p queued (pluginId :: targets)
  | .idle | .reconciling _ | .stopped => 0

namespace Worker

variable {γ : Type}

/-- The copies that wait in the queue and in the hands of a worker. -/
def waiting (w : Worker γ) : Multiset QueuedPluginEvent :=
  copies (w.held ++ w.queue)

/-- What a worker has counted and not yet brought home. -/
def tally [AddCommMonoid γ] (w : Worker γ) : γ :=
  match w.position with
  | .notifying _ lost => w.pendingReliableGaps + lost
  | _ => w.pendingReliableGaps

end Worker

namespace Happening

variable {γ : Type}

def matchedCopies : Happening γ → Multiset QueuedPluginEvent
  | .matched queued => copies [queued]
  | _ => 0

def handedCopies : Happening γ → Multiset QueuedPluginEvent
  | .handed queued => copies [queued]
  | _ => 0

def givenUpCopies : Happening γ → Multiset QueuedPluginEvent
  | .givenUp queued _ => copies [queued]
  | _ => 0

def noticedTally [AddCommMonoid γ] : Happening γ → γ
  | .noticed lost => lost
  | _ => 0

end Happening

namespace System

variable {γ : Type} {M : Type} [AddCommMonoid M]

/-- What the history adds up to for a plugin. -/
def record (weigh : Happening γ → M) (p : String) (s : System γ) : M :=
  (s.history.map fun entry => only p entry.1 (weigh entry.2)).sum

/-- What the workers of a plugin add up to. -/
def workload (weigh : Worker γ → M) (p : String) (s : System γ) : M :=
  (s.workers.map fun w => only p w.pluginId (weigh w)).sum

/-- The copies made for a plugin. -/
def matched (p : String) (s : System γ) : Multiset QueuedPluginEvent :=
  s.record Happening.matchedCopies p

/-- The copies its transport took. -/
def handed (p : String) (s : System γ) : Multiset QueuedPluginEvent :=
  s.record Happening.handedCopies p

/-- The copies given up. -/
def givenUp (p : String) (s : System γ) : Multiset QueuedPluginEvent :=
  s.record Happening.givenUpCopies p

/-- The copies that wait. -/
def waiting (p : String) (s : System γ) : Multiset QueuedPluginEvent :=
  s.observer.owed p + s.workload Worker.waiting p

variable [AddCommMonoid γ]

/-- What the notices said that the plugin answered. -/
def noticed (p : String) (s : System γ) : γ :=
  s.record Happening.noticedTally p

/-- What its workers still have to report. -/
def tally (p : String) (s : System γ) : γ := s.workload Worker.tally p

end System

-- ==== updates

variable {M : Type}

theorem only_add [AddCommMonoid M] (p pl : String) (x y : M) :
    only p pl (x + y) = only p pl x + only p pl y := by
  unfold only
  split
  · rfl
  · exact (add_zero 0).symm

@[simp] theorem only_zero [AddCommMonoid M] (p pl : String) :
    only p pl (0 : M) = 0 := ite_self 0

theorem rest_ne_shedding {q it : QueuedPluginEvent}
    {t later : List String} {pl : String} {i : Nat} :
    Observer.rest q t ≠ .shedding it pl i later := by
  cases t <;> simp [Observer.rest]

theorem owedTo_cons (p pluginId : String) (queued : QueuedPluginEvent)
    (targets : List String) :
    owedTo p queued (pluginId :: targets)
      = only p pluginId (copies [queued]) + owedTo p queued targets := rfl

@[simp] theorem owed_rest (p : String) (queued : QueuedPluginEvent)
    (targets : List String) :
    (Observer.rest queued targets).owed p = owedTo p queued targets := by
  cases targets <;> rfl

namespace System

variable {γ M : Type} [AddCommMonoid M] {weigh : Happening γ → M}
  {weighWorker : Worker γ → M} {p : String} (s : System γ)

theorem record_note (pl : String) (h : Happening γ) :
    (s.note pl h).record weigh p
      = s.record weigh p + only p pl (weigh h) := by
  simp [record, note]

theorem record_notes (pl : String)
    (happenings : List (Happening γ)) :
    (happenings.foldl (·.note pl) s).record weigh p
      = s.record weigh p + only p pl (happenings.map weigh).sum := by
  induction happenings generalizing s with
  | nil => simp
  | cons happening rest ih =>
    rw [foldl_cons, ih, record_note, map_cons, sum_cons, only_add, add_assoc]

theorem workload_setWorker {i : Nat} {w w' : Worker γ} {x y : M}
    (hw : s.workers[i]? = some w) (hid : w'.pluginId = w.pluginId)
    (hl : weighWorker w' + x = weighWorker w + y) :
    (s.setWorker i w').workload weighWorker p + only p w.pluginId x
      = s.workload weighWorker p + only p w.pluginId y := by
  obtain ⟨hin, h⟩ := List.getElem?_eq_some_iff.1 hw
  obtain ⟨before, after, hwr, hlen, hset⟩ :=
    @List.exists_of_set _ i w' s.workers hin
  have hs : only p w.pluginId (weighWorker w') + only p w.pluginId x
      = only p w.pluginId (weighWorker w) + only p w.pluginId y := by
    rw [← only_add, hl, only_add]
  simp only [workload, setWorker, hset]
  rw [h] at hwr
  rw [hwr]
  simp only [map_append, map_cons, sum_append, sum_cons, hid]
  rw [add_assoc, add_right_comm, hs]
  abel

theorem workload_congr {t : System γ}
    (h : t.workers.map (fun w => only p w.pluginId (weighWorker w))
      = s.workers.map fun w => only p w.pluginId (weighWorker w)) :
    t.workload weighWorker p = s.workload weighWorker p :=
  congrArg List.sum h

theorem workload_cancel (i : Nat)
    (hc : ∀ w : Worker γ, weighWorker w.cancel = weighWorker w) :
    (s.cancel i).workload weighWorker p = s.workload weighWorker p := by
  refine s.workload_congr ?_
  have hmap := map_modify (f := Worker.cancel)
    (g := fun w : Worker γ => only p w.pluginId (weighWorker w)) (h := id)
    (fun w => by simp only [id, hc]; rfl) s.workers i
  rw [modify_id] at hmap
  exact hmap

theorem workload_retire (pl : String)
    (hc : ∀ w : Worker γ, weighWorker w.cancel = weighWorker w) :
    (s.retire pl).workload weighWorker p = s.workload weighWorker p := by
  unfold retire
  cases s.handles pl with
  | none => rfl
  | some i => exact s.workload_cancel i hc

end System

-- ==== a worker

namespace Worker

abbrev Copies := Multiset QueuedPluginEvent

/-- What a worker has to account for. -/
def load (w : Worker Copies) : Copies := w.waiting + w.tally

end Worker

/-- What becomes of copies for good. -/
def Happening.settled (happening : Happening Worker.Copies) :
    Worker.Copies :=
  happening.handedCopies + happening.givenUpCopies + happening.noticedTally

theorem sum_givenUp (l : List QueuedPluginEvent) (r : Reason) :
    ((l.map fun q => Happening.givenUp q r).map
      Happening.settled).sum = copies l := by
  induction l with
  | nil => rfl
  | cons q rest ih =>
    rw [copies_cons, ← ih]
    simp [Happening.settled, Happening.handedCopies,
      Happening.givenUpCopies, Happening.noticedTally]

namespace Worker

theorem finish_load (w : Worker Copies)
    (ht : w.tally = w.pendingReliableGaps) :
    w.finish.1.pluginId = w.pluginId
      ∧ w.load = w.finish.1.load + (w.finish.2.map Happening.settled).sum
      ∧ (w.finish.2.map Happening.matchedCopies).sum = 0 := by
  refine ⟨rfl, ?_, ?_⟩
  · rw [finish, sum_givenUp]
    simp only [load, waiting, held, ht]
    simp only [tally, append_nil, copies, filter_nil,
      Multiset.coe_nil, zero_add]
    exact add_comm _ _
  · refine sum_eq_zero fun x hx => ?_
    simp only [finish, map_map, mem_map] at hx
    obtain ⟨queued, -, rfl⟩ := hx
    rfl

variable {happenings : List (Happening Copies)} {w w' : Worker Copies}
   {action : WorkerAction} {core : Core}

/-- What a worker does with its load: nothing is made, and what it no
longer has is settled. -/
theorem step_load (h : w.step core action = some (w', happenings)) :
    w'.pluginId = w.pluginId
      ∧ w.load = w'.load + (happenings.map Happening.settled).sum
      ∧ (happenings.map Happening.matchedCopies).sum = 0 := by
  obtain ⟨pluginId, generation, queue, cancelled, pending, position⟩ := w
  cases action with
  | receive =>
    cases position with
    | receiving =>
      cases queue with
      | nil => cases h
      | cons queued rest =>
        cases h
        refine ⟨rfl, ?_, rfl⟩
        simp [load, waiting, held, tally]
    | _ => cases h
  | check =>
    cases position with
    | taken queued =>
      by_cases hr :
          (core.pluginReady pluginId && core.isRunning pluginId) = true
      · simp only [step, hr, if_true] at h
        cases h
        refine ⟨rfl, ?_, rfl⟩
        simp [load, waiting, held, tally]
      · simp only [step, hr] at h
        cases h
        refine ⟨rfl, ?_, rfl⟩
        simp [load, waiting, held, tally, Happening.settled,
          Happening.handedCopies, Happening.givenUpCopies,
          Happening.noticedTally, copies_cons queued queue]
        abel
    | _ => cases h
  | swap =>
    cases position with
    | ready queued =>
      by_cases hp : pending = 0
      · simp only [step, hp, if_true] at h
        cases h
        refine ⟨rfl, ?_, rfl⟩
        simp [load, waiting, held, tally, hp]
      · simp only [step, hp, if_false] at h
        cases h
        refine ⟨rfl, ?_, rfl⟩
        simp [load, waiting, held, tally]
    | _ => cases h
  | notice delivered =>
    cases position with
    | notifying queued lost =>
      cases delivered with
      | true =>
        cases h
        refine ⟨rfl, ?_, rfl⟩
        simp [load, waiting, held, tally, Happening.settled,
          Happening.handedCopies, Happening.givenUpCopies,
          Happening.noticedTally, add_assoc]
      | false =>
        cases h
        refine ⟨rfl, ?_, rfl⟩
        simp [load, waiting, held, tally]
    | _ => cases h
  | call taken =>
    cases position with
    | notified queued =>
      have hout : load ⟨pluginId, generation, queue, cancelled, pending,
            .notified queued⟩
          = copies queue + pending + copies [queued] := by
        simp only [load, waiting, held, tally, singleton_append,
          copies_cons queued queue]
        abel
      cases taken with
      | true =>
        by_cases hgen : core.runningGeneration pluginId = some generation
        · simp only [step, hgen, if_true] at h
          cases h
          refine ⟨rfl, ?_, rfl⟩
          rw [hout]
          simp [load, waiting, held, tally, Happening.settled,
            Happening.handedCopies, Happening.givenUpCopies,
            Happening.noticedTally]
        · simp [step, hgen] at h
      | false =>
        cases h
        refine ⟨rfl, ?_, rfl⟩
        rw [hout]
        simp [load, waiting, held, tally, Happening.settled,
          Happening.handedCopies, Happening.givenUpCopies,
          Happening.noticedTally]
    | _ => cases h
  | answer =>
    cases position with
    | delivering =>
      cases h
      refine ⟨rfl, ?_, rfl⟩
      simp [load, waiting, held, tally]
    | _ => cases h
  | stop =>
    cases cancelled with
    | false => simp [step] at h
    | true =>
      cases position with
      | receiving | notified queued =>
        cases h
        exact finish_load _ rfl
      | _ => simp [step] at h

theorem step_not_full (h : w.step core action = some (w', happenings))
    (q : QueuedPluginEvent) :
    Happening.givenUp q .queueFull ∉ happenings := by
  obtain ⟨pluginId, generation, qu, c, pending, po⟩ := w
  intro hm
  cases action with
  | receive =>
    cases po <;> cases qu <;> cases h
    cases hm
  | check =>
    cases po <;> simp only [step, reduceCtorEq] at h
    split at h <;> cases h <;> simp at hm
  | swap =>
    cases po <;> simp only [step, reduceCtorEq] at h
    split at h <;> cases h <;> simp at hm
  | notice d =>
    cases po <;> cases d <;> cases h <;> simp at hm
  | call t =>
    cases po <;> cases t <;>
      simp only [step, reduceCtorEq, Bool.false_eq_true, if_false,
        if_true] at h
    · cases h
      simp at hm
    · split at h
      · cases h
        simp at hm
      · cases h
  | answer =>
    cases po <;> cases h
    cases hm
  | stop =>
    cases c <;> cases po <;>
      simp only [step, reduceCtorEq, Bool.false_eq_true, if_false,
        if_true] at h
    · cases h
      simp at hm
    · cases h
      simp at hm

end Worker

end TikTools.PluginEvents
