/-
The books of the delivery balance in every interleaving.

`Books` is the invariant: the copies of every plugin are each in one
place, with two facts that this rests on: a handle is of a worker of its
plugin, and only copies that need no account are given up for a full
queue. Each thing an action does to the state has one lemma, and
`Books.step` goes through the actions once.
-/
import TikTools.PluginEvents.Places

namespace TikTools.PluginEvents

open TikTools.Lib

namespace System

open Worker (Copies)
open List Function

/-- The plugins of the workers. -/
def ids {γ : Type} (s : System γ) : List String := s.workers.map (·.pluginId)

/-- Every copy is in one place. -/
def Balanced (s : System Copies) : Prop :=
  ∀ p, s.record Happening.matchedCopies p
    = s.record Happening.settled p + s.observer.owed p
      + s.workload Worker.load p

/-- The invariant: handles are of workers of their plugin, no reliable
copy is given up for a full queue, and the copies balance. -/
structure Books (s : System Copies) : Prop where
  handles : ∀ pluginId index, s.handles pluginId = some index →
    s.ids[index]? = some pluginId
  shedding : ∀ queued pluginId index targets,
    s.observer = .shedding queued pluginId index targets →
      s.ids[index]? = some pluginId ∧ queued.reliable = true
  full : ∀ pluginId queued,
    (pluginId, .givenUp queued .queueFull) ∈ s.history →
      queued.reliable = false
  balanced : s.Balanced

variable {s : System Copies}

theorem ids_setWorker {index : Nat} {w w' : Worker Copies}
    (hw : s.workers[index]? = some w) (hid : w'.pluginId = w.pluginId) :
    (s.setWorker index w').ids = s.ids := by
  obtain ⟨hin, h⟩ := List.getElem?_eq_some_iff.1 hw
  have hb : index < (s.workers.map (·.pluginId)).length := by
    rwa [List.length_map]
  have hs : w.pluginId = (s.workers.map (·.pluginId))[index] := by
    rw [getElem_map, h]
  simp only [ids, setWorker, map_set, hid]
  rw [hs, set_getElem_self]

theorem ids_cancel (index : Nat) : (s.cancel index).ids = s.ids := by
  have hmap := map_modify (f := Worker.cancel)
    (g := fun w : Worker Copies => w.pluginId) (h := id)
    (fun _ => rfl) s.workers index
  rw [modify_id] at hmap
  exact hmap

theorem ids_retire (pluginId : String) :
    (s.retire pluginId).ids = s.ids := by
  unfold retire
  cases s.handles pluginId with
  | none => rfl
  | some index => exact ids_cancel index

theorem observer_retire (pluginId : String) :
    (s.retire pluginId).observer = s.observer := by
  unfold retire
  cases s.handles pluginId <;> rfl

theorem observer_retireStale (pluginId : String) (g : Nat) :
    (s.retireStale pluginId g).observer = s.observer := by
  unfold retireStale
  split
  · rfl
  · split
    · rfl
    · exact observer_retire pluginId

theorem observer_openWorker (pluginId : String) (g : Nat) :
    (s.openWorker pluginId g).observer = s.observer := by
  unfold openWorker
  cases s.handles pluginId <;> rfl

theorem notes_eq (s : System Copies) (pluginId : String)
    (h : List (Happening Copies)) :
    h.foldl (·.note pluginId) s
      = { s with history := s.history
          ++ h.map fun ha => (pluginId, ha) } := by
  induction h generalizing s with
  | nil => simp
  | cons ha rest ih =>
    rw [foldl_cons, ih]
    simp [note]

variable {targets : List String} {queued : QueuedPluginEvent}

namespace Books

theorem start (c : Core) : Books (start c) where
  handles _ _ h := by cases h
  shedding _ _ _ _ h := by cases h
  full _ _ h := by cases h
  balanced p := rfl

theorem goOn (h : Books s) {o : Observer}
    (ho : ∀ p, o.owed p = s.observer.owed p)
    (hs : ∀ queued pluginId index targets,
      o = .shedding queued pluginId index targets →
        s.ids[index]? = some pluginId ∧ queued.reliable = true) :
    Books (s.goOn o) where
  handles := h.handles
  shedding := hs
  full := h.full
  balanced p := by
    have hbal := h.balanced p
    rw [← ho p] at hbal
    exact hbal

variable {t : System Copies}

theorem workers (h : Books s) (ho : t.observer = s.observer)
    (hhs : t.history = s.history) (hi : t.ids = s.ids)
    (hl : ∀ p, t.workload Worker.load p = s.workload Worker.load p)
    (hh : ∀ pluginId index, t.handles pluginId = some index →
      s.handles pluginId = some index) : Books t where
  handles pluginId index hin := by
    rw [hi]
    exact h.handles pluginId index (hh pluginId index hin)
  shedding queued pluginId index targets hs := by
    rw [hi]
    exact h.shedding queued pluginId index targets (ho ▸ hs)
  full pluginId queued hf := h.full pluginId queued (hhs ▸ hf)
  balanced p := by
    have hbal := h.balanced p
    simp only [record] at hbal ⊢
    rw [hhs, ho, hl]
    exact hbal

theorem load_cancel (w : Worker Copies) : w.cancel.load = w.load := rfl

theorem cancelAll (h : Books s) : Books s.cancelAll := by
  refine h.workers rfl rfl ?_ (fun p => s.workload_congr ?_)
    fun _ _ hin => hin
  · simp only [System.cancelAll, ids, map_map]
    rfl
  · simp only [System.cancelAll, map_map]
    rfl

theorem retire (h : Books s) (pluginId : String) :
    Books (s.retire pluginId) := by
  refine h.workers ?_ ?_ (ids_retire pluginId)
    (fun p => s.workload_retire pluginId load_cancel) ?_
  · unfold System.retire
    cases s.handles pluginId <;> rfl
  · unfold System.retire
    cases s.handles pluginId <;> rfl
  · intro o index ho
    unfold System.retire at ho
    cases hpluginId : s.handles pluginId with
    | none =>
      rw [hpluginId] at ho
      exact ho
    | some old =>
      rw [hpluginId] at ho
      by_cases hs : o = pluginId
      · subst hs
        simp at ho
      · simpa [update_of_ne hs] using ho

variable {pluginId : String}

theorem refuse (h : Books s) {r : Reason} (ho : ∀ p, s.observer.owed p
      = owedTo p queued (pluginId :: targets))
    (hr : r = .queueFull → queued.reliable = false) :
    Books (s.refuse pluginId queued r targets) where
  handles := h.handles
  shedding _ _ _ _ hsh := absurd hsh rest_ne_shedding
  full other item hf := by
    rcases mem_append.1 hf with hl | hn
    · exact h.full other item hl
    · obtain ⟨rfl, heq⟩ := Prod.mk.inj (mem_singleton.1 hn)
      obtain ⟨rfl, rfl⟩ := Happening.givenUp.inj heq
      exact hr rfl
  balanced p := by
    have hbal := h.balanced p
    rw [ho, owedTo_cons] at hbal
    have hs : Happening.settled (.givenUp queued r)
        = copies [queued] := by
      simp [Happening.settled, Happening.handedCopies,
        Happening.givenUpCopies, Happening.noticedTally]
    change (s.note pluginId (.givenUp queued r)).record
        Happening.matchedCopies p
      = (s.note pluginId (.givenUp queued r)).record
          Happening.settled p
        + (Observer.rest queued targets).owed p + s.workload Worker.load p
    rw [record_note, record_note, owed_rest, hbal, hs]
    simp only [Happening.matchedCopies, only_zero]
    abel

theorem dispatch (h : Books s) (hid : s.observer = .idle)
    (queued : QueuedPluginEvent) (f : Bool) :
    Books (s.dispatch queued f) where
  handles := h.handles
  shedding _ _ _ _ hsh := absurd hsh rest_ne_shedding
  full other item hf := by
    rcases mem_append.1 hf with ho | hn
    · exact h.full other item ho
    · obtain ⟨target, -, heq⟩ := mem_map.1 hn
      cases heq
  balanced p := by
    have hbal := h.balanced p
    rw [hid] at hbal
    have hs : ∀ targets : List String,
        (targets.map fun pluginId => only p pluginId
          (Happening.settled (.matched queued))).sum = 0 := by
      intro targets
      refine sum_eq_zero fun x hx => ?_
      obtain ⟨pluginId, -, rfl⟩ := mem_map.1 hx
      exact only_zero p pluginId
    change _ = _ + (Observer.rest queued _).owed p + s.workload _ p
    rw [owed_rest]
    simp only [record, System.dispatch, map_append, map_map,
      comp_def, sum_append, hs, add_zero]
    simp only [record, Observer.owed, add_zero] at hbal
    rw [hbal]
    exact add_right_comm _ _ _

theorem retireStale (h : Books s) (pluginId : String)
    (g : Nat) : Books (s.retireStale pluginId g) := by
  unfold System.retireStale
  split
  · exact h
  · split
    · exact h
    · exact h.retire pluginId

theorem openWorker (h : Books s) (pluginId : String)
    (g : Nat) : Books (s.openWorker pluginId g) := by
  cases hh : s.handles pluginId with
  | some index =>
    simp only [System.openWorker, hh]
    exact h
  | none =>
    have hids : (s.openWorker pluginId g).ids
        = s.ids ++ [pluginId] := by
      simp [System.openWorker, hh, ids]
    have hlen : s.ids.length = s.workers.length := length_map _
    have hk : ∀ {index : Nat} {other : String},
        s.ids[index]? = some other →
        (s.openWorker pluginId g).ids[index]? = some other := by
      intro index other hold
      rw [hids]
      exact (List.getElem?_append_left
        (List.getElem?_eq_some_iff.1 hold).1).trans hold
    have hobs : (s.openWorker pluginId g).observer
        = s.observer := by
      simp [System.openWorker, hh]
    have hhs : (s.openWorker pluginId g).history
        = s.history := by
      simp [System.openWorker, hh]
    exact {
      handles := by
        intro other index hin
        simp only [System.openWorker, hh] at hin
        by_cases hs : other = pluginId
        · subst hs
          rw [update_self] at hin
          cases hin
          rw [hids, ← hlen, getElem?_concat_length]
        · rw [update_of_ne hs] at hin
          exact hk (h.handles other index hin)
      shedding := by
        intro queued other index targets hsh
        rw [hobs] at hsh
        obtain ⟨hw, hr⟩ := h.shedding queued other index targets hsh
        exact ⟨hk hw, hr⟩
      full := by
        rw [hhs]
        exact h.full
      balanced := by
        intro p
        have hbal := h.balanced p
        simp only [record] at hbal ⊢
        rw [hhs, hobs, hbal]
        simp [System.openWorker, hh, workload, Worker.load,
          Worker.waiting, Worker.held, Worker.tally, copies] }

variable {index : Nat} {w : Worker Copies}

theorem push (h : Books s) (hw : s.workers[index]? = some w)
    (hid : w.pluginId = pluginId) (ho : ∀ p, s.observer.owed p
      = owedTo p queued (pluginId :: targets)) :
    Books ((s.setWorker index (w.push queued)).goOn
      (.rest queued targets)) where
  handles pluginId position hpos := by
    have hids : (s.setWorker index (w.push queued)).ids = s.ids :=
      ids_setWorker hw rfl
    exact (congrArg (·[position]?) hids).trans
      (h.handles pluginId position hpos)
  shedding _ _ _ _ hs := absurd hs rest_ne_shedding
  full := h.full
  balanced p := by
    have hbal := h.balanced p
    rw [ho, owedTo_cons] at hbal
    have hl : (w.push queued).load + 0 = w.load + copies [queued] := by
      have hq : (w.push queued).waiting
          = w.waiting + copies [queued] := by
        rw [Worker.waiting, Worker.waiting, ← copies_append, append_assoc]
        rfl
      have ht : (w.push queued).tally = w.tally := rfl
      rw [Worker.load, Worker.load, hq, ht, add_zero]
      exact add_right_comm _ _ _
    have hwr : (s.setWorker index (w.push queued)).workload Worker.load p
          + only p w.pluginId 0
        = s.workload Worker.load p + only p w.pluginId (copies [queued]) :=
      s.workload_setWorker hw rfl hl
    rw [only_zero, add_zero, hid] at hwr
    change s.record _ p = s.record _ p + (Observer.rest queued targets).owed p
      + (s.setWorker index (w.push queued)).workload _ p
    rw [owed_rest, hwr, hbal]
    abel

theorem shed (h : Books s) (hw : s.workers[index]? = some w)
    (ho : s.observer = .shedding queued pluginId index targets) :
    Books ((s.setWorker index (w.owe {queued})).goOn
      (.rest queued targets)) where
  handles pluginId po hpos := by
    have hi : (s.setWorker index (w.owe {queued})).ids = s.ids :=
      ids_setWorker hw rfl
    exact (congrArg (·[po]?) hi).trans (h.handles pluginId po hpos)
  shedding _ _ _ _ hs := absurd hs rest_ne_shedding
  full := h.full
  balanced p := by
    obtain ⟨hi, hr⟩ := h.shedding queued pluginId index targets ho
    have hid : w.pluginId = pluginId := by
      rw [ids, getElem?_map, hw] at hi
      exact Option.some.inj hi
    have hbal := h.balanced p
    rw [ho, Observer.owed, owedTo_cons, copies_of_reliable hr] at hbal
    have hl : (w.owe {queued}).load + 0 = w.load + {queued} := by
      have hwt : (w.owe {queued}).waiting = w.waiting := rfl
      have ht : (w.owe {queued}).tally = w.tally + {queued} := by
        obtain ⟨id, generation, queue, cancelled, pending, po⟩ := w
        cases po with
        | notifying item lost => exact add_right_comm _ _ _
        | _ => rfl
      rw [Worker.load, Worker.load, hwt, ht, add_zero]
      exact (add_assoc _ _ _).symm
    have hwr : (s.setWorker index (w.owe {queued})).workload Worker.load p
          + only p w.pluginId 0
        = s.workload Worker.load p + only p w.pluginId {queued} :=
      s.workload_setWorker hw rfl hl
    rw [only_zero, add_zero, hid] at hwr
    change s.record _ p = s.record _ p + (Observer.rest queued targets).owed p
      + (s.setWorker index (w.owe {queued})).workload _ p
    rw [owed_rest, hwr, hbal]
    abel

theorem offerTo (h : Books s) (hw : s.workers[index]? = some w)
    (hid : w.pluginId = pluginId) (ho : ∀ p, s.observer.owed p
      = owedTo p queued (pluginId :: targets)) :
    Books (s.offerTo queued pluginId targets index w) := by
  unfold System.offerTo
  split
  · have hobs : (s.retire pluginId).observer = s.observer := by
      unfold System.retire
      cases s.handles pluginId <;> rfl
    exact (h.retire pluginId).refuse (by rw [hobs]; exact ho)
      (fun hrs => by cases hrs)
  · split
    · cases hr : queued.reliable with
      | true =>
        refine h.goOn (fun p => (ho p).symm) ?_
        intro item other position later hs
        cases hs
        have hwr : s.ids[index]? = some w.pluginId := by
          rw [ids, getElem?_map, hw]
          rfl
        exact ⟨hid ▸ hwr, hr⟩
      | false =>
        exact h.refuse ho (fun _ => hr)
    · exact h.push hw hid ho

theorem worker (h : Books s) {w' : Worker Copies} {a : WorkerAction}
    {ha : List (Happening Copies)} (hw : s.workers[index]? = some w)
    (hs : w.step s.core a = some (w', ha)) :
    Books (ha.foldl (·.note w.pluginId) (s.setWorker index w')) := by
  obtain ⟨hid, hl, hmt⟩ := Worker.step_load hs
  have hids : (s.setWorker index w').ids = s.ids := ids_setWorker hw hid
  have hn := notes_eq (s.setWorker index w') w.pluginId ha
  exact {
    handles := by
      rw [hn]
      intro pluginId po hpos
      exact (congrArg (·[po]?) hids).trans (h.handles pluginId po hpos)
    shedding := by
      rw [hn]
      intro queued pluginId po targets hsh
      obtain ⟨hwrk, hr⟩ := h.shedding queued pluginId po targets hsh
      exact ⟨(congrArg (·[po]?) hids).trans hwrk, hr⟩
    full := by
      rw [hn]
      intro pluginId queued hf
      rcases mem_append.1 hf with hold | hnew
      · exact h.full pluginId queued hold
      · obtain ⟨happening, hh, heq⟩ := mem_map.1 hnew
        obtain ⟨rfl, rfl⟩ := Prod.mk.inj heq
        exact absurd hh (Worker.step_not_full hs queued)
    balanced := by
      intro p
      have hbal := h.balanced p
      have hwr : (s.setWorker index w').workload Worker.load p
            + only p w.pluginId (ha.map Happening.settled).sum
          = s.workload Worker.load p + only p w.pluginId 0 :=
        s.workload_setWorker hw hid (by rw [add_zero]; exact hl.symm)
      rw [only_zero, add_zero] at hwr
      rw [record_notes, record_notes, hmt, only_zero, add_zero, hn]
      change s.record _ p = s.record _ p + only p w.pluginId _
        + s.observer.owed p + (s.setWorker index w').workload _ p
      rw [hbal, ← hwr]
      abel }

theorem step (h : Books s) {action : Action}
    (hn : s.next (fun queued => {queued}) action = some t) : Books t := by
  cases action with
  | registry plugins =>
    cases hn
    exact h.workers rfl rfl rfl (fun _ => rfl) fun _ _ hh => hh
  | instances pluginId generation =>
    cases hn
    exact h.workers rfl rfl rfl (fun _ => rfl) fun _ _ hh => hh
  | activation pluginId state =>
    cases hn
    exact h.workers rfl rfl rfl (fun _ => rfl) fun _ _ hh => hh
  | shutdown =>
    cases hn
    exact h.cancelAll
  | receive event =>
    cases hobs : s.observer with
    | idle =>
      simp only [next, hobs] at hn
      cases hn
      exact h.dispatch hobs _ _
    | _ => simp [next, hobs] at hn
  | lagged lost now =>
    cases hobs : s.observer with
    | idle =>
      simp only [next, hobs] at hn
      cases hn
      exact h.dispatch hobs _ _
    | _ => simp [next, hobs] at hn
  | locate =>
    cases hobs : s.observer with
    | dispatching queued targets =>
      cases targets with
      | nil => simp [next, hobs] at hn
      | cons pluginId targets =>
        simp only [next, hobs] at hn
        have ho : ∀ p, s.observer.owed p
            = owedTo p queued (pluginId :: targets) := fun p => by
          rw [hobs]
          rfl
        cases hg : s.core.runningGeneration pluginId with
        | none =>
          rw [hg] at hn
          cases hn
          exact h.refuse ho (fun hr => by cases hr)
        | some generation =>
          rw [hg] at hn
          cases hn
          exact h.goOn (fun p => (ho p).symm) fun _ _ _ _ hs => by cases hs
    | _ => simp [next, hobs] at hn
  | checkReady =>
    cases hobs : s.observer with
    | located queued pluginId generation targets =>
      have ho : ∀ p, s.observer.owed p
          = owedTo p queued (pluginId :: targets) := fun p => by
        rw [hobs]
        rfl
      cases hrd : s.core.pluginReady pluginId with
      | true =>
        simp only [next, hobs, hrd, if_true] at hn
        cases hn
        exact h.goOn (fun p => (ho p).symm) fun _ _ _ _ hs => by cases hs
      | false =>
        simp only [next, hobs, hrd, Bool.false_eq_true, if_false] at hn
        cases hn
        exact h.refuse ho (fun hr => by cases hr)
    | _ => simp [next, hobs] at hn
  | offer =>
    cases hobs : s.observer with
    | admitted queued pluginId generation targets =>
      simp only [next, hobs] at hn
      have hop := (h.retireStale pluginId generation).openWorker
        pluginId generation
      obtain ⟨index, hin, hn⟩ := Option.bind_eq_some_iff.1 hn
      obtain ⟨w, hw, rfl⟩ := Option.map_eq_some_iff.1 hn
      have hid : w.pluginId = pluginId := by
        have hids := hop.handles pluginId index hin
        rw [ids, getElem?_map, hw] at hids
        exact Option.some.inj hids
      refine hop.offerTo hw hid fun p => ?_
      rw [observer_openWorker, observer_retireStale, hobs]
      rfl
    | _ => simp [next, hobs] at hn
  | shed =>
    cases hobs : s.observer with
    | shedding queued pluginId index targets =>
      simp only [next, hobs] at hn
      obtain ⟨w, hw, rfl⟩ := Option.map_eq_some_iff.1 hn
      exact h.shed hw hobs
    | _ => simp [next, hobs] at hn
  | tick =>
    cases hobs : s.observer with
    | idle =>
      simp only [next, hobs] at hn
      cases hn
      exact h.goOn (fun p => by rw [hobs]; rfl) fun _ _ _ _ hs => by cases hs
    | _ => simp [next, hobs] at hn
  | judge pluginId =>
    cases hobs : s.observer with
    | reconciling plugins =>
      simp only [next, hobs] at hn
      obtain ⟨w, -, rfl⟩ := Option.map_eq_some_iff.1 hn
      split
      · exact h
      · exact h.retire pluginId
    | _ => simp [next, hobs] at hn
  | sweep =>
    have hd : Books s.dropClosed := by
      refine h.workers rfl rfl rfl (fun _ => rfl) ?_
      intro pluginId index hin
      exact (Option.filter_eq_some_iff.1 hin).1
    have ho : s.observer = .idle ∨ (∃ plugins,
        s.observer = .reconciling plugins) →
        Books (s.dropClosed.goOn .idle) := by
      intro hobs
      refine hd.goOn (fun p => ?_) fun _ _ _ _ hs => by cases hs
      have hsm : s.dropClosed.observer = s.observer := rfl
      rw [hsm]
      rcases hobs with hobs | ⟨plugins, hobs⟩
      · rw [hobs]
      · rw [hobs]
        rfl
    cases hobs : s.observer with
    | idle =>
      simp only [next, hobs] at hn
      cases hn
      exact ho (.inl hobs)
    | reconciling plugins =>
      simp only [next, hobs] at hn
      cases hn
      exact ho (.inr ⟨plugins, hobs⟩)
    | _ => simp [next, hobs] at hn
  | stop =>
    cases hobs : s.observer with
    | idle =>
      simp only [next, hobs] at hn
      cases hn
      have hc : Books
          { s.cancelAll with handles := fun _ => none } :=
        h.cancelAll.workers rfl rfl rfl (fun _ => rfl)
          fun _ _ hin => by cases hin
      refine hc.goOn (fun p => ?_) fun _ _ _ _ hs => by cases hs
      change _ = s.observer.owed p
      rw [hobs]
      rfl
    | _ => simp [next, hobs] at hn
  | worker index action =>
    obtain ⟨w, hw, hn⟩ := Option.bind_eq_some_iff.1 hn
    obtain ⟨⟨w', happenings⟩, hst, rfl⟩ := Option.map_eq_some_iff.1 hn
    exact h.worker hw hst

end Books

end System

end TikTools.PluginEvents
