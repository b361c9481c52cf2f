/-
One connection task at a time.

A task starts only while nothing is held, and what is held is let go only
when it has finished, so an unfinished task is the one that is held and
carries the current generation (`Owned`). The guard that runs at the end
of a task takes `connected` back before the task has finished, whatever
its body did, and nobody but an unfinished task publishes `connected`.
-/
import TikTools.Connection.Owner

namespace TikTools.Connection

open TikTools.Lib Std Table Option

-- ==== one task

/-- What a step of a task can do. A finished task has none; the step that
finishes it publishes that the connection is gone. -/
theorem Task.next_spec {task t' : Task} {w : Work}
    {m : Option ConnectionState}
    (h : task.next w = some (t', m)) :
    task.finished = false
      ∧ (t'.finished = true → ∃ sta, m = some sta ∧ sta ≠ .connected) := by
  obtain ⟨stage, c, reply⟩ := task
  have hs : ∀ st, afterStop st ≠ .connected := by decide
  cases stage with
  | exiting p st =>
    cases w <;> cases h
    exact ⟨rfl, fun _ => ⟨_, rfl, hs st⟩⟩
  | initializing =>
    cases w with
    | initialized ok =>
      refine ⟨rfl, fun hf => ?_⟩
      cases ok <;> cases h <;> cases c <;> cases hf
    | _ =>
      cases h
      all_goals exact ⟨rfl, fun hf => by cases hf⟩
  | finished p => cases w <;> cases h
  | _ =>
    cases w <;> cases h
    all_goals exact ⟨rfl, fun hf => by cases hf⟩

-- ==== the invariant

namespace Owner

variable {s t : Owner}

/-- Who an unfinished task belongs to, and what is published of it. -/
structure Owned (s : Owner) : Prop where
  held : ∀ (g : Nat) task, s.tasks[g]? = some task →
    task.finished = false → s.active = some g
  current : ∀ g, s.active = some g → g = s.snapshot.generation
  past : ∀ (g : Nat) task, s.tasks[g]? = some task → g ≤ s.snapshot.generation
  alive : s.snapshot.state = .connected → ∃ task,
    s.tasks[s.snapshot.generation]? = some task ∧ task.finished = false

/-- A call that retires a task holds the lock, and the task is held. -/
def Locked (s : Owner) : Prop :=
  ∀ (call : Nat) request g, s.calls[call]? = some (.retiring request g) →
    s.lock = some call ∧ s.active = some g

@[simp] theorem transition_generation (g : Nat) (st : ConnectionState) :
    (s.transition g st).snapshot.generation = s.snapshot.generation := by
  unfold transition
  split <;> rfl

@[simp] theorem transition_tasks (g : Nat) (st : ConnectionState) :
    (s.transition g st).tasks = s.tasks := by
  unfold transition
  split <;> rfl

@[simp] theorem transition_active (g : Nat) (st : ConnectionState) :
    (s.transition g st).active = s.active := by
  unfold transition
  split <;> rfl

@[simp] theorem transition_lock (g : Nat) (st : ConnectionState) :
    (s.transition g st).lock = s.lock := by
  unfold transition
  split <;> rfl

@[simp] theorem transition_calls (g : Nat) (st : ConnectionState) :
    (s.transition g st).calls = s.calls := by
  unfold transition
  split <;> rfl

@[simp] theorem transition_answers (g : Nat) (st : ConnectionState) :
    (s.transition g st).answers = s.answers := by
  unfold transition
  split <;> rfl

theorem transition_state {g : Nat} {st : ConnectionState} :
    (s.transition g st).snapshot.state = s.snapshot.state
      ∨ (s.snapshot.generation = g
        ∧ (s.transition g st).snapshot.state = st) := by
  unfold transition
  split
  · exact .inl rfl
  · next h => exact .inr ⟨not_not.1 h, rfl⟩

theorem transition_stale {g : Nat} {st : ConnectionState}
    (h : g ≠ s.snapshot.generation) : s.transition g st = s := by
  unfold transition
  rw [if_pos (Ne.symm h)]

section

variable (h : Owned s)
include h

variable {g : Nat} {task : Task}

theorem Owned.transition {st : ConnectionState}
    (hs : st ≠ .connected) : Owned (s.transition g st) := by
  refine ⟨?_, ?_, ?_, ?_⟩
  · simpa using h.held
  · simpa using h.current
  · simpa using h.past
  · intro hc
    rw [transition_tasks, transition_generation]
    rcases @transition_state s g st with hsm | ⟨-, hn⟩
    · exact h.alive (hsm ▸ hc)
    · exact absurd (hn ▸ hc) hs

theorem Owned.same (hs : t.snapshot = s.snapshot)
    (ha : t.active = s.active) (ht : t.tasks = s.tasks) :
    Owned t := by
  refine ⟨?_, ?_, ?_, ?_⟩
  · rw [ha, ht]
    exact h.held
  · rw [ha, hs]
    exact h.current
  · rw [ht, hs]
    exact h.past
  · rw [ht, hs]
    exact h.alive

theorem Owned.put {t' : Task} (ht : s.tasks[g]? = some task)
    (hfin : t'.finished = task.finished) :
    Owned { s with tasks := s.tasks.insert g t' } := by
  have hget : ∀ (g' : Nat) f,
      (s.tasks.insert g t')[g']? = some f →
        ∃ b, s.tasks[g']? = some b ∧ f.finished = b.finished := by
    intro g' f hf
    rw [get_insert] at hf
    split at hf
    · next heq =>
      cases hf
      exact ⟨task, heq ▸ ht, hfin⟩
    · exact ⟨f, hf, rfl⟩
  refine ⟨fun g' f hf hun => ?_, h.current, fun g' f hf => ?_, fun hc => ?_⟩
  · obtain ⟨b, hb, heq⟩ := hget g' f hf
    exact h.held g' b hb (heq ▸ hun)
  · obtain ⟨b, hb, -⟩ := hget g' f hf
    exact h.past g' b hb
  · obtain ⟨f, hf, hun⟩ := h.alive hc
    rw [get_insert]
    split
    · next heq =>
      rw [heq] at ht
      rw [ht] at hf
      cases hf
      exact ⟨t', rfl, hfin.trans hun⟩
    · exact ⟨f, hf, hun⟩

theorem Owned.cancel (g : Nat) : Owned (s.cancel g) := by
  unfold Owner.cancel
  split
  · next task ht => exact h.put ht rfl
  · exact h

theorem Owned.none_alive (ha : s.active = none)
    (ht : s.tasks[g]? = some task) :
    task.finished = true := by
  cases hfin : task.finished with
  | true => rfl
  | false =>
    rw [h.held g task ht hfin] at ha
    cases ha

theorem Owned.advance (hact : s.active = none)
    {st : ConnectionState} (hs : st ≠ .connected)
    (ha : s.advance st = some t) : Owned t
      ∧ t.snapshot = ⟨s.snapshot.generation + 1, st⟩
      ∧ t.active = none ∧ t.tasks = s.tasks ∧ t.answers = s.answers := by
  unfold Owner.advance at ha
  split at ha
  · cases ha
    refine ⟨⟨h.held, fun g hg => ?_, fun g task ht => ?_,
      fun hc => absurd hc hs⟩, rfl, hact, rfl, rfl⟩
    · dsimp only at hg
      rw [hact] at hg
      cases hg
    · exact Nat.le_succ_of_le (h.past g task ht)
  · cases ha

theorem Owned.take
    (ha : s.active = some g) (ht : s.tasks[g]? = some task)
    (hf : task.finished = true) :
    Owned { s with active := none } := by
  refine ⟨fun g' t' ht' hun => ?_, fun _ => nofun, h.past, h.alive⟩
  have hs := h.held g' t' ht' hun
  rw [ha] at hs
  cases hs
  rw [ht] at ht'
  cases ht'
  rw [hf] at hun
  cases hun

theorem Owned.launch (ha : s.active = none)
    (hs : s.snapshot.state ≠ .connected) :
    Owned { s with
      active := some s.snapshot.generation
      tasks := s.tasks.insert s.snapshot.generation task } := by
  refine ⟨fun g f hf hun => ?_, fun g hg => ?_,
    fun g f hf => ?_, fun hc => absurd hc hs⟩
  · dsimp only at hf
    rw [get_insert] at hf
    split at hf
    · next heq => rw [heq]
    · rw [h.none_alive ha hf] at hun
      cases hun
  · exact (Option.some.inj hg).symm
  · dsimp only at hf
    rw [get_insert] at hf
    split at hf
    · next heq => exact Nat.le_of_eq heq.symm
    · exact h.past g f hf

theorem Owned.of_current
    (ht : s.tasks[g]? = some task) (hun : task.finished = false) :
    g = s.snapshot.generation :=
  h.current g (h.held g task ht hun)

theorem Owned.work {t' : Task}
    {w : Work} {m : Option ConnectionState}
    (hts : s.tasks[g]? = some task)
    (hn : task.next w = some (t', m))
    (hs : t.snapshot = m.elim s.snapshot
      (ConnectionSnapshot.mk s.snapshot.generation))
    (ha : t.active = s.active)
    (ht : t.tasks = s.tasks.insert g t') : Owned t := by
  obtain ⟨hun, hl⟩ := Task.next_spec hn
  have hcur := h.of_current hts hun
  have hgen : t.snapshot.generation = s.snapshot.generation := by
    rw [hs]
    cases m <;> rfl
  refine ⟨fun g' f hf hfn => ?_, fun g' hg' => ?_,
    fun g' f hf => ?_, fun hc => ?_⟩
  · rw [ha]
    rw [ht, get_insert] at hf
    split at hf
    · next heq => exact heq ▸ h.held g task hts hun
    · exact h.held g' f hf hfn
  · rw [hgen]
    exact h.current g' (ha ▸ hg')
  · rw [hgen]
    rw [ht, get_insert] at hf
    split at hf
    · next heq => exact heq ▸ h.past g task hts
    · exact h.past g' f hf
  · refine ⟨t', ?_, ?_⟩
    · rw [hgen, ht, ← hcur, get_insert_self]
    · cases hfin : t'.finished with
      | false => rfl
      | true =>
        obtain ⟨state, rfl, hst⟩ := hl hfin
        rw [hs] at hc
        exact absurd hc hst

end

/-- No other call retires a task. -/
def Alone (s : Owner) (call : Nat) : Prop :=
  ∀ (call' : Nat) request g,
    s.calls[call']? = some (.retiring request g) → call' = call

theorem Locked.alone (h : Locked s) {call : Nat}
    (hl : s.lock = none ∨ s.lock = some call) : s.Alone call := by
  intro c' request g hc
  have ho := (h c' request g hc).1
  rcases hl with hl | hl
  · rw [hl] at ho
    cases ho
  · rw [hl] at ho
    exact (Option.some.inj ho).symm

theorem Alone.insert {call : Nat} (h : s.Alone call) {p : Phase}
    (hcl : t.calls = s.calls.insert call p)
    (hp : ∀ request g, p = .retiring request g →
      t.lock = some call ∧ t.active = some g) : Locked t := by
  intro c' request g hc
  rw [hcl, get_insert] at hc
  split at hc
  · next heq =>
    cases hc
    exact heq ▸ hp request g rfl
  · next hne => exact absurd (h c' request g hc).symm hne

theorem Alone.erase {call : Nat} (h : s.Alone call)
    (hcl : t.calls = s.calls.erase call) : Locked t := by
  intro c' request g hc
  rw [hcl, get_erase] at hc
  split at hc
  · cases hc
  · next hne => exact absurd (h c' request g hc).symm hne

theorem Locked.same (h : Locked s) (hl : t.lock = s.lock)
    (ha : t.active = s.active)
    (hc : ∀ (call : Nat) request g,
      t.calls[call]? = some (.retiring request g) →
        s.calls[call]? = some (.retiring request g)) : Locked t := by
  intro call request g hcl
  rw [hl, ha]
  exact h call request g (hc call request g hcl)

-- ==== what a step does

/-- What a step may do to the generation, the tasks and the answers. -/
structure Moved (s t : Owner) : Prop where
  grows : s.snapshot.generation ≤ t.snapshot.generation
  /-- a task starts with a new generation and beside none that runs -/
  starts : ∀ g : Nat, s.tasks[g]? = none → t.tasks[g]? ≠ none →
    s.snapshot.generation < t.snapshot.generation
      ∧ g = t.snapshot.generation
      ∧ ∀ (g' : Nat) task, s.tasks[g']? = some task → task.finished = true
  disconnects : ∀ call g,
    t.answers = .disconnected call g :: s.answers →
      s.snapshot.generation < t.snapshot.generation
        ∧ t.snapshot = ⟨g, .idle⟩
        ∧ ∀ (g' : Nat) task, t.tasks[g']? = some task → task.finished = true
  connects : ∀ call g, t.answers = .connected call g :: s.answers →
    s.snapshot.generation = g ∧ t.snapshot.generation = g

theorem Moved.tame
    (hgen : t.snapshot.generation = s.snapshot.generation)
    (ht : ∀ g : Nat, s.tasks[g]? = none → t.tasks[g]? = none)
    (ha : t.answers = s.answers
      ∨ ∃ call, t.answers = .failed call :: s.answers) : Moved s t := by
  have hfew : ∀ gi, t.answers = gi :: s.answers →
      ∃ call, gi = .failed call := by
    intro gi hg
    rcases ha with hs | ⟨call, hf⟩
    · exact absurd (hs.symm.trans hg).symm (List.cons_ne_self _ _)
    · exact ⟨call, (List.cons.inj (hg.symm.trans hf)).1⟩
  refine ⟨Nat.le_of_eq hgen.symm, ?_, ?_, ?_⟩
  · intro g hn hsm
    exact absurd (ht g hn) hsm
  · intro call g hg
    obtain ⟨_, ho⟩ := hfew _ hg
    cases ho
  · intro call g hg
    obtain ⟨_, ho⟩ := hfew _ hg
    cases ho

theorem get_cancel {g g' : Nat} (h : s.tasks[g']? = none) :
    (s.cancel g).tasks[g']? = none := by
  unfold cancel
  split
  · next task ht =>
    rw [get_insert_ne]
    · exact h
    · rintro rfl
      rw [ht] at h
      cases h
  · exact h

@[simp] theorem cancel_snapshot (g : Nat) :
    (s.cancel g).snapshot = s.snapshot := by
  unfold cancel
  split <;> rfl

@[simp] theorem cancel_active (g : Nat) :
    (s.cancel g).active = s.active := by
  unfold cancel
  split <;> rfl

@[simp] theorem cancel_answers (g : Nat) :
    (s.cancel g).answers = s.answers := by
  unfold cancel
  split <;> rfl

theorem proceed_spec (h : Owned s) (hact : s.active = none) {call : Nat}
    (ha : s.Alone call) (request : Request) :
    Owned (s.proceed call request) ∧ Locked (s.proceed call request)
      ∧ Moved s (s.proceed call request) := by
  cases request with
  | connect =>
    dsimp only [proceed]
    split
    · exact ⟨h.same rfl rfl rfl, ha.erase rfl,
        .tame rfl (fun _ hg => hg) (.inl rfl)⟩
    · next next hadv =>
      obtain ⟨hn, hs, hnn, ht, han⟩ := h.advance hact (by decide) hadv
      have hcn : next.snapshot.state ≠ .connected := by
        rw [hs]
        nofun
      have hc : next.calls = s.calls := by
        unfold Owner.advance at hadv
        split at hadv <;> cases hadv
        rfl
      refine ⟨(hn.launch hnn hcn).same rfl rfl rfl,
        ha.insert (by rw [hc]) ?_, ?_⟩
      · intro request g hp
        cases hp
      · refine ⟨?_, ?_, ?_, ?_⟩
        · dsimp only
          rw [hs]
          exact Nat.le_succ _
        · intro g hg hsm
          rw [get_insert, ht] at hsm
          split at hsm
          · next heq =>
            refine ⟨?_, heq.symm, fun _ _ => h.none_alive hact⟩
            rw [hs]
            exact Nat.lt_succ_self _
          · exact absurd hg hsm
        · intro call' g hgv
          exact absurd (han.symm.trans hgv).symm (List.cons_ne_self _ _)
        · intro call' g hgv
          exact absurd (han.symm.trans hgv).symm (List.cons_ne_self _ _)
  | disconnect =>
    dsimp only [proceed]
    split
    · exact ⟨h.same rfl rfl rfl, ha.erase rfl,
        .tame rfl (fun _ hg => hg) (.inl rfl)⟩
    · next next hadv =>
      obtain ⟨hn, hs, hnn, ht, han⟩ := h.advance hact (by decide) hadv
      refine ⟨hn.same rfl rfl rfl, ha.erase ?_, ?_⟩
      · unfold Owner.advance at hadv
        split at hadv <;> cases hadv
        rfl
      · refine ⟨?_, ?_, ?_, ?_⟩
        · show _ ≤ next.snapshot.generation
          rw [hs]
          exact Nat.le_succ _
        · intro g hg hsm
          rw [← ht] at hg
          exact absurd hg hsm
        · intro call' g hgv
          cases (List.cons.inj hgv).1
          refine ⟨?_, ?_, fun _ _ => hn.none_alive hnn⟩
          · show _ < next.snapshot.generation
            rw [hs]
            exact Nat.lt_succ_self _
          · show next.snapshot = _
            rw [hs]
        · intro call' g hgv
          cases (List.cons.inj hgv).1

/-- What holds between any two steps. -/
structure Kept (s : Owner) : Prop where
  owned : Owned s
  locked : Locked s

section

variable (h : Kept s)
include h

variable {call : Nat} {request : Request}

theorem Kept.acquired (hl : s.lock = none) :
    Kept (s.acquired call request) ∧ Moved s (s.acquired call request) := by
  unfold Owner.acquired
  split
  · next ha =>
    obtain ⟨ho, hlc, hmv⟩ := proceed_spec h.owned ha
      (h.locked.alone (.inl hl)) request
    exact ⟨⟨ho, hlc⟩, hmv⟩
  · next he ha =>
    have ho := @Owned.transition _ (h.owned.cancel he)
      s.snapshot.generation .disconnecting nofun
    refine ⟨⟨ho.same rfl rfl rfl, ?_⟩, ?_⟩
    · refine (h.locked.alone (.inl hl)).insert rfl ?_
      rintro _ _ ⟨⟩
      refine ⟨rfl, ?_⟩
      rw [transition_active, cancel_active, ha, h.owned.current he ha]
    · refine .tame ?_ ?_ (.inl ?_)
      · simp
      · intro g hg
        rw [transition_tasks]
        exact get_cancel hg
      · simp

theorem Kept.joined {g he : Nat} {p c : Bool} {r : Reply}
    (hc : s.calls[call]? = some (.retiring request g))
    (hact : s.active = some he)
    (ht : s.tasks[he]? = some ⟨.finished p, c, r⟩) :
    Kept (s.joined call request g p)
      ∧ Moved s (s.joined call request g p) := by
  have ha : s.Alone call :=
    h.locked.alone (.inr (h.locked call request g hc).1)
  have ho : Owned { s with active := none } := h.owned.take hact ht rfl
  unfold Owner.joined
  split
  · have hf := @Owned.transition _ ho g .failed nofun
    refine ⟨⟨hf.same rfl rfl rfl, ha.erase ?_⟩, .tame ?_ ?_ ?_⟩
    · exact congrArg (·.erase call) (transition_calls _ _)
    · exact transition_generation _ _
    · intro g' hg'
      exact (congrArg (·[g']?) (transition_tasks _ _)).trans hg'
    · refine .inr ⟨call, ?_⟩
      exact congrArg (Answer.failed call :: ·) (transition_answers _ _)
  · obtain ⟨hp, hl, hmv⟩ := @proceed_spec _ ho
      rfl call ha request
    exact ⟨⟨hp, hl⟩, hmv.grows, hmv.starts, hmv.disconnects, hmv.connects⟩

theorem Kept.deadline {g : Nat}
    (hc : s.calls[call]? = some (.retiring request g)) :
    Kept (((s.transition g .failed).release call).answer (.failed call))
      ∧ Moved s (((s.transition g .failed).release call).answer
        (.failed call)) := by
  have ha : s.Alone call :=
    h.locked.alone (.inr (h.locked call request g hc).1)
  have hf := @Owned.transition _ h.owned g .failed nofun
  refine ⟨⟨hf.same rfl rfl rfl, ha.erase ?_⟩, .tame ?_ ?_ ?_⟩
  · exact congrArg (·.erase call) (transition_calls _ _)
  · exact transition_generation _ _
  · intro g' hg'
    exact (congrArg (·[g']?) (transition_tasks _ _)).trans hg'
  · refine .inr ⟨call, ?_⟩
    exact congrArg (Answer.failed call :: ·) (transition_answers _ _)

omit h in
theorem Locked.gone (h : Locked s)
    (hl : t.lock = s.lock) (ha : t.active = s.active)
    (hcl : t.calls = s.calls.erase call) : Locked t := by
  refine h.same hl ha fun call' request g hc => ?_
  rw [hcl, get_erase] at hc
  split at hc
  · cases hc
  · exact hc

theorem Kept.answered {g : Nat} {r : Reply}
    (hn : s.answered call g r = some t) : Kept t ∧ Moved s t := by
  cases r with
  | pending => cases hn
  | ok =>
    cases hn
    refine ⟨⟨h.owned.same rfl rfl rfl, h.locked.gone rfl rfl rfl⟩, ?_⟩
    by_cases hcur : s.snapshot.generation = g
    · rw [if_pos hcur]
      refine ⟨Nat.le_refl _, fun _ hg hs => absurd hg hs,
        fun _ _ hgv => ?_, fun _ _ hgv => ?_⟩
      · cases (List.cons.inj hgv).1
      · cases (List.cons.inj hgv).1
        exact ⟨hcur, hcur⟩
    · rw [if_neg hcur]
      exact .tame rfl (fun _ hg => hg) (.inr ⟨call, rfl⟩)
  | error =>
    cases hn
    exact ⟨⟨h.owned.same rfl rfl rfl, h.locked.gone rfl rfl rfl⟩,
      .tame rfl (fun _ hg => hg) (.inr ⟨call, rfl⟩)⟩
  | closed =>
    cases hn
    have hf := @Owned.transition _ h.owned g .failed nofun
    refine ⟨⟨hf.same rfl rfl rfl, h.locked.gone ?_ ?_ rfl⟩, .tame ?_ ?_ ?_⟩
    · exact transition_lock _ _
    · exact transition_active _ _
    · exact transition_generation _ _
    · intro g' hg'
      exact (congrArg (·[g']?) (transition_tasks _ _)).trans hg'
    · refine .inr ⟨call, ?_⟩
      exact congrArg (Answer.failed call :: ·) (transition_answers _ _)

theorem Kept.dropped (call : Nat) :
    Kept { s with
      lock := if s.lock = some call then none else s.lock
      calls := s.calls.erase call } := by
  refine ⟨h.owned.same rfl rfl rfl, ?_⟩
  by_cases hl : s.lock = some call
  · exact (h.locked.alone (.inr hl)).erase rfl
  · exact h.locked.gone (if_neg hl) rfl rfl

theorem Kept.work {g : Nat} {w : Work} {task t' : Task}
    {m : Option ConnectionState} (hts : s.tasks[g]? = some task)
    (hn : task.next w = some (t', m))
    (hs : t.snapshot = m.elim s.snapshot
      (ConnectionSnapshot.mk s.snapshot.generation))
    (hact : t.active = s.active) (hl : t.lock = s.lock)
    (hc : t.calls = s.calls) (ha : t.answers = s.answers)
    (ht : t.tasks = s.tasks.insert g t') : Kept t ∧ Moved s t := by
  refine ⟨⟨h.owned.work hts hn hs hact ht,
    h.locked.same hl hact fun _ _ _ hcl => hc ▸ hcl⟩,
    .tame ?_ ?_ (.inl ha)⟩
  · rw [hs]
    cases m <;> rfl
  · intro g' hg'
    rw [ht, get_insert_ne]
    · exact hg'
    · rintro rfl
      rw [hts] at hg'
      cases hg'

theorem Kept.next {action : Action}
    (hn : s.next action = some t) : Kept t ∧ Moved s t := by
  cases action with
  | request call request =>
    dsimp only [Owner.next] at hn
    split at hn
    · cases hn
      refine ⟨⟨h.owned.same rfl rfl rfl, h.locked.same rfl rfl ?_⟩,
        .tame rfl (fun _ hg => hg) (.inl rfl)⟩
      intro call' request' g hc
      rw [get_insert] at hc
      split at hc
      · cases hc
      · exact hc
    · cases hn
  | acquired call =>
    dsimp only [Owner.next] at hn
    split at hn
    · next request hc hl =>
      cases hn
      exact h.acquired hl
    · cases hn
  | joined call =>
    dsimp only [Owner.next] at hn
    split at hn
    · next request g panicked cancelled reply hc hh =>
      cases hn
      obtain ⟨held, hact, ht⟩ := bind_eq_some_iff.1 hh
      exact h.joined hc hact ht
    · cases hn
  | deadline call =>
    dsimp only [Owner.next] at hn
    split at hn
    · next request g hc =>
      cases hn
      exact h.deadline hc
    · cases hn
  | answered call =>
    dsimp only [Owner.next] at hn
    split at hn
    · next g hc =>
      obtain ⟨task, -, ha⟩ := bind_eq_some_iff.1 hn
      exact h.answered ha
    · cases hn
  | dropped call =>
    cases hn
    exact ⟨h.dropped call, .tame rfl (fun _ hg => hg) (.inl rfl)⟩
  | work g work =>
    obtain ⟨task, ht, hmap⟩ := bind_eq_some_iff.1 hn
    obtain ⟨⟨task', made⟩, hs, rfl⟩ := map_eq_some_iff.1 hmap
    have hcur := h.owned.of_current ht (Task.next_spec hs).1
    cases made with
    | none => exact h.work ht hs rfl rfl rfl rfl rfl rfl
    | some state =>
      have hmd : s.transition g state
          = { s with snapshot := { s.snapshot with state } } := by
        unfold transition
        rw [if_neg (not_not.2 hcur.symm)]
      dsimp only
      rw [hmd]
      exact h.work ht hs rfl rfl rfl rfl rfl rfl

end

-- ==== results

theorem Kept.stale (h : Kept s) {a : Action} {g : Nat}
    (hof : s.generationOf a = some g)
    (hold : g ≠ s.snapshot.generation)
    (hn : s.next a = some t) : t.snapshot = s.snapshot := by
  -- a call that retires a task is of the current generation
  have hr : ∀ (call : Nat) request g,
      s.calls[call]? = some (.retiring request g) →
        g = s.snapshot.generation := fun call request g hc =>
    h.owned.current g (h.locked call request g hc).2
  cases a with
  | request call request => cases hof
  | acquired call => cases hof
  | joined call =>
    dsimp only [Owner.next] at hn
    split at hn
    · next request g' panicked cancelled reply hc hh =>
      dsimp only [generationOf] at hof
      rw [hc] at hof
      cases hof
      exact absurd (hr call request g hc) hold
    · cases hn
  | deadline call =>
    dsimp only [Owner.next] at hn
    split at hn
    · next request g' hc =>
      dsimp only [generationOf] at hof
      rw [hc] at hof
      cases hof
      exact absurd (hr call request g hc) hold
    · cases hn
  | answered call =>
    dsimp only [Owner.next] at hn
    split at hn
    · next g' hc =>
      dsimp only [generationOf] at hof
      rw [hc] at hof
      cases hof
      obtain ⟨task, -, ha⟩ := bind_eq_some_iff.1 hn
      cases hrp : task.reply <;> rw [hrp] at ha
      · cases ha
      · cases ha
        rfl
      · cases ha
        rfl
      · dsimp only [Owner.answered] at ha
        rw [transition_stale hold] at ha
        cases ha
        rfl
    · cases hn
  | dropped call =>
    cases hn
    rfl
  | work g' work =>
    cases hof
    obtain ⟨task, ht, hmap⟩ := bind_eq_some_iff.1 hn
    obtain ⟨⟨task', made⟩, hs, -⟩ := map_eq_some_iff.1 hmap
    exact absurd (h.owned.of_current ht (Task.next_spec hs).1) hold

/-- What holds of the owner in every state of a run. -/
structure Law (s : Owner) : Prop where
  /-- an unfinished task is the one that is held, so there is one at most -/
  one : ∀ (g : Nat) task, s.tasks[g]? = some task →
    task.finished = false → s.active = some g
  connected : s.snapshot.state = .connected → ∃ task,
    s.tasks[s.snapshot.generation]? = some task ∧ task.finished = false
  moved : ∀ action t, s.next action = some t → Moved s t
  stale : ∀ action g t, s.generationOf action = some g →
    g ≠ s.snapshot.generation → s.next action = some t →
      t.snapshot = s.snapshot

theorem new_kept : Kept new := by
  refine ⟨⟨?_, fun _ => nofun, ?_, nofun⟩, ?_⟩
  · intro g task ht
    cases ht
  · intro g task ht
    cases ht
  · intro call request g hc
    cases hc

/-- The ownership of the connection, in every state that calls, drops,
tasks and deadlines lead to. -/
theorem ownership {t : Owner}
    (hrun : Run (fun s action t => s.next action = some t)
      (fun _ _ => True) new t) : Law t := by
  have hk : Kept t := hrun.invariant new_kept
    fun _ _ _ hinv _ hn => (hinv.next hn).1
  exact ⟨hk.owned.held, hk.owned.alive,
    fun _ _ hn => (hk.next hn).2,
    fun _ _ _ hof hold hn => hk.stale hof hold hn⟩

/-- A connection is made, and replaced by a call that is dropped while it
waits; the next one finishes the work. -/
def replaced : List Action :=
  [.request 1 .connect, .acquired 1, .work 1 (.initialized true),
    .work 1 .go, .work 1 .go, .answered 1, .request 2 .connect,
    .acquired 2, .dropped 2, .work 1 .retry, .request 3 .connect,
    .acquired 3, .work 1 .ended, .work 1 .go, .work 1 .go, .work 1 .go,
    .joined 3, .work 2 (.initialized true), .work 2 .go]

theorem replaced_owned :
    ∃ t, Run (fun s action t => s.next action = some t) (fun _ _ => True)
        new t
      ∧ t.snapshot = ⟨2, .connected⟩ ∧ t.active = some 2
      ∧ t.answers = [.connected 1 1] ∧ Law t := by
  have hen : (runWhile next (fun _ _ => true) new replaced).any (fun t =>
      t.snapshot = ⟨2, .connected⟩ && t.active = some 2
        && t.answers = [.connected 1 1]) = true := by
    decide +kernel
  obtain ⟨t, ht, hall⟩ := (any_eq_true _ _).1 hen
  obtain ⟨hf, ha⟩ := Bool.and_eq_true_iff.1 hall
  obtain ⟨hs, hact⟩ := Bool.and_eq_true_iff.1 hf
  have hrun := @Run.of_runWhile _ _ next (fun _ _ => true)
    (fun _ _ => True) (fun _ _ _ => trivial) _ _ _ .refl _ ht
  exact ⟨t, hrun, of_decide_eq_true hs, of_decide_eq_true hact,
    of_decide_eq_true ha, ownership hrun⟩

end Owner

end TikTools.Connection
