/-
Nothing is stranded, and what that costs.

A function that has items queued, or is closing, is named by an event, is
being dispatched, or a thread is about to post it (`Sound.scheduled`,
`Sound.closing`); an event that waits has a wake that waits, unless the
owner is on its way to the inbox (`Sound.wake`). The items accepted are
those handed over, dropped and queued, in this order (`Tsfn.Ok`).

None of this keeps a record alive for a thread that is about to post:
`Sound.users` and `Sound.ops` hold only while a record is freed when no
thread uses it (`Env.Ordered`).
-/
import TikTools.Napi.Threadsafe

namespace TikTools.Napi

open TikTools.Lib Std List Option Table

-- ==== one function

/-- The books of a function. -/
structure Tsfn.Ok (fn : Tsfn) : Prop where
  books : fn.accepted = fn.handed ++ fn.dropped ++ fn.queue
  drops : fn.dropped ≠ [] → fn.aborted = true ∧ fn.callJs = false
  finalized : fn.finalized = if fn.live then 0 else 1
  gone : fn.live = false → fn.closing = true ∧ fn.queue = []
  scheduled : fn.queue ≠ [] → fn.scheduled = true

/-- What a thread leaves of a function as it is. -/
structure Tsfn.Keeps (fn fn' : Tsfn) : Prop where
  live : fn'.live = fn.live
  closing : fn.closing = true → fn'.closing = true ∧ fn'.queue = fn.queue
  aborted : fn.aborted = true → fn'.aborted = true
  callJs : fn'.callJs = fn.callJs

theorem Tsfn.Keeps.refl (fn : Tsfn) : fn.Keeps fn :=
  ⟨rfl, fun h => ⟨h, rfl⟩, id, rfl⟩

section

variable {fn : Tsfn} (h : fn.Ok)
include h

theorem Tsfn.Ok.push (hl : fn.live = true) (i : Nat) :
    Tsfn.Ok { fn with
      queue := fn.queue ++ [i]
      accepted := fn.accepted ++ [i]
      scheduled := true } := by
  refine ⟨?_, h.drops, h.finalized, fun hg => ?_, fun _ => rfl⟩
  · dsimp only
    rw [h.books, append_assoc]
  · dsimp only at hg
    rw [hl] at hg
    cases hg

theorem Tsfn.Ok.threads (threads : Nat) :
    Tsfn.Ok { fn with threads } :=
  ⟨h.books, h.drops, h.finalized, h.gone, h.scheduled⟩

theorem Tsfn.Ok.close (abort : Bool) (threads : Nat) :
    Tsfn.Ok { fn with
      threads, closing := true, aborted := fn.aborted || abort } := by
  refine ⟨h.books, fun hd => ?_, h.finalized, fun hg => ?_, h.scheduled⟩
  · obtain ⟨ha, hj⟩ := h.drops hd
    refine ⟨?_, hj⟩
    rw [ha, Bool.true_or]
  · exact ⟨rfl, (h.gone hg).2⟩

theorem Tsfn.Ok.pop (hl : fn.live = true) {i : Nat} {q : List Nat}
    (hq : fn.queue = i :: q) :
    (Env.popTsfn fn i q).Ok := by
  have hs : fn.scheduled = true := h.scheduled (by simp [hq])
  unfold Env.popTsfn
  split
  · next hdr =>
    obtain ⟨ha, hj⟩ := Bool.and_eq_true_iff.1 hdr
    refine ⟨?_, fun _ => ⟨ha, by simpa using hj⟩,
      h.finalized, fun hg => ?_, fun _ => hs⟩
    · dsimp only
      rw [h.books, hq]
      simp
    · dsimp only at hg
      rw [hl] at hg
      cases hg
  · next hh =>
    have hn : fn.dropped = [] := by
      by_contra hd
      obtain ⟨ha, hj⟩ := h.drops hd
      exact hh (by simp [ha, hj])
    refine ⟨?_, fun hd => absurd hn hd, h.finalized,
      fun hg => ?_, fun _ => hs⟩
    · dsimp only
      rw [h.books, hn, hq]
      simp
    · dsimp only at hg
      rw [hl] at hg
      cases hg

/-- What is left of an aborted function is dropped, unless it has a native
callback and nothing is left. -/
theorem Tsfn.Ok.finish (hl : fn.live = true) (hc : fn.closing = true)
    (hr : fn.queue ≠ [] → fn.aborted = true ∧ fn.callJs = false) :
    (Env.finishTsfn fn).Ok := by
  refine ⟨?_, fun hd => ?_, ?_, fun _ => ⟨hc, rfl⟩, fun hq => absurd rfl hq⟩
  · show fn.accepted = fn.handed ++ (fn.dropped ++ fn.queue) ++ []
    rw [h.books]
    simp
  · by_cases hq : fn.queue = []
    · refine h.drops fun hn => hd ?_
      show fn.dropped ++ fn.queue = []
      rw [hn, hq]
      rfl
    · exact hr hq
  · show fn.finalized + 1 = 1
    rw [h.finalized, hl]
    rfl

theorem Tsfn.Ok.drain (hl : fn.live = true) (hj : fn.callJs = true) :
    Tsfn.Ok { fn with queue := [], handed := fn.handed ++ fn.queue } := by
  have hn : fn.dropped = [] := by
    by_contra hd
    have hnot := (h.drops hd).2
    rw [hj] at hnot
    cases hnot
  refine ⟨?_, h.drops, h.finalized, fun hg => ?_, fun hq => absurd rfl hq⟩
  · dsimp only
    rw [h.books, hn]
    simp
  · dsimp only at hg
    rw [hl] at hg
    cases hg

end

-- ==== the environment

variable {b thread other : Nat} {op : Op}

namespace Env

variable {s t : Env}

def Live (fns : Table Nat Tsfn) (a : Nat) : Prop :=
  ∃ fn, fns[a]? = some fn ∧ fn.live = true

/-- The owner will come to the function and empty its queue. -/
def Served (s : Env) (a : Nat) : Prop :=
  a ∈ s.events ∨ a ∈ s.batch ∨ s.phase = .dispatching a
    ∨ ∃ todo, s.phase.todo = some todo ∧ a ∈ todo

/-- The owner looks whether the function is to be finished. -/
def Checking (s : Env) (a : Nat) : Prop :=
  s.phase = .checking a ∨ s.phase = .finishing a

def Posting (s : Env) (a : Nat) : Prop :=
  ∃ thread : Nat, s.ops[thread]? = some (.posting a)

/-- The functions left to shut down, and how far the first one is. -/
structure Todo (fns : Table Nat Tsfn) (todo : List Nat)
    (first : Tsfn → Prop) : Prop where
  nodup : todo.Nodup
  live : ∀ a ∈ todo, Live fns a
  first : ∀ a ∈ todo.head?, ∀ fn, fns[a]? = some fn → first fn

/-- What the owner relies on, where it is. -/
def At (fns : Table Nat Tsfn) : Phase → Prop
  | .dispatching a => Live fns a
  | .checking a => Live fns a
  | .finishing a => Live fns a ∧ ∀ fn, fns[a]? = some fn →
      fn.closing = true ∧ fn.queue = []
  | .shutting todo => Todo fns todo fun _ => True
  | .draining todo => Todo fns todo fun fn =>
    fn.closing = true ∧ fn.aborted = true
  | .ending todo => Todo fns todo fun fn =>
    fn.closing = true ∧ fn.aborted = true ∧ (fn.callJs = true → fn.queue = [])
  | _ => True

/-- The wake: a set flag stands for a wake in the channel, and events in
the inbox for a set flag, unless the owner is on its way. -/
structure Wakes (s : Env) : Prop where
  calm : s.phase = .asleep ∨ s.phase = .woken ∨ s.phase = .awake →
    s.batch = []
  pending : s.pending = true → 0 < s.messages ∨ s.phase = .woken
  wake : s.events ≠ [] → s.pending = true ∨ s.phase = .awake
    ∨ s.phase.todo.isSome = true

structure Sound (s : Env) : Prop where
  fns : ∀ (a : Nat) fn, s.fns[a]? = some fn → fn.Ok
  scheduled : ∀ (a : Nat) fn, s.fns[a]? = some fn → fn.live = true →
    fn.scheduled = true → s.Served a ∨ s.Posting a
  closing : ∀ (a : Nat) fn, s.fns[a]? = some fn → fn.live = true →
    fn.closing = true → s.Served a ∨ s.Checking a ∨ s.Posting a
  phase : At s.fns s.phase
  shut : ∀ todo, s.phase.todo = some todo → ∀ a, Live s.fns a → a ∈ todo
  wakes : Wakes s
  users : ∀ entry ∈ s.users, Live s.fns entry.2
  ops : ∀ (thread : Nat) op, s.ops[thread]? = some op → Live s.fns op.tsfn
  misused : s.misused = false

/-- What a thread that holds the lock of one record does. -/
structure Touched (s t : Env) (a : Nat) (fn fn' : Tsfn) : Prop where
  keeps : fn.Keeps fn'
  get : ∀ b : Nat, t.fns[b]? = if a = b then some fn' else s.fns[b]?
  events : t.events = s.events
  batch : t.batch = s.batch
  pending : t.pending = s.pending
  messages : t.messages = s.messages
  phase : t.phase = s.phase
  misused : t.misused = s.misused
  users : ∀ entry ∈ t.users, entry ∈ s.users ∨ entry.2 = a
  ops : ∀ (thread : Nat) op, t.ops[thread]? = some op →
    s.ops[thread]? = some op ∨ op.tsfn = a
  posting : ∀ b, s.Posting b → t.Posting b
  scheduled : fn'.scheduled = true → fn.scheduled = true ∨ t.Posting a
  closing : fn'.closing = true → fn.closing = true ∨ t.Posting a

section

variable {a : Nat} {fn fn' : Tsfn} (h : Touched s t a fn fn')
include h

theorem Touched.live (hfn : s.fns[a]? = some fn) :
    Live t.fns b ↔ Live s.fns b := by
  unfold Live
  rw [h.get]
  split
  · next heq =>
    subst heq
    rw [hfn]
    simp [h.keeps.live]
  · exact Iff.rfl

theorem Touched.todo (hfn : s.fns[a]? = some fn) {todo : List Nat}
    {first : Tsfn → Prop} (ht : Todo s.fns todo first)
    (hf : first fn → first fn') :
    Todo t.fns todo first := by
  refine ⟨ht.nodup, fun b hb => (h.live hfn).2 (ht.live b hb), ?_⟩
  intro b hb fn'' hfn''
  rw [h.get] at hfn''
  split at hfn''
  · next heq =>
    subst heq
    cases hfn''
    exact hf (ht.first _ hb fn hfn)
  · exact ht.first b hb fn'' hfn''

theorem Touched.at (hfn : s.fns[a]? = some fn) {phase : Phase}
    (hat : At s.fns phase) :
    At t.fns phase := by
  cases phase with
  | dispatching b => exact (h.live hfn).2 hat
  | checking b => exact (h.live hfn).2 hat
  | finishing b =>
    refine ⟨(h.live hfn).2 hat.1, fun fn'' hfn'' => ?_⟩
    rw [h.get] at hfn''
    split at hfn''
    · next heq =>
      subst heq
      cases hfn''
      obtain ⟨hclg, hq⟩ := hat.2 fn hfn
      obtain ⟨hclg', hs⟩ := h.keeps.closing hclg
      exact ⟨hclg', hs.trans hq⟩
    · exact hat.2 fn'' hfn''
  | shutting todo => exact h.todo hfn hat id
  | draining todo =>
    refine h.todo hfn hat ?_
    rintro ⟨hclg, ha⟩
    exact ⟨(h.keeps.closing hclg).1, h.keeps.aborted ha⟩
  | ending todo =>
    refine h.todo hfn hat ?_
    rintro ⟨hclg, ha, hq⟩
    obtain ⟨hclg', hs⟩ := h.keeps.closing hclg
    refine ⟨hclg', h.keeps.aborted ha, fun hj => ?_⟩
    rw [hs]
    exact hq (h.keeps.callJs ▸ hj)
  | asleep => trivial
  | woken => trivial
  | awake => trivial
  | pumping => trivial
  | down => trivial

end

theorem Sound.touched (h : Sound s) {a : Nat} {fn fn' : Tsfn}
    (hfn : s.fns[a]? = some fn) (hl : fn.live = true) (hok : fn'.Ok)
    (ht : Touched s t a fn fn') : Sound t := by
  have hs : ∀ b, s.Served b → t.Served b := by
    intro b hb
    unfold Served
    rw [ht.events, ht.batch, ht.phase]
    exact hb
  have hc : ∀ b, s.Checking b → t.Checking b := by
    intro b hb
    unfold Checking
    rw [ht.phase]
    exact hb
  refine ⟨?_, ?_, ?_, ?_, ?_, ?_, ?_, ?_, ?_⟩
  · intro b found hf
    rw [ht.get] at hf
    split at hf
    · cases hf
      exact hok
    · exact h.fns b found hf
  · intro b found hf hfo hsc
    rw [ht.get] at hf
    split at hf
    · next heq =>
      subst heq
      cases hf
      rcases ht.scheduled hsc with hold | hp
      · exact (h.scheduled _ fn hfn hl hold).imp (hs _) (ht.posting _)
      · exact .inr hp
    · exact (h.scheduled b found hf hfo hsc).imp (hs b) (ht.posting b)
  · intro b found hf hfo hclg
    rw [ht.get] at hf
    split at hf
    · next heq =>
      subst heq
      cases hf
      rcases ht.closing hclg with hold | hp
      · exact (h.closing _ fn hfn hl hold).imp (hs _)
          (Or.imp (hc _) (ht.posting _))
      · exact .inr (.inr hp)
    · exact (h.closing b found hf hfo hclg).imp
        (hs b) (Or.imp (hc b) (ht.posting b))
  · rw [ht.phase]
    exact ht.at hfn h.phase
  · rw [ht.phase]
    intro todo htd b hb
    exact h.shut todo htd b ((ht.live hfn).1 hb)
  · obtain ⟨hcl, hpn, hw⟩ := h.wakes
    refine ⟨?_, ?_, ?_⟩
    · rw [ht.phase, ht.batch]
      exact hcl
    · rw [ht.pending, ht.messages, ht.phase]
      exact hpn
    · rw [ht.events, ht.pending, ht.phase]
      exact hw
  · intro entry hen
    refine (ht.live hfn).2 ?_
    rcases ht.users entry hen with hold | hnew
    · exact h.users entry hold
    · rw [hnew]
      exact ⟨fn, hfn, hl⟩
  · intro thread op hop
    refine (ht.live hfn).2 ?_
    rcases ht.ops thread op hop with hold | hnew
    · exact h.ops thread op hold
    · rw [hnew]
      exact ⟨fn, hfn, hl⟩
  · rw [ht.misused]
    exact h.misused

-- ==== the threads

theorem posting_insert (hop : ∀ b, s.ops[thread]? ≠ some (.posting b))
    (hp : t.ops = s.ops.insert thread op)
    (h : s.Posting b) : t.Posting b := by
  obtain ⟨other, ho⟩ := h
  refine ⟨other, ?_⟩
  rw [hp, get_insert_ne]
  · exact ho
  · rintro rfl
    exact hop b ho

theorem posting_erase (hop : ∀ b, s.ops[thread]? ≠ some (.posting b))
    (hp : t.ops = s.ops.erase thread) (h : s.Posting b) : t.Posting b := by
  obtain ⟨other, ho⟩ := h
  refine ⟨other, ?_⟩
  rw [hp, get_erase_ne]
  · exact ho
  · rintro rfl
    exact hop b ho

theorem get_of_insert {fns : Table Nat Tsfn} {a : Nat} {fn' : Tsfn}
    (b : Nat) : (fns.insert a fn')[b]? = if a = b then some fn'
      else fns[b]? :=
  get_insert fns a b fn'

theorem get_same {fns : Table Nat Tsfn} {a : Nat} {fn : Tsfn}
    (hfn : fns[a]? = some fn) (b : Nat) :
    fns[b]? = if a = b then some fn else fns[b]? := by
  split
  · next heq => rw [← heq, hfn]
  · rfl

theorem mem_forget {a : Nat} {e : Nat × Nat}
    (h : e ∈ (s.forget thread a).users) : e ∈ s.users :=
  (mem_filter.1 h).1

theorem ops_erase (h : (s.ops.erase thread)[other]? = some op) :
    s.ops[other]? = some op := by
  rw [get_erase] at h
  split at h
  · cases h
  · exact h

theorem ops_insert {op' : Op}
    (h : (s.ops.insert thread op)[other]? = some op') :
    s.ops[other]? = some op' ∨ op' = op := by
  rw [get_insert] at h
  split at h
  · exact .inr (Option.some.inj h).symm
  · exact .inl h

section

variable {a : Nat} {fn : Tsfn} (hfn : s.fns[a]? = some fn)
include hfn

theorem callTsfn_touched {i : Nat} {bl : Bool}
    (hl : fn.live = true) (hok : fn.Ok)
    (hop : ∀ b, s.ops[thread]? ≠ some (.posting b)) :
    ∃ fn', fn'.Ok ∧ Touched s (s.callTsfn thread a i bl fn) a fn fn' := by
  unfold callTsfn
  split
  · refine ⟨fn, hok, .refl fn, get_same hfn, rfl, rfl, rfl, rfl, rfl, rfl,
      fun _ he => .inl (mem_forget he), fun _ _ ho => .inl (ops_erase ho),
      fun _ => posting_erase hop rfl, .inl, .inl⟩
  · next hon =>
    split
    · have hk : fn.Keeps { fn with
          queue := fn.queue ++ [i]
          accepted := fn.accepted ++ [i]
          scheduled := true } :=
        ⟨rfl, fun hc => absurd hc hon, id, rfl⟩
      refine ⟨_, hok.push hl i, ?_⟩
      split
      · next hs =>
        exact ⟨hk, get_of_insert, rfl, rfl, rfl, rfl, rfl, rfl,
          fun _ he => .inl he, fun _ _ ho => .inl (ops_erase ho),
          fun _ => posting_erase hop rfl, fun _ => .inl hs,
          .inl⟩
      · exact ⟨hk, get_of_insert, rfl, rfl, rfl, rfl, rfl, rfl,
          fun _ he => .inl he,
          fun _ _ ho => (ops_insert ho).imp_right (congrArg Op.tsfn),
          fun _ => posting_insert hop rfl,
          fun _ => .inr ⟨thread, get_insert_self _ _ _⟩, .inl⟩
    · split
      · exact ⟨fn, hok, .refl fn, get_same hfn, rfl, rfl, rfl, rfl, rfl,
          rfl, fun _ he => .inl he,
          fun _ _ ho => (ops_insert ho).imp_right (congrArg Op.tsfn),
          fun _ => posting_insert hop rfl, .inl, .inl⟩
      · exact ⟨fn, hok, .refl fn, get_same hfn, rfl, rfl, rfl, rfl, rfl,
          rfl, fun _ he => .inl he, fun _ _ ho => .inl (ops_erase ho),
          fun _ => posting_erase hop rfl, .inl, .inl⟩

theorem acquireTsfn_touched (hok : fn.Ok) :
    ∃ fn', fn'.Ok ∧ Touched s (s.acquireTsfn thread a other fn) a fn fn' := by
  unfold acquireTsfn
  split
  · exact ⟨fn, hok, .refl fn, get_same hfn, rfl, rfl, rfl, rfl, rfl, rfl,
      fun _ he => .inl (mem_forget he), fun _ _ ho => .inl ho,
      fun _ => id, .inl, .inl⟩
  · exact ⟨_, hok.threads (fn.threads + 1), ⟨rfl, fun h => ⟨h, rfl⟩, id, rfl⟩,
      get_of_insert, rfl, rfl, rfl, rfl, rfl, rfl,
      fun _ he => (mem_cons.1 he).symm.imp_right (congrArg Prod.snd),
      fun _ _ ho => .inl ho, fun _ => id, .inl, .inl⟩

theorem releaseTsfn_touched {abort : Bool} (hok : fn.Ok)
    (hop : ∀ b, s.ops[thread]? ≠ some (.posting b)) :
    ∃ fn', fn'.Ok ∧ Touched s (s.releaseTsfn thread a abort fn) a fn fn' := by
  unfold releaseTsfn
  split
  · exact ⟨fn, hok, .refl fn, get_same hfn, rfl, rfl, rfl, rfl, rfl, rfl,
      fun _ he => .inl (mem_forget he), fun _ _ ho => .inl ho,
      fun _ => id, .inl, .inl⟩
  split
  · refine ⟨_, hok.close abort (fn.threads - 1), ⟨rfl, fun _ => ⟨rfl, rfl⟩,
        fun ha => ?_, rfl⟩, get_of_insert, rfl, rfl, rfl, rfl, rfl,
      rfl, fun _ he => .inl (mem_forget he),
      fun _ _ ho => (ops_insert ho).imp_right (congrArg Op.tsfn),
      fun _ => posting_insert hop rfl, .inl,
      fun _ => .inr ⟨thread, get_insert_self _ _ _⟩⟩
    rw [ha, Bool.true_or]
  · exact ⟨_, hok.threads (fn.threads - 1), ⟨rfl, fun h => ⟨h, rfl⟩, id, rfl⟩,
      get_of_insert, rfl, rfl, rfl, rfl, rfl, rfl,
      fun _ he => .inl (mem_forget he), fun _ _ ho => .inl ho,
      fun _ => id, .inl, .inl⟩

end

theorem Sound.touch (h : Sound s) {a : Nat} {bo : Tsfn → Env}
    (hl : Live s.fns a) (hb : ∀ fn, s.fns[a]? = some fn →
      fn.live = true → fn.Ok → ∃ fn', fn'.Ok ∧ Touched s (bo fn) a fn fn')
    (hn : s.touch a bo = some t) : Sound t := by
  obtain ⟨fn, hfn, hf⟩ := hl
  unfold Env.touch at hn
  rw [hfn] at hn
  simp only [map_some, hf, if_true] at hn
  cases hn
  obtain ⟨fn', hok, ht⟩ := hb fn hfn hf (h.fns a fn hfn)
  exact h.touched hfn hf hok ht

theorem Sound.post (h : Sound s) {a : Nat}
    (hop : s.ops[thread]? = some (.posting a)) :
    Sound ((s.post a).doneOp thread) := by
  have hsr : ∀ b, s.Served b → ((s.post a).doneOp thread).Served b :=
    fun b hb => hb.imp_left (mem_append_left _)
  have hsl : ((s.post a).doneOp thread).Served a :=
    .inl (mem_append_right _ (mem_singleton_self a))
  -- whoever else is about to post still is
  have hps : ∀ b, s.Posting b →
      ((s.post a).doneOp thread).Served b
        ∨ ((s.post a).doneOp thread).Posting b := by
    rintro b ⟨other, hot⟩
    by_cases heq : thread = other
    · subst heq
      rw [hop] at hot
      cases hot
      exact .inl hsl
    · refine .inr ⟨other, ?_⟩
      exact (get_erase_ne _ heq).trans hot
  obtain ⟨hcl, hpn, hw⟩ := h.wakes
  refine ⟨h.fns, fun b fn hfn hl hsc => ?_,
    fun b fn hfn hl hclg => ?_, h.phase, h.shut,
    ⟨hcl, fun _ => ?_, fun _ => .inl rfl⟩, h.users,
    fun other op ho => h.ops other op (ops_erase ho), h.misused⟩
  · rcases h.scheduled b fn hfn hl hsc with hs | hp
    exacts [.inl (hsr b hs), hps b hp]
  · rcases h.closing b fn hfn hl hclg with hs | hc | hp
    · exact .inl (hsr b hs)
    · exact .inr (.inl hc)
    · exact (hps b hp).imp_right .inr
  · show 0 < (if s.pending then s.messages else s.messages + 1) ∨ _
    split
    · next hset => exact hpn hset
    · exact .inl (Nat.succ_pos _)

-- ==== the owner

theorem Sound.move (h : Sound s) (hf : t.fns = s.fns)
    (hu : t.users = s.users) (ho : t.ops = s.ops)
    (hms : t.misused = s.misused)
    (hsr : ∀ a, Live s.fns a → s.Served a → t.Served a)
    (hch : ∀ (a : Nat) fn, s.fns[a]? = some fn → fn.live = true →
      fn.closing = true → s.Checking a →
        t.Served a ∨ t.Checking a ∨ t.Posting a)
    (hph : At s.fns t.phase)
    (hsh : ∀ td, t.phase.todo = some td → ∀ a, Live s.fns a → a ∈ td)
    (hw : Wakes t) : Sound t := by
  have hps : ∀ a, s.Posting a → t.Posting a := fun a ha => by
    unfold Posting
    rw [ho]
    exact ha
  refine ⟨?_, ?_, ?_, ?_, ?_, hw, ?_, ?_, ?_⟩
  · rw [hf]
    exact h.fns
  · rw [hf]
    intro a fn hfn hl hsc
    exact (h.scheduled a fn hfn hl hsc).imp (hsr a ⟨fn, hfn, hl⟩) (hps a)
  · rw [hf]
    intro a fn hfn hl hclg
    rcases h.closing a fn hfn hl hclg with hs | hc | hp
    · exact .inl (hsr a ⟨fn, hfn, hl⟩ hs)
    · exact hch a fn hfn hl hclg hc
    · exact .inr (.inr (hps a hp))
  · rw [hf]
    exact hph
  · rw [hf]
    exact hsh
  · rw [hf, hu]
    exact h.users
  · rw [hf, ho]
    exact h.ops
  · rw [hms]
    exact h.misused

theorem Served.inbox {a : Nat} (h : s.Served a)
    (hds : ∀ b, s.phase ≠ .dispatching b)
    (htd : s.phase.todo = none) : a ∈ s.events ∨ a ∈ s.batch := by
  rcases h with he | hb | hd | ⟨todo, ht, -⟩
  · exact .inl he
  · exact .inr hb
  · exact absurd hd (hds a)
  · rw [htd] at ht
    cases ht

theorem checking_of_phase {a : Nat} (h : s.Checking a)
    (hc : ∀ b, s.phase ≠ .checking b)
    (hf : ∀ b, s.phase ≠ .finishing b) : False :=
  h.elim (hc a) (hf a)

section

variable (h : Sound s)
include h

theorem Sound.round {f' : Phase}
    (hp : s.phase = f') (hd : ∀ b, f' ≠ .dispatching b)
    (hc : ∀ b, f' ≠ .checking b)
    (hf : ∀ b, f' ≠ .finishing b) (ht : f'.todo = none)
    (hfns : t.fns = s.fns) (hu : t.users = s.users)
    (ho : t.ops = s.ops) (hms : t.misused = s.misused)
    (hin : ∀ a, a ∈ s.events ∨ a ∈ s.batch → a ∈ t.events ∨ a ∈ t.batch)
    (hat : At s.fns t.phase) (hn : t.phase.todo = none)
    (hw : Wakes t) : Sound t := by
  subst hp
  refine h.move hfns hu ho hms (fun a _ ha => ?_)
    (fun a _ _ _ _ ha => ?_) hat (fun todo hs => ?_) hw
  · rcases hin a (ha.inbox hd ht) with he | hb
    exacts [.inl he, .inr (.inl hb)]
  · exact (checking_of_phase ha hc hf).elim
  · rw [hn] at hs
    cases hs

theorem Sound.receive (hn : s.next .receive = some t) :
    Sound t := by
  dsimp only [Env.next] at hn
  split at hn
  · next hg =>
    obtain ⟨hph, -⟩ := hg
    cases hn
    obtain ⟨hc, -, hw⟩ := h.wakes
    refine h.round hph nofun nofun nofun rfl rfl rfl rfl rfl
      (fun _ => id) trivial rfl ⟨fun _ => hc (.inl hph),
        fun _ => .inr rfl, fun he => ?_⟩
    rcases hw he with hp | ha | ht
    · exact .inl hp
    · rw [hph] at ha
      cases ha
    · rw [hph] at ht
      cases ht
  · cases hn

theorem Sound.clear (hn : s.next .clear = some t) :
    Sound t := by
  dsimp only [Env.next] at hn
  split at hn
  · next hp =>
    cases hn
    exact h.round hp nofun nofun nofun rfl rfl rfl rfl rfl
      (fun _ => id) trivial rfl ⟨fun _ => h.wakes.calm (.inr (.inl hp)),
        nofun, fun _ => .inr (.inl rfl)⟩
  · cases hn

theorem Sound.serve (hn : s.next .serve = some t) :
    Sound t := by
  dsimp only [Env.next] at hn
  split at hn
  · next hp =>
    cases hn
    obtain ⟨hc, hpn, -⟩ := h.wakes
    refine h.round hp nofun nofun nofun rfl rfl rfl rfl rfl
      (fun _ => id) trivial rfl ⟨fun _ => hc (.inl hp),
        fun hs => ?_, fun _ => .inr (.inl rfl)⟩
    refine .inl ((hpn hs).resolve_right fun hw => ?_)
    rw [hp] at hw
    cases hw
  · cases hn

theorem Sound.take (hn : s.next .take = some t) :
    Sound t := by
  dsimp only [Env.next] at hn
  split at hn
  · next hp =>
    cases hn
    obtain ⟨hc, hpn, -⟩ := h.wakes
    have hb := hc (.inr (.inr hp))
    refine h.round hp nofun nofun nofun rfl rfl rfl rfl rfl
      (fun a ha => ?_) trivial rfl
      ⟨by simp, fun hs => ?_, fun hne => absurd rfl hne⟩
    · rw [hb] at ha
      exact .inr (ha.resolve_right not_mem_nil)
    · refine .inl ((hpn hs).resolve_right fun hw => ?_)
      rw [hp] at hw
      cases hw
  · cases hn

theorem Sound.over {phase : Phase}
    (hph : s.phase = .pumping) (hb : s.batch = [])
    (hto : phase = .awake ∨ phase = .asleep) :
    Sound { s with phase } := by
  obtain ⟨-, hpn, hwk⟩ := h.wakes
  have hset : s.pending = true → 0 < s.messages := fun hset => by
    refine (hpn hset).resolve_right fun hw => ?_
    rw [hph] at hw
    cases hw
  have hevs : s.events ≠ [] → s.pending = true := fun hne => by
    rcases hwk hne with hp | ha | ht
    · exact hp
    · rw [hph] at ha
      cases ha
    · rw [hph] at ht
      cases ht
  rcases hto with rfl | rfl
  · exact h.round hph nofun nofun nofun rfl rfl rfl rfl rfl
      (fun _ => id) trivial rfl ⟨fun _ => hb,
        fun hp => .inl (hset hp), fun hne => .inl (hevs hne)⟩
  · exact h.round hph nofun nofun nofun rfl rfl rfl rfl rfl
      (fun _ => id) trivial rfl ⟨fun _ => hb,
        fun hp => .inl (hset hp), fun hne => .inl (hevs hne)⟩

omit h in
theorem Wakes.busy (h : Wakes s) (he : t.events = s.events)
    (hpn : t.pending = s.pending) (hms : t.messages = s.messages)
    (haw : s.phase ≠ .woken ∧ s.phase ≠ .awake)
    (hc : t.phase ≠ .asleep ∧ t.phase ≠ .woken ∧ t.phase ≠ .awake)
    (htd : s.phase.todo.isSome = true → t.phase.todo.isSome = true) :
    Wakes t := by
  refine ⟨fun hp => ?_, fun hp => ?_, fun hne => ?_⟩
  · rcases hp with hp | hp | hp
    exacts [absurd hp hc.1, absurd hp hc.2.1, absurd hp hc.2.2]
  · rw [hms]
    exact .inl ((h.pending (hpn ▸ hp)).resolve_right haw.1)
  · rw [hpn]
    rcases h.wake (he ▸ hne) with hp | ha | ht
    exacts [.inl hp, absurd ha haw.2, .inr (.inr (htd ht))]

theorem Sound.dispatch (hn : s.next .dispatch = some t) :
    Sound t := by
  dsimp only [Env.next] at hn
  split at hn
  · next ts batch hp hbt =>
    cases hn
    by_cases hl : (s.fns[ts]?).any (·.live) = true
    · rw [if_pos hl]
      refine h.move rfl rfl rfl rfl (fun a _ ha => ?_) (fun a _ _ _ _ ha =>
        (checking_of_phase ha (by simp [hp]) (by simp [hp])).elim) ?_ nofun
        (h.wakes.busy rfl rfl rfl (by simp [hp]) (by simp)
          (by simp [hp, Phase.todo]))
      · rcases ha.inbox (by simp [hp]) (by rw [hp]; rfl)
          with he | hb
        · exact .inl he
        · rw [hbt] at hb
          rcases mem_cons.1 hb with rfl | hb
          exacts [.inr (.inr (.inl rfl)), .inr (.inl hb)]
      · obtain ⟨fn, hfn, hf⟩ := (any_eq_true _ _).1 hl
        exact ⟨fn, hfn, hf⟩
    · rw [if_neg hl]
      refine h.move rfl rfl rfl rfl (fun a ha hs => ?_)
        (fun a _ _ _ _ ha => (checking_of_phase ha (by simp [hp])
          (by simp [hp])).elim) trivial nofun
        (h.wakes.busy rfl rfl rfl (by simp [hp]) (by simp)
          (by simp [hp, Phase.todo]))
      rcases hs.inbox (by simp [hp]) (by rw [hp]; rfl)
        with he | hb
      · exact .inl he
      · rw [hbt] at hb
        rcases mem_cons.1 hb with rfl | hb
        · -- the event of a freed function is passed over
          obtain ⟨fn, hfn, hf⟩ := ha
          exact absurd ((any_eq_true _ _).2 ⟨fn, hfn, hf⟩) hl
        · exact .inr (.inl hb)
  · cases hn

theorem Sound.replace {a : Nat} {fn fn' : Tsfn}
    (hfn : s.fns[a]? = some fn) (hl : fn.live = true) (hok : fn'.Ok)
    (hl' : fn'.live = true) (hfns : t.fns = s.fns.insert a fn')
    (hu : t.users = s.users) (ho : t.ops = s.ops)
    (hms : t.misused = s.misused)
    (hsc : fn'.scheduled = true → t.Served a)
    (hclg : fn'.closing = true → t.Served a ∨ t.Checking a)
    (hsr : ∀ b, b ≠ a → s.Served b → t.Served b)
    (hch : ∀ b, b ≠ a → ¬ s.Checking b)
    (hph : At t.fns t.phase)
    (hsh : ∀ td, t.phase.todo = some td → ∀ b, Live s.fns b → b ∈ td)
    (hw : Wakes t) : Sound t := by
  have hget : ∀ b : Nat, t.fns[b]? = if a = b then some fn'
      else s.fns[b]? := fun b => by rw [hfns, get_insert]
  have hsm : ∀ b, Live t.fns b ↔ Live s.fns b := by
    intro b
    unfold Live
    rw [hget]
    split
    · next heq =>
      subst heq
      rw [hfn]
      simp [hl, hl']
    · exact Iff.rfl
  have hps : ∀ b, s.Posting b → t.Posting b := fun b hb => by
    unfold Posting
    rw [ho]
    exact hb
  refine ⟨?_, ?_, ?_, hph, ?_, hw, ?_, ?_, ?_⟩
  · intro b f hf
    rw [hget] at hf
    split at hf
    · cases hf
      exact hok
    · exact h.fns b f hf
  · intro b f hf hfo hs
    rw [hget] at hf
    split at hf
    · next heq =>
      subst heq
      cases hf
      exact .inl (hsc hs)
    · next hne =>
      exact (h.scheduled b f hf hfo hs).imp (hsr b (Ne.symm hne)) (hps b)
  · intro b f hf hfo hc
    rw [hget] at hf
    split at hf
    · next heq =>
      subst heq
      cases hf
      exact (hclg hc).imp_right .inl
    · next hne =>
      rcases h.closing b f hf hfo hc with hs | hck | hp
      · exact .inl (hsr b (Ne.symm hne) hs)
      · exact absurd hck (hch b (Ne.symm hne))
      · exact .inr (.inr (hps b hp))
  · intro td ht b hb
    exact hsh td ht b ((hsm b).1 hb)
  · rw [hu]
    exact fun e hen => (hsm _).2 (h.users e hen)
  · rw [ho]
    exact fun thread op hop => (hsm _).2 (h.ops thread op hop)
  · rw [hms]
    exact h.misused

theorem Sound.pop (hn : s.next .pop = some t) :
    Sound t := by
  dsimp only [Env.next] at hn
  split at hn
  · next a hp =>
    obtain ⟨fn, hfn, hbd⟩ := map_eq_some_iff.1 hn
    have hok := h.fns a fn hfn
    have hl : fn.live = true := by
      have hat := h.phase
      rw [hp] at hat
      obtain ⟨fn₀, hfn₀, hlive₀⟩ := hat
      rw [hfn] at hfn₀
      cases hfn₀
      exact hlive₀
    have hin : ∀ b, b ≠ a → s.Served b →
        b ∈ s.events ∨ b ∈ s.batch := by
      rintro b hne (he | hb | hd | ⟨td, ht, -⟩)
      · exact .inl he
      · exact .inr hb
      · rw [hp] at hd
        cases hd
        exact absurd rfl hne
      · rw [hp] at ht
        cases ht
    have hnc : ∀ b, b ≠ a → ¬ s.Checking b := fun b _ hb =>
      checking_of_phase hb (by simp [hp]) (by simp [hp])
    split at hbd
    · next hq =>
      subst hbd
      refine @Sound.replace _ _ h a fn { fn with scheduled := false }
        hfn hl ?_ hl rfl rfl rfl rfl nofun
        (fun _ => .inr (.inl rfl)) (fun b hne hb => ?_) hnc ?_
        nofun (h.wakes.busy rfl rfl rfl (by simp [hp]) (by simp)
          (by simp [hp, Phase.todo]))
      · exact ⟨hok.books, hok.drops, hok.finalized, hok.gone,
          fun hne => absurd hq hne⟩
      · exact (hin b hne hb).imp_right .inl
      · exact ⟨_, get_insert_self _ _ _, hl⟩
    · next i q hq =>
      subst hbd
      have hl' : (popTsfn fn i q).live = true := by
        unfold popTsfn
        split <;> exact hl
      have hs : (s.setFn a (popTsfn fn i q)).Served a := .inr (.inr (.inl hp))
      refine h.replace hfn hl (hok.pop hl hq) hl' rfl rfl
        rfl rfl (fun _ => hs) (fun _ => .inl hs)
        (fun b hne hb => (hin b hne hb).imp_right .inl) hnc ?_
        ?_ ⟨h.wakes.calm, h.wakes.pending, h.wakes.wake⟩
      · show At _ s.phase
        rw [hp]
        exact ⟨_, get_insert_self _ _ _, hl'⟩
      · intro td htd
        rw [show (s.setFn a _).phase = .dispatching a from hp] at htd
        cases htd
  · cases hn

theorem Sound.check (hn : s.next .check = some t) :
    Sound t := by
  dsimp only [Env.next] at hn
  split at hn
  · next a hph =>
    obtain ⟨fn, hfn, rfl⟩ := map_eq_some_iff.1 hn
    have hat := h.phase
    rw [hph] at hat
    have hin : ∀ b, s.Served b → b ∈ s.events ∨ b ∈ s.batch :=
      fun b hb => hb.inbox (by simp [hph]) (by rw [hph]; rfl)
    have ho : ∀ b, s.Checking b → b = a := by
      rintro b (hb | hb)
      · rw [hph] at hb
        cases hb
        rfl
      · rw [hph] at hb
        cases hb
    split
    · next hd =>
      refine h.move rfl rfl rfl rfl
        (fun b _ hb => (hin b hb).imp_right .inl)
        (fun b _ _ _ _ hb => ?_) ⟨hat, fun fn' hfn' => ?_⟩ nofun
        (h.wakes.busy rfl rfl rfl (by simp [hph]) (by simp)
          (by simp [hph, Phase.todo]))
      · cases ho b hb
        exact .inr (.inl (.inr rfl))
      · rw [hfn] at hfn'
        cases hfn'
        exact hd
    · next hmr =>
      refine h.move rfl rfl rfl rfl
        (fun b _ hb => (hin b hb).imp_right .inl)
        (fun b fn' hfn' hl hc hb => ?_) trivial nofun
        (h.wakes.busy rfl rfl rfl (by simp [hph]) (by simp)
          (by simp [hph, Phase.todo]))
      -- something came in since the queue was found empty
      cases ho b hb
      rw [hfn] at hfn'
      cases hfn'
      have hq : fn.queue ≠ [] := fun hnn =>
        hmr ⟨hc, hnn⟩
      have hsc := (h.fns _ fn hfn).scheduled hq
      rcases h.scheduled _ fn hfn hl hsc with hs | hp
      · exact .inl ((hin _ hs).imp_right .inl)
      · exact .inr (.inr hp)
  · cases hn

theorem Sound.free {a : Nat} {fn : Tsfn} {phase : Phase}
    (hfn : s.fns[a]? = some fn) (hl : fn.live = true)
    (hclg : fn.closing = true)
    (hr : fn.queue ≠ [] → fn.aborted = true ∧ fn.callJs = false)
    (hu : s.Unused a)
    (hsr : ∀ b, b ≠ a → s.Served b →
      Served { s.setFn a (finishTsfn fn) with phase } b)
    (hch : ∀ b, b ≠ a → ¬ s.Checking b)
    (hph : At (s.fns.insert a (finishTsfn fn)) phase)
    (hsh : ∀ todo, phase.todo = some todo → ∀ b, b ≠ a →
      Live s.fns b → b ∈ todo)
    (hw : Wakes { s.setFn a (finishTsfn fn) with phase }) :
    Sound { s.setFn a (finishTsfn fn) with phase } := by
  have hk : ∀ b, b ≠ a → Live s.fns b →
      Live (s.fns.insert a (finishTsfn fn)) b := by
    rintro b hne ⟨found, hfo, hf⟩
    refine ⟨found, ?_, hf⟩
    rw [get_insert_ne _ _ (Ne.symm hne)]
    exact hfo
  have ho : ∀ (b : Nat) found,
      (s.fns.insert a (finishTsfn fn))[b]? = some found →
        found.live = true → b ≠ a ∧ s.fns[b]? = some found := by
    intro b found hfo hf
    rw [get_insert] at hfo
    split at hfo
    · cases hfo
      cases hf
    · next hne => exact ⟨Ne.symm hne, hfo⟩
  refine ⟨?_, ?_, ?_, hph, ?_, hw, ?_, ?_, h.misused⟩
  · intro b found hfo
    have hget := get_insert s.fns a b (finishTsfn fn)
    rcases Classical.em (a = b) with rfl | hne
    · rw [if_pos rfl] at hget
      cases hget.symm.trans hfo
      exact (h.fns _ fn hfn).finish hl hclg hr
    · rw [if_neg hne] at hget
      exact h.fns b found (hget.symm.trans hfo)
  · intro b found hfo hf hs
    obtain ⟨hne, hold⟩ := ho b found hfo hf
    exact (h.scheduled b found hold hf hs).imp_left (hsr b hne)
  · intro b found hfo hf hc
    obtain ⟨hne, hold⟩ := ho b found hfo hf
    rcases h.closing b found hold hf hc with hs | hck | hp
    · exact .inl (hsr b hne hs)
    · exact absurd hck (hch b hne)
    · exact .inr (.inr hp)
  · rintro todo ht b ⟨found, hfo, hf⟩
    obtain ⟨hne, hold⟩ := ho b found hfo hf
    exact hsh todo ht b hne ⟨found, hold, hf⟩
  · intro entry hen
    exact hk _ (hu.1 entry hen) (h.users entry hen)
  · intro thread op hop
    exact hk _ (hu.2 (thread, op) (mem_toList.2 hop)) (h.ops thread op hop)

theorem Sound.finish (hord : s.Ordered .finish)
    (hn : s.next .finish = some t) : Sound t := by
  dsimp only [Env.next] at hn
  dsimp only [Env.Ordered] at hord
  split at hn
  · next a hp =>
    obtain ⟨fn, hfn, rfl⟩ := map_eq_some_iff.1 hn
    rw [hp] at hord
    have hat := h.phase
    rw [hp] at hat
    obtain ⟨⟨fn₀, hfn₀, hl⟩, hdn⟩ := hat
    rw [hfn] at hfn₀
    cases hfn₀
    obtain ⟨hclg, hq⟩ := hdn fn hfn
    refine h.free hfn hl hclg (fun hne => absurd hq hne)
      hord (fun b hne hb => ?_) (fun b hne hb => ?_) trivial
      (by rintro _ ⟨⟩)
      (h.wakes.busy rfl rfl rfl (by simp [hp]) (by simp)
        (by simp [hp, Phase.todo]))
    · exact (hb.inbox (by simp [hp]) (by rw [hp]; rfl)).imp_right .inl
    · rcases hb with hb | hb
      · rw [hp] at hb
        cases hb
      · rw [hp] at hb
        cases hb
        exact hne rfl
  · next a todo hp =>
    obtain ⟨fn, hfn, rfl⟩ := map_eq_some_iff.1 hn
    rw [hp] at hord
    have hat := h.phase
    rw [hp] at hat
    obtain ⟨hnt, hnd⟩ := nodup_cons.1 hat.nodup
    obtain ⟨fn₀, hfn₀, hl⟩ := hat.live a mem_cons_self
    rw [hfn] at hfn₀
    cases hfn₀
    obtain ⟨hclg, ha, hq⟩ := hat.first a rfl fn hfn
    have hlf : ∀ b, b ≠ a → b ∈ a :: todo → b ∈ todo :=
      fun b hne hb => (mem_cons.1 hb).resolve_left hne
    refine h.free hfn hl hclg (fun hne => ⟨ha, ?_⟩)
      hord (fun b hne hb => ?_) (fun b hne hb => ?_)
      ⟨hnd, fun b hb => ?_, fun _ _ _ _ => trivial⟩ ?_
      (h.wakes.busy rfl rfl rfl (by simp [hp]) (by simp) fun _ => rfl)
    · by_contra hcallJs
      exact hne (hq (by simpa using hcallJs))
    · rcases hb with he | hb | hd | ⟨todo', ht, hb⟩
      · exact .inl he
      · exact .inr (.inl hb)
      · rw [hp] at hd
        cases hd
      · rw [hp] at ht
        cases ht
        exact .inr (.inr (.inr ⟨todo, rfl, hlf b hne hb⟩))
    · exact checking_of_phase hb (by simp [hp]) (by simp [hp])
    · obtain ⟨found, hfo, hf⟩ :=
        hat.live b (mem_cons_of_mem a hb)
      refine ⟨found, ?_, hf⟩
      rw [get_insert_ne]
      · exact hfo
      · rintro rfl
        exact hnt hb
    · rintro todo' htd b hne hb
      cases htd
      refine hlf b hne (h.shut (a :: todo) ?_ b hb)
      rw [hp]
      rfl
  · cases hn

end

theorem mem_liveFns {a : Nat} : a ∈ s.liveFns ↔ Live s.fns a := by
  unfold liveFns Live
  simp only [List.mem_map, mem_filter, Prod.exists, exists_and_right,
    exists_eq_right, Table.mem_toList]

theorem liveFns_nodup (s : Env) : s.liveFns.Nodup :=
  (keys_toList_nodup s.fns).sublist (filter_sublist.map Prod.fst)

section

variable (h : Sound s)
include h

theorem Sound.shutdown {order : List Nat}
    (hn : s.next (.shutdown order) = some t) : Sound t := by
  dsimp only [Env.next] at hn
  split at hn
  · next hg =>
    obtain ⟨hp, ho⟩ := hg
    cases hn
    have hmem : ∀ a, Live s.fns a ↔ a ∈ order := fun a =>
      mem_liveFns.symm.trans ho.mem_iff.symm
    obtain ⟨-, hpn, hwk⟩ := h.wakes
    refine h.move rfl rfl rfl rfl (fun a ha _ => ?_)
      (fun a _ _ _ _ ha => (checking_of_phase ha (by simp [hp])
        (by simp [hp])).elim)
      ⟨ho.nodup_iff.2 s.liveFns_nodup, fun a => (hmem a).2,
        fun _ _ _ _ => trivial⟩ (fun todo ht a ha => ?_)
      ⟨by simp, fun hset => ?_, fun _ => .inr (.inr rfl)⟩
    · exact .inr (.inr (.inr ⟨order, rfl, (hmem a).1 ha⟩))
    · cases ht
      exact (hmem a).1 ha
    · refine .inl ((hpn hset).resolve_right fun hw => ?_)
      rw [hp] at hw
      cases hw
  · cases hn

omit h in
theorem served_shut {todo : List Nat}
    (htd : s.phase.todo = some todo) {a : Nat} {fn' : Tsfn}
    {phase : Phase} (hp : phase.todo = some todo) (hb : s.Served b) :
    Served { s.setFn a fn' with phase } b := by
  rcases hb with he | hb | hd | ⟨todo', ht, hb⟩
  · exact .inl he
  · exact .inr (.inl hb)
  · rw [hd] at htd
    cases htd
  · rw [htd] at ht
    cases ht
    exact .inr (.inr (.inr ⟨todo, hp, hb⟩))

theorem Sound.shut_step {a : Nat} {todo : List Nat}
    {fn fn' : Tsfn} {phase : Phase} {before after : Tsfn → Prop}
    (hfn : s.fns[a]? = some fn) (ht : s.phase.todo = some (a :: todo))
    (hlf : Todo s.fns (a :: todo) before) (hok : fn'.Ok)
    (hl' : fn'.live = fn.live) (hph : phase.todo = some (a :: todo))
    (hat : ∀ fns, Todo fns (a :: todo) after → At fns phase)
    (ha : after fn') : Sound { s.setFn a fn' with phase } := by
  have hl : fn.live = true := by
    obtain ⟨fn₀, hfn₀, hl⟩ := hlf.live a mem_cons_self
    rw [hfn] at hfn₀
    cases hfn₀
    exact hl
  have hs : Served { s.setFn a fn' with phase } a :=
    .inr (.inr (.inr ⟨a :: todo, hph, mem_cons_self⟩))
  have hn : ∀ b, ¬ s.Checking b := fun b hb => by
    rcases hb with hb | hb
    · rw [hb] at ht
      cases ht
    · rw [hb] at ht
      cases ht
  have hnot : ∀ p : Phase, p.todo = none → phase ≠ p ∧ s.phase ≠ p := by
    rintro p hp
    constructor
    · rintro rfl
      rw [hp] at hph
      cases hph
    · rintro rfl
      rw [hp] at ht
      cases ht
  refine h.replace hfn hl hok (hl'.trans hl) rfl rfl rfl rfl
    (fun _ => hs) (fun _ => .inl hs)
    (fun b _ hb => served_shut ht hph hb)
    (fun b _ => hn b) (hat _ ?_) ?_
    (h.wakes.busy rfl rfl rfl ⟨(hnot _ rfl).2, (hnot _ rfl).2⟩
      ⟨(hnot _ rfl).1, (hnot _ rfl).1, (hnot _ rfl).1⟩ fun _ => ?_)
  · refine ⟨hlf.nodup, fun b hb => ?_, fun b hb found hf => ?_⟩
    · obtain ⟨found, hf, hfo⟩ := hlf.live b hb
      by_cases heq : a = b
      · subst heq
        exact ⟨fn', get_insert_self _ _ _, hl'.trans hl⟩
      · exact ⟨found, (get_insert_ne _ _ heq).trans hf, hfo⟩
    · cases hb
      cases (get_insert_self s.fns a fn').symm.trans hf
      exact ha
  · intro todo' ht' b hb
    rw [show _ = some (a :: todo) from hph] at ht'
    cases ht'
    exact h.shut _ ht b hb
  · show phase.todo.isSome = true
    rw [hph]
    rfl

theorem Sound.close (hn : s.next .close = some t) :
    Sound t := by
  dsimp only [Env.next] at hn
  split at hn
  · next a todo hp =>
    obtain ⟨fn, hfn, rfl⟩ := map_eq_some_iff.1 hn
    have hat := h.phase
    rw [hp] at hat
    have hok := (h.fns a fn hfn).close true fn.threads
    rw [Bool.or_true] at hok
    exact h.shut_step hfn (by rw [hp]; rfl) hat hok rfl rfl
      (fun _ => id) ⟨rfl, rfl⟩
  · cases hn

theorem Sound.drain (hn : s.next .drain = some t) :
    Sound t := by
  dsimp only [Env.next] at hn
  split at hn
  · next a todo hp =>
    obtain ⟨fn, hfn, rfl⟩ := map_eq_some_iff.1 hn
    have hat := h.phase
    rw [hp] at hat
    obtain ⟨hclg, ha⟩ := hat.first a rfl fn hfn
    obtain ⟨fn₀, hfn₀, hl⟩ := hat.live a mem_cons_self
    rw [hfn] at hfn₀
    cases hfn₀
    have hok := h.fns a fn hfn
    split
    · next hj =>
      exact h.shut_step hfn (by rw [hp]; rfl) hat
        (hok.drain hl hj) rfl rfl (fun _ => id)
        ⟨hclg, ha, fun _ => rfl⟩
    · next hj =>
      exact h.shut_step hfn (by rw [hp]; rfl) hat hok rfl rfl
        (fun _ => id)
        ⟨hclg, ha, fun hyes => absurd hyes hj⟩
  · cases hn

theorem Sound.stop (hn : s.next .stop = some t) :
    Sound t := by
  dsimp only [Env.next] at hn
  split at hn
  · next hp =>
    cases hn
    have hnn : ∀ a, ¬ Live s.fns a := fun a ha => by
      have := h.shut [] (by rw [hp]; rfl) a ha
      cases this
    refine h.move rfl rfl rfl rfl (fun a ha _ => absurd ha (hnn a))
      (fun a fn hfn hl _ _ => absurd ⟨fn, hfn, hl⟩ (hnn a))
      trivial (fun _ _ a ha => absurd ha (hnn a))
      (h.wakes.busy rfl rfl rfl (by simp [hp]) (by simp) fun _ => rfl)
  · cases hn

theorem Sound.create {a mq : Nat} {u : List Nat}
    {cj : Bool}
    (hr : s.Ordered (.create a u cj mq))
    (hnx : s.next (.create a u cj mq) = some t) :
    Sound t := by
  dsimp only [Env.next] at hnx
  split at hnx
  · next hg =>
    obtain ⟨hnew, -⟩ := hg
    cases hnx
    have ht : s.phase.todo = none := hr
    have hne : ∀ b, Live s.fns b → a ≠ b := by
      rintro b ⟨f, hf, -⟩ rfl
      rw [hnew] at hf
      cases hf
    have hk : ∀ b, Live s.fns b → ∀ fn', Live (s.fns.insert a fn') b :=
      fun b hb fn' => by
        obtain ⟨f, hf, hl⟩ := hb
        refine ⟨f, ?_, hl⟩
        rw [get_insert_ne _ _ (hne b ⟨f, hf, hl⟩)]
        exact hf
    refine ⟨?_, ?_, ?_, ?_, ?_, ⟨h.wakes.calm, h.wakes.pending,
      h.wakes.wake⟩, ?_, ?_, h.misused⟩
    · intro b f hf
      rw [get_insert] at hf
      split at hf
      · cases hf
        exact ⟨rfl, fun hn => absurd rfl hn, rfl, nofun,
          fun hn => absurd rfl hn⟩
      · exact h.fns b f hf
    · intro b f hf hl hs
      rw [get_insert] at hf
      split at hf
      · cases hf
        cases hs
      · exact h.scheduled b f hf hl hs
    · intro b f hf hl hc
      rw [get_insert] at hf
      split at hf
      · cases hf
        cases hc
      · exact h.closing b f hf hl hc
    · show At _ s.phase
      have hat := h.phase
      cases hp : s.phase with
      | dispatching b =>
        rw [hp] at hat
        exact hk b hat _
      | checking b =>
        rw [hp] at hat
        exact hk b hat _
      | finishing b =>
        rw [hp] at hat
        refine ⟨hk b hat.1 _, fun f hf => ?_⟩
        rw [get_insert_ne _ _ (hne b hat.1)] at hf
        exact hat.2 f hf
      | shutting td =>
        rw [hp] at ht
        cases ht
      | draining td =>
        rw [hp] at ht
        cases ht
      | ending td =>
        rw [hp] at ht
        cases ht
      | asleep => trivial
      | woken => trivial
      | awake => trivial
      | pumping => trivial
      | down => trivial
    · intro td hsm
      rw [show s.phase.todo = some td from hsm] at ht
      cases ht
    · intro e hen
      rcases mem_append.1 hen with hnw | ho
      · obtain ⟨user, -, rfl⟩ := mem_map.1 hnw
        exact ⟨_, get_insert_self _ _ _, rfl⟩
      · exact hk _ (h.users e ho) _
    · intro thread op hop
      exact hk _ (h.ops thread op hop) _
  · cases hnx

theorem Sound.next {action : Action}
    (hord : s.Ordered action) (hn : s.next action = some t) :
    Sound t := by
  cases action with
  | create a users callJs maxQueue => exact h.create hord hn
  | call thread a item blocking =>
    dsimp only [Env.next] at hn
    split at hn
    · next hg =>
      refine h.touch (h.users _ hg.1) (fun fn hfn hl hok => ?_) hn
      refine callTsfn_touched hfn hl hok fun b hb => ?_
      rw [hg.2] at hb
      cases hb
    · cases hn
  | resume thread =>
    dsimp only [Env.next] at hn
    split at hn
    · next a item hop =>
      refine h.touch (h.ops thread _ hop) (fun fn hfn hl hok => ?_) hn
      refine callTsfn_touched hfn hl hok fun b hb => ?_
      rw [hop] at hb
      cases hb
    · cases hn
  | post thread =>
    dsimp only [Env.next] at hn
    split at hn
    · next a hop =>
      obtain ⟨fn, hfn, hl⟩ := h.ops thread _ hop
      unfold Env.touch at hn
      rw [show s.fns[a]? = some fn from hfn] at hn
      simp only [map_some, hl, if_true] at hn
      cases hn
      exact h.post hop
    · cases hn
  | acquire thread a other =>
    dsimp only [Env.next] at hn
    split at hn
    · next hg =>
      exact h.touch (h.users _ hg.1)
        (fun fn hfn _ hok => acquireTsfn_touched hfn hok) hn
    · cases hn
  | release thread a abort =>
    dsimp only [Env.next] at hn
    split at hn
    · next hg =>
      refine h.touch (h.users _ hg.1) (fun fn hfn _ hok => ?_) hn
      refine releaseTsfn_touched hfn hok fun b hb => ?_
      rw [hg.2] at hb
      cases hb
    · cases hn
  | receive => exact h.receive hn
  | clear => exact h.clear hn
  | serve => exact h.serve hn
  | take => exact h.take hn
  | again =>
    dsimp only [Env.next] at hn
    split at hn
    · next hg =>
      cases hn
      exact h.over hg.1 hg.2 (.inl rfl)
    · cases hn
  | rest =>
    dsimp only [Env.next] at hn
    split at hn
    · next hg =>
      cases hn
      exact h.over hg.1 hg.2 (.inr rfl)
    · cases hn
  | dispatch => exact h.dispatch hn
  | pop => exact h.pop hn
  | check => exact h.check hn
  | finish => exact h.finish hord hn
  | shutdown order => exact h.shutdown hn
  | close => exact h.close hn
  | drain => exact h.drain hn
  | stop => exact h.stop hn

end

-- ==== results

/-- What threadsafe functions promise in every state. -/
structure Law (s : Env) : Prop where
  /-- what was accepted is handed over in this order, each item once; only
  an aborted function without a native callback drops what is left -/
  inOrder : ∀ (a : Nat) fn, s.fns[a]? = some fn →
    fn.accepted = fn.handed ++ fn.dropped ++ fn.queue
      ∧ (fn.dropped ≠ [] → fn.aborted = true ∧ fn.callJs = false)
  /-- a function with work is named, and the owner is awake or woken -/
  named : ∀ (a : Nat) fn, s.fns[a]? = some fn → fn.live = true →
    ¬ s.Posting a → fn.queue ≠ [] ∨ fn.closing = true →
      (s.Served a ∨ s.Checking a) ∧ (0 < s.messages ∨ s.phase ≠ .asleep)
  finalized : ∀ (a : Nat) fn, s.fns[a]? = some fn →
    fn.finalized = (if fn.live then 0 else 1)
      ∧ (fn.live = false → fn.closing = true ∧ fn.queue = [])
  /-- no step read a record that was freed -/
  used : s.misused = false

theorem Sound.woken (h : Sound s) (hph : s.phase = .asleep) {a : Nat}
    (hn : s.Served a ∨ s.Checking a) : 0 < s.messages := by
  obtain ⟨hcl, hpn, hwk⟩ := h.wakes
  have hevs : s.events ≠ [] := by
    rcases hn with hs | hc
    · rcases hs.inbox (by simp [hph]) (by rw [hph]; rfl)
        with he | hb
      · exact ne_nil_of_mem he
      · rw [hcl (.inl hph)] at hb
        cases hb
    · exact (checking_of_phase hc (by simp [hph]) (by simp [hph])).elim
  have hset : s.pending = true := by
    rcases hwk hevs with hp | ha | ht
    · exact hp
    · rw [hph] at ha
      cases ha
    · rw [hph] at ht
      cases ht
  refine (hpn hset).resolve_right fun hw => ?_
  rw [hph] at hw
  cases hw

theorem Sound.law (h : Sound s) : Law s := by
  refine ⟨fun a fn hfn => ?_, fun a fn hfn hl hps hw => ?_,
    fun a fn hfn => ?_, h.misused⟩
  · exact ⟨(h.fns a fn hfn).books, (h.fns a fn hfn).drops⟩
  · have hn : s.Served a ∨ s.Checking a := by
      rcases hw with hq | hc
      · have hs := (h.fns a fn hfn).scheduled hq
        exact .inl ((h.scheduled a fn hfn hl hs).resolve_right hps)
      · exact (h.closing a fn hfn hl hc).imp_right fun hr =>
          hr.resolve_right hps
    refine ⟨hn, ?_⟩
    by_cases hp : s.phase = .asleep
    · exact .inl (h.woken hp hn)
    · exact .inr hp
  · exact ⟨(h.fns a fn hfn).finalized, (h.fns a fn hfn).gone⟩

theorem new_sound : Sound new := by
  have hn : ∀ (a : Nat) fn, new.fns[a]? ≠ some fn := fun a fn hfn => by
    cases hfn
  refine ⟨fun a fn hfn => absurd hfn (hn a fn),
    fun a fn hfn => absurd hfn (hn a fn),
    fun a fn hfn => absurd hfn (hn a fn), trivial, nofun,
    ⟨fun _ => rfl, nofun, fun hne => absurd rfl hne⟩, nofun,
    fun thread op hop => ?_, rfl⟩
  cases hop

/-- Every run in which a record is freed only when no thread uses it is
lawful. -/
theorem nothing_stranded {t : Env}
    (hrun : Run (fun s action t => s.next action = some t) Ordered new t) :
    Law t := by
  have hs : Sound t := hrun.invariant new_sound
    fun _ _ _ hinv hord hn => hinv.next hord hn
  exact hs.law

/-- One call and one release, posted before the owner looks. -/
def callAndRelease : List Action :=
  [.create 7 [1] true 0, .call 1 7 42 false, .post 1, .release 1 7 false,
    .post 1, .receive, .clear, .take, .dispatch, .pop, .pop, .check,
    .finish, .dispatch, .rest]

theorem call_and_release_lawful :
    ∃ t, Run (fun s action t => s.next action = some t) Ordered new t
      ∧ (t.fns[(7 : Nat)]?).any (fun fn => fn.handed = [42]
        && fn.finalized = 1) = true ∧ Law t := by
  have hen : (runWhile next (fun s action => decide (s.Ordered action))
      new callAndRelease).any (fun t =>
        (t.fns[(7 : Nat)]?).any fun fn => fn.handed = [42]
          && fn.finalized = 1) = true := by
    decide +kernel
  obtain ⟨t, ht, hfn⟩ := (any_eq_true _ _).1 hen
  have hrun := @Run.of_runWhile _ _ _ _ Ordered
    (fun _ _ => of_decide_eq_true) _ _ _ .refl _ ht
  exact ⟨t, hrun, hfn, nothing_stranded hrun⟩

/-- The owner is still emptying the queue when the thread releases: it
frees the record before the thread posts. -/
def freedBeforePost : List Action :=
  [.create 7 [1] true 0, .call 1 7 42 false, .post 1, .receive, .clear,
    .take, .dispatch, .pop, .release 1 7 false, .pop, .check, .finish,
    .post 1]

/-- A thread that only calls and releases reads a record that is freed. -/
theorem release_reads_freed :
    ∃ t, runActions next new freedBeforePost = some t ∧ t.misused = true := by
  have hen : (runActions next new freedBeforePost).any (·.misused)
      = true := by
    decide +kernel
  exact (any_eq_true _ _).1 hen

end Env

end TikTools.Napi
