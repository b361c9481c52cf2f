/-
The log of a client: what is so of it in every run.

`Law` is what the cooldown is for. Three of its parts hold always
(`Books`): an operation is started only when the cooldown is over, a
record extends the cooldown, and the loop of a retried request counts its
attempts (`Budget`).
-/
import TikTools.Tiktok.Requests

namespace TikTools.Tiktok

open TikTools.Lib List Option Nat

/-- What was done, and when. -/
abbrev Log := List (Nat × Note)

-- ==== law

namespace Note

/-- An attempt of an operation is started. -/
def isStart (id number : Nat) : Note → Bool
  | .started i n _ => i == id && n == number
  | _ => false

/-- A call starts an operation or its caller has the answer. -/
def goesOn (id : Nat) : Note → Bool
  | .told i _ | .started i _ _ => i == id
  | _ => false

/-- An attempt is started or fails as rate limited. -/
def counts (id : Nat) : Note → Bool
  | .started i _ _ | .limited i _ _ _ => i == id
  | _ => false

end Note

/-- How often an operation was started. -/
def starts (log : Log) (id number : Nat) : Nat :=
  log.countP fun entry => entry.2.isStart id number

/-- Every rate limit of a call is recorded later on, with no less than
its delay. -/
def Recorded (log : Log) (id : Nat) : Prop :=
  ∀ before t number attempt retryAfter after,
    log = before ++ (t, .limited id number attempt retryAfter) :: after →
    ∃ t' delay, (t', Note.recorded id delay) ∈ after
      ∧ retryAfter.getD defaultDelay ≤ delay

structure Law (policy : ReconnectPolicy) (s : Client) : Prop where
  /-- No call starts an operation before the delay of a rate limit that
  was recorded is over. -/
  cooled : ∀ before t id delay after, s.log
      = before ++ (t, .recorded id delay) :: after →
    ∀ t' id' number attempt,
      (t', Note.started id' number attempt) ∈ after → t + delay ≤ t'
  /-- A call goes on, and its caller has an answer, only when every rate
  limit it met is recorded. -/
  remembered : ∀ before t note after id, s.log
      = before ++ (t, note) :: after →
    note.goesOn id = true → Recorded before id
  bounded : ∀ id number, starts s.log id number ≤ policy.maxAttempts + 1
  /-- The third rate limit of an operation is its end. -/
  final : ∀ before t id number attempt retryAfter after, s.log
      = before ++ (t, .limited id number attempt retryAfter) :: after →
    3 ≤ attempt → ∀ t' attempt', (t', Note.started id number attempt') ∉ after

-- ==== logs

theorem concat_eq_append_cons {α : Type} {log b a : List α}
    {x e : α} (h : log ++ [x] = b ++ e :: a) :
    (b = log ∧ e = x ∧ a = [])
      ∨ ∃ rest, a = rest ++ [x] ∧ log = b ++ e :: rest := by
  rcases eq_nil_or_concat a with rfl | ⟨rest, last, rfl⟩
  · obtain ⟨hlog, hl⟩ := append_inj' h rfl
    exact .inl ⟨hlog.symm, (List.cons.inj hl).1.symm, rfl⟩
  · rw [concat_eq_append] at h ⊢
    rw [← cons_append, ← append_assoc] at h
    obtain ⟨hlog, hl⟩ := append_inj' h rfl
    exact .inr ⟨rest, by rw [(List.cons.inj hl).1], hlog⟩

theorem starts_append (log notes : Log) (id number : Nat) :
    starts (log ++ notes) id number
      = starts log id number + starts notes id number :=
  countP_append

theorem starts_started (t id n a nu : Nat) :
    starts [(t, .started id n a)] id nu = if nu = n then 1 else 0 := by
  unfold starts
  by_cases h : nu = n
  · simp [Note.isStart, h]
  · simp [Note.isStart, h, Ne.symm h]

theorem starts_quiet {notes : Log} {id : Nat}
    (h : ∀ e ∈ notes, e.2.counts id = false) (nu : Nat) :
    starts notes id nu = 0 := by
  refine countP_eq_zero.2 ?_
  rintro ⟨t, no⟩ he hs
  have hq := h _ he
  cases no with
  | started i n k =>
    have hid : (i == id) = false := hq
    have hb : (i == id && n == nu) = true := hs
    rw [hid] at hb
    cases hb
  | _ => cases hs

/-- What is always so of a log; `expiry` is when the cooldown is over. -/
structure Books (policy : ReconnectPolicy) (log : Log) (expiry : Nat) :
    Prop where
  cooled : ∀ before t id delay after,
    log = before ++ (t, .recorded id delay) :: after →
    ∀ t' id' number attempt,
      (t', Note.started id' number attempt) ∈ after → t + delay ≤ t'
  covered : ∀ t id delay, (t, Note.recorded id delay) ∈ log →
    t + delay ≤ expiry
  bounded : ∀ id number, starts log id number ≤ policy.maxAttempts + 1
  final : ∀ before t id number attempt retryAfter after,
    log = before ++ (t, .limited id number attempt retryAfter) :: after →
    3 ≤ attempt → ∀ t' attempt', (t', Note.started id number attempt') ∉ after

variable {policy : ReconnectPolicy} {log : Log} {expiry now id : Nat}
  {call : Call} {cooldown : Cooldown}

/-- One more note. Only a start has something to answer for, and only a
record moves the cooldown. -/
theorem Books.note {note : Note} {later : Nat}
    (h : Books policy log expiry) (hlt : expiry ≤ later)
    (hs : ∀ id number a, note = .started id number a →
      expiry ≤ now ∧ starts log id number ≤ policy.maxAttempts
        ∧ ∀ t k ra, (t, Note.limited id number k ra) ∈ log → k < 3)
    (hrec : ∀ id delay, note = .recorded id delay → now + delay ≤ later) :
    Books policy (log ++ [(now, note)]) later := by
  refine ⟨?_, ?_, ?_, ?_⟩
  · intro before t i delay after heq t' i' number a hmem
    rcases concat_eq_append_cons heq with ⟨-, -, rfl⟩ | ⟨rest, rfl, hlog⟩
    · cases hmem
    · rcases mem_append.1 hmem with hmem | hl
      · exact h.cooled before t i delay rest hlog t' i' number a hmem
      · cases mem_singleton.1 hl
        have hc := h.covered t i delay (hlog ▸ mem_append_right _
          mem_cons_self)
        have hov := (hs i' number a rfl).1
        omega
  · intro t i delay hmem
    rcases mem_append.1 hmem with hmem | hl
    · have hc := h.covered t i delay hmem
      omega
    · cases mem_singleton.1 hl
      exact hrec i delay rfl
  · intro i number
    rw [starts_append]
    have hbdd := h.bounded i number
    cases hnt : note.isStart i number with
    | false =>
      have hnn : starts [(now, note)] i number = 0 := by
        refine countP_eq_zero.2 fun e he => ?_
        cases mem_singleton.1 he
        rw [hnt]
        exact Bool.false_ne_true
      omega
    | true =>
      have hone : starts [(now, note)] i number ≤ 1 := countP_le_length
      cases note with
      | started i' n' k' =>
        obtain ⟨hi, hn⟩ := Bool.and_eq_true_iff.1 hnt
        cases beq_iff_eq.1 hi
        cases beq_iff_eq.1 hn
        have hbud := (hs i number k' rfl).2.1
        omega
      | _ => cases hnt
  · intro before t i number a ra after heq ht t' a'
      hmem
    rcases concat_eq_append_cons heq with ⟨-, -, rfl⟩ | ⟨rest, rfl, hlog⟩
    · cases hmem
    · rcases mem_append.1 hmem with hmem | hl
      · exact h.final before t i number a ra rest hlog ht t' a' hmem
      · cases mem_singleton.1 hl
        have ho := (hs i number a' rfl).2.2 t a ra
          (hlog ▸ mem_append_right _ mem_cons_self)
        omega

-- ==== budgets

/-- No rate limit of this operation was the third or later. -/
def Open (log : Log) (id number : Nat) : Prop :=
  ∀ t attempt retryAfter,
    (t, Note.limited id number attempt retryAfter) ∈ log → attempt < 3

/-- What the log says of a call under way: it counts the attempts of its
stage, and knows nothing yet of later stages. -/
structure Budget (policy : ReconnectPolicy) (log : Log) (id : Nat)
    (call : Call) : Prop where
  later : ∀ number, call.number < number → starts log id number = 0
  limits : ∀ t number attempt retryAfter,
    (t, Note.limited id number attempt retryAfter) ∈ log →
    number ≤ call.number
  phase : match call.phase with
    | .waiting _ attempt _ _ | .sleeping _ attempt _ =>
      starts log id call.number = attempt
        ∧ attempt ≤ policy.maxAttempts ∧ Open log id call.number
    | .running _ attempt _ =>
      starts log id call.number = attempt + 1
        ∧ attempt ≤ policy.maxAttempts ∧ Open log id call.number
    | .limited _ attempt error _ =>
      starts log id call.number = attempt ∧ error.limit.isSome
        ∧ ∀ t k retryAfter,
          (t, Note.limited id call.number k retryAfter) ∈ log →
          k < 3 ∨ k = attempt
    | _ => True

theorem mem_quiet {notes : Log} {t n a : Nat}
    {ra : Option Nat}
    (hq : ∀ e ∈ notes, e.2.counts id = false)
    (hm : (t, Note.limited id n a ra) ∈ log ++ notes) :
    (t, Note.limited id n a ra) ∈ log := by
  rcases mem_append.1 hm with hm | hm
  · exact hm
  · have hc : (id == id) = false := hq _ hm
    rw [beq_self_eq_true] at hc
    cases hc

theorem Budget.quiet {notes : Log} (h : Budget policy log id call)
    (hq : ∀ e ∈ notes, e.2.counts id = false) :
    Budget policy (log ++ notes) id call := by
  have hs : ∀ number,
      starts (log ++ notes) id number = starts log id number := by
    intro number
    rw [starts_append, starts_quiet hq, add_zero]
  have hop : Open log id call.number →
      Open (log ++ notes) id call.number :=
    fun ho t k r hmem => ho t k r (mem_quiet hq hmem)
  refine ⟨fun number hlt => (hs number).trans (h.later number hlt),
    fun t number k r hmem => h.limits t number k r (mem_quiet hq hmem),
    ?_⟩
  have hph := h.phase
  rw [hs]
  cases hp : call.phase with
  | waiting _ _ _ _ | sleeping _ _ _ | running _ _ _ =>
    rw [hp] at hph
    exact ⟨hph.1, hph.2.1, hop hph.2.2⟩
  | limited _ _ _ _ =>
    rw [hp] at hph
    exact ⟨hph.1, hph.2.1, fun t k r hmem =>
      hph.2.2 t k r (mem_quiet hq hmem)⟩
  | _ => trivial

theorem Budget.next (h : Budget policy log id call) {stages : List Stage}
    {phase : Phase}
    (hp : (∃ re cause, phase = .waiting re 0 cause 0)
      ∨ ∃ re effort, phase = .asking re effort) :
    Budget policy log id
      { call with stages, number := call.number + 1, phase } := by
  refine ⟨fun number hlt => h.later number (by simp only at hlt; omega),
    fun t number k r hmem => ?_, ?_⟩
  · have hle := h.limits t number k r hmem
    simp only
    omega
  · rcases hp with ⟨re, cause, rfl⟩ | ⟨re, effort, rfl⟩
    · refine ⟨h.later _ (lt_succ_self _), zero_le _, ?_⟩
      intro t k r hmem
      have hle := h.limits t (call.number + 1) k r hmem
      omega
    · trivial

theorem advance_budget (h : Budget policy log id call) {next : Call}
    (hn : (call.advance id).1 = some next) :
    Budget policy log id next := by
  unfold Call.advance at hn
  split at hn
  · cases hn
    exact h.next (.inl ⟨_, _, rfl⟩)
  · cases hn
    exact h.next (.inr ⟨_, _, rfl⟩)
  · cases hn
    exact h.next (.inr ⟨_, _, rfl⟩)
  · split at hn
    · cases hn
      exact ⟨h.later, h.limits, trivial⟩
    · cases hn

theorem advance_notes (call : Call) (id : Nat) :
    (call.advance id).2 = [] ∨ (call.advance id).2 = [.told id none] := by
  unfold Call.advance
  split
  · exact .inl rfl
  · exact .inl rfl
  · exact .inl rfl
  · split
    · exact .inr rfl
    · exact .inr rfl

-- ==== steps

/-- Notes with the time they were made at. -/
def stamped (now : Nat) (notes : List Note) : Log := notes.map (now, ·)

/-- The books of the client and the budget of the call after a step. -/
structure Kept (policy : ReconnectPolicy) (log : Log) (expiry now id : Nat)
    (moved : Moved) : Prop where
  later : expiry ≤ moved.cooldown.expiry
  books : Books policy (log ++ stamped now moved.notes) moved.cooldown.expiry
  budget : ∀ next, moved.call = some next →
    Budget policy (log ++ stamped now moved.notes) id next
  others : ∀ other, other ≠ id → ∀ note ∈ moved.notes,
    note.counts other = false

/-- A note that neither starts an operation nor is a rate limit. -/
def Note.quiet : Note → Bool
  | .started .. | .limited .. => false
  | _ => true

theorem Note.counts_quiet {n : Note} (h : n.quiet = true) (id : Nat) :
    n.counts id = false := by
  cases n with
  | started _ _ _ => cases h
  | limited _ _ _ _ => cases h
  | _ => rfl

theorem Books.notes {notes : List Note} {later : Nat}
    (h : Books policy log expiry) (hl : expiry ≤ later)
    (hq : ∀ n ∈ notes, n.quiet = true)
    (hr : ∀ id d, .recorded id d ∈ notes → now + d ≤ later) :
    Books policy (log ++ stamped now notes) later := by
  induction notes generalizing log expiry with
  | nil =>
    rw [stamped, map_nil, append_nil]
    refine ⟨h.cooled, fun t i d hm => ?_, h.bounded, h.final⟩
    exact le_trans (h.covered t i d hm) hl
  | cons n notes ih =>
    rw [stamped, map_cons, append_cons]
    refine ih (h.note hl ?_ ?_) (le_refl later)
      (fun o ho => hq o (mem_cons_of_mem _ ho))
      (fun i d hm => hr i d (mem_cons_of_mem _ hm))
    · rintro i number attempt rfl
      cases hq _ mem_cons_self
    · rintro i d rfl
      exact hr i d mem_cons_self

theorem of_none {P : Call → Prop} (call : Call)
    (h : none = some call) : P call :=
  absurd h.symm (some_ne_none call)

theorem Kept.quiet {ne : Option Call} {later : Cooldown}
    {notes : List Note} (h : Books policy log expiry)
    (hl : expiry ≤ later.expiry)
    (hq : ∀ n ∈ notes, n.quiet = true)
    (hr : ∀ id d, .recorded id d ∈ notes → now + d ≤ later.expiry)
    (hnx : ∀ call, ne = some call → Budget policy log id call) :
    Kept policy log expiry now id ⟨ne, later, notes⟩ := by
  refine ⟨hl, h.notes hl hq hr, fun call hc => ?_, ?_⟩
  · refine (hnx call hc).quiet ?_
    intro e he
    obtain ⟨n, hn, rfl⟩ := mem_map.1 he
    exact Note.counts_quiet (hq n hn) id
  · exact fun o _ n hn =>
      Note.counts_quiet (hq n hn) o

theorem Kept.told (h : Books policy log cooldown.expiry)
    (e : Option TikTokError) :
    Kept policy log cooldown.expiry now id
      ⟨none, cooldown, [.told id e]⟩ := by
  refine .quiet h (le_refl _) ?_ ?_ of_none
  · rintro note hn
    cases mem_singleton.1 hn
    rfl
  · rintro i delay hm
    cases mem_singleton.1 hm

theorem Kept.silent (h : Books policy log cooldown.expiry) {n : Call}
    (hn : Budget policy log id n) :
    Kept policy log cooldown.expiry now id ⟨some n, cooldown, []⟩ := by
  refine .quiet h (le_refl _) nofun nofun ?_
  rintro call hc
  cases hc
  exact hn

section

variable {notes : List Note} {later : Cooldown}
  (h : Kept policy log expiry now id ⟨some call, later, notes⟩)
include h

theorem Kept.after {more : List Note} {ne : Option Call}
    (hmr : ∀ n ∈ more, ∃ e, n = .told id e)
    (hnx : ∀ c, ne = some c → Budget policy (log ++ stamped now notes) id c) :
    Kept policy log expiry now id ⟨ne, later, notes ++ more⟩ := by
  have hs : log ++ stamped now (notes ++ more)
      = (log ++ stamped now notes) ++ stamped now more := by
    rw [stamped, map_append, append_assoc]
    rfl
  have hr : Kept policy (log ++ stamped now notes) later.expiry now id
      ⟨ne, later, more⟩ := by
    refine .quiet h.books (le_refl _) ?_ ?_ hnx
    · intro n hn
      obtain ⟨e, rfl⟩ := hmr n hn
      rfl
    · intro i delay hm
      obtain ⟨e, ht⟩ := hmr _ hm
      cases ht
  refine ⟨h.later, hs ▸ hr.books, fun c hc => hs ▸ hr.budget c hc, ?_⟩
  intro o ho n hn
  rcases mem_append.1 hn with hn | hn
  · exact h.others o ho n hn
  · exact hr.others o ho n hn

theorem Kept.ended (e : Option TikTokError) :
    Kept policy log expiry now id ⟨none, later, notes ++ [.told id e]⟩ :=
  h.after (fun _ hn => ⟨e, mem_singleton.1 hn⟩) of_none

theorem Kept.advance :
    Kept policy log expiry now id
      ⟨(call.advance id).1, later, notes ++ (call.advance id).2⟩ := by
  refine h.after ?_ fun c hc => advance_budget (h.budget call rfl) hc
  intro note hn
  rcases advance_notes call id with hnn | ht
  · rw [hnn] at hn
    cases hn
  · rw [ht] at hn
    exact ⟨none, mem_singleton.1 hn⟩

end

section

variable (h : Books policy log cooldown.expiry)
include h

section

variable (hbud : Budget policy log id call)
include hbud

theorem Kept.limit {phase : Phase} (attempt : Nat)
    (retryAfter : Option Nat)
    (hp : (∃ request error wait,
        phase = .limited request attempt error wait
          ∧ starts log id call.number = attempt ∧ error.limit.isSome
          ∧ Open log id call.number)
      ∨ (∃ request effort, phase = .asking request effort)
      ∨ ∃ delay answer, phase = .noting delay answer) :
    Kept policy log cooldown.expiry now id ⟨some { call with phase },
      cooldown, [.limited id call.number attempt retryAfter]⟩ := by
  have hs : ∀ number, starts (log ++ stamped now
      [.limited id call.number attempt retryAfter]) id number
        = starts log id number := by
    intro number
    rw [starts_append]
    rfl
  have hmem : ∀ t number k r, (t, Note.limited id number k r)
      ∈ log ++ stamped now [.limited id call.number attempt retryAfter] →
      (t, Note.limited id number k r) ∈ log
        ∨ number = call.number ∧ k = attempt := by
    intro t number k r hin
    rcases mem_append.1 hin with hin | hin
    · exact .inl hin
    · cases mem_singleton.1 hin
      exact .inr ⟨rfl, rfl⟩
  refine ⟨le_refl _, h.note (le_refl _) nofun nofun, ?_, ?_⟩
  · rintro next hn
    cases hn
    refine ⟨fun number hlt => (hs number).trans
      (hbud.later number hlt), fun t number k r hin => ?_, ?_⟩
    · rcases hmem t number k r hin with hin | ⟨rfl, -⟩
      · exact hbud.limits t number k r hin
      · exact le_refl _
    · rcases hp with ⟨request, error, wait, rfl, hc, hl, hop⟩
        | ⟨request, effort, rfl⟩ | ⟨delay, answer, rfl⟩
      · refine ⟨(hs _).trans hc, hl, fun t k r hin => ?_⟩
        rcases hmem t call.number k r hin with hin | ⟨-, rfl⟩
        · exact .inl (hop t k r hin)
        · exact .inr rfl
      · trivial
      · trivial
  · intro other ho note hnt
    cases mem_singleton.1 hnt
    exact beq_false_of_ne ho.symm

theorem Kept.fails {r : Request}
    {a : Nat} {c : Option TikTokError}
    (hp : call.phase = .running r a c)
    (error : TikTokError) (sa : Nat) :
    Kept policy log cooldown.expiry now id
      ⟨(call.fails policy id now r a error sa).1, cooldown,
        (call.fails policy id now r a error sa).2⟩ := by
  have hr := hbud.phase
  rw [hp] at hr
  obtain ⟨hs, hle, ho⟩ := hr
  unfold Call.fails
  split
  · exact .told h _
  · next wait hw =>
    split
    · next retryAfter hl =>
      refine .limit h hbud _ _ (.inl ⟨r, error, wait, rfl, hs, ?_, ho⟩)
      rw [hl]
      rfl
    · split
      · exact .told h _
      · next hre =>
        refine .silent h ⟨hbud.later, hbud.limits, hs, ?_, ho⟩
        have hrt := policy.retries_le error
        omega

theorem Kept.poll {sample : Nat} {moved : Moved}
    (hp : call.poll policy id now cooldown sample = some moved) :
    Kept policy log cooldown.expiry now id moved := by
  have hph := hbud.phase
  unfold Call.poll at hp
  split at hp
  · next re a cause wake hw =>
    rw [hw] at hph
    obtain ⟨hs, hle, ho⟩ := hph
    split at hp
    · cases hp
      exact .told h _
    · split at hp
      · cases hp
      · split at hp
        · cases hp
          exact .silent h ⟨hbud.later, hbud.limits, hs, hle, ho⟩
        · next hrem =>
          -- the cooldown is over: an attempt is started
          cases hp
          have hov := (cooldown.remaining_eq_none now).1 hrem
          have hcn : ∀ number, starts (log ++ stamped now
              [.started id call.number (a + 1)]) id number
                = starts log id number
                  + if number = call.number then 1 else 0 := by
            intro number
            rw [starts_append]
            exact congrArg _ (starts_started now id call.number _ number)
          have hlim : ∀ t number k r, (t, Note.limited id number k r)
              ∈ log ++ stamped now [.started id call.number (a + 1)] →
              (t, Note.limited id number k r) ∈ log := by
            intro t number k r hin
            rcases mem_append.1 hin with hin | hin
            · exact hin
            · cases mem_singleton.1 hin
          refine ⟨le_refl _, h.note (le_refl _) ?_ nofun, ?_, ?_⟩
          · rintro i number k hn
            cases hn
            exact ⟨hov, hs ▸ hle, ho⟩
          · rintro next hnx
            cases hnx
            refine ⟨fun number hlt => ?_, fun t number k r hin =>
              hbud.limits t number k r (hlim t number k r hin), ?_⟩
            · have hl := hbud.later number hlt
              have hne : number ≠ call.number := ne_of_gt hlt
              rw [hcn, if_neg hne, hl]
            · refine ⟨?_, hle, fun t k r hin =>
                ho t k r (hlim t _ k r hin)⟩
              rw [hcn, if_pos rfl, hs]
          · intro other hot note hn
            cases mem_singleton.1 hn
            exact beq_false_of_ne hot.symm
  · next re a cause hrn =>
    split at hp
    · cases hp
      exact .told h _
    · obtain ⟨error, -, rfl⟩ := map_eq_some_iff.1 hp
      exact .fails h hbud hrn error sample
  · next re a error wait hlim =>
    rw [hlim] at hph
    obtain ⟨hs, hlm, ht⟩ := hph
    have hed := cooldown.expiry_le_extend now wait
    have hcv := cooldown.le_expiry_extend now wait
    split at hp
    · cases hp
      refine .quiet h hed ?_ ?_ of_none
      · intro note hn
        rcases mem_cons.1 hn with rfl | hn
        · rfl
        · cases mem_singleton.1 hn
          rfl
      · intro i delay hmem
        rcases mem_cons.1 hmem with hrec | hmem
        · cases hrec
          exact hcv
        · cases mem_singleton.1 hmem
    · next hre =>
      cases hp
      refine .quiet h hed ?_ ?_ ?_
      · intro note hn
        cases mem_singleton.1 hn
        rfl
      · intro i delay hmem
        cases mem_singleton.1 hmem
        exact hcv
      · rintro next hnx
        cases hnx
        -- a rate limit leaves two retries at most
        have hrt : policy.retries error = min policy.maxAttempts 2 := by
          cases error with
          | rateLimited _ => rfl
          | _ => cases hlm
        refine ⟨hbud.later, hbud.limits, hs, by omega, ?_⟩
        intro t k r hin
        rcases ht t k r hin with hlt | rfl
        · exact hlt
        · omega
  · next re a wake hsl =>
    rw [hsl] at hph
    split at hp
    · cases hp
      exact .told h _
    · split at hp
      · cases hp
      · cases hp
        exact .silent h ⟨hbud.later, hbud.limits, hph⟩
  · split at hp
    · cases hp
      exact .told h _
    · cases hp
  · next delay answer hnt =>
    have hed := cooldown.expiry_le_extend now delay
    have hcv := cooldown.le_expiry_extend now delay
    have hr : ∀ next : Option Call,
        (∀ c, next = some c → Budget policy log id c) →
        Kept policy log cooldown.expiry now id
          ⟨next, cooldown.extend now delay, [.recorded id delay]⟩ := by
      intro next hnx
      refine .quiet h hed ?_ ?_ hnx
      · intro note hn
        cases mem_singleton.1 hn
        rfl
      · intro i d hmem
        cases mem_singleton.1 hmem
        exact hcv
    have hsm := hr (some call) fun c hc => by
      cases hc
      exact hbud
    split at hp
    · next error =>
      cases hp
      exact hsm.ended (some error)
    · cases hp
      exact hsm.advance
  · split at hp
    · cases hp
      exact .quiet h (le_refl _) nofun nofun of_none
    · cases hp

theorem Kept.reply {reply : Reply} {sample : Nat}
    {moved : Moved}
    (hr : call.reply policy id now cooldown reply sample
      = some moved) : Kept policy log cooldown.expiry now id moved := by
  have hsm : Kept policy log cooldown.expiry now id
      ⟨some call, cooldown, []⟩ :=
    .silent h hbud
  unfold Call.reply at hr
  split at hr
  · cases hr
  · split at hr
    · next r attempt hrn =>
      split at hr
      · split at hr
        · cases hr
          exact hsm.advance
        · cases hr
          exact .told h _
        · next error _ _ _ =>
          cases hr
          exact .fails h hbud hrn error sample
      · cases hr
    · next r effort ha =>
      split at hr
      · split at hr
        · cases hr
          exact hsm.advance
        · cases hr
          exact .told h _
        · next error _ _ _ =>
          have hlim : ∀ phase : Phase,
              (∃ r effort, phase = .asking r effort)
                ∨ (∃ delay answer, phase = .noting delay answer) →
              Kept policy log cooldown.expiry now id
                ⟨some { call with phase }, cooldown,
                Call.notes id call.number 0 error⟩ := by
            intro phase hp
            unfold Call.notes
            cases error.limit with
            | none =>
              refine .silent h ⟨hbud.later, hbud.limits, ?_⟩
              rcases hp with ⟨_, _, rfl⟩ | ⟨_, _, rfl⟩ <;> trivial
            | some ra =>
              exact .limit h hbud 0 ra (.inr hp)
          have hs : Kept policy log cooldown.expiry now id
              ⟨some call, cooldown,
              Call.notes id call.number 0 error⟩ := by
            have hk := hlim call.phase (.inl ⟨_, _, ha⟩)
            exact hk
          split at hr
          · cases hr
            exact hlim _ (.inr ⟨_, _, rfl⟩)
          · split at hr
            · cases hr
              exact hs.advance
            · cases hr
              exact hs.ended _
      · cases hr
    · split at hr
      · split at hr
        · cases hr
          exact .silent h (hbud.next (.inl ⟨_, _, rfl⟩))
        · cases hr
          exact .told h _
      · cases hr
    · cases hr

end

end

-- ==== clients

/-- What is always so of a client. -/
structure Client.Sound (policy : ReconnectPolicy) (s : Client) : Prop where
  fresh : ∀ id, s.next ≤ id → s.calls id = none
  new : ∀ id, s.next ≤ id → ∀ e ∈ s.log, e.2.counts id = false
  books : Books policy s.log s.cooldown.expiry
  budget : ∀ id call, s.calls id = some call → Budget policy s.log id call

namespace Client

variable {s t : Client}

theorem Sound.empty (policy : ReconnectPolicy) :
    ({} : Client).Sound policy := by
  refine ⟨fun _ _ => rfl, nofun, ⟨?_, nofun, fun _ _ => zero_le _, ?_⟩,
    fun _ => of_none⟩
  · intro b t id delay a heq
    exact absurd heq.symm (append_ne_nil_of_right_ne_nil b (cons_ne_nil _ _))
  · intro b t id number attempt retryAfter a heq
    exact absurd heq.symm (append_ne_nil_of_right_ne_nil b (cons_ne_nil _ _))

section

variable (h : s.Sound policy)
include h

theorem Sound.put {id : Nat} {m : Moved}
    (hk : Kept policy s.log s.cooldown.expiry s.now id m)
    (next : Nat) (hnx : s.next ≤ next) (hid : id < next) :
    ({ s.put id m with next } : Client).Sound policy := by
  refine ⟨?_, ?_, hk.books, ?_⟩
  · intro o ho
    have hne : o ≠ id := by
      simp only at ho
      omega
    exact (if_neg hne).trans (h.fresh o (le_trans hnx ho))
  · intro o ho e he
    have hne : o ≠ id := by
      simp only at ho
      omega
    rcases mem_append.1 he with he | he
    · exact h.new o (le_trans hnx ho) e he
    · obtain ⟨note, hn, rfl⟩ := mem_map.1 he
      exact hk.others o hne note hn
  · intro o call hc
    by_cases hs : o = id
    · subst hs
      exact hk.budget call ((if_pos rfl).symm.trans hc)
    · have hbef : s.calls o = some call :=
        (if_neg hs).symm.trans hc
      refine (h.budget o call hbef).quiet ?_
      intro e he
      obtain ⟨note, hn, rfl⟩ := mem_map.1 he
      exact hk.others o hs note hn

theorem Sound.lt {id : Nat} {call : Call}
    (hc : s.calls id = some call) : id < s.next := by
  by_contra hge
  rw [h.fresh id (Nat.le_of_not_lt hge)] at hc
  cases hc

theorem Sound.fresh_budget {call : Call}
    (hp : call.phase = .live ∨ ∃ re e, call.phase = .asking re e) :
    Budget policy s.log s.next call := by
  refine ⟨fun n _ =>
    starts_quiet (h.new s.next (le_refl _)) n, ?_, ?_⟩
  · intro t n k r hm
    have hc : (s.next == s.next) = false := h.new s.next (le_refl _) _ hm
    rw [beq_self_eq_true] at hc
    cases hc
  · rcases hp with hl | ⟨re, e, ha⟩
    · rw [hl]
      trivial
    · rw [ha]
      trivial

theorem Sound.begin (e : Entry) :
    Kept policy s.log s.cooldown.expiry s.now s.next (s.begin e) := by
  have hl : Kept policy s.log s.cooldown.expiry s.now s.next
      ⟨some ⟨e, e.stages, 0, .live, false⟩, s.cooldown, []⟩ :=
    .silent h.books (h.fresh_budget (.inl rfl))
  unfold Client.begin
  dsimp only
  split
  · exact hl.advance
  · next hd =>
    split
    · exact .told h.books _
    · next hrem =>
      have hov := (s.cooldown.remaining_eq_none s.now).1 hrem
      have hf : ∃ re st,
          Call.advance ⟨e, e.stages, 0, .live, false⟩ s.next
            = (some ⟨e, st, 1, .asking re false, false⟩, []) := by
        cases e with
        | connect _ => exact absurd rfl hd
        | pick _ => exact absurd rfl hd
        | _ => exact ⟨_, _, rfl⟩
      obtain ⟨re, st, hf⟩ := hf
      rw [hf]
      have hbud : Budget policy s.log s.next
          ⟨e, st, 1, .asking re false, false⟩ :=
        h.fresh_budget (.inr ⟨_, _, rfl⟩)
      have hnn := starts_quiet (h.new s.next (le_refl _))
      have hmem : ∀ t n k r, (t, Note.limited s.next n k r)
          ∈ s.log ++ stamped s.now [.started s.next 1 1] →
          (t, Note.limited s.next n k r) ∈ s.log := by
        intro t n k r hin
        rcases mem_append.1 hin with hin | hin
        · exact hin
        · cases mem_singleton.1 hin
      refine ⟨le_refl _, h.books.note (le_refl _) ?_ nofun, ?_, ?_⟩
      · rintro i n k hn
        cases hn
        refine ⟨hov, ?_, fun t k r hin => ?_⟩
        · rw [hnn]
          exact zero_le _
        · have hle := hbud.limits t 1 k r hin
          have hc : (s.next == s.next) = false :=
            h.new s.next (le_refl _) _ hin
          rw [beq_self_eq_true] at hc
          cases hc
      · rintro next hnx
        cases hnx
        refine ⟨fun n hlt => ?_, fun t n k r hin =>
          hbud.limits t n k r (hmem t n k r hin), trivial⟩
        have hne : n ≠ 1 := ne_of_gt hlt
        rw [starts_append, hnn]
        show 0 + starts [(s.now, _)] s.next n = 0
        rw [starts_started, if_neg hne]
      · intro other ho note hn
        cases mem_singleton.1 hn
        exact beq_false_of_ne ho.symm

theorem Sound.next {event : Event}
    (hs : s.step policy event = some t) :
    t.Sound policy ∧ s.cooldown.expiry ≤ t.cooldown.expiry := by
  cases event with
  | pass elapsed =>
    cases hs
    exact ⟨⟨h.fresh, h.new, h.books, h.budget⟩, le_refl _⟩
  | call en =>
    cases hs
    have hk := h.begin en
    exact ⟨h.put hk (s.next + 1) (le_succ _) (lt_succ_self _), hk.later⟩
  | poll id sample =>
    obtain ⟨call, hc, hs⟩ := bind_eq_some_iff.1 hs
    obtain ⟨m, hmv, hs⟩ := bind_eq_some_iff.1 hs
    cases hs
    have hk := Kept.poll h.books (h.budget id call hc) hmv
    exact ⟨h.put hk s.next (le_refl _) (h.lt hc), hk.later⟩
  | reply id reply sample =>
    obtain ⟨call, hc, hs⟩ := bind_eq_some_iff.1 hs
    obtain ⟨m, hmv, hs⟩ := bind_eq_some_iff.1 hs
    cases hs
    have hk := Kept.reply h.books (h.budget id call hc) hmv
    exact ⟨h.put hk s.next (le_refl _) (h.lt hc), hk.later⟩
  | stop id =>
    obtain ⟨call, hc, hs⟩ := bind_eq_some_iff.1 hs
    split at hs
    · cases hs
      have hbud := h.budget id call hc
      have hk : Kept policy s.log s.cooldown.expiry s.now id
          ⟨some { call with stopped := true }, s.cooldown, []⟩ :=
        .silent h.books ⟨hbud.later, hbud.limits, hbud.phase⟩
      exact ⟨h.put hk s.next (le_refl _) (h.lt hc), hk.later⟩
    · cases hs
  | drop id =>
    obtain ⟨call, hc, hs⟩ := bind_eq_some_iff.1 hs
    have hk : Kept policy s.log s.cooldown.expiry s.now id
        ⟨none, s.cooldown, []⟩ :=
      .quiet h.books (le_refl _) nofun nofun of_none
    split at hs
    · cases hs
    · cases hs
    · cases hs
      exact ⟨h.put hk s.next (le_refl _) (h.lt hc), hk.later⟩

end

end Client

end TikTools.Tiktok
