/-
Rate limits that are recorded: a call that meets one owes a record, and
makes it before it goes on. A discovery does not, so this is about the
steps in which none meets a rate limit (`Client.lawful`).
-/
import TikTools.Tiktok.Attempts

namespace TikTools.Tiktok

open TikTools.Lib List Option

variable {policy : ReconnectPolicy} {log : Log} {expiry now id : Nat}
  {call : Call} {cooldown : Cooldown}

-- ==== records

/-- The delay a call is about to record. -/
def Call.owes (call : Call) : Option Nat :=
  match call.phase with
  | .limited _ _ _ wait => some wait
  | .noting delay _ => some delay
  | _ => none

/-- Every rate limit of a call is recorded, or about to be. -/
def Owed (log : Log) (id : Nat) (owed : Option Nat) : Prop :=
  ∀ before t number attempt retryAfter after,
    log = before ++ (t, .limited id number attempt retryAfter) :: after →
    (∃ t' delay, (t', Note.recorded id delay) ∈ after
      ∧ retryAfter.getD defaultDelay ≤ delay)
    ∨ ∃ delay, owed = some delay ∧ retryAfter.getD defaultDelay ≤ delay

/-- Whoever goes on has recorded what it met. -/
def Remembered (log : Log) : Prop :=
  ∀ before t note after id, log = before ++ (t, note) :: after →
    note.goesOn id = true → Recorded before id

theorem Owed.recorded (h : Owed log id none) : Recorded log id := by
  intro b t n a ra af heq
  rcases h b t n a ra af heq with hin
    | ⟨delay, hn, -⟩
  · exact hin
  · cases hn

theorem Owed.note {note : Note} {owed : Option Nat} (h : Owed log id owed)
    (hn : ∀ n a ra, note ≠ .limited id n a ra) :
    Owed (log ++ [(now, note)]) id owed := by
  intro b t n a ra after heq
  rcases concat_eq_append_cons heq with ⟨-, hl, -⟩ | ⟨rest, rfl, hlog⟩
  · cases hl
    exact absurd rfl (hn n a ra)
  · refine (h b t n a ra rest hlog).imp_left ?_
    rintro ⟨t', d, hmem, hle⟩
    exact ⟨t', d, mem_append_left _ hmem, hle⟩

theorem Owed.limited (h : Owed log id none) {ra : Option Nat}
    {de : Nat} (hle : ra.getD defaultDelay ≤ de)
    (nu a : Nat) :
    Owed (log ++ [(now, .limited id nu a ra)]) id (some de) := by
  intro b t n k r after heq
  rcases concat_eq_append_cons heq with ⟨-, hl, -⟩ | ⟨re, rfl, hlog⟩
  · cases hl
    exact .inr ⟨de, rfl, hle⟩
  · obtain ⟨t', d, hm, hd⟩ := h.recorded b t n k r re hlog
    exact .inl ⟨t', d, mem_append_left _ hm, hd⟩

theorem Owed.record {de : Nat} (h : Owed log id (some de)) :
    Owed (log ++ [(now, .recorded id de)]) id none := by
  intro b t n k r after heq
  rcases concat_eq_append_cons heq with ⟨-, hl, -⟩ | ⟨re, rfl, hlog⟩
  · cases hl
  · left
    rcases h b t n k r re hlog with ⟨t', d, hm, hd⟩
      | ⟨d, hs, hd⟩
    · exact ⟨t', d, mem_append_left _ hm, hd⟩
    · cases hs
      exact ⟨now, de, mem_append_right _ mem_cons_self, hd⟩

theorem Remembered.note {n : Note} (h : Remembered log)
    (hg : ∀ i, n.goesOn i = true → Recorded log i) :
    Remembered (log ++ [(now, n)]) := by
  intro b t o after i heq ho
  rcases concat_eq_append_cons heq with ⟨rfl, hl, -⟩ | ⟨r, rfl, hlog⟩
  · cases hl
    exact hg i ho
  · exact h b t o r i hlog ho

theorem Note.eq_of_goesOn {n : Note} {i j : Nat}
    (hi : n.goesOn i = true) (hj : n.goesOn j = true) : i = j := by
  cases n with
  | told k _ => exact (beq_iff_eq.1 hi).symm.trans (beq_iff_eq.1 hj)
  | started k _ _ => exact (beq_iff_eq.1 hi).symm.trans (beq_iff_eq.1 hj)
  | _ => cases hi

theorem advance_goesOn (call : Call) (id : Nat) :
    ∀ n ∈ (call.advance id).2, n.goesOn id = true := by
  intro n hn
  rcases advance_notes call id with hnn | ht
  · rw [hnn] at hn
    cases hn
  · rw [ht] at hn
    cases mem_singleton.1 hn
    exact beq_self_eq_true id

theorem advance_owes (call : Call) (id : Nat) :
    (call.advance id).1.bind Call.owes = none := by
  unfold Call.advance
  split
  · rfl
  · rfl
  · rfl
  · split <;> rfl

/-- The records after a step of a call. -/
structure Renders (log : Log) (now id : Nat) (moved : Moved) : Prop where
  remembered : Remembered (log ++ stamped now moved.notes)
  owed : Owed (log ++ stamped now moved.notes) id (moved.call.bind Call.owes)

section renders

variable {next : Option Call} {later : Cooldown} {notes : List Note}

theorem Renders.goesOn (h : Remembered log) (ho : Owed log id none)
    (hn : ∀ n ∈ notes, n.goesOn id = true)
    (hnx : next.bind Call.owes = none) :
    Renders log now id ⟨next, later, notes⟩ := by
  induction notes generalizing log with
  | nil =>
    have hlog : log ++ stamped now [] = log := append_nil log
    refine ⟨?_, ?_⟩
    · rw [hlog]
      exact h
    · rw [hlog, hnx]
      exact ho
  | cons n notes ih =>
    have hf := hn n mem_cons_self
    have hr := @ih (log ++ [(now, n)])
      (h.note fun i hi => by
        rw [Note.eq_of_goesOn hi hf]
        exact ho.recorded)
      (ho.note fun number attempt retryAfter hl => by
        rw [hl] at hf
        cases hf)
      fun o hot => hn o (mem_cons_of_mem _ hot)
    have hlog : log ++ stamped now (n :: notes)
        = (log ++ [(now, n)]) ++ stamped now notes :=
      append_cons _ _ _
    exact ⟨hlog ▸ hr.remembered, hlog ▸ hr.owed⟩

theorem Renders.limited (h : Remembered log) (ho : Owed log id none)
    {ra : Option Nat} {d : Nat}
    (hle : ra.getD defaultDelay ≤ d) (n a : Nat)
    (hn : next.bind Call.owes = some d) :
    Renders log now id ⟨next, later, [.limited id n a ra]⟩ :=
  ⟨h.note nofun, hn ▸ ho.limited hle n a⟩

theorem Renders.recorded (h : Remembered log) {d : Nat}
    (ho : Owed log id (some d))
    (hn : ∀ n ∈ notes, n.goesOn id = true)
    (hnx : next.bind Call.owes = none) :
    Renders log now id ⟨next, later, .recorded id d :: notes⟩ := by
  have hr : Renders (log ++ [(now, .recorded id d)]) now id
      ⟨next, later, notes⟩ :=
    .goesOn (h.note nofun) ho.record hn hnx
  have hlog : log ++ stamped now (.recorded id d :: notes)
      = (log ++ [(now, .recorded id d)]) ++ stamped now notes :=
    append_cons _ _ _
  exact ⟨hlog ▸ hr.remembered, hlog ▸ hr.owed⟩

theorem Renders.advance (h : Remembered log) (ho : Owed log id none) :
    Renders log now id ⟨(call.advance id).1, later, (call.advance id).2⟩ := by
  refine .goesOn h ho (advance_goesOn call id) (advance_owes call id)

end renders

theorem Renders.told (h : Remembered log) (ho : Owed log id none)
    (e : Option TikTokError) :
    Renders log now id ⟨none, cooldown, [.told id e]⟩ := by
  refine .goesOn h ho (fun note hn => ?_) rfl
  cases mem_singleton.1 hn
  exact beq_self_eq_true id

theorem limit_eq_some {error : TikTokError} {retryAfter : Option Nat}
    (h : error.limit = some retryAfter) :
    error = .rateLimited retryAfter := by
  cases error with
  | rateLimited given =>
    cases h
    rfl
  | _ => cases h

theorem Renders.fails (h : Remembered log) (ho : Owed log id none)
    (r : Request) (a : Nat) (e : TikTokError)
    (sa : Nat) :
    Renders log now id
      ⟨(call.fails policy id now r a e sa).1, cooldown,
        (call.fails policy id now r a e sa).2⟩ := by
  unfold Call.fails
  split
  · exact .told h ho _
  · next wait hw =>
    split
    · next retryAfter hl =>
      rw [limit_eq_some hl] at hw
      exact .limited h ho (le_delay hw) _ _ rfl
    · split
      · exact .told h ho _
      · exact .goesOn h ho nofun rfl

theorem Renders.poll (h : Remembered log) (ho : Owed log id call.owes)
    {sample : Nat} {moved : Moved}
    (hp : call.poll policy id now cooldown sample = some moved) :
    Renders log now id moved := by
  have hn : call.owes = none → Owed log id none := fun hn =>
    hn ▸ ho
  unfold Call.poll at hp
  split at hp
  · next hph =>
    have ho := hn (by rw [Call.owes, hph])
    split at hp
    · cases hp
      exact .told h ho _
    · split at hp
      · cases hp
      · split at hp
        · cases hp
          exact .goesOn h ho nofun rfl
        · cases hp
          refine .goesOn h ho (fun note hnt => ?_) rfl
          cases mem_singleton.1 hnt
          exact beq_self_eq_true id
  · next r a cause hph =>
    have ho := hn (by rw [Call.owes, hph])
    split at hp
    · cases hp
      exact .told h ho _
    · obtain ⟨error, -, rfl⟩ := map_eq_some_iff.1 hp
      exact .fails h ho r a error sample
  · next r a error wait hph =>
    have ho : Owed log id (some wait) := by
      simpa only [Call.owes, hph] using ho
    split at hp
    · cases hp
      refine .recorded h ho (fun note hnt => ?_) rfl
      cases mem_singleton.1 hnt
      exact beq_self_eq_true id
    · cases hp
      exact .recorded h ho nofun rfl
  · next hph =>
    have ho := hn (by rw [Call.owes, hph])
    split at hp
    · cases hp
      exact .told h ho _
    · split at hp
      · cases hp
      · cases hp
        exact .goesOn h ho nofun rfl
  · next hph =>
    have ho := hn (by rw [Call.owes, hph])
    split at hp
    · cases hp
      exact .told h ho _
    · cases hp
  · next delay answer hph =>
    have ho : Owed log id (some delay) := by
      simpa only [Call.owes, hph] using ho
    split at hp
    · cases hp
      refine .recorded h ho (fun note hnt => ?_) rfl
      cases mem_singleton.1 hnt
      exact beq_self_eq_true id
    · cases hp
      exact .recorded h ho (advance_goesOn call id) (advance_owes call id)
  · next hph =>
    have ho := hn (by rw [Call.owes, hph])
    split at hp
    · cases hp
      exact .goesOn h ho nofun rfl
    · cases hp

theorem Entry.remembers_limit {entry : Entry} {request : Request}
    {reply : Reply} {error : TikTokError} {retryAfter : Option Nat}
    (hen : entry ≠ .discover) (hf : reply.fits request = true)
    (herr : reply.error = some error)
    (hl : error.limit = some retryAfter) :
    entry.remembers request reply = some (retryAfter.getD defaultDelay) := by
  have hp : (reply.error.bind (·.limit)).map (·.getD defaultDelay)
      = some (retryAfter.getD defaultDelay) := by
    rw [herr, bind_some, hl]
    rfl
  unfold Entry.remembers
  split
  · exact absurd rfl hen
  · next refusal =>
    -- a browse classifies its page by the other enumeration
    cases limit_eq_some hl
    have hk : TikTokError.fromDiscovery refusal
        = .rateLimited retryAfter := Option.some.inj herr
    have hn : TikTokError.fromDiscovery refusal = .rateLimited none := by
      rcases limit_fromDiscovery refusal with hno | hs
      · rw [hk] at hno
        cases hno
      · exact hs
    rw [hk] at hn
    cases hn
    rw [if_pos ((fromError_rateLimited refusal).2 hk)]
    rfl
  · exact hp

/-- A discovery meets no rate limit. -/
def Call.lawful (call : Call) (reply : Reply) : Prop :=
  ∀ request effort, call.phase = .asking request effort →
    call.entry = .discover → reply.error.bind (·.limit) = none

theorem Owed.weaken (h : Owed log id none) (owed : Option Nat) :
    Owed log id owed :=
  fun b t n a ra af heq =>
    .inl (h.recorded b t n a ra af heq)

theorem Renders.reply (h : Remembered log) (ho : Owed log id call.owes)
    {reply : Reply} {sample : Nat} {moved : Moved}
    (hlw : call.lawful reply)
    (hr : call.reply policy id now cooldown reply sample
      = some moved) : Renders log now id moved := by
  unfold Call.reply at hr
  split at hr
  · cases hr
  · split at hr
    · next r a hp =>
      have ho : Owed log id none := by
        simpa only [Call.owes, hp] using ho
      split at hr
      · split at hr
        · cases hr
          exact .advance h ho
        · cases hr
          exact .told h ho _
        · next error _ _ _ =>
          cases hr
          exact .fails h ho r a error sample
      · cases hr
    · next r ef hp =>
      have ho : Owed log id none := by
        simpa only [Call.owes, hp] using ho
      split at hr
      · next hf =>
        split at hr
        · cases hr
          exact .advance h ho
        · cases hr
          exact .told h ho _
        · next _ error _ herr =>
          cases hl : error.limit with
          | some ra =>
            have hen : call.entry ≠ .discover := by
              intro hd
              have hnn := hlw r ef hp hd
              rw [herr, bind_some, hl] at hnn
              cases hnn
            rw [Entry.remembers_limit hen hf herr hl] at hr
            cases hr
            have hn : Call.notes id call.number 0 error
                = [.limited id call.number 0 ra] := by
              rw [Call.notes, hl]
              rfl
            rw [hn]
            exact .limited h ho (Nat.le_refl _) _ _ rfl
          | none =>
            have hn : Call.notes id call.number 0 error = [] := by
              rw [Call.notes, hl]
              rfl
            rw [hn] at hr
            split at hr
            · cases hr
              have hlog : log ++ stamped now [] = log := append_nil log
              refine ⟨?_, ?_⟩
              · rw [hlog]
                exact h
              · rw [hlog]
                exact ho.weaken _
            · split at hr
              · cases hr
                exact .advance h ho
              · cases hr
                exact .told h ho _
      · cases hr
    · next hp =>
      have ho : Owed log id none := by
        simpa only [Call.owes, hp] using ho
      split at hr
      · split at hr
        · cases hr
          exact .goesOn h ho nofun rfl
        · cases hr
          exact .told h ho _
      · cases hr
    · cases hr

-- ==== runs

namespace Client

variable {s t : Client}

/-- No discovery meets a rate limit in this step. -/
def lawful (s : Client) : Event → Prop
  | .reply id reply _ => ∀ call, s.calls id = some call → call.lawful reply
  | _ => True

/-- Every rate limit is recorded before its call goes on. -/
structure Honest (s : Client) : Prop where
  remembered : Remembered s.log
  owed : ∀ id, Owed s.log id ((s.calls id).bind Call.owes)

theorem Honest.put (h : s.Honest) {id : Nat} {m : Moved}
    (hr : Renders s.log s.now id m)
    (hot : ∀ o, o ≠ id → ∀ no ∈ m.notes,
      no.counts o = false) : (s.put id m).Honest := by
  refine ⟨hr.remembered, fun o => ?_⟩
  by_cases hs : o = id
  · subst hs
    show Owed _ o ((if o = o then _ else _ : Option Call).bind _)
    rw [if_pos rfl]
    exact hr.owed
  · show Owed _ o ((if o = id then _ else _ : Option Call).bind _)
    rw [if_neg hs]
    have hg : ∀ (notes : List Note) (log : Log) (owed : Option Nat),
        (∀ no ∈ notes, no.counts o = false) →
        Owed log o owed →
        Owed (log ++ stamped s.now notes) o owed := by
      intro notes
      induction notes with
      | nil =>
        intro log owed _ ho
        rw [stamped, map_nil, append_nil]
        exact ho
      | cons no notes ih =>
        intro log owed hnt ho
        rw [stamped, map_cons, append_cons]
        refine ih _ owed
          (fun n hn => hnt n (mem_cons_of_mem _ hn))
          (ho.note fun number attempt retryAfter hl => ?_)
        have hc := hnt no mem_cons_self
        rw [hl] at hc
        have hsl : (o == o) = false := hc
        rw [beq_self_eq_true] at hsl
        cases hsl
    exact hg m.notes s.log _ (hot o hs) (h.owed o)

theorem Honest.next (h : s.Honest) (hsn : s.Sound policy) {event : Event}
    (hl : s.lawful event) (hs : s.step policy event = some t) :
    t.Honest := by
  cases event with
  | pass elapsed =>
    cases hs
    exact ⟨h.remembered, h.owed⟩
  | call en =>
    cases hs
    have hk := hsn.begin en
    have ho : Owed s.log s.next none := by
      have ho := h.owed s.next
      rw [hsn.fresh s.next (Nat.le_refl _)] at ho
      exact ho
    have hr : Renders s.log s.now s.next (s.begin en) := by
      unfold Client.begin
      split
      · exact .advance h.remembered ho
      · split
        · exact .told h.remembered ho _
        · refine .goesOn h.remembered ho ?_ (advance_owes _ _)
          intro n hn
          rcases mem_cons.1 hn with rfl | hn
          · exact beq_self_eq_true s.next
          · exact advance_goesOn _ _ n hn
    have hput := h.put hr hk.others
    exact ⟨hput.remembered, hput.owed⟩
  | poll id sample =>
    obtain ⟨call, hc, hs⟩ := bind_eq_some_iff.1 hs
    obtain ⟨m, hmv, hs⟩ := bind_eq_some_iff.1 hs
    cases hs
    have ho := h.owed id
    rw [hc] at ho
    exact h.put (.poll h.remembered ho hmv)
      (Kept.poll hsn.books (hsn.budget id call hc) hmv).others
  | reply id reply sample =>
    obtain ⟨call, hc, hs⟩ := bind_eq_some_iff.1 hs
    obtain ⟨m, hmv, hs⟩ := bind_eq_some_iff.1 hs
    cases hs
    have ho := h.owed id
    rw [hc] at ho
    exact h.put
      (.reply h.remembered ho (hl call hc) hmv)
      (Kept.reply hsn.books (hsn.budget id call hc) hmv).others
  | stop id =>
    obtain ⟨call, hc, hs⟩ := bind_eq_some_iff.1 hs
    split at hs
    · cases hs
      refine h.put ⟨?_, ?_⟩ nofun
      · rw [stamped, map_nil, append_nil]
        exact h.remembered
      · have ho := h.owed id
        rw [hc] at ho
        rw [stamped, map_nil, append_nil]
        exact ho
    · cases hs
  | drop id =>
    obtain ⟨call, hc, hs⟩ := bind_eq_some_iff.1 hs
    have ho := h.owed id
    rw [hc] at ho
    split at hs
    · cases hs
    · cases hs
    · next hp hp' =>
      cases hs
      have hnn : call.owes = none := by
        unfold Call.owes
        split
        · next heq => exact absurd heq (hp _ _ _ _)
        · next heq => exact absurd heq (hp' _ _)
        · rfl
      refine h.put (.goesOn h.remembered ?_ nofun rfl) nofun
      rw [← hnn]
      exact ho

end Client

end TikTools.Tiktok
