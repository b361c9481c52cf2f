/-
The cooldown law: a rate limit of one call holds all of them back.

That every rate limit is recorded before its caller goes on is not so: a
discovery tells its caller and records nothing (`discover_forgets`).
`cooldown_law` says that this is all: along a run the law holds exactly
when no discovery meets a rate limit.
-/
import TikTools.Tiktok.Records

namespace TikTools.Tiktok

open TikTools.Lib List Option

variable {policy : ReconnectPolicy} {now id : Nat} {call : Call}
  {cooldown : Cooldown}

-- ==== discoveries

/-- Where a discovery is: it asks three times, the last time for what it
can do without. -/
def Call.Discovers (call : Call) : Prop :=
  call.entry = .discover → ∃ request effort,
    call.phase = .asking request effort
      ∧ (call.stages = [.once .room, .bestEffort .roomInfo] ∧ effort = false
        ∨ call.stages = [.bestEffort .roomInfo] ∧ effort = false
        ∨ call.stages = [])

theorem discovers_of_connection {call : Call}
    (h : call.entry ≠ .discover) : call.Discovers :=
  fun hen => absurd hen h

theorem advance_discovers {next : Call} (h : call.Discovers)
    (hn : (call.advance id).1 = some next) : next.Discovers := by
  unfold Call.advance at hn
  intro hen
  split at hn
  · next r stages hs =>
    cases hn
    obtain ⟨_, _, -, hc⟩ := h hen
    rw [hs] at hc
    rcases hc with ⟨hc, -⟩ | ⟨hc, -⟩ | hc <;> cases hc
  · next r stages hs =>
    cases hn
    obtain ⟨_, _, -, hc⟩ := h hen
    rw [hs] at hc
    rcases hc with ⟨hc, -⟩ | ⟨hc, -⟩ | hc
    · cases hc
    · cases hc
      exact ⟨_, _, rfl, .inr (.inr rfl)⟩
    · cases hc
  · next r stages hs =>
    cases hn
    obtain ⟨_, _, -, hc⟩ := h hen
    rw [hs] at hc
    rcases hc with ⟨hc, -⟩ | ⟨hc, -⟩ | hc
    · cases hc
      exact ⟨_, _, rfl, .inr (.inl ⟨rfl, rfl⟩)⟩
    · cases hc
    · cases hc
  · split at hn
    · next hcn =>
      cases hn
      rw [hen] at hcn
      cases hcn
    · cases hn

variable {sample : Nat}

theorem fails_entry {r : Request} {a : Nat} {e : TikTokError}
    {n : Call}
    (hn : (call.fails policy id now r a e sample).1
      = some n) : n.entry = call.entry := by
  unfold Call.fails at hn
  split at hn
  · cases hn
  · split at hn
    · cases hn
      rfl
    · split at hn
      · cases hn
      · cases hn
        rfl

variable {moved : Moved}

theorem poll_discovers {n : Call} (h : call.Discovers)
    (hp : call.poll policy id now cooldown sample = some moved)
    (hn : moved.call = some n) : n.Discovers := by
  by_cases hen : call.entry = .discover
  · -- a discovery does nothing by itself but end
    obtain ⟨request, effort, hph, -⟩ := h hen
    unfold Call.poll at hp
    rw [hph] at hp
    dsimp only at hp
    split at hp
    · cases hp
      cases hn
    · cases hp
  · unfold Call.poll at hp
    have hs : ∀ {c : Call}, c.entry = call.entry → c.Discovers :=
      fun hc => discovers_of_connection (hc ▸ hen)
    split at hp
    · split at hp
      · cases hp
        cases hn
      · split at hp
        · cases hp
        · split at hp <;> cases hp <;> cases hn <;> exact hs rfl
    · split at hp
      · cases hp
        cases hn
      · obtain ⟨error, -, rfl⟩ := map_eq_some_iff.1 hp
        exact hs (fails_entry hn)
    · dsimp only at hp
      split at hp
      · cases hp
        cases hn
      · cases hp
        cases hn
        exact hs rfl
    · split at hp
      · cases hp
        cases hn
      · split at hp
        · cases hp
        · cases hp
          cases hn
          exact hs rfl
    · split at hp
      · cases hp
        cases hn
      · cases hp
    · dsimp only at hp
      split at hp
      · cases hp
        cases hn
      · cases hp
        exact advance_discovers h hn
    · split at hp
      · cases hp
        cases hn
      · cases hp

theorem reply_discovers {r : Reply} {next : Call} (h : call.Discovers)
    (hr : call.reply policy id now cooldown r sample = some moved)
    (hn : moved.call = some next) : next.Discovers := by
  unfold Call.reply at hr
  split at hr
  · cases hr
  · split at hr
    · next hp =>
      split at hr
      · split at hr
        · cases hr
          exact advance_discovers h hn
        · cases hr
          cases hn
        · cases hr
          have hen := fails_entry hn
          refine discovers_of_connection fun hd => ?_
          obtain ⟨_, _, ha, -⟩ := h (hen ▸ hd)
          rw [hp] at ha
          cases ha
      · cases hr
    · split at hr
      · split at hr
        · cases hr
          exact advance_discovers h hn
        · cases hr
          cases hn
        · dsimp only at hr
          split at hr
          · next hrm =>
            cases hr
            cases hn
            refine discovers_of_connection fun hd => ?_
            rw [hd] at hrm
            cases hrm
          · split at hr
            · cases hr
              exact advance_discovers h hn
            · cases hr
              cases hn
      · cases hr
    · next hp =>
      have hen : call.entry ≠ .discover := by
        intro hd
        obtain ⟨_, _, ha, -⟩ := h hd
        rw [hp] at ha
        cases ha
      split at hr
      · split at hr
        · cases hr
          cases hn
          exact discovers_of_connection hen
        · cases hr
          cases hn
      · cases hr
    · cases hr

theorem Law.not_forgotten {t : Client} (h : Law policy t) {log : Log}
    {n : Nat} {ra : Option Nat} {e : Option TikTokError}
    (hl : t.log = log ++ (now, .limited id n 0 ra)
      :: [(now, .told id e)]) : False := by
  have hs : t.log = (log ++ [(now, .limited id n 0 ra)])
      ++ (now, .told id e) :: [] := by
    rw [hl, append_assoc]
    rfl
  obtain ⟨_, _, hm, -⟩ := h.remembered _ _ _ _ id hs
    (beq_self_eq_true id) log now n 0 ra [] rfl
  cases hm

namespace Client

variable {s t : Client}

def Discovers (s : Client) : Prop :=
  ∀ id call, s.calls id = some call → call.Discovers

theorem Discovers.put (h : s.Discovers) {id : Nat} {moved : Moved}
    (hmv : ∀ call, moved.call = some call → call.Discovers) :
    (s.put id moved).Discovers := by
  intro o call hc
  by_cases hs : o = id
  · exact hmv call ((if_pos hs).symm.trans hc)
  · exact h o call ((if_neg hs).symm.trans hc)

variable {event : Event}

theorem Discovers.next (h : s.Discovers)
    (hs : s.step policy event = some t) : t.Discovers := by
  cases event with
  | pass elapsed =>
    cases hs
    exact h
  | call entry =>
    cases hs
    refine @Discovers.put s h s.next (s.begin entry) fun call hc => ?_
    unfold Client.begin at hc
    intro hen
    cases entry with
    | connect named => cases named <;> cases hc <;> cases hen
    | pick named => cases named <;> cases hc <;> cases hen
    | observe | browse =>
      split at hc
      · next hcn => cases hcn
      · split at hc
        · cases hc
        · cases hc
          cases hen
    | discover =>
      split at hc
      · next hcn => cases hcn
      · split at hc
        · cases hc
        · cases hc
          exact ⟨_, _, rfl, .inl ⟨rfl, rfl⟩⟩
  | poll id sample =>
    obtain ⟨call, hc, hs⟩ := bind_eq_some_iff.1 hs
    obtain ⟨moved, hmv, hs⟩ := bind_eq_some_iff.1 hs
    cases hs
    exact h.put fun next hn =>
      poll_discovers (h id call hc) hmv hn
  | reply id reply sample =>
    obtain ⟨call, hc, hs⟩ := bind_eq_some_iff.1 hs
    obtain ⟨moved, hmv, hs⟩ := bind_eq_some_iff.1 hs
    cases hs
    exact h.put fun next hn =>
      reply_discovers (h id call hc) hmv hn
  | stop id =>
    obtain ⟨call, hc, hs⟩ := bind_eq_some_iff.1 hs
    split at hs
    · next hcn =>
      cases hs
      refine h.put fun next hn => ?_
      cases hn
      refine discovers_of_connection fun hd => ?_
      rw [hd] at hcn
      cases hcn
    · cases hs
  | drop id =>
    obtain ⟨call, hc, hs⟩ := bind_eq_some_iff.1 hs
    split at hs
    · cases hs
    · cases hs
    · cases hs
      exact h.put of_none

theorem Discovers.forgets (h : s.Discovers)
    (hst : s.step policy event = some t) (hu : ¬ s.lawful event) :
    ∃ id number ra error,
      t.log = s.log ++ (s.now, .limited id number 0 ra)
        :: [(s.now, .told id error)] := by
  cases event with
  | reply id reply sample =>
    obtain ⟨call, hc, hst⟩ := bind_eq_some_iff.1 hst
    obtain ⟨moved, hmv, hst⟩ := bind_eq_some_iff.1 hst
    cases hst
    simp only [lawful, Call.lawful, not_forall] at hu
    obtain ⟨found, hf, r, effort, hp, hen, hl⟩ := hu
    rw [hc, Option.some.injEq] at hf
    subst hf
    obtain ⟨ra, hl⟩ := ne_none_iff_exists'.1 hl
    obtain ⟨error, herr, hl⟩ := bind_eq_some_iff.1 hl
    have hnt : Call.notes id call.number 0 error
        = [.limited id call.number 0 ra] := by
      rw [Call.notes, hl]
      rfl
    have hfr : call.entry.remembers r reply = none := by
      rw [hen]
      rfl
    unfold Call.reply at hmv
    split at hmv
    · cases hmv
    · rw [hp] at hmv
      dsimp only at hmv
      split at hmv
      · split at hmv
        · cases herr
        · next hn =>
          rw [herr] at hn
          cases hn
        · next other _ _ ho =>
          rw [herr, Option.some.injEq] at ho
          subst ho
          rw [hfr, hnt] at hmv
          dsimp only at hmv
          obtain ⟨_, _, ha, hs⟩ := h id call hc hen
          rw [hp] at ha
          cases ha
          split at hmv
          · next hef =>
            -- what it can do without is the last it asks for
            have hs : call.stages = [] := by
              rcases hs with ⟨-, hno⟩ | ⟨-, hno⟩ | hs
              · rw [hef] at hno
                cases hno
              · rw [hef] at hno
                cases hno
              · exact hs
            have hadv : call.advance id
                = (none, [.told id none]) := by
              unfold Call.advance
              rw [hs]
              rw [hen]
              rfl
            rw [hadv] at hmv
            cases hmv
            exact ⟨id, call.number, ra, none, rfl⟩
          · cases hmv
            exact ⟨id, call.number, ra, _, rfl⟩
      · cases hmv
  | _ => exact absurd trivial hu

-- ==== the law

theorem Sound.law (h : s.Sound policy) (hh : s.Honest) :
    Law policy s :=
  ⟨h.books.cooled, hh.remembered, h.books.bounded, h.books.final⟩

theorem Honest.empty : ({} : Client).Honest := by
  refine ⟨?_, fun id => ?_⟩
  · intro b t note a id heq
    exact absurd heq.symm (append_ne_nil_of_right_ne_nil b (cons_ne_nil _ _))
  · intro b t number attempt retryAfter a heq
    exact absurd heq.symm (append_ne_nil_of_right_ne_nil b (cons_ne_nil _ _))

/-- The exact condition: all along a run the law holds, and the cooldown
never ends earlier, when and only when no request of a discovery is
rate limited. -/
theorem cooldown_law (policy : ReconnectPolicy) (events : List Event) :
    ((∀ t, Reaches (step policy) {} events t → Law policy t)
        ∧ ∀ done event rest s t, events = done ++ event :: rest →
          runActions (step policy) {} done = some s →
          s.step policy event = some t →
          s.cooldown.expiry ≤ t.cooldown.expiry)
      ↔ ∀ done event rest s t, events = done ++ event :: rest →
        runActions (step policy) {} done = some s →
        s.step policy event = some t → s.lawful event := by
  have hsn : ∀ done rest s, events = done ++ rest →
      runActions (step policy) {} done = some s →
      s.Sound policy ∧ s.Discovers := by
    intro done rest s heq hrun
    refine @reaches_invariant _ _ (step policy)
      (fun s => s.Sound policy ∧ s.Discovers) {}
      ⟨Sound.empty policy, fun _ => of_none⟩ ?_ events s
      ⟨done, rest, heq, hrun⟩
    exact fun s event t h hst => ⟨(h.1.next hst).1, h.2.next hst⟩
  constructor
  · rintro ⟨hlaw, -⟩ done event rest s t heq hrun hst
    by_contra hu
    obtain ⟨id, number, retryAfter, error, hlog⟩ :=
      (hsn done (event :: rest) s heq hrun).2.forgets hst hu
    refine (hlaw t ⟨done ++ [event], rest, ?_, ?_⟩).not_forgotten hlog
    · rw [heq, append_assoc]
      rfl
    · rw [runActions_append, hrun]
      simp [runActions, hst]
  · intro hl
    refine ⟨?_, fun done event rest s t heq hrun hst =>
      ((hsn done (event :: rest) s heq hrun).1.next hst).2⟩
    rintro t ⟨done, rest, heq, hrun⟩
    have hh : t.Sound policy ∧ t.Honest := by
      induction done using List.reverseRecOn generalizing t rest with
      | nil =>
        cases hrun
        exact ⟨Sound.empty policy, .empty⟩
      | append_singleton done event ih =>
        rw [runActions_append] at hrun
        obtain ⟨s, hs, hls⟩ := bind_eq_some_iff.1 hrun
        have hst : s.step policy event = some t := by
          simpa [runActions] using hls
        have heq : events = done ++ event :: rest := by
          rw [heq, append_assoc]
          rfl
        obtain ⟨hbef, hr⟩ := ih s (event :: rest) heq hs
        exact ⟨(hbef.next hst).1, hr.next hbef
          (hl done event rest s t heq hs hst) hst⟩
    exact hh.1.law hh.2

/-- A discovery whose lookup is answered with 429. -/
def refusedDiscovery : List Event :=
  [.call .discover, .reply 0 .ok 0, .reply 0 (.refused (.status 429)) 0]

/-- Its caller is told, the cooldown is not extended, and the next
discovery starts at once. -/
theorem discover_forgets :
    ∃ policy t, Reaches (step policy) {}
        (refusedDiscovery ++ [.call .discover]) t
      ∧ ¬ Law policy t
      ∧ t.log = [(0, .started 0 1 1), (0, .limited 0 2 0 none),
        (0, .told 0 (some (.rateLimited none))), (0, .started 1 1 1)] := by
  let policy : ReconnectPolicy := ⟨5, fun _ _ => 2 * second⟩
  obtain ⟨t, ht⟩ := isSome_iff_exists.1
    (show (runActions (step policy) {} (refusedDiscovery
      ++ [.call .discover])).isSome by rfl)
  have hlog : t.log = [(0, .started 0 1 1), (0, .limited 0 2 0 none),
      (0, .told 0 (some (.rateLimited none))), (0, .started 1 1 1)] := by
    have hmap : (runActions (step policy) {} (refusedDiscovery
        ++ [.call .discover])).map (·.log) = some _ := rfl
    rw [ht] at hmap
    exact Option.some.inj hmap
  refine ⟨policy, t, ⟨_, [], (append_nil _).symm, ht⟩, fun hlaw => ?_, hlog⟩
  obtain ⟨_, _, hmem, -⟩ := hlaw.remembered
    [(0, .started 0 1 1), (0, .limited 0 2 0 none)] 0
    (.told 0 (some (.rateLimited none))) [(0, .started 1 1 1)] 0 hlog rfl
    [(0, .started 0 1 1)] 0 2 0 none [] rfl
  cases hmem

end Client

end TikTools.Tiktok
