/-
What pairing guarantees.

In every run at most eight codes are compared, a code is accepted once
and in its time, and a live session is not replaced: a code is pending
only while no session lives, because an acceptance takes the code and a
renewal waits for the end of the session (`Fenced`).

A socket outlives its session by one check at most only if no new session
is set up in between (`Guarded`): the check does not look at the session
that authorised the socket.
-/
import TikTools.Web.Pairing

namespace TikTools.Web

open TikTools.Lib Std List Option

/-- A socket whose session is the one there is, and whose next check
comes soon after that session's end. -/
def Socket.Bound (socket : Socket) (s : App) : Prop :=
  (∃ session, s.session = some session ∧ session.since = socket.since)
    ∧ ∀ loop ∈ socket.loop, loop.2 ≤ s.now
      ∨ loop.2 < socket.since + sessionLifetime + checkInterval

namespace App

variable {s t : App}

-- ==== the codes

/-- What holds of the codes and the session between any two steps. -/
structure Fenced (s : App) : Prop where
  compared : s.compared = s.attempts ∧ s.attempts ≤ 8
  issued : s.issued ≤ s.now
  numbers : ∀ a ∈ s.acceptances, a.issue ≤ s.issue
    ∧ (s.pairing ≠ none → a.issue ≠ s.issue)
  once : (s.acceptances.map Acceptance.issue).Nodup
  inTime : ∀ a ∈ s.acceptances, a.issued ≤ a.accepted
    ∧ a.accepted ≤ a.issued + pairingLifetime
  expired : s.pairing ≠ none → ∀ session ∈ s.session,
    session.since + sessionLifetime ≤ s.now
  past : ∀ session ∈ s.session, session.since ≤ s.now

theorem Start.fenced (h : Start s) : Fenced s := by
  constructor
  · rw [h.compared, h.attempts]
    exact ⟨rfl, Nat.zero_le 8⟩
  · exact h.issued
  · rw [h.acceptances]
    exact fun a ha => absurd ha not_mem_nil
  · rw [h.acceptances]
    exact nodup_nil
  · rw [h.acceptances]
    exact fun a ha => absurd ha not_mem_nil
  · rw [h.session]
    exact fun _ _ hs => absurd hs nofun
  · rw [h.session]
    exact fun _ hs => absurd hs nofun

theorem Fenced.elapse (h : Fenced s) (ti : Nat) :
    Fenced { s with now := s.now + ti } where
  compared := h.compared
  issued := Nat.le_add_right_of_le h.issued
  numbers := h.numbers
  once := h.once
  inTime := h.inTime
  expired hp session hs := Nat.le_add_right_of_le (h.expired hp session hs)
  past session hs := Nat.le_add_right_of_le (h.past session hs)

theorem Fenced.pair (h : Fenced s) (so : Bool)
    (c : Option String) : Fenced (s.pair so c) := by
  unfold App.pair
  split
  · exact h
  split
  · exact h
  next ho =>
  obtain ⟨hat, his, hp⟩ : ¬ s.attempts ≥ 8
      ∧ ¬ s.now - s.issued > pairingLifetime ∧ ¬ s.pairing = none := by
    have ho : s.Open := not_not.1 ho
    exact ⟨fun h8 => ho (.inl h8), fun hl => ho (.inr (.inl hl)),
      fun hn => ho (.inr (.inr hn))⟩
  have hc : s.compared + 1 = s.attempts + 1 ∧ s.attempts + 1 ≤ 8 :=
    ⟨congrArg (· + 1) h.compared.1, by omega⟩
  split
  · constructor
    · exact hc
    · exact h.issued
    · intro a ha
      refine ⟨?_, fun hn => absurd rfl hn⟩
      rcases mem_cons.1 ha with rfl | ha
      · exact Nat.le_refl _
      · exact (h.numbers a ha).1
    · rw [map_cons, nodup_cons]
      refine ⟨fun hm => ?_, h.once⟩
      obtain ⟨a, ha, heq⟩ := mem_map.1 hm
      exact (h.numbers a ha).2 hp heq
    · intro a ha
      rcases mem_cons.1 ha with rfl | ha
      · have hle := h.issued
        dsimp only
        omega
      · exact h.inTime a ha
    · exact fun hn => absurd rfl hn
    · rintro session ⟨⟩
      exact Nat.le_refl _
  · exact ⟨hc, h.issued, h.numbers, h.once, h.inTime, h.expired, h.past⟩

theorem Fenced.renew (h : Fenced s) (so : Bool) (c : String) :
    Fenced (s.renew so c) := by
  unfold App.renew
  split
  · exact h
  split
  · exact h
  next hl =>
  split
  · exact h
  split
  · exact h
  split
  · exact h
  refine ⟨h.compared, Nat.le_refl _, fun a ha => ?_, h.once, h.inTime,
    fun _ se hs => ?_, h.past⟩
  · have hle := (h.numbers a ha).1
    exact ⟨Nat.le_succ_of_le hle, fun _ => by dsimp only; omega⟩
  · have hd : se.live s.now = false := by
      rw [show s.session = some se from hs] at hl
      simpa using hl
    have hln := of_decide_eq_false hd
    unfold sessionLifetime at hln ⊢
    dsimp only
    omega

variable {action : Action}

theorem Fenced.next (h : Fenced s) (hn : s.next action = some t) :
    Fenced t := by
  have hs : ∀ sockets forwards, Fenced { s with sockets, forwards } :=
    fun _ _ => ⟨h.compared, h.issued, h.numbers, h.once, h.inTime,
      h.expired, h.past⟩
  cases action with
  | elapse time =>
    cases hn
    exact h.elapse time
  | pair sameOrigin candidate =>
    cases hn
    exact h.pair sameOrigin candidate
  | renew sameOrigin code =>
    cases hn
    exact h.renew sameOrigin code
  | upgrade id sameOrigin cookies =>
    obtain ⟨-, ⟨⟩⟩ := ite_none_right_eq_some.1 hn
    unfold App.upgrade
    split
    · split
      · exact hs _ _
      · exact h
    · exact h
  | connected id =>
    dsimp only [App.next] at hn
    split at hn
    · cases hn
      exact hs _ _
    · cases hn
  | tick id hostClosed =>
    dsimp only [App.next] at hn
    split at hn
    · split at hn
      · split at hn <;> cases hn <;> exact hs _ _
      · cases hn
    · cases hn
  | forward id =>
    dsimp only [App.next] at hn
    split at hn
    · cases hn
      exact hs _ _
    · cases hn
  | close id =>
    cases hn
    exact hs _ _

theorem Fenced.session_next (h : Fenced s) (hn : s.next action = some t)
    {session : Session} (hs : s.session = some session)
    (hl : s.now < session.since + sessionLifetime) :
    t.session = some session := by
  cases action with
  | pair so candidate =>
    cases hn
    unfold App.pair
    split
    · exact hs
    split
    · exact hs
    next ho =>
    have hp : s.pairing ≠ none := fun hnn =>
      not_not.1 ho (.inr (.inr hnn))
    have hexp := h.expired hp session hs
    omega
  | renew so code =>
    cases hn
    unfold App.renew
    repeat' split
    all_goals exact hs
  | elapse time =>
    cases hn
    exact hs
  | close id =>
    cases hn
    exact hs
  | upgrade id so cookies =>
    obtain ⟨-, ⟨⟩⟩ := ite_none_right_eq_some.1 hn
    unfold App.upgrade
    split
    · split <;> assumption
    · exact hs
  | connected id =>
    dsimp only [App.next] at hn
    split at hn
    · cases hn
      exact hs
    · cases hn
  | tick id hostClosed =>
    dsimp only [App.next] at hn
    split at hn
    · split at hn
      · split at hn <;> cases hn <;> exact hs
      · cases hn
    · cases hn
  | forward id =>
    dsimp only [App.next] at hn
    split at hn
    · cases hn
      exact hs
    · cases hn

-- ==== the sockets

structure Guarded (s : App) : Prop where
  sockets : ∀ (id : Nat) socket, s.sockets[id]? = some socket → socket.Bound s
  forwards : ∀ f ∈ s.forwards,
    f.forwarded < f.since + sessionLifetime + checkInterval

theorem Start.guarded (h : Start s) : Guarded s := by
  constructor
  · intro id socket hs
    rw [h.sockets, ExtTreeMap.getElem?_empty] at hs
    cases hs
  · rw [h.forwards]
    exact fun f hf => absurd hf not_mem_nil

section

variable (h : Guarded s)
include h

theorem Guarded.same (hn : t.now = s.now)
    (hss : t.session = s.session) (hs : t.sockets = s.sockets)
    (hf : t.forwards = s.forwards) : Guarded t := by
  constructor
  · intro id so hsc
    rw [hs] at hsc
    obtain ⟨hb, hl⟩ := h.sockets id so hsc
    refine ⟨hss ▸ hb, ?_⟩
    rw [hn]
    exact hl
  · rw [hf]
    exact h.forwards

theorem Guarded.put {id : Nat} {so : Socket}
    (hb : so.Bound s) :
    Guarded { s with sockets := s.sockets.insert id so } := by
  refine ⟨fun o f hf => ?_, h.forwards⟩
  rw [Table.get_insert] at hf
  split at hf
  · cases hf
    exact hb
  · exact h.sockets o f hf

theorem Guarded.drop (id : Nat) :
    Guarded { s with sockets := s.sockets.erase id } := by
  refine ⟨fun o f hf => ?_, h.forwards⟩
  rw [Table.get_erase] at hf
  split at hf
  · cases hf
  · exact h.sockets o f hf

theorem Guarded.pair {so : Bool}
    {c : Option String}
    (hr : s.Ordered (.pair so c)) :
    Guarded (s.pair so c) := by
  unfold App.pair
  split
  · exact h
  next ho =>
  split
  · exact h
  next hop =>
  split
  · next hm =>
    have hn := hr (by simpa using ho) (not_not.1 hop) hm
    refine ⟨fun id sc hs => ?_, h.forwards⟩
    have hmem : (id, sc) ∈ s.sockets.toList := Table.mem_toList.2 hs
    rw [hn] at hmem
    cases hmem
  · exact h.same rfl rfl rfl rfl

theorem Guarded.tick {id : Nat} {since st due : Nat}
    {ho : Bool}
    (hsc : s.sockets[id]? = some ⟨since, some (st, due)⟩)
    (hdue : due ≤ s.now) (hc : s.check st ho = true) :
    Guarded { s with
      sockets := s.sockets.insert id
        (⟨since, some (st, due + checkInterval)⟩) } := by
  obtain ⟨⟨se, hss, hs⟩, -⟩ := h.sockets id _ hsc
  refine h.put ⟨⟨se, hss, hs⟩, ?_⟩
  rintro _ ⟨⟩
  -- the session that passes the check is the authorising one
  have hl : se.live s.now = true := by
    unfold App.check at hc
    rw [hss] at hc
    simp only [any_some, Bool.and_eq_true] at hc
    exact hc.1.1
  have hsh := of_decide_eq_true hl
  have hs : se.since = since := hs
  dsimp only
  omega

theorem Guarded.next (ho : s.Ordered action)
    (hn : s.next action = some t) : Guarded t := by
  cases action with
  | elapse time =>
    cases hn
    refine ⟨fun id sc hs => ?_, h.forwards⟩
    obtain ⟨hb, hlp⟩ := h.sockets id sc hs
    refine ⟨hb, fun l hl => ?_⟩
    exact (hlp l hl).imp_left Nat.le_add_right_of_le
  | pair so candidate =>
    cases hn
    exact h.pair ho
  | renew so code =>
    cases hn
    unfold App.renew
    repeat' split
    all_goals first | exact h | exact h.same rfl rfl rfl rfl
  | upgrade id so cookies =>
    obtain ⟨-, ⟨⟩⟩ := ite_none_right_eq_some.1 hn
    unfold App.upgrade
    split
    · next se hss =>
      split
      · exact h.put ⟨⟨se, hss, rfl⟩, nofun⟩
      · exact h
    · exact h
  | connected id =>
    dsimp only [App.next] at hn
    split at hn
    · next si hs =>
      cases hn
      refine h.put ⟨(h.sockets id _ hs).1, ?_⟩
      rintro _ ⟨⟩
      exact .inl (Nat.le_refl _)
    · cases hn
  | tick id hostClosed =>
    dsimp only [App.next] at hn
    split at hn
    · next hs =>
      split at hn
      · next hdue =>
        split at hn
        · next hc =>
          cases hn
          exact h.tick hs hdue hc
        · cases hn
          exact h.drop id
      · cases hn
    · cases hn
  | forward id =>
    dsimp only [App.next] at hn
    split at hn
    · next si l hs =>
      cases hn
      refine ⟨fun o fo hfn => h.sockets o fo hfn, fun f hf => ?_⟩
      rcases mem_cons.1 hf with rfl | hf
      · have hbef := ho _ hs l rfl
        have hdue := (h.sockets id _ hs).2 l rfl
        dsimp only at hdue ⊢
        omega
      · exact h.forwards f hf
    · cases hn
  | close id =>
    cases hn
    exact h.drop id

end

-- ==== results

/-- Eight codes at most are compared, each is accepted once and in its
time, and no step replaces a live session. -/
structure Law (s : App) : Prop where
  compared : s.compared ≤ 8
  once : (s.acceptances.map Acceptance.issue).Nodup
  inTime : ∀ a ∈ s.acceptances, a.issued ≤ a.accepted
    ∧ a.accepted ≤ a.issued + pairingLifetime
  kept : ∀ action t, s.next action = some t → ∀ session,
    s.session = some session → s.now < session.since + sessionLifetime →
      t.session = some session

theorem Fenced.law (h : Fenced s) : Law s where
  compared := by
    have hle := h.compared
    omega
  once := h.once
  inTime := h.inTime
  kept _ _ hn _ hs hl := h.session_next hn hs hl

/-- The pairing law of every run, and of every run in order also that
whatever a socket forwards is forwarded before the first check after the
end of the session that authorised it. -/
theorem pairing_law (hstart : Start s) :
    (∀ t, Run (fun s action t => s.next action = some t)
      (fun _ _ => True) s t → Law t)
    ∧ ∀ t, Run (fun s action t => s.next action = some t) Ordered s t →
      ∀ f ∈ t.forwards,
        f.forwarded < f.since + sessionLifetime + checkInterval := by
  constructor
  · intro t hrun
    have hf : Fenced t := hrun.invariant hstart.fenced
      fun _ _ _ hinv _ hn => hinv.next hn
    exact hf.law
  · intro t hrun
    have hg : Guarded t := hrun.invariant hstart.guarded
      fun _ _ _ hinv hord hn => hinv.next hord hn
    exact hg.forwards

/-- An adapter just started. -/
def started : App where
  now := 1
  pairing := some "123456"
  issued := 1
  session := none
  attempts := 0
  renewedAt := none
  sockets := ∅
  issue := 0
  sessions := 0
  compared := 0
  acceptances := []
  forwards := []

theorem started_start : Start started :=
  ⟨rfl, Nat.le_refl _, rfl, rfl, rfl, rfl, rfl, rfl⟩

/-- A browser pairs, opens a socket and sends a call over it. -/
def firstCall : List Action :=
  [.pair true (some "123456"), .upgrade 1 true [0], .connected 1,
    .tick 1 false, .forward 1]

theorem first_call_lawful :
    ∃ t, Run (fun s action t => s.next action = some t) Ordered started t
      ∧ t.forwards = [⟨1, 1⟩]
      ∧ ∀ f ∈ t.forwards,
        f.forwarded < f.since + sessionLifetime + checkInterval := by
  have hen : (runWhile next (fun s action => decide (s.Ordered action))
      started firstCall).any (fun t => t.forwards = [⟨1, 1⟩]) = true := by
    decide +kernel
  obtain ⟨t, ht, hf⟩ := (any_eq_true _ _).1 hen
  have hrun := @Run.of_runWhile _ _ _ _ Ordered
    (fun _ _ => of_decide_eq_true) _ _ _ .refl _ ht
  exact ⟨t, hrun, of_decide_eq_true hf, (pairing_law started_start).2 t hrun⟩

/-- A socket opened shortly before the end of its session; another
browser pairs between that end and the socket's next check. -/
def secondBrowser : List Action :=
  [.pair true (some "123456"), .elapse 3595000, .upgrade 1 true [0],
    .connected 1, .tick 1 false, .elapse 6000, .renew true "654321",
    .pair true (some "654321"), .elapse 4000, .tick 1 false,
    .elapse 9999, .forward 1]

/-- Every check is made when it is due, and still the socket goes on long
after its session. -/
theorem socket_outlives_session :
    ∃ t, runActions next started secondBrowser = some t
      ∧ ∃ f ∈ t.forwards,
        f.since + sessionLifetime + checkInterval < f.forwarded := by
  have hen : (runActions next started secondBrowser).any (fun t =>
      t.forwards.any fun f =>
        f.since + sessionLifetime + checkInterval < f.forwarded) = true := by
    decide +kernel
  obtain ⟨t, ht, hany⟩ := (any_eq_true _ _).1 hen
  obtain ⟨f, hf, hl⟩ := any_eq_true.1 hany
  exact ⟨t, ht, f, hf, of_decide_eq_true hl⟩

end App

end TikTools.Web
