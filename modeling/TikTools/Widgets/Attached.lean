/-
The connection law of the gateway client, and when it holds.

The law (`Law`) is about every state of every run: one socket at most
has handlers and its frames alone are delivered, the heartbeat beats for
a socket, the client parks only for an error before it was
authenticated, nothing is left after `disconnect`, and a status that
expects something has a socket or a timer to expect it from.

It does not hold of every run: a token that goes away between attempts,
an error behind `authenticated`, and status handlers that disconnect or
connect from within the call that told them break it (`law_broken`).
`lawful` leaves out just these steps; along a run without them the law
holds in every state (`connection_law`).
-/
import TikTools.Widgets.Gateway

namespace TikTools.Widgets

open TikTools.Lib List Option Bool

variable {parse : String → Option Json}

namespace Gateway

variable {g h : Gateway}

-- ==== law

/-- The socket has handlers. -/
def attached (g : Gateway) (id : Nat) : Prop :=
  ∃ socket, g.sockets id = some socket ∧ socket.attached = true

/-- An error frame came over the socket before it was authenticated. -/
def refusedEarly (g : Gateway) (id : Nat) : Prop :=
  ∃ before after, g.arrived = before ++ (id, .control .error) :: after
    ∧ (id, Frame.control .authenticated) ∉ before

structure Law (g : Gateway) : Prop where
  /-- Only the socket of the client has handlers. -/
  one : ∀ id, g.attached id → g.socket = some id
  /-- What was delivered came over the socket the client had. -/
  delivered : ∀ e ∈ g.delivered, e.2 = some e.1
  heartbeat : g.intervals ≠ [] → g.socket ≠ none
  /-- The last socket was refused before it was authenticated. -/
  parked : g.status = .authFailed → ∃ last, g.made = last + 1
    ∧ g.refusedEarly last
  left : g.disconnected = true → g.status = .closed ∧ g.socket = none
    ∧ g.timeouts = [] ∧ g.intervals = []
  /-- Between two events nobody waits in vain. -/
  waits : g.stack = [] → g.status.waits = true →
    g.socket ≠ none ∨ g.timeouts ≠ []

-- ==== lawful

/-- A call that is to go on will attach a socket or arm the timer. -/
def Rest.pending : Rest → Bool
  | .attach .. | .arm => true
  | _ => false

/-- A call of `connect` that finds no token is not the one the overlay
waits for. -/
def finds (g : Gateway) (token : Option String) : Prop :=
  g.usable token ≠ none ∨ g.socket ≠ none ∨ g.status.waits = false
    ∨ ∃ rest ∈ g.stack, Rest.pending rest = true

/-- What the status handlers left is what the call that told them
expects. -/
def expected (g : Gateway) : Rest → Prop
  | .attach _ constructs =>
    constructs = true → g.socket = none ∧ g.intentionalClose = false
  | .arm => g.reconnectTimer = none ∧ g.intentionalClose = false
  | .startHeartbeat => g.status = .connected
  | _ => True

def lawful (parse : String → Option Json) (g : Gateway) : Event → Prop
  | .connect token _ | .retryNow token _ | .timeout _ token _
  | .online token _ => g.finds token
  | .resume _ => ∀ rest ∈ g.stack.head?, g.expected rest
  | .frame id text _ =>
    g.attached id → readFrame parse text = .control .error →
    g.status = .authenticating →
    (id, Frame.control .authenticated) ∉ g.arrived
  | _ => True

-- ==== invariant

/-- The client has an open socket. -/
def live (g : Gateway) : Prop :=
  ∃ id socket, g.socket = some id ∧ g.sockets id = some socket
    ∧ socket.readyState ≠ .connecting

/-- What every lawful step keeps, apart from whom the overlay waits
for. -/
structure Base (g : Gateway) : Prop where
  one : ∀ id, g.attached id → g.socket = some id
  last : ∀ id, g.socket = some id → g.made = id + 1
  delivered : ∀ e ∈ g.delivered, e.2 = some e.1
  timer : g.timeouts = g.reconnectTimer.toList
  interval : g.intervals = g.heartbeatTimer.toList
  beats : g.heartbeatTimer ≠ none →
    g.stack = [] ∧ g.status = .connected ∧ g.live
  begins : .startHeartbeat ∈ g.stack → g.status = .connected → g.live
  bottom : ∀ above below, g.stack = above ++ .startHeartbeat :: below →
    below = []
  shut : g.intentionalClose = true → g.status = .closed ∧ g.socket = none
    ∧ g.reconnectTimer = none ∧ g.heartbeatTimer = none
  left : g.disconnected = true → g.intentionalClose = true
  parked : g.status = .authFailed → (∀ rest ∈ g.stack, rest = .nothing)
    ∧ ∃ last, g.made = last + 1 ∧ g.refusedEarly last

/-- Whom the overlay waits for. -/
def Awaited (g : Gateway) : Prop :=
  g.status.waits = true → g.socket ≠ none ∨ g.reconnectTimer ≠ none
    ∨ ∃ rest ∈ g.stack, Rest.pending rest = true

structure Sound (g : Gateway) : Prop where
  base : Base g
  awaited : Awaited g

theorem Sound.law (h : Sound g) : Law g := by
  refine ⟨h.base.one, h.base.delivered, ?_, fun hp =>
    (h.base.parked hp).2, ?_, ?_⟩
  · intro hb hn
    rw [h.base.interval] at hb
    have hon : g.heartbeatTimer ≠ none := by
      intro ho
      rw [ho] at hb
      exact hb rfl
    obtain ⟨-, -, id, socket, hs, -⟩ := h.base.beats hon
    rw [hn] at hs
    cases hs
  · intro hl
    obtain ⟨hsta, hs, ht, hbt⟩ := h.base.shut (h.base.left hl)
    refine ⟨hsta, hs, ?_, ?_⟩
    · rw [h.base.timer, ht]
      rfl
    · rw [h.base.interval, hbt]
      rfl
  · intro hst hw
    rcases h.awaited hw with hs | ht | ⟨rest, hr, -⟩
    · exact .inl hs
    · right
      rw [h.base.timer]
      intro hn
      exact ht (toList_eq_nil_iff.1 hn)
    · rw [hst] at hr
      cases hr

-- ==== timers

theorem clearReconnectTimer_eq (h : g.timeouts = g.reconnectTimer.toList) :
    g.clearReconnectTimer
      = { g with timeouts := [], reconnectTimer := none } := by
  unfold clearReconnectTimer
  split
  · next hn =>
    cases g
    simp only at h hn
    subst h hn
    rfl
  · next id hs =>
    rw [hs] at h
    rw [h]
    simp

theorem clearHeartbeat_eq (h : g.intervals = g.heartbeatTimer.toList) :
    g.clearHeartbeat
      = { g with intervals := [], heartbeatTimer := none } := by
  unfold clearHeartbeat
  split
  · next hn =>
    cases g
    simp only at h hn
    subst h hn
    rfl
  · next id hs =>
    rw [hs] at h
    rw [h]
    simp

theorem closeSocket_eq (h : ∀ id, g.attached id → g.socket = some id) :
    ∃ sockets : Nat → Option Socket,
      g.closeSocket = { g with socket := none, sockets }
        ∧ ∀ id socket, sockets id = some socket →
          socket.attached = false := by
  unfold closeSocket
  split
  · next hn =>
    refine ⟨g.sockets, by rw [← hn], fun id socket hs => ?_⟩
    cases ha : socket.attached with
    | false => rfl
    | true =>
      have hso := h id ⟨socket, hs, ha⟩
      rw [hn] at hso
      cases hso
  · next id hso =>
    have ho : ∀ other socket, other ≠ id →
        g.sockets other = some socket → socket.attached = false := by
      intro other socket hne hs
      cases ha : socket.attached with
      | false => rfl
      | true =>
        have hsm := h other ⟨socket, hs, ha⟩
        rw [hso, Option.some.injEq] at hsm
        exact absurd hsm.symm hne
    dsimp only
    split
    · next hg =>
      refine ⟨g.sockets, rfl, fun other socket hs => ?_⟩
      refine ho other socket ?_ hs
      rintro rfl
      rw [hg] at hs
      cases hs
    · refine ⟨_, rfl, fun other socket hs => ?_⟩
      by_cases hsm : other = id
      · rw [if_pos hsm] at hs
        cases hs
        rfl
      · rw [if_neg hsm] at hs
        exact ho other socket hsm hs

-- ==== parts

theorem Base.not_live (h : g.socket = none) : ¬ g.live := by
  rintro ⟨id, socket, hs, -⟩
  rw [h] at hs
  cases hs

theorem Base.off (h : Base g) (hs : g.stack ≠ []) :
    g.heartbeatTimer = none := by
  by_contra hon
  exact hs (h.beats hon).1

theorem Base.off_of_none (h : Base g) (hs : g.socket = none) :
    g.heartbeatTimer = none := by
  by_contra hon
  exact not_live hs (h.beats hon).2.2

theorem bottom_cons {r : Rest} {s : List Rest}
    (hr : r ≠ .startHeartbeat)
    (h : ∀ a b, s = a ++ .startHeartbeat :: b → b = []) (a b : List Rest)
    (heq : r :: s = a ++ .startHeartbeat :: b) :
    b = [] := by
  cases a with
  | nil => exact absurd (List.cons.inj heq).1 hr
  | cons first a => exact h a b (List.cons.inj heq).2

theorem Base.armed (h : Base g) (htm : g.reconnectTimer = none)
    (ho : g.intentionalClose = false) : Sound g.arm := by
  have ht : g.timeouts = [] := by
    rw [h.timer, htm]
    rfl
  refine ⟨{ h with
    timer := ?_
    shut := fun hs => absurd (ho.symm.trans hs) nofun }, fun _ =>
      .inr (.inl (some_ne_none _))⟩
  show g.timeouts ++ [g.timers] = [g.timers]
  rw [ht]
  rfl

theorem Base.schedule (h : Base g) (hf : g.heartbeatTimer = none) :
    Sound g.scheduleReconnect := by
  unfold scheduleReconnect
  split
  · next hst =>
    refine ⟨h, fun hw => ?_⟩
    rcases hst with hs | ht
    · rw [(h.shut hs).1] at hw
      cases hw
    · exact .inr (.inl ht)
  · next hg =>
    obtain ⟨ho, ht⟩ := not_or.1 hg
    have ho := eq_false_iff.2 ho
    have ht := not_not.1 ht
    unfold setStatus
    split
    · exact h.armed ht ho
    · refine ⟨{ h with
        beats := fun hon => absurd hf hon
        begins := fun _ hc => by cases hc
        bottom := bottom_cons nofun h.bottom
        shut := fun hs => absurd (ho.symm.trans hs) nofun
        parked := fun hp => by cases hp },
        fun _ => .inr (.inr ⟨.arm, mem_cons_self, rfl⟩)⟩

-- ==== sockets

theorem putSocket_self (g : Gateway) (id : Nat) (socket : Socket) :
    (g.putSocket id socket).sockets id = some socket :=
  if_pos rfl

theorem putSocket_ne (g : Gateway) {id other : Nat} (socket : Socket)
    (hne : other ≠ id) :
    (g.putSocket id socket).sockets other = g.sockets other :=
  if_neg hne

theorem Base.attach (h : Base g) {token : String} {c : Bool}
    (hed : c = true → g.socket = none ∧ g.intentionalClose = false)
    (hoff : g.heartbeatTimer = none) (hst : g.status ≠ .authFailed) :
    Sound (g.attach token c) := by
  unfold Gateway.attach
  split
  · next hc =>
    obtain ⟨hn, ho⟩ := hed hc
    refine ⟨{ h with
      one := ?_
      last := fun id hid => by cases hid; rfl
      beats := fun hon => absurd hoff hon
      begins := fun hin hcn =>
        absurd (h.begins hin hcn) (not_live hn)
      shut := fun hsh => absurd (ho.symm.trans hsh) nofun
      parked := fun hp => absurd hp hst },
      fun _ => .inl (some_ne_none _)⟩
    rintro id ⟨socket, hsc, ha⟩
    by_cases hs : id = g.made
    · exact congrArg some hs.symm
    · have hbef : g.sockets id = some socket :=
        (putSocket_ne g _ hs).symm.trans hsc
      rw [h.one id ⟨socket, hbef, ha⟩] at hn
      cases hn
  · exact h.schedule hoff

theorem Base.clearTimer (h : Base g) :
    Base { g with timeouts := [], reconnectTimer := none } :=
  { h with
    timer := rfl
    shut := fun hs =>
      ⟨(h.shut hs).1, (h.shut hs).2.1, rfl, (h.shut hs).2.2.2⟩ }

theorem Base.connect (h : Base g) (ho : g.disconnected = false)
    {token : Option String} (c : Bool) (hf : g.finds token) :
    Sound (g.connect token c) := by
  have hc : Base { g with
      intentionalClose := false, timeouts := [], reconnectTimer := none } :=
    { h.clearTimer with
      shut := nofun
      left := fun hl => absurd (ho.symm.trans hl) nofun }
  have hcl : { g with intentionalClose := false }.clearReconnectTimer
      = { g with
        intentionalClose := false, timeouts := [], reconnectTimer := none } :=
    clearReconnectTimer_eq h.timer
  unfold Gateway.connect
  rw [hcl]
  dsimp only
  split
  · next hsc => exact ⟨hc, fun _ => .inl hsc⟩
  · next hsc =>
    have hn : g.socket = none := not_not.1 hsc
    split
    · next hu =>
      refine ⟨hc, fun hw => ?_⟩
      rcases hf with hus | hsm | hid | hpn
      · exact absurd hu hus
      · exact absurd hsm hsc
      · exact absurd (hid.symm.trans hw) nofun
      · exact .inr (.inr hpn)
    · next token _ =>
      have hoff := h.off_of_none hn
      generalize hst : (if g.attempt = 0 then GatewayStatus.connecting
        else .reconnecting) = status
      have hp : status ≠ .authFailed := by
        rw [← hst]
        split <;> nofun
      have hcn : status ≠ .connected := by
        rw [← hst]
        split <;> nofun
      unfold setStatus
      split
      · next hs =>
        exact hc.attach (fun _ => ⟨hn, rfl⟩) hoff (hs ▸ hp)
      · refine ⟨{ hc with
          beats := fun hon => absurd hoff hon
          begins := fun _ hs => absurd hs hcn
          bottom := bottom_cons nofun h.bottom
          shut := nofun
          parked := fun hs => absurd hs hp },
          fun _ => .inr (.inr ⟨.attach token c, mem_cons_self, rfl⟩)⟩

theorem Base.disconnect (h : Base { g with disconnected := false }) :
    Sound g.disconnect := by
  have ht : { g with intentionalClose := true }.clearReconnectTimer
      = { g with
        intentionalClose := true, timeouts := [], reconnectTimer := none } :=
    clearReconnectTimer_eq h.timer
  have hbt : { g with
      intentionalClose := true, timeouts := []
      reconnectTimer := none }.clearHeartbeat
      = { g with
        intentionalClose := true, timeouts := [], reconnectTimer := none
        intervals := [], heartbeatTimer := none } :=
    clearHeartbeat_eq h.interval
  obtain ⟨sockets, hc, hn⟩ := @closeSocket_eq { g with
    intentionalClose := true, timeouts := [], reconnectTimer := none
    intervals := [], heartbeatTimer := none, onlineHandler := false } h.one
  unfold Gateway.disconnect
  rw [ht, hbt]
  dsimp only
  rw [hc]
  -- the status is closed now, whether it was before or not
  have hd : ∀ stack, (∀ above below, stack
        = above ++ Rest.startHeartbeat :: below → below = []) →
      Sound { g with
        intentionalClose := true, timeouts := [], reconnectTimer := none
        intervals := [], heartbeatTimer := none, onlineHandler := false
        socket := none, sockets, attempt := 0, status := .closed
        stack } := by
    intro stack hb
    exact ⟨{
      one := fun id ⟨socket, hsc, ha⟩ =>
        absurd ((hn id socket hsc).symm.trans ha) nofun
      last := nofun
      delivered := h.delivered
      timer := rfl
      interval := rfl
      beats := fun hon => absurd rfl hon
      begins := fun _ hcn => by cases hcn
      bottom := hb
      shut := fun _ => ⟨rfl, rfl, rfl, rfl⟩
      left := fun _ => rfl
      parked := fun hp => by cases hp },
      fun hw => by cases hw⟩
  unfold setStatus
  split
  · next hs =>
    have hst : g.status = .closed := hs
    have hres := hd g.stack h.bottom
    rw [← hst] at hres
    exact hres
  · exact hd _ (bottom_cons nofun h.bottom)

theorem Sound.retryNow (h : Sound g) {token : Option String}
    (c : Bool) (hf : g.finds token) :
    Sound (g.retryNow token c) := by
  unfold Gateway.retryNow
  split
  · exact h
  · next hg =>
    have ho : g.disconnected = false := by
      refine eq_false_iff.2 fun hl => hg (.inr ?_)
      exact h.base.left hl
    exact @Base.connect { g with attempt := 0 } { h.base with } ho token c hf

theorem Sound.online (h : Sound g) {token : Option String}
    (c : Bool) (hf : g.finds token) :
    Sound (g.online token c) := by
  unfold Gateway.online
  split
  · next hg =>
    have ho : g.disconnected = false := by
      refine eq_false_iff.2 fun hl => hg.2.1 ?_
      exact h.base.left hl
    rw [clearReconnectTimer_eq h.base.timer]
    exact @Base.connect { g with
        timeouts := [], reconnectTimer := none, attempt := 0 }
      { h.base.clearTimer with } ho token c hf
  · exact h

theorem Sound.timeout (h : Sound g) {id : Nat} (hid : id ∈ g.timeouts)
    {token : Option String} (c : Bool) (hf : g.finds token) :
    Sound ({ g with
      timeouts := g.timeouts.erase id
      reconnectTimer := none }.connect token c) := by
  -- the timer that fires is the one there is
  have hown : g.timeouts = [id] := by
    have ht := h.base.timer
    cases hr : g.reconnectTimer with
    | none =>
      rw [ht, hr] at hid
      cases hid
    | some own =>
      rw [ht, hr] at hid
      rw [ht, hr]
      cases mem_singleton.1 hid
      rfl
  have ho : g.disconnected = false := by
    refine eq_false_iff.2 fun hl => ?_
    have hn := (h.base.shut (h.base.left hl)).2.2.1
    rw [h.base.timer, hn] at hown
    cases hown
  have hes : g.timeouts.erase id = [] := by
    rw [hown]
    simp
  rw [hes]
  exact @Base.connect { g with timeouts := [], reconnectTimer := none }
    h.base.clearTimer ho token c hf

theorem send_eq (g : Gateway) (m : Message) :
    ∃ sent, g.send m = { g with sent } := by
  unfold send
  split
  · exact ⟨g.sent, rfl⟩
  · split
    · exact ⟨_, rfl⟩
    · exact ⟨g.sent, rfl⟩

theorem Sound.send (h : Sound g) (m : Message) :
    Sound (g.send m) := by
  obtain ⟨sent, hs⟩ := send_eq g m
  rw [hs]
  exact ⟨{ h.base with }, h.awaited⟩

theorem Base.startHeartbeat (h : Base g) (hst : g.stack = [])
    (hsta : g.status = .connected) (hl : g.live) (now : Nat) :
    Sound (g.startHeartbeat now) := by
  unfold Gateway.startHeartbeat
  rw [clearHeartbeat_eq h.interval]
  obtain ⟨id, s, hs, ho⟩ := hl
  have hsm : g.socket ≠ none := by
    rw [hs]
    exact some_ne_none id
  refine ⟨{ h with
    interval := rfl
    beats := fun _ => ⟨hst, hsta, id, s, hs, ho⟩
    shut := fun hsh => absurd (h.shut hsh).2.1 hsm },
    fun _ => .inl hsm⟩

theorem Sound.resume (h : Sound g) {now : Nat} {g' : Gateway}
    (hed : ∀ rest ∈ g.stack.head?, g.expected rest)
    (hr : g.resume now = some g') : Sound g' := by
  unfold Gateway.resume at hr
  split at hr
  · cases hr
  · next rest stack hs =>
    have hoff : g.heartbeatTimer = none := h.base.off (by
      rw [hs]
      exact cons_ne_nil _ _)
    have hed := hed rest (by rw [hs]; rfl)
    have hin : ∀ other ∈ stack, other ∈ g.stack := by
      intro other ho
      rw [hs]
      exact mem_cons_of_mem _ ho
    have hp : Base { g with stack } :=
      { h.base with
        beats := fun hon => absurd hoff hon
        begins := fun hb => h.base.begins (hin _ hb)
        bottom := fun above below heq => h.base.bottom (rest :: above)
          below (hs.trans (congrArg (List.cons rest) heq))
        parked := fun hpr =>
          ⟨fun other ho => (h.base.parked hpr).1 other
            (hin other ho), (h.base.parked hpr).2⟩ }
    have ha : Rest.pending rest = false →
        Awaited { g with stack } := by
      intro hrs hw
      rcases h.awaited hw with hsc | ht
        | ⟨other, ho, hpn⟩
      · exact .inl hsc
      · exact .inr (.inl ht)
      · rw [hs] at ho
        rcases mem_cons.1 ho with rfl | ho
        · exact absurd (hrs.symm.trans hpn) nofun
        · exact .inr (.inr ⟨other, ho, hpn⟩)
    cases hr
    cases rest with
    | attach token c =>
      refine hp.attach hed hoff fun hpr => ?_
      have hn := (h.base.parked hpr).1
        (.attach token c) (by rw [hs]; exact mem_cons_self)
      cases hn
    | sendAuth token =>
      exact Sound.send ⟨hp, ha rfl⟩ _
    | startHeartbeat =>
      have hem : stack = [] := h.base.bottom [] stack hs
      have hl := h.base.begins (by
        rw [hs]
        exact mem_cons_self) hed
      exact hp.startHeartbeat hem hed hl now
    | arm => exact hp.armed hed.1 hed.2
    | nothing => exact ⟨hp, ha rfl⟩

-- ==== frames

theorem Base.heard (h : Base g) {id : Nat} {s : Socket}
    (hsc : g.sockets id = some s)
    (ha : s.attached = true) :
    g.socket = some id ∧ g.intentionalClose = false := by
  have hown := h.one id ⟨s, hsc, ha⟩
  refine ⟨hown, eq_false_iff.2 fun hs => ?_⟩
  rw [(h.shut hs).2.1] at hown
  cases hown

theorem Sound.handleControl (h : Sound g) {id : Nat} {s : Socket}
    (hst : g.stack = []) (hsc : g.sockets id = some s)
    (ha : s.attached = true)
    (hop : s.readyState = .opened) {m : ControlMessage}
    (now : Nat)
    (hea : m = .error → g.status = .authenticating →
      g.refusedEarly id) : Sound (g.handleControl m now) := by
  obtain ⟨hown, ho⟩ := h.base.heard hsc ha
  have hl : g.live := ⟨id, s, hown, hsc, by rw [hop]; nofun⟩
  have hsm : g.socket ≠ none := by
    rw [hown]
    exact some_ne_none id
  cases m with
  | authenticated => exact h.send _
  | pong => exact h
  | subscribed =>
    have hr : Base { g with attempt := 0 } := { h.base with }
    show Sound (setStatus { g with attempt := 0 } _ _ _)
    unfold setStatus
    split
    · next hc =>
      exact hr.startHeartbeat hst hc hl now
    · next hc =>
      have hoff : g.heartbeatTimer = none := by
        by_contra hon
        exact hc (h.base.beats hon).2.1
      refine ⟨{ hr with
        beats := fun hon => absurd hoff hon
        begins := fun _ _ => hl
        bottom := ?_
        shut := fun hsh => absurd (ho.symm.trans hsh) nofun
        parked := fun hp => by cases hp },
        fun _ => .inl hsm⟩
      intro a below heq
      have heq : Rest.startHeartbeat :: g.stack
          = a ++ .startHeartbeat :: below := heq
      rw [hst] at heq
      cases a with
      | nil => exact (List.cons.inj heq).2.symm
      | cons first a =>
        exact absurd (List.cons.inj heq).2.symm
          (append_ne_nil_of_right_ne_nil a (cons_ne_nil _ _))
  | error =>
    show Sound (if g.status = .authenticating then _ else g)
    split
    · next hs =>
      have hrf := hea rfl hs
      have hoff : g.heartbeatTimer = none := by
        by_contra hon
        rw [(h.base.beats hon).2.1] at hs
        cases hs
      obtain ⟨sockets, hcl, hn⟩ := @closeSocket_eq { g with
        timeouts := [], reconnectTimer := none } h.base.one
      rw [clearReconnectTimer_eq h.base.timer, hcl]
      unfold setStatus
      rw [if_neg (by
        rw [hs]
        nofun)]
      refine ⟨{
        one := fun other ⟨found, hf, hon⟩ =>
          absurd ((hn other found hf).symm.trans hon) nofun
        last := nofun
        delivered := h.base.delivered
        timer := rfl
        interval := h.base.interval
        beats := fun hon => absurd hoff hon
        begins := fun _ hc => by cases hc
        bottom := bottom_cons nofun h.base.bottom
        shut := fun hsh => absurd (ho.symm.trans hsh) nofun
        left := h.base.left
        parked := fun _ => ⟨?_, id, h.base.last id hown, hrf⟩ },
        fun hw => by cases hw⟩
      intro rest hrs
      rw [hst] at hrs
      exact mem_singleton.1 hrs
    · exact h

theorem Sound.handleFrame (h : Sound g) {id : Nat} {s : Socket}
    (hst : g.stack = []) (hs : g.sockets id = some s)
    (ha : s.attached = true)
    (ho : s.readyState = .opened) (f : Frame) (now : Nat)
    (hea : f = .control .error → g.status = .authenticating →
      g.refusedEarly id) : Sound (g.handleFrame id f now) := by
  have hh : Sound { g with lastFrameAt := now } :=
    ⟨{ h.base with }, h.awaited⟩
  have hown := (h.base.heard hs ha).1
  have hd : ∀ e ∈ g.delivered ++ [(id, g.socket)],
      e.2 = some e.1 := by
    intro e he
    rcases mem_append.1 he with he | he
    · exact h.base.delivered e he
    · cases mem_singleton.1 he
      exact hown
  cases f with
  | empty => exact h
  | ignored => exact hh
  | control m =>
    exact @Sound.handleControl { g with lastFrameAt := now } hh id
      s hst hs ha ho m now
      fun herr hsta => hea (by rw [herr]) hsta
  | gap => exact ⟨{ h.base with delivered := hd }, h.awaited⟩
  | event => exact ⟨{ h.base with delivered := hd }, h.awaited⟩

theorem Sound.putSocket (h : Sound g) {id : Nat} {before after : Socket}
    (hbef : g.sockets id = some before)
    (ha : after.attached = before.attached)
    (hr : after.readyState ≠ .connecting) :
    Sound (g.putSocket id after) := by
  have hl : g.live → (g.putSocket id after).live := by
    rintro ⟨other, socket, hs, hf, ho⟩
    by_cases hsm : other = id
    · subst hsm
      exact ⟨other, after, hs, putSocket_self g other after, hr⟩
    · exact ⟨other, socket, hs, (putSocket_ne g after hsm).trans hf, ho⟩
  refine ⟨{ h.base with
    one := ?_
    beats := fun hon => ⟨(h.base.beats hon).1, (h.base.beats hon).2.1,
      hl (h.base.beats hon).2.2⟩
    begins := fun hin hc =>
      hl (h.base.begins hin hc) }, h.awaited⟩
  rintro other ⟨socket, hs, hon⟩
  by_cases hsm : other = id
  · subst hsm
    rw [putSocket_self, Option.some.injEq] at hs
    subst hs
    exact h.base.one other ⟨before, hbef, ha.symm.trans hon⟩
  · rw [putSocket_ne g after hsm] at hs
    exact h.base.one other ⟨socket, hs, hon⟩

theorem Base.letGo (h : Base g) (hst : g.stack = []) :
    Base g.closeSocket.clearHeartbeat
      ∧ g.closeSocket.clearHeartbeat.heartbeatTimer = none := by
  obtain ⟨sockets, hc, hn⟩ := closeSocket_eq h.one
  have hbt : { g with socket := none, sockets }.clearHeartbeat
      = { g with
        socket := none, sockets, intervals := [], heartbeatTimer := none } :=
    clearHeartbeat_eq h.interval
  rw [hc, hbt]
  refine ⟨{
    one := fun id ⟨socket, hsc, ha⟩ =>
      absurd ((hn id socket hsc).symm.trans ha) nofun
    last := nofun
    delivered := h.delivered
    timer := h.timer
    interval := rfl
    beats := fun hon => absurd rfl hon
    begins := fun hb => ?_
    bottom := h.bottom
    shut := fun hs => ⟨(h.shut hs).1, rfl, (h.shut hs).2.2.1, rfl⟩
    left := h.left
    parked := h.parked }, rfl⟩
  rw [hst] at hb
  cases hb

theorem Sound.handleClose (h : Sound g) (hs : g.stack = []) :
    Sound g.handleClose := by
  obtain ⟨hg, ho⟩ := h.base.letGo hs
  unfold Gateway.handleClose
  dsimp only
  split
  · next hsh =>
    refine ⟨hg, fun hw => ?_⟩
    rw [(hg.shut hsh).1] at hw
    cases hw
  · split
    · next hp =>
      refine ⟨hg, fun hw => ?_⟩
      rw [hp] at hw
      cases hw
    · exact hg.schedule ho

theorem Sound.heartbeat (h : Sound g) (hs : g.stack = []) (now : Nat) :
    Sound (g.heartbeat now) := by
  unfold Gateway.heartbeat
  split
  · obtain ⟨hg, ho⟩ := h.base.letGo hs
    exact hg.schedule ho
  · exact h.send _

theorem Sound.opened (h : Sound g) {id : Nat} {s : Socket}
    (hs : g.sockets id = some s)
    (hc : s.readyState = .connecting)
    (ha : s.attached = true) (now : Nat) :
    Sound (({ g.putSocket id { s with readyState := .opened } with
      lastFrameAt := now } : Gateway).setStatus .authenticating
        (.sendAuth s.token)
        (Gateway.send · (.auth s.token))) := by
  obtain ⟨hw, hop⟩ := h.base.heard hs ha
  have hput : Sound (g.putSocket id { s with readyState := .opened }) :=
    h.putSocket hs rfl nofun
  have hh : Sound { g.putSocket id { s with
      readyState := .opened } with lastFrameAt := now } :=
    ⟨{ hput.base with }, hput.awaited⟩
  have hoff : g.heartbeatTimer = none := by
    by_contra hon
    obtain ⟨other, found, ho, hf, hr⟩ := (h.base.beats hon).2.2
    rw [hw, Option.some.injEq] at ho
    subst ho
    rw [hs, Option.some.injEq] at hf
    subst hf
    exact hr hc
  have hsm : g.socket ≠ none := by
    rw [hw]
    exact some_ne_none id
  unfold setStatus
  split
  · exact hh.send _
  · exact ⟨{ hh.base with
      beats := fun hon => absurd hoff hon
      begins := fun _ hcn => by cases hcn
      bottom := bottom_cons nofun h.base.bottom
      shut := fun hsh => absurd (hop.symm.trans hsh) nofun
      parked := fun hp => by cases hp },
      fun _ => .inl hsm⟩

-- ==== runs

theorem onSocket_eq_some {id : Nat} {f : Socket → Option Gateway}
    {g' : Gateway} (h : g.onSocket id f = some g') :
    g.stack = [] ∧ ∃ s, g.sockets id = some s ∧ f s = some g' := by
  unfold onSocket at h
  split at h
  · next hs => exact ⟨hs, bind_eq_some_iff.1 h⟩
  · cases h

theorem Sound.frame (h : Sound g) {id : Nat} {s : Socket}
    (hs : g.stack = []) (hsc : g.sockets id = some s)
    (ha : s.attached = true)
    (ho : s.readyState = .opened) (f : Frame) (now : Nat)
    (hl : f = .control .error → g.status = .authenticating →
      (id, Frame.control .authenticated) ∉ g.arrived) :
    Sound (({ g with
      arrived := g.arrived ++ [(id, f)] } : Gateway).handleFrame id
        f now) := by
  have hg : Sound { g with arrived := g.arrived ++ [(id, f)] } := by
    refine ⟨{ h.base with parked := fun hp => ?_ }, h.awaited⟩
    obtain ⟨hst, l, hmd, b, a, hb, hea⟩ := h.base.parked hp
    refine ⟨hst, l, hmd, b, a ++ [(id, f)], ?_, hea⟩
    rw [hb, append_assoc]
    rfl
  refine @Sound.handleFrame { g with
    arrived := g.arrived ++ [(id, f)] } hg id s hs hsc ha ho f now ?_
  rintro rfl hsta
  exact ⟨g.arrived, [], rfl, hl rfl hsta⟩

theorem Sound.next (h : Sound g) {event : Event} {g' : Gateway}
    (hl : g.lawful parse event)
    (hs : g.step parse event = some g') : Sound g' := by
  cases event with
  | connect token c =>
    cases hs
    exact @Base.connect { g with disconnected := false }
      { h.base with left := nofun } rfl token c hl
  | disconnect =>
    cases hs
    exact @Base.disconnect { g with disconnected := true }
      { h.base with left := nofun }
  | retryNow token c =>
    cases hs
    exact h.retryNow c hl
  | resume now => exact h.resume hl hs
  | online token c =>
    unfold step at hs
    dsimp only at hs
    split at hs
    · cases hs
      exact h.online c hl
    · cases hs
  | timeout id token c =>
    unfold step at hs
    dsimp only at hs
    split at hs
    · next hf =>
      cases hs
      exact h.timeout hf.2 c hl
    · cases hs
  | interval id now =>
    unfold step at hs
    dsimp only at hs
    split at hs
    · next hf =>
      cases hs
      exact h.heartbeat hf.1 now
    · cases hs
  | opened id now =>
    obtain ⟨hst, socket, hsc, hs⟩ := onSocket_eq_some hs
    split at hs
    · next hc =>
      split at hs
      · next ha =>
        cases hs
        exact h.opened hsc hc ha now
      · cases hs
        exact h.putSocket hsc rfl nofun
    · cases hs
  | frame id text now =>
    obtain ⟨hst, socket, hsc, hs⟩ := onSocket_eq_some hs
    split at hs
    · next ho =>
      split at hs
      · next ha =>
        cases hs
        exact h.frame hst hsc ha ho _ now (hl ⟨socket, hsc, ha⟩)
      · cases hs
        exact h
    · cases hs
  | closed id =>
    obtain ⟨hst, socket, hsc, hs⟩ := onSocket_eq_some hs
    split at hs
    · cases hs
    · have hput : Sound (g.putSocket id { socket with
          readyState := .closed }) := h.putSocket hsc rfl nofun
      split at hs
      · cases hs
        exact hput.handleClose hst
      · cases hs
        exact hput

theorem sound_new (impl window : Bool) (heartbeatMs : Nat) :
    Sound { impl, window, heartbeatMs } := by
  refine ⟨{
    one := ?_
    last := nofun
    delivered := nofun
    timer := rfl
    interval := rfl
    beats := fun hon => absurd rfl hon
    begins := nofun
    bottom := fun above below heq => absurd heq.symm
      (append_ne_nil_of_right_ne_nil above (cons_ne_nil _ _))
    shut := nofun
    left := nofun
    parked := nofun }, nofun⟩
  rintro id ⟨socket, hs, -⟩
  cases hs

/-- Along a run in which every step is lawful, the law holds in every
state. -/
theorem connection_law (parse : String → Option Json)
    (impl window : Bool) (heartbeatMs : Nat) {g : Gateway}
    (hrun : Run (fun g event g' => step parse g event = some g')
      (lawful parse) { impl, window, heartbeatMs } g) : Law g :=
  (hrun.invariant (sound_new impl window heartbeatMs)
    fun _ _ _ hs hl hst => hs.next hl hst).law

/-- What `JSON.parse` makes of the texts below. -/
def parseControl (text : String) : Option Json :=
  if text = "\x7b\"type\":\"authenticated\"\x7d" then
    some (.object [("type", .string "authenticated")])
  else if text = "\x7b\"type\":\"error\",\"error\":\"no topic\"\x7d" then
    some (.object [("error", .string "no topic"), ("type", .string "error")])
  else none

/-- A client connects and is disconnected. -/
theorem connection_law_disconnected : ∃ g,
    runActions (step parseControl) {}
      [.connect (some "ttw") true, .resume 0, .disconnect] = some g
      ∧ Law g := by
  refine ⟨_, rfl, connection_law parseControl true true 20000
    (.tail .disconnect (.tail (.resume 0) (.tail
      (.connect (some "ttw") true) .refl (.inl ?_) rfl) ?_ rfl) trivial
      rfl)⟩
  · decide
  · rintro rest hr
    cases hr
    exact fun _ => ⟨rfl, rfl⟩

/-- A socket is attached and opens. -/
def opening : List Event :=
  [.connect (some "ttw") true, .resume 0, .opened 0 1, .resume 1]

/-- The socket goes, and the timer is to be armed. -/
def losing : List Event := opening ++ [.closed 0]

/-- The law is broken: by a token that is gone when the timer fires, by
an error behind `authenticated`, by a handler that disconnects when it
is told of the reconnecting, and by one that connects when it is told of
the connecting. -/
theorem law_broken :
    (∃ g, runActions (step parseControl) {}
        (losing ++ [.resume 2, .timeout 0 none true]) = some g
      ∧ g.status = .reconnecting ∧ ¬ Law g)
    ∧ (∃ g, runActions (step parseControl) {}
        (opening ++ [.frame 0 "\x7b\"type\":\"authenticated\"\x7d" 2,
          .frame 0 "\x7b\"type\":\"error\",\"error\":\"no topic\"\x7d" 3])
          = some g
      ∧ g.status = .authFailed ∧ ¬ Law g)
    ∧ (∃ g, runActions (step parseControl) {}
        (losing ++ [.disconnect, .resume 2, .resume 2]) = some g
      ∧ g.timeouts = [0] ∧ ¬ Law g)
    ∧ ∃ g, runActions (step parseControl) {}
        [.connect (some "ttw") true, .connect (some "ttw") true, .resume 0]
          = some g
      ∧ g.made = 2 ∧ ¬ Law g := by
  refine ⟨⟨_, rfl, rfl, fun hlaw => ?_⟩, ⟨_, rfl, rfl, fun hlaw => ?_⟩,
    ⟨_, rfl, rfl, fun hlaw => ?_⟩, ⟨_, rfl, rfl, fun hlaw => ?_⟩⟩
  · rcases hlaw.waits rfl rfl with hs | ht
    · exact hs rfl
    · exact ht rfl
  · obtain ⟨last, hmd, before, after, ha, hea⟩ := hlaw.parked rfl
    cases hmd
    have ha : [(0, Frame.control .authenticated),
        (0, Frame.control .error)]
          = before ++ (0, .control .error) :: after := ha
    cases before with
    | nil => cases (List.cons.inj ha).1
    | cons first before =>
      rw [← (List.cons.inj ha).1] at hea
      exact hea mem_cons_self
  · exact absurd (hlaw.left rfl).2.2.1 nofun
  · have hf := hlaw.one 0 ⟨_, rfl, rfl⟩
    cases hf

end Gateway

end TikTools.Widgets
