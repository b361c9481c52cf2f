/-
The account stays in order as long as no call overtakes another.

`Good` is what holds between any two steps: which call may hold the
cancel handle, that the session is of the account the sidecar names,
that every credential is that account's or still in the hands of the
login that stored it, and what a logout has already wiped. A step moves
one call and changes little else, so the proof goes by the parts of a
step: moving a call (`Good.move`, `Good.done`), and then each change of
the shared state.
-/
import TikTools.Cloud.Account

namespace TikTools.Cloud

open TikTools.Lib Std List Option Table Bool

/-- The credential a login has stored and not yet named. -/
def Call.inHand : Call → Option Identity
  | .saving _ identity | .unsaving identity => some identity
  | _ => none

variable (handle : Option Nat)

namespace State

variable {s : State} {id : Nat}

-- ==== invariant

/-- The stamp of a login is of the past, or the login is one begun since
the last logout. -/
def Stamped (s : State) (stamp : Nat) : Prop :=
  stamp ≤ s.returned ∧ (stamp = s.returned → s.begun = true)

/-- What a call knows at its place. -/
def InOrder (s : State) : Call → Prop
  | .binding stamp => s.Stamped stamp
  | .waiting login _ told =>
    s.Stamped login.stamp ∧ (told = false → s.cancelTx = some login.attempt)
  | .answered login _ _ | .storing login _ | .saving login _
  | .installing login _ => s.Stamped login.stamp
  | .restoring stamp _ at_ =>
    stamp ≤ s.returned
      ∧ (at_ = .reading
        ∨ (stamp = s.returned → s.begun = true ∨ s.returned = 0))
  | .deleting identity | .rechecking identity | .dropping identity =>
    s.Only identity
  | .removingFirst | .removing => s.tokens = []
  | .returning => s.tokens = [] ∧ s.sidecar = .absent
  | _ => True

structure Good (s : State) : Prop where
  calls : ∀ (id : Nat) call, s.calls[id]? = some call → s.InOrder call
  holder : ∀ (id id' : Nat) call call', s.calls[id]? = some call →
    s.calls[id']? = some call' → call.holding = true →
    call'.holding = true → id = id'
  apart : s.pending ≠ none → ∀ (id : Nat) call, s.calls[id]? = some call →
    call.holding = false
  pending : ∀ login, s.pending = some login →
    s.cancelTx = some login.attempt ∧ s.Stamped login.stamp
  session : ∀ identity, s.session = some identity →
    s.sidecar = .names identity ∧ s.origin = some identity.origin
  tokens : ∀ token ∈ s.tokens, s.sidecar = .names token
    ∨ ∃ (id : Nat) (call : Call), s.calls[id]? = some call
      ∧ call.inHand = some token
  wiping : ∀ (id : Nat) (call : Call), s.calls[id]? = some call →
    call.wiping = true → s.session = none ∧ s.Saved
  wiped : 0 < s.returned → s.begun = false →
    s.session = none ∧ s.tokens = [] ∧ s.sidecar = .absent

theorem wiping_iff : s.Wiping ↔
    ∃ (id : Nat) (c : Call), s.calls[id]? = some c ∧ c.wiping = true := by
  constructor
  · rintro ⟨⟨id, c⟩, hm, hw⟩
    exact ⟨id, c, mem_toList.1 hm, hw⟩
  · rintro ⟨id, c, hcall, hw⟩
    exact ⟨(id, c), mem_toList.2 hcall, hw⟩

theorem Start.good (h : Start s) : Good s := by
  have hn : ∀ id : Nat, s.calls[id]? = none := by
    intro id
    rw [h.calls]
    exact ExtTreeMap.getElem?_empty
  constructor
  · intro id c hcall
    rw [hn] at hcall
    cases hcall
  · intro id id' c call' hcall
    rw [hn] at hcall
    cases hcall
  · intro _ id c hcall
    rw [hn] at hcall
    cases hcall
  · intro login hl
    rw [h.pending] at hl
    cases hl
  · intro identity hs
    rw [h.session] at hs
    cases hs
  · exact fun t ht => .inl (h.saved t ht)
  · intro id c hcall
    rw [hn] at hcall
    cases hcall
  · intro hr
    rw [h.returned] at hr
    exact absurd hr (Nat.lt_irrefl 0)

-- ==== moving a call

theorem get_goto (s : State) (id o : Nat) (c : Call) :
    (s.goto id c).calls[o]? = if id = o then some c else s.calls[o]? :=
  get_insert _ _ _ _

theorem get_finish (s : State) (id o : Nat) :
    (s.finish id).calls[o]? = if id = o then none else s.calls[o]? :=
  get_erase _ _ _

/-- A call goes on to a place whose knowledge it has; it neither takes
the handle there, nor begins to wipe, nor lets go of a credential. -/
theorem Good.move (h : Good s) {call : Call} (hnew : s.InOrder call)
    (hh : call.holding = true → s.pending = none
      ∧ ∀ (o : Nat) c, s.calls[o]? = some c → c.holding = true → o = id)
    (hw : call.wiping = true → s.session = none ∧ s.Saved)
    (hhn : ∀ old, s.calls[id]? = some old → ∀ t ∈ s.tokens,
      old.inHand = some t → call.inHand = some t
        ∨ s.sidecar = .names t) : Good (s.goto id call) where
  calls o c hc := by
    rw [get_goto] at hc
    split at hc
    · cases hc
      exact hnew
    · exact h.calls o c hc
  holder a b c d hc hd hca hdb := by
    rw [get_goto] at hc hd
    split at hc
    · next ha =>
      cases hc
      split at hd
      · next hb => exact ha ▸ hb ▸ rfl
      · exact ha ▸ ((hh hca).2 b d hd hdb).symm
    · split at hd
      · next hb =>
        cases hd
        exact hb ▸ (hh hdb).2 a c hc hca
      · exact h.holder a b c d hc hd hca hdb
  apart hp o c hc := by
    rw [get_goto] at hc
    split at hc
    · cases hc
      cases hhl : call.holding with
      | false => rfl
      | true => exact absurd (hh hhl).1 hp
    · exact h.apart hp o c hc
  pending := h.pending
  session := h.session
  tokens t ht := by
    rcases h.tokens t ht with hn | ⟨o, c, hc, hin⟩
    · exact .inl hn
    · by_cases ho : id = o
      · rcases hhn c (ho ▸ hc) t ht hin with hk | hn
        · exact .inr ⟨id, call, by rw [get_goto, if_pos rfl], hk⟩
        · exact .inl hn
      · exact .inr ⟨o, c, by rw [get_goto, if_neg ho, hc], hin⟩
  wiping o c hc := by
    rw [get_goto] at hc
    split at hc
    · cases hc
      exact hw
    · exact h.wiping o c hc
  wiped := h.wiped

theorem Good.done (h : Good s)
    (hh : ∀ old, s.calls[id]? = some old → ∀ t ∈ s.tokens,
      old.inHand = some t → s.sidecar = .names t) :
    Good (s.finish id) where
  calls o c hc := by
    rw [get_finish] at hc
    split at hc
    · cases hc
    · exact h.calls o c hc
  holder a b c d hc hd := by
    rw [get_finish] at hc hd
    split at hc
    · cases hc
    · split at hd
      · cases hd
      · exact h.holder a b c d hc hd
  apart hp o c hc := by
    rw [get_finish] at hc
    split at hc
    · cases hc
    · exact h.apart hp o c hc
  pending := h.pending
  session := h.session
  tokens t ht := by
    rcases h.tokens t ht with hn | ⟨o, c, hc, hin⟩
    · exact .inl hn
    · by_cases ho : id = o
      · exact .inl (hh c (ho ▸ hc) t ht hin)
      · exact .inr ⟨o, c, by rw [get_finish, if_neg ho, hc], hin⟩
  wiping o c hc := by
    rw [get_finish] at hc
    split at hc
    · cases hc
    · exact h.wiping o c hc
  wiped := h.wiped

/-- The common case: the call stays away from the handle, from what a
logout does and from credentials. -/
theorem Good.walk (h : Good s) {old call : Call}
    (hold : s.calls[id]? = some old) (hnew : s.InOrder call)
    (hh : call.holding = true → old.holding = true)
    (hwp : call.wiping = true → old.wiping = true)
    (hhn : old.inHand = none ∨ call.inHand = old.inHand) :
    Good (s.goto id call) := by
  refine h.move hnew (fun hc => ⟨?_, ?_⟩) (fun hw => ?_) ?_
  · by_contra hp
    have hf := h.apart hp id old hold
    rw [hh hc] at hf
    cases hf
  · exact fun o c ho hch =>
      h.holder o id c old ho hold hch (hh hc)
  · exact h.wiping id old hold (hwp hw)
  · intro old' h' token _ hin
    rw [hold] at h'
    cases h'
    rcases hhn with hn | hs
    · rw [hn] at hin
      cases hin
    · exact .inl (hs.trans hin)

theorem Good.leave (h : Good s) {old : Call}
    (ho : s.calls[id]? = some old) (hh : old.inHand = none) :
    Good (s.finish id) := by
  refine h.done fun old' h' token _ hin => ?_
  rw [ho] at h'
  cases h'
  rw [hh] at hin
  cases hin

theorem Good.enter (h : Good s) {c : Call}
    (hf : s.calls[id]? = none) (hnew : s.InOrder c)
    (hh : c.holding = false) (hwp : c.wiping = false) :
    Good (s.goto id c) := by
  refine h.move hnew (fun hc => ?_) (fun hw => ?_) fun old hold => ?_
  · rw [hh] at hc
    cases hc
  · rw [hwp] at hw
    cases hw
  · rw [hf] at hold
    cases hold

-- ==== shared state

theorem inOrder_tokens {call : Call} (h : s.InOrder call)
    (hw : call.wiping = false) (tokens : List Identity) :
    InOrder { s with tokens } call := by
  cases call <;> first | exact h | cases hw

theorem inOrder_sidecar {call : Call} (h : s.InOrder call)
    (hw : call.wiping = false) (sidecar : Sidecar) :
    InOrder { s with sidecar } call := by
  cases call <;> first | exact h | cases hw

theorem not_wiping (h : ¬ s.Wiping) {c : Call}
    (hcall : s.calls[id]? = some c) : c.wiping = false := by
  cases hw : c.wiping with
  | false => rfl
  | true => exact absurd (wiping_iff.2 ⟨id, c, hcall, hw⟩) h

theorem Good.delete (h : Good s) (ide : Identity) :
    Good (s.delete ide) := by
  have hsub : ∀ token ∈ (s.delete ide).tokens, token ∈ s.tokens :=
    fun token ht => mem_of_mem_filter ht
  have hnil : s.tokens = [] → (s.delete ide).tokens = [] := by
    intro hem
    show s.tokens.filter _ = []
    rw [hem]
    rfl
  refine ⟨fun other call hcall => ?_, h.holder, h.apart, h.pending,
    h.session, fun token ht => h.tokens token (hsub token ht),
    fun other call hcall hw => ?_, fun hr hb => ?_⟩
  · have hold := h.calls other call hcall
    cases call with
    | deleting i | rechecking i | dropping i =>
      exact fun token ht => hold token (hsub token ht)
    | removingFirst | removing => exact hnil hold
    | returning => exact ⟨hnil hold.1, hold.2⟩
    | _ => exact hold
  · obtain ⟨hs, hsv⟩ := h.wiping other call hcall hw
    exact ⟨hs, fun token ht => hsv token (hsub token ht)⟩
  · obtain ⟨hs, hem, habs⟩ := h.wiped hr hb
    exact ⟨hs, hnil hem, habs⟩

theorem Good.store (h : Good s) {i : Identity} {call : Call}
    (hcall : s.calls[id]? = some call) (hh : call.inHand = some i)
    (ho : s.Only i) (hwp : ¬ s.Wiping)
    (hbg : s.begun = true) : Good (s.store i) := by
  refine ⟨fun other c hc => ?_, h.holder, h.apart, h.pending, h.session,
    fun token ht => ?_, fun other c hc hw => ?_, fun _ hb => ?_⟩
  · exact inOrder_tokens (h.calls other c hc) (not_wiping hwp hc) _
  · refine .inr ⟨id, call, hcall, ?_⟩
    rcases mem_cons.1 ht with rfl | ht
    · exact hh
    · rw [ho token (mem_of_mem_filter ht)]
      exact hh
  · exact absurd (wiping_iff.2 ⟨other, c, hc, hw⟩) hwp
  · rw [show s.begun = false from hb] at hbg
    cases hbg

theorem Good.name (h : Good s) {i : Identity}
    (hon : s.Only i) (hs : s.session = none)
    (hwp : ¬ s.Wiping) (hbg : s.begun = true) :
    Good { s with sidecar := .names i } := by
  refine ⟨fun other c hc => ?_, h.holder, h.apart, h.pending,
    fun other ho => ?_, fun t ht => ?_,
    fun other c hc hw => ?_, fun _ hb => ?_⟩
  · exact inOrder_sidecar (h.calls other c hc) (not_wiping hwp hc) _
  · rw [show s.session = some other from ho] at hs
    cases hs
  · exact .inl (by rw [hon t ht])
  · exact absurd (wiping_iff.2 ⟨other, c, hc, hw⟩) hwp
  · rw [show s.begun = false from hb] at hbg
    cases hbg

theorem Good.unname (h : Good s) (htk : s.tokens = [])
    (hs : s.session = none) : Good { s with sidecar := .absent } := by
  refine ⟨fun o c hc => ?_, h.holder, h.apart, h.pending,
    fun o ho => ?_, fun t ht => ?_,
    fun o c hc hw => ⟨hs, fun t ht => ?_⟩,
    fun _ _ => ⟨hs, htk, rfl⟩⟩
  · have hold := h.calls o c hc
    cases c with
    | returning => exact ⟨hold.1, rfl⟩
    | _ => exact hold
  · rw [show s.session = some o from ho] at hs
    cases hs
  · rw [show s.tokens = [] from htk] at ht
    cases ht
  · rw [show s.tokens = [] from htk] at ht
    cases ht

theorem Good.install (h : Good s) {i : Identity}
    (hn : s.sidecar = .names i) (hwp : ¬ s.Wiping)
    (hbg : s.begun = true ∨ s.returned = 0) :
    Good (s.install i) := by
  refine ⟨fun o c hc => ?_, h.holder, h.apart, h.pending,
    fun o ho => ?_, h.tokens, fun o c hc hw => ?_,
    fun hr hb => ?_⟩
  · have hold := h.calls o c hc
    cases c <;> exact hold
  · cases ho
    exact ⟨hn, rfl⟩
  · exact absurd (wiping_iff.2 ⟨o, c, hc, hw⟩) hwp
  · rcases hbg with hbg | hz
    · rw [show s.begun = false from hb] at hbg
      cases hbg
    · rw [show (s.install i).returned = 0 from hz] at hr
      exact absurd hr (Nat.lt_irrefl 0)

theorem get_cancelAttempts (s : State) (id : Nat) :
    s.cancelAttempts.calls[id]? = s.calls[id]?.map (Call.tell s.cancelTx) :=
  get_map _ _ _

theorem tell_holding (c : Call) :
    (c.tell handle).holding = c.holding := by
  cases c <;> rfl

theorem tell_wiping (c : Call) :
    (c.tell handle).wiping = c.wiping := by
  cases c <;> rfl

theorem tell_inHand (c : Call) :
    (c.tell handle).inHand = c.inHand := by
  cases c <;> rfl

theorem inOrder_tell {c : Call} (h : s.InOrder c) :
    s.cancelAttempts.InOrder (c.tell s.cancelTx) := by
  cases c with
  | waiting login origin told =>
    refine ⟨h.1, fun ht => ?_⟩
    -- an attempt not told had its handle kept, so it is told now
    obtain ⟨hl, ho⟩ := or_eq_false_iff.1 ht
    rw [h.2 hl] at ho
    exact absurd rfl (of_decide_eq_false ho)
  | _ => exact h

section

variable (h : Good s)
include h

theorem Good.cancelAttempts : Good s.cancelAttempts := by
  have hb : ∀ (id : Nat) call, s.cancelAttempts.calls[id]? = some call →
      ∃ old, s.calls[id]? = some old ∧ old.tell s.cancelTx = call := by
    intro id call hcall
    rw [get_cancelAttempts] at hcall
    exact map_eq_some_iff.1 hcall
  refine ⟨?_, ?_, fun hp => absurd rfl hp, nofun, h.session, ?_, ?_, h.wiped⟩
  · intro o call hcall
    obtain ⟨old, ho, rfl⟩ := hb o call hcall
    exact inOrder_tell (h.calls o old ho)
  · intro a b c d hc hd hca hdb
    obtain ⟨c, ho, rfl⟩ := hb a c hc
    obtain ⟨d, h', rfl⟩ := hb b d hd
    rw [tell_holding] at hca hdb
    exact h.holder a b c d ho h' hca hdb
  · intro t ht
    rcases h.tokens t ht with hn | ⟨o, c, hc, hin⟩
    · exact .inl hn
    · refine .inr ⟨o, c.tell s.cancelTx, ?_, ?_⟩
      · rw [get_cancelAttempts, hc]
        rfl
      · rw [tell_inHand, hin]
  · intro o call hcall hw
    obtain ⟨old, ho, rfl⟩ := hb o call hcall
    rw [tell_wiping] at hw
    exact h.wiping o old ho hw

theorem Good.unhandle (hp : s.pending = none)
    (hf : ∀ (id : Nat) call, s.calls[id]? = some call →
      call.holding = false) : Good { s with cancelTx := none } := by
  refine ⟨fun o c hc => ?_, h.holder, h.apart, fun l hl => ?_,
    h.session, h.tokens, h.wiping, h.wiped⟩
  · have hold := h.calls o c hc
    have hh := hf o c hc
    cases c with
    | waiting => cases hh
    | _ => exact hold
  · rw [show s.pending = some l from hl] at hp
    cases hp

theorem Good.sign_out (hs : s.Saved) :
    Good { s with session := none } := by
  refine ⟨fun o c hc => ?_, h.holder, h.apart, h.pending, nofun,
    h.tokens, fun _ _ _ _ => ⟨rfl, hs⟩, fun hr hb => ?_⟩
  · have hold := h.calls o c hc
    cases c <;> exact hold
  · exact ⟨rfl, (h.wiped hr hb).2⟩

omit h in
theorem only_delete {i : Identity} (h : s.Only i) :
    (s.delete i).tokens = [] := by
  refine filter_eq_nil_iff.2 fun t ht => ?_
  rw [h t ht]
  simp

/-- A logout that has wiped everything returns: what was begun before is
of the past. -/
theorem Good.return_ (hw : s.tokens = [] ∧ s.sidecar = .absent)
    (hss : s.session = none) :
    Good { s with returned := s.returned + 1, begun := false } := by
  have hp : ∀ stamp, s.Stamped stamp →
      Stamped { s with returned := s.returned + 1, begun := false }
        stamp := by
    intro stamp hs
    refine ⟨Nat.le_succ_of_le hs.1, fun hsm => ?_⟩
    have hle := hs.1
    rw [show stamp = s.returned + 1 from hsm] at hle
    omega
  refine ⟨fun other c hc => ?_, h.holder, h.apart, fun login hl => ?_,
    h.session, h.tokens, h.wiping, fun _ _ => ⟨hss, hw⟩⟩
  · have hold := h.calls other c hc
    cases c with
    | binding | answered | storing | saving | installing =>
      exact hp _ hold
    | waiting => exact ⟨hp _ hold.1, hold.2⟩
    | restoring stamp logout at_ =>
      refine ⟨Nat.le_succ_of_le hold.1, .inr fun hsm => ?_⟩
      have hle := hold.1
      rw [show stamp = s.returned + 1 from hsm] at hle
      omega
    | _ => exact hold
  · obtain ⟨hh, hs⟩ := h.pending login hl
    exact ⟨hh, hp _ hs⟩

theorem Good.begin_ : Good { s with begun := true } := by
  have hs : ∀ stamp, s.Stamped stamp →
      Stamped { s with begun := true } stamp :=
    fun stamp hst => ⟨hst.1, fun _ => rfl⟩
  refine ⟨fun other c hc => ?_, h.holder, h.apart, fun login hl => ?_,
    h.session, h.tokens, h.wiping, fun _ hb => ?_⟩
  · have hold := h.calls other c hc
    cases c with
    | binding | answered | storing | saving | installing =>
      exact hs _ hold
    | waiting => exact ⟨hs _ hold.1, hold.2⟩
    | restoring => exact ⟨hold.1, .inr fun _ => .inl rfl⟩
    | _ => exact hold
  · obtain ⟨hh, hst⟩ := h.pending login hl
    exact ⟨hh, hs _ hst⟩
  · cases hb

theorem Good.unpend : Good { s with pending := none } := by
  refine ⟨fun o c hc => ?_, h.holder, fun hp => absurd rfl hp, nofun,
    h.session, h.tokens, h.wiping, h.wiped⟩
  have hold := h.calls o c hc
  cases c <;> exact hold

theorem Good.completeLogin (hf : s.calls[id]? = none) :
    Good (s.completeLogin id) := by
  unfold State.completeLogin
  split
  · exact h
  · exact h.unpend
  · next l o hp _ =>
    obtain ⟨hh, hs⟩ := h.pending l hp
    have ha := h.apart (by rw [hp]; exact some_ne_none _)
    refine @Good.move _ _ h.unpend (.waiting l o false)
      ⟨hs, fun _ => hh⟩ (fun _ => ⟨rfl, fun ot c hc hch => ?_⟩)
      nofun fun old hold => ?_
    · rw [ha ot c hc] at hch
      cases hch
    · rw [show s.calls[id]? = some old from hold] at hf
      cases hf

end

-- ==== steps

section

variable (h : Good s)
include h

theorem Good.take (hcall : s.calls[id]? = some .taking)
    (hs : s.Saved) : Good (s.take id) := by
  have hcn : Good { s.cancelAttempts with session := none } :=
    h.cancelAttempts.sign_out hs
  have hsm : ({ s.cancelAttempts with session := none } : State).calls[id]?
      = some .taking := by
    rw [get_cancelAttempts, hcall]
    rfl
  have hn : ∀ call : Call, call.holding = false → call.inHand = none →
      InOrder { s.cancelAttempts with session := none } call →
      Good (({ s.cancelAttempts with session := none } : State).goto id
        call) := by
    intro call hh hhn hnew
    refine hcn.move hnew (fun hc => ?_) (fun _ => ⟨rfl, hs⟩)
      fun old hold token _ hin => ?_
    · rw [hh] at hc
      cases hc
    · rw [hsm] at hold
      cases hold
      cases hin
  unfold State.take
  cases hss : s.session with
  | none => exact hn _ rfl rfl trivial
  | some se =>
    obtain ⟨hnm, ho⟩ := h.session se hss
    rw [ho]
    refine hn _ rfl rfl fun token ht => ?_
    have ht : s.sidecar = .names token := hs token ht
    rw [hnm] at ht
    cases ht
    rfl

theorem Good.register {stamp : Nat}
    (hcall : s.calls[id]? = some (.binding stamp))
    (hf : ¬ ∃ e ∈ s.calls.toList, e.2.holding) :
    Good (s.register id stamp) := by
  have hl := h.leave hcall rfl
  have hhl : ∀ (o : Nat) c, (s.finish id).calls[o]? = some c →
      c.holding = false := by
    intro o c hc
    rw [get_finish] at hc
    split at hc
    · cases hc
    · cases hh : c.holding with
      | false => rfl
      | true =>
        exact absurd ⟨(o, c), mem_toList.2 hc, hh⟩ hf
  unfold State.register
  split
  · exact hl
  · refine ⟨fun o c hc => ?_, hl.holder,
      fun _ o c hc => hhl o c hc, fun login hlg => ?_,
      hl.session, hl.tokens, hl.wiping, hl.wiped⟩
    · have hold := hl.calls o c hc
      have hh := hhl o c hc
      cases c with
      | waiting => cases hh
      | _ => exact hold
    · cases hlg
      exact ⟨rfl, h.calls id _ hcall⟩

theorem Good.clearHandle {login : Login} {origin : String}
    {result : Option String}
    (hcall : s.calls[id]? = some (.answered login origin result)) :
    Good (s.clearHandle id login origin result) := by
  have hpn : s.pending = none := by
    by_contra hp
    have hhl := h.apart hp id _ hcall
    cases hhl
  have ho : ∀ (other : Nat) c, s.calls[other]? = some c →
      id ≠ other → c.holding = false := by
    intro other c hc hne
    cases hh : c.holding with
    | false => rfl
    | true => exact absurd (h.holder id other _ c hcall hc rfl hh) hne
  cases result with
  | none =>
    refine (h.leave hcall rfl).unhandle hpn fun other c hc => ?_
    rw [get_finish] at hc
    split at hc
    · cases hc
    · next hne => exact ho other c hc hne
  | some a =>
    have hs : s.Stamped login.stamp := h.calls id _ hcall
    have hmv : Good (s.goto id (.storing login ⟨origin, a⟩)) :=
      h.walk hcall hs nofun nofun (.inl rfl)
    refine hmv.unhandle hpn fun other c hc => ?_
    rw [get_goto] at hc
    split at hc
    · cases hc
      rfl
    · next hne => exact ho other c hc hne

section

variable {stamp : Nat} {logout : Bool} {at_ : RestoreAt}
  (hcall : s.calls[id]? = some (.restoring stamp logout at_))
include hcall

theorem Good.restored :
    Good (s.restored id logout) := by
  unfold State.restored
  split
  · exact h.walk hcall trivial nofun nofun (.inl rfl)
  · exact h.leave hcall rfl

theorem Good.restoreStep {o : Option String}
    (hord : s.OrderedCall o (.restoring stamp logout at_)) :
    Good (s.restoreStep id stamp logout o at_) := by
  obtain ⟨hs, hp⟩ := h.calls id _ hcall
  have hw : ∀ next : RestoreAt, at_ ≠ .reading →
      Good (s.goto id (.restoring stamp logout next)) := by
    intro next hr
    refine h.walk hcall ⟨hs, .inr ?_⟩ nofun nofun (.inl rfl)
    exact hp.resolve_left hr
  cases at_ with
  | reading =>
    dsimp only [State.restoreStep]
    split
    · next sa _ hn =>
      refine h.walk hcall ⟨hs, .inr fun _ => ?_⟩ nofun nofun (.inl rfl)
      -- a saved account is there only if a login was begun again
      by_contra hnot
      obtain ⟨hb, hrt⟩ := not_or.1 hnot
      obtain ⟨-, -, habs⟩ := h.wiped (Nat.pos_of_ne_zero hrt)
        (eq_false_iff.2 hb)
      rw [hn] at habs
      cases habs
    · exact h.restored hcall
  | checking sa =>
    dsimp only [State.restoreStep]
    split
    · exact hw _ nofun
    · exact h.restored hcall
  | loading sa =>
    dsimp only [State.restoreStep]
    split
    · exact hw _ nofun
    · exact h.restored hcall
  | connecting sa =>
    dsimp only [State.restoreStep]
    split
    · exact hw _ nofun
    · exact h.restored hcall
  | installing sa =>
    obtain ⟨⟨-, hsm, hwp⟩, hn⟩ := hord
    have hb := (hp.resolve_left nofun) hsm
    exact (h.install hn hwp hb).restored hcall

end

theorem Good.step {call : Call} {o : Option String}
    (hcall : s.calls[id]? = some call)
    (hord : s.OrderedCall o call) :
    Good (s.step id o call) := by
  have hk := h.calls id call hcall
  cases call with
  | binding stamp =>
    dsimp only [State.step]
    split
    · exact h.leave hcall rfl
    · exact h.register hcall hord
  | waiting login origin told =>
    exact h.walk hcall hk.1 (fun _ => rfl) nofun (.inl rfl)
  | answered login origin result => exact h.clearHandle hcall
  | storing login i =>
    dsimp only [State.step]
    split
    · exact h.leave hcall rfl
    · next hok =>
      obtain ⟨⟨-, hsm, hwp⟩, ho⟩ := hord hok
      have hmv : Good (s.goto id (.saving login i)) :=
        h.walk hcall hk nofun nofun (.inl rfl)
      refine @Good.store _ id hmv _ (.saving login i)
        ?_ rfl ho (fun hw => ?_) (hk.2 hsm)
      · rw [get_goto, if_pos rfl]
      · obtain ⟨other, c, hc, hcw⟩ := wiping_iff.1 hw
        rw [get_goto] at hc
        split at hc
        · cases hc
          cases hcw
        · exact hwp (wiping_iff.2 ⟨other, c, hc, hcw⟩)
  | saving login i =>
    dsimp only [State.step]
    split
    · exact h.walk hcall trivial nofun nofun (.inr rfl)
    · next hok =>
      obtain ⟨⟨hs, hsm, hwp⟩, ho⟩ := hord hok
      have hnm := h.name ho hs hwp (hk.2 hsm)
      refine @Good.move _ _ hnm (.installing login i) hk
        nofun nofun fun _ _ token ht _ => .inr ?_
      rw [ho token ht]
  | unsaving i =>
    dsimp only [State.step]
    split
    · next hf => exact absurd hf hord
    · refine (h.delete i).done fun old hold token ht hin => ?_
      rw [show s.calls[id]? = some old from hold] at hcall
      cases hcall
      cases hin
      have hne := of_mem_filter ht
      exact absurd rfl (of_decide_eq_true hne)
  | installing login i =>
    obtain ⟨⟨-, hsm, hwp⟩, hn⟩ := hord
    exact (h.install hn hwp (.inl (hk.2 hsm))).leave hcall rfl
  | restoring stamp logout at_ => exact h.restoreStep hcall hord
  | leaving =>
    dsimp only [State.step]
    split
    · exact h.walk hcall ⟨Nat.le_refl _, .inl rfl⟩ nofun nofun (.inl rfl)
    · exact h.walk hcall trivial nofun nofun (.inl rfl)
  | taking => exact h.take hcall hord
  | deleting i =>
    dsimp only [State.step]
    split
    · next hf => exact absurd hf hord
    · refine (h.delete i).walk hcall ?_ nofun (fun _ => rfl)
        (.inl rfl)
      exact only_delete hk
  | rereading =>
    obtain ⟨-, hsv⟩ := h.wiping id _ hcall rfl
    dsimp only [State.step]
    split
    · next saved _ hn =>
      refine h.walk hcall (fun token ht => ?_) nofun (fun _ => rfl) (.inl rfl)
      have ht := hsv token ht
      rw [hn] at ht
      cases ht
      rfl
    · next hnn =>
      refine h.walk hcall ?_ nofun (fun _ => rfl) (.inl rfl)
      refine eq_nil_iff_forall_not_mem.2 fun token ht => ?_
      obtain ⟨text, hok⟩ := ne_none_iff_exists'.1 hord
      exact hnn text token hok (hsv token ht)
  | rechecking saved =>
    dsimp only [State.step]
    split
    · exact h.walk hcall hk nofun (fun _ => rfl) (.inl rfl)
    · next hot => exact absurd hord hot
  | dropping saved =>
    dsimp only [State.step]
    split
    · next hf => exact absurd hf hord
    · refine (h.delete saved).walk hcall ?_ nofun (fun _ => rfl)
        (.inl rfl)
      exact only_delete hk
  | removingFirst =>
    obtain ⟨hs, -⟩ := h.wiping id _ hcall rfl
    dsimp only [State.step]
    split
    · exact h.walk hcall hk nofun (fun _ => rfl) (.inl rfl)
    · exact (h.unname hk hs).walk hcall hk nofun (fun _ => rfl) (.inl rfl)
  | removing =>
    obtain ⟨hs, -⟩ := h.wiping id _ hcall rfl
    dsimp only [State.step]
    split
    · next hf => exact absurd hf hord
    · exact (h.unname hk hs).walk hcall ⟨hk, rfl⟩ nofun
        (fun _ => rfl) (.inl rfl)
  | returning =>
    obtain ⟨hs, -⟩ := h.wiping id _ hcall rfl
    exact (h.leave hcall rfl).return_ hk hs

theorem Good.next {a : Action} {t : State}
    (ho : s.Ordered a) (hn : s.next a = some t) :
    Good t := by
  cases a with
  | beginLogin id =>
    obtain ⟨hf, ⟨⟩⟩ := ite_none_right_eq_some.1 hn
    unfold State.beginLogin
    split
    · exact h
    · exact h.begin_.enter hf ⟨Nat.le_refl _, fun _ => rfl⟩ rfl rfl
  | completeLogin id =>
    obtain ⟨hf, ⟨⟩⟩ := ite_none_right_eq_some.1 hn
    exact h.completeLogin hf
  | cancelLogin =>
    cases hn
    exact h.cancelAttempts
  | restore id =>
    obtain ⟨hf, ⟨⟩⟩ := ite_none_right_eq_some.1 hn
    exact h.enter hf ⟨Nat.le_refl _, .inl rfl⟩ rfl rfl
  | logout id =>
    obtain ⟨hf, ⟨⟩⟩ := ite_none_right_eq_some.1 hn
    exact h.enter hf trivial rfl rfl
  | proceed id outcome =>
    obtain ⟨c, hcall, rfl⟩ := map_eq_some_iff.1 hn
    exact h.step hcall (ho c hcall)

end

-- ==== results

theorem session_step {identity : Identity} {call : Call}
    {outcome : Option String} (hs : s.session = some identity)
    (hord : s.OrderedCall outcome call) :
    (s.step id outcome call).session = some identity
      ∨ call = .taking ∧ (s.step id outcome call).session = none := by
  have hnot : ∀ stamp, ¬ s.GoesOn stamp := by
    intro stamp hg
    rw [hg.1] at hs
    cases hs
  have hr : ∀ logout : Bool,
      (s.restored id logout).session = some identity := by
    intro logout
    cases logout <;> exact hs
  cases call with
  | taking =>
    refine .inr ⟨rfl, ?_⟩
    dsimp only [State.step, State.take]
    split <;> rfl
  | installing login saved => exact absurd hord.1 (hnot _)
  | restoring stamp logout at_ =>
    refine .inl ?_
    cases at_ with
    | installing saved => exact absurd hord.1 (hnot _)
    | _ =>
      dsimp only [State.step, State.restoreStep]
      split <;> first | exact hs | exact hr logout
  | binding stamp =>
    dsimp only [State.step, State.register]
    split
    · exact .inl hs
    · split <;> exact .inl hs
  | answered login origin result =>
    dsimp only [State.step, State.clearHandle]
    cases result <;> exact .inl hs
  | waiting => exact .inl hs
  | returning => exact .inl hs
  | _ =>
    dsimp only [State.step]
    split <;> exact .inl hs

theorem session_next {i : Identity} {a : Action} {t : State}
    (hs : s.session = some i) (ho : s.Ordered a)
    (hn : s.next a = some t) :
    t.session = some i
      ∨ t.session = none ∧ ∃ id o, a = .proceed id o
        ∧ s.calls[id]? = some .taking := by
  cases a with
  | proceed id o =>
    obtain ⟨c, hcall, rfl⟩ := map_eq_some_iff.1 hn
    rcases session_step hs (ho c hcall) with hk | ht
    · exact .inl hk
    · obtain ⟨rfl, hnn⟩ := ht
      exact .inr ⟨hnn, id, o, rfl, hcall⟩
  | cancelLogin =>
    cases hn
    exact .inl hs
  | beginLogin id =>
    obtain ⟨-, ⟨⟩⟩ := ite_none_right_eq_some.1 hn
    dsimp only [State.beginLogin]
    split <;> exact .inl hs
  | completeLogin id =>
    obtain ⟨-, ⟨⟩⟩ := ite_none_right_eq_some.1 hn
    dsimp only [State.completeLogin]
    split <;> exact .inl hs
  | restore id =>
    obtain ⟨-, ⟨⟩⟩ := ite_none_right_eq_some.1 hn
    exact .inl hs
  | logout id =>
    obtain ⟨-, ⟨⟩⟩ := ite_none_right_eq_some.1 hn
    exact .inl hs

end State

/-- A `complete_login` that waits for its callback. -/
def Call.waits : Call → Bool
  | .waiting .. => true
  | _ => false

/-- The account is in order: one login at a time, which `cancel_login`
reaches; what is stored is one account's when nothing runs, and nothing
after a logout until a login is begun again. -/
structure Consistent (s : State) : Prop where
  pendingAlone : ∀ (id : Nat) call, s.calls[id]? = some call →
    call.waits = true → s.pending = none
  waitingAlone : ∀ (id id' : Nat) call call', s.calls[id]? = some call →
    s.calls[id']? = some call' → call.waits = true → call'.waits = true →
    id = id'
  cancelled : ∀ t, s.next .cancelLogin = some t → t.pending = none
    ∧ ∀ (id : Nat) login origin told,
      t.calls[id]? = some (.waiting login origin told) → told = true
  account : s.calls = ∅ →
    (∀ token ∈ s.tokens, s.sidecar = .names token)
      ∧ ∀ identity, s.session = some identity → s.sidecar = .names identity
  signedOut : 0 < s.returned → s.begun = false →
    s.session = none ∧ s.tokens = [] ∧ s.sidecar = .absent

namespace State

variable {s : State}

theorem Good.consistent (h : Good s) : Consistent s := by
  have hh : ∀ call : Call, call.waits = true → call.holding = true := by
    intro call hw
    cases call <;> first | rfl | cases hw
  refine ⟨fun id call hcall hw => ?_,
    fun id id' call call' hcall hc' hw hw' => ?_,
    fun t hnx => ?_, fun hnn => ⟨fun token ht => ?_,
      fun i hs => (h.session i hs).1⟩, h.wiped⟩
  · by_contra hp
    have hhl := h.apart hp id call hcall
    rw [hh call hw] at hhl
    cases hhl
  · exact h.holder id id' call call' hcall hc' (hh call hw) (hh call' hw')
  · cases hnx
    refine ⟨rfl, fun id login origin told hcall => ?_⟩
    obtain ⟨-, hk⟩ := h.cancelAttempts.calls id _ hcall
    cases told with
    | true => rfl
    | false => cases hk rfl
  · rcases h.tokens token ht with hn | ⟨id, call, hcall, -⟩
    · exact hn
    · rw [hnn, ExtTreeMap.getElem?_empty] at hcall
      cases hcall

/-- In every run whose steps are in order, the account is in order in
every state, and a live session goes only when a logout takes it. -/
theorem account_in_order {s t : State} (hstart : Start s)
    (hrun : Run (fun s action t => s.next action = some t) Ordered s t) :
    Consistent t
      ∧ ∀ action u, t.Ordered action → t.next action = some u →
        ∀ identity, t.session = some identity →
          u.session = some identity
            ∨ u.session = none ∧ ∃ id outcome,
              action = .proceed id outcome ∧ t.calls[id]? = some .taking := by
  have hg : Good t := hrun.invariant hstart.good
    fun _ _ _ hinv hord hn => hinv.next hord hn
  exact ⟨hg.consistent, fun _ _ hord hn _ hs =>
    session_next hs hord hn⟩

-- ==== examples

/-- A first start: nothing saved. -/
def fresh : State where
  origin := some "cloud"
  session := none
  pending := none
  cancelTx := none
  tokens := []
  sidecar := .absent
  calls := ∅
  attempts := 0
  returned := 0
  begun := false

theorem fresh_start : Start fresh :=
  ⟨rfl, rfl, rfl, fun _ h => absurd h not_mem_nil, rfl, rfl⟩

/-- One login from its begin to its session. -/
def signIn (id : Nat) (account : String) : List Action :=
  [.beginLogin id, .proceed id (some ""), .completeLogin id,
    .proceed id (some account), .proceed id none, .proceed id (some ""),
    .proceed id (some ""), .proceed id none]

/-- A login, and the logout after it. -/
def signInAndOut : List Action :=
  signIn 1 "ann" ++ [.logout 2, .proceed 2 none, .proceed 2 none,
    .proceed 2 (some ""), .proceed 2 (some ""), .proceed 2 none]

theorem signed_out_in_order :
    ∃ t, Run (fun s action t => s.next action = some t) Ordered fresh t
      ∧ t.returned = 1 ∧ Consistent t := by
  have hen : (runWhile next (fun s action => decide (s.Ordered action))
      fresh signInAndOut).any (fun t => t.returned = 1) = true := by
    decide +kernel
  obtain ⟨t, ht, hr⟩ := (any_eq_true _ _).1 hen
  have hrun := @Run.of_runWhile _ _ _ _ Ordered
    (fun _ _ => of_decide_eq_true) _ _ _ .refl _ ht
  exact ⟨t, hrun, of_decide_eq_true hr, (account_in_order fresh_start hrun).1⟩

/-- Two logins at once: the second is begun while the first waits. -/
def twoLogins : List Action :=
  [.beginLogin 1, .proceed 1 (some ""), .completeLogin 1,
    .beginLogin 2, .proceed 2 (some ""), .completeLogin 2]

/-- Both are answered, with different accounts. -/
def bothAnswered : List Action :=
  [.proceed 1 (some "ann"), .proceed 1 none, .proceed 1 (some ""),
    .proceed 1 (some ""), .proceed 1 none,
    .proceed 2 (some "bob"), .proceed 2 none, .proceed 2 (some ""),
    .proceed 2 (some ""), .proceed 2 none]

/-- Two attempts wait beside each other, and in the end, with no call
running, a credential is stored that the sidecar does not name. -/
theorem second_login_orphans_first :
    ∃ s, runActions next fresh twoLogins = some s
      ∧ (∃ call, s.calls[1]? = some call ∧ call.waits = true)
      ∧ (∃ call, s.calls[2]? = some call ∧ call.waits = true)
      ∧ ∃ t, runActions next s bothAnswered = some t
        ∧ t.calls.isEmpty = true
        ∧ ⟨"cloud", "ann"⟩ ∈ t.tokens
        ∧ t.sidecar = .names ⟨"cloud", "bob"⟩ := by
  have hb : ((runActions next fresh twoLogins).any fun s =>
      (s.calls[1]?.any Call.waits && s.calls[2]?.any Call.waits)
        && (runActions next s bothAnswered).any fun t =>
          t.calls.isEmpty && t.tokens.contains ⟨"cloud", "ann"⟩
            && t.sidecar = .names ⟨"cloud", "bob"⟩) = true := by
    decide +kernel
  obtain ⟨s, hs, hb⟩ := (any_eq_true _ _).1 hb
  obtain ⟨hw, hen⟩ := and_eq_true_iff.1 hb
  obtain ⟨hf, hsnd⟩ := and_eq_true_iff.1 hw
  obtain ⟨t, ht, hen⟩ := (any_eq_true _ _).1 hen
  obtain ⟨hen, hbob⟩ := and_eq_true_iff.1 hen
  obtain ⟨hem, hann⟩ := and_eq_true_iff.1 hen
  exact ⟨s, hs, (any_eq_true _ _).1 hf,
    (any_eq_true _ _).1 hsnd, t, ht, hem,
    contains_iff_mem.1 hann, of_decide_eq_true hbob⟩

end State

end TikTools.Cloud
