/-
What every ranking of an engine keeps up.

`Ranking.Sane` holds of a new ranking and is kept by every turn, those
that fail included: the definition is valid, the scores are in order and
within the capacity and 64 bits, and under a rolling window they are the
sums of the window, also after a checkpoint was taken over.
-/
import TikTools.Lib.KeySet
import TikTools.Aggregation.Votes
import TikTools.Aggregation.Turns

namespace TikTools.Aggregation

open TikTools.Lib Std Option Table Aggregation Nat

set_option linter.dupNamespace false

-- ==== restored states

/-- The scores are in order and their total is a machine word. -/
structure Aggregation.Healthy (capacity : Nat) (state : Aggregation) :
    Prop where
  sound : state.Sound
  capacity : state.capacity = capacity
  total : state.total ≤ u64Max

namespace Aggregation

variable {capacity : Nat} {state next : Aggregation}

theorem Healthy.new (capacity : Nat) :
    (Aggregation.new capacity).Healthy capacity :=
  ⟨.new capacity, rfl, zero_le _⟩

variable {key : String}

section

variable (h : state.Healthy capacity)
include h

theorem Healthy.apply {d weight : Nat}
    (ha : state.apply key d weight = .ok next) : next.Healthy capacity :=
  ⟨h.sound.apply ha, (apply_capacity ha).trans h.capacity,
    apply_total ha h.total⟩

theorem Healthy.reassign {s t : String} {m a : Nat}
    (hr : state.reassign s t m a = .ok next) :
    next.Healthy capacity :=
  ⟨h.sound.reassign hr, (reassign_cases hr).capacity.trans h.capacity,
    reassign_total hr⟩

theorem Healthy.updateMetadata (key : String)
    (d : EntryMetadata) :
    (state.updateMetadata key d).Healthy capacity := by
  refine ⟨h.sound.updateMetadata key d, ?_, ?_⟩
  · unfold Aggregation.updateMetadata
    split
    · exact h.capacity
    · exact h.capacity
  · unfold Aggregation.updateMetadata
    split
    · exact h.total
    · exact h.total

theorem Healthy.same (hs : next.scores = state.scores)
    (hin : next.index = state.index) (ht : next.total = state.total)
    (hc : next.capacity = state.capacity) :
    next.Healthy capacity := by
  have hsn := h.sound
  refine ⟨⟨?_, ?_, ?_, ?_⟩, hc.trans h.capacity, ?_⟩
  · rw [hs, hin]
    exact hsn.indexed
  · rw [ht, hs]
    exact hsn.total
  · rw [hs]
    exact hsn.keys
  · rw [hs, hc]
    exact hsn.room
  · rw [ht]
    exact h.total

theorem Healthy.touch
    (ht : state.touch = .ok next) : next.Healthy capacity := by
  rw [touch_eq ht]
  exact h.same rfl rfl rfl rfl

theorem Healthy.reset
    (hr : state.reset = .ok next) : next.Healthy capacity := by
  rw [reset_eq hr, h.capacity]
  exact (Healthy.new capacity).same rfl rfl rfl rfl

end

/-- Taking out never needs more room, whatever is taken. -/
structure Roomy (capacity : Nat) (state : Aggregation) : Prop where
  room : state.scores.size ≤ capacity
  capacity : state.capacity = capacity
  total : state.total ≤ u64Max

theorem Healthy.roomy (h : state.Healthy capacity) :
    state.Roomy capacity :=
  ⟨h.capacity ▸ h.sound.room, h.capacity, h.total⟩

theorem Roomy.expire (h : state.Roomy capacity) {a : Nat}
    (he : state.expire key a = .ok next) : next.Roomy capacity := by
  have hexp := expire_cases he
  refine ⟨?_, hexp.capacity.trans h.capacity, ?_⟩
  · have hs := size_put state.scores key
      (positive (state.scores[key]?.getD 0 - a))
    rw [if_neg hexp.present] at hs
    have hr := h.room
    rw [hexp.scores]
    split at hs
    · omega
    · omega
  · rw [hexp.total]
    exact (sub_le _ _).trans h.total

end Aggregation

namespace Ranking

variable {seen : List String} {state : Aggregation}

theorem restoreEntries_healthy {capacity : Nat} (e : List Entry)
    {next : Aggregation} (h : state.Healthy capacity)
    (hr : restoreEntries e seen state = .ok next) :
    next.Healthy capacity := by
  induction e generalizing seen state with
  | nil =>
    cases hr
    exact h
  | cons entry rest ih =>
    obtain ⟨-, hr⟩ := ensure_ok.1 hr
    obtain ⟨counted, hc, hr⟩ := bind_eq_ok.1 hr
    exact ih ((h.apply hc).updateMetadata _ _) hr

theorem applyOnce_healthy {capacity weight : Nat} (r : List (String × Nat))
    {next : Aggregation} (h : state.Healthy capacity)
    (ha : applyOnce weight r seen state = .ok next) :
    next.Healthy capacity := by
  induction r generalizing seen state with
  | nil =>
    cases ha
    exact h
  | cons row rest ih =>
    obtain ⟨-, ha⟩ := ensure_ok.1 ha
    obtain ⟨counted, hc, ha⟩ := bind_eq_ok.1 ha
    exact ih (h.apply hc) ha

-- ==== restored windows

variable {totals : Table String Nat}

theorem eventTotals_spec {lt : Nat} (events : List WindowEvent)
    {last : Nat} {next : Table String Nat}
    (h : eventTotals lt events last totals = .ok next) :
    (∀ event ∈ events, 0 < event.2.2)
      ∧ ∀ key : String, next[key]?.getD 0
        = totals[key]?.getD 0 + sumFor key events := by
  induction events generalizing last totals with
  | nil =>
    cases h
    exact ⟨fun _ hin => absurd hin List.not_mem_nil, fun _ => rfl⟩
  | cons event rest ih =>
    obtain ⟨at_, name, amount⟩ := event
    obtain ⟨⟨-, -, ha⟩, h⟩ := ensure_ok.1 h
    obtain ⟨total, ht, h⟩ := okOr_ok.1 h
    obtain ⟨-, rfl⟩ := checkedAdd_eq_some.1 ht
    obtain ⟨hp, hs⟩ := ih h
    refine ⟨?_, ?_⟩
    · intro event hev
      rcases List.mem_cons.1 hev with rfl | hev
      · exact pos_of_ne_zero ha
      · exact hp event hev
    · intro key
      rw [hs, get_insert, sumFor_cons]
      by_cases hkey : name = key
      · subst hkey
        rw [if_pos rfl, if_pos rfl, getD_some, add_assoc]
      · rw [if_neg hkey, if_neg hkey, zero_add]

theorem sameTotals_spec {scores : Table String Nat}
    (h : sameTotals scores totals = true) (key : String) :
    scores[key]? = totals[key]? := by
  unfold sameTotals at h
  rw [Bool.and_eq_true, decide_eq_true_eq, List.all_eq_true] at h
  obtain ⟨hsz, hall⟩ := h
  have hat : ∀ (key : String) (score : Nat), scores[key]? = some score →
      totals[key]? = some score := fun key score hs =>
    of_decide_eq_true (hall (key, score) (mem_toList.2 hs))
  have hsub : scores.keySet ⊆ totals.keySet := by
    intro other ho
    obtain ⟨score, hs⟩ := ne_none_iff_exists'.1 (mem_keySet.1 ho)
    rw [mem_keySet, hat other score hs]
    exact some_ne_none score
  have hsm : scores.keySet = totals.keySet :=
    Finset.eq_of_subset_of_card_le hsub
      (by rw [card_keySet, card_keySet, hsz])
  cases hs : scores[key]? with
  | some score => exact (hat key score hs).symm
  | none =>
    cases ht : totals[key]? with
    | none => rfl
    | some t =>
      have hin : key ∈ totals.keySet := by
        rw [mem_keySet, ht]
        exact some_ne_none t
      rw [← hsm, mem_keySet] at hin
      exact absurd hs hin

-- ==== sane

structure Sane (ranking : Ranking) : Prop where
  valid : ranking.definition.valid = true
  state : ranking.state.Healthy ranking.definition.capacity
  window : ∀ durationMs maxEvents,
    ranking.definition.window = .rolling durationMs maxEvents →
      ranking.Counted ranking.windowEvents

variable {ranking next : Ranking}

theorem sane_fresh {definition : Definition}
    (hv : definition.valid = true) (n : Nat)
    (b : Vector UInt8 16) :
    (fresh definition n b).Sane := by
  refine ⟨hv, .new _, fun _ _ _ => ⟨.new _, ?_, ?_⟩⟩
  · intro key
    rfl
  · intro event hev
    cases hev

theorem Sane.alike (h : ranking.Sane) (ha : ranking.Alike next)
    (hc : next.state.capacity = ranking.state.capacity) :
    next.Sane := by
  refine ⟨?_, ?_, ?_⟩
  · rw [ha.definition]
    exact h.valid
  · rw [ha.definition]
    exact h.state.same ha.scores ha.index ha.total hc
  · intro dm me hw
    rw [ha.definition] at hw
    rw [ha.windowEvents]
    exact (h.window dm me hw).alike ha

theorem touched_capacity (state : Aggregation) :
    (touched state).capacity = state.capacity := by
  unfold touched
  split
  · next ht => rw [touch_eq ht]
  · rfl

theorem Sane.reject (h : ranking.Sane) : ranking.reject.Sane :=
  h.alike ranking.alike_reject rfl

theorem Sane.fault (h : ranking.Sane) : ranking.fault.Sane :=
  h.alike ranking.alike_fault (touched_capacity ranking.state)

theorem Sane.still (h : ranking.Sane)
    (hd : next.definition = ranking.definition)
    (hst : ∀ dm me, ranking.definition.window ≠ .rolling dm me)
    (hs : next.state.Healthy ranking.definition.capacity) :
    next.Sane := by
  refine ⟨hd ▸ h.valid, hd ▸ hs, ?_⟩
  intro dm me hw
  exact absurd (hd ▸ hw) (hst dm me)

-- ==== time

theorem expireRolling_roomy {capacity dm : Nat}
    (events : List WindowEvent) {ranking : Ranking}
    (h : ranking.state.Roomy capacity) :
    (expireRolling dm events ranking).2.state.Roomy capacity := by
  induction events generalizing ranking with
  | nil => exact h
  | cons event rest ih =>
    by_cases hage : ranking.lastTime - event.1 < dm
    · rw [expireRolling_stay hage]
      exact h
    · cases hs : ranking.state.expire event.2.1 event.2.2 with
      | error error =>
        rw [expireRolling_fail hage hs]
        exact h
      | ok state =>
        rw [expireRolling_take hage hs]
        exact ih (h.expire hs)

theorem expireDaily_eq (o : Int) (now : Nat) (ranking : Ranking) :
    expireDaily o now ranking
      = (if ranking.lastTime ≠ 0
            ∧ dayOf o (max ranking.lastTime now)
              ≠ dayOf o ranking.lastTime then
          Effect.change fun ranking => do
            let state ← ranking.state.reset
            return { ranking with
              state, users := ∅, rejected := 0, dropped := 0, limited := 0
              cooldownRejected := 0 }
        else (pure () : Effect Ranking Error Unit))
          { ranking with lastTime := max ranking.lastTime now } := rfl

theorem Sane.expired (h : ranking.Sane) (now : Nat) :
    (expireRanking now ranking).2.Sane := by
  cases hwin : ranking.definition.window with
  | session =>
    unfold expireRanking
    rw [hwin]
    exact h.still rfl (by rw [hwin]; nofun) h.state
  | daily o =>
    have hst : ∀ durationMs maxEvents,
        ranking.definition.window ≠ .rolling durationMs maxEvents := by
      rw [hwin]
      nofun
    unfold expireRanking
    rw [hwin]
    show (expireDaily o now ranking).2.Sane
    rw [expireDaily_eq]
    have hmv : Sane { ranking with
        lastTime := max ranking.lastTime now } :=
      h.still rfl hst h.state
    split
    · unfold Effect.change
      split
      · next after ha =>
        obtain ⟨state, hsta, ha⟩ := bind_eq_ok.1 ha
        cases ha
        exact h.still rfl hst (h.state.reset hsta)
      · exact hmv
    · exact hmv
  | rolling durationMs maxEvents =>
    have hbal : Balanced durationMs maxEvents ranking :=
      ⟨hwin, h.window durationMs maxEvents hwin⟩
    have hs := hbal.passed now
    have hdef : (expireRanking now ranking).2.definition
        = ranking.definition := hs.definition
    have hr : (expireRanking now ranking).2.state.Roomy
        ranking.definition.capacity := by
      rw [expireRanking_rolling hwin]
      exact expireRolling_roomy _ h.state.roomy
    refine ⟨hdef ▸ h.valid, ?_, fun _ _ _ => hs.counted⟩
    rw [hdef]
    exact ⟨hs.counted.represented.sound
      (hr.capacity.symm ▸ hr.room), hr.capacity,
      hr.total⟩

theorem Sane.expireOne (h : ranking.Sane) (now : Nat) :
    (ranking.expireOne now).Sane := by
  have hexp := h.expired now
  unfold Ranking.expireOne
  rcases hr : expireRanking now ranking with ⟨result, expired⟩
  rw [hr] at hexp
  cases result with
  | ok u => exact hexp
  | error error => exact hexp.reject

-- ==== contributions

variable {user : Option EntryMetadata}

theorem Sane.accept (h : ranking.Sane) {c : Contribution}
    {key : String} {v : Nat} {g : Option EntryMetadata}
    (hv : v ≠ 0) (hf : ¬ ranking.Full)
    (ha : ranking.accept c key v user g = .ok next) :
    next.Sane := by
  have hacc := accept_cases hv hf ha
  obtain ⟨state, hs, ha⟩ := bind_eq_ok.1 ha
  cases ha
  refine ⟨h.valid, ?_, ?_⟩
  · have happ := h.state.apply hs
    split
    · exact happ.updateMetadata _ _
    · exact happ
  · intro dm me hw
    have hbal : Balanced dm me ranking := ⟨hw, h.window dm me hw⟩
    exact (hbal.accepted hacc).counted

theorem Sane.account (h : ranking.Sane) {c : Contribution}
    {g : Option EntryMetadata}
    (ha : ranking.account c user g = .ok next) : next.Sane := by
  obtain ⟨value, -, ha⟩ := bind_eq_ok.1 ha
  split at ha
  · cases ha
    exact h
  · next hv =>
    obtain ⟨key, -, ha⟩ := okOr_ok.1 ha
    obtain ⟨hf, ha⟩ := ensure_ok.1 ha
    obtain ⟨d, -, ha⟩ := bind_eq_ok.1 ha
    cases d with
    | limited =>
      obtain ⟨state, hs, ha⟩ := bind_eq_ok.1 ha
      cases ha
      rw [touch_eq hs]
      exact h.alike ⟨rfl, rfl, rfl, rfl, rfl, rfl, le_succ _⟩ rfl
    | cooldown =>
      obtain ⟨state, hs, ha⟩ := bind_eq_ok.1 ha
      cases ha
      rw [touch_eq hs]
      exact h.alike ⟨rfl, rfl, rfl, rfl, rfl, rfl, le_succ _⟩ rfl
    | allowed => exact h.accept hv hf ha

theorem Sane.contribute (h : ranking.Sane) (c : Contribution)
    (now : Nat) (user gift : Option EntryMetadata) :
    (ranking.contribute c now user gift).1.Sane := by
  have hexp := h.expired now
  unfold Ranking.contribute
  split
  · exact h
  · rcases hr : expireRanking now ranking with ⟨result, e⟩
    rw [hr] at hexp
    cases result with
    | error error => exact hexp.reject
    | ok u =>
      dsimp only
      split
      · exact hexp
      · cases ha : e.account c user gift with
        | error error => exact hexp.fault
        | ok next => exact hexp.account ha

-- ==== votes

theorem assignmentWeight_still {definition : Definition} {weight : Nat}
    (h : definition.assignmentWeight = .ok weight)
    (dm maxEvents : Nat) :
    definition.window ≠ .rolling dm maxEvents := by
  obtain ⟨⟨-, hw, -⟩, -⟩ := ensure_ok.1 h
  rw [hw]
  nofun

-- ==== control

theorem Sane.restoreCheckpoint (h : ranking.Sane)
    {c : SessionCheckpoint}
    (hr : restoreSessionCheckpoint c ranking = .ok next) :
    next.Sane := by
  obtain ⟨-, hr⟩ := ensure_ok.1 hr
  obtain ⟨state, hs, hr⟩ := bind_eq_ok.1 hr
  obtain ⟨-, hr⟩ := ensure_ok.1 hr
  obtain ⟨_, hw, hr⟩ := bind_eq_ok.1 hr
  obtain ⟨-, hr⟩ := ensure_ok.1 hr
  cases hr
  have hh : Aggregation.Healthy ranking.definition.capacity
      { state with revision := c.snapshot.revision } :=
    (restoreEntries_healthy _ (.new _) hs).same rfl rfl rfl rfl
  refine ⟨h.valid, hh, ?_⟩
  intro durationMs maxEvents hrl
  unfold checkWindow at hw
  rw [hrl] at hw
  obtain ⟨-, hw⟩ := ensure_ok.1 hw
  obtain ⟨totals, ht, hw⟩ := bind_eq_ok.1 hw
  obtain ⟨hp, hsu⟩ := eventTotals_spec _ ht
  have hsm := sameTotals_spec (ensure_eq_ok.1 hw)
  refine ⟨hh.sound.represented, ?_, hp⟩
  intro key
  rw [hsm key, hsu key,
    show (∅ : Table String Nat)[key]? = none from
      ExtTreeMap.getElem?_empty, getD_none, zero_add]

theorem Sane.reset (h : ranking.Sane)
    (hr : ranking.reset = .ok next) : next.Sane := by
  obtain ⟨state, hs, hr⟩ := bind_eq_ok.1 hr
  cases hr
  have hh := h.state.reset hs
  refine ⟨h.valid, hh, fun _ _ _ => ⟨hh.sound.represented, ?_,
    fun _ hin => absurd hin List.not_mem_nil⟩⟩
  intro key
  rw [reset_eq hs]
  rfl

theorem Sane.redefine (h : ranking.Sane) {definition : Definition}
    {c : Bool} (hf : (Turn.redefine definition c).Fits ranking)
    (hr : ranking.redefine definition c = .ok next) : next.Sane := by
  obtain ⟨hv, -, hsm⟩ := hf
  unfold Ranking.redefine at hr
  split at hr
  · obtain ⟨cleared, hcl, hr⟩ := bind_eq_ok.1 hr
    cases hr
    obtain ⟨state, hs, hcl⟩ := bind_eq_ok.1 hcl
    cases hcl
    rw [reset_eq hs]
    have hnew : Aggregation.Healthy definition.capacity
        { Aggregation.new ranking.state.capacity with
          revision := ranking.state.revision + 1
          capacity := definition.capacity } :=
      (Aggregation.Healthy.new definition.capacity).same rfl rfl rfl rfl
    refine ⟨hv, hnew, fun _ _ _ => ⟨hnew.sound.represented, ?_,
      fun _ hin => absurd hin List.not_mem_nil⟩⟩
    intro key
    rfl
  · next hcr =>
    obtain ⟨state, hs, hr⟩ := bind_eq_ok.1 hr
    cases hr
    have hdef := hsm.resolve_right hcr
    have ht := h.state.touch hs
    have hcap : definition.capacity = ranking.definition.capacity := by
      rw [← hdef]
    have hwin : definition.window = ranking.definition.window := by
      rw [← hdef]
    refine ⟨hv, ?_, ?_⟩
    · dsimp only
      rw [hcap]
      exact ht
    · intro dm me hrl
      rw [hwin] at hrl
      have hc := h.window dm me hrl
      rw [touch_eq hs]
      exact ⟨⟨hc.represented.indexed, hc.represented.total,
        hc.represented.keys⟩, hc.scores, hc.positive⟩

-- ==== turns

theorem Sane.change (h : ranking.Sane)
    {c : Ranking → Except Error Ranking}
    (hc : ∀ next, c ranking = .ok next → next.Sane) :
    (Effect.change c ranking).2.Sane := by
  unfold Effect.change
  split
  · next a ha => exact hc a ha
  · exact h

theorem Sane.touched (h : ranking.Sane)
    (ht : ranking.state.touch = .ok state)
    (hs : next.state = { state with metadata := next.state.metadata })
    (hw : next.windowEvents = ranking.windowEvents)
    (hl : next.lastTime = ranking.lastTime)
    (hd : next.definition = ranking.definition) : next.Sane := by
  rw [touch_eq ht] at hs
  refine h.alike ⟨hd, hl, hw, ?_, ?_, ?_, ?_⟩ ?_
  all_goals rw [hs]
  exact le_succ _

theorem Sane.inPlace (h : ranking.Sane) (hmv : InPlace ranking next) :
    next.Sane := by
  cases hmv with
  | kept => exact h
  | fault => exact h.fault
  | applied hwt hs =>
    exact h.still rfl (assignmentWeight_still hwt) (h.state.apply hs)
  | reassigned hwt hs =>
    exact h.still rfl (assignmentWeight_still hwt) (h.state.reassign hs)
  | recounted hwt hv hsc =>
    exact h.still rfl (assignmentWeight_still hwt)
      ((applyOnce_healthy _ (applyOnce_healthy _ (.new _) hv)
        hsc).same rfl rfl rfl rfl)
  | described ht => exact h.touched ht rfl rfl rfl rfl
  | paused ht => exact h.touched ht rfl rfl rfl rfl
  | recovered ht => exact h.touched ht rfl rfl rfl rfl
  | unshown => exact h.reject
  | lost =>
    have hf := ranking.alike_fault
    exact h.alike ⟨rfl, rfl, rfl, hf.scores, hf.index,
      hf.total, hf.revision⟩ (touched_capacity ranking.state)

theorem Sane.take (h : ranking.Sane) (turn : Turn)
    (hf : turn.Fits ranking) : (ranking.take turn).Sane := by
  cases turn with
  | restoreSessionCheckpoint checkpoint =>
    exact h.change fun _ => h.restoreCheckpoint
  | contribute c now user gift =>
    exact h.contribute c now user gift
  | expireAt now => exact h.expireOne now
  | reset => exact h.change fun _ => h.reset
  | redefine definition clear =>
    exact h.change fun _ => h.redefine hf
  | _ => exact h.inPlace (take_inPlace _ rfl)

-- ==== ballots

section ballots

variable {definition : Definition} {weight : Nat}
  {ballots other : Ballots}

theorem Tallied.perm (h : Tallied definition weight ballots ranking)
    (ha : other.assignments = ballots.assignments)
    (hp : other.committed.Perm ballots.committed) :
    Tallied definition weight other ranking := by
  have hv : ∀ option, other.votes option = ballots.votes option := by
    intro option
    unfold Ballots.votes
    rw [ha]
  have hs : ∀ option, other.scored option = ballots.scored option :=
    fun option => ((hp.filter _).map _).sum_eq
  refine ⟨h.same, h.sound, h.capacity, h.total, ?_, ?_, ?_⟩
  · intro option
    rw [hv, hs]
    exact h.amounts option
  · rw [ha]
    exact h.assigned
  · exact fun row hrow => h.committed row (hp.mem_iff.1 hrow)

theorem Tallied.alike (h : Tallied definition weight ballots ranking)
    (ha : ranking.Alike next)
    (hc : next.state.capacity = ranking.state.capacity) :
    Tallied definition weight ballots next := by
  have hh : next.state.Healthy definition.capacity :=
    Aggregation.Healthy.same ⟨h.sound, h.capacity, h.total⟩
      ha.scores ha.index ha.total hc
  refine ⟨ha.definition.trans h.same, hh.sound, hh.capacity,
    hh.total, ?_, h.assigned, h.committed⟩
  intro o
  rw [← h.amounts o]
  unfold Aggregation.amount
  rw [ha.scores]

theorem applyOnce_amounts (rows : List (String × Nat)) {seen : List String}
    {state a : Aggregation}
    (h : applyOnce weight rows seen state = .ok a) (o : String) :
    a.amount o = state.amount o + weight * rowSum o rows := by
  induction rows generalizing seen state with
  | nil =>
    cases h
    rfl
  | cons row rest ih =>
    obtain ⟨-, h⟩ := ensure_ok.1 h
    obtain ⟨counted, hc, h⟩ := bind_eq_ok.1 h
    rw [ih h, amount_apply hc, rowSum_cons, Nat.mul_add, Nat.add_assoc]
    split
    · rw [Nat.mul_comm]
    · rfl

theorem restored_amounts {totals scored : List (String × Nat)}
    (hwt : ranking.definition.assignmentWeight = .ok weight)
    (h : ranking.restoreAssignmentsWithScores totals scored = .ok next)
    (option : String) : next.definition = ranking.definition
      ∧ next.state.amount option
        = weight * rowSum option totals + rowSum option scored := by
  unfold restoreAssignmentsWithScores at h
  rw [hwt] at h
  obtain ⟨revision, -, h⟩ := okOr_ok.1 h
  obtain ⟨votes, hv, h⟩ := bind_eq_ok.1 h
  obtain ⟨c, hc, h⟩ := bind_eq_ok.1 h
  cases h
  refine ⟨rfl, ?_⟩
  have hem : (Aggregation.new ranking.definition.capacity).amount option
      = 0 := by
    rfl
  show c.amount option = _
  rw [applyOnce_amounts _ hc, applyOnce_amounts _ hv, hem, zero_add, one_mul]

end ballots

end Ranking

theorem Engine.Reachable.sane {e : Engine} (h : Reachable e)
    {id : String} {ranking : Ranking}
    (hr : e.rankings[id]? = some ranking) : ranking.Sane :=
  h.kept (P := Ranking.Sane)
    (fun _ n b hv => Ranking.sane_fresh hv n b)
    (fun _ t hf hs => hs.take t hf) id ranking hr

end TikTools.Aggregation
