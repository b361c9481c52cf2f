/-
Change tokens: the number and the revision of every ranking, by which a
reader decides whether to look at the ranking again.

Every turn of a ranking is one of two kinds. It moves the clock at most,
or it takes a new revision: an error that is counted takes one too, and
the revision is kept only when it cannot grow any more. `Ranking.Shown`
says that and composes, so it holds between any two moments of a ranking
that stays. A ranking that is removed and created again has another
number, as numbers only grow; so a token that is met again names a
ranking that has been there all along and has not changed.
-/
import TikTools.Aggregation.Sane

namespace TikTools.Aggregation

open TikTools.Lib Std Table Aggregation Effect

set_option linter.dupNamespace false

-- ==== scores

namespace Aggregation

variable {state next : Aggregation}

theorem apply_newer {key : String} {d w : Nat}
    (h : state.apply key d w = .ok next) :
    next = state ∨ state.revision < next.revision := by
  rcases apply_cases h with ⟨-, hs⟩ | ha
  · exact .inl hs
  · have hrev := ha.revision
    exact .inr (by omega)

theorem updateMetadata_revision (key : String) (d : EntryMetadata) :
    (state.updateMetadata key d).revision = state.revision := by
  unfold updateMetadata
  split
  · rfl
  · rfl

theorem touch_error {e : Error} (h : state.touch = .error e) :
    u64Max ≤ state.revision := by
  by_contra hl
  unfold touch at h
  rw [checkedAdd_of_le (by omega)] at h
  cases h

theorem reset_error {e : Error} (h : state.reset = .error e) :
    u64Max ≤ state.revision := by
  by_contra hl
  unfold reset at h
  rw [checkedAdd_of_le (by omega)] at h
  cases h

end Aggregation

namespace Ranking

variable {ranking before middle after next : Ranking}

-- ==== shown

/-- Whatever happened to the ranking beyond its clock shows in the
revision, unless that is spent. -/
structure Shown (before after : Ranking) : Prop where
  number : after.number = before.number
  revision : before.state.revision ≤ after.state.revision
  same : after.state.revision < u64Max →
    after.state.revision = before.state.revision →
      after = { before with lastTime := after.lastTime }

namespace Shown

theorem clock (ranking : Ranking) (t : Nat) :
    Shown ranking { ranking with lastTime := t } :=
  ⟨rfl, le_rfl, fun _ _ => rfl⟩

theorem refl (ranking : Ranking) : Shown ranking ranking :=
  clock ranking ranking.lastTime

theorem newer (hn : after.number = before.number)
    (h : before.state.revision < after.state.revision) :
    Shown before after :=
  ⟨hn, h.le, fun _ hs => absurd hs h.ne'⟩

theorem spent (hn : after.number = before.number)
    (h : before.state.revision ≤ after.state.revision)
    (hm : u64Max ≤ after.state.revision) : Shown before after :=
  ⟨hn, h, fun hl => absurd hl hm.not_gt⟩

theorem trans (h : Shown before middle) (h' : Shown middle after) :
    Shown before after := by
  have hf := h.revision
  have hl := h'.revision
  refine ⟨h'.number.trans h.number, hf.trans hl, ?_⟩
  intro hls hs
  have hmid := h.same (by omega) (by omega)
  have ha := h'.same hls (by omega)
  rw [hmid] at ha
  exact ha

theorem reject (h : Shown before after)
    (hm : u64Max ≤ after.state.revision) : Shown before after.reject :=
  spent h.number h.revision hm

end Shown

variable {state : Aggregation}

theorem shown_touch (h : ranking.state.touch = .ok state)
    (hs : next.state = state) (hn : next.number = ranking.number) :
    Shown ranking next := by
  refine .newer hn ?_
  rw [hs, touch_eq h]
  exact Nat.lt_succ_self _

theorem shown_touched (hs : next.state = touched ranking.state)
    (hn : next.number = ranking.number) : Shown ranking next := by
  unfold touched at hs
  split at hs
  · next ht => exact shown_touch ht hs hn
  · next ht =>
    have hmax := touch_error ht
    exact .spent hn (by rw [hs]) (by rwa [hs])

theorem shown_fault (ranking : Ranking) : Shown ranking ranking.fault :=
  shown_touched rfl rfl

variable {key : String}

theorem shown_apply {d w : Nat}
    (h : ranking.state.apply key d w = .ok state) :
    Shown ranking { ranking with state } := by
  rcases apply_newer h with rfl | hn
  · exact .refl ranking
  · exact .newer rfl hn

theorem shown_change {c : Ranking → Except Error Ranking}
    (h : ∀ next, c ranking = .ok next → Shown ranking next) :
    Shown ranking (Effect.change c ranking).2 := by
  unfold Effect.change
  split
  · next next hn => exact h next hn
  · exact .refl ranking

-- ==== time

theorem shown_expireRolling (dm : Nat)
    (events : List WindowEvent) {ranking : Ranking}
    (h : ranking.Counted events) :
    Shown ranking (expireRolling dm events ranking).2
      ∧ ∀ error,
        (expireRolling dm events ranking).1 = .error error →
          u64Max ≤ (expireRolling dm events ranking).2.state.revision := by
  induction events generalizing ranking with
  | nil => exact ⟨.refl ranking, nofun⟩
  | cons event rest ih =>
    by_cases hage : ranking.lastTime - event.1 < dm
    · rw [expireRolling_stay hage]
      exact ⟨.refl ranking, nofun⟩
    · cases hs : ranking.state.expire event.2.1 event.2.2 with
      | error error =>
        rw [expireRolling_fail hage hs]
        exact ⟨.refl ranking, fun _ _ => h.expire_error hs⟩
      | ok state =>
        rw [expireRolling_take hage hs]
        have hr := ih (h.expired hs)
        have ht : Shown ranking
            { ranking with state, windowEvents := rest } := by
          refine .newer rfl ?_
          rw [(expire_cases hs).revision]
          exact Nat.lt_succ_self _
        exact ⟨ht.trans hr.1, hr.2⟩

theorem shown_expireDaily (o : Int) (now : Nat) (ranking : Ranking) :
    Shown ranking (expireDaily o now ranking).2
      ∧ ∀ e, (expireDaily o now ranking).1 = .error e →
        u64Max ≤ (expireDaily o now ranking).2.state.revision := by
  rw [expireDaily_eq]
  split
  · unfold Effect.change
    split
    · next after ha =>
      obtain ⟨state, hs, ha⟩ := bind_eq_ok.1 ha
      cases ha
      refine ⟨.newer rfl ?_, nofun⟩
      rw [reset_eq hs]
      exact Nat.lt_succ_self _
    · next e ha =>
      refine ⟨.clock ranking _, fun _ _ => ?_⟩
      rcases bind_eq_error.1 ha with hr | ⟨state, -, ha⟩
      · exact reset_error hr
      · cases ha
  · exact ⟨.clock ranking _, nofun⟩

/-- Time that passes shows wherever it takes something out, and fails
only where the revision is spent. -/
theorem Sane.shown_expired (h : ranking.Sane) (now : Nat) :
    Shown ranking (expireRanking now ranking).2
      ∧ ∀ e, (expireRanking now ranking).1 = .error e →
        u64Max ≤ (expireRanking now ranking).2.state.revision := by
  cases hw : ranking.definition.window with
  | session =>
    unfold expireRanking
    rw [hw]
    exact ⟨.clock ranking _, nofun⟩
  | daily o =>
    unfold expireRanking
    rw [hw]
    exact shown_expireDaily o now ranking
  | rolling dm me =>
    have hc := h.window dm me hw
    have hmv : Counted { ranking with
        lastTime := max ranking.lastTime now } ranking.windowEvents :=
      ⟨hc.represented, hc.scores, hc.positive⟩
    rw [expireRanking_rolling hw]
    have hr := shown_expireRolling dm _ hmv
    exact ⟨(Shown.clock ranking _).trans hr.1, hr.2⟩

theorem Sane.shown_expireOne (h : ranking.Sane) (now : Nat) :
    Shown ranking (ranking.expireOne now) := by
  have hexp := h.shown_expired now
  unfold Ranking.expireOne
  rcases hr : expireRanking now ranking with ⟨result, expired⟩
  rw [hr] at hexp
  cases result with
  | ok u => exact hexp.1
  | error error => exact hexp.1.reject (hexp.2 error rfl)

-- ==== contributions

variable {user : Option EntryMetadata}

section

variable {contribution : Contribution} {gift : Option EntryMetadata}

theorem shown_accept {v : Nat} (hv : v ≠ 0)
    (h : ranking.accept contribution key v user gift = .ok next) :
    Shown ranking next := by
  have hrev := (accept_adds hv h).revision
  obtain ⟨state, -, h⟩ := bind_eq_ok.1 h
  cases h
  exact .newer rfl (by omega)

/-- A contribution that is accepted shows, and so does one that a limit
or a cooldown holds back. -/
theorem shown_account
    (h : ranking.account contribution user gift = .ok next) :
    Shown ranking next := by
  obtain ⟨value, -, h⟩ := bind_eq_ok.1 h
  split at h
  · cases h
    exact .refl ranking
  · next hv =>
    obtain ⟨key, -, h⟩ := okOr_ok.1 h
    obtain ⟨-, h⟩ := ensure_ok.1 h
    obtain ⟨d, -, h⟩ := bind_eq_ok.1 h
    cases d with
    | limited =>
      obtain ⟨state, hs, h⟩ := bind_eq_ok.1 h
      cases h
      exact shown_touch hs rfl rfl
    | cooldown =>
      obtain ⟨state, hs, h⟩ := bind_eq_ok.1 h
      cases h
      exact shown_touch hs rfl rfl
    | allowed => exact shown_accept hv h

end

theorem Sane.shown_contribute (h : ranking.Sane)
    (contribution : Contribution) (now : Nat)
    (user gift : Option EntryMetadata) :
    Shown ranking (ranking.contribute contribution now user gift).1 := by
  have hexp := h.shown_expired now
  unfold Ranking.contribute
  split
  · exact .refl ranking
  · rcases hr : expireRanking now ranking with ⟨result, e⟩
    rw [hr] at hexp
    cases result with
    | error error => exact hexp.1.reject (hexp.2 error rfl)
    | ok u =>
      dsimp only
      split
      · exact hexp.1
      · cases ha : e.account contribution user gift with
        | error error => exact hexp.1.trans (shown_fault e)
        | ok next => exact hexp.1.trans (shown_account ha)

-- ==== control

theorem shown_reset (h : ranking.reset = .ok next) :
    Shown ranking next := by
  obtain ⟨state, hs, h⟩ := bind_eq_ok.1 h
  cases h
  refine .newer rfl ?_
  rw [reset_eq hs]
  exact Nat.lt_succ_self _

theorem shown_redefine {d : Definition} {c : Bool}
    (h : ranking.redefine d c = .ok next) :
    Shown ranking next := by
  unfold Ranking.redefine at h
  split at h
  · obtain ⟨cleared, hc, h⟩ := bind_eq_ok.1 h
    cases h
    obtain ⟨state, hs, hc⟩ := bind_eq_ok.1 hc
    cases hc
    refine .newer rfl ?_
    rw [reset_eq hs]
    exact Nat.lt_succ_self _
  · obtain ⟨state, hs, h⟩ := bind_eq_ok.1 h
    cases h
    exact shown_touch hs rfl rfl

-- ==== turns

theorem InPlace.shown (h : InPlace ranking next) : Shown ranking next := by
  cases h with
  | kept => exact .refl ranking
  | fault => exact shown_fault ranking
  | applied _ hs => exact shown_apply hs
  | reassigned _ hs =>
    refine .newer rfl ?_
    rw [(reassign_cases hs).revision]
    exact Nat.lt_succ_self _
  | recounted => exact .newer rfl (Nat.lt_succ_self _)
  | described ht =>
    refine .newer rfl ?_
    rw [touch_eq ht]
    exact Nat.lt_succ_self _
  | paused ht => exact shown_touch ht rfl rfl
  | recovered ht => exact shown_touch ht rfl rfl
  | unshown ht =>
    exact (Shown.refl ranking).reject (touch_error ht)
  | lost => exact shown_touched rfl rfl

theorem Sane.shown_take (h : ranking.Sane) (turn : Turn)
    (hr : turn.restores = false) :
    Shown ranking (ranking.take turn) := by
  cases turn with
  | restoreSessionCheckpoint checkpoint => cases hr
  | contribute contribution now user gift =>
    exact h.shown_contribute contribution now user gift
  | expireAt now => exact h.shown_expireOne now
  | reset => exact shown_change fun _ => shown_reset
  | redefine definition clear => exact shown_change fun _ => shown_redefine
  | _ => exact (take_inPlace _ rfl).shown

theorem Sane.take_number (h : ranking.Sane) (t : Turn) :
    (ranking.take t).number = ranking.number := by
  cases hr : t.restores with
  | false => exact (h.shown_take t hr).number
  | true =>
    cases t with
    | restoreSessionCheckpoint checkpoint =>
      show (Effect.change _ ranking).2.number = _
      unfold Effect.change
      split
      · next next hn =>
        obtain ⟨-, hn⟩ := ensure_ok.1 hn
        obtain ⟨state, -, hn⟩ := bind_eq_ok.1 hn
        obtain ⟨-, hn⟩ := ensure_ok.1 hn
        obtain ⟨_, -, hn⟩ := bind_eq_ok.1 hn
        obtain ⟨-, hn⟩ := ensure_ok.1 hn
        cases hn
        rfl
      · rfl
    | _ => cases hr

/-- What `change_tokens` says of a ranking. -/
def token (ranking : Ranking) : Nat × Nat :=
  (ranking.number, ranking.state.revision)

theorem Shown.of_token (h : Shown before after)
    (ht : after.token = before.token)
    (hr : after.state.revision < u64Max) :
    after = { before with lastTime := after.lastTime } :=
  h.same hr (Prod.mk.inj ht).2

end Ranking

namespace Engine

variable {engine : Engine} {id : String}

-- ==== numbers

/-- An operation takes at most one number, and where it takes none it
has created no ranking. -/
inductive Took (engine after : Engine) : Prop
  | none (hnext : after.nextInstance = engine.nextInstance)
      (hrankings : after.rankings = engine.rankings)
  | one (hnext : after.nextInstance = engine.nextInstance + 1)

theorem took_create (i : Identity) (d : Definition)
    (engine : Engine) :
    Took engine (create i d engine).2 := by
  refine look_spec (P := fun r => Took engine r.2)
    (fun _ _ => .none rfl rfl) fun _ _ => ?_
  refine look_spec (P := fun r => Took engine r.2)
    (fun _ _ => .none rfl rfl) fun _ _ => ?_
  refine look_spec (P := fun r => Took engine r.2)
    (fun _ _ => .none rfl rfl) fun _ _ => ?_
  refine lift_spec (P := fun r => Took engine r.2)
    (fun _ _ => .none rfl rfl) fun bytes _ => ?_
  show Took engine (Effect.change _ { engine with
    bySource := indexSources engine.bySource d }).2
  unfold Effect.change
  split
  · next after ha =>
    obtain ⟨number, hn, ha⟩ := okOr_ok.1 ha
    obtain ⟨-, rfl⟩ := checkedAdd_eq_some.1 hn
    cases ha
    exact .one rfl
  · exact .none rfl rfl

theorem nextInstance_within (id : String) (act : Effect Ranking Error Unit)
    (engine : Engine) :
    (within id act engine).2.nextInstance = engine.nextInstance := by
  unfold within
  split
  · rfl
  · rfl

theorem nextInstance_forSource (s : String)
    (act : Ranking → Ranking × Option Error) (engine : Engine) :
    (engine.forSource s act).1.nextInstance = engine.nextInstance :=
  forSource_keeps (fun _ _ => rfl) s act engine

theorem nextInstance_update (i : Identity) (d : Definition)
    (r : Bool) : Effect.Keeps Engine.nextInstance (update i d r) := by
  refine .bind (.look _) fun _ => .bind (.change ?_) fun _ => .change ?_
  · rintro before after h
    cases h
    rfl
  · rintro before after h
    obtain ⟨ranking, -, h⟩ := okOr_ok.1 h
    split at h
    · cases h
      rfl
    · cases h

theorem nextInstance_perform (engine : Engine) (op : Op) :
    engine.nextInstance ≤ (engine.perform op).nextInstance := by
  cases op with
  | create identity definition =>
    rcases took_create identity definition engine with ⟨h, -⟩ | ⟨h⟩
    · exact h.ge
    · exact (Nat.le_succ _).trans h.ge
  | update identity definition reset =>
    exact (nextInstance_update identity definition reset engine).ge
  | remove id =>
    unfold perform remove
    dsimp only
    split
    · exact le_rfl
    · exact le_rfl
  | expireAt now => exact le_rfl
  | markIngressLoss count =>
    unfold perform markIngressLoss
    dsimp only
    split
    · exact le_rfl
    · exact le_rfl
  | apply contribution now user gift =>
    exact (nextInstance_forSource _ _ engine).ge
  | markGap creatorId roomId source =>
    exact (nextInstance_forSource _ _ engine).ge
  | markMetricGap creatorId roomId source metric =>
    exact (nextInstance_forSource _ _ engine).ge
  | _ => exact (nextInstance_within _ _ engine).ge

/-- Where a ranking after an operation comes from. -/
inductive Origin (engine after : Engine) (id : String) (op : Op)
    (ranking : Ranking) : Prop
  /-- It was there, and has kept its number. -/
  | kept (before : Ranking) (hbefore : engine.rankings[id]? = some before)
      (hnumber : ranking.number = before.number)
      (hshown : op.restores = false → before.Shown ranking)
  /-- It is new, and so is its number. -/
  | created (identity : Identity) (definition : Definition)
      (hop : op = .create identity definition) (hid : definition.id = id)
      (hnumber : ranking.number = engine.nextInstance + 1)
      (hnext : after.nextInstance = engine.nextInstance + 1)

variable {ranking : Ranking}

theorem Reachable.origin (h : Reachable engine) {op : Op}
    (hr : (engine.perform op).rankings[id]? = some ranking) :
    Origin engine (engine.perform op) id op ranking := by
  have hp := perform_passed h.named_once op id
  generalize ha : (engine.perform op).rankings[id]? = after at hp
  rw [hr] at ha
  cases hp with
  | stayed => exact .kept ranking ha.symm rfl fun _ => .refl ranking
  | turned turn hb hf hrs =>
    cases ha
    have hs := h.sane hb
    refine .kept _ hb (hs.take_number turn) fun hop => ?_
    exact hs.shown_take turn (hrs.trans hop)
  | removed => cases ha
  | @created i d bytes hid hv hnew hnm =>
    cases ha
    refine .created i d rfl hid rfl ?_
    have ht := took_create i d engine
    rcases ht with ⟨-, hsm⟩ | ⟨hn⟩
    · change (create i d engine).2.rankings[id]? = _
        at hr
      rw [hsm, hnew] at hr
      cases hr
    · exact hn

/-- No number is beyond the last one taken, and no two rankings have the
same. -/
structure Numbered (engine : Engine) : Prop where
  issued : ∀ (id : String) (ranking : Ranking),
    engine.rankings[id]? = some ranking → ranking.number ≤ engine.nextInstance
  apart : ∀ (id other : String) (ranking twin : Ranking),
    engine.rankings[id]? = some ranking →
      engine.rankings[other]? = some twin →
        twin.number = ranking.number → other = id

theorem Reachable.numbered (h : Reachable engine) : engine.Numbered := by
  induction h with
  | empty =>
    constructor
    · intro id ranking hr
      rw [show Engine.empty.rankings[id]? = none from
        ExtTreeMap.getElem?_empty] at hr
      cases hr
    · intro id other ranking twin hr
      rw [show Engine.empty.rankings[id]? = none from
        ExtTreeMap.getElem?_empty] at hr
      cases hr
  | @perform engine op hrc ih =>
    have hnx := nextInstance_perform engine op
    constructor
    · intro id ranking hr
      cases hrc.origin hr with
      | kept before hb hn =>
        have his := ih.issued id before hb
        omega
      | created identity definition hop hid hn hnx => omega
    · intro id other ranking twin hr ht hs
      cases hrc.origin hr with
      | kept before hb hn =>
        cases hrc.origin ht with
        | kept old hold hnum' =>
          exact ih.apart id other before old hb hold (by omega)
        | created identity definition hop hid hnum' =>
          have his := ih.issued id before hb
          omega
      | created identity definition hop hid hn =>
        cases hrc.origin ht with
        | kept old hold hnum' =>
          have his := ih.issued other old hold
          omega
        | created identity' definition' hop' hid' =>
          cases hop.symm.trans hop'
          exact hid'.symm.trans hid

-- ==== tokens

/-- `change_tokens`; their order says nothing. -/
def changeTokens (engine : Engine) : List (String × Nat × Nat) :=
  engine.rankings.toList.map fun entry => (entry.1, entry.2.token)

theorem mem_changeTokens {token : Nat × Nat} :
    (id, token) ∈ engine.changeTokens
      ↔ ∃ ranking, engine.rankings[id]? = some ranking
        ∧ ranking.token = token := by
  unfold changeTokens
  rw [List.mem_map]
  constructor
  · rintro ⟨⟨name, ranking⟩, hen, hs⟩
    cases hs
    exact ⟨ranking, mem_toList.1 hen, rfl⟩
  · rintro ⟨ranking, hr, rfl⟩
    exact ⟨(id, ranking), mem_toList.2 hr, rfl⟩

def sessionCheckpoint (engine : Engine) (id : String) :
    Option SessionCheckpoint :=
  engine.rankings[id]?.map Ranking.sessionCheckpoint

/-- The entries of a ranking to be ranked, and how many to keep. -/
def snapshotUnrankedCapped (engine : Engine) (id : String) (cap : Nat) :
    Option (Snapshot × Nat) :=
  engine.rankings[id]?.map fun ranking => ranking.snapshotUnrankedCapped cap

/-- One operation; a token may be compared across those that take no
checkpoint over. -/
abbrev Moves (engine : Engine) (op : Op) (next : Engine) : Prop :=
  engine.perform op = next

abbrev Comparable (_ : Engine) (op : Op) : Prop := op.restores = false

/-- A ranking with the number of one that was seen is that one, and what
has happened to it since shows. -/
structure Follows (engine : Engine) (id : String) (seen : Ranking) :
    Prop where
  issued : seen.number ≤ engine.nextInstance
  shown : ∀ ranking, engine.rankings[id]? = some ranking →
    ranking.number = seen.number → seen.Shown ranking

theorem Reachable.follows (h : Reachable engine)
    (hr : engine.rankings[id]? = some ranking) :
    engine.Follows id ranking := by
  refine ⟨h.numbered.issued id ranking hr, ?_⟩
  intro other ho _
  cases hr.symm.trans ho
  exact .refl ranking

variable {seen : Ranking}

theorem Follows.perform (h : engine.Follows id seen)
    (hr : Reachable engine) {op : Op} (hop : op.restores = false) :
    (engine.perform op).Follows id seen := by
  have his := h.issued
  refine ⟨his.trans (nextInstance_perform engine op), ?_⟩
  intro ranking hrn hsm
  cases hr.origin hrn with
  | kept before hb hn hs =>
    have hf := h.shown before hb (hn.symm.trans hsm)
    exact hf.trans (hs hop)
  | created identity definition hop hid hn => omega

/-- What has the token of something that was seen is the same, but for
the clock. -/
theorem Follows.unchanged (h : engine.Follows id seen)
    (hr : engine.rankings[id]? = some ranking)
    (ht : ranking.token = seen.token)
    (hrev : ranking.state.revision < u64Max) :
    ranking = { seen with lastTime := ranking.lastTime } :=
  (h.shown ranking hr (Prod.mk.inj ht).1).of_token ht hrev

variable {ok : Engine → Op → Prop}

theorem Reachable.run {after : Engine} (h : Reachable engine)
    (hr : Run Moves ok engine after) : Reachable after := by
  refine @Run.invariant _ _ _ _ _ _ Reachable hr h ?_
  rintro before op next hb - rfl
  exact .perform op hb

theorem Follows.run {after : Engine} (h : engine.Follows id seen)
    (hr : Reachable engine) (hrun : Run Moves Comparable engine after) :
    after.Follows id seen := by
  refine (@Run.invariant _ _ _ _ _ _
    (fun engine => Reachable engine ∧ engine.Follows id seen) hrun
    ⟨hr, h⟩ ?_).2
  rintro before op next ⟨hb, hf⟩ hop rfl
  exact ⟨.perform op hb, hf.perform hb hop⟩

theorem Reachable.number_kept {after : Engine} (h : Reachable engine)
    (hrun : Run Moves ok engine after)
    (hr : after.rankings[id]? = some ranking)
    (ht : ranking.number ≤ engine.nextInstance) :
    ∃ before, engine.rankings[id]? = some before
      ∧ before.number = ranking.number := by
  refine (@Run.invariant _ _ _ _ _ _
    (fun now => Reachable now ∧ engine.nextInstance ≤ now.nextInstance
      ∧ ∀ ranking, now.rankings[id]? = some ranking →
        ranking.number ≤ engine.nextInstance →
          ∃ before, engine.rankings[id]? = some before
            ∧ before.number = ranking.number) hrun
    ⟨h, le_rfl, fun ranking hr _ => ⟨ranking, hr, rfl⟩⟩
    ?_).2.2 ranking hr ht
  rintro now op next ⟨hnow, hg, hk⟩ - rfl
  refine ⟨.perform op hnow, hg.trans (nextInstance_perform now op), ?_⟩
  intro ranking hr ht
  cases hnow.origin hr with
  | kept before hb hn =>
    rw [hn] at ht ⊢
    exact hk before hb ht
  | created identity definition hop hid hn => omega

theorem Reachable.number_unused {g after : Engine} (h : Reachable engine)
    (hf : Run Moves ok engine g) (hls : Run Moves ok g after)
    {o : String} {l : Ranking}
    (hr : engine.rankings[id]? = some ranking)
    (hg : g.rankings[id]? = none)
    (hl : after.rankings[o]? = some l) :
    l.number ≠ ranking.number := by
  intro hs
  have his := h.numbered.issued id ranking hr
  have hgr : engine.nextInstance ≤ g.nextInstance := by
    refine @Run.invariant _ _ _ _ _ _
      (fun now => engine.nextInstance ≤ now.nextInstance) hf le_rfl ?_
    rintro now op next hnow - rfl
    exact hnow.trans (nextInstance_perform now op)
  obtain ⟨middle, hm, hn⟩ := (h.run hf).number_kept hls hl (by omega)
  obtain ⟨before, hb, hnum'⟩ := h.number_kept hf hm (by omega)
  -- at one time no two rankings have one number
  have hid := h.numbered.apart id o ranking before hr hb (by omega)
  rw [hid, hg] at hm
  cases hm

end Engine

-- ==== readers

/-- What was last read of each ranking, with its token. -/
abbrev Copies (α : Type) := Table String ((Nat × Nat) × α)

/-- The engine with the rows the checkpoint pass wrote and the snapshots
the publisher sent. -/
structure Readers where
  engine : Engine
  persisted : Copies SessionCheckpoint
  published : Copies (Snapshot × Nat)

namespace Readers

inductive Act where
  | perform (op : Engine.Op)
  /-- `persist_one` of changed rankings; the write may fail. -/
  | persistOne (id : String) (saved : Bool)
  | publish (id : String)
  /-- What was persisted or published is no longer known. -/
  | forget (id : String)

/-- Read a ranking unless its token is the one it was read at. -/
def renew {α : Type} (engine : Engine) (id : String) (read : Option α)
    (copies : Copies α) : Copies α :=
  match engine.changeTokens.find? fun entry => entry.1 = id, read with
  | some entry, some data =>
    if copies[id]?.map Prod.fst = some entry.2 then copies
    else copies.insert id (entry.2, data)
  | _, _ => copies

def step (s : Readers) : Act → Readers
  | .perform op => { s with engine := s.engine.perform op }
  | .persistOne id saved =>
    if saved then
      { s with
        persisted := renew s.engine id (s.engine.sessionCheckpoint id)
          s.persisted }
    else s
  | .publish id =>
    { s with
      published := renew s.engine id
        (s.engine.snapshotUnrankedCapped id 100) s.published }
  | .forget id =>
    { s with
      persisted := s.persisted.erase id
      published := s.published.erase id }

def Comparable (_ : Readers) : Act → Prop
  | .perform op => op.restores = false
  | _ => True

/-- Every copy was read off the ranking it has the token of. -/
def Copied {α : Type} (read : Ranking → α) (engine : Engine)
    (copies : Copies α) : Prop :=
  ∀ (id : String) (token : Nat × Nat) (copy : α),
    copies[id]? = some (token, copy) → ∃ seen : Ranking,
      engine.Follows id seen ∧ seen.token = token ∧ copy = read seen

section copies

variable {α : Type} {read : Ranking → α} {engine : Engine}
  {copies : Copies α}

variable {ranking : Ranking}

theorem find_changeTokens {id : String}
    (h : engine.rankings[id]? = some ranking) :
    (engine.changeTokens.find? fun entry => entry.1 = id)
      = some (id, ranking.token) := by
  cases hf : engine.changeTokens.find? fun entry => entry.1 = id with
  | none =>
    have hnn := List.find?_eq_none.1 hf (id, ranking.token)
      (Engine.mem_changeTokens.2 ⟨ranking, h, rfl⟩)
    exact absurd (decide_eq_true rfl) hnn
  | some entry =>
    obtain ⟨name, token⟩ := entry
    have hn := List.find?_some hf
    cases of_decide_eq_true hn
    obtain ⟨other, ho, rfl⟩ :=
      Engine.mem_changeTokens.1 (List.mem_of_find?_eq_some hf)
    cases h.symm.trans ho
    rfl

theorem renew_eq {id : String} (h : engine.rankings[id]? = some ranking) :
    renew engine id (engine.rankings[id]?.map read) copies
      = if copies[id]?.map Prod.fst = some ranking.token then copies
        else copies.insert id (ranking.token, read ranking) := by
  unfold renew
  rw [find_changeTokens h, h]
  rfl

theorem renew_none {id : String} (h : engine.rankings[id]? = none) :
    renew engine id (engine.rankings[id]?.map read) copies = copies := by
  unfold renew
  rw [h, Option.map_none]
  split
  · next hn => cases hn
  · rfl

section

variable (h : Copied read engine copies)
include h

theorem Copied.perform (hr : engine.Reachable) {op : Engine.Op}
    (hop : op.restores = false) :
    Copied read (engine.perform op) copies := by
  intro id t c hc
  obtain ⟨seen, hf, ht, hrd⟩ := h id t c hc
  exact ⟨seen, hf.perform hr hop, ht, hrd⟩

theorem Copied.renew (hrc : engine.Reachable) (id : String) :
    Copied read engine
      (renew engine id (engine.rankings[id]?.map read) copies) := by
  cases hr : engine.rankings[id]? with
  | none =>
    rw [← hr, renew_none hr]
    exact h
  | some ranking =>
    rw [← hr, renew_eq hr]
    split
    · exact h
    · intro o t c hc
      rw [get_insert] at hc
      split at hc
      · next hid =>
        subst hid
        cases hc
        exact ⟨ranking, hrc.follows hr, rfl, rfl⟩
      · exact h o t c hc

theorem Copied.erase (id : String) :
    Copied read engine (copies.erase id) := by
  intro o t c hc
  rw [get_erase] at hc
  split at hc
  · cases hc
  · exact h o t c hc

/-- Once a ranking was looked at, the copy of it is current: it is what
the ranking reads now, but for the clock. -/
theorem Copied.current {id : String}
    (hr : engine.rankings[id]? = some ranking)
    (hrev : ranking.state.revision < u64Max) :
    ∃ ti, (Readers.renew engine id (engine.rankings[id]?.map read)
      copies)[id]?
        = some (ranking.token, read { ranking with lastTime := ti }) := by
  rw [renew_eq hr]
  split
  · next hs =>
    obtain ⟨⟨t, c⟩, hc, ht⟩ := Option.map_eq_some_iff.1 hs
    change t = ranking.token at ht
    obtain ⟨seen, hf, hsn, hrd⟩ := h id t c hc
    have hu := hf.unchanged hr (ht.symm.trans hsn.symm) hrev
    refine ⟨seen.lastTime, ?_⟩
    rw [hc, ht, hrd, hu]
  · exact ⟨ranking.lastTime, get_insert_self _ _ _⟩

end

end copies

/-- Both kinds of copies are true ones. -/
structure Honest (s : Readers) : Prop where
  reachable : s.engine.Reachable
  persisted : Copied Ranking.sessionCheckpoint s.engine s.persisted
  published : Copied (fun ranking => ranking.snapshotUnrankedCapped 100)
    s.engine s.published

theorem Honest.step {s : Readers} (h : s.Honest) {act : Act}
    (hc : s.Comparable act) : (s.step act).Honest := by
  cases act with
  | perform op =>
    exact ⟨.perform op h.reachable,
      h.persisted.perform h.reachable hc,
      h.published.perform h.reachable hc⟩
  | persistOne id sa =>
    cases sa with
    | false => exact h
    | true =>
      exact ⟨h.reachable, h.persisted.renew h.reachable id, h.published⟩
  | publish id =>
    exact ⟨h.reachable, h.persisted, h.published.renew h.reachable id⟩
  | forget id =>
    exact ⟨h.reachable, h.persisted.erase id, h.published.erase id⟩

end Readers

namespace Engine

/-- A ranking that has the same token at two moments has the same
snapshots, definition and checkpoint, but for the clock; the number of a
ranking that was removed names no other ranking later; and whoever looks
at a ranking only where its token changed has what the ranking reads. -/
theorem tokens_sound {engine : Engine} (hreach : Reachable engine) :
    (∀ after, Run Moves Comparable engine after →
      ∀ id number revision, revision < u64Max →
        (id, number, revision) ∈ engine.changeTokens →
        (id, number, revision) ∈ after.changeTokens →
        (∀ cap, after.snapshotUnrankedCapped id cap
          = engine.snapshotUnrankedCapped id cap)
        ∧ (∀ cap, after.snapshotCapped id cap = engine.snapshotCapped id cap)
        ∧ ∃ time, after.sessionCheckpoint id
          = (engine.sessionCheckpoint id).map fun checkpoint =>
            { checkpoint with lastTime := time })
    ∧ (∀ gone after, Run Moves (fun _ _ => True) engine gone →
      Run Moves (fun _ _ => True) gone after →
      ∀ (id : String) (ranking : Ranking),
        engine.rankings[id]? = some ranking → gone.rankings[id]? = none →
        ∀ (other : String) (later : Ranking),
          after.rankings[other]? = some later → later.number ≠ ranking.number)
    ∧ ∀ s, Run (fun s act next => Readers.step s act = next)
        Readers.Comparable ⟨engine, ∅, ∅⟩ s →
      ∀ (id : String) (ranking : Ranking),
        s.engine.rankings[id]? = some ranking →
        ranking.state.revision < u64Max →
        (∃ time, (s.step (.persistOne id true)).persisted[id]?
          = some (ranking.token,
            { ranking.sessionCheckpoint with lastTime := time }))
        ∧ (s.step (.publish id)).published[id]?
          = some (ranking.token, ranking.snapshotUnrankedCapped 100) := by
  refine ⟨?_, ?_, ?_⟩
  · intro after hrun id number revision hrev hb ha
    obtain ⟨seen, hs, hsn⟩ := mem_changeTokens.1 hb
    obtain ⟨ranking, hr, ht⟩ := mem_changeTokens.1 ha
    have hfl := (hreach.follows hs).run hreach hrun
    have hls : ranking.state.revision < u64Max := by
      rw [show ranking.state.revision = revision from (Prod.mk.inj ht).2]
      exact hrev
    have hsm := hfl.unchanged hr (ht.trans hsn.symm) hls
    refine ⟨fun cap => ?_, fun cap => ?_, ranking.lastTime, ?_⟩
    · unfold snapshotUnrankedCapped
      rw [hs, hr, hsm]
      rfl
    · unfold snapshotCapped
      rw [hs, hr, hsm]
      rfl
    · unfold sessionCheckpoint
      rw [hs, hr, hsm]
      rfl
  · intro gone after hf hl id ranking hr hg other later
    exact hreach.number_unused hf hl hr hg
  · intro s hrun id ranking hr hrev
    have hem : ∀ {α : Type} (read : Ranking → α),
        Readers.Copied read engine ∅ := by
      intro α read id token copy hcp
      rw [show (∅ : Copies α)[id]? = none from
        ExtTreeMap.getElem?_empty] at hcp
      cases hcp
    have hh : s.Honest := by
      refine @Run.invariant _ _ _ _ _ _ Readers.Honest hrun
        ⟨hreach, hem _, hem _⟩ ?_
      rintro before act next h hc rfl
      exact h.step hc
    obtain ⟨time, hp⟩ := hh.persisted.current hr hrev
    obtain ⟨_, hpb⟩ := hh.published.current hr hrev
    exact ⟨⟨time, hp⟩, hpb⟩

def likes : Definition where
  schemaVersion := 1
  id := "likes"
  creatorId := "creator"
  roomId := "room"
  sources := [⟨"tiktok.like", "like.count", 1, true, []⟩]
  limit := 10
  capacity := 10

def fiveLikes : Contribution where
  creatorId := "creator"
  roomId := "room"
  source := "tiktok.like"
  user := some "u1"
  gift := none
  option := none
  team := none
  customKey := none
  metrics := [("like.count", 5)]

/-- Likes are counted and time passes: the token stays, and so does the
snapshot. -/
theorem likes_unchanged :
    let counted := (empty.perform (.create (some (.replicate 16 0))
      likes)).perform (.apply fiveLikes 1000 none none)
    let later := counted.perform (.expireAt 5000)
    counted.changeTokens = [("likes", 1, 1)]
      ∧ ∀ cap, later.snapshotCapped "likes" cap
        = counted.snapshotCapped "likes" cap := by
  intro counted later
  have hr : Reachable counted := .perform _ (.perform _ .empty)
  have hrun : Run Moves Comparable counted later :=
    .tail (.expireAt 5000) .refl rfl rfl
  have hc : counted.changeTokens = [("likes", 1, 1)] := by
    decide +kernel
  have hl : later.changeTokens = [("likes", 1, 1)] := by
    decide +kernel
  have hin : ("likes", 1, 1) ∈ [("likes", 1, 1)] := List.mem_singleton_self _
  have hrev : 1 < u64Max := by decide
  have h := (tokens_sound hr).1 later hrun "likes" 1 1 hrev
    (hc ▸ hin) (hl ▸ hin)
  exact ⟨hc, h.2.1⟩

end Engine

end TikTools.Aggregation
