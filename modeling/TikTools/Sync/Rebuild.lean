/-
Pulls and rebuilds on the caller's state.

Both are given the state to change. Records are taken over in a copy,
which is left half changed where a page fails; the caller's state is
replaced by the copy at the very end, so an error leaves it as it was
(`settled`). A rebuild compares every waiting edit with the listed
records when it carries the edit over, and each newer record once more:
an edit is in conflict when its base is not the listed revision or not
the one the rebuild ends with.
-/
import TikTools.Sync.Edits

namespace TikTools.Sync

open TikTools.Lib Option SyncState

variable (semver : String → Bool) (session : Identity)

-- ==== on the caller's state

/-- Take over the records of a change page in place, up to the first
that is refused. -/
def applyEach (limit : Int) : SyncState → Int → List Record →
    SyncState × Except SyncError Int
  | candidate, last, [] => (candidate, .ok last)
  | candidate, last, record :: rest =>
    if record.revision ≤ last ∨ limit < record.revision then
      (candidate, .error .protocol)
    else match candidate.apply semver record with
      | .error e => (candidate, .error e)
      | .ok candidate => applyEach limit candidate record.revision rest

def pullPageInto (state : SyncState) (replies : List Reply) :
    SyncState × Exchange Bool :=
  if state.identity ≠ session then (state, .error .wrongAccount, replies, [])
  else
    let (reply, rest) := ask replies
    match reply with
    | .changes records cursor hasMore =>
      if cursor < state.cursor ∨ (hasMore ∧ cursor = state.cursor) then
        (state, .error .protocol, rest, [])
      else match applyEach semver cursor state state.cursor records with
        | (_, .error e) => (state, .error e, rest, [])
        | (candidate, .ok last) =>
          if last ≠ cursor then (state, .error .protocol, rest, [])
          else ({ candidate with cursor }, .ok hasMore, rest,
            heardRecords records)
    | reply => (state, .error (decodeError reply), rest, [])

/-- Pull into the copy until the server reports no more changes. -/
def pullAllInto : Nat → SyncState → List Reply → SyncState × Exchange Unit
  | 0, candidate, replies => (candidate, .error .tooManyPages, replies, [])
  | fuel + 1, candidate, replies =>
    match pullPageInto semver session candidate replies with
    | (candidate, .error e, rest, _) => (candidate, .error e, rest, [])
    | (candidate, .ok false, rest, heard) => (candidate, .ok (), rest, heard)
    | (candidate, .ok true, rest, heard) =>
      let (candidate, result, rest, heard') := pullAllInto fuel candidate rest
      (candidate, result, rest, heard ++ heard')

def rebuildInto (state : SyncState) (replies : List Reply) :
    SyncState × Exchange Unit :=
  if state.identity ≠ session then (state, .error .wrongAccount, replies, [])
  else
    let (reply, rest) := ask replies
    match reply with
    | .head cursor =>
      if cursor < 0 then (state, .error .protocol, rest, [])
      else
        let empty :=
          { SyncState.new state.origin state.accountId with cursor }
        match listPages semver maxPages empty none rest with
        | (.error e, rest, _) => (state, .error e, rest, [])
        | (.ok candidate, rest, heard) =>
          match pullAllInto semver session maxPages
            (carryEdits state candidate) rest with
          | (_, .error e, rest, heard') =>
            (state, .error e, rest, .forgot :: heard ++ heard')
          | (candidate, .ok (), rest, heard') =>
            (candidate, .ok (), rest, .forgot :: heard ++ heard')
    | reply => (state, .error (decodeError reply), rest, [])

-- ==== what is left of it

/-- The caller's state is replaced by a result, and left by an error. -/
def settled {α : Type} (state : SyncState) :
    Exchange (SyncState × α) → SyncState × Exchange α
  | (.ok (state', a), rest) => (state', .ok a, rest)
  | (.error e, rest) => (state, .error e, rest)

variable {semver session} {state state' : SyncState}

theorem applyEach_eq {l : Int} {r : List Record} :
    ∀ {c : SyncState} {la : Int},
      match applyChanges semver l c la r with
      | .ok (a, l') =>
        applyEach semver l c la r = (a, .ok l')
      | .error e =>
        (applyEach semver l c la r).2 = .error e := by
  induction r with
  | nil =>
    intro c la
    rfl
  | cons re rest ih =>
    intro c la
    unfold applyChanges applyEach ensure
    by_cases hr : la < re.revision ∧ re.revision ≤ l
    · rw [if_pos hr, if_neg (by omega), ok_bind]
      cases c.apply semver re with
      | error e => rfl
      | ok a => exact ih
    · rw [if_neg hr, if_pos (by omega)]
      rfl

theorem pullPageInto_eq (state : SyncState) (re : List Reply) :
    pullPageInto semver session state re
      = settled state (pullPage semver session state re) := by
  unfold pullPageInto pullPage
  split
  case isTrue => rfl
  case isFalse =>
    rcases ask re with ⟨rp, rest⟩
    cases rp with
    | changes r c hasMore =>
      dsimp only
      have hp := @applyEach_eq semver c r state state.cursor
      unfold applyPage ensure
      split
      case isTrue hrn =>
        rw [if_neg fun h => hrn.elim (Int.not_lt.2 h.1) h.2]
        rfl
      case isFalse hrn =>
        rw [if_pos ⟨Int.not_lt.1 fun h => hrn (.inl h),
          fun h => hrn (.inr h)⟩, ok_bind]
        cases ha : applyChanges semver c state state.cursor r with
        | error e =>
          rw [ha] at hp
          rcases hr : applyEach semver c state state.cursor r
            with ⟨copy, result⟩
          rw [hr] at hp
          cases hp
          rfl
        | ok applied =>
          rw [ha] at hp
          rw [hp, ok_bind]
          dsimp only
          split
          case isTrue => rfl
          case isFalse hl =>
            rw [if_pos (not_not.1 hl)]
            rfl
    | _ => rfl

/-- A pull in place leaves the copy of the pull, and some copy where
the pull fails. -/
theorem pullAllInto_eq {f : Nat} :
    ∀ {c : SyncState} {r : List Reply},
      match pullAll semver session f c r with
      | (.ok a, m) =>
        pullAllInto semver session f c r = (a, .ok (), m)
      | (.error e, m) =>
        (pullAllInto semver session f c r).2 = (.error e, m) := by
  induction f with
  | zero =>
    intro c r
    rfl
  | succ f ih =>
    intro c r
    unfold pullAll pullAllInto
    rw [pullPageInto_eq]
    rcases pullPage semver session c r
      with ⟨_ | ⟨a, _ | _⟩, re, heard⟩
    · rfl
    · rfl
    · have hr := @ih a re
      dsimp only [settled]
      generalize pullAllInto semver session f a re = copied at hr ⊢
      generalize pullAll semver session f a re = pulled at hr ⊢
      rcases copied with ⟨copy, result⟩
      rcases pulled with ⟨_ | _, rest', he'⟩
      · cases hr
        rfl
      · cases hr
        rfl

theorem rebuildInto_eq (state : SyncState) (r : List Reply) :
    rebuildInto semver session state r
      = settled state ((rebuild semver session state r).map
          (Except.map fun state' => (state', ())) id) := by
  unfold rebuildInto rebuild
  split
  case isTrue => rfl
  case isFalse =>
    rcases ask r with ⟨re, rs⟩
    cases re with
    | head cursor =>
      dsimp only
      split
      case isTrue => rfl
      case isFalse =>
        rcases listPages semver maxPages _ none rs
          with ⟨_ | c, r', heard⟩
        · rfl
        · have hp := @pullAllInto_eq semver session maxPages
            (carryEdits state c) r'
          dsimp only
          generalize pullAllInto semver session maxPages _ r' = copied at hp ⊢
          generalize pullAll semver session maxPages _ r' = pulled at hp ⊢
          rcases copied with ⟨copy, result⟩
          rcases pulled with ⟨_ | _, more⟩
          · cases hp
            rfl
          · cases hp
            rfl
    | _ => rfl

-- ==== conflicts

/-- An edit put into conflict is behind the record known. -/
def Entry.Outrun (entry : Entry) : Prop :=
  ∀ pending, entry.pending = some pending → pending.conflict = true →
    ∃ record, entry.remote = some record
      ∧ ∀ base, pending.baseRevision = some base → base < record.revision

variable {pending : Pending} {entry : Entry}

theorem Entry.Outrun.ne (h : entry.Outrun)
    (hp : entry.pending = some pending)
    (hc : pending.conflict = true) :
    pending.baseRevision ≠ entry.remote.map Record.revision := by
  obtain ⟨record, hr, hb⟩ := h pending hp hc
  rw [hr]
  exact fun heq => Int.lt_irrefl _ (hb _ heq)

theorem Entry.Outrun.take (h : entry.Outrun) (hbs : entry.Based)
    {r : Record} (hn : ∀ old, entry.remote = some old →
      old.revision < r.revision) : (entry.take r).Outrun := by
  intro pending hp hcn
  obtain ⟨old, ho, rfl⟩ := map_eq_some_iff.1 hp
  refine ⟨r, rfl, fun base hba => ?_⟩
  have hb' : old.baseRevision = some base := by
    revert hba
    split <;> exact id
  cases hc : old.conflict with
  | true =>
    obtain ⟨k, hk, hb⟩ := h old ho hc
    exact (hb base hb').trans (hn k hk)
  | false =>
    have hrev := hbs old ho hc
    rw [hb', eq_comm, map_eq_some_iff] at hrev
    obtain ⟨k, hk, rfl⟩ := hrev
    exact hn k hk

/-- An edit before and after: the same but for the conflict flag, which
is never cleared. -/
structure Pending.Flagged (pending pending' : Pending) : Prop where
  edit : pending'.edit = pending.edit
  base : pending'.baseRevision = pending.baseRevision
  kept : pending.conflict = true → pending'.conflict = true

theorem Entry.flagged_take (h : entry.pending = some pending)
    (record : Record) :
    ∃ pending', (entry.take record).pending = some pending'
      ∧ pending.Flagged pending' := by
  rw [Entry.take, h]
  refine ⟨_, rfl, ?_⟩
  dsimp only
  split
  · exact ⟨rfl, rfl, id⟩
  · exact ⟨rfl, rfl, fun _ => rfl⟩

namespace Takes

variable {heard : List Heard}

variable {key : String} {pending : Pending}

section

variable (h : Takes semver state heard state')
include h

theorem flagged (hp : (state.entry key).pending = some pending) :
    ∃ pending', (state'.entry key).pending = some pending'
      ∧ pending.Flagged pending' := by
  induction h generalizing pending with
  | refl => exact ⟨pending, hp, rfl, rfl, id⟩
  | cursor _ _ ih => exact ih hp
  | @apply state mid _ record _ ha _ ih =>
    have hmid : ∃ pending', (mid.entry key).pending = some pending'
        ∧ pending.Flagged pending' := by
      obtain ⟨-, ⟨rfl, -⟩ | ⟨rfl, -⟩⟩ := apply_cases ha
      · exact ⟨pending, hp, rfl, rfl, id⟩
      · rw [entry_setEntry]
        split
        case isTrue e => exact Entry.flagged_take (e ▸ hp) record
        case isFalse => exact ⟨pending, hp, rfl, rfl, id⟩
    obtain ⟨middle, hmd, hf⟩ := hmid
    obtain ⟨last, hl, hr⟩ := ih hmd
    exact ⟨last, hl, hr.edit.trans hf.edit,
      hr.base.trans hf.base, fun hc => hr.kept (hf.kept hc)⟩

theorem outrun
    (hc : state.Checked semver) (ho : (state.entry key).Outrun) :
    (state'.entry key).Outrun := by
  induction h with
  | refl => exact ho
  | cursor hle _ ih =>
    exact ih (hc.setCursor (hc.cursor.trans hle)) ho
  | @apply state mid _ r _ ha _ ih =>
    refine ih (hc.apply ha) ?_
    obtain ⟨-, ⟨rfl, -⟩ | ⟨rfl, hn⟩⟩ := apply_cases ha
    · exact ho
    · rw [entry_setEntry]
      split
      case isTrue e =>
        subst e
        exact ho.take (hc.entries r.key).based hn
      case isFalse => exact ho

/-- A run of records puts an edit into conflict exactly where the last
record known is not the one it was made on. -/
theorem conflict_iff (hch : state.Checked semver) {p' : Pending}
    (hp : (state.entry key).pending = some pending)
    (hp' : (state'.entry key).pending = some p')
    (hf : pending.Flagged p') :
    p'.conflict = true ↔ pending.conflict = true
      ∨ pending.baseRevision
        ≠ (state'.entry key).remote.map Record.revision := by
  constructor
  · intro hcn
    refine or_iff_not_imp_left.2 fun hcl => ?_
    have hout : (state.entry key).Outrun := by
      intro other ho hc
      rw [hp] at ho
      cases ho
      exact absurd hc hcl
    rw [← hf.base]
    exact (h.outrun hch hout).ne hp' hcn
  · rintro (hcn | hmv)
    · exact hf.kept hcn
    · by_contra hcl
      refine hmv (hf.base.symm.trans ?_)
      exact ((h.checked hch).entries key).based p' hp'
        (Bool.eq_false_iff.2 hcl)

end

end Takes

/-- An edit carried over a rebuild, against the listed records and the
last ones. -/
def SyncState.Carried (state listed state' : SyncState) (key : String) :
    Prop :=
  match (state.entry key).pending with
  | none => (state'.entry key).pending = none
  | some pending => ∃ pending', (state'.entry key).pending = some pending'
      ∧ pending'.edit = pending.edit
      ∧ pending'.baseRevision = pending.baseRevision
      ∧ (pending'.conflict = true ↔ pending.conflict = true
        ∨ pending.baseRevision ≠ (listed.entry key).remote.map Record.revision
        ∨ pending.baseRevision
          ≠ (state'.entry key).remote.map Record.revision)

theorem rebuild_carried {r rest : List Reply} {heard : List Heard}
    (h : rebuild semver session state r
      = (.ok state', rest, heard)) (hch : state.Checked semver) :
    ∃ cursor l listed more news,
      ask r = (.head cursor, l)
        ∧ listPages semver maxPages
            { SyncState.new state.origin state.accountId with cursor } none
            l = (.ok listed, more, news)
        ∧ ∀ key, state.Carried listed state' key := by
  have ht := rebuild_tracks h
  have hu := rebuild_unacked h
  obtain ⟨cursor, l, listed, more, news, pulled, hask, hcr, hl,
    hpl, -⟩ := rebuild_cases h
  refine ⟨cursor, l, listed, more, news, hask, hl, fun key => ?_⟩
  have hc : (carryEdits state listed).Checked semver :=
    hch.carryEdits ((listPages_takes hl).checked
      ((SyncState.Checked.new _ _).setCursor hcr))
  unfold SyncState.Carried
  cases hp : (state.entry key).pending with
  | none =>
    have hg := ht.pendingEdit key
    rw [if_neg (hu key)] at hg
    unfold SyncState.pendingEdit at hg
    rwa [hp, map_none, map_eq_none_iff] at hg
  | some pending =>
    have hen := carryEdits_entry state listed key
    rw [hp] at hen
    have hmid := congrArg Entry.pending hen
    dsimp only [Entry.carry] at hmid
    obtain ⟨pending', hp', hf⟩ := hpl.flagged hmid
    have hiff := hpl.conflict_iff hc hmid hp' hf
    refine ⟨pending', hp', ?_, ?_, ?_⟩
    · rw [hf.edit]
      split <;> rfl
    · rw [hf.base]
      split <;> rfl
    · rw [hiff]
      by_cases hb : pending.baseRevision
          = (listed.entry key).remote.map Record.revision
      · rw [if_pos hb]
        simp [hb]
      · rw [if_neg hb]
        simp [hb]

-- ==== the law

variable {validOrigin : String → Bool}

theorem SyncState.Checked.validState (h : state.Checked semver)
    (ho : validOrigin state.origin = true) (hnm : state.accountId ≠ "")
    (hl : state.accountId.utf8ByteSize ≤ 256) :
    validState semver validOrigin state = true := by
  have hes : ∀ p ∈ state.entries.toList,
      validEntry semver p.1 p.2 = true := by
    rintro ⟨key, entry⟩ hp
    have hget := Table.mem_toList.1 hp
    have hkey : validKey key = true := by
      by_contra hkey
      rw [h.keys key (Bool.eq_false_iff.2 hkey)] at hget
      cases hget
    have hen := h.entries key
    rw [SyncState.entry, hget, getD_some] at hen
    unfold validEntry
    rw [hkey, Bool.true_and, Bool.and_eq_true]
    constructor
    · cases hr : entry.remote with
      | none => rfl
      | some r =>
        obtain ⟨hn, hv⟩ := hen.remote r hr
        simp [hn, hv]
    · cases hp : entry.pending with
      | none => rfl
      | some pending =>
        have hba : (pending.baseRevision.all fun base =>
            decide (0 < base)) = true := by
          cases hb : pending.baseRevision with
          | none => rfl
          | some base => simpa using hen.base pending hp base hb
        have hbs : (pending.conflict
            || pending.baseRevision == entry.remote.map Record.revision)
            = true := by
          cases hc : pending.conflict with
          | true => rfl
          | false => simpa using hen.based pending hp hc
        rw [all_some, validPending, hba, hbs, hen.edit pending hp]
        rfl
  unfold Sync.validState
  simp [ho, hnm, hl, h.cursor, List.all_eq_true.2 hes]

theorem perform_identity (op : EditOp) :
    (state.perform semver op).identity = state.identity := by
  have hc := @perform_cases semver state op
  generalize state.perform semver op = after at hc ⊢
  cases hc with
  | kept => rfl
  | staged hs =>
    obtain ⟨ho, ha, -⟩ := stage_eq_ok hs
    rw [SyncState.identity, ho, ha]
    rfl
  | rebased hr =>
    obtain ⟨ho, ha, -⟩ := rebase_eq_ok hr
    rw [SyncState.identity, ho, ha]
    rfl
  | discarded hd =>
    obtain ⟨ho, ha, -⟩ := discard_eq_ok hd
    rw [SyncState.identity, ho, ha]
    rfl
  | pulled ht => exact ht.tracks.identity
  | pushed hp => cases hp <;> subst_vars <;> rfl
  | rebuilt hr => exact (rebuild_tracks hr).identity

theorem run_identity (ops : List EditOp) :
    (ops.foldl (SyncState.perform semver) state).identity
      = state.identity := by
  induction ops generalizing state with
  | nil => rfl
  | cons op rest ih => exact ih.trans (perform_identity op)

/-- The state a run of the client leaves, on an account a session can
be connected to. -/
theorem run_valid {o ai : String}
    (ho : validOrigin o = true) (hn : ai ≠ "")
    (hl : ai.utf8ByteSize ≤ 256) (ops : List EditOp) :
    validState semver validOrigin (ops.foldl (SyncState.perform semver)
      (SyncState.new o ai)) = true := by
  have hid := @run_identity semver (SyncState.new o ai) ops
  have hc := checked_run ops (@SyncState.Checked.new semver o ai)
  generalize ops.foldl _ _ = state at hid hc ⊢
  obtain ⟨rfl, rfl⟩ := Identity.mk.inj hid
  exact hc.validState ho hn hl

theorem settled_error {α : Type} {ex : Exchange (SyncState × α)}
    {e : SyncError} {m : List Reply × List Heard}
    (h : settled state ex = (state', .error e, m)) :
    state' = state := by
  rcases ex with ⟨_ | _, _⟩ <;> cases h
  rfl

/-- Whatever a client did before and whatever the server answers: a pull
or a rebuild that fails leaves the state as it was, a rebuild that
succeeds carries every edit over and flags the outdated ones, and both
leave a state the store accepts. -/
theorem rebuild_law (semver validOrigin : String → Bool)
    (origin accountId : String) (horigin : validOrigin origin = true)
    (hname : accountId ≠ "") (hlength : accountId.utf8ByteSize ≤ 256)
    (ops : List EditOp) (session : Identity) (replies : List Reply) :
    let state := ops.foldl (SyncState.perform semver)
      (SyncState.new origin accountId)
    (∀ state' e more, pullPageInto semver session state replies
        = (state', .error e, more) → state' = state)
      ∧ (∀ state' e more, rebuildInto semver session state replies
        = (state', .error e, more) → state' = state)
      ∧ (∀ state' more, rebuildInto semver session state replies
          = (state', .ok (), more) →
        ∃ cursor listing listed rest news,
          ask replies = (.head cursor, listing)
            ∧ listPages semver maxPages
                { SyncState.new state.origin state.accountId with cursor }
                none listing = (.ok listed, rest, news)
            ∧ ∀ key, state.Carried listed state' key)
      ∧ validState semver validOrigin
          (pullPageInto semver session state replies).1 = true
      ∧ validState semver validOrigin
          (rebuildInto semver session state replies).1 = true := by
  intro state
  have hc : state.Checked semver := checked_run ops (.new _ _)
  have hv := fun op => @run_valid semver _ _ _ horigin hname hlength
    (ops ++ [op])
  simp only [List.foldl_append, List.foldl_cons, List.foldl_nil] at hv
  rw [pullPageInto_eq, rebuildInto_eq]
  refine ⟨fun _ _ _ => settled_error, fun _ _ _ => settled_error, ?_, ?_, ?_⟩
  · intro state' more h
    rcases hr : rebuild semver session state replies
      with ⟨_ | after, rest, heard⟩
    · rw [hr] at h
      cases h
    · rw [hr] at h
      cases h
      exact rebuild_carried hr hc
  · have hpl := hv (.pullPage session replies)
    change validState semver validOrigin (orKeep state _) = true at hpl
    rcases hp : pullPage semver session state replies with ⟨_ | _, _⟩
    all_goals
      rw [hp] at hpl
      exact hpl
  · have hrb := hv (.rebuild session replies)
    change validState semver validOrigin (orKeep state _) = true at hrb
    rcases hr : rebuild semver session state replies with ⟨_ | _, _⟩
    all_goals
      rw [hr] at hrb
      exact hrb

/-- A record known from a pull and deleted here. -/
def removal : List EditOp :=
  [.pullPage ⟨"https://cloud", "ann"⟩
      [.changes [⟨collection, "acme.tts", 7, true, none⟩] 7 false],
    .stage "acme.tts" .delete]

theorem rebuild_law_removal :
    validState (fun _ => true) (· == "https://cloud")
      (rebuildInto (fun _ => true) ⟨"https://cloud", "ann"⟩
        (removal.foldl (SyncState.perform fun _ => true)
          (SyncState.new "https://cloud" "ann"))
        [.head 9, .listing [] none, .changes [] 9 false]).1 = true :=
  (rebuild_law (fun _ => true) (· == "https://cloud") "https://cloud" "ann"
    (by decide) (by decide) (by decide) removal _ _).2.2.2.2

/-- The snapshot is from before the record: the edit is in conflict,
though the rebuild ends with the very record it was made on. -/
theorem rebuild_flags_unmoved :
    ¬ ∀ (semver validOrigin : String → Bool) (origin accountId : String),
      validOrigin origin = true → accountId ≠ "" →
      accountId.utf8ByteSize ≤ 256 →
      ∀ (ops : List EditOp) session replies state' more,
        let state := ops.foldl (SyncState.perform semver)
          (SyncState.new origin accountId)
        rebuildInto semver session state replies = (state', .ok (), more) →
        ∀ key pending, (state.entry key).pending = some pending →
        ∃ pending', (state'.entry key).pending = some pending'
          ∧ (pending'.conflict = true ↔ pending.conflict = true
            ∨ pending.baseRevision
              ≠ (state'.entry key).remote.map Record.revision) := by
  intro h
  have ha := h (fun _ => true) (fun _ => true) "https://cloud" "ann" rfl
    (by decide) (by decide) removal ⟨"https://cloud", "ann"⟩
    [.head 5, .listing [] none,
      .changes [⟨collection, "acme.tts", 7, true, none⟩] 7 false]
    _ _ rfl "acme.tts" ⟨some 7, .delete, false⟩ (by decide +kernel)
  revert ha
  decide +kernel

end TikTools.Sync
