/-
What becomes of an edit over a run of the sync engine.

An edit that is not in conflict was made on the remote record the client
still has (`SyncState.Based`): a newer record puts it into conflict, and
so does a rebuild that lists another one. A push therefore names, in its
`If-Match`, the revision last seen. The engine takes an edit away only
for an answer that carries the very value pushed, and a pulled or pushed
record is never older than the one it replaces (`Advances`).
-/
import TikTools.Lib.Runs
import TikTools.Sync.Store

namespace TikTools.Sync

open TikTools.Lib Option Bool

variable {semver : String → Bool} {session : Identity}

-- ==== requests

/-- What a push asks of the server: to write under a key if its record
has still this revision, or if there is none (`If-None-Match: *`). -/
structure PushRequest where
  key : String
  edit : Edit
  ifMatch : Option Int
  deriving DecidableEq, Repr

namespace SyncState

/-- The request a push sends, if it sends one. -/
def pushRequest (session : Identity) (state : SyncState) (key : String) :
    Option PushRequest :=
  if state.identity ≠ session ∨ validKey key = false then none
  else match (state.entry key).pending with
    | none => none
    | some pending =>
      if pending.conflict
          ∨ pending.baseRevision = none ∧ pending.edit = .delete then none
      else some ⟨key, pending.edit, pending.baseRevision⟩

end SyncState

-- ==== bases of edits

/-- An edit that is not in conflict was made on the record known. -/
def Entry.Based (entry : Entry) : Prop :=
  ∀ pending, entry.pending = some pending → pending.conflict = false →
    pending.baseRevision = entry.remote.map Record.revision

def SyncState.Based (state : SyncState) : Prop :=
  ∀ key, (state.entry key).Based

-- ==== what the store checks

/-- What the store demands of an entry under its key. -/
structure Entry.Checked (semver : String → Bool) (key : String)
    (entry : Entry) : Prop where
  remote : ∀ record, entry.remote = some record →
    record.key = key ∧ validateRecord semver record = .ok ()
  base : ∀ pending, entry.pending = some pending →
    ∀ revision, pending.baseRevision = some revision → 0 < revision
  based : entry.Based
  edit : ∀ pending, entry.pending = some pending →
    validEdit semver key pending.edit

/-- What the store demands of a state, apart from whose it is. -/
structure SyncState.Checked (semver : String → Bool) (state : SyncState) :
    Prop where
  cursor : 0 ≤ state.cursor
  keys : ∀ key, validKey key = false → state.entries[key]? = none
  entries : ∀ key, (state.entry key).Checked semver key

variable {key : String} {entry : Entry}

variable {record : Record}

namespace Entry.Checked

section

variable (h : entry.Checked semver key)
include h

theorem revision {revision : Int}
    (hrev : entry.remote.map Record.revision = some revision) :
    0 < revision := by
  obtain ⟨record, hrec, rfl⟩ := map_eq_some_iff.1 hrev
  exact (ensure_eq_ok.1 (h.remote record hrec).2).2.2.1

omit h in
theorem none {remote : Option Record}
    (h : ∀ record, remote = some record →
      record.key = key ∧ validateRecord semver record = .ok ()) :
    Entry.Checked semver key { remote } :=
  ⟨h, nofun, nofun, nofun⟩

theorem edited {p : Pending}
    (hbs : ∀ r, p.baseRevision = some r → 0 < r)
    (hb : p.conflict = false →
      p.baseRevision = entry.remote.map Record.revision)
    (hed : validEdit semver key p.edit) :
    Entry.Checked semver key { entry with pending := some p } where
  remote := h.remote
  base := by
    rintro _ ⟨⟩
    exact hbs
  based := by
    rintro _ ⟨⟩
    exact hb
  edit := by
    rintro _ ⟨⟩
    exact hed

theorem carry {old : Entry}
    (hold : old.Checked semver key) :
    (entry.carry old.pending).Checked semver key := by
  cases hp : old.pending with
  | none => exact h
  | some p =>
    unfold Entry.carry
    dsimp only
    split
    case isTrue hb =>
      exact h.edited (hold.base p hp) (fun _ => hb) (hold.edit p hp)
    case isFalse =>
      exact h.edited (hold.base p hp) nofun (hold.edit p hp)

theorem take (hkey : record.key = key)
    (hv : validateRecord semver record = .ok ()) :
    (entry.take record).Checked semver key := by
  have hr : Entry.Checked semver key { remote := some record } :=
    .none (by rintro _ ⟨⟩; exact ⟨hkey, hv⟩)
  cases hp : entry.pending with
  | none =>
    rw [Entry.take, hp]
    exact hr
  | some p =>
    rw [Entry.take, hp, map_some]
    split
    case isTrue hb =>
      exact hr.edited (h.base p hp) (fun _ => hb) (h.edit p hp)
    case isFalse =>
      exact hr.edited (h.base p hp) (by rintro ⟨⟩) (h.edit p hp)

end

end Entry.Checked

namespace SyncState

variable {state state' : SyncState}

namespace Checked

theorem new (origin ai : String) :
    (new origin ai).Checked semver where
  cursor := le_rfl
  keys _ _ := rfl
  entries key := by
    exact .none nofun

section

variable (h : state.Checked semver)
include h

theorem setCursor {cursor : Int}
    (hc : 0 ≤ cursor) : Checked semver { state with cursor } :=
  ⟨hc, h.keys, h.entries⟩

theorem validKey_of_pending
    (hp : (state.entry key).pending ≠ none) : validKey key := by
  by_contra hkey
  rw [SyncState.entry, h.keys key (eq_false_iff.2 hkey)] at hp
  exact hp rfl

theorem setEntry (hkey : validKey key)
    (hen : entry.Checked semver key) :
    (state.setEntry key entry).Checked semver where
  cursor := h.cursor
  keys k hk := by
    unfold SyncState.setEntry
    rw [Table.get_insert, if_neg (by rintro rfl; simp [hkey] at hk)]
    exact h.keys k hk
  entries k := by
    rw [entry_setEntry]
    split
    case isTrue e => exact e ▸ hen
    case isFalse => exact h.entries k

theorem markConflict (hpn : (state.entry key).pending ≠ none) :
    (state.setEntry key
      (SyncState.markConflict (state.entry key))).Checked semver := by
  refine h.setEntry (h.validKey_of_pending hpn) ?_
  obtain ⟨p, hp⟩ := ne_none_iff_exists'.1 hpn
  rw [SyncState.markConflict, hp]
  exact (h.entries key).edited ((h.entries key).base p hp)
    (by rintro ⟨⟩)
    ((h.entries key).edit p hp)

theorem stage {edit : Edit}
    (hs : state.stage semver key edit = .ok state') :
    state'.Checked semver := by
  obtain ⟨hv, hs⟩ := ensure_ok.1 hs
  cases hs
  have hen := h.entries key
  refine h.setEntry hv.1 ?_
  cases hold : (state.entry key).pending with
  | none =>
    exact hen.edited (fun _ => hen.revision) (fun _ => rfl) hv.2
  | some old =>
    exact hen.edited (hen.base old hold) (hen.based old hold) hv.2

theorem rebase
    (hr : state.rebase key = .ok state') : state'.Checked semver := by
  obtain ⟨pending, hp, hr⟩ := okOr_ok.1 hr
  cases hr
  have hen := h.entries key
  exact h.setEntry (h.validKey_of_pending (by simp [hp]))
    (hen.edited (fun _ => hen.revision) (fun _ => rfl) (hen.edit pending hp))

theorem discard
    (hd : state.discard key = .ok state') : state'.Checked semver := by
  obtain ⟨hp, hd⟩ := ensure_ok.1 hd
  cases hd
  exact h.setEntry (h.validKey_of_pending hp) (.none (h.entries key).remote)

theorem apply (ha : state.apply semver record = .ok state') :
    state'.Checked semver := by
  obtain ⟨hv, ⟨rfl, -⟩ | ⟨rfl, -⟩⟩ := apply_cases ha
  · exact h
  · exact h.setEntry (ensure_eq_ok.1 hv).2.1
      ((h.entries record.key).take rfl hv)

end

theorem carryEdits {c : SyncState} (h : state.Checked semver)
    (hc : c.Checked semver) :
    (carryEdits state c).Checked semver := by
  have hl : ∀ p ∈ state.entries.toList, state.entry p.1 = p.2 := by
    intro p hp
    rw [SyncState.entry, Table.mem_toList.1 hp]
    rfl
  unfold Sync.carryEdits
  generalize state.entries.toList = l at hl
  induction l generalizing c with
  | nil => exact hc
  | cons p l ih =>
    refine ih ?_ fun q hq => hl q (List.mem_cons_of_mem _ hq)
    have hp := hl p List.mem_cons_self
    unfold carryEdit
    split
    case h_1 => exact hc
    case h_2 pending hpn =>
      rw [← hp] at hpn
      have hcr := (hc.entries p.1).carry (h.entries p.1)
      rw [hpn] at hcr
      exact hc.setEntry (h.validKey_of_pending (by simp [hpn])) hcr

end Checked

end SyncState

-- ==== revisions

/-- Every record known is still known, or a newer one of its key. -/
def SyncState.Advances (state state' : SyncState) : Prop :=
  ∀ key record, (state.entry key).remote = some record →
    ∃ record', (state'.entry key).remote = some record'
      ∧ record.revision ≤ record'.revision

namespace SyncState

variable {state state' state'' : SyncState} {key : String}

theorem Advances.refl (state : SyncState) : state.Advances state :=
  fun _ record h => ⟨record, h, le_rfl⟩

theorem Advances.trans (h : state.Advances state')
    (h' : state'.Advances state'') : state.Advances state'' := by
  intro key record hr
  obtain ⟨m, hm, hle⟩ := h key record hr
  obtain ⟨l, hl, hle'⟩ := h' key m hm
  exact ⟨l, hl, hle.trans hle'⟩

theorem Advances.setEntry {entry : Entry}
    (h : ∀ record, (state.entry key).remote = some record →
      ∃ r', entry.remote = some r' ∧ record.revision ≤ r'.revision) :
    state.Advances (state.setEntry key entry) := by
  intro k record hr
  rw [entry_setEntry]
  split
  · next hk => exact h record (hk ▸ hr)
  · exact ⟨record, hr, le_rfl⟩

theorem Advances.apply (h : state.apply semver record = .ok state') :
    state.Advances state' := by
  obtain ⟨-, ⟨rfl, -⟩ | ⟨rfl, hn⟩⟩ := apply_cases h
  · exact .refl _
  · exact .setEntry fun old ho =>
      ⟨record, rfl, (hn old ho).le⟩

end SyncState

-- ==== exchanges

open SyncState

variable {state state' : SyncState} {replies : List Reply}

variable {heard : List Heard}

theorem Takes.checked (h : Takes semver state heard state')
    (hs : state.Checked semver) : state'.Checked semver := by
  induction h with
  | refl => exact hs
  | apply ha _ ih => exact ih (hs.apply ha)
  | cursor hle _ ih => exact ih (hs.setCursor (hs.cursor.trans hle))

theorem Takes.advances (h : Takes semver state heard state') :
    state.Advances state' := by
  induction h with
  | refl state => exact .refl state
  | apply ha _ ih => exact (Advances.apply ha).trans ih
  | cursor _ _ ih => exact ih

theorem rebuild_checked {rest : List Reply}
    (h : rebuild semver session state replies
      = (.ok state', rest, heard)) (hs : state.Checked semver) :
    state'.Checked semver := by
  obtain ⟨cursor, _, candidate, _, _, _, -, hc, hl, hp, -⟩ := rebuild_cases h
  refine hp.checked (hs.carryEdits ((listPages_takes hl).checked ?_))
  exact (Checked.new state.origin state.accountId).setCursor hc

-- ==== answers

/-- The record is an answer for exactly this key and value. -/
def Acknowledges (key : String) (edit : Edit) (record : Record) : Prop :=
  record.key = key ∧ match edit with
    | .put value => record.value = some value ∧ record.deleted = false
    | .delete => record.value = none ∧ record.deleted = true

theorem acknowledges_of_confirms {key : String} {p : Pending}
    (h : confirms key p record = true) :
    Acknowledges key p.edit record := by
  unfold confirms at h
  rw [and_eq_true, and_eq_true, beq_iff_eq] at h
  obtain ⟨⟨hk, -⟩, hv⟩ := h
  refine ⟨hk, ?_⟩
  cases hed : p.edit with
  | put value =>
    rw [hed, and_eq_true, beq_iff_eq] at hv
    exact ⟨hv.1, by simpa using hv.2⟩
  | delete =>
    rw [hed, and_eq_true] at hv
    exact ⟨isNone_iff_eq_none.1 hv.2, hv.1⟩

/-- What a push may do to the state. -/
inductive Pushed (semver : String → Bool) (state : SyncState)
    (key : String) (replies : List Reply) (state' : SyncState) : Prop
  | kept (h : state' = state)
  | conflicted (hpending : (state.entry key).pending ≠ none)
      (h : state' = state.setEntry key (markConflict (state.entry key)))
  | taken (pending : Pending) (record : Record)
      (hpending : (state.entry key).pending = some pending)
      (hclear : pending.conflict = false)
      (hreply : ∃ more, replies = .record record :: more)
      (hvalid : validateRecord semver record = .ok ())
      (hconfirms : confirms key pending record = true)
      (h : state' = state.setEntry key { remote := some record })

theorem push_cases (state : SyncState) (key : String)
    (replies : List Reply) :
    Pushed semver state key replies
      (push semver session state key replies).1 := by
  unfold push
  split
  · exact .kept rfl
  split
  · exact .kept rfl
  split
  · exact .kept rfl
  next p hp =>
    split
    · exact .kept rfl
    next hcl =>
      split
      · exact .conflicted (by simp [hp]) rfl
      cases replies with
      | nil => exact .kept rfl
      | cons reply m =>
        unfold ask
        dsimp only
        split
        · exact .conflicted (by simp [hp]) rfl
        · next record =>
          split
          · next hc =>
            exact .taken p record hp
              (eq_false_iff.2 hcl) ⟨m, rfl⟩
              hc.1 hc.2 rfl
          · exact .kept rfl
        · exact .kept rfl

theorem Pushed.checked {key : String}
    (hp : Pushed semver state key replies state')
    (h : state.Checked semver) : state'.Checked semver := by
  cases hp with
  | kept heq => exact heq ▸ h
  | conflicted hpn heq => exact heq ▸ h.markConflict hpn
  | taken pending record hpn _ _ hv hc heq =>
    have hkey := (acknowledges_of_confirms hc).1
    rw [heq]
    exact h.setEntry (h.validKey_of_pending (by simp [hpn]))
      (.none (by rintro _ ⟨⟩; exact ⟨hkey, hv⟩))

theorem Pushed.advances {key : String}
    (hp : Pushed semver state key replies state') (h : state.Based) :
    state.Advances state' := by
  cases hp with
  | kept heq => exact heq ▸ .refl state
  | conflicted _ heq =>
    rw [heq]
    exact .setEntry fun old ho => ⟨old, ho, le_rfl⟩
  | taken p record hpn hcl _ _ hc heq =>
    rw [heq]
    refine .setEntry fun old ho => ⟨record, rfl, ?_⟩
    -- the edit was made on the record that is replaced
    have hb := h key p hpn hcl
    unfold confirms at hc
    rw [and_eq_true, and_eq_true, hb, ho, map_some,
      all_some, decide_eq_true_eq] at hc
    omega

-- ==== runs

/-- What a client does with its sync state. -/
inductive EditOp where
  | stage (key : String) (edit : Edit)
  | rebase (key : String)
  | discard (key : String)
  | pullPage (session : Identity) (replies : List Reply)
  | push (session : Identity) (key : String) (replies : List Reply)
  | rebuild (session : Identity) (replies : List Reply)

/-- The new state, where there is one. -/
def orKeep (state : SyncState) : Except SyncError SyncState → SyncState
  | .ok state' => state'
  | .error _ => state

/-- The state an operation leaves. Only a push changes a state and fails
nevertheless. -/
def SyncState.perform (semver : String → Bool) (state : SyncState) :
    EditOp → SyncState
  | .stage key edit => orKeep state (state.stage semver key edit)
  | .rebase key => orKeep state (state.rebase key)
  | .discard key => orKeep state (state.discard key)
  | .pullPage session replies =>
    orKeep state ((pullPage semver session state replies).1.map Prod.fst)
  | .push session key replies => (push semver session state key replies).1
  | .rebuild session replies =>
    orKeep state (rebuild semver session state replies).1

/-- What an operation can leave, with the step that left it. -/
inductive Performed (semver : String → Bool) (state : SyncState) :
    EditOp → SyncState → Prop where
  | kept {op : EditOp} : Performed semver state op state
  | staged {key : String} {edit : Edit} {state' : SyncState}
      (h : state.stage semver key edit = .ok state') :
      Performed semver state (.stage key edit) state'
  | rebased {key : String} {state' : SyncState}
      (h : state.rebase key = .ok state') :
      Performed semver state (.rebase key) state'
  | discarded {key : String} {state' : SyncState}
      (h : state.discard key = .ok state') :
      Performed semver state (.discard key) state'
  | pulled {session : Identity} {replies : List Reply} {heard : List Heard}
      {state' : SyncState} (h : Takes semver state heard state') :
      Performed semver state (.pullPage session replies) state'
  | pushed {session : Identity} {key : String} {replies : List Reply}
      {state' : SyncState} (h : Pushed semver state key replies state') :
      Performed semver state (.push session key replies) state'
  | rebuilt {session : Identity} {replies rest : List Reply}
      {heard : List Heard} {state' : SyncState}
      (h : rebuild semver session state replies = (.ok state', rest, heard)) :
      Performed semver state (.rebuild session replies) state'

theorem perform_cases (state : SyncState) (op : EditOp) :
    Performed semver state op (state.perform semver op) := by
  cases op with
  | stage key edit =>
    dsimp only [SyncState.perform]
    cases hs : state.stage semver key edit with
    | ok state' => exact .staged hs
    | error e => exact .kept
  | rebase key =>
    dsimp only [SyncState.perform]
    cases hr : state.rebase key with
    | ok state' => exact .rebased hr
    | error e => exact .kept
  | discard key =>
    dsimp only [SyncState.perform]
    cases hd : state.discard key with
    | ok state' => exact .discarded hd
    | error e => exact .kept
  | pullPage session replies =>
    dsimp only [SyncState.perform]
    rcases hp : pullPage semver session state replies with ⟨result, rest⟩
    cases result with
    | ok pulled => exact .pulled (pullPage_takes hp)
    | error e => exact .kept
  | push session key replies => exact .pushed (push_cases state key replies)
  | rebuild session replies =>
    dsimp only [SyncState.perform]
    rcases hr : rebuild semver session state replies with ⟨result, rest⟩
    cases result with
    | ok state' => exact .rebuilt hr
    | error e => exact .kept

theorem perform_checked (h : state.Checked semver) (op : EditOp) :
    (state.perform semver op).Checked semver := by
  have hc := @perform_cases semver state op
  generalize state.perform semver op = after at hc ⊢
  cases hc with
  | kept => exact h
  | staged hs => exact h.stage hs
  | rebased hr => exact h.rebase hr
  | discarded hd => exact h.discard hd
  | pulled ht => exact ht.checked h
  | pushed hp => exact hp.checked h
  | rebuilt hr => exact rebuild_checked hr h

theorem perform_advances (h : state.Based) {op : EditOp}
    (hop : (∃ session replies, op = .pullPage session replies)
      ∨ ∃ session key replies, op = .push session key replies) :
    state.Advances (state.perform semver op) := by
  have hc := @perform_cases semver state op
  rcases hop with ⟨session, replies, rfl⟩ | ⟨session, key, replies, rfl⟩
  · generalize state.perform semver _ = after at hc ⊢
    cases hc with
    | kept => exact .refl state
    | pulled ht => exact ht.advances
  · exact (push_cases state key replies).advances h

/-- An edit leaves its key, or gives way to another one, only where the
user says so or the server has taken it. -/
theorem edit_kept {op : EditOp} {key : String}
    (hne : (state.perform semver op).pendingEdit key
      ≠ state.pendingEdit key) :
    (∃ edit, op = .stage key edit) ∨ op = .discard key
      ∨ ∃ edit session record more,
        state.pendingEdit key = some edit
          ∧ op = .push session key (.record record :: more)
          ∧ Acknowledges key edit record := by
  have hc := @perform_cases semver state op
  generalize state.perform semver op = after at hne hc
  cases hc with
  | kept => exact absurd rfl hne
  | @staged o edit _ hs =>
    have hed := (stage_eq_ok hs).2.2 key
    by_cases hkey : o = key
    · exact .inl ⟨edit, by rw [hkey]⟩
    · rw [if_neg hkey] at hed
      exact absurd hed hne
  | rebased hr => exact absurd ((rebase_eq_ok hr).2.2 key) hne
  | @discarded o _ hd =>
    have hed := (discard_eq_ok hd).2.2 key
    by_cases hkey : o = key
    · exact .inr (.inl (by rw [hkey]))
    · rw [if_neg hkey] at hed
      exact absurd hed hne
  | pulled ht =>
    have hed := ht.tracks.pendingEdit key
    rw [if_neg (ht.unacked key)] at hed
    exact absurd hed hne
  | @pushed session o _ _ hps =>
    cases hps with
    | kept heq =>
      rw [heq] at hne
      exact absurd rfl hne
    | conflicted _ heq =>
      rw [heq] at hne
      have hed := (@markConflict_tracks state o).pendingEdit key
      exact absurd hed hne
    | taken p record hp _ hrp _ hcn heq =>
      obtain ⟨more, rfl⟩ := hrp
      have hkey : o = key := by
        by_contra hkey
        rw [heq, pendingEdit_setEntry, if_neg hkey] at hne
        exact hne rfl
      subst hkey
      refine .inr (.inr ⟨p.edit, session, record, more, ?_, rfl,
        acknowledges_of_confirms hcn⟩)
      unfold SyncState.pendingEdit
      rw [hp]
      rfl
  | rebuilt hr =>
    have hed := (rebuild_tracks hr).pendingEdit key
    rw [if_neg (rebuild_unacked hr key)] at hed
    exact absurd hed hne

theorem checked_run (ops : List EditOp) (h : state.Checked semver) :
    (ops.foldl (SyncState.perform semver) state).Checked semver := by
  induction ops generalizing state with
  | nil => exact h
  | cons op rest ih => exact ih (perform_checked h op)

theorem SyncState.Checked.based (h : state.Checked semver) : state.Based :=
  fun key => (h.entries key).based

theorem pushRequest_ifMatch (h : state.Based) {key : String}
    {r : PushRequest}
    (hr : state.pushRequest session key = some r) :
    r.ifMatch = (state.entry key).remote.map Record.revision := by
  unfold SyncState.pushRequest at hr
  split at hr
  · cases hr
  · split at hr
    · cases hr
    · next p hp =>
      split at hr
      · cases hr
      · next hs =>
        cases hr
        have hc := (not_or.1 hs).1
        exact h key p hp (eq_false_iff.2 hc)

end TikTools.Sync
