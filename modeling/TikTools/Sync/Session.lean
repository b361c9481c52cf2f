/-
The sync engine's exchanges with the server: pulling change pages,
pushing one edit, rebuilding from a snapshot.

The server is the list of replies it will give, in the order they are
asked for; every behaviour of every server is such a list, and a reply
of the wrong shape is a body that does not parse.

# Ghost state

Each exchange also returns what the client HEARD: the records it took
over, the edits the server acknowledged, and the points where a rebuild
made it forget the records it knew. No function reads this log. It is
how the proofs say, in terms of the server's replies alone, what the
state holds afterwards: `Tracks base heard state` reads the edits and
the known records of `state` off the log.
-/
import TikTools.Sync.State

namespace TikTools.Sync

open TikTools.Lib List SyncState

-- ==== replies

/-- The account a session is connected to. -/
structure Identity where
  origin : String
  accountId : String
  deriving DecidableEq, Repr

def SyncState.identity (state : SyncState) : Identity :=
  ⟨state.origin, state.accountId⟩

/-- One reply to a request: the body that was asked for, a status that
is no success, or no response at all. -/
inductive Reply where
  | changes (records : List Record) (cursor : Int) (hasMore : Bool)
  | listing (records : List Record) (nextAfter : Option String)
  | head (cursor : Int)
  | record (record : Record)
  | status (code : Nat) (retryAfterSeconds : Option Nat)
  | lost

/-- The next reply; a silent server gives none. -/
def ask : List Reply → Reply × List Reply
  | [] => (.lost, [])
  | reply :: rest => (reply, rest)

/-- The error of a reply that does not carry the body asked for. -/
def decodeError : Reply → SyncError
  | .status code retryAfterSeconds =>
    if code = 401 ∨ code = 403 then .unauthorized
    else if code = 409 then .conflict
    else if code = 410 then .cursorExpired
    else if code = 429 then .rateLimited retryAfterSeconds
    else .http code
  | .lost => .network
  | _ => .protocol

/-- What an exchange taught the client. -/
inductive Heard where
  | record (key : String)
  | acked (key : String)
  | forgot
  deriving DecidableEq

/-- Whether a record of the key is known after one piece of news. -/
def Heard.update (key : String) (known : Bool) : Heard → Bool
  | .record k => decide (k = key) || known
  | .acked _ => known
  | .forgot => false

/-- Whether a record of the key is known after the news. -/
def knownAfter (key : String) (known : Bool) (heard : List Heard) :
    Bool :=
  heard.foldl (Heard.update key) known

/-- The records of a list, as news. -/
def heardRecords (records : List Record) : List Heard :=
  records.map fun record => .record record.key

def maxPages : Nat := 200

variable (semver : String → Bool) (session : Identity)

-- ==== pull

/-- Take over the records of a change page; revisions rise and stay
within the page's cursor. The result carries the last revision. -/
def applyChanges (limit : Int) :
    SyncState → Int → List Record → Except SyncError (SyncState × Int)
  | state, last, [] => .ok (state, last)
  | state, last, record :: rest => do
    ensure (last < record.revision ∧ record.revision ≤ limit) .protocol
    let state ← state.apply semver record
    applyChanges limit state record.revision rest

/-- The state after one change page. -/
def applyPage (state : SyncState) (records : List Record) (cursor : Int)
    (hasMore : Bool) : Except SyncError SyncState := do
  ensure (state.cursor ≤ cursor ∧ ¬ (hasMore ∧ cursor = state.cursor))
    .protocol
  let applied ← applyChanges semver cursor state state.cursor records
  ensure (applied.2 = cursor) .protocol
  return { applied.1 with cursor }

/-- What an exchange returns: its result, the replies left, the news. -/
abbrev Exchange (α : Type) := Except SyncError α × List Reply × List Heard

/-- Pull one change page. The state is replaced only by a page that was
taken over whole; the flag says whether more changes wait. -/
def pullPage (state : SyncState) (replies : List Reply) :
    Exchange (SyncState × Bool) :=
  if state.identity ≠ session then (.error .wrongAccount, replies, [])
  else
    let (reply, rest) := ask replies
    match reply with
    | .changes records cursor hasMore =>
      match applyPage semver state records cursor hasMore with
      | .ok state => (.ok (state, hasMore), rest, heardRecords records)
      | .error e => (.error e, rest, [])
    | reply => (.error (decodeError reply), rest, [])

-- ==== push

/-- Whether a record confirms an edit pushed under a key and base. -/
def confirms (key : String) (pending : Pending) (record : Record) :
    Bool :=
  record.key == key
    && (pending.baseRevision.all fun base => base < record.revision)
    && match pending.edit with
      | .put value => record.value == some value && !record.deleted
      | .delete => record.deleted && record.value.isNone

/-- Send one pending edit. A conflict answer, or a deletion of a record
never seen, leaves the edit in conflict; a confirming record replaces
it. -/
def push (state : SyncState) (key : String) (replies : List Reply) :
    SyncState × Exchange Unit :=
  if state.identity ≠ session then
    (state, .error .wrongAccount, replies, [])
  else if validKey key = false then
    (state, .error .configuration, replies, [])
  else
    match (state.entry key).pending with
    | none => (state, .error .noPendingEdit, replies, [])
    | some pending =>
      let conflicted :=
        state.setEntry key (SyncState.markConflict (state.entry key))
      if pending.conflict then (state, .error .conflict, replies, [])
      else if pending.baseRevision = none ∧ pending.edit = .delete then
        (conflicted, .error .conflict, replies, [])
      else
        let (reply, rest) := ask replies
        match reply with
        | .status 409 _ => (conflicted, .error .conflict, rest, [])
        | .record record =>
          if validateRecord semver record = .ok ()
              ∧ confirms key pending record then
            (state.setEntry key { remote := some record },
              .ok (), rest, [.record key, .acked key])
          else (state, .error .protocol, rest, [])
        | reply => (state, .error (decodeError reply), rest, [])

-- ==== rebuild

/-- Take over the records of a listing page; keys rise from the last
key seen. -/
def applyListing : SyncState → Option String → List Record →
    Except SyncError (SyncState × Option String)
  | state, after, [] => .ok (state, after)
  | state, after, record :: rest => do
    ensure (∀ a ∈ after, a < record.key) .protocol
    let state ← state.apply semver record
    applyListing state (some record.key) rest

/-- Read listing pages until one names no successor. -/
def listPages : Nat → SyncState → Option String → List Reply →
    Exchange SyncState
  | 0, _, _, replies => (.error .tooManyPages, replies, [])
  | fuel + 1, candidate, after, replies =>
    let (reply, rest) := ask replies
    match reply with
    | .listing records nextAfter =>
      match applyListing semver candidate after records with
      | .error e => (.error e, rest, [])
      | .ok (candidate, last) =>
        match nextAfter with
        | none => (.ok candidate, rest, heardRecords records)
        | some next =>
          if some next ≠ last ∨ (∃ p ∈ after, next ≤ p) then
            (.error .protocol, rest, [])
          else
            let (result, rest, heard) := listPages fuel candidate last rest
            (result, rest, heardRecords records ++ heard)
    | reply => (.error (decodeError reply), rest, [])

/-- Carry one waiting edit over to the rebuilt state; an edit of
another base is in conflict. -/
def carryEdit (candidate : SyncState) (old : String × Entry) :
    SyncState :=
  match old.2.pending with
  | none => candidate
  | some pending =>
    let entry := candidate.entry old.1
    let pending :=
      if pending.baseRevision = entry.remote.map Record.revision
      then pending else { pending with conflict := true }
    candidate.setEntry old.1 { entry with pending := some pending }

/-- Carry every waiting edit over. -/
def carryEdits (state candidate : SyncState) : SyncState :=
  state.entries.toList.foldl carryEdit candidate

/-- Pull until the server reports no more changes. -/
def pullAll : Nat → SyncState → List Reply → Exchange SyncState
  | 0, _, replies => (.error .tooManyPages, replies, [])
  | fuel + 1, state, replies =>
    match pullPage semver session state replies with
    | (.error e, rest, _) => (.error e, rest, [])
    | (.ok (state, false), rest, heard) => (.ok state, rest, heard)
    | (.ok (state, true), rest, heard) =>
      let (result, rest, heard') := pullAll fuel state rest
      (result, rest, heard ++ heard')

/-- Rebuild after the server dropped the cursor's history, without
dropping waiting edits. The state is replaced only after every page
succeeded. -/
def rebuild (state : SyncState) (replies : List Reply) :
    Exchange SyncState :=
  if state.identity ≠ session then (.error .wrongAccount, replies, [])
  else
    let (reply, rest) := ask replies
    match reply with
    | .head cursor =>
      if cursor < 0 then (.error .protocol, rest, [])
      else
        let empty :=
          { SyncState.new state.origin state.accountId with cursor }
        match listPages semver maxPages empty none rest with
        | (.error e, rest, _) => (.error e, rest, [])
        | (.ok candidate, rest, heard) =>
          let (result, rest, heard') := pullAll semver session
            maxPages (carryEdits state candidate) rest
          (result, rest, .forgot :: heard ++ heard')
    | reply => (.error (decodeError reply), rest, [])

-- ==== tracking

/-- `state` is `base` after the news: an edit is gone exactly when it
was acknowledged, and the known records are those the news leaves
known. -/
structure Tracks (base : SyncState) (heard : List Heard)
    (state : SyncState) : Prop where
  identity : state.identity = base.identity
  pendingEdit : ∀ k, state.pendingEdit k
    = if .acked k ∈ heard then none else base.pendingEdit k
  hasRemote : ∀ k, state.hasRemote k = knownAfter k (base.hasRemote k) heard

theorem knownAfter_append (k : String) (kn : Bool)
    (heard heard' : List Heard) :
    knownAfter k kn (heard ++ heard')
      = knownAfter k (knownAfter k kn heard) heard' :=
  foldl_append

namespace Tracks

variable {base state state' : SyncState} {heard heard' : List Heard}

theorem refl (state : SyncState) : Tracks state [] state :=
  ⟨rfl, fun _ => by simp, fun _ => rfl⟩

theorem trans (h : Tracks base heard state)
    (h' : Tracks state heard' state') :
    Tracks base (heard ++ heard') state' := by
  refine ⟨h'.identity.trans h.identity, ?_, ?_⟩
  · intro k
    rw [h'.pendingEdit, h.pendingEdit]
    by_cases ha : Heard.acked k ∈ heard <;> simp [ha]
  · intro k
    rw [h'.hasRemote, h.hasRemote, knownAfter_append]

end Tracks

variable {semver session}
variable {state state' : SyncState} {replies rest : List Reply}
variable {heard : List Heard}

theorem apply_tracks {r : Record}
    (h : state.apply semver r = .ok state') :
    Tracks state [.record r.key] state' := by
  obtain ⟨ho, ha, hp, hr⟩ := apply_eq_ok h
  refine ⟨?_, ?_, hr⟩
  · unfold SyncState.identity
    rw [ho, ha]
  · intro k
    rw [hp]
    simp

-- ==== taking records over

/-- `state'` is what taking over the records of the news one at a time,
and moving the cursor on, makes of `state`. -/
inductive Takes (semver : String → Bool) :
    SyncState → List Heard → SyncState → Prop where
  | refl (state : SyncState) : Takes semver state [] state
  | apply {state mid state' : SyncState} {record : Record}
      {heard : List Heard} (h : state.apply semver record = .ok mid)
      (rest : Takes semver mid heard state') :
      Takes semver state (.record record.key :: heard) state'
  | cursor {state state' : SyncState} {heard : List Heard} {cursor : Int}
      (h : state.cursor ≤ cursor)
      (rest : Takes semver { state with cursor } heard state') :
      Takes semver state heard state'

namespace Takes

theorem trans {mid : SyncState} {heard' : List Heard}
    (h : Takes semver state heard mid) (h' : Takes semver mid heard' state') :
    Takes semver state (heard ++ heard') state' := by
  induction h with
  | refl => exact h'
  | apply ha _ ih => exact .apply ha (ih h')
  | cursor hle _ ih => exact .cursor hle (ih h')

theorem unacked (h : Takes semver state heard state') (k : String) :
    .acked k ∉ heard := by
  induction h with
  | refl => simp
  | apply _ _ ih => simp [ih]
  | cursor _ _ ih => exact ih

theorem tracks (h : Takes semver state heard state') :
    Tracks state heard state' := by
  induction h with
  | refl state => exact .refl state
  | apply ha _ ih => exact (apply_tracks ha).trans ih
  | cursor _ _ ih => exact ⟨ih.identity, ih.pendingEdit, ih.hasRemote⟩

end Takes

variable {limit : Int}

variable {records : List Record}

theorem applyChanges_takes :
    ∀ {state : SyncState} {l l' : Int},
      applyChanges semver limit state l records = .ok (state', l') →
      Takes semver state (heardRecords records) state'
        ∧ state'.cursor = state.cursor := by
  induction records with
  | nil =>
    intro state l l' h
    cases h
    exact ⟨.refl _, rfl⟩
  | cons record records ih =>
    intro state l l' h
    obtain ⟨_, _, h⟩ := bind_eq_ok.1 h
    obtain ⟨mid, ha, h⟩ := bind_eq_ok.1 h
    obtain ⟨ht, hc⟩ := ih h
    exact ⟨.apply ha ht, hc.trans (apply_cursor ha)⟩

variable {hasMore : Bool}

theorem applyPage_takes {cursor : Int}
    (h : applyPage semver state records cursor hasMore = .ok state') :
    Takes semver state (heardRecords records) state' := by
  obtain ⟨hc, h⟩ := ensure_ok.1 h
  obtain ⟨a, happ, h⟩ := bind_eq_ok.1 h
  obtain ⟨_, _, h⟩ := bind_eq_ok.1 h
  cases h
  obtain ⟨ht, hcr⟩ := applyChanges_takes happ
  have hmv : Takes semver a.1 [] { a.1 with cursor } :=
    .cursor (hcr ▸ hc.1) (.refl _)
  simpa using ht.trans hmv

variable {more : Bool}

section

variable (h : pullPage semver session state replies = (.ok (state', more),
    rest, heard))
include h

theorem pullPage_takes :
    Takes semver state heard state' := by
  unfold pullPage at h
  split at h
  case isTrue => cases h
  case isFalse =>
    dsimp only at h
    split at h
    case h_1 =>
      split at h
      case h_1 hp =>
        cases h
        exact applyPage_takes hp
      case h_2 => cases h
    case h_2 => cases h

theorem pullPage_tracks : Tracks state heard state' :=
  (pullPage_takes h).tracks

end

variable {e : SyncError}

theorem applyChanges_eq_error :
    ∀ {records : List Record} {state : SyncState} {l : Int},
      applyChanges semver limit state l records = .error e →
      e = .protocol
  | [], _, _, h => nomatch h
  | record :: records, state, l, h => by
    obtain h | ⟨_, _, h⟩ := bind_eq_error.1 h
    · rw [ensure_eq_error] at h
      exact h.2.symm
    · obtain h | ⟨_, _, h⟩ := bind_eq_error.1 h
      · exact apply_eq_error h
      · exact applyChanges_eq_error h

theorem applyPage_eq_error {c : Int}
    (h : applyPage semver state records c hasMore = .error e) :
    e = .protocol := by
  obtain h | ⟨_, _, h⟩ := bind_eq_error.1 h
  · rw [ensure_eq_error] at h
    exact h.2.symm
  · obtain h | ⟨_, _, h⟩ := bind_eq_error.1 h
    · exact applyChanges_eq_error h
    · obtain h | ⟨_, _, h⟩ := bind_eq_error.1 h
      · rw [ensure_eq_error] at h
        exact h.2.symm
      · cases h

theorem decodeError_ne_wrongAccount (r : Reply) :
    decodeError r ≠ .wrongAccount := by
  unfold decodeError
  split
  · split_ifs <;> exact fun h => nomatch h
  · exact fun h => nomatch h
  · exact fun h => nomatch h

/-- Only a state of another identity is refused as the wrong
account's: no reply of the server has that effect. -/
theorem pullPage_wrongAccount
    (h : pullPage semver session state replies
      = (.error .wrongAccount, rest, heard)) :
    state.identity ≠ session := by
  intro hid
  unfold pullPage at h
  rw [if_neg (not_not_intro hid)] at h
  dsimp only at h
  split at h
  case h_1 =>
    split at h
    case h_1 => simp at h
    case h_2 hp =>
      have he := applyPage_eq_error hp
      subst he
      simp at h
  case h_2 =>
    injection h with h
    injection h with h
    exact decodeError_ne_wrongAccount _ h

theorem markConflict_tracks (key : String) :
    Tracks state []
      (state.setEntry key (SyncState.markConflict (state.entry key))) := by
  refine ⟨rfl, ?_, ?_⟩
  · intro k
    rw [pendingEdit_setEntry]
    split
    case isTrue e =>
      subst e
      simp only [SyncState.markConflict, SyncState.pendingEdit,
        Option.map_map, not_mem_nil, ↓reduceIte]
      rfl
    case isFalse => simp
  · intro k
    rw [hasRemote_setEntry]
    split
    case isTrue e =>
      subst e
      rfl
    case isFalse => rfl

variable {key : String}

theorem confirmed_tracks (r : Record) :
    Tracks state [.record key, .acked key]
      (state.setEntry key { remote := some r }) := by
  refine ⟨rfl, ?_, ?_⟩
  · intro k
    rw [pendingEdit_setEntry]
    by_cases e : key = k
    · simp [e]
    · simp [e, eq_comm]
  · intro k
    rw [hasRemote_setEntry]
    by_cases e : key = k <;> simp [knownAfter, Heard.update, e]

theorem push_tracks {r : Except SyncError Unit}
    (h : push semver session state key replies
      = (state', r, rest, heard)) : Tracks state heard state' := by
  unfold push at h
  split_ifs at h
  · cases h
    exact .refl _
  · cases h
    exact .refl _
  · split at h
    · cases h
      exact .refl _
    · dsimp only at h
      split_ifs at h
      · cases h
        exact .refl _
      · cases h
        exact markConflict_tracks key
      · split at h
        · cases h
          exact markConflict_tracks key
        · split_ifs at h
          · cases h
            exact confirmed_tracks _
          · cases h
            exact .refl _
        · cases h
          exact .refl _

theorem applyListing_takes :
    ∀ {state : SyncState} {a l : Option String},
      applyListing semver state a records = .ok (state', l) →
      Takes semver state (heardRecords records) state' := by
  induction records with
  | nil =>
    intro state a l h
    cases h
    exact .refl _
  | cons record records ih =>
    intro state a l h
    obtain ⟨_, _, h⟩ := bind_eq_ok.1 h
    obtain ⟨mid, ha, h⟩ := bind_eq_ok.1 h
    exact .apply ha (ih h)

variable {fuel : Nat}

theorem listPages_takes :
    ∀ {c : SyncState} {a : Option String}
      {replies rest : List Reply} {heard : List Heard},
      listPages semver fuel c a replies = (.ok state', rest, heard) →
      Takes semver c heard state' := by
  induction fuel with
  | zero =>
    intro c a replies rest heard h
    cases h
  | succ fuel ih =>
    intro c a replies rest heard h
    unfold listPages at h
    dsimp only at h
    split at h
    case h_1 records nextAfter _ =>
      split at h
      case h_1 => cases h
      case h_2 mid last hl =>
        split at h
        case h_1 =>
          cases h
          exact applyListing_takes hl
        case h_2 next =>
          split at h
          case isTrue => cases h
          case isFalse =>
            rcases hn : listPages semver fuel mid last _
              with ⟨result, rest', heard'⟩
            rw [hn] at h
            cases h
            exact (applyListing_takes hl).trans (ih hn)
    case h_2 => cases h

theorem pullAll_takes :
    ∀ {state : SyncState} {replies rest : List Reply}
      {heard : List Heard},
      pullAll semver session fuel state replies = (.ok state', rest, heard) →
      Takes semver state heard state' := by
  induction fuel with
  | zero =>
    intro state replies rest heard h
    cases h
  | succ fuel ih =>
    intro state replies rest heard h
    unfold pullAll at h
    split at h
    case h_1 => cases h
    case h_2 hp =>
      cases h
      exact pullPage_takes hp
    case h_3 mid rest' heard' hp =>
      rcases hn : pullAll semver session fuel mid rest'
        with ⟨result, rest'', he''⟩
      rw [hn] at h
      cases h
      exact (pullPage_takes hp).trans (ih hn)

-- ==== carrying edits over

/-- An entry with a waiting edit carried over to it. -/
def Entry.carry (entry : Entry) : Option Pending → Entry
  | none => entry
  | some pending => { entry with
      pending := some
        (if pending.baseRevision = entry.remote.map Record.revision
          then pending else { pending with conflict := true }) }

theorem Entry.carry_carry (entry : Entry) (pending : Option Pending) :
    (entry.carry pending).carry pending = entry.carry pending := by
  cases pending <;> rfl

theorem carryEdit_entry (c : SyncState) (p : String × Entry)
    (k : String) :
    (carryEdit c p).entry k
      = if p.1 = k then (c.entry k).carry p.2.pending
        else c.entry k := by
  unfold carryEdit
  cases p.2.pending with
  | none => simp [Entry.carry]
  | some pending =>
    rw [entry_setEntry]
    split
    case isTrue e => rw [← e]; rfl
    case isFalse => rfl

theorem carryEdits_fold (old : SyncState) (k : String) :
    ∀ (l : List (String × Entry)) (candidate : SyncState),
      (∀ p ∈ l, old.entry p.1 = p.2) →
      (l.foldl carryEdit candidate).entry k
        = if k ∈ l.map Prod.fst
          then (candidate.entry k).carry (old.entry k).pending
          else candidate.entry k := by
  intro l
  induction l with
  | nil => simp
  | cons p l ih =>
    intro candidate hl
    rw [foldl_cons,
      ih (carryEdit candidate p) fun q hq =>
        hl q (mem_cons_of_mem _ hq),
      carryEdit_entry, ← hl p mem_cons_self]
    by_cases hk : p.1 = k
    · subst hk
      simp [Entry.carry_carry]
    · rw [if_neg hk, map_cons]
      simp only [mem_cons, Ne.symm hk, false_or]

/-- The rebuilt state has the edits of the old one on the records of
the listing. -/
theorem carryEdits_entry (old c : SyncState) (k : String) :
    (carryEdits old c).entry k = (c.entry k).carry (old.entry k).pending := by
  have hl : ∀ p ∈ old.entries.toList, old.entry p.1 = p.2 := by
    intro p hp
    unfold SyncState.entry
    rw [Table.mem_toList.1 hp]
    rfl
  rw [carryEdits, carryEdits_fold old k _ c hl]
  split
  case isTrue => rfl
  case isFalse hk =>
    unfold SyncState.entry
    cases he : old.entries[k]? with
    | none => rfl
    | some e =>
      exact absurd (mem_map_of_mem (Table.mem_toList.2 he)) hk

theorem carryEdits_kept (old c : SyncState) :
    (carryEdits old c).identity = c.identity
      ∧ (carryEdits old c).cursor = c.cursor := by
  unfold carryEdits
  generalize old.entries.toList = l
  induction l generalizing c with
  | nil => exact ⟨rfl, rfl⟩
  | cons p l ih =>
    obtain ⟨hid, hc⟩ := ih (carryEdit c p)
    rw [foldl_cons, hid, hc]
    unfold carryEdit
    cases p.2.pending <;> exact ⟨rfl, rfl⟩

-- ==== rebuilds

section

variable (h : rebuild semver session state replies = (.ok state', rest,
  heard))
include h

/-- A rebuild that succeeds has taken over a listing, carried the edits
over to it and then pulled. -/
theorem rebuild_cases :
    ∃ cursor l c more listed pulled,
      ask replies = (.head cursor, l) ∧ 0 ≤ cursor
        ∧ listPages semver maxPages
            { SyncState.new state.origin state.accountId with cursor } none
            l = (.ok c, more, listed)
        ∧ Takes semver (carryEdits state c) pulled state'
        ∧ heard = .forgot :: listed ++ pulled := by
  unfold rebuild at h
  split at h
  case isTrue => cases h
  case isFalse =>
    dsimp only at h
    split at h
    case h_1 cursor hask =>
      split at h
      case isTrue => cases h
      case isFalse hc =>
        split at h
        case h_1 => cases h
        case h_2 c more listed hl =>
          rcases hp : pullAll semver session maxPages
            (carryEdits state c) more with ⟨result, rest'', pulled⟩
          rw [hp] at h
          cases h
          exact ⟨cursor, _, c, more, listed, pulled,
            Prod.ext hask rfl, Int.not_lt.1 hc, hl,
            pullAll_takes hp, rfl⟩
    case h_2 => cases h

theorem rebuild_unacked (key : String) : .acked key ∉ heard := by
  obtain ⟨_, _, _, _, _, _, -, -, hl, hp, rfl⟩ := rebuild_cases h
  simp [(listPages_takes hl).unacked key, hp.unacked key]

theorem rebuild_tracks :
    Tracks state heard state' := by
  obtain ⟨cursor, _, c, _, listed, pulled, -, -, hls, hp,
    rfl⟩ := rebuild_cases h
  have hl := (listPages_takes hls).tracks
  have hem : ∀ k, c.pendingEdit k = none := by
    intro k
    rw [hl.pendingEdit]
    split <;> rfl
  have ha := (listPages_takes hls).unacked
  refine ⟨?_, ?_, ?_⟩
  · rw [hp.tracks.identity, (carryEdits_kept _ _).1, hl.identity]
    rfl
  · intro k
    have hc : (carryEdits state c).pendingEdit k
        = state.pendingEdit k := by
      have hn := hem k
      unfold SyncState.pendingEdit at hn ⊢
      rw [carryEdits_entry]
      cases (state.entry k).pending with
      | none => exact hn
      | some pending =>
        dsimp only [Entry.carry, Option.map_some]
        split <;> rfl
    rw [hp.tracks.pendingEdit, hc]
    simp [ha k]
  · intro k
    have hc : (carryEdits state c).hasRemote k
        = c.hasRemote k := by
      unfold SyncState.hasRemote
      rw [carryEdits_entry]
      cases (state.entry k).pending <;> rfl
    rw [hp.tracks.hasRemote, hc, hl.hasRemote, ← knownAfter_append]
    rfl

end

end TikTools.Sync
