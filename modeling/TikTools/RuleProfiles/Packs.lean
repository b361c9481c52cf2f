/-
The rule profiles of the browser interface: packs of automation records,
one of them active.

The browser runs one call at a time between two waits, so what a call
does up to its next wait is part of the step that got it there; each
control call with its reply is a step. A call computes the new list of
packs from the list there is, has both keys stored side by side, and then
replaces the list: `Store` is that last part, with the write that is
still out. When one write fails the call is over, but the other is still
on its way (`late`).

Other editors may change any record at any time (`edit`), which also
stands for what a control call that failed did to the records.
-/
import TikTools.Lib.Js
import TikTools.Lib.Table
import TikTools.Lib.Runs

namespace TikTools.RuleProfiles

open TikTools.Lib Std

-- ==== the packs

def defaultProfileId : String := "default"

inductive Kind where
  | event
  | action
  deriving DecidableEq, Repr

structure ProfilePack where
  id : String
  name : String
  description : String
  eventIds : List String
  actionIds : List String
  deriving DecidableEq, Repr

structure ProfileUniverse where
  eventIds : List String
  actionIds : List String
  deriving DecidableEq, Repr

def ProfilePack.ids (pack : ProfilePack) : Kind → List String
  | .event => pack.eventIds
  | .action => pack.actionIds

def ProfilePack.records (pack : ProfilePack) : List String :=
  pack.eventIds ++ pack.actionIds

def ProfileUniverse.ids (rules : ProfileUniverse) : Kind → List String
  | .event => rules.eventIds
  | .action => rules.actionIds

/-- The packs, led by the leftovers no pack owns. -/
def resolvedPacks (packs : List ProfilePack) (rules : ProfileUniverse) :
    List ProfilePack :=
  let ownedEvents := packs.flatMap (·.eventIds)
  let ownedActions := packs.flatMap (·.actionIds)
  ⟨defaultProfileId, "", "",
    rules.eventIds.filter (fun id => id ∉ ownedEvents),
    rules.actionIds.filter (fun id => id ∉ ownedActions)⟩ :: packs

-- ==== the ids

def isSlugChar (c : Char) : Bool :=
  ('a' ≤ c && c ≤ 'z') || ('0' ≤ c && c ≤ '9')

/-- `toLowerCase`, as far as it yields letters a to z: from the capitals,
the Kelvin sign, and the dotted I with a mark left over. -/
def lowerLetter (c : Char) : List Char :=
  if 'A' ≤ c ∧ c ≤ 'Z' then [Char.ofNat (c.toNat + 32)]
  else if c.toNat = 0x212A then ['k']
  else if c.toNat = 0x130 then ['i', Char.ofNat 0x307]
  else [c]

/-- Each run of other characters becomes one hyphen; `gap` is whether the
last character stood in such a run. -/
def hyphenate : Bool → List Char → List Char
  | _, [] => []
  | gap, c :: rest =>
    if isSlugChar c then c :: hyphenate false rest
    else if gap then hyphenate true rest
    else '-' :: hyphenate true rest

def stripHyphens (chars : List Char) : List Char :=
  ((chars.dropWhile (· = '-')).reverse.dropWhile (· = '-')).reverse

/-- `[a-z0-9][a-z0-9._-]{1,63}`. -/
def isTemplateId : List Char → Bool
  | [] => false
  | c :: rest => isSlugChar c
      && rest.all (fun d => isSlugChar d || d = '.' || d = '_' || d = '-')
      && decide (1 ≤ rest.length) && decide (rest.length ≤ 63)

def slugProfileId (name : String) : Option String :=
  let lowered := (jsTrim name.toList).flatMap lowerLetter
  let slug := (stripHyphens (hyphenate false lowered)).take 64
  if slug = [] ∨ String.ofList slug = defaultProfileId
      ∨ ¬ isTemplateId slug then none
  else some (String.ofList slug)

/-- The id with a number after it, cut to the longest id there may be. -/
def numbered (base : String) (counter : Nat) : String :=
  String.ofList ((base.toList ++ '-' :: (toString counter).toList).take 64)

/-- The loop that looks for a free id, as far as so many rounds. -/
def freeId (taken : List String) (base : String) :
    Nat → String → Nat → Option String
  | 0, _, _ => none
  | rounds + 1, id, counter =>
    if id ∈ taken then
      freeId taken base rounds (numbered base counter) (counter + 1)
    else some id

-- ==== the state

/-- What a call has done when it completes. -/
inductive Done where
  | registered (pack : ProfilePack)
  | switched (id : String) (rules : ProfileUniverse)
      (missing : List (Kind × String))
  | created (pack : ProfilePack)
  | deleted (id : String)
  | adopted (pack : Option String) (kind : Kind) (id : String)
  deriving DecidableEq, Repr

inductive Key where
  | packs
  | active
  deriving DecidableEq, Repr

def Key.other : Key → Key
  | .packs => .active
  | .active => .packs

structure Store where
  done : Done
  next : List ProfilePack
  active : String
  deriving DecidableEq, Repr

structure Update where
  kind : Kind
  id : String
  enabled : Bool
  deriving DecidableEq, Repr

/-- What a call waits for. -/
inductive Phase where
  | enabling (id : String) (rules : ProfileUniverse)
      (updates : List Update)
  | deleting (id : String) (todo : List (Kind × String))
  | storing (store : Store) (written : Option Key)
  | late (store : Store) (key : Key)
  deriving DecidableEq, Repr

def Phase.isLate : Phase → Bool
  | .late _ _ => true
  | _ => false

def Phase.isStoring : Phase → Bool
  | .storing _ _ => true
  | _ => false

structure Call where
  /-- the number of changes when it began, if nothing else ran then -/
  quiet : Option Nat
  phase : Phase
  deriving DecidableEq, Repr

/-- The records of the host, with whether each is enabled. -/
abbrev Records := Kind → String → Option Bool

structure Profiles where
  packs : List ProfilePack
  activeId : String
  storedPacks : List ProfilePack
  storedActive : String
  records : Records
  calls : Table Nat Call
  /-- calls begun and edits made so far -/
  changes : Nat
  /-- what was completed, the last first -/
  log : List Done

inductive Outcome where
  | ok
  | refused
  /-- done, but the reply was an error -/
  | lost
  deriving DecidableEq, Repr

inductive Action where
  | registerPack (call : Nat) (pack : ProfilePack)
  | switchProfile (call : Nat) (id : String) (rules : ProfileUniverse)
  | createPack (call : Nat) (name : String) (rounds : Nat)
  | deletePack (call : Nat) (id : String)
  | adoptRule (call : Nat) (kind : Kind) (id : String)
  | enabled (call : Nat) (ok : Bool)
  | deleted (call : Nat) (ok : Bool)
  | wrote (call : Nat) (key : Key) (outcome : Outcome)
  | edit (kind : Kind) (id : String) (record : Option Bool)
  deriving DecidableEq, Repr

/-- The list is computed as soon as this deletion is answered. -/
def Phase.isLastDelete : Phase → Bool
  | .deleting _ [_] => true
  | _ => false

/-- An outcome like that of the other write, if there was one. -/
def Phase.agrees : Phase → Outcome → Bool
  | .storing _ (some _), outcome => outcome = .ok
  | .late _ _, outcome => outcome = .refused
  | _, outcome => outcome ≠ .lost

-- ==== the host

def Records.put (records : Records) (kind : Kind) (id : String)
    (record : Option Bool) : Records := fun k i =>
  if k = kind ∧ i = id then record else records k i

/-- `automation.set_enablement`: what is there is updated, what is not is
reported. -/
def Records.setEnablement (records : Records) (updates : List Update) :
    Records × List (Kind × String) :=
  let ordered := updates.filter (·.kind = .event)
    ++ updates.filter (·.kind = .action)
  (ordered.foldl (fun records update =>
      records.put update.kind update.id
        ((records update.kind update.id).map fun _ => update.enabled))
    records,
   (ordered.filter fun update =>
      records update.kind update.id = none).map fun update =>
        (update.kind, update.id))

-- ==== the calls

/-- What a switch asks of the host: every record it knows of. -/
def enablementUpdates (packs : List ProfilePack) (rules : ProfileUniverse)
    (target : ProfilePack) : List Update :=
  let update (kind : Kind) (id : String) : Update :=
    ⟨kind, id, decide (id ∈ target.ids kind)⟩
  rules.eventIds.map (update .event) ++ rules.actionIds.map (update .action)
    ++ packs.flatMap fun pack =>
      (pack.eventIds.filter (fun id => id ∉ rules.eventIds)).map
          (update .event)
        ++ (pack.actionIds.filter (fun id => id ∉ rules.actionIds)).map
          (update .action)

/-- A pack without the records the host reported missing. -/
def ProfilePack.drop (missing : List (Kind × String)) (pack : ProfilePack) :
    ProfilePack :=
  { pack with
    eventIds := pack.eventIds.filter fun id => (.event, id) ∉ missing
    actionIds := pack.actionIds.filter fun id => (.action, id) ∉ missing }

/-- A pack with one record more. -/
def ProfilePack.add (kind : Kind) (id : String) (pack : ProfilePack) :
    ProfilePack :=
  match kind with
  | .event => { pack with eventIds := pack.eventIds ++ [id] }
  | .action => { pack with actionIds := pack.actionIds ++ [id] }

namespace Profiles

/-- No call is running. A late write has no call any more. -/
def Idle (s : Profiles) : Prop :=
  ∀ entry ∈ s.calls.toList, entry.2.phase.isLate = true

/-- No list is on its way to replace the one there is. -/
def Settled (s : Profiles) : Prop :=
  ∀ entry ∈ s.calls.toList, entry.2.phase.isStoring = false

instance (s : Profiles) : Decidable s.Idle :=
  inferInstanceAs (Decidable (∀ entry ∈ s.calls.toList, _))

instance (s : Profiles) : Decidable s.Settled :=
  inferInstanceAs (Decidable (∀ entry ∈ s.calls.toList, _))

/-- A call begins, and goes as far as its first wait. -/
def begin (s : Profiles) (call : Nat) (phase : Phase) : Option Profiles :=
  if s.calls[call]? = none then
    let quiet := if s.Idle then some (s.changes + 1) else none
    some { s with
      calls := s.calls.insert call ⟨quiet, phase⟩
      changes := s.changes + 1 }
  else none

def wait (s : Profiles) (call : Nat) (quiet : Option Nat) (phase : Phase) :
    Profiles :=
  { s with calls := s.calls.insert call ⟨quiet, phase⟩ }

def leave (s : Profiles) (call : Nat) : Profiles :=
  { s with calls := s.calls.erase call }

/-- A write reaches the host. -/
def put (s : Profiles) (store : Store) : Key → Profiles
  | .packs => { s with storedPacks := store.next }
  | .active => { s with storedActive := store.active }

/-- The last write is in: the list is replaced and the call is over. -/
def complete (s : Profiles) (call : Nat) (store : Store) : Profiles :=
  { s with
    packs := store.next
    activeId := store.active
    calls := s.calls.erase call
    log := store.done :: s.log }

def registerPack (s : Profiles) (call : Nat) (pack : ProfilePack) :
    Option Profiles :=
  if pack.id = defaultProfileId then some s
  else s.begin call (.storing
    ⟨.registered pack, s.packs.filter (·.id ≠ pack.id) ++ [pack], pack.id⟩
    none)

def switchProfile (s : Profiles) (call : Nat) (id : String)
    (rules : ProfileUniverse) : Option Profiles :=
  match (resolvedPacks s.packs rules).find? (·.id = id) with
  | none => some s
  | some target =>
    s.begin call (.enabling id rules (enablementUpdates s.packs rules target))

/-- The list a switch stores once the host has answered. -/
def switched (s : Profiles) (id : String) (rules : ProfileUniverse)
    (missing : List (Kind × String)) : Store :=
  ⟨.switched id rules missing, s.packs.map (·.drop missing), id⟩

/-- A name without a usable character is an error at once; otherwise the
loop must come to an end. -/
def createPack (s : Profiles) (call : Nat) (name : String) (rounds : Nat) :
    Option Profiles :=
  match slugProfileId name with
  | none => some s
  | some base =>
    (freeId (s.packs.map (·.id)) base rounds base 2).bind fun id =>
      let pack : ProfilePack :=
        ⟨id, String.ofList (jsTake 80 (jsTrim name.toList)), "", [], []⟩
      s.begin call
        (.storing ⟨.created pack, s.packs ++ [pack], s.activeId⟩ none)

/-- The next record to delete, or the list without the pack. -/
def deletePhase (s : Profiles) (id : String) :
    List (Kind × String) → Phase
  | [] => .storing
      ⟨.deleted id, s.packs.filter (·.id ≠ id),
        if s.activeId = id then defaultProfileId else s.activeId⟩ none
  | todo => .deleting id todo

def deletePack (s : Profiles) (call : Nat) (id : String) :
    Option Profiles :=
  if id = defaultProfileId then some s
  else
    match s.packs.find? (·.id = id) with
    | none => some s
    | some target =>
      s.begin call (s.deletePhase id
        (target.eventIds.map (Prod.mk .event)
          ++ target.actionIds.map (Prod.mk .action)))

def adoptRule (s : Profiles) (call : Nat) (kind : Kind) (id : String) :
    Option Profiles :=
  if s.activeId = defaultProfileId then some s
  else if ∃ pack ∈ s.packs, id ∈ pack.eventIds ∨ id ∈ pack.actionIds then
    some s
  else
    s.begin call (.storing
      ⟨.adopted ((s.packs.find? (·.id = s.activeId)).map (·.id)) kind id,
        s.packs.map fun pack =>
          if pack.id = s.activeId then pack.add kind id else pack,
        s.activeId⟩ none)

def next (s : Profiles) : Action → Option Profiles
  | .registerPack call pack => s.registerPack call pack
  | .switchProfile call id rules => s.switchProfile call id rules
  | .createPack call name rounds => s.createPack call name rounds
  | .deletePack call id => s.deletePack call id
  | .adoptRule call kind id => s.adoptRule call kind id
  | .enabled call ok =>
    match s.calls[call]? with
    | some ⟨quiet, .enabling id rules updates⟩ =>
      if ok then
        let (records, missing) := s.records.setEnablement updates
        some ({ s with records }.wait call quiet
          (.storing (s.switched id rules missing) none))
      else some (s.leave call)
    | _ => none
  | .deleted call ok =>
    match s.calls[call]? with
    | some ⟨quiet, .deleting id ((kind, record) :: todo)⟩ =>
      if ok then
        some ({ s with records := s.records.put kind record none }.wait
          call quiet (s.deletePhase id todo))
      else some (s.leave call)
    | _ => none
  | .wrote call key outcome =>
    match s.calls[call]? with
    | some ⟨quiet, .storing store none⟩ =>
      let stored := if outcome = .refused then s else s.put store key
      if outcome = .ok then
        some (stored.wait call quiet (.storing store (some key)))
      else some (stored.wait call quiet (.late store key.other))
    | some ⟨_, .storing store (some first)⟩ =>
      if key = first then none
      else
        let stored := if outcome = .refused then s else s.put store key
        if outcome = .ok then some (stored.complete call store)
        else some (stored.leave call)
    | some ⟨_, .late store due⟩ =>
      if key = due then
        let stored := if outcome = .refused then s else s.put store key
        some (stored.leave call)
      else none
    | _ => none
  | .edit kind id record => some { s with
      records := s.records.put kind id record
      changes := s.changes + 1 }

/-- Lists do not overtake one another: one is computed only while none is
on its way; the two writes of a store both reach the host or neither
does; and the records of a registered profile are new. -/
def Ordered (s : Profiles) : Action → Prop
  | .registerPack _ pack => s.Settled ∧
      ∀ p ∈ s.packs, p.id ≠ pack.id → ∀ r ∈ p.records, r ∉ pack.records
  | .createPack _ _ _ => s.Settled
  | .adoptRule _ _ _ => s.Settled
  | .deletePack _ id =>
    ∀ target ∈ s.packs.find? (·.id = id), target.records = [] → s.Settled
  | .enabled _ ok => ok = true → s.Settled
  | .deleted call ok => ok = true →
      ∀ c ∈ s.calls[call]?, c.phase.isLastDelete = true → s.Settled
  | .wrote call _ outcome =>
    ∀ c ∈ s.calls[call]?, c.phase.agrees outcome = true
  | _ => True

instance (s : Profiles) (action : Action) : Decidable (s.Ordered action) := by
  unfold Ordered
  split <;> infer_instance

end Profiles

end TikTools.RuleProfiles
