/-
The store of automation records: rules (events) and the actions they run.

A row keeps some facts twice. The columns `name` and `enabled` stand
beside the payload, the record as it was saved, which has members of the
same names. A load overlays the columns on the payload. An enablement
call writes the column only; deleting an action rewrites the rules that
list it, columns and all, from their payloads.

Records are members in key order, so a payload that is written out and
parsed again is the same payload. The timestamps of a row only order the
listing and are left out.
-/
import TikTools.Lib.Json
import TikTools.Lib.Table
import TikTools.Lib.Text

namespace TikTools.Automation.Behavior

open TikTools.Lib

-- ==== records

/-- The two families of records, each with its own table. -/
inductive AutomationKind where
  | event
  | action
  deriving DecidableEq

/-- The members of a record. -/
abbrev Record := Table String Json

/-- The record a value is, if it is an object. -/
def recordOf : Json → Option Record
  | .object members =>
    some (members.foldl (fun acc kv => acc.insert kv.1 kv.2) ∅)
  | _ => none

inductive DatabaseError where
  | invalid (message : String)
  /-- The database itself failed. -/
  | sqlite
  deriving DecidableEq

/-- A member that must be a text with more than white space. -/
def requiredValueString (object : Record) (key : String) :
    Except DatabaseError String :=
  match (object[key]?).bind Json.asStr with
  | some value =>
    if trim value.toList = [] then
      .error (.invalid ("record field `" ++ key ++ "` is missing"))
    else .ok value
  | none => .error (.invalid ("record field `" ++ key ++ "` is missing"))

/-- The `enabled` member, false when it is absent or no boolean. -/
def enabledOf (object : Record) : Bool :=
  ((object["enabled"]?).bind Json.asBool).getD false

/-- Whether a value is the id of an action. -/
def isId (actionId : String) (value : Json) : Bool :=
  value.asStr == some actionId

/-- Whether `actionIds` lists an action. -/
def refers (actionId : String) (object : Record) : Bool :=
  match object["actionIds"]? with
  | some (.array ids) => ids.any (isId actionId)
  | _ => false

/-- The record without an action among its `actionIds`. -/
def withoutAction (actionId : String) (object : Record) : Record :=
  match object["actionIds"]? with
  | some (.array ids) =>
    object.insert "actionIds"
      (.array (ids.filter fun value => !isId actionId value))
  | _ => object

-- ==== rows

structure Row where
  name : String
  enabled : Bool
  payload : Record

/-- The record a row is loaded as: the columns over the payload. -/
def loadRow (id : String) (row : Row) : Record :=
  ((row.payload.insert "id" (.string id)).insert "name"
    (.string row.name)).insert "enabled" (.bool row.enabled)

/-- The two tables. -/
structure Store where
  events : Table String Row
  actions : Table String Row

namespace Store

def empty : Store := ⟨∅, ∅⟩

def table (s : Store) : AutomationKind → Table String Row
  | .event => s.events
  | .action => s.actions

def setTable (s : Store) (kind : AutomationKind)
    (rows : Table String Row) : Store :=
  match kind with
  | .event => { s with events := rows }
  | .action => { s with actions := rows }

@[simp] theorem table_setTable_self (s : Store) (kind : AutomationKind)
    (rows : Table String Row) : (s.setTable kind rows).table kind = rows := by
  cases kind <;> rfl

variable {kind : AutomationKind}

theorem table_setTable_ne (s : Store) {other : AutomationKind}
    (rows : Table String Row) (h : kind ≠ other) :
    (s.setTable kind rows).table other = s.table other := by
  cases kind <;> cases other <;> first | rfl | exact absurd rfl h

-- ==== operations

/-- Write a record under its id. -/
def saveBehavior (s : Store) (kind : AutomationKind) (value : Json) :
    Except DatabaseError Json × Store :=
  match recordOf value with
  | none => (.error (.invalid "behavior record must be an object"), s)
  | some object =>
    match requiredValueString object "id",
        requiredValueString object "name" with
    | .error e, _ => (.error e, s)
    | .ok _, .error e => (.error e, s)
    | .ok id, .ok name =>
      (.ok value, s.setTable kind
        ((s.table kind).insert id ⟨name, enabledOf object, object⟩))

/-- `UPDATE .. SET enabled`: whether a row had the id, and the table. -/
def updateEnabled (s : Store) (kind : AutomationKind) (id : String)
    (enabled : Bool) : Bool × Store :=
  match (s.table kind)[id]? with
  | some row =>
    (true, s.setTable kind
      ((s.table kind).insert id { row with enabled := enabled }))
  | none => (false, s)

def loadBehaviorRow (s : Store) (kind : AutomationKind) (id : String) :
    Except DatabaseError Record :=
  match (s.table kind)[id]? with
  | some row => .ok (loadRow id row)
  | none => .error (.invalid ("unknown behavior: " ++ id))

def setBehaviorEnabled (s : Store) (kind : AutomationKind) (id : String)
    (enabled : Bool) : Except DatabaseError Record × Store :=
  match s.updateEnabled kind id enabled with
  | (false, s) => (.error (.invalid ("unknown behavior: " ++ id)), s)
  | (true, s) => (s.loadBehaviorRow kind id, s)

/-- One transaction; the ids that have no row are reported. -/
def setBehaviorEnabledMany (s : Store) (kind : AutomationKind) :
    List (String × Bool) → List String × Store
  | [] => ([], s)
  | (id, enabled) :: updates =>
    match s.updateEnabled kind id enabled with
    | (true, s) => s.setBehaviorEnabledMany kind updates
    | (false, s) =>
      let (missing, s) := s.setBehaviorEnabledMany kind updates
      (id :: missing, s)

/-- The rules that list an action, with what is to be written. -/
def references (s : Store) (actionId : String) : List (String × Record) :=
  s.events.toList.filterMap fun (id, row) =>
    if refers actionId row.payload
    then some (id, withoutAction actionId row.payload)
    else none

/-- Rewrite one rule, columns and payload. -/
def rewriteRow (s : Store) (id : String) (object : Record) :
    Except DatabaseError Store :=
  match requiredValueString object "name" with
  | .error e => .error e
  | .ok name =>
    match s.events[id]? with
    | none => .ok s
    | some _ =>
      .ok { s with
        events := s.events.insert id ⟨name, enabledOf object, object⟩ }

/-- Rewrite the rules one after the other, up to the first failure. -/
def rewriteRows (s : Store) :
    List (String × Record) → Except DatabaseError Unit × Store
  | [] => (.ok (), s)
  | (id, object) :: updates =>
    match s.rewriteRow id object with
    | .error e => (.error e, s)
    | .ok s => s.rewriteRows updates

def removeActionReferences (s : Store) (actionId : String) :
    Except DatabaseError Unit × Store :=
  s.rewriteRows (s.references actionId)

/-- `DELETE`: whether a row had the id, and the table. -/
def deleteRow (s : Store) (kind : AutomationKind) (id : String) :
    Bool × Store :=
  match (s.table kind)[id]? with
  | some _ => (true, s.setTable kind ((s.table kind).erase id))
  | none => (false, s)

def deleteBehavior (s : Store) (kind : AutomationKind) (id : String) :
    Except DatabaseError Bool × Store :=
  match s.deleteRow kind id, kind with
  | (true, s), .action =>
    match s.removeActionReferences id with
    | (.ok _, s) => (.ok true, s)
    | (.error e, s) => (.error e, s)
  | (removed, s), _ => (.ok removed, s)

/-- What a load finds under an id. -/
def load (s : Store) (kind : AutomationKind) (id : String) :
    Option Record :=
  (s.table kind)[id]?.map (loadRow id)

theorem loadBehaviorRow_eq_ok {s : Store} {id : String} {o : Record} :
    s.loadBehaviorRow kind id = .ok o ↔ s.load kind id = some o
    := by
  unfold loadBehaviorRow load
  cases (s.table kind)[id]? <;> simp

end Store

end TikTools.Automation.Behavior
