/-
Edits of one automation record leave the others alone.

`Expected` says what the store is for, with every fact kept once: a
record under its id, as it was last saved, enabled as was last decided,
without the actions deleted since. The rows of the store refine it
(`Agrees`) until an action is deleted that a rule lists whose enablement
was decided apart from its last save: rewriting the rule takes `enabled`
from the payload, which no enablement call writes.

`agrees_apply_iff` is exact for one operation; `loads_expected_iff` for
every sequence of them.
-/
import TikTools.Automation.Behavior
import TikTools.Lib.Runs

namespace TikTools.Automation.Behavior

open TikTools.Lib List Table

-- ==== what is meant

/-- The records as the operations on them are meant. -/
structure Expected where
  events : Table String Record
  actions : Table String Record

namespace Expected

def empty : Expected := ⟨∅, ∅⟩

def table (e : Expected) : AutomationKind → Table String Record
  | .event => e.events
  | .action => e.actions

def setTable (e : Expected) (kind : AutomationKind)
    (records : Table String Record) : Expected :=
  match kind with
  | .event => { e with events := records }
  | .action => { e with actions := records }

/-- The value is kept as it is, with the enablement it decides. -/
def save (e : Expected) (kind : AutomationKind) (value : Json) :
    Expected :=
  match recordOf value with
  | none => e
  | some object =>
    match requiredValueString object "id",
        requiredValueString object "name" with
    | .ok id, .ok _ =>
      e.setTable kind ((e.table kind).insert id
        (object.insert "enabled" (.bool (enabledOf object))))
    | _, _ => e

/-- Only the enablement of the record changes. -/
def setEnabled (e : Expected) (kind : AutomationKind) (id : String)
    (enabled : Bool) : Expected :=
  match (e.table kind)[id]? with
  | some object =>
    e.setTable kind
      ((e.table kind).insert id (object.insert "enabled" (.bool enabled)))
  | none => e

/-- The record goes, and with an action every mention of it. -/
def delete (e : Expected) (kind : AutomationKind) (id : String) :
    Expected :=
  match (e.table kind)[id]?, kind with
  | none, _ => e
  | some _, .event => { e with events := e.events.erase id }
  | some _, .action =>
    { events := e.events.map fun _ => withoutAction id
      actions := (e.actions.erase id).map fun _ => withoutAction id }

end Expected

-- ==== operations

/-- The operations of the store. -/
inductive Operation where
  | save (kind : AutomationKind) (value : Json)
  | setEnabled (kind : AutomationKind) (id : String) (enabled : Bool)
  | setEnabledMany (kind : AutomationKind) (updates : List (String × Bool))
  | delete (kind : AutomationKind) (id : String)

/-- What an operation leaves of the store. -/
def Store.apply (s : Store) : Operation → Store
  | .save kind value => (s.saveBehavior kind value).2
  | .setEnabled kind id enabled => (s.setBehaviorEnabled kind id enabled).2
  | .setEnabledMany kind updates =>
    (s.setBehaviorEnabledMany kind updates).2
  | .delete kind id => (s.deleteBehavior kind id).2

/-- What it is meant to leave. -/
def Expected.apply (e : Expected) : Operation → Expected
  | .save kind value => e.save kind value
  | .setEnabled kind id enabled => e.setEnabled kind id enabled
  | .setEnabledMany kind updates =>
    updates.foldl (fun e update => e.setEnabled kind update.1 update.2) e
  | .delete kind id => e.delete kind id

/-- Every record loads as it is meant. -/
def LoadsExpected (s : Store) (e : Expected) : Prop :=
  ∀ kind id, s.load kind id = (e.table kind)[id]?

/-- Deleting an action is safe when every rule that lists it is enabled
as it was last saved, and no other action lists it. -/
def DeletionOk (s : Store) (actionId : String) : Prop :=
  (∀ (id : String) (row : Row), s.events[id]? = some row →
      refers actionId row.payload → enabledOf row.payload = row.enabled)
    ∧ ∀ (id : String) (row : Row), id ≠ actionId →
      s.actions[id]? = some row → refers actionId row.payload = false

/-- The operations that keep the records as they are meant. -/
def OperationOk (s : Store) : Operation → Prop
  | .delete .action id =>
    (s.actions[id]?).isSome → DeletionOk s id
  | _ => True

-- ==== members of a record

variable {object : Record} {row : Row} {actionId key id : String}

theorem withoutAction_of_not_refers (h : refers actionId object = false) :
    withoutAction actionId object = object := by
  unfold withoutAction
  cases hget : object["actionIds"]? with
  | none => rfl
  | some v =>
    cases v with
    | array ids =>
      have ha : ids.filter (fun va => !isId actionId va) = ids
          := by
        rw [filter_eq_self]
        intro va hm
        simp only [refers, hget, any_eq_false] at h
        simpa using h va hm
      show object.insert "actionIds" (.array (ids.filter _)) = object
      rw [ha]
      exact insert_same object hget
    | null | bool | number | string | object => rfl

theorem withoutAction_ne_of_refers (h : refers actionId object = true) :
    withoutAction actionId object ≠ object := by
  unfold refers at h
  cases hget : object["actionIds"]? with
  | none => simp [hget] at h
  | some v =>
    cases v with
    | array ids =>
      simp only [hget] at h
      intro heq
      have hids : (withoutAction actionId object)["actionIds"]?
          = some (.array ids) := by rw [heq, hget]
      simp only [withoutAction, hget, get_insert_self,
        Option.some_inj, Json.array.injEq, filter_eq_self] at hids
      obtain ⟨va, hm, hid⟩ := any_eq_true.1 h
      simpa [hid] using hids va hm
    | null | bool | number | string | object => simp [hget] at h

theorem get_withoutAction (object : Record) (hk : key ≠ "actionIds") :
    (withoutAction actionId object)[key]? = object[key]? := by
  unfold withoutAction
  cases hget : object["actionIds"]? with
  | none => rfl
  | some v =>
    cases v with
    | array ids => exact get_insert_ne _ _ (Ne.symm hk)
    | null | bool | number | string | object => rfl

theorem enabledOf_withoutAction (actionId : String) (object : Record) :
    enabledOf (withoutAction actionId object) = enabledOf object := by
  unfold enabledOf
  rw [get_withoutAction object (by decide)]

theorem insert_comm (object : Record) {o : String} (v w : Json)
    (h : key ≠ o) :
    (object.insert key v).insert o w = (object.insert o w).insert key v := by
  refine Table.ext fun k => ?_
  simp only [get_insert]
  by_cases hk : key = k
  · subst hk
    simp [Ne.symm h]
  · simp [hk]

theorem insert_insert (object : Record) (key : String) (v w : Json) :
    (object.insert key v).insert key w = object.insert key w := by
  refine Table.ext fun k => ?_
  simp only [get_insert]
  by_cases hk : key = k <;> simp [hk]

theorem withoutAction_insert_enabled (actionId : String)
    (object : Record) (v : Json) :
    withoutAction actionId (object.insert "enabled" v)
      = (withoutAction actionId object).insert "enabled" v := by
  have hget : (object.insert "enabled" v)["actionIds"]?
      = object["actionIds"]? := get_insert_ne _ _ (by decide)
  unfold withoutAction
  rw [hget]
  cases object["actionIds"]? with
  | none => rfl
  | some w =>
    cases w with
    | array ids => exact insert_comm object _ _ (by decide)
    | null | bool | number | string | object => rfl

-- ==== rows

theorem requiredValueString_eq_ok {va : String} :
    requiredValueString object key = .ok va
      ↔ object[key]? = some (.string va) ∧ trim va.toList ≠ [] := by
  unfold requiredValueString
  cases hget : object[key]? with
  | none => simp
  | some v =>
    cases v with
    | string t =>
      by_cases hb : trim t.toList = []
      · simp only [Option.bind_some, Json.asStr, if_pos hb,
          reduceCtorEq, Option.some_inj, Json.string.injEq, false_iff,
          not_and, not_not]
        rintro rfl
        exact hb
      · simp only [Option.bind_some, Json.asStr, if_neg hb,
          Except.ok.injEq, Option.some_inj, Json.string.injEq]
        constructor
        · rintro rfl
          exact ⟨rfl, hb⟩
        · exact fun h => h.1
    | null | bool | number | array | object => simp [Json.asStr]

/-- The columns of a row agree with its payload, but for `enabled`. -/
structure RowWf (id : String) (row : Row) : Prop where
  id : row.payload["id"]? = some (.string id)
  name : requiredValueString row.payload "name" = .ok row.name

theorem RowWf.loadRow (h : RowWf id row) :
    loadRow id row = row.payload.insert "enabled" (.bool row.enabled) := by
  have hn := (requiredValueString_eq_ok.1 h.name).1
  unfold Behavior.loadRow
  rw [insert_same row.payload h.id, insert_same _ hn]

/-- A rule rewritten without an action. -/
def Row.withoutAction (actionId : String) (row : Row) : Row :=
  { row with
    enabled := enabledOf row.payload
    payload := Behavior.withoutAction actionId row.payload }

theorem RowWf.withoutAction (h : RowWf id row)
    (actionId : String) : RowWf id (row.withoutAction actionId) where
  id := by
    rw [← h.id]
    exact get_withoutAction row.payload (by decide)
  name := by
    have hn := requiredValueString_eq_ok.1 h.name
    refine requiredValueString_eq_ok.2 ⟨?_, hn.2⟩
    exact (get_withoutAction row.payload (by decide)).trans hn.1

/-- What a rule rewritten without an action loads as, against what it is
meant to load as. -/
theorem loadRow_withoutAction_iff (h : RowWf id row) (actionId : String) :
    loadRow id (row.withoutAction actionId)
        = withoutAction actionId (loadRow id row)
      ↔ enabledOf row.payload = row.enabled := by
  rw [(h.withoutAction actionId).loadRow, h.loadRow,
    withoutAction_insert_enabled]
  constructor
  · intro heq
    have hmm := congrArg (fun object : Record => object["enabled"]?) heq
    simpa [Row.withoutAction] using hmm
  · intro heq
    show (Behavior.withoutAction actionId row.payload).insert "enabled"
        (.bool (enabledOf row.payload)) = _
    rw [heq]

-- ==== invariant

/-- The rows of a store are in order. -/
def Store.Wf (s : Store) : Prop :=
  ∀ kind id row, (s.table kind)[id]? = some row → RowWf id row

/-- The rows are in order and load as they are meant. -/
structure Agrees (s : Store) (e : Expected) : Prop where
  wf : s.Wf
  loads : LoadsExpected s e

variable (kind : AutomationKind)

namespace Agrees

variable {s : Store} {e : Expected}

theorem empty : Agrees Store.empty Expected.empty where
  wf := by
    intro kind id row h
    cases kind <;> simp [Store.empty, Store.table] at h
  loads := by
    intro kind id
    cases kind <;> simp [Store.empty, Expected.empty, Store.load,
      Store.table, Expected.table]

theorem write (h : Agrees s e) (kind : AutomationKind) (hwf : RowWf id row)
    (hl : loadRow id row = object) :
    Agrees (s.setTable kind ((s.table kind).insert id row))
      (e.setTable kind ((e.table kind).insert id object)) where
  wf := by
    intro k' id' row' hrow
    by_cases hk : kind = k'
    · subst hk
      rw [Store.table_setTable_self, get_insert] at hrow
      by_cases hid : id = id'
      · rw [if_pos hid, Option.some_inj] at hrow
        subst hid
        subst hrow
        exact hwf
      · rw [if_neg hid] at hrow
        exact h.wf kind id' row' hrow
    · rw [Store.table_setTable_ne _ _ hk] at hrow
      exact h.wf k' id' row' hrow
  loads := by
    intro k' id'
    have ho := h.loads k' id'
    unfold Store.load at ho ⊢
    cases kind <;> cases k' <;>
      simp only [Store.setTable, Store.table, Expected.setTable,
        Expected.table] at ho ⊢ <;>
      first
        | exact ho
        | (rw [get_insert, get_insert]
           by_cases hid : id = id'
           · subst hid
             simp [hl]
           · simp only [if_neg hid]
             exact ho)

theorem save (h : Agrees s e) (kind : AutomationKind) (value : Json) :
    Agrees (s.saveBehavior kind value).2 (e.save kind value) := by
  unfold Store.saveBehavior Expected.save
  cases recordOf value with
  | none => exact h
  | some object =>
    cases hid : requiredValueString object "id" with
    | error _ => simpa only [hid] using h
    | ok id =>
      cases hn : requiredValueString object "name" with
      | error _ => simpa only [hid, hn] using h
      | ok name =>
        simp only [hid, hn]
        have hwf : RowWf id ⟨name, enabledOf object, object⟩ :=
          ⟨(requiredValueString_eq_ok.1 hid).1, hn⟩
        exact h.write kind hwf hwf.loadRow

theorem updateEnabled (h : Agrees s e) (kind : AutomationKind)
    (id : String) (en : Bool) :
    Agrees (s.updateEnabled kind id en).2 (e.setEnabled kind id en) := by
  have hl := h.loads kind id
  unfold Store.updateEnabled Expected.setEnabled
  unfold Store.load at hl
  cases hrow : (s.table kind)[id]? with
  | none =>
    rw [hrow] at hl
    simpa only [← hl, Option.map_none] using h
  | some row =>
    rw [hrow] at hl
    simp only [← hl, Option.map_some]
    have hwf := h.wf kind id row hrow
    have hwf' : RowWf id { row with enabled := en } := ⟨hwf.id, hwf.name⟩
    refine h.write kind hwf' ?_
    rw [hwf'.loadRow, hwf.loadRow, insert_insert]

theorem setEnabled (h : Agrees s e) (kind : AutomationKind) (id : String)
    (en : Bool) :
    Agrees (s.setBehaviorEnabled kind id en).2 (e.setEnabled kind id en) := by
  have hupd := h.updateEnabled kind id en
  unfold Store.setBehaviorEnabled
  cases hres : s.updateEnabled kind id en with
  | mk f s' =>
    rw [hres] at hupd
    cases f <;> exact hupd

theorem setEnabledMany (u : List (String × Bool)) :
    ∀ {s : Store} {e : Expected}, Agrees s e →
      Agrees (s.setBehaviorEnabledMany kind u).2
        (u.foldl
          (fun e update => e.setEnabled kind update.1 update.2) e) := by
  induction u with
  | nil => exact fun h => h
  | cons update u ih =>
    intro s e h
    obtain ⟨id, en⟩ := update
    have hupd := h.updateEnabled kind id en
    unfold Store.setBehaviorEnabledMany
    cases hres : s.updateEnabled kind id en with
    | mk found s' =>
      rw [hres] at hupd
      cases found <;> exact ih hupd

end Agrees

-- ==== deleting an action

theorem rewriteRows_spec (actionId : String)
    (u : List (String × Record)) :
    ∀ s : Store, (u.map Prod.fst).Nodup →
      (∀ id object, (id, object) ∈ u →
        ∃ row, s.events[id]? = some row ∧ RowWf id row
          ∧ object = withoutAction actionId row.payload) →
      (s.rewriteRows u).1 = .ok ()
        ∧ (s.rewriteRows u).2.actions = s.actions
        ∧ ∀ k : String, (s.rewriteRows u).2.events[k]?
          = s.events[k]?.map fun row =>
            if k ∈ u.map Prod.fst then row.withoutAction actionId
            else row := by
  induction u with
  | nil =>
    intro s _ _
    refine ⟨rfl, rfl, fun k => ?_⟩
    simp [Store.rewriteRows]
  | cons up u ih =>
    intro s hnd hrw
    obtain ⟨id, object⟩ := up
    obtain ⟨hf, hn'⟩ := nodup_cons.1 hnd
    obtain ⟨row, hrow, hwf, ho⟩ := hrw id object mem_cons_self
    have hr : s.rewriteRow id object = .ok { s with
        events := s.events.insert id (row.withoutAction actionId) } := by
      have hn := (hwf.withoutAction actionId).name
      simp only [Row.withoutAction] at hn
      simp only [ho, Store.rewriteRow, hn, hrow, enabledOf_withoutAction]
      rfl
    simp only [Store.rewriteRows, hr]
    have hrs : ∀ id' object, (id', object) ∈ u → id ≠ id' := by
      rintro id' o' hmem rfl
      exact hf (mem_map.2 ⟨(id, o'), hmem, rfl⟩)
    obtain ⟨hok, ha, hevs⟩ := ih
      { s with events := s.events.insert id (row.withoutAction actionId) }
      hn' (by
        intro id' object hmem
        obtain ⟨row', hrow', hr'⟩ := hrw id' object (mem_cons_of_mem _ hmem)
        refine ⟨row', ?_, hr'⟩
        rw [get_insert_ne _ _ (hrs id' object hmem)]
        exact hrow')
    refine ⟨hok, ha, fun k => ?_⟩
    rw [hevs k, get_insert]
    by_cases hk : id = k
    · subst hk
      have hout : id ∉ u.map Prod.fst := hf
      simp only [if_true, Option.map_some, if_neg hout, hrow,
        map_cons, mem_cons, true_or]
    · simp only [if_neg hk, map_cons, mem_cons, Ne.symm hk, false_or]

theorem keys_filterMap_sublist {α β : Type}
    {f : String × α → Option (String × β)}
    (hk : ∀ kv u, f kv = some u → u.1 = kv.1) (l : List (String × α)) :
    ((l.filterMap f).map Prod.fst).Sublist (l.map Prod.fst) := by
  induction l with
  | nil => exact List.Sublist.refl _
  | cons kv l ih =>
    cases hkv : f kv with
    | none =>
      rw [filterMap_cons_none hkv, map_cons]
      exact ih.cons _
    | some u =>
      rw [filterMap_cons_some hkv, map_cons, map_cons, hk kv u hkv]
      exact ih.cons_cons _

theorem removeActionReferences_spec {s : Store} (actionId : String)
    (hwf : ∀ (id : String) (row : Row), s.events[id]? = some row →
      RowWf id row) :
    (s.removeActionReferences actionId).1 = .ok ()
      ∧ (s.removeActionReferences actionId).2.actions = s.actions
      ∧ ∀ k : String, (s.removeActionReferences actionId).2.events[k]?
        = s.events[k]?.map fun row =>
          if refers actionId row.payload then row.withoutAction actionId
          else row := by
  have hmem : ∀ id object, (id, object) ∈ s.references actionId ↔
      ∃ row, s.events[id]? = some row ∧ refers actionId row.payload = true
        ∧ object = withoutAction actionId row.payload := by
    intro id object
    simp only [Store.references, mem_filterMap, Prod.exists, mem_toList]
    constructor
    · rintro ⟨id', row, hrow, hs⟩
      by_cases hr : refers actionId row.payload = true
      · rw [if_pos hr, Option.some_inj, Prod.mk.injEq] at hs
        obtain ⟨rfl, rfl⟩ := hs
        exact ⟨row, hrow, hr, rfl⟩
      · rw [if_neg hr] at hs
        cases hs
    · rintro ⟨row, hrow, hr, rfl⟩
      exact ⟨id, row, hrow, by rw [if_pos hr]⟩
  have hn : ((s.references actionId).map Prod.fst).Nodup := by
    refine (keys_filterMap_sublist ?_ _).nodup (keys_toList_nodup s.events)
    rintro ⟨id, row⟩ u hu
    by_cases hr : refers actionId row.payload = true
    · simp only [if_pos hr, Option.some_inj] at hu
      rw [← hu]
    · simp only [if_neg hr] at hu
      cases hu
  obtain ⟨hok, ha, he⟩ :=
    rewriteRows_spec actionId (s.references actionId) s hn
      (fun id object hin => by
        obtain ⟨row, hrow, -, heq⟩ := (hmem id object).1 hin
        exact ⟨row, hrow, hwf id row hrow, heq⟩)
  refine ⟨hok, ha, fun k => ?_⟩
  show (s.rewriteRows _).2.events[k]? = _
  rw [he k]
  cases hrow : s.events[k]? with
  | none => rfl
  | some row =>
    have hl : k ∈ (s.references actionId).map Prod.fst
        ↔ refers actionId row.payload = true := by
      rw [mem_map]
      constructor
      · rintro ⟨⟨id, object⟩, hin, rfl⟩
        obtain ⟨row', h', hr, -⟩ := (hmem id object).1 hin
        rw [hrow, Option.some_inj] at h'
        rwa [h']
      · intro hr
        exact ⟨(k, _), (hmem k _).2 ⟨row, hrow, hr, rfl⟩, rfl⟩
    simp only [Option.map_some, hl]

theorem refers_insert_enabled (actionId : String) (object : Record)
    (v : Json) :
    refers actionId (object.insert "enabled" v) = refers actionId object := by
  unfold refers
  rw [get_insert_ne _ _ (by decide)]

theorem RowWf.refers_loadRow (h : RowWf id row) (actionId : String) :
    refers actionId (Behavior.loadRow id row)
      = refers actionId row.payload := by
  rw [h.loadRow, refers_insert_enabled]

namespace Agrees

variable {s : Store} {e : Expected}

section

variable (h : Agrees s e)
include h

theorem expected (hrow : (s.table kind)[id]? = some row) :
    (e.table kind)[id]? = some (loadRow id row) := by
  rw [← h.loads kind id, Store.load, hrow, Option.map_some]

theorem expected_none (hrow : (s.table kind)[id]? = none) :
    (e.table kind)[id]? = none := by
  rw [← h.loads kind id, Store.load, hrow, Option.map_none]

theorem deleteEvent (id : String) :
    Agrees (s.deleteBehavior .event id).2 (e.delete .event id) := by
  unfold Store.deleteBehavior Store.deleteRow Expected.delete
  cases hrow : (s.table .event)[id]? with
  | none => simpa only [hrow, h.expected_none .event hrow] using h
  | some row =>
    simp only [h.expected .event hrow]
    constructor
    · intro kind id' row' hrow'
      cases kind with
      | action => exact h.wf .action id' row' hrow'
      | event =>
        simp only [Store.setTable, Store.table, get_erase] at hrow'
        by_cases hid : id = id'
        · simp [hid] at hrow'
        · rw [if_neg hid] at hrow'
          exact h.wf .event id' row' hrow'
    · intro kind id'
      cases kind with
      | action => exact h.loads .action id'
      | event =>
        have ho := h.loads .event id'
        simp only [Store.load, Store.setTable, Store.table,
          Expected.table, get_erase] at ho ⊢
        by_cases hid : id = id'
        · simp [hid]
        · rwa [if_neg hid, if_neg hid]

section

variable (hrow : s.actions[id]? = some row)
include hrow

theorem deleteAction_spec :
    (s.deleteBehavior .action id).2.actions = s.actions.erase id
      ∧ ∀ k : String, (s.deleteBehavior .action id).2.events[k]?
        = s.events[k]?.map fun row =>
          if refers id row.payload then row.withoutAction id else row := by
  have hd : s.deleteRow .action id
      = (true, { s with actions := s.actions.erase id }) := by
    unfold Store.deleteRow
    simp only [Store.table, hrow, Store.setTable]
  obtain ⟨hok, ha, hevs⟩ := removeActionReferences_spec
    (s := { s with actions := s.actions.erase id }) id (h.wf .event)
  unfold Store.deleteBehavior
  cases hres : Store.removeActionReferences
      { s with actions := s.actions.erase id } id with
  | mk result s' =>
    rw [hres] at hok ha hevs
    subst hok
    simp only [hd, hres]
    exact ⟨ha, hevs⟩

theorem wf_deleteAction :
    (s.deleteBehavior .action id).2.Wf := by
  obtain ⟨ha, he⟩ := h.deleteAction_spec hrow
  intro kind id' row' h'
  cases kind with
  | action =>
    simp only [Store.table, ha, get_erase] at h'
    by_cases hid : id = id'
    · simp [hid] at h'
    · rw [if_neg hid] at h'
      exact h.wf .action id' row' h'
  | event =>
    simp only [Store.table, he] at h'
    obtain ⟨row₀, hrow₀, rfl⟩ := Option.map_eq_some_iff.1 h'
    have hwf := h.wf .event id' row₀ hrow₀
    by_cases hr : refers id row₀.payload = true
    · rw [if_pos hr]
      exact hwf.withoutAction id
    · rwa [if_neg hr]

/-- Deleting an existing action keeps every other record as it is meant
exactly when the deletion is safe. -/
theorem deleteAction_iff :
    Agrees (s.deleteBehavior .action id).2 (e.delete .action id)
      ↔ DeletionOk s id := by
  obtain ⟨hac, hevs⟩ := h.deleteAction_spec hrow
  have hwf' := h.wf_deleteAction hrow
  have hed : e.delete .action id
      = { events := e.events.map fun _ => withoutAction id
          actions := (e.actions.erase id).map fun _ => withoutAction id }
      := by
    unfold Expected.delete
    rw [h.expected .action hrow]
  rw [hed]
  generalize (s.deleteBehavior .action id).2 = s' at hac hevs hwf'
  constructor
  · intro haf
    constructor
    · intro eid erow hew hr
      have hl := haf.loads .event eid
      have hbef := h.expected .event hew
      simp only [Store.load, Store.table, Expected.table, hevs, hew,
        Option.map_some, if_pos hr, get_map] at hl hbef
      rw [hbef, Option.map_some, Option.some_inj] at hl
      exact (loadRow_withoutAction_iff (h.wf .event eid erow hew) id).1 hl
    · intro aid arow hne ha
      have hl := haf.loads .action aid
      have hbef := h.expected .action ha
      simp only [Store.load, Store.table, Expected.table, hac,
        get_map, get_erase_ne _ (Ne.symm hne), ha,
        Option.map_some] at hl hbef
      rw [hbef, Option.map_some, Option.some_inj] at hl
      cases hr : refers id arow.payload with
      | false => rfl
      | true =>
        have hwf := h.wf .action aid arow ha
        exact absurd hl.symm (withoutAction_ne_of_refers
          ((hwf.refers_loadRow id).trans hr))
  · rintro ⟨hev, han⟩
    constructor
    · exact hwf'
    · intro kind id'
      cases kind with
      | action =>
        simp only [Store.load, Store.table, Expected.table, hac,
          get_map, get_erase]
        by_cases hid : id = id'
        · simp [hid]
        · rw [if_neg hid, if_neg hid]
          cases ha : s.actions[id']? with
          | none =>
            have hn := h.expected_none .action ha
            simp only [Expected.table] at hn
            rw [hn]
            rfl
          | some arow =>
            have hbef := h.expected .action ha
            simp only [Expected.table] at hbef
            have hwf := h.wf .action id' arow ha
            have hr := han id' arow (Ne.symm hid) ha
            rw [hbef, Option.map_some, Option.map_some,
              withoutAction_of_not_refers ((hwf.refers_loadRow id).trans hr)]
      | event =>
        simp only [Store.load, Store.table, Expected.table, hevs, get_map]
        cases hew : s.events[id']? with
        | none =>
          have hn := h.expected_none .event hew
          simp only [Expected.table] at hn
          rw [hn]
          rfl
        | some erow =>
          have hbef := h.expected .event hew
          simp only [Expected.table] at hbef
          have hwf := h.wf .event id' erow hew
          rw [hbef, Option.map_some, Option.map_some, Option.map_some,
            Option.some_inj]
          cases hr : refers id erow.payload with
          | true =>
            exact (loadRow_withoutAction_iff hwf id).2 (hev id' erow hew hr)
          | false =>
            rw [if_neg (by simp), withoutAction_of_not_refers
              ((hwf.refers_loadRow id).trans hr)]

end

/-- An operation keeps the records as they are meant exactly if it is
one of those admitted. -/
theorem apply_iff (op : Operation) :
    Agrees (s.apply op) (e.apply op) ↔ OperationOk s op := by
  cases op with
  | save kind value => exact iff_of_true (h.save kind value) trivial
  | setEnabled kind id enabled =>
    exact iff_of_true (h.setEnabled kind id enabled) trivial
  | setEnabledMany kind updates =>
    exact iff_of_true (setEnabledMany kind updates h) trivial
  | delete kind id =>
    cases kind with
    | event => exact iff_of_true (h.deleteEvent id) trivial
    | action =>
      cases hrow : s.actions[id]? with
      | some row =>
        have hsm : (s.actions[id]?).isSome = true := by simp [hrow]
        simp only [OperationOk, hsm, forall_const]
        exact h.deleteAction_iff hrow
      | none =>
        have hs : Agrees (s.apply (.delete .action id))
            (e.apply (.delete .action id)) := by
          have hn := h.expected_none .action hrow
          simpa [Store.apply, Expected.apply, Store.deleteBehavior,
            Store.deleteRow, Store.table, hrow, Expected.delete,
            hn] using h
        exact iff_of_true hs (by simp [OperationOk, hrow])

end

theorem of_wf {s : Store} (h : s.Wf) :
    Agrees s ⟨s.events.map loadRow, s.actions.map loadRow⟩ where
  wf := h
  loads := by
    intro kind id
    cases kind <;> simp only [Store.load, Store.table, Expected.table,
      get_map]

end Agrees

theorem Store.Wf.apply {s : Store} (h : s.Wf) (op : Operation) :
    (s.apply op).Wf := by
  have hown := Agrees.of_wf h
  cases hop : op with
  | delete kind id =>
    cases kind with
    | event => exact (hown.deleteEvent id).wf
    | action =>
      cases hrow : s.actions[id]? with
      | some row => exact hown.wf_deleteAction hrow
      | none =>
        refine ((hown.apply_iff (.delete .action id)).2 ?_).wf
        simp [OperationOk, hrow]
  | save kind v => exact (hown.save kind v).wf
  | setEnabled kind id en => exact (hown.setEnabled kind id en).wf
  | setEnabledMany kind u =>
    exact (Agrees.setEnabledMany kind u hown).wf

-- ==== over every sequence

/-- The store and what is meant by it, after one operation. -/
def step (state : Store × Expected) (op : Operation) :
    Option (Store × Expected) :=
  some (state.1.apply op, state.2.apply op)

/-- Nothing is stored yet. -/
def start : Store × Expected := (.empty, .empty)

/-- After every sequence of operations every record loads as it is meant,
if and only if every action was deleted while the rules listing it were
enabled as last saved and no other action listed it. -/
theorem loads_expected_iff (ops : List Operation) :
    (∀ t, Reaches step start ops t → LoadsExpected t.1 t.2)
      ↔ ∀ before op after t u, ops = before ++ op :: after →
        runActions step start before = some t →
        step t op = some u → OperationOk t.1 op := by
  have hwf : ∀ (t : Store × Expected) op u, t.1.Wf → step t op = some u →
      u.1.Wf := by
    intro t op u h hs
    obtain rfl := Option.some.inj hs
    exact h.apply op
  refine reaches_iff_within (fun t : Store × Expected => t.1.Wf)
    (fun t : Store × Expected => LoadsExpected t.1 t.2) Agrees.empty.wf Agrees.empty.loads hwf
    ?_ ops
  intro t op u h hl hs
  obtain rfl := Option.some.inj hs
  rw [← Agrees.apply_iff ⟨h, hl⟩ op]
  exact ⟨fun ha => ⟨h.apply op, ha⟩, fun ha => ha.loads⟩

-- ---- where it goes wrong

def savedAction : Json := .object [("id", .string "a"), ("name", .string "A")]

def savedRule : Json :=
  .object [("actionIds", .array [.string "a"]), ("enabled", .bool true),
    ("id", .string "r"), ("name", .string "R")]

/-- A rule is saved enabled and then disabled; its action is deleted. -/
def disabledRun : List Operation :=
  [.save .action savedAction, .save .event savedRule,
    .setEnabled .event "r" false, .delete .action "a"]

/-- Deleting the action enables the rule again. -/
theorem deleting_action_enables_rule :
    ∃ t, Reaches step start disabledRun t ∧ ¬ LoadsExpected t.1 t.2 := by
  have hrun : (runActions step start disabledRun).map (fun t =>
      ((t.1.load .event "r").map enabledOf,
        (t.2.events["r"]?).map enabledOf)) = some (some true, some false) := by
    decide +kernel
  obtain ⟨t, ht, hp⟩ := Option.map_eq_some_iff.1 hrun
  refine ⟨t, ⟨disabledRun, [], (append_nil _).symm, ht⟩, ?_⟩
  intro hl
  have hs := hl .event "r"
  simp only [Expected.table] at hs
  rw [hs, Prod.mk.injEq] at hp
  rw [hp.1] at hp
  simp at hp

end TikTools.Automation.Behavior
