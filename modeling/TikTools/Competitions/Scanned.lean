/-
The routing index answers what a scan of the registered definitions
answers.

`Mirrors` says what every table of the index holds, in terms of the
competitions registered now: the keys of their commands and sources, and
under each key the option or the mark of each competition. Removing and
filing keep it, and a call is made of the two.
-/
import Mathlib.Data.List.Nodup
import TikTools.Competitions.CommandIndex

namespace TikTools.Competitions

open TikTools.Lib List Table Effect

variable {lower : String → String}

-- ==== commands

theorem Definition.find_commandRoutes (d : Definition)
    (co : String) :
    ((d.commandRoutes lower).find? fun row =>
        row.1 = co).map Prod.snd
      = (d.options.find? fun o =>
          o.commands.any fun c =>
            lower c == co).map (·.id) := by
  unfold commandRoutes
  induction d.options with
  | nil => rfl
  | cons o rest ih =>
    rw [flatMap_cons, find?_append]
    have hown : (o.commands.map fun c =>
          (lower c, o.id)).find? (fun row =>
            row.1 = co)
        = (o.commands.find? fun c =>
            lower c == co).map fun c =>
              (lower c, o.id) := by
      rw [find?_map]
      rfl
    rw [hown]
    cases hf : o.commands.find? fun c =>
        lower c == co with
    | some c =>
      have hs := find?_some hf
      have hany : (o.commands.any fun c =>
          lower c == co) = true :=
        any_eq_true.2 ⟨c, mem_of_find?_eq_some hf, hs⟩
      rw [find?_cons, hany]
      rfl
    | none =>
      have hany : (o.commands.any fun c =>
          lower c == co) = false := by
        rw [any_eq_false]
        exact find?_eq_none.1 hf
      rw [find?_cons, hany]
      exact ih

variable {room creator : String}

theorem routeKey_inj {name c' room' name' : String} :
    routeKey creator room name = routeKey c' room' name'
      ↔ creator = c' ∧ room = room' ∧ name = name' := by
  unfold routeKey
  rw [toLex_inj, Prod.mk.injEq, toLex_inj, Prod.mk.injEq]

/-- What a competition has filed. -/
def Registered.rows (lower : String → String) (entry : Registered) :
    List (RouteKey × String) :=
  (entry.definition.commandRoutes lower).map fun row =>
    (routeKey entry.creator entry.room row.1, row.2)

variable {entry : Registered}

theorem Registered.rows_once (h : entry.definition.validate lower = .ok ()) :
    ((entry.rows lower).map Prod.fst).Nodup := by
  obtain ⟨-, h⟩ := ensure_ok.1 h
  obtain ⟨-, ho, -⟩ := ensure_eq_ok.1 h
  have hc : (entry.definition.commandRoutes lower).map Prod.fst
      = (entry.definition.options.flatMap (·.commands)).map lower := by
    unfold Definition.commandRoutes
    rw [map_flatMap, map_flatMap]
    refine flatMap_congr fun option _ => ?_
    rw [map_map]
    rfl
  have hk : (entry.rows lower).map Prod.fst
      = ((entry.definition.commandRoutes lower).map Prod.fst).map
          (routeKey entry.creator entry.room) := by
    unfold Registered.rows
    rw [map_map, map_map]
    rfl
  rw [hk, hc]
  exact List.Nodup.map (fun _ _ hs => (routeKey_inj.1 hs).2.2) ho

/-- Under the key of a comment, a competition has filed the option its
definition accepts the comment for. -/
theorem Registered.find_rows (entry : Registered)
    (creator room c : String) :
    ((entry.rows lower).find? fun row =>
        row.1 = routeKey creator room c).map Prod.snd
      = if entry.creator = creator ∧ entry.room = room then
          (entry.definition.options.find? fun o =>
            o.commands.any fun ca =>
              lower ca == c).map (·.id)
        else none := by
  unfold Registered.rows
  rw [find?_map, Option.map_map]
  split
  · next hs =>
    rw [← Definition.find_commandRoutes]
    have hsm : ((fun row : RouteKey × String =>
          decide (row.1 = routeKey creator room c))
        ∘ fun row : String × String =>
          (routeKey entry.creator entry.room row.1, row.2))
        = fun row => decide (row.1 = c) := by
      funext row
      refine decide_eq_decide.2 ?_
      rw [routeKey_inj]
      exact ⟨fun h => h.2.2, fun h => ⟨hs.1, hs.2, h⟩⟩
    rw [hsm]
    rfl
  · next hs =>
    rw [find?_eq_none.2]
    · rfl
    · intro row _ hsm
      have hkey := routeKey_inj.1 (of_decide_eq_true hsm)
      exact hs ⟨hkey.1, hkey.2.1⟩

-- ==== sources

theorem mem_sourceKeys {s : List String} {key : RouteKey} :
    key ∈ CommandIndex.sourceKeys creator room s
      ↔ ∃ so ∈ s, routeKey creator room so = key := by
  have hf : ∀ (r : List String) (k : Table RouteKey Unit),
      (r.foldl (fun k so =>
          k.insert (routeKey creator room so) ()) k)[key]? ≠ none
        ↔ k[key]? ≠ none ∨ ∃ so ∈ r, routeKey creator room so = key := by
    intro r
    induction r with
    | nil => simp
    | cons so r ih =>
      intro k
      rw [foldl_cons, ih, get_insert, exists_mem_cons_iff]
      by_cases hs : routeKey creator room so = key
      · rw [if_pos hs]
        exact iff_of_true (.inl (Option.some_ne_none _)) (.inr (.inl hs))
      · rw [if_neg hs]
        refine or_congr_right ?_
        exact ⟨.inr, fun h => h.resolve_left hs⟩
  constructor
  · intro hin
    obtain ⟨⟨found, u⟩, hm, rfl⟩ := mem_map.1 hin
    refine ((hf s ∅).1 ?_).resolve_left fun hsm =>
      hsm Std.ExtTreeMap.getElem?_empty
    rw [mem_toList.1 hm]
    exact Option.some_ne_none _
  · intro hsrc
    obtain ⟨u, hu⟩ := Option.ne_none_iff_exists'.1 ((hf s ∅).2 (.inr hsrc))
    exact mem_map.2 ⟨(key, u), mem_toList.2 hu, rfl⟩

theorem sourceKeys_once (creator room : String) (s : List String) :
    (CommandIndex.sourceKeys creator room s).Nodup :=
  keys_toList_nodup _

/-- The keys a competition's sources are filed under. -/
def Registered.sourceKeys (entry : Registered) : Option (List RouteKey) :=
  entry.sources.map fun (creator, room, sources) =>
    CommandIndex.sourceKeys creator room sources

/-- The mark of a competition under the key of a source. -/
def Registered.marked (entry : Registered) (key : RouteKey) :
    Option Unit :=
  entry.sourceKeys.bind fun keys => if key ∈ keys then some () else none

theorem Registered.marked_listens (entry : Registered)
    (creator room s : String) :
    entry.marked (routeKey creator room s)
      = if entry.listens creator room s then some () else none := by
  unfold marked sourceKeys listens
  cases entry.sources with
  | none => rfl
  | some given =>
    refine if_congr ?_ rfl rfl
    rw [mem_sourceKeys]
    simp only [Option.any_some, Bool.and_eq_true, decide_eq_true_eq,
      contains_iff_mem]
    constructor
    · rintro ⟨found, hf, hkey⟩
      obtain ⟨hc, hr, rfl⟩ := routeKey_inj.1 hkey
      exact ⟨⟨hc, hr⟩, hf⟩
    · rintro ⟨⟨hc, hr⟩, hf⟩
      exact ⟨s, hf, routeKey_inj.2 ⟨hc, hr, rfl⟩⟩

-- ==== mirrors

/-- What the index holds of the competitions that are registered. -/
structure Mirrors (lower : String → String) (index : CommandIndex)
    (registered : Table String Registered) : Prop where
  valid : ∀ (id : String) (entry : Registered),
    registered[id]? = some entry → entry.definition.validate lower = .ok ()
  registrations : ∀ id : String, index.registrations[id]?
    = registered[id]?.map fun entry =>
        (entry.rows lower).map Prod.fst
  routes : ∀ (key : RouteKey) (id : String),
    index.routes.entry key id
    = registered[id]?.bind fun entry =>
        ((entry.rows lower).find? fun row => row.1 = key).map Prod.snd
  sourceRegistrations : ∀ id : String, index.sourceRegistrations[id]?
    = registered[id]?.bind Registered.sourceKeys
  sourceRoutes : ∀ (key : RouteKey) (id : String),
    index.sourceRoutes.entry key id
    = registered[id]?.bind fun entry => entry.marked key
  live : index.routeCount = index.routes.entries
  sum : index.routeCount
    = registered.sum fun _ entry => (entry.rows lower).length
  limit : index.routeCount ≤ maxRoutes

theorem mirrors_empty : Mirrors lower {} ∅ := by
  have hem : ∀ id : String, (∅ : Table String Registered)[id]? = none :=
    fun _ => Std.ExtTreeMap.getElem?_empty
  refine ⟨?_, ?_, ?_, ?_, ?_, ?_, ?_, Nat.zero_le _⟩
  · intro id entry hen
    cases hen
  · intro id
    exact Std.ExtTreeMap.getElem?_empty
  · intro key id
    exact Buckets.entry_empty key id
  · intro id
    exact Std.ExtTreeMap.getElem?_empty
  · intro key id
    exact Buckets.entry_empty key id
  · exact sum_empty.symm
  · exact sum_empty.symm

variable {index : CommandIndex} {registered : Table String Registered}
  {id : String}

-- ---- removal

theorem dropSources_fields (index : CommandIndex) (id : String) :
    (index.dropSources id).routes = index.routes
      ∧ (index.dropSources id).registrations = index.registrations
      ∧ (index.dropSources id).routeCount = index.routeCount := by
  unfold CommandIndex.dropSources
  split
  · exact ⟨rfl, rfl, rfl⟩
  · exact ⟨rfl, rfl, rfl⟩

theorem dropSources_registrations (index : CommandIndex)
    (id o : String) :
    (index.dropSources id).sourceRegistrations[o]?
      = if id = o then none
        else index.sourceRegistrations[o]? := by
  unfold CommandIndex.dropSources
  cases hk : index.sourceRegistrations[id]? with
  | none =>
    dsimp only
    split
    · next hs => rw [← hs, hk]
    · rfl
  | some keys => exact get_erase _ _ _

section

variable (h : Mirrors lower index registered)
include h

theorem Mirrors.dropSources (id : String) (key : RouteKey) (other : String) :
    (index.dropSources id).sourceRoutes.entry key other
      = if id = other then none
        else index.sourceRoutes.entry key other := by
  have hreg := h.sourceRegistrations id
  unfold CommandIndex.dropSources
  cases hk : index.sourceRegistrations[id]? with
  | none =>
    dsimp only
    split
    · next hs =>
      subst hs
      rw [h.sourceRoutes]
      rw [hk] at hreg
      cases hen : registered[id]? with
      | none => rfl
      | some entry =>
        rw [hen, Option.bind_some] at hreg
        show entry.marked key = none
        unfold Registered.marked
        rw [← hreg]
        rfl
    · rfl
  | some keys =>
    rw [Buckets.entry_drops]
    by_cases hs : id = other
    · subst hs
      rw [if_pos rfl]
      split
      · rfl
      · next habs =>
        rw [h.sourceRoutes]
        rw [hk] at hreg
        cases hen : registered[id]? with
        | none => rfl
        | some entry =>
          rw [hen, Option.bind_some] at hreg
          show entry.marked key = none
          unfold Registered.marked
          rw [← hreg, Option.bind_some, if_neg fun hin => habs ⟨rfl, hin⟩]
    · rw [if_neg hs, if_neg fun hin => hs hin.1]

theorem Mirrors.drops (hen : registered[id]? = some entry) :
    (index.routes.drops id ((entry.rows lower).map Prod.fst)).entries
        + (entry.rows lower).length = index.routes.entries := by
  have hd := Buckets.entries_drops index.routes id
    (Registered.rows_once (h.valid id entry hen)) fun key hk => by
      rw [h.routes, hen, Option.bind_some]
      obtain ⟨row, hr, rfl⟩ := mem_map.1 hk
      intro hn
      rw [Option.map_eq_none_iff, find?_eq_none] at hn
      exact hn row hr (decide_eq_true rfl)
  rwa [length_map] at hd

theorem Mirrors.remove (id : String) :
    Mirrors lower (index.remove id).1 (registered.erase id)
      ∧ ((index.remove id).2 = true ↔ registered[id]? ≠ none) := by
  have hreg := h.registrations id
  unfold CommandIndex.remove
  cases hen : registered[id]? with
  | none =>
    rw [hen] at hreg
    rw [hreg]
    rw [erase_absent _ hen]
    exact ⟨h, by rintro ⟨⟩, fun hsm => absurd rfl hsm⟩
  | some entry =>
    rw [hen, Option.map_some] at hreg
    rw [hreg]
    refine ⟨?_, fun _ => Option.some_ne_none _, fun _ => rfl⟩
    have hd := h.drops hen
    have hlv := h.live
    have hl := h.limit
    have hsum := sum_erase_add (f := fun _ (entry : Registered) =>
      (entry.rows lower).length) registered hen
    have ht := h.sum
    let middle : CommandIndex := { index with
      registrations := index.registrations.erase id
      routeCount := index.routeCount
        - ((entry.rows lower).map Prod.fst).length }
    obtain ⟨hr, hrg, hc⟩ := dropSources_fields middle id
    have hsr : (middle.dropSources id).sourceRoutes
        = (index.dropSources id).sourceRoutes := by
      unfold CommandIndex.dropSources
      dsimp only [middle]
      cases index.sourceRegistrations[id]? with
      | none => rfl
      | some keys => rfl
    have hlen : middle.routeCount
        = index.routeCount - (entry.rows lower).length :=
      congrArg (index.routeCount - ·) (length_map _)
    constructor
    · intro o fo hf
      rw [get_erase] at hf
      split at hf
      · cases hf
      · exact h.valid o fo hf
    · intro o
      rw [hrg, get_erase, get_erase, h.registrations]
      split
      · rfl
      · rfl
    · intro key o
      show ((middle.dropSources id).routes.drops id _).entry key o = _
      rw [hr, Buckets.entry_drops, get_erase, h.routes]
      by_cases hs : id = o
      · subst hs
        rw [if_pos rfl, Option.bind_none]
        split
        · rfl
        · next habs =>
          rw [hen, Option.bind_some,
            find?_eq_none.2 fun row hrow hkey => habs
              ⟨rfl, mem_map.2 ⟨row, hrow, of_decide_eq_true hkey⟩⟩]
          rfl
      · rw [if_neg hs, if_neg fun hin => hs hin.1]
    · intro o
      rw [dropSources_registrations, get_erase]
      split
      · rfl
      · exact h.sourceRegistrations o
    · intro key o
      rw [hsr, h.dropSources, get_erase]
      split
      · rfl
      · exact h.sourceRoutes key o
    · show (middle.dropSources id).routeCount
        = ((middle.dropSources id).routes.drops id _).entries
      rw [hc, hr, hlen]
      show _ = (index.routes.drops id
        ((entry.rows lower).map Prod.fst)).entries
      omega
    · show (middle.dropSources id).routeCount = _
      omega
    · show (middle.dropSources id).routeCount ≤ _
      omega

end

-- ---- filing

theorem Mirrors.file (h : Mirrors lower index registered)
    (hv : entry.definition.validate lower = .ok ())
    (hfr : entry.sources = none) (hn : registered[id]? = none)
    (hl : index.routeCount + (entry.rows lower).length ≤ maxRoutes) :
    Mirrors lower (index.file id (entry.rows lower))
      (registered.insert id entry) := by
  have ho := Registered.rows_once hv
  constructor
  · intro o f hf
    rw [get_insert] at hf
    split at hf
    · cases hf
      exact hv
    · exact h.valid o f hf
  · intro o
    show (index.registrations.insert id _)[o]? = _
    rw [get_insert, get_insert, h.registrations]
    split
    · rfl
    · rfl
  · intro key o
    show (index.routes.puts id _).entry key o = _
    rw [Buckets.entry_puts _ _ ho, get_insert, h.routes]
    by_cases hs : id = o
    · subst hs
      rw [if_pos rfl, Option.bind_some, hn]
      split
      · rfl
      · next ha =>
        rw [find?_eq_none.2 fun row hr hk => ha
          ⟨rfl, mem_map.2 ⟨row, hr, of_decide_eq_true hk⟩⟩]
        rfl
    · rw [if_neg hs, if_neg fun hin => hs hin.1]
  · intro o
    show index.sourceRegistrations[o]? = _
    rw [get_insert, h.sourceRegistrations]
    split
    · next hs =>
      rw [← hs, hn, Option.bind_some]
      unfold Registered.sourceKeys
      rw [hfr]
      rfl
    · rfl
  · intro key o
    show index.sourceRoutes.entry key o = _
    rw [get_insert, h.sourceRoutes]
    split
    · next hs =>
      rw [← hs, hn, Option.bind_some]
      unfold Registered.marked Registered.sourceKeys
      rw [hfr]
      rfl
    · rfl
  · show index.routeCount + _ = (index.routes.puts id _).entries
    rw [Buckets.entries_puts _ _ ho, h.live]
    intro row _
    rw [h.routes, hn]
    rfl
  · show index.routeCount + _ = _
    rw [sum_insert_new _ _ hn, h.sum, Nat.add_comm]
  · exact hl

theorem Mirrors.fileSources (h : Mirrors lower index registered)
    (hen : registered[id]? = some entry)
    (creator room : String) (sources : List String) :
    Mirrors lower { index.dropSources id with
        sourceRoutes := (index.dropSources id).sourceRoutes.puts id
          ((CommandIndex.sourceKeys creator room sources).map (·, ()))
        sourceRegistrations :=
          (index.dropSources id).sourceRegistrations.insert id
            (CommandIndex.sourceKeys creator room sources) }
      (registered.insert id
        { entry with sources := some (creator, room, sources) }) := by
  obtain ⟨hrt, hr, hc⟩ := dropSources_fields index id
  have hfst : ((CommandIndex.sourceKeys creator room sources).map
      fun key => (key, ())).map Prod.fst
        = CommandIndex.sourceKeys creator room sources := by
    rw [map_map]
    exact map_id _
  have ho : (((CommandIndex.sourceKeys creator room sources).map
      fun key => (key, ())).map Prod.fst).Nodup := by
    rw [hfst]
    exact sourceKeys_once _ _ _
  constructor
  · intro o fo hf
    rw [get_insert] at hf
    split at hf
    · cases hf
      exact h.valid id entry hen
    · exact h.valid o fo hf
  · intro o
    rw [hr, h.registrations, get_insert]
    split
    · next hs =>
      rw [← hs, hen]
      rfl
    · rfl
  · intro key o
    rw [hrt, h.routes, get_insert]
    split
    · next hs =>
      rw [← hs, hen]
      rfl
    · rfl
  · intro o
    rw [get_insert, get_insert, dropSources_registrations]
    split
    · rfl
    · exact h.sourceRegistrations o
  · intro key o
    rw [Buckets.entry_puts _ _ ho, hfst, h.dropSources, get_insert]
    by_cases hs : id = o
    · rw [if_pos hs, if_pos hs, Option.bind_some]
      show _ = if key ∈ CommandIndex.sourceKeys creator room sources
        then some () else none
      split
      · next hin =>
        rw [if_pos hin.2]
        cases hfn : ((CommandIndex.sourceKeys creator room sources).map
            fun key => (key, ())).find? fun row => row.1 = key with
        | some row => rfl
        | none =>
          exact absurd (decide_eq_true rfl) (find?_eq_none.1
            hfn (key, ()) (mem_map.2 ⟨key, hin.2, rfl⟩))
      · next habs => rw [if_neg fun hin => habs ⟨hs, hin⟩]
    · rw [if_neg hs, if_neg fun hin => hs hin.1, if_neg hs]
      exact h.sourceRoutes key o
  · show (index.dropSources id).routeCount
      = (index.dropSources id).routes.entries
    rw [hc, hrt]
    exact h.live
  · show (index.dropSources id).routeCount = _
    have hsum := sum_insert_add (f := fun _ (entry : Registered) =>
      (entry.rows lower).length) registered
        { entry with sources := some (creator, room, sources) } hen
    have hrw : ({ entry with sources := some (creator, room, sources) }
        : Registered).rows lower = entry.rows lower := rfl
    have ht := h.sum
    rw [hrw] at hsum
    omega
  · show (index.dropSources id).routeCount ≤ _
    rw [hc]
    exact h.limit

-- ---- calls

section

variable (h : Mirrors lower index registered)
include h

/-- A registration that fails changes nothing; one that succeeds files
the definition in the place of what was registered before. -/
theorem Mirrors.register (definition : Definition) (creator room : String) :
    ((index.perform lower (.register definition creator room)).2 = false
        ∧ (index.perform lower (.register definition creator room)).1 = index)
      ∨ ((index.perform lower (.register definition creator room)).2 = true
        ∧ Mirrors lower
            (index.perform lower (.register definition creator room)).1
            (registered.insert definition.id
              { definition, creator, room })) := by
  let Outcome (result : Except Error Unit × CommandIndex) : Prop :=
    (result.1.toOption.isSome = false ∧ result.2 = index)
      ∨ (result.1.toOption.isSome = true ∧ Mirrors lower result.2
        (registered.insert definition.id { definition, creator, room }))
  have hf : ∀ e, Outcome (.error e, index) := fun e => .inl ⟨rfl, rfl⟩
  refine lift_spec (fun e _ => hf e) fun _ hv => ?_
  refine lift_spec (fun e _ => hf e) fun _ _ => ?_
  refine look_spec (fun e _ => hf e) fun _ _ => ?_
  refine lift_spec (fun e _ => hf e) fun _ _ => ?_
  refine look_spec (fun e _ => hf e) fun _ hcap => ?_
  have hl := ensure_eq_ok.1 hcap
  obtain ⟨hrmd, -⟩ := h.remove definition.id
  have hc : (index.remove definition.id).1.routeCount
      = index.routeCount
        - index.registrations[definition.id]?.elim 0 List.length := by
    unfold CommandIndex.remove
    cases index.registrations[definition.id]? with
    | none => rfl
    | some keys => exact (dropSources_fields _ definition.id).2.2
  let entry : Registered := { definition, creator, room }
  have hv' : entry.definition.validate lower = .ok () := hv
  have hfl := hrmd.file hv' rfl (get_erase_self _ _) (by
      unfold Registered.rows
      rw [length_map, hc]
      exact hl)
  have hs : (registered.erase definition.id).insert definition.id entry
      = registered.insert definition.id entry := by
    apply Table.ext
    intro id
    rw [get_insert, get_insert, get_erase]
    split
    · rfl
    · rfl
  rw [hs] at hfl
  exact .inr ⟨rfl, hfl⟩

theorem Mirrors.registerSources
    (id creator room : String) (s : List String) :
    ((index.perform lower (.registerSources id creator room s)).2
          = false
        ∧ (index.perform lower
          (.registerSources id creator room s)).1 = index)
      ∨ ∃ entry, registered[id]? = some entry
        ∧ (index.perform lower (.registerSources id creator room s)).2 = true
        ∧ Mirrors lower
            (index.perform lower (.registerSources id creator room s)).1
            (registered.insert id
              { entry with sources := some (creator, room, s) }) := by
  let Outcome (r : Except Error Unit × CommandIndex) : Prop :=
    (r.1.toOption.isSome = false ∧ r.2 = index)
      ∨ ∃ entry, registered[id]? = some entry
        ∧ r.1.toOption.isSome = true ∧ Mirrors lower r.2
        (registered.insert id
          { entry with sources := some (creator, room, s) })
  have hf : ∀ e, Outcome (.error e, index) := fun e => .inl ⟨rfl, rfl⟩
  refine look_spec (fun e _ => hf e) fun _ hc => ?_
  obtain ⟨hp, -⟩ := ensure_eq_ok.1 hc
  rw [h.registrations] at hp
  have hs : registered[id]? ≠ none := fun hn => by
    rw [hn] at hp
    exact hp rfl
  obtain ⟨entry, hen⟩ := Option.ne_none_iff_exists'.1 hs
  exact .inr ⟨entry, hen, rfl, h.fileSources hen creator room s⟩

/-- Every call keeps the index in step with the registry, and one that
fails changes neither. -/
theorem Mirrors.perform (call : CommandIndex.Call) :
    Mirrors lower (index.perform lower call).1
        (registry registered (index.perform lower call).2 call)
      ∧ ((index.perform lower call).2 = false →
        (index.perform lower call).1 = index) := by
  cases call with
  | register definition creator room =>
    obtain ⟨hf, hs⟩ | ⟨hf, hn⟩ := h.register definition creator room
    · rw [hf, hs]
      exact ⟨h, fun _ => rfl⟩
    · rw [hf]
      exact ⟨hn, fun hfl => absurd hfl (by decide)⟩
  | registerSources id creator room sources =>
    obtain ⟨hf, hs⟩ | ⟨entry, hen, hf, hn⟩ :=
      h.registerSources id creator room sources
    · rw [hf, hs]
      refine ⟨?_, fun _ => rfl⟩
      unfold registry
      dsimp only
      split
      · exact h
      · exact h
    · rw [hf]
      refine ⟨?_, fun hfl => absurd hfl (by decide)⟩
      unfold registry
      dsimp only
      rw [hen]
      exact hn
  | remove id =>
    obtain ⟨hn, -⟩ := h.remove id
    refine ⟨hn, fun hf => ?_⟩
    change (index.remove id).2 = false at hf
    show (index.remove id).1 = index
    unfold CommandIndex.remove at hf ⊢
    cases hk : index.registrations[id]? with
    | none => rfl
    | some keys =>
      rw [hk] at hf
      cases hf

end

-- ==== answers

section

variable (h : Mirrors lower index registered)
include h

theorem Mirrors.bucket (creator room c : String) :
    index.routes.bucket (routeKey creator room c)
      = registered.filterMap fun _ entry =>
          if entry.creator = creator ∧ entry.room = room then
            (entry.definition.options.find? fun o =>
              o.commands.any fun ca =>
                lower ca == c).map (·.id)
          else none := by
  apply Table.ext
  intro id
  rw [Std.ExtTreeMap.getElem?_filterMap']
  refine (h.routes (routeKey creator room c) id).trans ?_
  refine Option.bind_congr fun entry _ => ?_
  exact entry.find_rows creator room c

theorem Mirrors.sourceBucket (creator room s : String) :
    index.sourceRoutes.bucket (routeKey creator room s)
      = registered.filterMap fun _ entry =>
          if entry.listens creator room s then some () else none := by
  apply Table.ext
  intro id
  rw [Std.ExtTreeMap.getElem?_filterMap']
  refine (h.sourceRoutes (routeKey creator room s) id).trans ?_
  refine Option.bind_congr fun entry _ => ?_
  exact entry.marked_listens creator room s

theorem Mirrors.matching (creator room c : String) :
    CommandIndex.matching lower index creator room c
      = registered.toList.filterMap fun (id, entry) =>
          (entry.optionFor lower creator room c).map
            (CommandRoute.mk id) := by
  unfold CommandIndex.matching
  split
  · next hl =>
    symm
    rw [filterMap_eq_nil_iff]
    intro ⟨id, entry⟩ _
    dsimp only
    unfold Registered.optionFor Definition.optionForCommand
    rw [if_pos hl, ite_self]
    rfl
  · next hs =>
    rw [h.bucket, Std.ExtTreeMap.toList_filterMap, map_filterMap]
    refine filterMap_congr fun found _ => ?_
    dsimp only
    unfold Registered.optionFor Definition.optionForCommand
    rw [if_neg hs, Option.map_map]
    rfl

theorem Mirrors.matchingSource (creator room s : String) :
    index.matchingSource creator room s
      = (registered.toList.filter fun (_, entry) =>
          entry.listens creator room s).map Prod.fst := by
  unfold CommandIndex.matchingSource
  rw [h.sourceBucket, Std.ExtTreeMap.toList_filterMap, map_filterMap,
    ← filterMap_eq_filter, map_filterMap]
  refine filterMap_congr fun found _ => ?_
  unfold Option.guard
  split
  · rfl
  · rfl

theorem Mirrors.registration_le
    {k : List RouteKey} (hk : index.registrations[id]? = some k) :
    k.length ≤ index.routeCount := by
  rw [h.registrations] at hk
  obtain ⟨entry, hen, rfl⟩ := Option.map_eq_some_iff.1 hk
  rw [length_map, h.sum]
  exact le_sum (f := fun _ (entry : Registered) =>
    (entry.rows lower).length) registered hen

end

-- ==== runs

/-- The index after some calls, with what it should hold. -/
def CommandIndex.after (lower : String → String) :
    List CommandIndex.Call → CommandIndex × Table String Registered :=
  List.foldl (fun (index, registered) call =>
    ((index.perform lower call).1,
      registry registered (index.perform lower call).2 call)) ({}, ∅)

theorem mirrors_after (lower : String → String)
    (c : List CommandIndex.Call) :
    Mirrors lower (CommandIndex.after lower c).1
      (CommandIndex.after lower c).2 := by
  refine List.foldlRecOn
    (motive := fun (s : CommandIndex × Table String Registered) =>
      Mirrors lower s.1 s.2) c _ mirrors_empty ?_
  intro s h ca _
  exact (h.perform ca).1

/-- After any calls, the index answers comments and sources as a scan of
the registered competitions does. The number of routes is the number of
live entries, within its cap and at least what any removal takes off, and
a call that fails leaves the index as it was. -/
theorem index_is_scan (lower : String → String)
    (calls : List CommandIndex.Call) :
    let index := (CommandIndex.after lower calls).1
    let registered := (CommandIndex.after lower calls).2
    (∀ creator room comment,
      CommandIndex.matching lower index creator room comment
        = registered.toList.filterMap fun (id, entry) =>
            (entry.optionFor lower creator room comment).map
              (CommandRoute.mk id))
    ∧ (∀ creator room source,
      index.matchingSource creator room source
        = (registered.toList.filter fun (_, entry) =>
            entry.listens creator room source).map Prod.fst)
    ∧ index.routeCount = index.routes.entries
    ∧ index.routeCount ≤ maxRoutes
    ∧ (∀ (id : String) (keys : List RouteKey),
      index.registrations[id]? = some keys → keys.length ≤ index.routeCount)
    ∧ ∀ call, (index.perform lower call).2 = false →
      (index.perform lower call).1 = index := by
  have h := mirrors_after lower calls
  exact ⟨h.matching, h.matchingSource, h.live, h.limit,
    fun _ _ => h.registration_le, fun call => (h.perform call).2⟩

end TikTools.Competitions
