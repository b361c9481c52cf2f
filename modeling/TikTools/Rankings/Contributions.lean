/-
Which contributions are taken for replays.

The admission table keeps one string for the pair of a source and an
event id, with a colon between them, and either may hold colons of its
own. So two pairs share a row exactly if one source is the other one
continued by a colon, with the continuation in front of the other's
event id. `memory` is ghost state: the pairs the rows of the table were
recorded for.
-/
import TikTools.Rankings.Emissions

namespace TikTools.Rankings

open TikTools.Lib
open TikTools.Aggregation List

-- ==== the keys

/-- Two pairs that differ and share a row: one source goes on where the
other ends. -/
def Overlaps (source eventId source' eventId' : String) : Prop :=
  ∃ rest : String,
    (source' = source ++ ":" ++ rest ∧ eventId = rest ++ ":" ++ eventId')
    ∨ (source = source' ++ ":" ++ rest ∧ eventId' = rest ++ ":" ++ eventId)

variable {eventId' source' eventId : String}

variable {pair : Remembered} {source : String}

theorem Overlaps.source_ne
    (h : Overlaps source eventId source' eventId') : source ≠ source' := by
  intro hs
  have hl : ∀ {a b r : String}, b = a ++ ":" ++ r →
      a.length < b.length := by
    intro a b r hb
    have hone : ":".length = 1 := rfl
    rw [hb, String.length_append, String.length_append]
    omega
  obtain ⟨r, ⟨hb, -⟩ | ⟨hb, -⟩⟩ := h
  · exact absurd (hl hb) (by rw [hs]; exact Nat.lt_irrefl _)
  · exact absurd (hl hb) (by rw [hs]; exact Nat.lt_irrefl _)

theorem append_sep_eq_iff {α : Type} {sep : α} {a a' b b' : List α} :
    a ++ sep :: b = a' ++ sep :: b'
      ↔ (a = a' ∧ b = b')
        ∨ ∃ r, (a' = a ++ sep :: r ∧ b = r ++ sep :: b')
          ∨ (a = a' ++ sep :: r ∧ b' = r ++ sep :: b) := by
  constructor
  · intro h
    rcases append_eq_append_iff.1 h with
      ⟨tail, ha, hb⟩ | ⟨tail, ha, hb⟩
    · cases tail with
      | nil =>
        rw [append_nil] at ha
        exact .inl ⟨ha.symm, (List.cons.inj hb).2⟩
      | cons c r =>
        obtain ⟨hc, hr⟩ := List.cons.inj hb
        subst hc
        exact .inr ⟨r, .inl ⟨ha, hr⟩⟩
    · cases tail with
      | nil =>
        rw [append_nil] at ha
        exact .inl ⟨ha, (List.cons.inj hb).2.symm⟩
      | cons c r =>
        obtain ⟨hc, hr⟩ := List.cons.inj hb
        subst hc
        exact .inr ⟨r, .inr ⟨ha, hr⟩⟩
  · rintro (⟨rfl, rfl⟩ | ⟨r, ⟨rfl, rfl⟩ | ⟨rfl, rfl⟩⟩)
    · rfl
    · rw [append_assoc, cons_append]
    · rw [append_assoc, cons_append]

theorem admissionKey_eq_iff :
    admissionKey source eventId = admissionKey source' eventId'
      ↔ (source = source' ∧ eventId = eventId')
        ∨ Overlaps source eventId source' eventId' := by
  have hl : ∀ a b : String,
      (a ++ ":" ++ b).toList = a.toList ++ ':' :: b.toList := by
    intro a b
    rw [String.toList_append, String.toList_append, append_assoc]
    rfl
  have hcut : ∀ a b c : String, a = b ++ ":" ++ c
      ↔ a.toList = b.toList ++ ':' :: c.toList := by
    intro a b c
    rw [← hl]
    exact String.toList_inj.symm
  unfold admissionKey Overlaps
  rw [← String.toList_inj, hl, hl, append_sep_eq_iff,
    String.toList_inj, String.toList_inj]
  refine or_congr_right ?_
  constructor
  · rintro ⟨r, h⟩
    refine ⟨String.ofList r, ?_⟩
    rw [hcut, hcut, hcut, hcut, String.toList_ofList]
    exact h
  · rintro ⟨r, h⟩
    rw [hcut, hcut, hcut, hcut] at h
    exact ⟨r.toList, h⟩

-- ==== requests

variable {E : Type} (api : RankingEngine E)

/-- A pair the table has a row of, with the time it was accepted. -/
structure Remembered where
  source : String
  eventId : String
  acceptedAt : Int

/-- The application with the pairs its table remembers. -/
structure Desk (E : Type) where
  app : App E
  memory : List Remembered

inductive Turn (E : Type) where
  /-- A contribution is reported, by a client or by an emission. -/
  | contribute (now : Nat) (input : ExternalContribution)
  /-- Rankings are created, removed or reset, or count native events, or
  the process starts again. -/
  | rankings (engine : E)

/-- The pairs that are remembered once another one is. -/
def remember (memory : List Remembered) (pair : Remembered) :
    List Remembered :=
  if pair.acceptedAt % 64 = 0 then
    (memory ++ [pair]).filter fun other =>
      ¬ other.acceptedAt < pair.acceptedAt - retentionMs
  else memory ++ [pair]

namespace Desk

def step (s : Desk E) : Turn E → Desk E
  | .contribute now input =>
    let result := rankingContribute api s.app now input
    { app := result.2
      memory :=
        if Wanted api s.app.engine input
            ∧ result.1.toOption = some { duplicate := false } then
          remember s.memory
            { source := input.source, eventId := input.eventId
              acceptedAt := (min now i64Max : Nat) }
        else s.memory }
  | .rankings engine => { s with app := { s.app with engine } }

/-- The first start on a new database, and some turns. -/
def after (engine : E) (turns : List (Turn E)) : Desk E :=
  turns.foldl (step api) { app := .fresh engine, memory := [] }

/-- The row of a remembered pair. -/
def row (pair : Remembered) : String × Int :=
  (admissionKey pair.source pair.eventId, pair.acceptedAt)

/-- The table holds the rows of the remembered pairs, each under its own
key. -/
structure Kept (s : Desk E) : Prop where
  rows : s.app.externalEvents = s.memory.map row
  once : (s.memory.map fun pair =>
    admissionKey pair.source pair.eventId).Nodup

/-- The request is answered as a replay exactly if some ranking wants it
and its own pair is remembered. -/
def TakenRightly (s : Desk E) (now : Nat) (input : ExternalContribution) :
    Prop :=
  (rankingContribute api s.app now input).1 = .ok { duplicate := true }
    ↔ Wanted api s.app.engine input
      ∧ ∃ pair ∈ s.memory,
        pair.source = input.source ∧ pair.eventId = input.eventId

variable {api}

variable {input : ExternalContribution} {app : App E}

theorem rankingContribute_unwanted {now : Nat}
    (h : ¬Wanted api app.engine input) :
    (rankingContribute api app now input).2 = app
      ∧ (rankingContribute api app now input).1
        ≠ .ok { duplicate := true } := by
  unfold rankingContribute
  split
  · exact ⟨rfl, nofun⟩
  · next hv =>
    split
    · exact ⟨rfl, nofun⟩
    · next hs =>
      exact absurd ⟨not_not.1 hv, not_not.1 hs⟩ h

/-- A request that is wanted is a replay if the table has its row, and
is recorded otherwise. -/
theorem rankingContribute_wanted (now : Nat) (h : Wanted api app.engine input) :
    if app.externalEvents.any (fun row =>
        row.1 == admissionKey input.source input.eventId) then
      rankingContribute api app now input = (.ok { duplicate := true }, app)
    else
      (rankingContribute api app now input).1 = .ok { duplicate := false }
        ∧ (rankingContribute api app now input).2.externalEvents
          = (admitExternalContribution app.externalEvents
            (admissionKey input.source input.eventId)
            (min now i64Max : Nat)).2 := by
  unfold rankingContribute
  rw [if_neg (not_not.2 h.1), if_neg (not_not.2 h.2)]
  unfold admitExternalContribution
  split
  · rfl
  · by_cases ht : ((min now i64Max : Nat) : Int) % 64 = 0
    · rw [if_pos ht]
      exact ⟨rfl, rfl⟩
    · rw [if_neg ht]
      exact ⟨rfl, rfl⟩

theorem rows_any (memory : List Remembered) (source eventId : String) :
    (memory.map row).any
        (fun row => row.1 == admissionKey source eventId) = true
      ↔ ∃ pair ∈ memory, (pair.source = source ∧ pair.eventId = eventId)
        ∨ Overlaps pair.source pair.eventId source eventId := by
  rw [any_map, any_eq_true]
  refine exists_congr fun pair => and_congr_right fun _ => ?_
  rw [Function.comp_apply, beq_iff_eq]
  exact admissionKey_eq_iff

variable {memory : List Remembered}

theorem remember_rows (h : (memory.map row).any (fun o =>
      o.1 == admissionKey pair.source pair.eventId) = false) :
    (admitExternalContribution (memory.map row)
        (admissionKey pair.source pair.eventId) pair.acceptedAt).2
      = (remember memory pair).map row := by
  have hr : memory.map row
      ++ [(admissionKey pair.source pair.eventId, pair.acceptedAt)]
        = (memory ++ [pair]).map row := by
    rw [map_append]
    rfl
  unfold admitExternalContribution remember
  rw [if_neg (Bool.not_eq_true _ ▸ h), hr]
  split
  · rw [filter_map]
    rfl
  · rfl

theorem remember_once (hon : (memory.map fun o =>
      admissionKey o.source o.eventId).Nodup)
    (h : (memory.map row).any (fun o =>
      o.1 == admissionKey pair.source pair.eventId) = false) :
    ((remember memory pair).map fun o =>
      admissionKey o.source o.eventId).Nodup := by
  have hall : ((memory ++ [pair]).map fun o =>
      admissionKey o.source o.eventId).Nodup := by
    rw [map_append]
    refine nodup_append.2 ⟨hon, nodup_singleton _, ?_⟩
    intro key hk o ho hs
    obtain ⟨old, hl, rfl⟩ := mem_map.1 hk
    rw [any_eq_false] at h
    refine h (row old) (mem_map_of_mem hl) (beq_iff_eq.2 ?_)
    exact hs.trans (mem_singleton.1 ho)
  unfold remember
  split
  · exact hall.sublist (filter_sublist.map _)
  · exact hall

variable {s : Desk E}

theorem Kept.step (h : s.Kept) (t : Turn E) : (s.step api t).Kept := by
  cases t with
  | rankings engine => exact ⟨h.rows, h.once⟩
  | contribute now input =>
    by_cases hw : Wanted api s.app.engine input
    · have hsp := rankingContribute_wanted now hw
      split at hsp
      · have hs : s.step api (.contribute now input) = s := by
          dsimp only [Desk.step]
          rw [hsp, if_neg fun hf => nomatch hf.2]
        rw [hs]
        exact h
      · next hrow =>
        obtain ⟨ha, hr⟩ := hsp
        let pair : Remembered :=
          ⟨input.source, input.eventId, (min now i64Max : Nat)⟩
        rw [h.rows] at hrow
        have hmm : (s.step api (.contribute now input)).memory
            = remember s.memory pair := by
          dsimp only [Desk.step]
          rw [ha]
          exact if_pos ⟨hw, rfl⟩
        constructor
        · rw [hmm, ← remember_rows (Bool.not_eq_true _ ▸ hrow),
            ← h.rows]
          exact hr
        · rw [hmm]
          exact remember_once h.once (Bool.not_eq_true _ ▸ hrow)
    · have hs : s.step api (.contribute now input) = s := by
        dsimp only [Desk.step]
        rw [if_neg fun hf => hw hf.1, (rankingContribute_unwanted hw).1]
      rw [hs]
      exact h

theorem kept_after (e : E) (t : List (Turn E)) :
    (after api e t).Kept := by
  refine List.foldlRecOn (motive := Kept) t _ ⟨rfl, .nil⟩ ?_
  intro s h tu _
  exact h.step tu

/-- A wanted request is a replay if its own pair is remembered, or one
that overlaps with it. -/
theorem Kept.replay_iff (h : s.Kept) (now : Nat)
    (input : ExternalContribution) :
    (rankingContribute api s.app now input).1 = .ok { duplicate := true }
      ↔ Wanted api s.app.engine input
        ∧ ∃ pair ∈ s.memory,
          (pair.source = input.source ∧ pair.eventId = input.eventId)
          ∨ Overlaps pair.source pair.eventId input.source input.eventId := by
  by_cases hw : Wanted api s.app.engine input
  · have hs := rankingContribute_wanted now hw
    rw [h.rows] at hs
    rw [and_iff_right hw, ← rows_any]
    split at hs
    · next hrow => exact iff_of_true (congrArg Prod.fst hs) hrow
    · next hrow =>
      refine iff_of_false (fun hr => ?_) hrow
      rw [hs.1] at hr
      cases hr
  · exact iff_of_false (rankingContribute_unwanted hw).2 fun hr => hw hr.1

theorem Kept.not_both (h : s.Kept) {o : Remembered}
    (hp : pair ∈ s.memory) (hot : o ∈ s.memory)
    {eventId : String} (hs : pair.source = source ∧ pair.eventId = eventId) :
    ¬Overlaps o.source o.eventId source eventId := by
  intro ho
  have hkey : admissionKey o.source o.eventId
      = admissionKey pair.source pair.eventId :=
    admissionKey_eq_iff.2 (.inr (by
      rw [hs.1, hs.2]
      exact ho))
  have heq : o = pair := inj_on_of_nodup_map h.once hot hp hkey
  exact ho.source_ne (heq ▸ hs.1)

-- ==== the law

/-- In every run each request is taken for a replay exactly if a ranking
wants it and its pair is remembered, if and only if no request that is
wanted overlaps with a remembered pair. -/
theorem replays_by_pair_iff (api : RankingEngine E) (engine : E)
    (turns : List (Turn E)) :
    (∀ done now input rest, turns = done ++ .contribute now input :: rest →
      TakenRightly api (after api engine done) now input)
    ↔ ∀ done now input rest, turns = done ++ .contribute now input :: rest →
      Wanted api (after api engine done).app.engine input →
      ∀ pair ∈ (after api engine done).memory,
        ¬Overlaps pair.source pair.eventId input.source input.eventId := by
  refine forall_congr' fun done => forall_congr' fun now =>
    forall_congr' fun input => forall_congr' fun rest =>
      imp_congr_right fun _ => ?_
  have hk : (after api engine done).Kept := kept_after engine done
  unfold TakenRightly
  rw [hk.replay_iff]
  constructor
  · intro hr hw pair hp ho
    obtain ⟨-, own, hown, hs⟩ := hr.1 ⟨hw, pair, hp, .inr ho⟩
    exact hk.not_both hown hp hs ho
  · intro ha
    refine and_congr_right fun hw => ?_
    refine exists_congr fun pair => and_congr_right fun hp => ?_
    exact or_iff_left (ha hw pair hp)

/-- An engine with a ranking of every source. -/
def everySource : RankingEngine Unit where
  hasSource _ _ := true
  applyAtWithMetadata engine _ _ _ := engine

def reported (source eventId : String) : ExternalContribution where
  eventId
  creatorId := "creator"
  roomId := "room"
  source
  user := some "u1"
  label := none
  team := none
  customKey := none
  option := none
  metrics := [("value", 5)]

/-- Two contributions of two sources and two event ids: the second is
dropped as a replay of the first. -/
theorem pairs_merged :
    let first := reported "plugin.a" "b:c"
    let second := reported "plugin.a:b" "c"
    let s := after everySource () [.contribute 1000 first]
    first.source ≠ second.source ∧ first.eventId ≠ second.eventId
    ∧ first.isValid = true ∧ second.isValid = true
    ∧ s.memory.length = 1
    ∧ (rankingContribute everySource s.app 1001 second).1
      = .ok { duplicate := true } := by
  decide

end Desk

end TikTools.Rankings
