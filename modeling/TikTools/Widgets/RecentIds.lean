/-
The event ids a widget handled of late.

Every overlay remembers the ids it handled and ignores an event whose id
it knows. The map keeps the order of insertion, an id handled again goes
to the end, and the oldest go first when there are too many. So the map
is the end of what a memory that never forgets would hold (`Recalls`),
which makes the answers exact over whole runs.
-/
import TikTools.Lib.Recent
import TikTools.Lib.Runs

namespace TikTools.Widgets

open TikTools.Lib List

def liveIdentityTtlMs : Int := 300000

/-- The ids with the times they were handled at, oldest first. -/
structure RecentEventIds where
  capacity : Nat
  ids : List (String × Int) := []

namespace RecentEventIds

variable (recent : RecentEventIds) (id : String) (now : Int)

def has : Bool :=
  (recent.ids.find? (·.1 = id)).any
    fun entry => now - entry.2 < liveIdentityTtlMs

def add : Bool × RecentEventIds :=
  if recent.has id now then (false, recent)
  else
    let ids := recent.ids.filter (·.1 ≠ id) ++ [(id, now)]
    (true, { recent with ids := ids.drop (ids.length - recent.capacity) })

def clear : RecentEventIds := { recent with ids := [] }

inductive Call
  | add (id : String) (now : Int)
  | clear

/-- The ids, and what was added since they were last cleared. -/
def next (s : RecentEventIds × List (String × Int)) :
    Call → RecentEventIds × List (String × Int)
  | .add id now =>
    let added := s.1.add id now
    (added.2, if added.1 then s.2 ++ [(id, now)] else s.2)
  | .clear => (s.1.clear, [])

def run (capacity : Nat) (calls : List Call) :
    RecentEventIds × List (String × Int) :=
  calls.foldl next ({ capacity }, [])

-- ==== the end of a list

variable {α : Type} {l : List (String × Int)} {c : Nat}

theorem drop_append_end {a b : List α} (h : c ≤ b.length) :
    (a ++ b).drop ((a ++ b).length - c) = b.drop (b.length - c) := by
  rw [length_append, Nat.add_sub_assoc h, drop_append,
    drop_eq_nil_of_le (Nat.le_add_right _ _), nil_append,
    Nat.add_sub_cancel_left]

/-- What falls out at the front decides nothing later. -/
theorem drop_filter (hl : (l.map Prod.fst).Nodup) (entry : String × Int) :
    let ids := l.drop (l.length - c)
    let kept := ids.filter (·.1 ≠ entry.1) ++ [entry]
    let all := l.filter (·.1 ≠ entry.1) ++ [entry]
    kept.drop (kept.length - c) = all.drop (all.length - c) := by
  intro ids kept all
  by_cases hc : l.length ≤ c
  · have hids : ids = l := by
      show l.drop _ = l
      rw [Nat.sub_eq_zero_of_le hc, drop_zero]
    show kept.drop _ = _
    unfold kept all
    rw [hids]
  · have hall : all = (l.take (l.length - c)).filter (·.1 ≠ entry.1)
        ++ kept := by
      unfold all kept ids
      rw [← append_assoc, ← filter_append, take_append_drop]
    have hlen : c ≤ kept.length := by
      have hids : ids.length = c := by
        rw [length_drop]
        omega
      have hn : (ids.map Prod.fst).Nodup :=
        hl.sublist ((drop_sublist _ _).map _)
      have := length_le_filter_ne entry.1 hn
      unfold kept
      rw [length_append, length_singleton]
      omega
    rw [hall, drop_append_end hlen]

-- ==== runs

/-- The ids are the end of what came last of every id. -/
def Recalls (s : RecentEventIds × List (String × Int)) : Prop :=
  s.1.ids = (latest s.2).drop ((latest s.2).length - s.1.capacity)

theorem Recalls.next {s : RecentEventIds × List (String × Int)}
    (h : Recalls s) (call : Call) : Recalls (next s call) := by
  cases call with
  | clear => exact drop_nil.symm
  | add id now =>
    simp only [Recalls, RecentEventIds.next, add]
    by_cases hseen : s.1.has id now = true
    · rw [if_pos hseen]
      exact h
    · rw [if_neg hseen, if_pos rfl, latest_snoc, h]
      exact drop_filter (nodup_keys_latest s.2) (id, now)

theorem capacity_next (s : RecentEventIds × List (String × Int))
    (call : Call) : (next s call).1.capacity = s.1.capacity := by
  cases call with
  | clear => rfl
  | add id now =>
    simp only [next, add]
    split <;> rfl

theorem recalls_run (capacity : Nat) (calls : List Call) :
    Recalls (run capacity calls)
      ∧ (run capacity calls).1.capacity = capacity := by
  induction calls using List.reverseRecOn with
  | nil => exact ⟨drop_nil.symm, rfl⟩
  | append_singleton calls call ih =>
    unfold run
    rw [foldl_append]
    refine ⟨ih.1.next call, ?_⟩
    exact (capacity_next _ call).trans ih.2

/-- An id is turned away exactly if it was let through less than the time
to live before, as the last of its kind, with fewer other ids since than
the memory holds. -/
theorem turned_away_iff (capacity : Nat) (calls : List Call) (id : String)
    (now : Int) :
    let s := run capacity calls
    s.1.ids.length ≤ capacity
      ∧ ((s.1.add id now).1 = false ↔ ∃ earlier at_ later,
        s.2 = earlier ++ (id, at_) :: later ∧ id ∉ later.map Prod.fst
          ∧ now - at_ < liveIdentityTtlMs ∧ others id later < capacity) := by
  intro s
  obtain ⟨hs, hc⟩ := recalls_run capacity calls
  have hids : s.1.ids = (latest s.2).drop ((latest s.2).length - capacity) :=
    hc ▸ hs
  have hanswer : (s.1.add id now).1 = false ↔ s.1.has id now = true := by
    unfold add
    split
    · next h => exact iff_of_true rfl h
    · next h => exact iff_of_false (by simp) h
  refine ⟨?_, ?_⟩
  · rw [hids, length_drop]
    omega
  rw [hanswer, has, Option.any_eq_true]
  constructor
  · rintro ⟨⟨other, at_⟩, hfind, hfresh⟩
    obtain ⟨hid, front, behind, hsplit, -⟩ :=
      find?_eq_some_iff_append.1 hfind
    obtain rfl : other = id := of_decide_eq_true hid
    have hlen : behind.length < capacity := by
      have := congrArg length (hids.symm.trans hsplit)
      rw [length_drop, length_append, length_cons] at this
      omega
    have hall : latest s.2 = (latest s.2).take ((latest s.2).length
        - capacity) ++ front ++ (other, at_) :: behind := by
      rw [append_assoc, ← hsplit, hids, take_append_drop]
    obtain ⟨earlier, later, hlog, hlast, rfl⟩ := latest_eq_split hall
    rw [length_latest hlast] at hlen
    exact ⟨earlier, at_, later, hlog, hlast, of_decide_eq_true hfresh, hlen⟩
  · rintro ⟨earlier, at_, later, hlog, hlast, hfresh, hfew⟩
    rw [← length_latest hlast] at hfew
    obtain ⟨before, hall⟩ : ∃ before, latest s.2
        = before ++ (id, at_) :: latest later := by
      rw [hlog]
      exact latest_split hlast
    refine ⟨(id, at_), ?_, decide_eq_true hfresh⟩
    have hn := nodup_keys_latest s.2
    rw [hids, hall, drop_append_of_le_length (by
      rw [length_append, length_cons]
      omega)]
    rw [hall, map_append, map_cons, nodup_append] at hn
    rw [find?_append, find?_eq_none.2, Option.none_or]
    · exact find?_cons_of_pos (decide_eq_true rfl)
    · intro other ho heq
      refine hn.2.2 _ (mem_map_of_mem (mem_of_mem_drop ho)) id
        mem_cons_self ?_
      exact of_decide_eq_true heq

end RecentEventIds

end TikTools.Widgets
