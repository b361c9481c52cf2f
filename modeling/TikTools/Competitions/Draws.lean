/-
How a winner is selected.

The random source gives raw 64-bit words, or fails. A bound is drawn
below by rejection: words below a threshold are thrown away, and another
one is asked for. `Drawn` is what a finite list of words leads to; `none`
is a selection that still waits for a word it accepts.

Everything else about a selection depends on the words only through one
ticket. Counting words and tickets then says how fair it is: every
residue has equally many words, and every candidate exactly its tickets.
-/
import Mathlib.Data.List.Sort
import Mathlib.Data.String.Basic
import TikTools.Lib.Sampling
import TikTools.Competitions.Model

namespace TikTools.Competitions

open TikTools.Lib List

-- ==== draws

/-- What some raw words lead to, if they are enough of them. -/
abbrev Drawn (α : Type) := ExceptT Error Option α

/-- The raw words are the numbers below this one. -/
def rawWords : Nat := 2 ^ 64

/-- `bound.wrapping_neg() % bound` -/
def threshold (bound : Nat) : Nat := (rawWords - bound) % rawWords % bound

/-- The loop of `random_below`. A word is missing where the source
fails. -/
def randomLoop (bound : Nat) : List (Option Nat) → Drawn Nat
  | [] => ExceptT.mk none
  | none :: _ => throw .randomUnavailable
  | some value :: words =>
    if threshold bound ≤ value then pure (value % bound)
    else randomLoop bound words

def randomBelow (words : List (Option Nat)) (bound : Nat) : Drawn Nat :=
  if bound = 0 then throw .zeroWeight else randomLoop bound words

-- ==== selection

/-- Two neighbours have one key. -/
def repeats : List Candidate → Bool
  | a :: b :: rest => a.key == b.key || repeats (b :: rest)
  | _ => false

/-- The eligible candidates as a selection freezes them. -/
def freeze (eligible : List Candidate) : Except Error (List Candidate) := do
  ensure (eligible ≠ [] ∧ eligible.length ≤ 100000) .empty
  ensure (∀ c ∈ eligible, c.key ≠ "" ∧ c.key.utf8ByteSize ≤ 512)
    .invalidCandidate
  let eligible := eligible.insertionSort fun a b => a.key ≤ b.key
  ensure (repeats eligible = false) .duplicateCandidate
  return eligible

/-- The candidate a ticket falls to. -/
def ticketWinner : List Candidate → Nat → Option String
  | [], _ => none
  | candidate :: rest, ticket =>
    if ticket < candidate.weight then some candidate.key
    else ticketWinner rest (ticket - candidate.weight)

def keyAt (candidates : List Candidate) (place : Nat) : Option String :=
  candidates[place]?.map Candidate.key

def select (words : List (Option Nat)) (eligible : List Candidate)
    (mode : SelectionMode) (tiePolicy : TiePolicy) : Drawn Selection := do
  let eligible ← ExceptT.mk (some (freeze eligible))
  let winner ← match mode with
    | .highestScore => do
      let tied := leaders eligible
      if tied.length = 1 then pure (keyAt tied 0)
      else match tiePolicy with
        | .manual => throw .manualTie
        | .noWinner => pure none
        | .stable => pure (keyAt tied 0)
        | .random => do
          let place ← randomBelow words tied.length
          pure (keyAt tied place)
    | .uniformRandom => do
      let place ← randomBelow words eligible.length
      pure (keyAt eligible place)
    | .weightedRandom => do
      let total ← ExceptT.mk (some (okOr (totalWeight eligible) .overflow))
      let ticket ← randomBelow words total
      pure (ticketWinner eligible ticket)
  pure { mode, tiePolicy, eligible, winner }

-- ==== frozen

theorem nodup_of_repeats {eligible : List Candidate}
    (hs : eligible.Pairwise fun a b => a.key ≤ b.key)
    (h : repeats eligible = false) :
    (eligible.map (·.key)).Nodup := by
  induction eligible with
  | nil => exact nodup_nil
  | cons a r ih =>
    cases r with
    | nil => exact nodup_singleton _
    | cons b r =>
      unfold repeats at h
      rw [Bool.or_eq_false_iff, beq_eq_false_iff_ne] at h
      obtain ⟨hf, hr⟩ := pairwise_cons.1 hs
      have hl := ih hr h.2
      refine nodup_cons.2 ⟨fun hin => ?_, hl⟩
      obtain ⟨c, hc, hkey⟩ := mem_map.1 hin
      -- The key would be between its own and the next one's.
      have hbc : b.key ≤ c.key := by
        rcases mem_cons.1 hc with rfl | hc
        · exact le_refl _
        · exact (pairwise_cons.1 hr).1 c hc
      exact h.1 (le_antisymm (hf b mem_cons_self) (hbc.trans_eq hkey))

theorem freeze_spec {eligible frozen : List Candidate}
    (h : freeze eligible = .ok frozen) :
    frozen.Perm eligible ∧ (frozen.map (·.key)).Nodup
      ∧ eligible.length ≤ 100000 ∧ eligible ≠ [] := by
  obtain ⟨⟨hs, hl⟩, h⟩ := ensure_ok.1 h
  obtain ⟨-, h⟩ := ensure_ok.1 h
  obtain ⟨hr, h⟩ := ensure_ok.1 h
  cases h
  exact ⟨perm_insertionSort _ _,
    nodup_of_repeats (pairwise_insertionSort _ _) hr, hl,
    hs⟩

-- ==== fairness

variable {bound : Nat}

theorem threshold_eq (h : 0 < bound) (hb : bound < rawWords) :
    threshold bound = rawWords % bound := by
  unfold threshold
  rw [Nat.mod_eq_of_lt (Nat.sub_lt (by decide) h), ← Nat.mod_eq_sub_mod hb.le]

theorem randomBelow_word (hpos : 0 < bound) (hb : bound < rawWords)
    (v : Nat) :
    randomBelow [some v] bound
      = match Sampling.accept rawWords bound v with
        | some r => pure r
        | none => ExceptT.mk none := by
  unfold randomBelow randomLoop randomLoop Sampling.accept
  rw [if_neg hpos.ne', threshold_eq hpos hb]
  split
  · rfl
  · rfl

theorem ticketWinner_eq (candidates : List Candidate) (ticket : Nat) :
    ticketWinner candidates ticket
      = Sampling.pick (candidates.map fun c => (c.key, c.weight)) ticket := by
  induction candidates generalizing ticket with
  | nil => rfl
  | cons c rest ih =>
    rw [map_cons, ticketWinner, Sampling.pick, ih]

/-- A mode awards the candidates their shares of the tickets: the words
lead to a ticket below the bound and matter no more, each candidate wins
with exactly its share, and every ticket wins. -/
def Awards (eligible frozen : List Candidate) (mode : SelectionMode)
    (tiePolicy : TiePolicy) (among : List Candidate) (bound : Nat)
    (share : Candidate → Nat) : Prop :=
  ∃ winner : Nat → Option String,
    (∀ words, select words eligible mode tiePolicy = do
      let ticket ← randomBelow words bound
      pure { mode, tiePolicy, eligible := frozen, winner := winner ticket })
    ∧ (∀ c ∈ among, Nat.count (fun ticket => winner ticket = some c.key)
      bound = share c)
    ∧ ∀ ticket < bound, ∃ c ∈ among, winner ticket = some c.key ∧ share c ≠ 0

variable {candidates : List Candidate}

theorem places_fair (ho : (candidates.map (·.key)).Nodup) :
    (∀ c ∈ candidates,
        Nat.count (fun p => keyAt candidates p = some c.key)
          candidates.length = 1)
      ∧ ∀ p < candidates.length, ∃ c ∈ candidates,
          keyAt candidates p = some c.key ∧ 1 ≠ 0 := by
  have hkey : ∀ p, keyAt candidates p
      = (candidates.map (·.key))[p]? :=
    fun p => (getElem?_map ..).symm
  constructor
  · intro c hc
    simp only [hkey]
    have hcn := Sampling.count_place ho (mem_map_of_mem hc)
    rwa [length_map] at hcn
  · intro p hp
    refine ⟨candidates[p], getElem_mem hp, ?_, one_ne_zero⟩
    unfold keyAt
    rw [getElem?_eq_getElem hp]
    rfl

variable {eligible frozen : List Candidate} {tiePolicy : TiePolicy}

theorem drawn_ok {α β : Type} (a : α) (f : α → Drawn β) :
    (ExceptT.mk (some (.ok a)) >>= f) = f a := rfl

theorem uniform_awards (h : freeze eligible = .ok frozen) :
    Awards eligible frozen .uniformRandom tiePolicy eligible
      eligible.length fun _ => 1 := by
  obtain ⟨hp, ho, -, -⟩ := freeze_spec h
  obtain ⟨hcn, ha⟩ := places_fair ho
  refine ⟨keyAt frozen, ?_, ?_, ?_⟩
  · intro words
    unfold select
    rw [h, drawn_ok, ← hp.length_eq]
    rfl
  · intro c hc
    rw [← hp.length_eq]
    exact hcn c (hp.mem_iff.2 hc)
  · intro p hpl
    rw [← hp.length_eq] at hpl
    obtain ⟨c, hc, hw⟩ := ha p hpl
    exact ⟨c, hp.mem_iff.1 hc, hw⟩

theorem totalWeight_eq (h : (candidates.map (·.weight)).sum ≤ u64Max) :
    totalWeight candidates = some (candidates.map (·.weight)).sum := by
  have hf : ∀ (r : List Candidate) (sum : Nat),
      sum + (r.map (·.weight)).sum ≤ u64Max →
        r.foldlM (fun sum c => checkedAdd sum c.weight) sum
          = some (sum + (r.map (·.weight)).sum) := by
    intro r
    induction r with
    | nil => exact fun sum _ => rfl
    | cons c r ih =>
      intro sum hle
      rw [map_cons, sum_cons] at hle ⊢
      rw [foldlM_cons, checkedAdd_of_le (by omega)]
      show r.foldlM _ (sum + c.weight) = _
      rw [ih _ (by omega), Nat.add_assoc]
  have hsum := hf candidates 0 (by omega)
  rwa [Nat.zero_add] at hsum

theorem weighted_awards (h : freeze eligible = .ok frozen)
    (hf : (eligible.map (·.weight)).sum ≤ u64Max) :
    Awards eligible frozen .weightedRandom tiePolicy eligible
      (eligible.map (·.weight)).sum (·.weight) := by
  obtain ⟨hp, ho, -, -⟩ := freeze_spec h
  have hsum : (frozen.map (·.weight)).sum = (eligible.map (·.weight)).sum :=
    (hp.map _).sum_eq
  have htk : Sampling.tickets
      (frozen.map fun c => (c.key, c.weight))
      = (eligible.map (·.weight)).sum := by
    rw [← hsum]
    unfold Sampling.tickets
    rw [map_map]
    rfl
  refine ⟨ticketWinner frozen, ?_, ?_, ?_⟩
  · intro words
    unfold select
    rw [h, drawn_ok, ← hsum]
    dsimp only
    rw [totalWeight_eq (hsum ▸ hf), okOr_some, drawn_ok]
    rfl
  · intro c hc
    simp only [ticketWinner_eq]
    rw [← htk]
    refine @Sampling.count_pick _ _ _ ?_ (c.key, c.weight)
      (mem_map_of_mem (hp.mem_iff.2 hc))
    rw [map_map]
    exact ho
  · intro ticket ht
    rw [← htk] at ht
    obtain ⟨key, hkey⟩ := Sampling.pick_isSome ht
    obtain ⟨row, hrow, rfl, hwt⟩ := Sampling.pick_mem hkey
    obtain ⟨c, hc, rfl⟩ := mem_map.1 hrow
    exact ⟨c, hp.mem_iff.1 hc, (ticketWinner_eq _ _).trans hkey, hwt⟩

theorem leaders_perm (h : frozen.Perm eligible) :
    (leaders frozen).Perm (leaders eligible) := by
  unfold leaders
  have hmax : (frozen.map Candidate.weight).foldl max 0
      = (eligible.map Candidate.weight).foldl max 0 :=
    (h.map _).foldl_eq 0
  rw [hmax]
  exact h.filter _

theorem tie_awards (h : freeze eligible = .ok frozen)
    (ht : 1 < (leaders eligible).length) :
    Awards eligible frozen .highestScore .random (leaders eligible)
      (leaders eligible).length fun _ => 1 := by
  obtain ⟨hpr, ho, -, -⟩ := freeze_spec h
  have hl := leaders_perm hpr
  have hld : ((leaders frozen).map (·.key)).Nodup :=
    ho.sublist (filter_sublist.map _)
  obtain ⟨hcn, ha⟩ := places_fair hld
  refine ⟨keyAt (leaders frozen), ?_, ?_, ?_⟩
  · intro words
    unfold select
    rw [h, drawn_ok, ← hl.length_eq]
    dsimp only
    rw [if_neg (by rw [hl.length_eq]; omega)]
    rfl
  · intro c hc
    rw [← hl.length_eq]
    exact hcn c (hl.mem_iff.2 hc)
  · intro p hp
    rw [← hl.length_eq] at hp
    obtain ⟨c, hc, hw⟩ := ha p hp
    exact ⟨c, hl.mem_iff.1 hc, hw⟩

theorem randomBelow_fair {r : Nat} (hb : bound < rawWords)
    (hr : r < bound) :
    Nat.count (fun v =>
      (randomBelow [some v] bound).run = some (.ok r)) rawWords
        = rawWords / bound := by
  have hpos := Nat.zero_lt_of_lt hr
  have ha := Sampling.count_accept (· = r) rawWords bound
  rw [Sampling.count_eq hr, Nat.mul_one] at ha
  rw [← ha]
  refine Sampling.count_congr fun v _ => ?_
  rw [randomBelow_word hpos hb]
  cases Sampling.accept rawWords bound v with
  | none => exact ⟨nofun, nofun⟩
  | some f =>
    constructor
    · intro hd
      exact ⟨f, rfl, Except.ok.inj (Option.some.inj hd)⟩
    · rintro ⟨_, hf, rfl⟩
      cases hf
      rfl

/-- Selections are exactly fair. Of the raw words, equally many are
reduced to every residue. With weights, every candidate has exactly its
weight of the tickets, otherwise every candidate, or every leader of a
tie, has one; and nothing but the ticket decides. -/
theorem selection_fair :
    (∀ bound r, bound < rawWords → r < bound →
      Nat.count (fun value =>
        (randomBelow [some value] bound).run = some (.ok r)) rawWords
          = rawWords / bound)
      ∧ ∀ eligible frozen tiePolicy, freeze eligible = .ok frozen →
        ((eligible.map (·.weight)).sum ≤ u64Max →
          Awards eligible frozen .weightedRandom tiePolicy eligible
            (eligible.map (·.weight)).sum (·.weight))
        ∧ Awards eligible frozen .uniformRandom tiePolicy eligible
          eligible.length (fun _ => 1)
        ∧ (1 < (leaders eligible).length →
          Awards eligible frozen .highestScore .random (leaders eligible)
            (leaders eligible).length fun _ => 1) :=
  ⟨fun _ _ => randomBelow_fair, fun _ _ _ h =>
    ⟨weighted_awards h, uniform_awards h, tie_awards h⟩⟩

/-- Three candidates, one of them without a ticket. -/
def threeCandidates : List Candidate := [⟨"mia", 2⟩, ⟨"ana", 1⟩, ⟨"zoe", 0⟩]

/-- Of three tickets two are one candidate's, and without weights one. -/
theorem selection_fair_three :
    (∃ winner : Nat → Option String,
        Nat.count (fun ticket => winner ticket = some "mia") 3 = 2)
      ∧ ∃ winner : Nat → Option String,
        Nat.count (fun ticket => winner ticket = some "mia") 3 = 1 := by
  have hf : freeze threeCandidates
      = .ok [⟨"ana", 1⟩, ⟨"mia", 2⟩, ⟨"zoe", 0⟩] := by decide +kernel
  obtain ⟨hw, ⟨u, -, hu, -⟩, -⟩ :=
    selection_fair.2 threeCandidates _ .stable hf
  obtain ⟨w, -, hwts, -⟩ := hw (by decide)
  exact ⟨⟨w, hwts ⟨"mia", 2⟩ mem_cons_self⟩, u, hu ⟨"mia", 2⟩ mem_cons_self⟩

end TikTools.Competitions
