/-
The overlay reads every result the host can project, except a round
without a winner.

The projection keeps what the parser asks for: at most `revealLimit`
candidates, each once, the winner among them, and a remaining weight that
makes up the rest of the total. What is left for the parser to refuse is
what the record itself says: no candidates at all, an empty id, another
schema version or generation zero.
-/
import TikTools.Overlays.Reveal
import Mathlib.Data.List.Nodup
import Mathlib.Data.List.Perm.Basic
import Mathlib.Algebra.Order.BigOperators.Group.List
import Mathlib.Algebra.Order.Ring.Nat
import Mathlib.Order.Basic

namespace TikTools.Overlays

open TikTools.Lib TikTools.Competitions List

-- ==== validated

variable {l : List Candidate}

theorem keysIncrease_pairwise (h : keysIncrease l = true) :
    l.Pairwise fun a b => a.key < b.key := by
  induction l with
  | nil => exact .nil
  | cons a l ih =>
    cases l with
    | nil => exact pairwise_singleton _ _
    | cons b rest =>
      obtain ⟨hab, hr⟩ := Bool.and_eq_true_iff.1 h
      have hab : a.key < b.key := of_decide_eq_true hab
      have hp := ih hr
      refine pairwise_cons.2 ⟨?_, hp⟩
      intro c hc
      rcases mem_cons.1 hc with rfl | hc
      · exact hab
      · exact String.lt_trans hab (rel_of_pairwise_cons hp hc)

/-- What a selection that is not empty was checked for. -/
structure Validated (selection : Selection) : Prop where
  bounded : selection.eligible.length ≤ 100000
  keys : ∀ c ∈ selection.eligible, c.key ≠ "" ∧ c.key.utf8ByteSize ≤ 512
  increasing : selection.eligible.Pairwise fun a b => a.key < b.key
  winner : ∀ key ∈ selection.winner, ∃ chosen ∈ selection.eligible,
    chosen.key = key ∧ (selection.mode = .weightedRandom → chosen.weight ≠ 0)
  chosen : selection.mode = .weightedRandom →
    ∃ c ∈ selection.eligible, c.weight ≠ 0

variable {selection : Selection}

theorem validate_validated (h : selection.validate = .ok ())
    (hne : selection.eligible ≠ []) : Validated selection := by
  unfold Selection.validate at h
  rw [if_neg hne] at h
  obtain ⟨hbdd, h⟩ := ensure_ok.1 h
  obtain ⟨hk, h⟩ := ensure_ok.1 h
  obtain ⟨hin, h⟩ := ensure_ok.1 h
  have hw : ∀ ch, selection.validateChoice ch = .ok () →
      selection.mode = .weightedRandom → ∃ c, ch = some c ∧ c.weight ≠ 0 := by
    intro ch hch hmd
    unfold Selection.validateChoice at hch
    rw [hmd] at hch
    obtain ⟨total, -, hch⟩ := okOr_ok.1 hch
    obtain ⟨-, hany⟩ := ensure_eq_ok.1 hch
    cases ch with
    | none => cases hany
    | some c => exact ⟨c, rfl, by simpa using hany⟩
  cases hwn : selection.winner with
  | none =>
    rw [hwn] at h
    refine ⟨hbdd, hk, keysIncrease_pairwise hin, ?_, ?_⟩
    · rw [hwn]
      exact nofun
    · intro hmd
      obtain ⟨c, hc, -⟩ := hw none h hmd
      cases hc
  | some key =>
    rw [hwn] at h
    obtain ⟨ch, hf, h⟩ := okOr_ok.1 h
    have hmem := mem_of_find?_eq_some hf
    have hkey : ch.key = key := by
      simpa using find?_some hf
    refine ⟨hbdd, hk, keysIncrease_pairwise hin, ?_, ?_⟩
    · rw [hwn]
      rintro _ ⟨⟩
      refine ⟨ch, hmem, hkey, fun hmd => ?_⟩
      obtain ⟨c, hc, hpos⟩ := hw _ h hmd
      cases hc
      exact hpos
    · intro hmd
      obtain ⟨c, hc, hpos⟩ := hw _ h hmd
      cases hc
      exact ⟨ch, hmem, hpos⟩

theorem Validated.keys_nodup (h : Validated selection) :
    (selection.eligible.map Candidate.key).Nodup := by
  rw [List.Nodup, pairwise_map]
  exact h.increasing.imp fun hlt heq =>
    absurd (heq ▸ hlt) (String.lt_irrefl _)

theorem Validated.nodup (h : Validated selection) :
    selection.eligible.Nodup := h.keys_nodup.of_map _

-- ==== projected

/-- What the candidates shown are: some of the eligible ones, each once,
the winner among them. -/
structure Projected (selection : Selection) (shown : List Candidate) :
    Prop where
  subset : ∀ c ∈ shown, c ∈ selection.eligible
  nodup : (shown.map Candidate.key).Nodup
  bounded : shown.length ≤ revealLimit
  present : shown ≠ []
  winner : ∀ key ∈ selection.winner, key ∈ shown.map Candidate.key

theorem revealEligible_projected (h : Validated selection)
    (hne : selection.eligible ≠ []) :
    ∃ shown, revealEligible selection = .ok shown
      ∧ Projected selection shown := by
  have hsub : ∀ c ∈ selection.eligible.take revealLimit,
      c ∈ selection.eligible := fun c hc => mem_of_mem_take hc
  have hn : ((selection.eligible.take revealLimit).map
      Candidate.key).Nodup :=
    ((take_sublist _ _).map _).nodup h.keys_nodup
  have hbdd : (selection.eligible.take revealLimit).length
      ≤ revealLimit := length_take_le _ _
  have hf : selection.eligible.take revealLimit ≠ [] := by
    intro hnil
    rcases take_eq_nil_iff.1 hnil with hz | hem
    · cases hz
    · exact hne hem
  unfold revealEligible
  cases hw : selection.winner with
  | none =>
    refine ⟨_, rfl, hsub, hn, hbdd, hf, ?_⟩
    rw [hw]
    exact nofun
  | some winner =>
    dsimp only
    split
    · next hany =>
      refine ⟨_, rfl, hsub, hn, hbdd, hf, ?_⟩
      rw [hw]
      rintro _ ⟨⟩
      obtain ⟨c, hc, hkey⟩ := any_eq_true.1 hany
      exact mem_map.2 ⟨c, hc, by simpa using hkey⟩
    · next hnn =>
      obtain ⟨chosen, hmem, hkey, -⟩ := h.winner winner hw
      obtain ⟨found, hfn⟩ : ∃ found, (selection.eligible.find?
          fun entry => entry.key == winner) = some found := by
        rw [← Option.isSome_iff_exists, find?_isSome]
        exact ⟨chosen, hmem, by simpa using hkey⟩
      have hfoundKey : found.key = winner := by
        simpa using find?_some hfn
      have hfoundMem := mem_of_find?_eq_some hfn
      rw [hfn]
      refine ⟨_, rfl, ?_, ?_, ?_, ?_, ?_⟩
      · intro c hc
        rcases mem_append.1 hc with hc | hc
        · exact hsub c (dropLast_subset _ hc)
        · rw [mem_singleton.1 hc]
          exact hfoundMem
      · rw [map_append, nodup_append]
        refine ⟨((dropLast_sublist _).map _).nodup hn, nodup_singleton _, ?_⟩
        intro a ha b hb hab
        rw [map_singleton, mem_singleton] at hb
        obtain ⟨c, hc, hck⟩ := mem_map.1 ha
        refine hnn (any_eq_true.2 ⟨c, dropLast_subset _ hc, ?_⟩)
        rw [beq_iff_eq, hck, hab, hb, hfoundKey]
      · rw [length_append, length_dropLast,
          length_singleton]
        have hpos := length_pos_iff.2 hf
        omega
      · exact append_ne_nil_of_right_ne_nil _ (cons_ne_nil _ _)
      · rw [hw]
        rintro _ ⟨⟩
        rw [map_append, mem_append]
        exact .inr (by simp [hfoundKey])

theorem foldlM_checkedAdd (w : Candidate → Nat) (l : List Candidate)
    (st : Nat) (h : st + (l.map w).sum ≤ u64Max) :
    l.foldlM (fun sum e => checkedAdd sum (w e)) st
      = some (st + (l.map w).sum) := by
  induction l generalizing st with
  | nil => rfl
  | cons c l ih =>
    rw [map_cons, sum_cons] at h ⊢
    have hh : checkedAdd st (w c) = some (st + w c) :=
      checkedAdd_eq_some.2 ⟨by omega, rfl⟩
    rw [foldlM_cons, hh]
    show List.foldlM _ (st + w c) l = _
    rw [ih (st + w c) (by omega)]
    congr 1
    omega

theorem Projected.split {sh : List Candidate} (hv : Validated selection)
    (h : Projected selection sh) (w : Candidate → Nat) :
    (sh.map w).sum + ((selection.eligible.filter fun e =>
      e.key ∉ sh.map Candidate.key).map w).sum
        = (selection.eligible.map w).sum := by
  have hp : sh.Perm (selection.eligible.filter fun e =>
      !decide (e.key ∉ sh.map Candidate.key)) := by
    refine (perm_ext_iff_of_nodup (h.nodup.of_map _)
      (hv.nodup.filter _)).2 fun c => ?_
    rw [mem_filter]
    constructor
    · intro hc
      refine ⟨h.subset c hc, ?_⟩
      simpa using ⟨c, hc, rfl⟩
    · rintro ⟨hc, hk⟩
      obtain ⟨d, hd, hdc⟩ : ∃ d ∈ sh, d.key = c.key := by
        simpa using hk
      -- keys are unique among the eligible ones
      have heq : d = c := inj_on_of_nodup_map hv.keys_nodup
        (h.subset d hd) hc hdc
      rwa [← heq]
  have hall := (filter_append_perm (fun e =>
    decide (e.key ∉ sh.map Candidate.key)) selection.eligible).map w
  rw [← hall.sum_eq, map_append, sum_append, (hp.map w).sum_eq]
  exact Nat.add_comm _ _

-- ==== parsed

theorem parseEligible_map {keys : List String}
    (hk : ∀ c ∈ l, c.key ≠ "" ∧ c.key.utf8ByteSize ≤ 512
      ∧ c.weight ≤ maxSafe) (hn : (l.map Candidate.key).Nodup)
    (hf : ∀ c ∈ l, c.key ∉ keys) :
    parseEligible (l.map candidateJson) keys = some l := by
  induction l generalizing keys with
  | nil => rfl
  | cons c l ih =>
    obtain ⟨hne, hs, hwt⟩ := hk c mem_cons_self
    rw [map_cons, nodup_cons] at hn
    have hlen : jsLength c.key ≤ 512 := (jsLength_le c.key).trans hs
    have hr : nonEmptyText (some (.string c.key)) = some c.key := by
      simp [nonEmptyText, Json.asStr, hne]
    have hrs : parseEligible (l.map candidateJson) (c.key :: keys)
        = some l := by
      refine ih (fun d hd => hk d (mem_cons_of_mem _ hd))
        hn.2 fun d hd hmem => ?_
      rcases mem_cons.1 hmem with heq | hmem
      · exact hn.1 (heq ▸ mem_map_of_mem hd)
      · exact hf d (mem_cons_of_mem _ hd) hmem
    show (do
      let key ← nonEmptyText (some (.string c.key))
      guard (jsLength key ≤ 512 ∧ key ∉ keys)
      let weight ← (Json.ofNat c.weight).safeNat
      let others ← parseEligible (l.map candidateJson) (key :: keys)
      return (⟨key, weight⟩ :: others : List Candidate)) = _
    rw [hr, Json.safeNat_ofNat hwt]
    simp [guard, hlen, hf c mem_cons_self, hrs]

/-- What the overlay should read: what the host wrote. -/
def RevealSnapshot.result (snapshot : RevealSnapshot) : RevealResult where
  competitionId := snapshot.competitionId
  rankingId := snapshot.rankingId
  generation := snapshot.generation
  winner := snapshot.selection.winner
  mode := .string snapshot.selection.mode.text
  eligible := snapshot.selection.eligible
  eligibleCount := snapshot.eligibleCount
  otherWeight := snapshot.otherWeight

theorem parseRevealResult_envelope (snapshot : RevealSnapshot) :
    parseRevealResult snapshot.envelope = (do
      guard ((Json.ofNat snapshot.schemaVersion).safeNat = some 1)
      let competitionId ← nonEmptyText (some (.string snapshot.competitionId))
      let rankingId ← nonEmptyText (some (.string snapshot.rankingId))
      let generation ← (Json.ofNat snapshot.generation).safeNat
      guard (1 ≤ generation)
      guard (modeNames.contains snapshot.selection.mode.text)
      let items := snapshot.selection.eligible.map candidateJson
      guard (items.length ≠ 0 ∧ items.length ≤ revealLimit)
      let winner ← parseWinner (some
        (snapshot.selection.winner.elim .null .string))
      let eligible ← parseEligible items []
      guard (winner.all fun key =>
        (eligible.map Candidate.key).contains key)
      let eligibleCount ← (Json.ofNat snapshot.eligibleCount).safeNat
      guard (eligible.length ≤ eligibleCount)
      let otherWeight ← (Json.ofNat snapshot.otherWeight).safeNat
      let weighted := Json.string snapshot.selection.mode.text
        = .string "weighted_random"
      let total := eligible.foldl (fun sum e =>
        sum + if weighted then e.weight else 1) otherWeight
      guard (total ≤ maxSafe ∧ 0 < total)
      guard ¬ (weighted ∧ winner.any fun key =>
        (eligible.find? fun e => e.key = key).all fun e =>
          e.weight = 0)
      return {
        competitionId, rankingId, generation, winner
        mode := .string snapshot.selection.mode.text
        eligible, eligibleCount, otherWeight }) := rfl

theorem text_weighted {m : SelectionMode} :
    Json.string m.text = .string "weighted_random" ↔ m = .weightedRandom := by
  cases m <;> decide

theorem foldl_drawWeight (m : SelectionMode) (l : List Candidate)
    (st : Nat) :
    l.foldl (fun sum e => sum
      + if Json.string m.text = .string "weighted_random"
        then e.weight else 1) st
        = st + (l.map (drawWeight m)).sum := by
  induction l generalizing st with
  | nil => rfl
  | cons c l ih =>
    rw [foldl_cons, ih, map_cons, sum_cons, Nat.add_assoc]
    unfold drawWeight
    simp only [text_weighted]

/-- What of a projection the overlay checks beyond the record's own
fields. -/
structure Readable (snapshot : RevealSnapshot) : Prop where
  bounded : snapshot.selection.eligible.length ≤ revealLimit
  entries : ∀ c ∈ snapshot.selection.eligible, c.key ≠ ""
    ∧ c.key.utf8ByteSize ≤ 512 ∧ c.weight ≤ maxSafe
  nodup : (snapshot.selection.eligible.map Candidate.key).Nodup
  winner : ∀ key ∈ snapshot.selection.winner,
    key ∈ snapshot.selection.eligible.map Candidate.key
  count : snapshot.selection.eligible.length ≤ snapshot.eligibleCount
  safeCount : snapshot.eligibleCount ≤ maxSafe
  total : snapshot.otherWeight + (snapshot.selection.eligible.map
    (drawWeight snapshot.selection.mode)).sum ≤ maxSafe
  drawn : 0 < snapshot.otherWeight + (snapshot.selection.eligible.map
    (drawWeight snapshot.selection.mode)).sum
  chosen : snapshot.selection.mode = .weightedRandom →
    ∀ key ∈ snapshot.selection.winner, ∀ c ∈ snapshot.selection.eligible,
      c.key = key → c.weight ≠ 0

variable {p : Prop}

theorem guard_pos [Decidable p] (h : p) :
    (guard p : Option Unit) = some () := if_pos h

theorem of_guard [Decidable p] {u : Unit}
    (h : (guard p : Option Unit) = some u) : p := by
  unfold guard at h
  split at h
  · assumption
  · cases h

variable {s : String}

theorem nonEmptyText_string (h : s ≠ "") :
    nonEmptyText (some (.string s)) = some s := by
  exact Option.filter_eq_some_iff.2 ⟨rfl, decide_eq_true h⟩

theorem nonEmptyText_ne {a : String}
    (h : nonEmptyText (some (.string s)) = some a) : s ≠ "" := by
  obtain ⟨heq, hne⟩ := Option.filter_eq_some_iff.1 h
  cases heq
  exact of_decide_eq_true hne

variable {snapshot : RevealSnapshot}

theorem parseRevealResult_readable (h : Readable snapshot)
    (hs : snapshot.schemaVersion = 1)
    (hcm : snapshot.competitionId ≠ "")
    (hr : snapshot.rankingId ≠ "")
    (hg : 1 ≤ snapshot.generation)
    (hsf : snapshot.generation ≤ maxSafe)
    (hp : snapshot.selection.eligible ≠ []) :
    parseRevealResult snapshot.envelope = some snapshot.result := by
  have hone : (Json.ofNat snapshot.schemaVersion).safeNat = some 1 := by
    rw [hs, Json.safeNat_ofNat (by decide)]
  have hmd : modeNames.contains snapshot.selection.mode.text = true := by
    cases snapshot.selection.mode <;> rfl
  have hit : (snapshot.selection.eligible.map candidateJson).length ≠ 0
      ∧ (snapshot.selection.eligible.map candidateJson).length
        ≤ revealLimit := by
    rw [length_map]
    exact ⟨fun h0 => hp (length_eq_zero_iff.1 h0), h.bounded⟩
  have hwn : parseWinner (some (snapshot.selection.winner.elim .null
      .string)) = some snapshot.selection.winner := by
    cases snapshot.selection.winner <;> rfl
  have hen := parseEligible_map h.entries h.nodup
    (fun c _ => not_mem_nil (a := c.key))
  have ho : snapshot.otherWeight ≤ maxSafe :=
    (Nat.le_add_right _ _).trans h.total
  have hmm : snapshot.selection.winner.all (fun key =>
      (snapshot.selection.eligible.map Candidate.key).contains key)
        = true := by
    cases hw : snapshot.selection.winner with
    | none => rfl
    | some key => exact contains_iff_mem.2 (h.winner key hw)
  have hl : ¬ (Json.string snapshot.selection.mode.text
        = .string "weighted_random"
      ∧ snapshot.selection.winner.any fun key =>
        (snapshot.selection.eligible.find? fun entry =>
          decide (entry.key = key)).all fun entry =>
            decide (entry.weight = 0)) := by
    rintro ⟨hwg, hany⟩
    cases hw : snapshot.selection.winner with
    | none =>
      rw [hw] at hany
      cases hany
    | some key =>
      rw [hw, Option.any_some] at hany
      obtain ⟨c, hc, hck⟩ := mem_map.1 (h.winner key hw)
      obtain ⟨found, hf⟩ : ∃ found,
          (snapshot.selection.eligible.find? fun entry =>
            decide (entry.key = key)) = some found := by
        rw [← Option.isSome_iff_exists, find?_isSome]
        exact ⟨c, hc, decide_eq_true hck⟩
      rw [hf, Option.all_some] at hany
      exact h.chosen (text_weighted.1 hwg) key hw found
        (mem_of_find?_eq_some hf)
        (by simpa using find?_some hf)
        (of_decide_eq_true hany)
  have ht := h.total
  have hd := h.drawn
  rw [← foldl_drawWeight] at ht hd
  rw [parseRevealResult_envelope]
  simp only [Option.bind_eq_bind, Option.bind_some, guard_pos hone,
    nonEmptyText_string hcm, nonEmptyText_string hr,
    Json.safeNat_ofNat hsf, guard_pos hg, guard_pos hmd,
    guard_pos hit, hwn, hen, guard_pos hmm,
    Json.safeNat_ofNat h.safeCount, guard_pos h.count,
    Json.safeNat_ofNat ho, guard_pos (And.intro ht hd),
    guard_pos hl]
  rfl

theorem parseRevealResult_some {read : RevealResult}
    (h : parseRevealResult snapshot.envelope = some read) :
    snapshot.schemaVersion = 1 ∧ snapshot.competitionId ≠ ""
      ∧ snapshot.rankingId ≠ "" ∧ 1 ≤ snapshot.generation
      ∧ snapshot.selection.eligible ≠ [] := by
  rw [parseRevealResult_envelope] at h
  obtain ⟨_, hs, h⟩ := Option.bind_eq_some_iff.1 h
  obtain ⟨_, hc, h⟩ := Option.bind_eq_some_iff.1 h
  obtain ⟨_, hr, h⟩ := Option.bind_eq_some_iff.1 h
  obtain ⟨_, hg, h⟩ := Option.bind_eq_some_iff.1 h
  obtain ⟨_, hone, h⟩ := Option.bind_eq_some_iff.1 h
  obtain ⟨_, -, h⟩ := Option.bind_eq_some_iff.1 h
  obtain ⟨_, hp, -⟩ := Option.bind_eq_some_iff.1 h
  refine ⟨Json.safeNat_ofNat_eq_some (of_guard hs),
    nonEmptyText_ne hc, nonEmptyText_ne hr, ?_, ?_⟩
  · rw [Json.safeNat_ofNat_eq_some hg]
    exact of_guard hone
  · intro hem
    rw [hem] at hp
    exact (of_guard hp).1 rfl

-- ==== accepted

theorem revealSnapshot_readable {result : ResultRecord}
    (hvl : result.selection.validate = .ok ())
    (ht : (result.selection.eligible.map Candidate.weight).sum ≤ maxSafe) :
    ∃ snapshot, revealSnapshot result = .ok snapshot
      ∧ snapshot.schemaVersion = result.schemaVersion
      ∧ snapshot.competitionId = result.competitionId
      ∧ snapshot.rankingId = result.rankingId
      ∧ snapshot.generation = result.generation
      ∧ (snapshot.selection.eligible = [] ↔ result.selection.eligible = [])
      ∧ (result.selection.eligible ≠ [] → Readable snapshot) := by
  unfold revealSnapshot
  rw [hvl]
  by_cases hne : result.selection.eligible = []
  · have hw : result.selection.winner = none := by
      unfold Selection.validate at hvl
      rw [if_pos hne] at hvl
      exact ensure_eq_ok.1 hvl
    have hem : revealEligible result.selection = .ok [] := by
      unfold revealEligible
      rw [hw, hne]
      rfl
    rw [hem, hne]
    exact ⟨_, rfl, rfl, rfl, rfl, rfl, Iff.rfl, fun h => absurd rfl h⟩
  · have hv := validate_validated hvl hne
    obtain ⟨shown, hs, hp⟩ := revealEligible_projected hv hne
    have hsp := hp.split hv (drawWeight result.selection.mode)
    have hwts : ∀ c ∈ result.selection.eligible, c.weight ≤ maxSafe :=
      fun c hc => (single_le_sum (fun _ _ => Nat.zero_le _) _
        (mem_map_of_mem hc)).trans ht
    -- uniform draws count candidates, weighted ones their weights
    have hd : (result.selection.eligible.map
        (drawWeight result.selection.mode)).sum ≤ maxSafe := by
      unfold drawWeight
      by_cases hmd : result.selection.mode = .weightedRandom
      · simpa [hmd] using ht
      · have hlen := hv.bounded
        have hmax : 100000 ≤ maxSafe := by decide
        simp [hmd]
        omega
    have hpos : 0 < (result.selection.eligible.map
        (drawWeight result.selection.mode)).sum := by
      unfold drawWeight
      by_cases hmd : result.selection.mode = .weightedRandom
      · obtain ⟨c, hc, hwt⟩ := hv.chosen hmd
        have hle := single_le_sum (fun _ _ => Nat.zero_le _) _
          (mem_map_of_mem (f := Candidate.weight) hc)
        simp only [hmd, if_true]
        exact Nat.lt_of_lt_of_le (Nat.pos_of_ne_zero hwt) hle
      · have hlen := length_pos_iff.2 hne
        simpa [hmd] using hlen
    have hmax : maxSafe ≤ u64Max := by decide
    have ho := foldlM_checkedAdd (drawWeight result.selection.mode)
      (result.selection.eligible.filter fun entry =>
        entry.key ∉ shown.map Candidate.key) 0 (by omega)
    rw [hs]
    dsimp only [bind, Except.bind]
    rw [ho]
    refine ⟨_, rfl, rfl, rfl, rfl, rfl, ?_, fun _ => ?_⟩
    · exact ⟨fun h => absurd h hp.present, fun h => absurd h hne⟩
    constructor
    · exact hp.bounded
    · intro c hc
      have hmem := hp.subset c hc
      exact ⟨(hv.keys c hmem).1, (hv.keys c hmem).2, hwts c hmem⟩
    · exact hp.nodup
    · exact hp.winner
    · have hle := (hp.nodup.of_map _).length_le_of_subset hp.subset
      exact hle
    · have hmax : 100000 ≤ maxSafe := by decide
      exact hv.bounded.trans hmax
    · show _ + _ ≤ maxSafe
      dsimp only
      omega
    · dsimp only
      omega
    · intro hmd key hkey c hc hck
      obtain ⟨chosen, hch, hk, hwt⟩ := hv.winner key hkey
      have heq : c = chosen := inj_on_of_nodup_map hv.keys_nodup
        (hp.subset c hc) hch (hck.trans hk.symm)
      rw [heq]
      exact hwt hmd

-- ==== controller

variable {controller : RevealController} {envelope : Json}

theorem handleEnvelope_shown {result : RevealResult}
    (h : (controller.handleEnvelope envelope).2 = some result) :
    controller.Accepts result
      ∧ (controller.handleEnvelope envelope).1.current = some result := by
  unfold RevealController.handleEnvelope at h ⊢
  split at h
  · cases h
  · split at h
    · next ha =>
      cases h
      rw [if_pos ha]
      exact ⟨ha, rfl⟩
    · cases h

theorem handleEnvelope_current
    (h : (controller.handleEnvelope envelope).2 = none) :
    (controller.handleEnvelope envelope).1 = controller := by
  unfold RevealController.handleEnvelope at h ⊢
  cases hr : parseRevealResult envelope with
  | none => rfl
  | some result =>
    rw [hr] at h
    dsimp only at h ⊢
    split
    · next ha =>
      rw [if_pos ha] at h
      cases h
    · rfl

/-- What follows what is shown: the same competition, a later round. -/
def Follows (earlier later : RevealResult) : Prop :=
  later.competitionId = earlier.competitionId
    ∧ earlier.generation < later.generation

theorem shown_follows (controller : RevealController)
    (e : List Json) :
    (controller.shown e).Pairwise Follows
      ∧ ∀ c ∈ controller.current,
        ∀ result ∈ controller.shown e, Follows c result := by
  induction e generalizing controller with
  | nil => exact ⟨.nil, fun _ _ _ h => absurd h not_mem_nil⟩
  | cons envelope rest ih =>
    obtain ⟨hp, hcur⟩ := ih (controller.handleEnvelope envelope).1
    unfold RevealController.shown
    dsimp only
    cases hs : (controller.handleEnvelope envelope).2 with
    | none =>
      rw [handleEnvelope_current hs] at hp hcur ⊢
      exact ⟨hp, hcur⟩
    | some result =>
      obtain ⟨ha, hnow⟩ := handleEnvelope_shown hs
      have hl := hcur result hnow
      refine ⟨pairwise_cons.2 ⟨hl, hp⟩, ?_⟩
      intro c hc later hmem
      obtain ⟨hsm, hge, hne⟩ := ha.2.2 c hc
      have hf : Follows c result := ⟨hsm, by omega⟩
      rcases mem_cons.1 hmem with rfl | hmem
      · exact hf
      · have hn := hl later hmem
        exact ⟨hn.1.trans hf.1, hf.2.trans hn.2⟩

-- ==== results

/-- A committed result whose numbers are safe is projected, and the
overlay reads the projection back exactly when there is a candidate and
the record is a named one of this schema; and what an overlay shows of
any envelopes are later and later rounds of one competition. -/
theorem reveal_reaches_overlay (result : ResultRecord)
    (hvalid : result.selection.validate = .ok ())
    (hgeneration : result.generation ≤ maxSafe)
    (htotal : (result.selection.eligible.map Candidate.weight).sum ≤ maxSafe)
    (controller : RevealController) (envelopes : List Json) :
    (∃ snapshot, revealSnapshot result = .ok snapshot
      ∧ (parseRevealResult snapshot.envelope = some snapshot.result
        ↔ result.selection.eligible ≠ [] ∧ result.schemaVersion = 1
          ∧ result.competitionId ≠ "" ∧ result.rankingId ≠ ""
          ∧ 1 ≤ result.generation))
      ∧ (controller.shown envelopes).Pairwise fun earlier later =>
        later.competitionId = earlier.competitionId
          ∧ earlier.generation < later.generation := by
  refine ⟨?_, (shown_follows controller envelopes).1⟩
  obtain ⟨snapshot, hok, hs, hc, hrn, hgen, hem,
    hr⟩ := revealSnapshot_readable hvalid htotal
  refine ⟨snapshot, hok, ?_⟩
  rw [← hs, ← hc, ← hrn, ← hgen]
  constructor
  · intro hrd
    obtain ⟨h1, h2, h3, h4, h5⟩ := parseRevealResult_some hrd
    exact ⟨fun h => h5 (hem.2 h), h1, h2, h3, h4⟩
  · rintro ⟨hne, h1, h2, h3, h4⟩
    exact parseRevealResult_readable (hr hne) h1 h2 h3 h4
      (hgen ▸ hgeneration) fun h => hne (hem.1 h)

/-- A challenge whose target nobody reached. -/
def nobodyReached : ResultRecord where
  schemaVersion := 1
  competitionId := "race"
  generation := 1
  rankingId := "likes"
  rankingRevision := 4
  finalizedAt := 1000
  selection := ⟨.highestScore, .stable, [], none⟩

/-- The round without a winner is valid and published, and the overlay
drops it. -/
theorem nobody_reached_dropped :
    nobodyReached.selection.validate = .ok ()
      ∧ ∃ snapshot, revealSnapshot nobodyReached = .ok snapshot
        ∧ parseRevealResult snapshot.envelope = none :=
  ⟨rfl, _, rfl, rfl⟩

/-- A weighted draw between two participants. -/
def weightedDraw : ResultRecord where
  schemaVersion := 1
  competitionId := "draw"
  generation := 2
  rankingId := "likes"
  rankingRevision := 4
  finalizedAt := 1000
  selection := ⟨.weightedRandom, .stable, [⟨"ann", 3⟩, ⟨"bob", 5⟩],
    some "bob"⟩

theorem weighted_draw_reaches_overlay :
    ∃ snapshot, revealSnapshot weightedDraw = .ok snapshot
      ∧ parseRevealResult snapshot.envelope = some snapshot.result := by
  obtain ⟨⟨snapshot, hok, hr⟩, -⟩ := reveal_reaches_overlay weightedDraw
    (by decide +kernel) (by decide) (by decide) ⟨"likes", none, none⟩ []
  exact ⟨snapshot, hok, hr.2 (by decide)⟩

end TikTools.Overlays
