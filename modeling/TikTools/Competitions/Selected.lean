/-
What every selection is.

`select` and `select_manual` choose a winner, `Selection::validate`
computes again what may have been chosen, and the reveal shows an
excerpt of the candidates around the winner. The three are written apart.
Here they agree: what is selected is valid (`select_valid`), what is
valid has the winner its mode and tie policy ask for
(`lawful_of_validate`), and its reveal leaves nothing out of account
(`revealSnapshot_fair`).
-/
import TikTools.Competitions.Draws
import TikTools.Overlays.Revealed

namespace TikTools.Competitions

open TikTools.Lib TikTools.Overlays List

-- ==== manual choice

/-- Resolve a manual highest-score tie among the frozen candidates. -/
def selectManual (eligible : List Candidate) (winner : String) :
    Except Error Selection := do
  ensure (eligible ≠ [] ∧ eligible.length ≤ 100000 ∧ winner ≠ "")
    .invalidCandidate
  let eligible := eligible.insertionSort fun a b => a.key ≤ b.key
  ensure (2 ≤ (leaders eligible).length
    ∧ (leaders eligible).any fun candidate => candidate.key == winner)
    .invalidCandidate
  let selection : Selection :=
    { mode := .highestScore
      tiePolicy := .manual
      eligible
      winner := some winner }
  selection.validate
  return selection

-- ==== the law

/-- A candidate with the maximum score. -/
def Leads (eligible : List Candidate) (candidate : Candidate) : Prop :=
  candidate ∈ eligible ∧ ∀ other ∈ eligible, other.weight ≤ candidate.weight

def Tied (eligible : List Candidate) : Prop :=
  ∃ a b, Leads eligible a ∧ Leads eligible b ∧ a ≠ b

/-- What the mode and the tie policy ask of the winner. -/
def Selection.Lawful (selection : Selection) : Prop :=
  match selection.mode, selection.winner with
  | .highestScore, none =>
    selection.tiePolicy = .noWinner ∧ Tied selection.eligible
  | .highestScore, some key => ∃ c, Leads selection.eligible c
      ∧ c.key = key
      ∧ (Tied selection.eligible → selection.tiePolicy ≠ .noWinner
        ∧ (selection.tiePolicy = .stable →
          ∀ other, Leads selection.eligible other → c.key ≤ other.key))
  | .uniformRandom, winner => ∃ c ∈ selection.eligible,
      winner = some c.key
  | .weightedRandom, winner => ∃ c ∈ selection.eligible,
      0 < c.weight ∧ winner = some c.key

-- ==== leaders

theorem foldl_max_spec (weights : List Nat) (start : Nat) :
    (∀ w ∈ start :: weights, w ≤ weights.foldl max start)
      ∧ weights.foldl max start ∈ start :: weights := by
  induction weights generalizing start with
  | nil =>
    refine ⟨fun w hw => ?_, mem_cons_self⟩
    rw [mem_singleton.1 hw]
    exact Nat.le_refl _
  | cons wg rest ih =>
    obtain ⟨hle, hm⟩ := ih (max start wg)
    have hs := hle _ mem_cons_self
    rw [foldl_cons]
    refine ⟨fun w hw => ?_, ?_⟩
    · rcases mem_cons.1 hw with rfl | hw
      · exact Nat.le_trans (Nat.le_max_left _ _) hs
      rcases mem_cons.1 hw with rfl | hw
      · exact Nat.le_trans (Nat.le_max_right _ _) hs
      · exact hle w (mem_cons_of_mem _ hw)
    · rcases mem_cons.1 hm with h | hin
      · rw [h]
        rcases Nat.le_total start wg with hlt | hlt
        · rw [Nat.max_eq_right hlt]
          exact mem_cons_of_mem _ mem_cons_self
        · rw [Nat.max_eq_left hlt]
          exact mem_cons_self
      · exact mem_cons_of_mem _ (mem_cons_of_mem _ hin)

variable {c : Candidate}

theorem mem_leaders {eligible : List Candidate} :
    c ∈ leaders eligible ↔ Leads eligible c := by
  obtain ⟨hle, hm⟩ := foldl_max_spec (eligible.map Candidate.weight) 0
  unfold leaders Leads
  rw [mem_filter, beq_iff_eq]
  refine and_congr_right fun hc => ?_
  have hb := hle c.weight (mem_cons_of_mem _ (mem_map_of_mem hc))
  constructor
  · intro heq other ho
    rw [heq]
    exact hle _ (mem_cons_of_mem _ (mem_map_of_mem ho))
  · intro hall
    refine Nat.le_antisymm hb ?_
    rcases mem_cons.1 hm with hz | hin
    · rw [hz]
      exact Nat.zero_le _
    · obtain ⟨other, ho, heq⟩ := mem_map.1 hin
      rw [← heq]
      exact hall other ho

theorem leaders_ne_nil {eligible : List Candidate} (h : eligible ≠ []) :
    leaders eligible ≠ [] := by
  obtain ⟨hle, hm⟩ := foldl_max_spec (eligible.map Candidate.weight) 0
  obtain ⟨first, rest, rfl⟩ := exists_cons_of_ne_nil h
  rcases mem_cons.1 hm with hz | hin
  · refine ne_nil_of_mem (mem_leaders.2
      ⟨mem_cons_self, fun other ho => ?_⟩)
    have ho := hle _ (mem_cons_of_mem _
      (mem_map_of_mem (f := Candidate.weight) ho))
    rw [hz] at ho
    exact Nat.le_trans ho (Nat.zero_le _)
  · obtain ⟨best, hb, heq⟩ := mem_map.1 hin
    refine ne_nil_of_mem (mem_leaders.2 ⟨hb, fun other ho => ?_⟩)
    rw [heq]
    exact hle _ (mem_cons_of_mem _ (mem_map_of_mem ho))

theorem tied_iff {eligible : List Candidate} (hn : eligible.Nodup) :
    1 < (leaders eligible).length ↔ Tied eligible := by
  have hl : (leaders eligible).Nodup := hn.sublist filter_sublist
  unfold Tied
  simp only [← mem_leaders]
  generalize leaders eligible = tied at hl ⊢
  constructor
  · intro hmn
    match tied, hmn with
    | a :: b :: rest, _ =>
      refine ⟨a, b, mem_cons_self,
        mem_cons_of_mem _ mem_cons_self, fun hab => ?_⟩
      rw [hab] at hl
      exact (nodup_cons.1 hl).1 mem_cons_self
  · rintro ⟨a, b, ha, hb, hab⟩
    match tied with
    | [] => exact (not_mem_nil ha).elim
    | [c] =>
      rw [mem_singleton] at ha hb
      exact absurd (ha.trans hb.symm) hab
    | _ :: _ :: _ => exact Nat.succ_lt_succ (Nat.succ_pos _)

-- ==== frozen

theorem keysIncrease_of_pairwise {eligible : List Candidate}
    (h : eligible.Pairwise fun a b => a.key < b.key) :
    keysIncrease eligible = true := by
  induction eligible with
  | nil => rfl
  | cons a r ih =>
    cases r with
    | nil => rfl
    | cons b r =>
      obtain ⟨hf, hr⟩ := pairwise_cons.1 h
      unfold keysIncrease
      rw [ih hr, Bool.and_true]
      exact decide_eq_true (hf b mem_cons_self)

theorem pairwise_lt {eligible : List Candidate}
    (hs : eligible.Pairwise fun a b => a.key ≤ b.key)
    (hn : (eligible.map Candidate.key).Nodup) :
    eligible.Pairwise fun a b => a.key < b.key := by
  rw [List.Nodup, pairwise_map] at hn
  exact hs.imp₂ (fun a b hle hne => lt_of_le_of_ne hle hne) hn

/-- What a selection freezes is what `validate` asks for. -/
structure Frozen (eligible frozen : List Candidate) : Prop where
  perm : frozen.Perm eligible
  present : frozen ≠ []
  bounded : frozen.length ≤ 100000
  keys : ∀ c ∈ frozen, c.key ≠ "" ∧ c.key.utf8ByteSize ≤ 512
  increasing : frozen.Pairwise fun a b => a.key < b.key

theorem freeze_frozen {eligible frozen : List Candidate}
    (h : freeze eligible = .ok frozen) : Frozen eligible frozen := by
  obtain ⟨hp, hn, hl, hne⟩ := freeze_spec h
  obtain ⟨-, h⟩ := ensure_ok.1 h
  obtain ⟨hk, h⟩ := ensure_ok.1 h
  obtain ⟨-, h⟩ := ensure_ok.1 h
  cases h
  refine ⟨hp, fun hnil => hne ?_, ?_, ?_,
    pairwise_lt (pairwise_insertionSort _ _) hn⟩
  · rw [hnil] at hp
    exact hp.symm.eq_nil
  · rw [hp.length_eq]
    exact hl
  · exact fun c hc => hk c (hp.mem_iff.1 hc)

namespace Frozen

variable {eligible frozen : List Candidate}

theorem keys_nodup (h : Frozen eligible frozen) :
    (frozen.map Candidate.key).Nodup := by
  rw [List.Nodup, pairwise_map]
  exact h.increasing.imp fun hlt heq => absurd heq (ne_of_lt hlt)

theorem find_key (h : Frozen eligible frozen) {c : Candidate}
    (hc : c ∈ frozen) :
    (frozen.find? fun other => other.key == c.key) = some c := by
  obtain ⟨found, hf⟩ : ∃ found,
      (frozen.find? fun other => other.key == c.key) = some found := by
    rw [← Option.isSome_iff_exists, find?_isSome]
    exact ⟨c, hc, beq_self_eq_true _⟩
  have hkey : found.key = c.key := by
    simpa using find?_some hf
  rw [hf, inj_on_of_nodup_map h.keys_nodup (mem_of_find?_eq_some hf) hc hkey]

theorem validate (h : Frozen eligible frozen) {mode : SelectionMode}
    {tiePolicy : TiePolicy} (ch : Option Candidate)
    (hch : ∀ c ∈ ch, c ∈ frozen)
    (hc : Selection.validateChoice ⟨mode, tiePolicy, frozen,
      ch.map Candidate.key⟩ ch = .ok ()) :
    Selection.validate ⟨mode, tiePolicy, frozen,
      ch.map Candidate.key⟩ = .ok () := by
  unfold Selection.validate
  rw [if_neg h.present, ensure_true h.bounded, ensure_true h.keys,
    ensure_true (keysIncrease_of_pairwise h.increasing)]
  cases ch with
  | none => exact hc
  | some c =>
    rw [Option.map_some] at hc ⊢
    dsimp only
    rw [h.find_key (hch c rfl)]
    exact hc

end Frozen

-- ==== draws

theorem drawn_bind_eq_ok {α β : Type} {x : Drawn α} {f : α → Drawn β}
    {b : β} : (x >>= f).run = some (.ok b)
      ↔ ∃ a, x.run = some (.ok a) ∧ (f a).run = some (.ok b) := by
  rw [ExceptT.run_bind]
  cases x.run with
  | none => exact ⟨nofun, fun ⟨_, h, _⟩ => nomatch h⟩
  | some result =>
    cases result with
    | error e => exact ⟨nofun, fun ⟨_, h, _⟩ => nomatch h⟩
    | ok a =>
      constructor
      · intro h
        exact ⟨a, rfl, h⟩
      · rintro ⟨_, ⟨⟩, h⟩
        exact h

variable {words : List (Option Nat)}

theorem randomBelow_lt {bound value : Nat}
    (h : (randomBelow words bound).run = some (.ok value)) :
    value < bound := by
  unfold randomBelow at h
  split at h
  · cases h
  · next hpos =>
    induction words with
    | nil => cases h
    | cons word words ih =>
      cases word with
      | none => cases h
      | some word =>
        unfold randomLoop at h
        split at h
        · have hv : word % bound = value :=
            Except.ok.inj (Option.some.inj h)
          rw [← hv]
          exact Nat.mod_lt _ (Nat.pos_of_ne_zero hpos)
        · exact ih h

variable {eligible frozen : List Candidate} {tiePolicy : TiePolicy}

theorem keyAt_eq {ca : List Candidate} {p : Nat}
    (h : p < ca.length) :
    ∃ c ∈ ca, keyAt ca p = some c.key := by
  refine ⟨ca[p], getElem_mem h, ?_⟩
  unfold keyAt
  rw [getElem?_eq_getElem h]
  rfl

/-- What a call asked for, frozen and valid. -/
structure Selected (frozen : List Candidate) (mode : SelectionMode)
    (tiePolicy : TiePolicy) (selection : Selection) : Prop where
  eligible : selection.eligible = frozen
  mode : selection.mode = mode
  tiePolicy : selection.tiePolicy = tiePolicy
  valid : selection.validate = .ok ()

theorem leader_valid (h : Frozen eligible frozen) (hc : c ∈ leaders frozen)
    (hp : 1 < (leaders frozen).length → tiePolicy ≠ .noWinner
      ∧ (tiePolicy = .stable → (leaders frozen).head? = some c)) :
    Selection.validate ⟨.highestScore, tiePolicy, frozen, some c.key⟩
      = .ok () := by
  refine h.validate (some c) ?_ ?_
  · rintro _ ⟨⟩
    exact (mem_leaders.1 hc).1
  · refine ensure_true ⟨hc, fun hb => (hp hb.1).1 hb.2,
      fun hb => hb.2.2 ?_⟩
    rw [(hp hb.1).2 hb.2.1]
    rfl

variable {selection : Selection}

theorem highest_selected (h : Frozen eligible frozen)
    (hs : (select words eligible .highestScore tiePolicy).run
      = some (.ok selection)) (hfr : freeze eligible = .ok frozen) :
    Selected frozen .highestScore tiePolicy selection := by
  unfold select at hs
  rw [hfr, drawn_ok] at hs
  dsimp only at hs
  obtain ⟨first, rest, hl⟩ := exists_cons_of_ne_nil (leaders_ne_nil h.present)
  have hf : first ∈ leaders frozen := by
    rw [hl]
    exact mem_cons_self
  have hkey : keyAt (leaders frozen) 0 = some first.key := by
    rw [hl]
    rfl
  have hh : (leaders frozen).head? = some first := by
    rw [hl]
    rfl
  split at hs
  · next hone =>
    have heq : (⟨.highestScore, tiePolicy, frozen,
        keyAt (leaders frozen) 0⟩ : Selection) = selection :=
      Except.ok.inj (Option.some.inj hs)
    rw [← heq, hkey]
    exact ⟨rfl, rfl, rfl, leader_valid h hf fun hmn => by omega⟩
  · next hmn =>
    have ht : 1 < (leaders frozen).length := by
      rw [hl] at hmn ⊢
      rw [length_cons] at hmn ⊢
      omega
    cases tiePolicy with
    | manual => cases hs
    | noWinner =>
      cases hs
      exact ⟨rfl, rfl, rfl, h.validate none nofun (ensure_true ⟨rfl, ht⟩)⟩
    | stable =>
      have heq : (⟨.highestScore, .stable, frozen,
          keyAt (leaders frozen) 0⟩ : Selection) = selection :=
        Except.ok.inj (Option.some.inj hs)
      rw [← heq, hkey]
      exact ⟨rfl, rfl, rfl, leader_valid h hf fun _ =>
        ⟨nofun, fun _ => hh⟩⟩
    | random =>
      obtain ⟨place, hp, hr⟩ := drawn_bind_eq_ok.1 hs
      obtain ⟨c, hc, hat⟩ := keyAt_eq (randomBelow_lt hp)
      have heq : (⟨.highestScore, .random, frozen,
          keyAt (leaders frozen) place⟩ : Selection) = selection :=
        Except.ok.inj (Option.some.inj hr)
      rw [← heq, hat]
      exact ⟨rfl, rfl, rfl, leader_valid h hc fun _ =>
        ⟨nofun, nofun⟩⟩

theorem uniform_selected (h : Frozen eligible frozen)
    (hs : (select words eligible .uniformRandom tiePolicy).run
      = some (.ok selection)) (hf : freeze eligible = .ok frozen) :
    Selected frozen .uniformRandom tiePolicy selection := by
  unfold select at hs
  rw [hf, drawn_ok] at hs
  obtain ⟨p, hp, hr⟩ := drawn_bind_eq_ok.1 hs
  obtain ⟨c, hc, hat⟩ := keyAt_eq (randomBelow_lt hp)
  have heq : (⟨.uniformRandom, tiePolicy, frozen, keyAt frozen p⟩ :
      Selection) = selection := Except.ok.inj (Option.some.inj hr)
  rw [← heq, hat]
  refine ⟨rfl, rfl, rfl, h.validate (some c) ?_ (ensure_true rfl)⟩
  rintro _ ⟨⟩
  exact hc

theorem totalWeight_some {ca : List Candidate} {t : Nat}
    (h : totalWeight ca = some t) :
    (ca.map (·.weight)).sum = t ∧ t ≤ u64Max := by
  have hf : ∀ (r : List Candidate) (s : Nat), s ≤ u64Max →
      r.foldlM (fun sum c => checkedAdd sum c.weight) s = some t →
      s + (r.map (·.weight)).sum = t ∧ t ≤ u64Max := by
    intro r
    induction r with
    | nil =>
      intro s hs hsum
      cases hsum
      exact ⟨rfl, hs⟩
    | cons c r ih =>
      intro s hs hsum
      obtain ⟨next, hn, hsum⟩ := Option.bind_eq_some_iff.1 hsum
      obtain ⟨hle, rfl⟩ := checkedAdd_eq_some.1 hn
      rw [map_cons, sum_cons, ← Nat.add_assoc]
      exact ih _ hle hsum
  have hall := hf ca 0 (Nat.zero_le _) h
  rwa [Nat.zero_add] at hall

theorem weighted_selected (h : Frozen eligible frozen)
    (hs : (select words eligible .weightedRandom tiePolicy).run
      = some (.ok selection)) (hf : freeze eligible = .ok frozen) :
    Selected frozen .weightedRandom tiePolicy selection := by
  unfold select at hs
  rw [hf, drawn_ok] at hs
  obtain ⟨total, ht, hr⟩ := drawn_bind_eq_ok.1 hs
  obtain ⟨ticket, htc, hr⟩ := drawn_bind_eq_ok.1 hr
  have ht : totalWeight frozen = some total :=
    okOr_eq_ok.1 (Option.some.inj ht)
  have hlt := randomBelow_lt htc
  have hsum : Sampling.tickets (frozen.map fun c => (c.key, c.weight))
      = total := by
    unfold Sampling.tickets
    rw [map_map]
    exact (totalWeight_some ht).1
  rw [← hsum] at hlt
  obtain ⟨key, hkey⟩ := Sampling.pick_isSome hlt
  obtain ⟨row, hrow, rfl, hwt⟩ := Sampling.pick_mem hkey
  obtain ⟨c, hc, rfl⟩ := mem_map.1 hrow
  have heq : (⟨.weightedRandom, tiePolicy, frozen,
      ticketWinner frozen ticket⟩ : Selection) = selection :=
    Except.ok.inj (Option.some.inj hr)
  rw [← heq, ticketWinner_eq, hkey]
  refine ⟨rfl, rfl, rfl, h.validate (some c) ?_ ?_⟩
  · rintro _ ⟨⟩
    exact hc
  · refine okOr_ok.2 ⟨total, ht, ensure_true ⟨?_, ?_⟩⟩
    · omega
    · simpa using hwt

variable {mode : SelectionMode}

theorem select_selected (hs : (select words eligible mode tiePolicy).run
      = some (.ok selection)) :
    ∃ frozen, Frozen eligible frozen
      ∧ Selected frozen mode tiePolicy selection := by
  have hfr : ∃ frozen, freeze eligible = .ok frozen := by
    obtain ⟨frozen, hf, -⟩ := drawn_bind_eq_ok.1 hs
    exact ⟨frozen, Option.some.inj hf⟩
  obtain ⟨frozen, hf⟩ := hfr
  have h := freeze_frozen hf
  refine ⟨frozen, h, ?_⟩
  cases mode with
  | highestScore => exact highest_selected h hs hf
  | uniformRandom => exact uniform_selected h hs hf
  | weightedRandom => exact weighted_selected h hs hf

theorem selectManual_selected {w : String}
    (h : selectManual eligible w = .ok selection) :
    ∃ frozen, Frozen eligible frozen
      ∧ Selected frozen .highestScore .manual selection := by
  obtain ⟨⟨hne, -, -⟩, h⟩ := ensure_ok.1 h
  obtain ⟨-, h⟩ := ensure_ok.1 h
  obtain ⟨⟨⟩, hvl, h⟩ := bind_eq_ok.1 h
  cases h
  have hp := perm_insertionSort
    (fun a b : Candidate => a.key ≤ b.key) eligible
  have hpr : eligible.insertionSort (fun a b => a.key ≤ b.key) ≠ []
      := by
    intro hn
    rw [hn] at hp
    exact hne hp.symm.eq_nil
  have hv := validate_validated hvl hpr
  exact ⟨_, ⟨hp, hpr, hv.bounded, hv.keys, hv.increasing⟩, rfl, rfl, rfl, hvl⟩

-- ==== law

theorem lawful_of_validate (hpr : selection.eligible ≠ [])
    (hv : selection.validate = .ok ()) : selection.Lawful := by
  have hvl := validate_validated hv hpr
  have hch : ∃ ch, selection.validateChoice ch = .ok ()
      ∧ selection.winner = ch.map Candidate.key
      ∧ ∀ c ∈ ch, c ∈ selection.eligible := by
    unfold Selection.validate at hv
    rw [if_neg hpr] at hv
    obtain ⟨-, hv⟩ := ensure_ok.1 hv
    obtain ⟨-, hv⟩ := ensure_ok.1 hv
    obtain ⟨-, hv⟩ := ensure_ok.1 hv
    cases hw : selection.winner with
    | none =>
      rw [hw] at hv
      exact ⟨none, hv, rfl, nofun⟩
    | some key =>
      rw [hw] at hv
      obtain ⟨c, hfn, hv⟩ := okOr_ok.1 hv
      refine ⟨some c, hv, ?_, ?_⟩
      · have hkey : c.key = key := by
          simpa using find?_some hfn
        rw [Option.map_some, hkey]
      · rintro _ ⟨⟩
        exact mem_of_find?_eq_some hfn
  obtain ⟨ch, hc, hw, hmem⟩ := hch
  have ht := tied_iff hvl.nodup
  unfold Selection.Lawful
  unfold Selection.validateChoice at hc
  cases hmd : selection.mode with
  | highestScore =>
    rw [hmd] at hc
    cases ch with
    | none =>
      rw [hw]
      obtain ⟨hp, hmn⟩ := ensure_eq_ok.1 hc
      exact ⟨hp, ht.1 hmn⟩
    | some c =>
      rw [hw]
      obtain ⟨hld, hno, hst⟩ := ensure_eq_ok.1 hc
      refine ⟨c, mem_leaders.1 hld, rfl, fun hmn => ?_⟩
      have hmn := ht.2 hmn
      refine ⟨fun hp => hno ⟨hmn, hp⟩, ?_⟩
      intro hp o ho
      -- the leaders keep the order of the candidates
      have hs := hvl.increasing.sublist
        (filter_sublist (l := selection.eligible)
          (p := fun c => c.weight == (selection.eligible.map
            Candidate.weight).foldl max 0))
      have ho := mem_leaders.2 ho
      change (leaders selection.eligible).Pairwise _ at hs
      have hf : some c.key = (leaders
          selection.eligible).head?.map Candidate.key := by
        by_contra hne
        exact hst ⟨hmn, hp, hne⟩
      cases hl : leaders selection.eligible with
      | nil =>
        rw [hl] at ho
        exact (not_mem_nil ho).elim
      | cons f rest =>
        rw [hl] at hf ho hs
        have hkey : c.key = f.key := Option.some.inj hf
        rw [hkey]
        rcases mem_cons.1 ho with rfl | hr
        · exact le_refl _
        · exact le_of_lt ((pairwise_cons.1 hs).1 o hr)
  | uniformRandom =>
    rw [hmd] at hc
    obtain ⟨c, rfl⟩ := Option.isSome_iff_exists.1 (ensure_eq_ok.1 hc)
    exact ⟨c, hmem c rfl, hw⟩
  | weightedRandom =>
    rw [hmd] at hc
    obtain ⟨total, -, hc⟩ := okOr_ok.1 hc
    obtain ⟨-, hany⟩ := ensure_eq_ok.1 hc
    cases ch with
    | none => cases hany
    | some c =>
      have hwt : c.weight ≠ 0 := by simpa using hany
      exact ⟨c, hmem c rfl, Nat.pos_of_ne_zero hwt, hw⟩

-- ==== reveal

theorem revealEligible_sublist {s : List Candidate}
    (h : revealEligible selection = .ok s) :
    s.Sublist selection.eligible := by
  unfold revealEligible at h
  dsimp only at h
  split at h
  · cases h
    exact take_sublist _ _
  · next winner hw =>
    split at h
    · cases h
      exact take_sublist _ _
    · next hn =>
      obtain ⟨c, hf, h⟩ := okOr_ok.1 h
      cases h
      have hkey : c.key = winner := by
        simpa using find?_some hf
      have hmem := mem_of_find?_eq_some hf
      rw [← take_append_drop revealLimit selection.eligible] at hmem
      rcases mem_append.1 hmem with hfr | hl
      · refine absurd (any_eq_true.2 ⟨c, hfr, ?_⟩) hn
        rw [hkey]
        exact beq_self_eq_true _
      · have hp := (dropLast_sublist
          (selection.eligible.take revealLimit)).append
          (singleton_sublist.2 hl)
        rwa [take_append_drop] at hp

/-- The reveal of a selection: an excerpt in order, the winner in it, and
nothing left out of account. -/
structure Excerpt (selection : Selection) (snapshot : RevealSnapshot) :
    Prop where
  sublist : snapshot.selection.eligible.Sublist selection.eligible
  increasing : snapshot.selection.eligible.Pairwise fun a b => a.key < b.key
  bounded : snapshot.selection.eligible.length ≤ revealLimit
  winner : snapshot.selection.winner = selection.winner
  shown : ∀ key ∈ selection.winner,
    key ∈ snapshot.selection.eligible.map Candidate.key
  total : (snapshot.selection.eligible.map
      (drawWeight selection.mode)).sum + snapshot.otherWeight
    = (selection.eligible.map (drawWeight selection.mode)).sum

theorem drawWeight_fits (hp : selection.eligible ≠ [])
    (hv : selection.validate = .ok ()) :
    (selection.eligible.map (drawWeight selection.mode)).sum ≤ u64Max := by
  by_cases hmd : selection.mode = .weightedRandom
  · have ht : ∃ total, totalWeight selection.eligible = some total := by
      have hc : ∃ chosen,
          selection.validateChoice chosen = .ok () := by
        unfold Selection.validate at hv
        rw [if_neg hp] at hv
        obtain ⟨-, hv⟩ := ensure_ok.1 hv
        obtain ⟨-, hv⟩ := ensure_ok.1 hv
        obtain ⟨-, hv⟩ := ensure_ok.1 hv
        split at hv
        · exact ⟨none, hv⟩
        · obtain ⟨c, -, hv⟩ := okOr_ok.1 hv
          exact ⟨some c, hv⟩
      obtain ⟨chosen, hc⟩ := hc
      unfold Selection.validateChoice at hc
      rw [hmd] at hc
      obtain ⟨total, ht, -⟩ := okOr_ok.1 hc
      exact ⟨total, ht⟩
    obtain ⟨total, ht⟩ := ht
    obtain ⟨h, hle⟩ := totalWeight_some ht
    have hwts : selection.eligible.map (drawWeight selection.mode)
        = selection.eligible.map (·.weight) :=
      map_congr_left fun c _ => if_pos hmd
    rw [hwts, h]
    exact hle
  · have ho : selection.eligible.map (drawWeight selection.mode)
        = selection.eligible.map fun _ => 1 :=
      map_congr_left fun c _ => if_neg hmd
    have hbdd := (validate_validated hv hp).bounded
    have hcn : (selection.eligible.map fun _ => 1).sum
        = selection.eligible.length := by simp
    rw [ho, hcn]
    exact Nat.le_trans hbdd (by decide)

theorem revealSnapshot_fair {result : ResultRecord}
    (hp : result.selection.eligible ≠ [])
    (hv : result.selection.validate = .ok ()) :
    ∃ snapshot, revealSnapshot result = .ok snapshot
      ∧ Excerpt result.selection snapshot := by
  have hvl := validate_validated hv hp
  obtain ⟨shown, hsh, hpr⟩ := revealEligible_projected hvl hp
  have hs := revealEligible_sublist hsh
  have hsp := hpr.split hvl (drawWeight result.selection.mode)
  have hf := drawWeight_fits hp hv
  have ho := foldlM_checkedAdd (drawWeight result.selection.mode)
    (result.selection.eligible.filter fun entry =>
      entry.key ∉ shown.map Candidate.key) 0 (by omega)
  unfold revealSnapshot
  rw [hv, hsh]
  show ∃ snapshot, (okOr _ _ >>= _) = _ ∧ _
  rw [ho, Nat.zero_add, okOr_some]
  exact ⟨_, rfl, hs, hvl.increasing.sublist hs,
    hpr.bounded, rfl, hpr.winner, hsp⟩

-- ==== result

/-- A selection of some candidates is what was asked for. -/
structure Sound (eligible : List Candidate) (mode : SelectionMode)
    (tiePolicy : TiePolicy) (selection : Selection) : Prop where
  mode : selection.mode = mode
  tiePolicy : selection.tiePolicy = tiePolicy
  perm : selection.eligible.Perm eligible
  increasing : selection.eligible.Pairwise fun a b => a.key < b.key
  valid : selection.validate = .ok ()
  lawful : selection.Lawful
  reveal : ∀ result : ResultRecord, result.selection = selection →
    ∃ snapshot, revealSnapshot result = .ok snapshot
      ∧ Excerpt selection snapshot

theorem Selected.sound (hf : Frozen eligible frozen)
    (h : Selected frozen mode tiePolicy selection) :
    Sound eligible mode tiePolicy selection := by
  have hp : selection.eligible ≠ [] := by
    rw [h.eligible]
    exact hf.present
  refine ⟨h.mode, h.tiePolicy, ?_, ?_, h.valid,
    lawful_of_validate hp h.valid, ?_⟩
  · rw [h.eligible]
    exact hf.perm
  · rw [h.eligible]
    exact hf.increasing
  · rintro result rfl
    exact revealSnapshot_fair hp h.valid

end TikTools.Competitions
