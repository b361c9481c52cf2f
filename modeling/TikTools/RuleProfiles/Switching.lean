/-
What a switch of the profile leaves enabled, and the law of the profiles.

A switch asks the host about every record it knows of, and drops from the
packs what the host has not. If nothing began and nobody edited a record
since the switch began (`Call.quiet`), the packs and the records are still
the ones it saw, up to its last write.
-/
import TikTools.RuleProfiles.Bookkeeping

namespace TikTools.RuleProfiles

open TikTools.Lib Std List Option Table

-- ==== the updates

/-- A record the browser knows of: listed, or in a pack. -/
def Known (packs : List ProfilePack) (rules : ProfileUniverse)
    (kind : Kind) (id : String) : Prop :=
  id ∈ rules.ids kind ∨ ∃ pack ∈ packs, id ∈ pack.ids kind

/-- Of the known records that exist, those of the profile are enabled and
no others. -/
def SwitchedTo (packs : List ProfilePack) (records : Records)
    (id : String) (rules : ProfileUniverse) : Prop :=
  ∃ target, (resolvedPacks packs rules).find? (·.id = id) = some target
    ∧ ∀ kind r, Known packs rules kind r →
      (records kind r = some true
        ↔ r ∈ target.ids kind ∧ records kind r ≠ none)

section

variable {packs : List ProfilePack} {rules : ProfileUniverse}

theorem mem_enablementUpdates {target : ProfilePack} {u : Update} :
    u ∈ enablementUpdates packs rules target
      ↔ u.enabled = decide (u.id ∈ target.ids u.kind)
        ∧ Known packs rules u.kind u.id := by
  obtain ⟨k, id, enabled⟩ := u
  unfold enablementUpdates Known
  simp only [mem_append, List.mem_map, mem_flatMap,
    mem_filter, decide_eq_true_eq, Update.mk.injEq]
  constructor
  · rintro ((⟨r, hr, rfl, rfl, rfl⟩ | ⟨r, hr, rfl, rfl, rfl⟩)
      | ⟨p, hp, ⟨r, ⟨hr, -⟩, rfl, rfl, rfl⟩
        | ⟨r, ⟨hr, -⟩, rfl, rfl, rfl⟩⟩)
    · exact ⟨rfl, .inl hr⟩
    · exact ⟨rfl, .inl hr⟩
    · exact ⟨rfl, .inr ⟨p, hp, hr⟩⟩
    · exact ⟨rfl, .inr ⟨p, hp, hr⟩⟩
  · rintro ⟨hen, hk⟩
    by_cases hl : id ∈ rules.ids k
    · left
      cases k
      · exact .inl ⟨id, hl, rfl, rfl, hen.symm⟩
      · exact .inr ⟨id, hl, rfl, rfl, hen.symm⟩
    · obtain ⟨p, hp, hr⟩ := hk.resolve_left hl
      right
      cases k
      · exact ⟨p, hp, .inl ⟨id, ⟨hr, hl⟩, rfl, rfl, hen.symm⟩⟩
      · exact ⟨p, hp, .inr ⟨id, ⟨hr, hl⟩, rfl, rfl, hen.symm⟩⟩

/-- An update names the record. -/
def Names (updates : List Update) (kind : Kind) (id : String) : Prop :=
  ∃ update ∈ updates, update.kind = kind ∧ update.id = id

theorem foldl_put_other {up : List Update} {k : Kind}
    {id : String} (hn : ¬ Names up k id) (r : Records) :
    up.foldl (fun r upd =>
        r.put upd.kind upd.id ((r upd.kind upd.id).map fun _ => upd.enabled))
      r k id = r k id := by
  induction up generalizing r with
  | nil => rfl
  | cons u up ih =>
    rw [foldl_cons, ih, Records.put, if_neg]
    · rintro ⟨rfl, rfl⟩
      exact hn ⟨u, mem_cons_self, rfl, rfl⟩
    · rintro ⟨u', hu', hnm⟩
      exact hn ⟨u', mem_cons_of_mem u hu', hnm⟩

theorem foldl_put {v : Kind → String → Bool} {up : List Update}
    (hv : ∀ u ∈ up, u.enabled = v u.kind u.id)
    {kind : Kind} {id : String} (hn : Names up kind id)
    (r : Records) :
    up.foldl (fun r upd =>
        r.put upd.kind upd.id ((r upd.kind upd.id).map fun _ => upd.enabled))
      r kind id = (r kind id).map fun _ => v kind id := by
  induction up generalizing r with
  | nil =>
    obtain ⟨u, hu, -⟩ := hn
    cases hu
  | cons u up ih =>
    have hu := hv u mem_cons_self
    have hr : ∀ u' ∈ up, u'.enabled = v u'.kind u'.id :=
      fun u' hu' => hv u' (mem_cons_of_mem u hu')
    have hput : ∀ k i, (r.put u.kind u.id
        ((r u.kind u.id).map fun _ => u.enabled) k i).map (fun _ => v k i)
        = (r k i).map fun _ => v k i := by
      intro k i
      rw [Records.put]
      split
      · next heq =>
        obtain ⟨rfl, rfl⟩ := heq
        rw [Option.map_map]
        rfl
      · rfl
    rw [foldl_cons]
    by_cases hl : Names up kind id
    · rw [ih hr hl, hput]
    · rw [foldl_put_other hl]
      obtain ⟨u', hmem, rfl, rfl⟩ := hn
      rcases mem_cons.1 hmem with rfl | hmem
      · rw [Records.put, if_pos ⟨rfl, rfl⟩, hu]
      · exact absurd ⟨u', hmem, rfl, rfl⟩ hl

theorem setEnablement_spec {v : Kind → String → Bool}
    {records : Records} {updates : List Update}
    (hv : ∀ u ∈ updates, u.enabled = v u.kind u.id)
    {kind : Kind} {id : String} (hnm : Names updates kind id) :
    (records.setEnablement updates).1 kind id
        = (records kind id).map (fun _ => v kind id)
      ∧ ((kind, id) ∈ (records.setEnablement updates).2
        ↔ records kind id = none) := by
  have hmem : ∀ u, u ∈ updates.filter (·.kind = .event)
      ++ updates.filter (·.kind = .action) ↔ u ∈ updates := by
    intro u
    obtain ⟨kind, id, enabled⟩ := u
    cases kind <;> simp
  obtain ⟨u, hu, rfl, rfl⟩ := hnm
  constructor
  · exact foldl_put (fun u hu => hv u ((hmem u).1 hu))
      ⟨u, (hmem u).2 hu, rfl, rfl⟩ records
  · simp only [Records.setEnablement, List.mem_map, mem_filter, hmem,
      decide_eq_true_eq, Prod.mk.injEq]
    constructor
    · rintro ⟨u', ⟨-, hn⟩, hk, hid⟩
      rwa [hk, hid] at hn
    · exact fun hn => ⟨u, ⟨hu, hn⟩, rfl, rfl⟩

theorem mem_leftovers {kind : Kind} {r : String} :
    r ∈ ProfilePack.ids ⟨defaultProfileId, "", "",
        rules.eventIds.filter (fun id => id ∉ packs.flatMap (·.eventIds)),
        rules.actionIds.filter
          (fun id => id ∉ packs.flatMap (·.actionIds))⟩ kind
      ↔ r ∈ rules.ids kind ∧ ∀ p ∈ packs, r ∉ p.ids kind := by
  cases kind <;> simp [ProfilePack.ids, ProfileUniverse.ids]

section

variable {id : String} {target : ProfilePack}
  (h : (resolvedPacks packs rules).find? (·.id = id) = some target)
include h

/-- The profile is still there when the missing records are dropped, and
has the same records but for these. -/
theorem find_drop (m : List (Kind × String)) :
    ∃ t', (resolvedPacks (packs.map (ProfilePack.drop m)) rules).find?
        (·.id = id) = some t'
      ∧ ∀ k r, (k, r) ∉ m → (r ∈ t'.ids k ↔ r ∈ target.ids k) := by
  unfold resolvedPacks at h ⊢
  rw [find?_cons] at h
  rw [find?_cons]
  split at h
  · next hd =>
    cases h
    rw [hd]
    refine ⟨_, rfl, fun k r hr => ?_⟩
    rw [mem_leftovers, mem_leftovers]
    refine and_congr_right fun _ => ?_
    simp only [List.forall_mem_map, mem_drop, not_and, not_not]
    exact forall_congr' fun p => imp_congr_right fun _ =>
      ⟨fun hin hp => hr (hin hp), fun ht hp => absurd hp ht⟩
  · next ho =>
    rw [ho, find?_map]
    have hs : (fun p : ProfilePack => decide (p.id = id))
        ∘ ProfilePack.drop m = fun p => decide (p.id = id) := rfl
    rw [hs, h]
    refine ⟨_, rfl, fun k r hr => ?_⟩
    rw [mem_drop]
    exact and_iff_left hr

theorem switchedTo_setEnablement (records : Records) :
    SwitchedTo
      (packs.map (ProfilePack.drop (records.setEnablement
        (enablementUpdates packs rules target)).2))
      (records.setEnablement (enablementUpdates packs rules target)).1
      id rules := by
  obtain ⟨target', htgt, hids⟩ := find_drop h (records.setEnablement
    (enablementUpdates packs rules target)).2
  refine ⟨target', htgt, fun kind r hk => ?_⟩
  have hn : Names (enablementUpdates packs rules target) kind r := by
    refine ⟨⟨kind, r, decide (r ∈ target.ids kind)⟩,
      mem_enablementUpdates.2 ⟨rfl, ?_⟩, rfl, rfl⟩
    refine hk.imp_right ?_
    rintro ⟨p, hp, hr⟩
    obtain ⟨q, hq, rfl⟩ := mem_map.1 hp
    exact ⟨q, hq, (mem_drop.1 hr).1⟩
  have hv : ∀ u ∈ enablementUpdates packs rules target,
      u.enabled = decide (u.id ∈ target.ids u.kind) :=
    fun u hu => (mem_enablementUpdates.1 hu).1
  obtain ⟨hrec, hms⟩ := @setEnablement_spec
    (fun kind r => decide (r ∈ target.ids kind)) records _ hv _ _ hn
  rw [hrec]
  cases hr : records kind r with
  | none => simp
  | some enabled =>
    rw [hids kind r (hms.not.2 (by simp [hr]))]
    simp

end

end

-- ==== a quiet switch

namespace Profiles

variable {s t : Profiles}

/-- A switch sees the packs there are, and then stores what fits the
records as they are. -/
def Sees (s : Profiles) : Phase → Prop
  | .enabling id rules updates => ∃ target,
      (resolvedPacks s.packs rules).find? (·.id = id) = some target
        ∧ updates = enablementUpdates s.packs rules target
  | .storing store _ => ∀ id rules missing,
      store.done = .switched id rules missing →
        SwitchedTo store.next s.records id rules
  | _ => True

variable {call : Nat} {phase : Phase}

theorem Sees.same (h : s.Sees phase)
    (hp : t.packs = s.packs) (hr : t.records = s.records) :
    t.Sees phase := by
  cases phase with
  | enabling id rules updates =>
    unfold Sees
    rw [hp]
    exact h
  | storing st written =>
    unfold Sees
    rw [hr]
    exact h
  | deleting id todo => trivial
  | late st key => trivial

/-- Nothing runs beside a call since which nothing changed. -/
structure Quiet (s : Profiles) : Prop where
  bound : ∀ (call : Nat) c, s.calls[call]? = some c →
    ∀ n ∈ c.quiet, n ≤ s.changes
  others : ∀ (call : Nat) c, s.calls[call]? = some c →
    c.quiet = some s.changes → ∀ (call' : Nat) c',
      s.calls[call']? = some c' → call' ≠ call → c'.phase.isLate = true
  sees : ∀ (call : Nat) c, s.calls[call]? = some c →
    c.quiet = some s.changes → s.Sees c.phase

theorem Quiet.edit (h : Quiet s) (hcl : t.calls = s.calls)
    (hch : t.changes = s.changes + 1) : Quiet t := by
  have hnv : ∀ (call : Nat) c, t.calls[call]? = some c →
      c.quiet ≠ some t.changes := by
    intro call c hc hq
    rw [hcl] at hc
    have hle := h.bound call c hc _ hq
    omega
  refine ⟨fun call c hc n hn => ?_, ?_, ?_⟩
  · rw [hcl] at hc
    rw [hch]
    exact Nat.le_succ_of_le (h.bound call c hc n hn)
  · intro call c hc hq
    exact absurd hq (hnv call c hc)
  · intro call c hc hq
    exact absurd hq (hnv call c hc)

theorem Quiet.begin (h : Quiet s)
    (hb : s.begin call phase = some t) (hs : s.Sees phase) :
    Quiet t := by
  obtain ⟨hnew, q, hqt, rfl⟩ := begin_spec hb
  have hcs : ∀ (ca' : Nat) c,
      (s.calls.insert call ⟨q, phase⟩)[ca']? = some c →
        c.quiet = some (s.changes + 1) →
          ca' = call ∧ c = ⟨q, phase⟩ ∧ s.Idle := by
    intro ca' c hc hq
    rw [get_insert] at hc
    split at hc
    · next heq =>
      cases hc
      refine ⟨heq.symm, rfl, ?_⟩
      by_contra hbs
      rw [hqt, if_neg hbs] at hq
      cases hq
    · have hle := h.bound ca' c hc _ hq
      omega
  refine ⟨fun ca' c hc n hn => ?_, fun ca' c hc hq => ?_,
    fun ca' c hc hq => ?_⟩
  · rw [get_insert] at hc
    split at hc
    · cases hc
      rw [hqt] at hn
      split at hn
      · cases hn
        exact Nat.le_refl _
      · cases hn
    · exact Nat.le_succ_of_le (h.bound ca' c hc n hn)
  · obtain ⟨rfl, rfl, hid⟩ := hcs ca' c hc hq
    intro o c' hc' hne
    rw [get_insert_ne _ _ (Ne.symm hne)] at hc'
    exact hid (o, c') (mem_toList.2 hc')
  · obtain ⟨rfl, rfl, -⟩ := hcs ca' c hc hq
    exact hs.same rfl rfl

theorem Quiet.wait (h : Quiet s) {q : Option Nat}
    {p' : Phase} (hcl : s.calls[call]? = some ⟨q, phase⟩)
    (hl : phase.isLate = false) (hch : t.changes = s.changes)
    (hca : t.calls = s.calls.insert call ⟨q, p'⟩)
    (hs : s.Sees phase → t.Sees p') : Quiet t := by
  have hcs : ∀ (ca' : Nat) c, t.calls[ca']? = some c →
      (ca' = call ∧ c = ⟨q, p'⟩) ∨ (ca' ≠ call ∧ s.calls[ca']? = some c) := by
    intro ca' c hc
    rw [hca, get_insert] at hc
    split at hc
    · next heq =>
      cases hc
      exact .inl ⟨heq.symm, rfl⟩
    · next hne => exact .inr ⟨Ne.symm hne, hc⟩
  -- beside a call that is not late there is no quiet one
  have ho : ∀ (ca' : Nat) c, ca' ≠ call →
      s.calls[ca']? = some c → c.quiet ≠ some s.changes := by
    intro ca' c hne hc hq
    have := h.others ca' c hc hq call _ hcl (Ne.symm hne)
    rw [hl] at this
    cases this
  refine ⟨fun ca' c hc n hn => ?_, fun ca' c hc hq => ?_,
    fun ca' c hc hq => ?_⟩
  · rw [hch]
    rcases hcs ca' c hc with ⟨rfl, rfl⟩ | ⟨-, hc⟩
    · exact h.bound ca' _ hcl n hn
    · exact h.bound ca' c hc n hn
  · rw [hch] at hq
    rcases hcs ca' c hc with ⟨rfl, rfl⟩ | ⟨hne, hc⟩
    · intro o c' hc' hne
      obtain ⟨-, hc'⟩ := (hcs o c' hc').resolve_left (fun heq => hne heq.1)
      exact h.others ca' _ hcl hq o c' hc' hne
    · exact absurd hq (ho ca' c hne hc)
  · rw [hch] at hq
    rcases hcs ca' c hc with ⟨rfl, rfl⟩ | ⟨hne, hc⟩
    · exact hs (h.sees ca' _ hcl hq)
    · exact absurd hq (ho ca' c hne hc)

/-- A call is over; the others do not see what it did, or it did nothing
to see. -/
theorem Quiet.leave (h : Quiet s) {c : Call} (hca : s.calls[call]? = some c)
    (hf : c.phase.isLate = false
      ∨ (t.packs = s.packs ∧ t.records = s.records))
    (hc : t.changes = s.changes)
    (hcl : t.calls = s.calls.erase call) : Quiet t := by
  have hold : ∀ (ca' : Nat) c', t.calls[ca']? = some c' →
      ca' ≠ call ∧ s.calls[ca']? = some c' := by
    intro ca' c' hc'
    rw [hcl, get_erase] at hc'
    split at hc'
    · cases hc'
    · next hne => exact ⟨Ne.symm hne, hc'⟩
  refine ⟨fun ca' c' hc' n hn => ?_, fun ca' c' hc' hq => ?_,
    fun ca' c' hc' hq => ?_⟩
  · rw [hc]
    exact h.bound ca' c' (hold ca' c' hc').2 n hn
  · rw [hc] at hq
    intro o c'' hc'' hne
    exact h.others ca' c' (hold ca' c' hc').2 hq o c'' (hold o c'' hc'').2 hne
  · rw [hc] at hq
    obtain ⟨hne, hc'⟩ := hold ca' c' hc'
    rcases hf with hl | ⟨hp, hr⟩
    · have := h.others ca' c' hc' hq call c hca (Ne.symm hne)
      rw [hl] at this
      cases this
    · exact (h.sees ca' c' hc' hq).same hp hr

theorem sees_deletePhase (s t : Profiles) (id : String)
    (td : List (Kind × String)) : t.Sees (s.deletePhase id td) := by
  cases td with
  | nil => exact fun _ _ _ => nofun
  | cons first td => trivial

theorem Quiet.next (h : Quiet s) {action : Action}
    (hn : s.next action = some t) : Quiet t := by
  cases action with
  | registerPack call pack =>
    dsimp only [Profiles.next, Profiles.registerPack] at hn
    split at hn
    · cases hn
      exact h
    · exact h.begin hn (fun _ _ _ => nofun)
  | switchProfile call id rules =>
    dsimp only [Profiles.next, Profiles.switchProfile] at hn
    split at hn
    · cases hn
      exact h
    · next target htgt => exact h.begin hn ⟨target, htgt, rfl⟩
  | createPack call name rounds =>
    dsimp only [Profiles.next, Profiles.createPack] at hn
    split at hn
    · cases hn
      exact h
    · obtain ⟨id, -, hb⟩ := bind_eq_some_iff.1 hn
      exact h.begin hb (fun _ _ _ => nofun)
  | deletePack call id =>
    dsimp only [Profiles.next, Profiles.deletePack] at hn
    split at hn
    · cases hn
      exact h
    split at hn
    · cases hn
      exact h
    · exact h.begin hn (s.sees_deletePhase s id _)
  | adoptRule call k id =>
    dsimp only [Profiles.next, Profiles.adoptRule] at hn
    split at hn
    · cases hn
      exact h
    split at hn
    · cases hn
      exact h
    · exact h.begin hn (fun _ _ _ => nofun)
  | enabled call ok =>
    dsimp only [Profiles.next] at hn
    split at hn
    · next q id rules updates hc =>
      split at hn
      · cases hn
        refine h.wait hc rfl rfl rfl ?_
        rintro ⟨target, htgt, rfl⟩ _ _ _ ⟨⟩
        exact switchedTo_setEnablement htgt s.records
      · cases hn
        exact h.leave hc (.inl rfl) rfl rfl
    · cases hn
  | deleted call ok =>
    dsimp only [Profiles.next] at hn
    split at hn
    · next q id k r td hc =>
      split at hn
      · cases hn
        exact h.wait hc rfl rfl rfl fun _ => s.sees_deletePhase _ id td
      · cases hn
        exact h.leave hc (.inl rfl) rfl rfl
    · cases hn
  | wrote call key o =>
    dsimp only [Profiles.next] at hn
    split at hn
    · next q st hc =>
      have hss : ∀ t : Profiles, t.records = s.records →
          s.Sees (.storing st none) → t.Sees (.storing st (some key)) :=
        fun t hr hs id rules m hd => by
          rw [hr]
          exact hs id rules m hd
      split at hn
      · cases hn
        cases key <;> cases o <;> exact h.wait hc rfl rfl rfl (hss _ rfl)
      · cases hn
        cases key <;> cases o <;> exact h.wait hc rfl rfl rfl fun _ => trivial
    · next q st first hc =>
      split at hn
      · cases hn
      split at hn
      · cases hn
        cases key <;> cases o <;> exact h.leave hc (.inl rfl) rfl rfl
      · cases hn
        cases key <;> cases o <;> exact h.leave hc (.inl rfl) rfl rfl
    · next q st due hc =>
      split at hn
      · cases hn
        cases key <;> cases o <;> exact h.leave hc (.inr ⟨rfl, rfl⟩) rfl rfl
      · cases hn
    · cases hn
  | edit k id r =>
    cases hn
    exact h.edit rfl rfl

/-- The step that completes a quiet switch leaves the records of that
profile enabled. -/
theorem Quiet.settles (h : Quiet s) {key : Key}
    {o : Outcome} {c : Call} (hc : s.calls[call]? = some c)
    (hq : c.quiet = some s.changes)
    (hn : s.next (.wrote call key o) = some t) {id : String}
    {rules : ProfileUniverse} {m : List (Kind × String)}
    (hl : t.log = .switched id rules m :: s.log) :
    SwitchedTo t.packs t.records id rules := by
  have hg : t.log ≠ s.log := by
    rw [hl]
    exact cons_ne_self _ _
  dsimp only [Profiles.next] at hn
  rw [hc] at hn
  split at hn
  · exfalso
    apply hg
    split at hn <;> cases hn <;> cases key <;> cases o <;> rfl
  · next quiet st first heq =>
    cases heq
    split at hn
    · cases hn
    split at hn
    · cases hn
      have hput : ((if o = .refused then s
          else s.put st key).complete call st).log = st.done :: s.log := by
        cases key <;> cases o <;> rfl
      have hs := h.sees call _ hc hq id rules m (List.cons.inj hl).1
      cases key <;> cases o <;> exact hs
    · exfalso
      apply hg
      cases hn
      cases key <;> cases o <;> rfl
  · exfalso
    apply hg
    split at hn
    · cases hn
      cases key <;> cases o <;> rfl
    · cases hn
  · cases hn

-- ==== results

/-- Profiles just loaded, with nothing under way. -/
structure Loaded (s : Profiles) : Prop where
  books : Books s.packs
  storedPacks : s.storedPacks = s.packs
  storedActive : s.storedActive = s.activeId
  calls : s.calls = ∅
  log : s.log = []

theorem Loaded.no_call (h : Loaded s) (call : Nat) :
    s.calls[call]? = none := by
  rw [h.calls, ExtTreeMap.getElem?_empty]

theorem Loaded.kept (h : Loaded s) : Kept s := by
  have hn : ∀ call store written, ¬ s.Storing call store written := by
    rintro call store written ⟨quiet, hs⟩
    rw [h.no_call] at hs
    cases hs
  refine ⟨h.books, ?_, ?_, ?_, fun _ => ⟨h.storedPacks, h.storedActive⟩⟩
  · rw [h.log]
    exact fun _ => False.elim
  · exact fun call store written hs => absurd hs (hn _ _ _)
  · exact fun call _ _ _ _ _ hs => absurd hs (hn _ _ _)

theorem Loaded.quiet (h : Loaded s) : Quiet s := by
  have hn : ∀ (call : Nat) c, s.calls[call]? ≠ some c :=
    fun call c hc => by
      rw [h.no_call] at hc
      cases hc
  exact ⟨fun call c hc => absurd hc (hn call c),
    fun call c hc => absurd hc (hn call c),
    fun call c hc => absurd hc (hn call c)⟩

/-- What the profiles promise in every state of a run. -/
structure Law (s : Profiles) : Prop where
  /-- a record belongs to at most one pack -/
  single : s.packs.Pairwise fun p q => ∀ r ∈ p.records, r ∉ q.records
  /-- what a completed call added is there until something removes it -/
  kept : ∀ later done earlier e, s.log = later ++ done :: earlier →
    done.Adds e → (∀ d ∈ later, ¬ d.Removes e) → Present s.packs e
  stored : s.Idle → s.storedPacks = s.packs ∧ s.storedActive = s.activeId
  /-- a switch that completes with nothing beside it enables its records
  and no others -/
  settles : ∀ (call : Nat) key outcome c t id rules missing,
    s.calls[call]? = some c → c.quiet = some s.changes →
      s.next (.wrote call key outcome) = some t →
        t.log = .switched id rules missing :: s.log →
          SwitchedTo t.packs t.records id rules

theorem Idle.settled (h : s.Idle) : s.Settled := by
  intro e hen
  have hl := h e hen
  cases hp : e.2.phase with
  | storing st written =>
    rw [hp] at hl
    cases hl
  | enabling id rules updates => rfl
  | deleting id todo => rfl
  | late st key => rfl

theorem Kept.law (h : Kept s) (hqt : Quiet s) : Law s where
  single := h.books.single
  kept later done earlier e hlog ha hl := by
    refine h.log e ?_
    rw [hlog]
    exact stands_of_split ha later hl
  stored hid := h.stored hid.settled
  settles _ _ _ _ _ _ _ _ hc hq hn hlog := hqt.settles hc hq hn hlog

/-- The loop for a free id ends exactly when there is one, and then with
an id that is neither reserved nor taken; and every run from loaded
profiles in which no list overtakes another is lawful. -/
theorem bookkeeping (hloaded : Loaded s) :
    (∀ name base taken, slugProfileId name = some base →
      ((∃ rounds id, freeId taken base rounds base 2 = some id)
        ↔ HasFree taken base)
      ∧ ∀ rounds id, freeId taken base rounds base 2 = some id →
        id ≠ defaultProfileId ∧ id ∉ taken)
    ∧ ∀ t, Run (fun s action t => s.next action = some t) Ordered s t →
      Law t := by
  constructor
  · intro name base taken hs
    exact ⟨freeId_ends_iff, fun rounds id hid => freeId_new hs hid⟩
  intro t hrun
  have hk : Kept t := hrun.invariant hloaded.kept
    fun _ _ _ hinv hord hn => hinv.next hord hn
  have hq : Quiet t := hrun.invariant hloaded.quiet
    fun _ _ _ hinv _ hn => hinv.next hn
  exact hk.law hq

/-- No pack, and two records of the user's own. -/
def fresh : Profiles where
  packs := []
  activeId := defaultProfileId
  storedPacks := []
  storedActive := defaultProfileId
  records := fun kind id =>
    if kind = .event ∧ (id = "e1" ∨ id = "e2") then some false else none
  calls := ∅
  changes := 0
  log := []

theorem fresh_loaded : Loaded fresh := ⟨⟨nodup_nil, .nil⟩, rfl, rfl, rfl, rfl⟩

def board : ProfilePack := ⟨"board", "Board", "", ["e1"], []⟩

/-- A profile is registered, and then the default one switched to. -/
def registerAndSwitch : List Action :=
  [.registerPack 1 board, .wrote 1 .packs .ok, .wrote 1 .active .ok,
    .switchProfile 2 defaultProfileId ⟨["e1", "e2"], []⟩,
    .enabled 2 true, .wrote 2 .active .ok, .wrote 2 .packs .ok]

theorem register_and_switch_lawful :
    ∃ t, Run (fun s action t => s.next action = some t) Ordered fresh t
      ∧ t.records .event "e1" = some false
      ∧ t.records .event "e2" = some true ∧ Law t := by
  have hen : (runWhile next (fun s action => decide (s.Ordered action))
      fresh registerAndSwitch).any (fun t =>
        t.records .event "e1" = some false
          && t.records .event "e2" = some true) = true := by
    decide +kernel
  obtain ⟨t, ht, hr⟩ := (any_eq_true _ _).1 hen
  obtain ⟨hf, hsnd⟩ := Bool.and_eq_true_iff.1 hr
  have hrun := @Run.of_runWhile _ _ _ _ Ordered
    (fun _ _ => of_decide_eq_true) _ _ _ .refl _ ht
  exact ⟨t, hrun, of_decide_eq_true hf, of_decide_eq_true hsnd,
    (bookkeeping fresh_loaded).2 t hrun⟩

theorem freeId_of_full {base : String} (hf : base.toList.length = 64)
    (r c : Nat) :
    freeId [base] base r base c = none := by
  have hcut : ∀ n, numbered base n = base := by
    intro n
    rw [numbered, take_left' hf, String.ofList_toList]
  induction r generalizing c with
  | zero => rfl
  | succ r ih =>
    rw [freeId, if_pos (mem_singleton_self _), hcut]
    exact ih (c + 1)

/-- A name that takes up all there is room for. -/
def longName : String := String.ofList (List.replicate 64 'a')

/-- Two rules saved one right after the other: the second call computes
its list before the first has replaced the one there is. -/
def savedTogether : List Action :=
  [.registerPack 1 ⟨"board", "Board", "", [], []⟩, .wrote 1 .packs .ok,
    .wrote 1 .active .ok, .adoptRule 2 .event "e1",
    .adoptRule 3 .event "e2", .wrote 2 .packs .ok, .wrote 2 .active .ok,
    .wrote 3 .packs .ok, .wrote 3 .active .ok]

/-- Creating a second pack under a long name never ends, and of two rules
adopted together the first is lost. -/
theorem long_name_never_ends_and_membership_lost :
    (slugProfileId longName = some longName
      ∧ ∀ rounds, freeId [longName] longName rounds longName 2 = none)
    ∧ ∃ t, runActions next fresh savedTogether = some t
      ∧ t.calls = ∅ ∧ .adopted (some "board") .event "e1" ∈ t.log
      ∧ ¬ Present t.packs (.rule "board" .event "e1") := by
  refine ⟨⟨by decide +kernel, fun rounds =>
    freeId_of_full (by decide +kernel) rounds 2⟩, ?_⟩
  have hen : (runActions next fresh savedTogether).any (fun t =>
      t.calls.isEmpty && decide (t.log = [.adopted (some "board") .event "e2",
        .adopted (some "board") .event "e1",
        .registered ⟨"board", "Board", "", [], []⟩])
      && decide (t.packs = [⟨"board", "Board", "", ["e2"], []⟩])) = true := by
    decide +kernel
  obtain ⟨t, ht, hall⟩ := (any_eq_true _ _).1 hen
  obtain ⟨hf, hpc⟩ := Bool.and_eq_true_iff.1 hall
  obtain ⟨hc, hlog⟩ := Bool.and_eq_true_iff.1 hf
  refine ⟨t, ht, ?_, ?_, ?_⟩
  · exact ExtTreeMap.isEmpty_iff.1 hc
  · rw [of_decide_eq_true hlog]
    exact mem_cons_of_mem _ mem_cons_self
  · rw [of_decide_eq_true hpc]
    rintro ⟨p, hp, -, hmem⟩
    cases mem_singleton.1 hp
    exact absurd hmem (by decide)

end Profiles

end TikTools.RuleProfiles
