/-
What the rule profiles keep.

A call replaces the whole list of packs by one computed from the list
there was, so nothing is lost exactly while the list stays what it was
between the two (`Ordered`): then the list that is stored carries over
all there was (`Store.Fits`), and what was completed stands until
something completed later takes it away (`Stands`).

A switch that nothing else runs beside sees the same packs from its first
step to its last, whatever else went on before (`Quiet`).
-/
import TikTools.RuleProfiles.Packs
import Mathlib.Data.List.Nodup

namespace TikTools.RuleProfiles

open TikTools.Lib Std List Table

-- ==== what stands

/-- A pack, or that a record belongs to one. -/
inductive Entry where
  | pack (id : String)
  | rule (owner : String) (kind : Kind) (id : String)
  deriving DecidableEq, Repr

def Entry.owner : Entry → String
  | .pack id => id
  | .rule owner _ _ => owner

def Present (packs : List ProfilePack) : Entry → Prop
  | .pack id => ∃ pack ∈ packs, pack.id = id
  | .rule owner kind id =>
    ∃ pack ∈ packs, pack.id = owner ∧ id ∈ pack.ids kind

def Done.Adds : Done → Entry → Prop
  | .registered pack, e => Present [pack] e
  | .created pack, e => Present [pack] e
  | .adopted owner kind id, e => ∃ pack, owner = some pack
      ∧ e = .rule pack kind id
  | .switched _ _ _, _ => False
  | .deleted _, _ => False

/-- A deletion, a new registration of the pack, or the host's report that
the record is missing. -/
def Done.Removes : Done → Entry → Prop
  | .registered pack, e => e.owner = pack.id
  | .deleted id, e => e.owner = id
  | .switched _ _ missing, .rule _ kind id => (kind, id) ∈ missing
  | _, _ => False

/-- Something completed added it, and nothing later removes it. -/
def Stands (e : Entry) : List Done → Prop
  | [] => False
  | done :: earlier => done.Adds e ∨ (Stands e earlier ∧ ¬ done.Removes e)

variable {e : Entry}

theorem stands_of_split {dn : Done} {ea : List Done}
    (ha : dn.Adds e) (l : List Done)
    (hl : ∀ d ∈ l, ¬ d.Removes e) :
    Stands e (l ++ dn :: ea) := by
  induction l with
  | nil => exact .inl ha
  | cons d l ih =>
    refine .inr ⟨ih fun d' hd' => ?_, hl d mem_cons_self⟩
    exact hl d' (mem_cons_of_mem d hd')

variable {packs : List ProfilePack}

theorem Present.mono {p' : List ProfilePack} (h : Present packs e)
    (hs : ∀ pack ∈ packs, pack ∈ p') : Present p' e := by
  cases e with
  | pack id =>
    obtain ⟨pack, hp, hid⟩ := h
    exact ⟨pack, hs pack hp, hid⟩
  | rule owner kind id =>
    obtain ⟨pack, hp, hid⟩ := h
    exact ⟨pack, hs pack hp, hid⟩

theorem Present.witness (h : Present packs e) :
    ∃ pack ∈ packs, pack.id = e.owner ∧ Present [pack] e := by
  cases e with
  | pack id =>
    obtain ⟨pack, hp, hid⟩ := h
    exact ⟨pack, hp, hid, pack, mem_singleton_self pack, hid⟩
  | rule owner kind id =>
    obtain ⟨pack, hp, hid, hm⟩ := h
    exact ⟨pack, hp, hid, pack, mem_singleton_self pack, hid, hm⟩

variable {pack : ProfilePack}

theorem Present.of_pack {p' : ProfilePack} (h : Present [pack] e)
    (hm : p' ∈ packs) (hid : p'.id = pack.id)
    (hi : ∀ o kind id, e = .rule o kind id →
      id ∈ pack.ids kind → id ∈ p'.ids kind) : Present packs e := by
  cases e with
  | pack id =>
    obtain ⟨_, hp, rfl⟩ := h
    cases mem_singleton.1 hp
    exact ⟨p', hm, hid⟩
  | rule o kind id =>
    obtain ⟨_, hp, rfl, hin⟩ := h
    cases mem_singleton.1 hp
    exact ⟨p', hm, hid, hi _ kind id rfl hin⟩

-- ==== the new list

/-- Each pack has its own id, and no record is in two packs. -/
structure Books (packs : List ProfilePack) : Prop where
  ids : (packs.map (·.id)).Nodup
  single : packs.Pairwise fun p q => ∀ r ∈ p.records, r ∉ q.records

/-- A list that may replace the one there is. -/
structure Store.Fits (store : Store) (packs : List ProfilePack) :
    Prop where
  books : Books store.next
  adds : ∀ e, store.done.Adds e → Present store.next e
  keeps : ∀ e, Present packs e → ¬ store.done.Removes e → Present store.next e

variable {r : String}

theorem mem_records : r ∈ pack.records ↔ ∃ kind, r ∈ pack.ids kind := by
  rw [ProfilePack.records, mem_append]
  constructor
  · rintro (h | h)
    exacts [⟨.event, h⟩, ⟨.action, h⟩]
  · rintro ⟨kind, h⟩
    cases kind
    exacts [.inl h, .inr h]

theorem Books.append (h : Books packs) (hid : ∀ p ∈ packs, p.id ≠ pack.id)
    (hn : ∀ p ∈ packs, ∀ r ∈ p.records, r ∉ pack.records) :
    Books (packs ++ [pack]) := by
  constructor
  · rw [map_append, map_singleton, ← concat_eq_append]
    refine List.Nodup.concat ?_ h.ids
    rintro hm
    obtain ⟨p, hp, heq⟩ := mem_map.1 hm
    exact hid p hp heq
  · refine pairwise_append.2
      ⟨h.single, pairwise_singleton _ _, ?_⟩
    rintro p hp _ hq
    cases mem_singleton.1 hq
    exact hn p hp

theorem Books.filter (h : Books packs) (k : ProfilePack → Bool) :
    Books (packs.filter k) :=
  ⟨h.ids.sublist (filter_sublist.map _), h.single.sublist filter_sublist⟩

theorem Books.map (h : Books packs) {f : ProfilePack → ProfilePack}
    (hid : ∀ p ∈ packs, (f p).id = p.id)
    (hn : ∀ p ∈ packs, ∀ q ∈ packs, p.id ≠ q.id →
      (∀ r ∈ p.records, r ∉ q.records) →
      ∀ r ∈ (f p).records, r ∉ (f q).records) : Books (packs.map f) := by
  have hids : (packs.map f).map (·.id) = packs.map (·.id) := by
    rw [map_map]
    exact map_congr_left hid
  refine ⟨hids ▸ h.ids, pairwise_map.2 ?_⟩
  have hne : packs.Pairwise fun p q => p.id ≠ q.id := pairwise_map.1 h.ids
  refine List.Pairwise.imp_of_mem ?_ (h.single.and hne)
  rintro p q hp hq ⟨hs, hd⟩
  exact hn p hp q hq hd hs

-- ==== the five ways to one

variable {s t u : Profiles}

theorem registered_fits (h : Books s.packs)
    (hf : ∀ p ∈ s.packs, p.id ≠ pack.id →
      ∀ r ∈ p.records, r ∉ pack.records) (a : String) :
    Store.Fits ⟨.registered pack,
      s.packs.filter (·.id ≠ pack.id) ++ [pack], a⟩ s.packs := by
  have ho : ∀ p ∈ s.packs.filter (·.id ≠ pack.id),
      p ∈ s.packs ∧ p.id ≠ pack.id := fun p hp => by
    simpa using mem_filter.1 hp
  refine ⟨(h.filter _).append (fun p hp => (ho p hp).2)
    fun p hp => hf p (ho p hp).1 (ho p hp).2, ?_, ?_⟩
  · intro e ha
    exact Present.mono ha fun p hp => mem_append_right _ hp
  · intro e hpr hr
    obtain ⟨p, hp, hor, hs⟩ := hpr.witness
    refine hs.mono fun q hq => mem_append_left _ ?_
    cases mem_singleton.1 hq
    refine mem_filter.2 ⟨hp, decide_eq_true fun heq => ?_⟩
    exact hr (hor.symm.trans heq)

theorem created_fits (h : Books s.packs) (hid : pack.id ∉ s.packs.map (·.id))
    (hem : pack.records = []) (a : String) :
    Store.Fits ⟨.created pack, s.packs ++ [pack], a⟩ s.packs := by
  refine ⟨h.append (fun p hp heq => hid (mem_map.2 ⟨p, hp, heq⟩))
    (fun p _ r _ => hem ▸ not_mem_nil), ?_, ?_⟩
  · intro e ha
    exact Present.mono ha fun p hp => mem_append_right _ hp
  · intro e hpr _
    exact hpr.mono fun p hp => mem_append_left _ hp

theorem deleted_fits (h : Books s.packs) (id a : String) :
    Store.Fits ⟨.deleted id, s.packs.filter (·.id ≠ id), a⟩ s.packs := by
  refine ⟨h.filter _, fun _ => False.elim, ?_⟩
  intro e hpr hr
  obtain ⟨p, hp, ho, hs⟩ := hpr.witness
  refine hs.mono fun q hq => ?_
  cases mem_singleton.1 hq
  refine mem_filter.2 ⟨hp, decide_eq_true fun heq => ?_⟩
  exact hr (ho.symm.trans heq)

variable {kind : Kind}

variable {key : Key} {call : Nat} {quiet : Option Nat} {id name : String}

theorem mem_drop {missing : List (Kind × String)} :
    id ∈ (pack.drop missing).ids kind
      ↔ id ∈ pack.ids kind ∧ (kind, id) ∉ missing := by
  cases kind <;> simp [ProfilePack.drop, ProfilePack.ids]

theorem switched_fits (h : Books s.packs) (id : String)
    (rules : ProfileUniverse) (missing : List (Kind × String)) :
    (s.switched id rules missing).Fits s.packs := by
  have hsub : ∀ (p : ProfilePack) r, r ∈ (p.drop missing).records →
      r ∈ p.records := fun p r hr => by
    obtain ⟨kind, hk⟩ := mem_records.1 hr
    exact mem_records.2 ⟨kind, (mem_drop.1 hk).1⟩
  refine ⟨h.map (fun _ _ => rfl) ?_, fun _ => False.elim, ?_⟩
  · intro p _ q _ _ hs r hp hq
    exact hs r (hsub p r hp) (hsub q r hq)
  · intro e hpr hrms
    obtain ⟨p, hp, -, hsl⟩ := hpr.witness
    refine hsl.of_pack (mem_map_of_mem hp) rfl ?_
    rintro owner kind r rfl hr
    exact mem_drop.2 ⟨hr, hrms⟩

theorem mem_add {k' : Kind} {id' : String} :
    id' ∈ (pack.add kind id).ids k'
      ↔ id' ∈ pack.ids k' ∨ (k' = kind ∧ id' = id) := by
  cases kind <;> cases k' <;> simp [ProfilePack.add, ProfilePack.ids]

@[simp] theorem add_id : (pack.add kind id).id = pack.id := by
  cases kind <;> rfl

theorem adopted_fits (h : Books s.packs)
    (hn : ∀ p ∈ s.packs, id ∉ p.records) (a : String) :
    Store.Fits
      ⟨.adopted ((s.packs.find? (·.id = s.activeId)).map (·.id)) kind id,
        s.packs.map fun pack =>
          if pack.id = s.activeId then pack.add kind id else pack,
        a⟩ s.packs := by
  have hid : ∀ p : ProfilePack,
      (if p.id = s.activeId then p.add kind id else p).id = p.id := by
    intro p
    split <;> simp
  have hmem : ∀ (p : ProfilePack) r,
      r ∈ (if p.id = s.activeId then p.add kind id else p).records →
        r ∈ p.records ∨ (p.id = s.activeId ∧ r = id) := by
    intro p r hr
    split at hr
    · next ha =>
      obtain ⟨k', hk⟩ := mem_records.1 hr
      rcases mem_add.1 hk with hl | ⟨-, rfl⟩
      exacts [.inl (mem_records.2 ⟨k', hl⟩), .inr ⟨ha, rfl⟩]
    · exact .inl hr
  refine ⟨h.map (fun p _ => hid p) ?_, ?_, ?_⟩
  · intro p hp q hq hd hs r hrp hrq
    rcases hmem p r hrp with hl | ⟨hpc, rfl⟩
    · rcases hmem q r hrq with h' | ⟨-, rfl⟩
      · exact hs r hl h'
      · exact hn p hp hl
    · rcases hmem q r hrq with h' | ⟨hqc, -⟩
      · exact hn q hq h'
      · exact hd (hpc.trans hqc.symm)
  · rintro e ⟨o, ho, rfl⟩
    obtain ⟨p, hp, rfl⟩ := Option.map_eq_some_iff.1 ho
    have ha : p.id = s.activeId := by
      simpa using find?_some hp
    refine ⟨_, mem_map_of_mem (mem_of_find?_eq_some hp), hid p, ?_⟩
    rw [if_pos ha]
    exact mem_add.2 (.inr ⟨rfl, rfl⟩)
  · intro e hpr _
    obtain ⟨p, hp, -, hsl⟩ := hpr.witness
    refine hsl.of_pack (mem_map_of_mem hp) (hid p) ?_
    rintro o k' r rfl hr
    split
    exacts [mem_add.2 (.inl hr), hr]

-- ==== a free id

/-- The base or one of its numbered forms is not taken. -/
def HasFree (taken : List String) (base : String) : Prop :=
  base ∉ taken ∨ ∃ counter, 2 ≤ counter ∧ numbered base counter ∉ taken

variable {base : String} {taken : List String} {rounds : Nat}

variable {counter : Nat}

theorem freeId_not_mem
    (h : freeId taken base rounds id counter = some r) : r ∉ taken := by
  induction rounds generalizing id counter with
  | zero => cases h
  | succ rounds ih =>
    unfold freeId at h
    split at h
    · exact ih h
    · next hf =>
      cases h
      exact hf

theorem freeId_form (hctr : 2 ≤ counter)
    (h : freeId taken base rounds id counter = some r) :
    r = id ∨ ∃ n, 2 ≤ n ∧ r = numbered base n := by
  induction rounds generalizing id counter with
  | zero => cases h
  | succ rounds ih =>
    unfold freeId at h
    split at h
    · rcases ih (Nat.le_succ_of_le hctr) h with rfl | hn
      exacts [.inr ⟨counter, hctr, rfl⟩, .inr hn]
    · exact .inl (Option.some.inj h).symm

theorem freeId_ends (a : Nat) :
    ∀ {id : String} {counter : Nat}, numbered base (counter + a) ∉ taken →
      ∃ rounds r, freeId taken base rounds id counter = some r := by
  induction a with
  | zero =>
    intro id counter hf
    rw [Nat.add_zero] at hf
    by_cases hid : id ∈ taken
    · refine ⟨2, numbered base counter, ?_⟩
      rw [freeId, if_pos hid, freeId, if_neg hf]
    · exact ⟨1, id, by rw [freeId, if_neg hid]⟩
  | succ a ih =>
    intro id counter hf
    by_cases hid : id ∈ taken
    · obtain ⟨rounds, r, hr⟩ := @ih (numbered base counter) (counter + 1)
        (by rwa [Nat.add_right_comm])
      exact ⟨rounds + 1, r, by rw [freeId, if_pos hid, hr]⟩
    · exact ⟨1, id, by rw [freeId, if_neg hid]⟩

theorem freeId_ends_iff :
    (∃ rounds id, freeId taken base rounds base 2 = some id)
      ↔ HasFree taken base := by
  constructor
  · rintro ⟨rounds, id, h⟩
    have hf := freeId_not_mem h
    rcases freeId_form (Nat.le_refl 2) h with rfl | ⟨n, hn, rfl⟩
    exacts [.inl hf, .inr ⟨n, hn, hf⟩]
  · rintro (hb | ⟨counter, hc, hf⟩)
    · exact ⟨1, base, by rw [freeId, if_neg hb]⟩
    · refine freeId_ends (counter - 2) ?_
      rwa [Nat.add_sub_of_le hc]

theorem numbered_ne_default (hne : base ≠ defaultProfileId)
    (hlen : base.toList.length ≤ 64) (counter : Nat) :
    numbered base counter ≠ defaultProfileId := by
  intro heq
  have hl := congrArg String.toList heq
  rw [numbered, String.toList_ofList] at hl
  rcases Nat.lt_or_ge base.toList.length 64 with hlt | hge
  · have hh : '-' ∈ defaultProfileId.toList := by
      rw [← hl, take_append, mem_append]
      right
      obtain ⟨k, hk⟩ : ∃ k, 64 - base.toList.length = k + 1 :=
        ⟨64 - base.toList.length - 1, by omega⟩
      rw [hk, take_succ_cons]
      exact mem_cons_self
    exact absurd hh (by decide)
  · rw [take_append_of_le_length hge,
      take_of_length_le hlen] at hl
    exact hne (String.toList_injective hl)

theorem slugProfileId_spec (h : slugProfileId name = some base) :
    base ≠ defaultProfileId ∧ base.toList.length ≤ 64 := by
  unfold slugProfileId at h
  dsimp only at h
  split at h
  · cases h
  · next hv =>
    rw [← Option.some.inj h]
    refine ⟨fun heq => hv (.inr (.inl heq)), ?_⟩
    rw [String.toList_ofList]
    exact length_take_le _ _

theorem freeId_new (hs : slugProfileId name = some base)
    (h : freeId taken base rounds base 2 = some id) :
    id ≠ defaultProfileId ∧ id ∉ taken := by
  obtain ⟨hne, hl⟩ := slugProfileId_spec hs
  refine ⟨?_, freeId_not_mem h⟩
  rcases freeId_form (Nat.le_refl 2) h with rfl | ⟨n, -, rfl⟩
  exacts [hne, numbered_ne_default hne hl n]

-- ==== the invariant

namespace Profiles

/-- A list on its way, and the write that is in already. -/
def Storing (s : Profiles) (call : Nat) (store : Store)
    (written : Option Key) : Prop :=
  ∃ quiet, s.calls[call]? = some ⟨quiet, .storing store written⟩

theorem settled_iff : s.Settled
    ↔ ∀ call store written, ¬ s.Storing call store written := by
  constructor
  · rintro h call store written ⟨quiet, hc⟩
    cases h (call, _) (mem_toList.2 hc)
  · rintro h ⟨call, quiet, phase⟩ hm
    cases phase with
    | storing store written =>
      exact absurd ⟨quiet, mem_toList.1 hm⟩ (h call store written)
    | enabling id rules updates => rfl
    | deleting id todo => rfl
    | late store key => rfl

/-- What the host has stored while a list is on its way. -/
structure Halfway (s : Profiles) (store : Store) (written : Option Key) :
    Prop where
  fits : store.Fits s.packs
  packs : s.storedPacks
    = if written = some .packs then store.next else s.packs
  active : s.storedActive
    = if written = some .active then store.active else s.activeId

/-- The list is in order, carries what stands, and is what is stored,
save for the one list that may be on its way. -/
structure Kept (s : Profiles) : Prop where
  books : Books s.packs
  log : ∀ e, Stands e s.log → Present s.packs e
  halfway : ∀ call store written, s.Storing call store written →
    s.Halfway store written
  alone : ∀ call call' store store' written written',
    s.Storing call store written → s.Storing call' store' written' →
      call = call'
  stored : s.Settled → s.storedPacks = s.packs ∧ s.storedActive = s.activeId

/-- Only calls and records may differ. -/
structure SameBooks (s t : Profiles) : Prop where
  packs : t.packs = s.packs
  activeId : t.activeId = s.activeId
  storedPacks : t.storedPacks = s.storedPacks
  storedActive : t.storedActive = s.storedActive
  log : t.log = s.log

variable {written : Option Key} {store : Store}

theorem SameBooks.halfway (h : SameBooks s t) (hs : s.Halfway store written) :
    t.Halfway store written := by
  obtain ⟨hf, hp, ha⟩ := hs
  constructor
  · rw [h.packs]
    exact hf
  · rw [h.packs, h.storedPacks, hp]
  · rw [h.activeId, h.storedActive, ha]

theorem Kept.same (h : Kept s) (hsm : SameBooks s t)
    (hc : ∀ call store written,
      t.Storing call store written ↔ s.Storing call store written) :
    Kept t := by
  refine ⟨?_, ?_, ?_, ?_, ?_⟩
  · rw [hsm.packs]
    exact h.books
  · rw [hsm.packs, hsm.log]
    exact h.log
  · intro call store written hst
    exact hsm.halfway (h.halfway _ _ _ ((hc _ _ _).1 hst))
  · intro call call' store store' written written' hs hs'
    exact h.alone _ _ _ _ _ _ ((hc _ _ _).1 hs) ((hc _ _ _).1 hs')
  · intro hse
    rw [hsm.packs, hsm.activeId, hsm.storedPacks, hsm.storedActive]
    refine h.stored (settled_iff.2 fun call store written hs => ?_)
    exact settled_iff.1 hse call store written ((hc _ _ _).2 hs)

theorem Kept.depart (h : Kept s) (hse : s.Settled)
    (hsm : SameBooks s t) (hf : store.Fits s.packs)
    (hc : ∀ call' s' w', t.Storing call' s' w' →
      (call' = call ∧ s' = store ∧ w' = none) ∨ s.Storing call' s' w')
    (hst : t.Storing call store none) : Kept t := by
  have hone : ∀ call' s' w', t.Storing call' s' w' →
      call' = call ∧ s' = store ∧ w' = none := by
    intro call' s' w' hs
    refine (hc _ _ _ hs).resolve_right ?_
    exact settled_iff.1 hse call' s' w'
  obtain ⟨hp, ha⟩ := h.stored hse
  refine ⟨?_, ?_, ?_, ?_, ?_⟩
  · rw [hsm.packs]
    exact h.books
  · rw [hsm.packs, hsm.log]
    exact h.log
  · intro call' s' w' hs
    obtain ⟨rfl, rfl, rfl⟩ := hone _ _ _ hs
    exact hsm.halfway ⟨hf, hp, ha⟩
  · intro call₁ call₂ _ _ _ _ hs hs'
    exact (hone _ _ _ hs).1.trans (hone _ _ _ hs').1.symm
  · intro hn
    exact absurd hst (settled_iff.1 hn call store none)

theorem Kept.arrive
    (ha : ∀ call' store written, s.Storing call' store written → call' = call)
    (hc : t.calls = s.calls.erase call ∨ ∃ quiet store key,
      t.calls = s.calls.insert call ⟨quiet, .late store key⟩)
    (hb : Books t.packs) (hl : ∀ e, Stands e t.log → Present t.packs e)
    (hst : t.storedPacks = t.packs ∧ t.storedActive = t.activeId) :
    Kept t := by
  have hn : ∀ call' store written,
      ¬ t.Storing call' store written := by
    rintro call' store written ⟨quiet, hs⟩
    rcases hc with hc | ⟨q, st, key, hc⟩
    · rw [hc, get_erase] at hs
      split at hs
      · cases hs
      · next hne => exact hne (ha _ _ _ ⟨quiet, hs⟩).symm
    · rw [hc, get_insert] at hs
      split at hs
      · cases hs
      · next hne => exact hne (ha _ _ _ ⟨quiet, hs⟩).symm
  refine ⟨hb, hl, ?_, ?_, fun _ => hst⟩
  · intro call' store written hs
    exact absurd hs (hn _ _ _)
  · intro call₁ _ _ _ _ _ hs
    exact absurd hs (hn _ _ _)

variable {call' : Nat}

theorem storing_insert {c : Call} (hc : t.calls = s.calls.insert call c) :
    t.Storing call' store written
      ↔ if call = call' then c.phase = .storing store written
        else s.Storing call' store written := by
  unfold Storing
  rw [hc]
  simp only [get_insert]
  split
  · constructor
    · rintro ⟨quiet, ⟨⟩⟩
      rfl
    · obtain ⟨quiet, phase⟩ := c
      rintro ⟨⟩
      exact ⟨quiet, rfl⟩
  · exact Iff.rfl

theorem storing_erase (hc : t.calls = s.calls.erase call) :
    t.Storing call' store written
      ↔ call ≠ call' ∧ s.Storing call' store written := by
  unfold Storing
  rw [hc]
  simp only [get_erase]
  split
  · next heq => simp [heq]
  · next hne => simp [hne]

variable {phase : Phase}

theorem Kept.insert_quiet (h : Kept s) (hs : SameBooks s t)
    (hc : t.calls = s.calls.insert call ⟨quiet, phase⟩)
    (hp : phase.isStoring = false)
    (ho : ∀ store written, ¬ s.Storing call store written) : Kept t := by
  refine h.same hs fun call' store written => ?_
  rw [storing_insert hc]
  split
  · next heq =>
    subst heq
    refine iff_of_false ?_ (ho store written)
    rintro rfl
    cases hp
  · exact Iff.rfl

theorem Kept.erase_quiet (h : Kept s) (hsm : SameBooks s t)
    (hc : t.calls = s.calls.erase call)
    (ho : ∀ store written, ¬ s.Storing call store written) : Kept t := by
  refine h.same hsm fun call' store written => ?_
  rw [storing_erase hc]
  refine and_iff_right_of_imp ?_
  rintro hs rfl
  exact ho store written hs

theorem Kept.insert_store (h : Kept s) (hst : s.Settled)
    (hsm : SameBooks s t)
    (hf : store.Fits s.packs) (hc : t.calls = s.calls.insert call
      ⟨quiet, .storing store none⟩) : Kept t := by
  refine h.depart hst hsm hf ?_ ((storing_insert hc).2 (by rw [if_pos rfl]))
  · intro call' store' written' hs
    rw [storing_insert hc] at hs
    split at hs
    · next heq =>
      cases hs
      exact .inl ⟨heq.symm, rfl, rfl⟩
    · exact .inr hs

theorem begin_spec (h : s.begin call phase = some t) :
    s.calls[call]? = none ∧ ∃ quiet,
      quiet = (if s.Idle then some (s.changes + 1) else none)
        ∧ t = { s with
          calls := s.calls.insert call ⟨quiet, phase⟩
          changes := s.changes + 1 } := by
  unfold begin at h
  split at h
  · next hn =>
    cases h
    exact ⟨hn, _, rfl, rfl⟩
  · cases h

theorem Kept.begin_store (h : Kept s) (hs : s.Settled)
    (hf : store.Fits s.packs)
    (hb : s.begin call (.storing store none) = some t) : Kept t := by
  obtain ⟨-, quiet, -, rfl⟩ := begin_spec hb
  exact h.insert_store hs ⟨rfl, rfl, rfl, rfl, rfl⟩ hf rfl

theorem Kept.begin_quiet (h : Kept s)
    (hp : phase.isStoring = false) (hb : s.begin call phase = some t) :
    Kept t := by
  obtain ⟨hn, quiet, -, rfl⟩ := begin_spec hb
  refine h.insert_quiet ⟨rfl, rfl, rfl, rfl, rfl⟩ rfl hp ?_
  rintro store written ⟨q, hs⟩
  rw [hn] at hs
  cases hs

-- ==== the steps

theorem Kept.registerPack (h : Kept s) {pack : ProfilePack}
    (ho : s.Ordered (.registerPack call pack))
    (hn : s.registerPack call pack = some t) : Kept t := by
  unfold Profiles.registerPack at hn
  split at hn
  · cases hn
    exact h
  · exact h.begin_store ho.1 (registered_fits h.books ho.2 _) hn

theorem Kept.switchProfile (h : Kept s) {ru : ProfileUniverse}
    (hn : s.switchProfile call id ru = some t) : Kept t := by
  unfold Profiles.switchProfile at hn
  split at hn
  · cases hn
    exact h
  · exact h.begin_quiet rfl hn

theorem Kept.createPack (h : Kept s) {rounds : Nat} (hs : s.Settled)
    (hn : s.createPack call name rounds = some t) : Kept t := by
  unfold Profiles.createPack at hn
  split at hn
  · cases hn
    exact h
  · next base hsl =>
    obtain ⟨id, hid, hb⟩ := Option.bind_eq_some_iff.1 hn
    exact h.begin_store hs
      (created_fits h.books (freeId_not_mem hid) rfl _) hb

theorem deletePhase_cases (s : Profiles) (id : String)
    (td : List (Kind × String)) :
    (td = [] ∧ ∃ a, s.deletePhase id td = .storing
        ⟨.deleted id, s.packs.filter (·.id ≠ id), a⟩ none)
      ∨ (td ≠ [] ∧ s.deletePhase id td = .deleting id td) := by
  cases td with
  | nil => exact .inl ⟨rfl, _, rfl⟩
  | cons first td => exact .inr ⟨cons_ne_nil _ _, rfl⟩

theorem Kept.deletePack (h : Kept s)
    (ho : s.Ordered (.deletePack call id))
    (hn : s.deletePack call id = some t) : Kept t := by
  unfold Profiles.deletePack at hn
  split at hn
  · cases hn
    exact h
  split at hn
  · cases hn
    exact h
  next ta htgt =>
  rcases s.deletePhase_cases id (ta.eventIds.map (Prod.mk .event)
      ++ ta.actionIds.map (Prod.mk .action))
    with ⟨ht, a, hp⟩ | ⟨-, hp⟩
  · rw [hp] at hn
    have hem : ta.records = [] := by
      obtain ⟨he, ha⟩ := append_eq_nil_iff.1 ht
      rw [ProfilePack.records, map_eq_nil_iff.1 he, map_eq_nil_iff.1 ha]
      rfl
    exact h.begin_store (ho ta htgt hem) (deleted_fits h.books id a) hn
  · rw [hp] at hn
    exact h.begin_quiet rfl hn

theorem Kept.adoptRule (h : Kept s) {kind : Kind} (hs : s.Settled)
    (hn : s.adoptRule call kind id = some t) : Kept t := by
  unfold Profiles.adoptRule at hn
  split at hn
  · cases hn
    exact h
  split at hn
  · cases hn
    exact h
  next hnew =>
  have hnot : ∀ p ∈ s.packs, id ∉ p.records := fun p hp hm =>
    hnew ⟨p, hp, mem_append.1 hm⟩
  exact h.begin_store hs (adopted_fits h.books hnot _) hn

variable {ok : Bool}

section

variable (h : Kept s)
include h

theorem Kept.enabled (ho : s.Ordered (.enabled call ok))
    (hn : s.next (.enabled call ok) = some t) : Kept t := by
  dsimp only [Profiles.next] at hn
  split at hn
  · next quiet id ru updates hc =>
    have hold : ∀ store written, ¬ s.Storing call store written := by
      rintro store written ⟨q, hs⟩
      rw [hc] at hs
      cases hs
    split at hn
    · next hok =>
      cases hn
      exact h.insert_store (ho hok) ⟨rfl, rfl, rfl, rfl, rfl⟩
        (switched_fits h.books id ru _) rfl
    · cases hn
      exact h.erase_quiet ⟨rfl, rfl, rfl, rfl, rfl⟩ rfl hold
  · cases hn

theorem Kept.deleted (ho : s.Ordered (.deleted call ok))
    (hn : s.next (.deleted call ok) = some t) : Kept t := by
  dsimp only [Profiles.next] at hn
  split at hn
  · next quiet id kind record td hc =>
    have hold : ∀ store written, ¬ s.Storing call store written := by
      rintro store written ⟨q, hs⟩
      rw [hc] at hs
      cases hs
    split at hn
    · next hok =>
      cases hn
      rcases s.deletePhase_cases id td
        with ⟨rfl, a, hp⟩ | ⟨-, hp⟩
      · rw [hp]
        exact h.insert_store (ho hok _ hc rfl)
          ⟨rfl, rfl, rfl, rfl, rfl⟩ (deleted_fits h.books id a) rfl
      · rw [hp]
        exact h.insert_quiet ⟨rfl, rfl, rfl, rfl, rfl⟩ rfl rfl hold
    · cases hn
      exact h.erase_quiet ⟨rfl, rfl, rfl, rfl, rfl⟩ rfl hold
  · cases hn

theorem Kept.first (hst : s.Storing call store none) :
    Kept ((s.put store key).wait call quiet (.storing store (some key))) := by
  obtain ⟨hf, hp, ha⟩ := h.halfway _ _ _ hst
  have hc : ((s.put store key).wait call quiet
      (.storing store (some key))).calls
        = s.calls.insert call ⟨quiet, .storing store (some key)⟩ := by
    cases key <;> rfl
  have hone : ∀ call' s' w',
      ((s.put store key).wait call quiet
        (.storing store (some key))).Storing call' s' w' →
      call' = call ∧ s' = store ∧ w' = some key := by
    intro call' s' w' hs
    rw [storing_insert hc] at hs
    split at hs
    · next heq =>
      cases hs
      exact ⟨heq.symm, rfl, rfl⟩
    · next hne => exact absurd (h.alone _ _ _ _ _ _ hs hst).symm hne
  refine ⟨?_, ?_, ?_, ?_, ?_⟩
  · cases key <;> exact h.books
  · cases key <;> exact h.log
  · intro call' s' w' hs
    obtain ⟨rfl, rfl, rfl⟩ := hone _ _ _ hs
    cases key
    exacts [⟨hf, rfl, ha⟩, ⟨hf, hp, rfl⟩]
  · intro call₁ call₂ _ _ _ _ hs hs'
    exact (hone _ _ _ hs).1.trans (hone _ _ _ hs').1.symm
  · intro hse
    refine absurd ?_ (settled_iff.1 hse call store (some key))
    rw [storing_insert hc, if_pos rfl]

theorem Kept.complete {f : Key}
    (hsg : s.Storing call store (some f)) (hk : key ≠ f) :
    Kept ((s.put store key).complete call store) := by
  obtain ⟨hf, hp, hc⟩ := h.halfway _ _ _ hsg
  refine Kept.arrive (fun call' store' written hs =>
      h.alone _ _ _ _ _ _ hs hsg)
    (.inl (by cases key <;> rfl)) hf.books ?_ ?_
  · intro e hst
    have hlog : ((s.put store key).complete call store).log
        = store.done :: s.log := by cases key <;> rfl
    rw [hlog] at hst
    rcases hst with ha | ⟨hst, hr⟩
    · exact hf.adds e ha
    · exact hf.keeps e (h.log e hst) hr
  · cases key <;> cases f
    exacts [absurd rfl hk, ⟨rfl, hc⟩, ⟨hp, rfl⟩, absurd rfl hk]

theorem Kept.wrote
    {outcome : Outcome} (hord : s.Ordered (.wrote call key outcome))
    (hn : s.next (.wrote call key outcome) = some t) : Kept t := by
  dsimp only [Profiles.next] at hn
  split at hn
  · next quiet store hc =>
    have hst : s.Storing call store none := ⟨quiet, hc⟩
    have ha := hord _ hc
    cases outcome with
    | ok =>
      cases hn
      exact h.first hst
    | refused =>
      cases hn
      obtain ⟨-, hp, hact⟩ := h.halfway _ _ _ hst
      exact Kept.arrive (fun call' _ _ hs =>
          h.alone _ _ _ _ _ _ hs hst)
        (.inr ⟨quiet, store, key.other, rfl⟩) h.books h.log
        ⟨hp, hact⟩
    | lost => cases ha
  · next quiet store first hc =>
    have ha := hord _ hc
    split at hn
    · cases hn
    · next hkey =>
      cases outcome with
      | ok =>
        cases hn
        exact h.complete ⟨quiet, hc⟩ hkey
      | refused => cases ha
      | lost => cases ha
  · next quiet store due hc =>
    have ha := hord _ hc
    split at hn
    · cases outcome with
      | refused =>
        cases hn
        refine h.erase_quiet ⟨rfl, rfl, rfl, rfl, rfl⟩ rfl ?_
        rintro store' written ⟨q, hs⟩
        rw [hc] at hs
        cases hs
      | ok => cases ha
      | lost => cases ha
    · cases hn
  · cases hn

theorem Kept.next {a : Action}
    (ho : s.Ordered a) (hn : s.next a = some t) :
    Kept t := by
  cases a with
  | registerPack call pack => exact h.registerPack ho hn
  | switchProfile call id rules => exact h.switchProfile hn
  | createPack call name rounds =>
    dsimp only [Profiles.next] at hn
    exact h.createPack ho hn
  | deletePack call id => exact h.deletePack ho hn
  | adoptRule call kind id => exact h.adoptRule ho hn
  | enabled call ok => exact h.enabled ho hn
  | deleted call ok => exact h.deleted ho hn
  | wrote call key outcome => exact h.wrote ho hn
  | edit kind id record =>
    cases hn
    exact h.same ⟨rfl, rfl, rfl, rfl, rfl⟩ fun _ _ _ => Iff.rfl

end

end Profiles

end TikTools.RuleProfiles
