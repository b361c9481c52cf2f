/-
What a sequence of stamped keys says last about each key.

`latest` keeps the last entry of every key, in the order of these
entries. It is what a memory that never forgets would hold when it moves
a key to the end each time the key comes again; a bounded memory holds a
suffix of it. How recent a key is can be read off either: the entries
behind it in `latest` are the other keys that came since
(`latest_eq_split`, `latest_split`).
-/
import Mathlib.Data.List.Nodup
import Mathlib.Data.Finset.Card

namespace TikTools.Lib

open List

universe u v

variable {κ : Type u} {τ : Type v} [DecidableEq κ]

/-- The last entry of every key. -/
def latest (log : List (κ × τ)) : List (κ × τ) :=
  log.foldl (fun entries entry =>
    entries.filter (fun other => other.1 ≠ entry.1) ++ [entry]) []

/-- How many keys a sequence names besides one. -/
def others (key : κ) (log : List (κ × τ)) : Nat :=
  ((log.map Prod.fst).toFinset.erase key).card

variable {log earlier later : List (κ × τ)} {key : κ} {stamp : τ}

theorem latest_snoc (log : List (κ × τ)) (e : κ × τ) :
    latest (log ++ [e])
      = (latest log).filter (fun o => o.1 ≠ e.1) ++ [e] := by
  unfold latest
  rw [foldl_append]
  rfl

theorem mem_keys_latest :
    key ∈ (latest log).map Prod.fst ↔ key ∈ log.map Prod.fst := by
  induction log using List.reverseRecOn with
  | nil => rfl
  | append_singleton log e ih =>
    rw [latest_snoc, map_append, map_append, mem_append, mem_append, ← ih]
    by_cases hkey : key = e.1
    · have hl : key ∈ [e].map Prod.fst := by
        rw [hkey]
        exact mem_singleton.2 rfl
      exact ⟨fun _ => .inr hl, fun _ => .inr hl⟩
    · refine or_congr_left ?_
      constructor
      · intro hin
        obtain ⟨o, ho, rfl⟩ := mem_map.1 hin
        exact mem_map_of_mem (mem_of_mem_filter ho)
      · intro hin
        obtain ⟨o, ho, rfl⟩ := mem_map.1 hin
        exact mem_map_of_mem (mem_filter.2 ⟨ho, decide_eq_true hkey⟩)

theorem nodup_keys_latest (log : List (κ × τ)) :
    ((latest log).map Prod.fst).Nodup := by
  induction log using List.reverseRecOn with
  | nil => exact nodup_nil
  | append_singleton log entry ih =>
    rw [latest_snoc, map_append, nodup_append]
    refine ⟨ih.sublist (filter_sublist.map _), nodup_singleton _, ?_⟩
    intro a ha b hb hab
    obtain ⟨other, ho, rfl⟩ := mem_map.1 ha
    cases mem_singleton.1 hb
    exact of_decide_eq_true (mem_filter.1 ho).2 hab

theorem latest_append (earlier later : List (κ × τ)) :
    latest (earlier ++ later)
      = (latest earlier).filter
          (fun o => o.1 ∉ later.map Prod.fst)
        ++ latest later := by
  induction later using List.reverseRecOn with
  | nil =>
    rw [append_nil]
    symm
    show List.filter _ _ ++ [] = _
    rw [append_nil, filter_eq_self]
    exact fun o _ => decide_eq_true not_mem_nil
  | append_singleton later entry ih =>
    rw [← append_assoc, latest_snoc, ih, filter_append,
      filter_filter, latest_snoc, append_assoc]
    refine congrArg (· ++ _) (filter_congr fun o _ => ?_)
    rw [← Bool.decide_and]
    refine decide_eq_decide.2 ?_
    rw [map_append, mem_append, not_or]
    refine and_comm.trans (and_congr_right fun _ => not_congr ?_)
    exact mem_singleton.symm

theorem latest_split (hl : key ∉ later.map Prod.fst) :
    ∃ b, latest (earlier ++ (key, stamp) :: later)
      = b ++ (key, stamp) :: latest later := by
  rw [← singleton_append, ← append_assoc, latest_append,
    latest_snoc, filter_append]
  have hk : [(key, stamp)].filter (fun o : κ × τ =>
      o.1 ∉ later.map Prod.fst) = [(key, stamp)] :=
    filter_cons_of_pos (decide_eq_true hl)
  rw [hk, append_assoc]
  exact ⟨_, rfl⟩

theorem latest_eq_split {be b : List (κ × τ)}
    (h : latest log = be ++ (key, stamp) :: b) :
    ∃ earlier later, log = earlier ++ (key, stamp) :: later
      ∧ key ∉ later.map Prod.fst ∧ b = latest later := by
  induction log using List.reverseRecOn generalizing be b with
  | nil => cases append_eq_nil_iff.1 h.symm |>.2
  | append_singleton log e ih =>
    rw [latest_snoc] at h
    rcases eq_nil_or_concat b with rfl | ⟨front, last, rfl⟩
    · obtain ⟨-, hen⟩ := append_inj' h rfl
      cases hen
      exact ⟨log, [], rfl, not_mem_nil, rfl⟩
    · rw [concat_eq_append, ← cons_append,
        ← append_assoc] at h
      obtain ⟨hf, hen⟩ := append_inj' h rfl
      cases hen
      obtain ⟨_, rest, hlog, -, hr⟩ := filter_eq_append_iff.1 hf
      obtain ⟨between, tail, rfl, -, hkey, ht⟩ := filter_eq_cons_iff.1 hr
      rw [← append_assoc] at hlog
      obtain ⟨earlier, later, rfl, hl, rfl⟩ := ih hlog
      refine ⟨earlier, later ++ [e], by rw [append_assoc]; rfl, ?_, ?_⟩
      · rw [map_append, mem_append, not_or]
        refine ⟨hl, fun hin => ?_⟩
        exact of_decide_eq_true hkey (mem_singleton.1 hin)
      · rw [concat_eq_append, latest_snoc, ht]

theorem length_latest (hl : key ∉ later.map Prod.fst) :
    (latest later).length = others key later := by
  unfold others
  rw [Finset.erase_eq_of_notMem (fun hin => hl
    (mem_toFinset.1 hin)), ← length_map Prod.fst,
    ← toFinset_card_of_nodup (nodup_keys_latest later)]
  refine congrArg Finset.card (Finset.ext fun other => ?_)
  rw [mem_toFinset, mem_toFinset, mem_keys_latest]

theorem others_mono (key : κ) (h : ∀ e ∈ earlier, e ∈ later) :
    others key earlier ≤ others key later := by
  refine Finset.card_le_card (Finset.erase_subset_erase key ?_)
  intro other ho
  obtain ⟨e, hen, rfl⟩ := mem_map.1 (mem_toFinset.1 ho)
  exact mem_toFinset.2 (mem_map_of_mem (h e hen))

/-- A key that occurs has a last entry, and what came since that came
since every other entry of it. -/
theorem exists_last (earlier : List (κ × τ)) (key : κ) (stamp : τ)
    (later : List (κ × τ)) :
    ∃ before last behind,
      earlier ++ (key, stamp) :: later = before ++ (key, last) :: behind
      ∧ key ∉ behind.map Prod.fst ∧ (∀ entry ∈ behind, entry ∈ later)
      ∧ (key, last) ∈ (key, stamp) :: later := by
  induction later using List.reverseRecOn with
  | nil => exact ⟨earlier, stamp, [], rfl, not_mem_nil,
      fun _ h => h, mem_cons_self⟩
  | append_singleton later entry ih =>
    by_cases hkey : entry.1 = key
    · refine ⟨earlier ++ (key, stamp) :: later, entry.2, [], ?_,
        not_mem_nil, fun _ h => (not_mem_nil h).elim, ?_⟩
      · rw [append_assoc, ← hkey]
        rfl
      · rw [← hkey]
        exact mem_cons_of_mem _ (mem_append_right _ mem_cons_self)
    · obtain ⟨before, last, behind, hsp, hl, hs, hin⟩ := ih
      refine ⟨before, last, behind ++ [entry], ?_, ?_, ?_, ?_⟩
      · rw [← cons_append, ← append_assoc, hsp,
          append_assoc]
        rfl
      · rw [map_append, mem_append, not_or]
        exact ⟨hl, fun h => hkey (mem_singleton.1 h).symm⟩
      · intro other ho
        rw [mem_append] at ho ⊢
        exact ho.imp_left (hs other)
      · rcases mem_cons.1 hin with h | h
        · exact mem_cons.2 (.inl h)
        · exact mem_cons_of_mem _ (mem_append_left _ h)

theorem length_le_filter_ne (key : κ) {e : List (κ × τ)}
    (hn : (e.map Prod.fst).Nodup) :
    e.length ≤ (e.filter (fun en => en.1 ≠ key)).length + 1 := by
  induction e with
  | nil => exact Nat.zero_le _
  | cons en rest ih =>
    rw [map_cons, nodup_cons] at hn
    by_cases hkey : en.1 = key
    · have hr : rest.filter (fun en => en.1 ≠ key) = rest :=
        filter_eq_self.2 fun other ho =>
          decide_eq_true fun hs => hn.1 (by
            rw [hkey, ← hs]
            exact mem_map_of_mem ho)
      rw [filter_cons, if_neg (by simp [hkey]), hr]
      exact le_refl _
    · rw [filter_cons, if_pos (decide_eq_true hkey)]
      exact Nat.succ_le_succ (ih hn.2)

end TikTools.Lib
