/-
The ranking a widget shows.

Snapshots reach a widget over several ways and may come late or twice. A
snapshot of the instance on show is taken only if it is newer, and an
instance that gave way to another is retired; 128 retired instances are
remembered.
-/
import Mathlib.Data.List.Nodup

namespace TikTools.Widgets

open List

/-- What the controller reads of a parsed snapshot. -/
structure RankingSnapshot where
  rankingId : String
  creatorId : String
  roomId : String
  revision : Nat
  instanceId : Option String

/-- `shown` is what the handler was given since the last clear. -/
structure RankingController where
  rankingId : String
  current : Option RankingSnapshot := none
  retired : List String := []
  shown : List RankingSnapshot := []

namespace RankingController

/-- The retired instances when a snapshot takes the place of another. -/
def retire (retired : List String) (old new : Option String) :
    List String :=
  match old, new with
  | some old, some new =>
    if old = new then retired
    else
      let all := if old ∈ retired then retired else retired ++ [old]
      if 128 < all.length then all.tail else all
  | _, _ => retired

variable (c : RankingController)

/-- `snapshot` is what `parseRankingSnapshot` makes of the envelope. -/
def handleEnvelope (snapshot : Option RankingSnapshot) :
    Bool × RankingController :=
  match snapshot with
  | none => (false, c)
  | some snapshot =>
    if snapshot.rankingId ≠ c.rankingId then (false, c)
    else if snapshot.instanceId.any (· ∈ c.retired) then (false, c)
    else if c.current.any fun current =>
        snapshot.creatorId = current.creatorId
          && snapshot.roomId = current.roomId
          && snapshot.instanceId = current.instanceId
          && snapshot.revision ≤ current.revision then (false, c)
    else (true, { c with
      current := some snapshot
      retired := retire c.retired (c.current.bind (·.instanceId))
        snapshot.instanceId
      shown := c.shown ++ [snapshot] })

def clear : RankingController :=
  { c with current := none, retired := [], shown := [] }

inductive Action
  | envelope (snapshot : Option RankingSnapshot)
  | clear

def next : Action → RankingController
  | .envelope snapshot => (c.handleEnvelope snapshot).2
  | .clear => c.clear

-- ==== order

variable {c} {creatorId roomId : String}

/-- The second may follow the first. -/
def Newer (s t : RankingSnapshot) : Prop :=
  s.instanceId = t.instanceId → s.revision < t.revision

/-- A snapshot of an instance of the LIVE. -/
def OfLive (creatorId roomId : String) (s : RankingSnapshot) : Prop :=
  s.creatorId = creatorId ∧ s.roomId = roomId ∧ s.instanceId ≠ none

structure InOrder (creatorId roomId : String) (c : RankingController) :
    Prop where
  live : ∀ now, c.current = some now → OfLive creatorId roomId now
  nodup : c.retired.Nodup
  bound : c.retired.length ≤ 128
  on : ∀ x, c.current.bind (·.instanceId) = some x → x ∉ c.retired
  behind : c.retired.length < 128 → ∀ s ∈ c.shown, ∀ x,
    s.instanceId = some x → x ∈ c.retired ∨ ∃ now, c.current = some now
      ∧ now.instanceId = some x ∧ s.revision ≤ now.revision
  newer : c.retired.length < 128 → c.shown.Pairwise Newer

theorem retire_spec {l : List String} {old : Option String} {x : String}
    (hn : l.Nodup) (hl : l.length ≤ 128) (hx : x ∉ l)
    (ho : ∀ y, old = some y → y ∉ l) :
    let after := retire l old (some x)
    after.Nodup ∧ after.length ≤ 128 ∧ x ∉ after
      ∧ (after.length < 128 → l.length < 128 ∧ (∀ z ∈ l, z ∈ after)
        ∧ ∀ y, old = some y → y = x ∨ y ∈ after) := by
  cases old with
  | none => exact ⟨hn, hl, hx, fun h => ⟨h, fun _ => id, nofun⟩⟩
  | some y =>
    have hy := ho y rfl
    simp only [retire, if_neg hy, Option.some.injEq, forall_eq']
    split
    · next heq => exact ⟨hn, hl, hx, fun h => ⟨h, fun _ => id, .inl heq⟩⟩
    next hne =>
    have hall : (l ++ [y]).Nodup := by
      rw [nodup_append]
      refine ⟨hn, nodup_singleton y, fun a ha b hb => ?_⟩
      rw [mem_singleton.1 hb]
      exact ne_of_mem_of_not_mem ha hy
    have hxn : x ∉ l ++ [y] := by
      rw [mem_append, mem_singleton]
      exact fun h => h.elim hx fun heq => hne heq.symm
    have hlen : (l ++ [y]).length = l.length + 1 := length_append
    split
    · have ht : (l ++ [y]).tail.length = l.length := by
        rw [length_tail, hlen, Nat.add_sub_cancel]
      refine ⟨hall.sublist (tail_sublist _), ht ▸ hl,
        fun h => hxn (mem_of_mem_tail h), fun h => ?_⟩
      omega
    · next hroom =>
      refine ⟨hall, Nat.not_lt.1 hroom, hxn, fun h => ⟨by omega, ?_, ?_⟩⟩
      · exact fun z hz => mem_append_left _ hz
      · exact .inr (mem_append_right _ (mem_singleton.2 rfl))

theorem InOrder.next (h : InOrder creatorId roomId c) (a : Action)
    (ha : ∀ t, a = .envelope (some t) → OfLive creatorId roomId t) :
    InOrder creatorId roomId (c.next a) := by
  cases a with
  | clear => exact ⟨nofun, nodup_nil, Nat.zero_le _, nofun,
      fun _ _ hs => absurd hs not_mem_nil, fun _ => .nil⟩
  | envelope snapshot =>
    show InOrder _ _ (c.handleEnvelope snapshot).2
    unfold handleEnvelope
    cases snapshot with
    | none => exact h
    | some t =>
      have hlive := ha t rfl
      obtain ⟨x, hx⟩ := Option.ne_none_iff_exists'.1 hlive.2.2
      dsimp only
      split
      · exact h
      split
      · exact h
      next hretired =>
      have hretired : x ∉ c.retired := by simpa [hx] using hretired
      split
      · exact h
      next hold =>
      have hnew : ∀ now, c.current = some now → now.instanceId = some x →
          now.revision < t.revision := by
        intro now hnow hi
        obtain ⟨hcreator, hroom, -⟩ := h.live now hnow
        simpa [hnow, hlive.1, hlive.2.1, hcreator, hroom, hi, hx]
          using hold
      obtain ⟨h1, h2, h3, h4⟩ := retire_spec h.nodup h.bound hretired h.on
      rw [hx]
      -- what was shown of the instance is older than the snapshot
      have hbehind : c.retired.length < 128 → ∀ s ∈ c.shown,
          s.instanceId = some x → s.revision < t.revision := by
        intro hl s hs hi
        rcases h.behind hl s hs x hi with hin | ⟨now, hnow, hni, hle⟩
        · exact absurd hin hretired
        · exact Nat.lt_of_le_of_lt hle (hnew now hnow hni)
      refine ⟨?_, h1, h2, ?_, fun hl s hs z hz => ?_, fun hl => ?_⟩
      · rintro _ ⟨⟩
        exact hlive
      · intro y hy
        cases hx.symm.trans hy
        exact h3
      · obtain ⟨hroom, hsub, hcur⟩ := h4 hl
        rcases mem_append.1 hs with hs | hs
        · by_cases hzx : z = x
          · rw [hzx] at hz
            refine .inr ⟨t, rfl, hzx ▸ hx, Nat.le_of_lt ?_⟩
            exact hbehind hroom s hs hz
          · left
            rcases h.behind hroom s hs z hz with hin | ⟨now, hnow, hi, -⟩
            · exact hsub z hin
            · refine (hcur z ?_).resolve_left hzx
              rw [hnow]
              exact hi
        · rw [mem_singleton.1 hs] at hz ⊢
          exact .inr ⟨t, rfl, hz, Nat.le_refl _⟩
      · refine pairwise_append.2 ⟨h.newer (h4 hl).1,
          pairwise_singleton _ _, fun s hs u hu hi => ?_⟩
        rw [mem_singleton.1 hu] at hi ⊢
        exact hbehind (h4 hl).1 s hs (hi.trans hx)

/-- While one LIVE is on, a ranking on a widget never goes back within an
instance, until 128 instances of it have been retired. -/
theorem never_goes_back (creatorId roomId rankingId : String)
    (actions : List Action)
    (h : ∀ t, .envelope (some t) ∈ actions → OfLive creatorId roomId t) :
    let c := actions.foldl next { rankingId }
    c.retired.Nodup ∧ c.retired.length ≤ 128
      ∧ (c.shown.Pairwise Newer ∨ c.retired.length = 128) := by
  intro c
  have hc : InOrder creatorId roomId c := by
    unfold c
    have h0 : InOrder creatorId roomId { rankingId } :=
      ⟨nofun, nodup_nil, Nat.zero_le _, nofun,
        fun _ _ hs => absurd hs not_mem_nil, fun _ => .nil⟩
    generalize (⟨rankingId, none, [], []⟩ : RankingController) = c at h0
    induction actions generalizing c with
    | nil => exact h0
    | cons a rest ih =>
      refine ih (fun t ht => h t (mem_cons_of_mem _ ht)) (c.next a)
        (h0.next a fun t ht => h t ?_)
      rw [ht]
      exact mem_cons_self
  refine ⟨hc.nodup, hc.bound, ?_⟩
  rcases Nat.lt_or_eq_of_le hc.bound with hlt | heq
  · exact .inl (hc.newer hlt)
  · exact .inr heq

/-- The second of three snapshots, which comes late, is left out. -/
theorem never_goes_back_late :
    let snapshot (revision : Nat) : RankingSnapshot :=
      ⟨"likes", "ana", "7", revision, some "a1"⟩
    let c := [1, 3, 2].foldl (fun c n => next c (.envelope (snapshot n)))
      { rankingId := "likes" }
    c.shown.map (·.revision) = [1, 3] ∧ c.shown.Pairwise Newer := by
  intro snapshot c
  refine ⟨by decide +kernel, ?_⟩
  refine (never_goes_back "ana" "7" "likes"
    ([1, 3, 2].map fun n => .envelope (snapshot n)) ?_).2.2.resolve_right
    (by decide +kernel)
  simp [OfLive, snapshot]

end RankingController

end TikTools.Widgets
