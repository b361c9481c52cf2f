/-
What the functions of the feed leave alone, and the order of its rows.

Showing an event touches the rows and nothing a recovery looks at
(`present_eq`, `flushStaged_eq`). The committed rows are in the order of
their cursors all the time; with the staged ones they are unless a row
came late, which is what `needsCursorSort` remembers (`InOrder`).
-/
import TikTools.Feed.State

namespace TikTools.Feed

open TikTools.Lib List Option

namespace LiveFeed

variable {s t : LiveFeed}

-- ==== frames

theorem stageEvent_eq (s : LiveFeed) (row : DisplayEvent) :
    s.stageEvent row = { s with staged := (s.stageEvent row).staged } := by
  unfold stageEvent
  by_cases h : (s.disposed || !s.presentationActive) = true
  · simp only [if_pos h]
  · simp only [if_neg h]

theorem systemNotice_eq (s : LiveFeed) (now : Nat) :
    s.systemNotice now = { s with
      nextEventId := (s.systemNotice now).nextEventId
      staged := (s.systemNotice now).staged } := by
  unfold systemNotice
  rw [stageEvent_eq]

theorem insertDiscontinuity_eq (s : LiveFeed) (a u now : Nat) :
    s.insertDiscontinuity a u now = { s with
      notices := s.notices ++ [(a, u)]
      nextEventId := (s.insertDiscontinuity a u now).nextEventId
      staged := (s.insertDiscontinuity a u now).staged } := by
  unfold insertDiscontinuity
  rw [systemNotice_eq]

variable {now : Nat}

theorem tryMergeGiftStreak_eq {e : UiEvent}
    (h : s.tryMergeGiftStreak e now = some t) :
    t = { s with events := t.events, staged := t.staged } := by
  unfold tryMergeGiftStreak at h
  split at h
  · cases h
  · split at h
    · cases h
      rfl
    · obtain ⟨events, -, rfl⟩ := map_eq_some_iff.1 h
      rfl

theorem tryMergeLikeBurst_eq {e : UiEvent} {c : Option Nat}
    (h : s.tryMergeLikeBurst e c now = some t) :
    t = { s with events := t.events, staged := t.staged } := by
  unfold tryMergeLikeBurst at h
  split at h
  · cases h
    rfl
  · split at h
    · cases h
      rw [stageEvent_eq]
    · cases h

theorem present_eq (s : LiveFeed) (e : UiEvent) (c : Option Nat)
    (now : Nat) : s.present e c now = { s with
      events := (s.present e c now).events
      staged := (s.present e c now).staged
      nextEventId := (s.present e c now).nextEventId } := by
  unfold present
  split
  · next h =>
    have heq := tryMergeGiftStreak_eq h
    rw [heq]
  · split
    · next h =>
      have heq := tryMergeLikeBurst_eq h
      rw [heq]
    · rw [stageEvent_eq]

theorem flushStaged_eq (s : LiveFeed) (now : Nat) :
    s.flushStaged now = { s with
      staged := (s.flushStaged now).staged
      events := (s.flushStaged now).events
      needsCursorSort := (s.flushStaged now).needsCursorSort } := by
  unfold flushStaged
  by_cases h : (s.disposed || !s.presentationActive
    || s.staged.isEmpty) = true
  · simp only [if_pos h]
  · simp only [if_neg h]

-- ==== order

theorem cursors_stageEvent (s : LiveFeed) (row : DisplayEvent) :
    (cursors (s.stageEvent row).staged).Sublist
      (cursors s.staged ++ cursors [row]) := by
  unfold stageEvent
  split
  · exact sublist_append_left _ _
  · have hsub := cursors_sublist
      (keepNewest_sublist maxStagedEvents (s.staged ++ [row]))
    rw [cursors_append] at hsub
    exact hsub

theorem cursors_systemNotice (s : LiveFeed) (now : Nat) :
    (cursors (s.systemNotice now).staged).Sublist (cursors s.staged) := by
  have h := fun s row => cursors_stageEvent s row
  refine (h _ _).trans ?_
  simp [cursors]

theorem cursors_present (s : LiveFeed) (e : UiEvent) (c now : Nat) :
    (cursors (s.present e (some c) now).events).Sublist
        (cursors s.events)
      ∧ (cursors (s.present e (some c) now).staged).Sublist
        (cursors s.staged ++ [c]) := by
  have hk := sublist_append_left (cursors s.staged) [c]
  unfold present
  split
  · next h =>
    unfold tryMergeGiftStreak at h
    split at h
    · cases h
    · split at h
      · next hmr =>
        cases h
        rw [cursors_mergeStreak hmr]
        exact ⟨List.Sublist.refl _, hk⟩
      · obtain ⟨events, hmr, rfl⟩ := map_eq_some_iff.1 h
        rw [cursors_mergeStreak hmr]
        exact ⟨List.Sublist.refl _, hk⟩
  · split
    · next h =>
      unfold tryMergeLikeBurst at h
      split at h
      · next ht =>
        cases h
        refine ⟨List.Sublist.refl _, ?_⟩
        rw [cursors_append]
        exact (cursors_sublist (takeBurst_eq_some ht)).append
          (List.Sublist.refl _)
      · split at h
        · next ht =>
          cases h
          rw [stageEvent_eq]
          exact ⟨cursors_sublist (takeBurst_eq_some ht),
            cursors_stageEvent _ _⟩
        · cases h
    · rw [stageEvent_eq]
      exact ⟨List.Sublist.refl _, cursors_stageEvent _ _⟩

structure InOrder (s : LiveFeed) : Prop where
  shown : (cursors s.events).Pairwise (· ≤ ·)
  bounded : ∀ c ∈ cursors s.events ++ cursors s.staged,
    c ≤ s.lastFeedCursor.getD 0
  sorted : s.needsCursorSort = false →
    (cursors s.events ++ cursors s.staged).Pairwise (· ≤ ·)

theorem InOrder.mono (h : InOrder s)
    (he : (cursors t.events).Sublist (cursors s.events))
    (hs : (cursors t.staged).Sublist (cursors s.staged))
    (hl : t.lastFeedCursor = s.lastFeedCursor)
    (hn : t.needsCursorSort = s.needsCursorSort) : InOrder t where
  shown := h.shown.sublist he
  bounded := fun c hc => hl ▸ h.bounded c ((he.append hs).mem hc)
  sorted := fun hsr =>
    (h.sorted (hn ▸ hsr)).sublist (he.append hs)

theorem InOrder.add (h : InOrder s) {c : Nat}
    (he : (cursors t.events).Sublist (cursors s.events))
    (hst : (cursors t.staged).Sublist (cursors s.staged ++ [c]))
    (hl : s.lastFeedCursor.getD 0 ≤ t.lastFeedCursor.getD 0)
    (hc : c ≤ t.lastFeedCursor.getD 0)
    (hn : t.needsCursorSort = false → s.needsCursorSort = false
      ∧ s.lastFeedCursor.getD 0 ≤ c) : InOrder t := by
  have hsub : (cursors t.events ++ cursors t.staged).Sublist
      ((cursors s.events ++ cursors s.staged) ++ [c]) := by
    rw [append_assoc]
    exact he.append hst
  refine ⟨h.shown.sublist he, fun d hd => ?_, fun hsr => ?_⟩
  · rcases mem_append.1 (hsub.mem hd) with hd | hd
    · exact Nat.le_trans (h.bounded d hd) hl
    · rw [mem_singleton.1 hd]
      exact hc
  · obtain ⟨hs, hle⟩ := hn hsr
    refine List.Pairwise.sublist hsub (pairwise_append.2
      ⟨h.sorted hs, pairwise_singleton _ _, ?_⟩)
    intro a ha b hb
    rw [mem_singleton.1 hb]
    exact Nat.le_trans (h.bounded a ha) hle

theorem cursors_received (rows : List DisplayEvent) (now : Nat) :
    cursors (rows.map fun row => { row with receivedAt := now })
      = cursors rows := by
  unfold cursors
  rw [filterMap_map]
  rfl

theorem InOrder.combined (h : InOrder s) (now : Nat) :
    (cursors (s.combined now)).Pairwise (· ≤ ·)
      ∧ ∀ c ∈ cursors (s.combined now), c ≤ s.lastFeedCursor.getD 0 := by
  have hr : cursors (s.events ++ s.staged.map fun row =>
      { row with receivedAt := now })
        = cursors s.events ++ cursors s.staged := by
    rw [cursors_append, cursors_received]
  unfold LiveFeed.combined
  split
  · have hs := cursors_sortByCursor (s.events
      ++ s.staged.map fun row => { row with receivedAt := now })
    rw [hr] at hs
    exact ⟨hs.1, fun c hc => h.bounded c (hs.2.mem_iff.1 hc)⟩
  · next hs =>
    rw [hr]
    exact ⟨h.sorted (Bool.eq_false_of_not_eq_true hs), h.bounded⟩

theorem InOrder.flushStaged (h : InOrder s) (now : Nat) :
    InOrder (s.flushStaged now) := by
  unfold LiveFeed.flushStaged
  split
  · exact h
  · obtain ⟨hs, hbdd⟩ := h.combined now
    have hsub := cursors_sublist
      (evictToVisibleLimit_sublist (s.combined now))
    generalize evictToVisibleLimit (s.combined now) = rows at hsub
    refine ⟨hs.sublist hsub, fun c hc => ?_, fun _ => ?_⟩
    · rcases mem_append.1 hc with hc | hc
      · exact hbdd c (hsub.mem hc)
      · cases hc
    · show (_ ++ []).Pairwise _
      rw [append_nil]
      exact hs.sublist hsub

-- ==== pushing

/-- The feed with a cursor noted and the event shown. -/
structure Pushed (s : LiveFeed) (c : Nat) (t : LiveFeed) : Prop where
  eq : t = { s.withCursor c with
    events := t.events, staged := t.staged, nextEventId := t.nextEventId }
  order : InOrder s → InOrder t

/-- An event with a cursor is pushed, or it is one the feed does not
take and nothing happens. -/
theorem pushFeedEvent_cases (s : LiveFeed) (e : UiEvent)
    (c now : Nat) :
    (s.pushFeedEvent e (some c) now = s
      ∧ (s.disposed = false → s.presentationActive = true →
        s.session.foreign e = true ∨ c ∈ s.seenCursors))
    ∨ (s.presentationActive = true ∧ s.session.foreign e = false
      ∧ c ∉ s.seenCursors
      ∧ Pushed s c (s.pushFeedEvent e (some c) now)) := by
  unfold pushFeedEvent
  split
  · next h => exact .inl ⟨rfl, fun hop => by simp [h] at hop⟩
  split
  · next h => exact .inl ⟨rfl, fun _ hact => by simp [hact] at h⟩
  · next hact =>
    split
    · next h => exact .inl ⟨rfl, fun _ _ => .inl h⟩
    · next hf =>
      by_cases hs : c ∈ s.seenCursors
      · have hnt : s.noteCursor c = none := if_pos hs
        rw [elim_some, hnt]
        exact .inl ⟨rfl, fun _ _ => .inr hs⟩
      · right
        refine ⟨by simpa using hact, by simpa using hf, hs, ?_⟩
        rw [elim_some, noteCursor, if_neg hs]
        dsimp only
        refine ⟨present_eq (s.withCursor c) e (some c) now, fun ho => ?_⟩
        obtain ⟨hevs, hst⟩ := cursors_present (s.withCursor c) e c now
        refine ho.add hevs hst ?_ ?_ ?_
        all_goals rw [present_eq]
        · exact Nat.le_max_left _ _
        · exact Nat.le_max_right _ _
        · intro hn
          obtain ⟨hsr, hl⟩ := Bool.or_eq_false_iff.1 hn
          refine ⟨hsr, ?_⟩
          cases hls : s.lastFeedCursor with
          | none => exact Nat.zero_le _
          | some last =>
            rw [hls] at hl
            exact Nat.not_lt.1 (of_decide_eq_false hl)

end LiveFeed
end TikTools.Feed
