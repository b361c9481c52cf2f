/-
Whom a reset for one viewer touches.

The service cleans the identity it is given and resets everybody if
nothing is left of it. So an identity that cleans to nothing clears
every viewer. The control handler cleans the identity before the service
does: what it passes on may name another viewer when it is cleaned
again, or nobody.
-/
import TikTools.Points.Durability

namespace TikTools.Points

open TikTools.Lib Option

variable {P : Type} {f : Floats P}

/-- What the control handler hands to the service: the cleaned identity,
if one is left. -/
def pointsReset (uniqueId : Option String) : Option String :=
  (uniqueId.map fun value =>
    String.ofList ((trim value.toList).dropWhile (· == '@'))).filter
      fun cleaned => cleaned ≠ ""

/-- A reset called with an argument leaves the points of every viewer but
one alone, the cached ones at once and the stored ones when its write is
applied. -/
def ResetTouchesOnly (f : Floats P) (argument target : Option String) :
    Prop :=
  ∀ (s t : System P) (client resolved : Nat),
    s.clients[client]? = some (.resetting (argument.bind cleanUniqueId)
      resolved) →
    s.next f (.reset client) = some t →
    (∀ viewer, target ≠ some viewer →
      ∀ row, t.inner.viewers.get viewer = some row →
        ∃ old, s.inner.viewers.get viewer = some old
          ∧ row.points = old.points)
    ∧ ∃ op, t.queue = s.queue ++ [op]
      ∧ ∀ (now : Int) (durable : Durable P) viewer,
        target ≠ some viewer →
        ((applyOp f now durable op).viewers.get viewer).map
            ViewerState.points
          = (durable.viewers.get viewer).map ViewerState.points

theorem pointsReset_some (value : String) :
    pointsReset (some value) = cleanUniqueId value := by
  unfold pointsReset cleanUniqueId
  rw [map_some]
  cases hc : (trim value.toList).dropWhile (· == '@') with
  | nil => rfl
  | cons c rest =>
    have hne : String.ofList (c :: rest) ≠ "" := fun hem => by
      have hl := congrArg String.toList hem
      rw [String.toList_ofList] at hl
      cases hl
    rw [filter_some, if_pos (decide_eq_true hne)]
    rfl

theorem next_reset {s : System P} {c : Nat}
    {ui : Option String} {r : Nat}
    (h : s.clients[c]? = some (.resetting ui r)) :
    s.next f (.reset c) = some (s.resetRows f c ui r) := by
  unfold System.next
  dsimp only
  rw [h]

-- ==== the viewer

variable {argument : Option String}

theorem resetTouchesOnly_of_clean {n : String}
    (hcl : argument.bind cleanUniqueId = some n) :
    ResetTouchesOnly f argument (some n) := by
  intro s t client resolved h hs
  rw [next_reset h, hcl] at hs
  cases hs
  have hu : ∀ v, some n ≠ some v →
      (PointsWriteOp.reset s.nextSeq (some n)
        : PointsWriteOp P).touches v = false := fun v ho =>
    decide_eq_false fun hsm => ho (congrArg some hsm)
  constructor
  · intro v ho row hr
    have hc := System.get_of_resetRows hr
    rw [hu v ho] at hc
    exact ⟨row, hc, rfl⟩
  · refine ⟨.reset s.nextSeq (some n), rfl, ?_⟩
    intro now durable v ho
    rw [get_applyOp, opOn_untouched (hu v ho)]

-- ==== the others

/-- A client about to reset, in a service that has just started. -/
def resettingClient (durable : Durable P) (target : Option String) :
    System P :=
  (System.start durable [] 100).setClient 0 (.resetting target 0)

/-- A store with one viewer who has some points. -/
def oneViewer (f : Floats P) (viewer : String) (points : P) : Durable P where
  viewers := Rows.empty.put { newViewerState f viewer {} 0 with points }
  transactions := []

/-- A reset whose argument cleans to nobody, or to somebody else, touches
a viewer it should not. -/
theorem not_resetTouchesOnly {target : Option String} {points : P}
    (hp : points ≠ f.ofNat 0) (viewer : String)
    (ho : target ≠ some viewer)
    (hr : (PointsWriteOp.reset 1 (argument.bind cleanUniqueId)
      : PointsWriteOp P).touches viewer = true) :
    ¬ResetTouchesOnly f argument target := by
  intro h
  let s := resettingClient (oneViewer f viewer points)
    (argument.bind cleanUniqueId)
  have hcli : s.clients[0]?
      = some (.resetting (argument.bind cleanUniqueId) 0) :=
    Table.get_insert_self _ _ _
  obtain ⟨-, op, hq, hst⟩ := h s _ 0 0 hcli (next_reset hcli)
  have hop : PointsWriteOp.reset 1 (argument.bind cleanUniqueId) = op :=
    (List.cons.inj hq).1
  have hget : (oneViewer f viewer points).viewers.get viewer
      = some { newViewerState f viewer {} 0 with points } := by
    unfold oneViewer
    rw [Rows.get_put, if_pos]
    rfl
  have hs := hst 0 (oneViewer f viewer points) viewer ho
  rw [← hop, get_applyOp, hget] at hs
  unfold opOn at hs
  rw [if_pos hr] at hs
  exact hp (Option.some.inj hs).symm

-- ==== the law

/-- A reset for one viewer touches nobody else exactly if the identity
cleans to a name, and through the control handler exactly if it cleans to
a name that is clean. -/
theorem reset_touches_only_iff (f : Floats P)
    (hpoints : ∃ points : P, points ≠ f.ofNat 0) (id : String) :
    (ResetTouchesOnly f (some id) (cleanUniqueId id)
      ↔ cleanUniqueId id ≠ none)
    ∧ (ResetTouchesOnly f (pointsReset (some id)) (cleanUniqueId id)
      ↔ ∃ name, cleanUniqueId id = some name
        ∧ cleanUniqueId name = some name) := by
  obtain ⟨points, hpoints⟩ := hpoints
  rw [pointsReset_some]
  cases hc : cleanUniqueId id with
  | none =>
    have ht : (PointsWriteOp.reset 1 none
      : PointsWriteOp P).touches "a" = true := rfl
    constructor
    · refine iff_of_false ?_ fun h => h rfl
      exact not_resetTouchesOnly hpoints "a" nofun (by
        rw [bind_some, hc]
        exact ht)
    · refine iff_of_false ?_ fun ⟨_, hn, _⟩ => nomatch hn
      exact not_resetTouchesOnly hpoints "a" nofun ht
  | some name =>
    constructor
    · refine iff_of_true ?_ (some_ne_none name)
      exact resetTouchesOnly_of_clean hc
    · constructor
      · intro h
        refine ⟨name, rfl, ?_⟩
        by_contra hne
        cases ha : cleanUniqueId name with
        | none =>
          refine not_resetTouchesOnly hpoints (name ++ "a") ?_ ?_ h
          · intro hs
            have hlen := congrArg String.length (Option.some.inj hs)
            rw [String.length_append] at hlen
            have hone : "a".length = 1 := rfl
            omega
          · rw [bind_some, ha]
            rfl
        | some other =>
          refine not_resetTouchesOnly hpoints other ?_ ?_ h
          · intro hs
            rw [← hs] at ha
            exact hne ha
          · rw [bind_some, ha]
            exact decide_eq_true rfl
      · rintro ⟨clean, hn, ha⟩
        cases hn
        exact resetTouchesOnly_of_clean ha

/-- A reset for the viewer `@`, who is nobody, clears alice. -/
theorem at_sign_clears_all :
    cleanUniqueId "@" = none
    ∧ ∃ s, runActions (System.next wholeAmounts)
        (.start demoStore ["alice"] 100)
        [.admitReset 1 (some "@"), .reset 1, .take, .commit 1001] = some s
      ∧ (demoStore.viewers.get "alice").map ViewerState.points = some 10
      ∧ (s.inner.viewers.get "alice").map ViewerState.points = some 0
      ∧ (s.durable.viewers.get "alice").map ViewerState.points = some 0 :=
  ⟨by decide, _, rfl, rfl, rfl, rfl⟩

/-- A reset for alice touches nobody else, from the control handler
too. -/
theorem alice_only :
    ResetTouchesOnly wholeAmounts (some "@alice") (some "alice")
    ∧ ResetTouchesOnly wholeAmounts (pointsReset (some "@alice"))
      (some "alice") := by
  have ha : cleanUniqueId "alice" = some "alice" := by decide
  have h := reset_touches_only_iff wholeAmounts ⟨1, by decide⟩ "@alice"
  exact ⟨h.1.2 (some_ne_none _), h.2.2 ⟨"alice", rfl, ha⟩⟩

end TikTools.Points
