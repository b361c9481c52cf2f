/-
Rate limits: which errors are one, the cooldown they leave behind, and
the delays of a retry.

Times and delays are in nanoseconds. The random part of a delay is given
as the time it comes to.
-/
import TikTools.Lib.Checked
import Mathlib.Algebra.Group.Nat.Defs
import Mathlib.Data.List.Infix

namespace TikTools.Tiktok

open TikTools.Lib Option

/-- A second. -/
def second : Nat := 1000000000

-- ==== errors

/-- How a discovery request fails. -/
inductive DiscoveryError where
  | transport
  | status (status : Nat)
  | decode
  | tooLarge
  | emptyResponse
  | refused (text : String)
  | userNotFound
  | noRoom
  | signer
  deriving DecidableEq

inductive DiscoveryFailureKind where
  | authRequired
  | rateLimited
  | transport
  | invalidResponse
  | refused
  deriving DecidableEq

inductive TikTokError where
  | invalidCreator
  | emptySession
  | discovery
  | rateLimited (retryAfter : Option Nat)
  | retryableTransport
  | bundle
  | signer
  | transport
  | task
  deriving DecidableEq

/-- `lowered.contains(needle)`. -/
def contains (text : List Char) (needle : String) : Bool :=
  decide (needle.toList <:+: text)

/-- The text behind the first marker. -/
def afterMarker (marker : List Char) : List Char → Option (List Char)
  | [] => if marker = [] then some [] else none
  | c :: rest =>
    if marker <+: c :: rest then some ((c :: rest).drop marker.length)
    else afterMarker marker rest

/-- The numeric status code in a refusal. -/
def refusalStatusCode (text : String) : Option Nat :=
  match afterMarker "status_code=".toList text.toList with
  | none => none
  | some after =>
    let digits := after.takeWhile Char.isDigit
    if digits = [] then none
    else (some (Nat.ofDigitChars 10 digits 0)).filter (· ≤ i64Max)

/-- A login wall, a rate limit, or neither. -/
def classifyRefusal (text : String) : DiscoveryFailureKind :=
  let lowered := text.toList.map Char.toLower
  if contains lowered "rate limit" || contains lowered "rate_limit"
      || contains lowered "too many"
      || (contains lowered "too frequent"
        || contains lowered "frequent requests")
      || contains lowered "slow down" then .rateLimited
  else if contains lowered "login"
      || refusalStatusCode text == some 2483 then .authRequired
  else .refused

/-- `DiscoveryFailure::from_error`. -/
def DiscoveryFailureKind.fromError : DiscoveryError → DiscoveryFailureKind
  | .transport => .transport
  | .status status =>
    if status = 401 ∨ status = 403 then .authRequired
    else if status = 429 then .rateLimited
    else .transport
  | .decode | .tooLarge => .invalidResponse
  | .emptyResponse => .authRequired
  | .refused text => classifyRefusal text
  | .userNotFound | .noRoom | .signer => .refused

def isRateLimitRefusal (text : String) : Bool :=
  classifyRefusal text == .rateLimited

/-- `TikTokError::from_discovery`. -/
def TikTokError.fromDiscovery : DiscoveryError → TikTokError
  | .status status =>
    if status = 429 then .rateLimited none
    else if 500 ≤ status ∧ status ≤ 599 then .retryableTransport
    else .discovery
  | .transport => .retryableTransport
  | .refused text =>
    if isRateLimitRefusal text then .rateLimited none else .discovery
  | _ => .discovery

/-- A request failed as rate limited, and the server may have said for
how long. -/
def TikTokError.limit : TikTokError → Option (Option Nat)
  | .rateLimited retryAfter => some retryAfter
  | _ => none

/-- The delay that stands in for one the server did not give. -/
def defaultDelay : Nat := 30 * second

theorem fromError_rateLimited (error : DiscoveryError) :
    DiscoveryFailureKind.fromError error = .rateLimited
      ↔ TikTokError.fromDiscovery error = .rateLimited none := by
  cases error with
  | status status =>
    show (if _ then _ else _) = _ ↔ (if _ then _ else _) = _
    by_cases h : status = 429
    · subst h
      decide
    · rw [if_neg h, if_neg h]
      constructor
      · intro hk
        split at hk <;> cases hk
      · intro herr
        split at herr <;> cases herr
  | refused text =>
    show classifyRefusal text = _ ↔ (if _ then _ else _) = _
    unfold isRateLimitRefusal
    constructor
    · intro h
      rw [h]
      rfl
    · intro h
      split at h
      · next hk => exact beq_iff_eq.1 hk
      · cases h
  | _ => exact ⟨nofun, nofun⟩

theorem limit_fromDiscovery (error : DiscoveryError) :
    (TikTokError.fromDiscovery error).limit = none
      ∨ TikTokError.fromDiscovery error = .rateLimited none := by
  cases error with
  | status status =>
    show TikTokError.limit (if _ then _ else _) = _ ∨ (if _ then _ else _) = _
    split
    · exact .inr rfl
    · split
      · exact .inl rfl
      · exact .inl rfl
  | refused text =>
    show TikTokError.limit (if _ then _ else _) = _ ∨ (if _ then _ else _) = _
    split
    · exact .inr rfl
    · exact .inl rfl
  | _ => exact .inl rfl

-- ==== cooldown

/-- The deadline all calls of a client share. -/
abbrev Cooldown := Option Nat

namespace Cooldown

/-- The instant at which the cooldown is over. -/
def expiry (cooldown : Cooldown) : Nat := cooldown.getD 0

def remaining (cooldown : Cooldown) (now : Nat) : Option Nat :=
  (cooldown.bind fun deadline =>
    if now ≤ deadline then some (deadline - now) else none).filter (· ≠ 0)

def extend (cooldown : Cooldown) (now delay : Nat) : Cooldown :=
  match cooldown with
  | none => some (now + delay)
  | some previous => some (max previous (now + delay))

variable (cooldown : Cooldown) (now delay : Nat)

theorem remaining_eq_none : cooldown.remaining now = none
    ↔ cooldown.expiry ≤ now := by
  unfold remaining expiry
  cases cooldown with
  | none => simp
  | some d =>
    by_cases h : now ≤ d
    · simp [h]
      omega
    · simp [h]
      omega

theorem le_expiry_extend :
    now + delay ≤ (cooldown.extend now delay).expiry := by
  cases cooldown with
  | none => exact Nat.le_refl _
  | some previous => exact Nat.le_max_right _ _

theorem expiry_le_extend :
    cooldown.expiry ≤ (cooldown.extend now delay).expiry := by
  cases cooldown with
  | none => exact Nat.zero_le _
  | some previous => exact Nat.le_max_left _ _

end Cooldown

-- ==== delays

/-- How often a retried request is made, and how long a transport
failure delays the next attempt. -/
structure ReconnectPolicy where
  maxAttempts : Nat
  backoffWithJitter : Nat → Nat → Nat

/-- What a rate limit delays an attempt by at least, doubled with every
attempt up to ten times the first. -/
def fallback (attempt : Nat) : Nat :=
  min (30 * 2 ^ min (attempt - 1) 4) 300 * second

/-- The time before the next attempt, where there may be one. -/
def delay (error : TikTokError) (attempt : Nat) (policy : ReconnectPolicy)
    (sample : Nat) : Option Nat :=
  match error with
  | .rateLimited retryAfter =>
    some (max (retryAfter.getD (fallback attempt)) (fallback attempt)
      + min sample (7500 * (second / 1000)))
  | .retryableTransport => some (policy.backoffWithJitter attempt sample)
  | _ => none

/-- How many retries there are after an error. -/
def ReconnectPolicy.retries (policy : ReconnectPolicy)
    (error : TikTokError) : Nat :=
  match error with
  | .rateLimited _ => min policy.maxAttempts 2
  | _ => policy.maxAttempts

theorem ReconnectPolicy.retries_le (p : ReconnectPolicy)
    (e : TikTokError) : p.retries e ≤ p.maxAttempts := by
  cases e with
  | rateLimited _ => exact Nat.min_le_left _ _
  | _ => exact Nat.le_refl _

theorem defaultDelay_le_fallback (attempt : Nat) :
    defaultDelay ≤ fallback attempt := by
  have hpow : 1 ≤ 2 ^ min (attempt - 1) 4 := Nat.one_le_two_pow
  refine Nat.mul_le_mul_right second ?_
  omega

/-- A rate limit is never waited for less than the server asked, nor less
than the default delay. -/
theorem le_delay {retryAfter : Option Nat} {attempt sample wait : Nat}
    {policy : ReconnectPolicy}
    (h : delay (.rateLimited retryAfter) attempt policy sample
      = some wait) : retryAfter.getD defaultDelay ≤ wait := by
  have hf := defaultDelay_le_fallback attempt
  unfold delay at h
  rw [Option.some.injEq] at h
  rw [← h]
  refine Nat.le_trans ?_ (Nat.le_add_right _ _)
  cases retryAfter with
  | none =>
    rw [getD_none, getD_none, Nat.max_self]
    exact hf
  | some given =>
    rw [getD_some, getD_some]
    exact Nat.le_max_left _ _

end TikTools.Tiktok
