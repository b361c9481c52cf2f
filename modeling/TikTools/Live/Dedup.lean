/-
Deduplication of LIVE events.

A connection that drops and comes back sends recent messages again. The
store remembers which messages it let through, in a map with the time of
each and a queue that says which to forget first; messages without an
identity pass it by. It is bounded twice: by the age of an entry and by
the number of them.

# What the store remembers

The history of admissions has one last entry for every message
(`latest`). `Remembers` says that the queue is what is left of it after
some entries at the front were forgotten, and that each of these is too
old or has as many others behind it as the store may hold. Forgetting
happens at the front only, times never fall, and a message admitted
again moves to the end, so this is kept (`Remembers.checkDuplicate`).
-/
import TikTools.Lib.KeySet
import TikTools.Lib.Recent

namespace TikTools.Live

open TikTools.Lib Std List Table

-- ==== the store

inductive EventType where
  | chat
  | emoteChat
  | gift
  | like
  | member
  | social
  | roomUser
  | unknown
  deriving DecidableEq, Repr

def eventTag : EventType → Nat
  | .chat => 1
  | .emoteChat => 8
  | .gift => 2
  | .like => 3
  | .member => 4
  | .social => 5
  | .roomUser => 6
  | .unknown => 7

/-- What the store sees of an event. -/
structure Message where
  method : String
  base : EventType
  msgId : Nat
  deriving DecidableEq, Repr

/-- Creator, room, method, tag and id of a message. -/
abbrev DedupKey := String ×ₗ String ×ₗ String ×ₗ Nat ×ₗ Nat

instance : DecidableEq DedupKey :=
  inferInstanceAs (DecidableEq (String × String × String × Nat × Nat))

/-- Times are readings of the monotone clock. -/
structure LiveDedup where
  scope : Option (String × String)
  seen : Table DedupKey Nat
  order : List DedupKey
  capacity : Nat
  ttl : Nat
  duplicates : Nat

namespace LiveDedup

def new (capacity ttl : Nat) : LiveDedup :=
  ⟨none, ∅, [], max capacity 1, ttl, 0⟩

def setScope (creator room : String) (dedup : LiveDedup) : LiveDedup :=
  { dedup with scope := some (creator, room) }

def key (dedup : LiveDedup) (message : Message) : DedupKey :=
  let scope := dedup.scope.getD ("", "")
  toLex (scope.1, toLex (scope.2, toLex (message.method,
    toLex (eventTag message.base, message.msgId))))

/-- Forget what is too old, from the front. -/
def evictExpired (ttl now : Nat) : List DedupKey → Table DedupKey Nat →
    List DedupKey × Table DedupKey Nat
  | [], seen => ([], seen)
  | front :: rest, seen =>
    if seen[front]?.any fun seenAt => now - seenAt < ttl then
      (front :: rest, seen)
    else evictExpired ttl now rest (seen.erase front)

/-- Forget the oldest until there is room for one more. -/
def evictOldest (capacity : Nat) : List DedupKey → Table DedupKey Nat →
    List DedupKey × Table DedupKey Nat
  | [], seen => ([], seen)
  | oldest :: rest, seen =>
    if capacity ≤ seen.size then
      evictOldest capacity rest (seen.erase oldest)
    else (oldest :: rest, seen)

/-- Make room in a full store. -/
def evict (dedup : LiveDedup) (now : Nat) :
    List DedupKey × Table DedupKey Nat :=
  if dedup.capacity ≤ dedup.seen.size then
    let fresh := evictExpired dedup.ttl now dedup.order dedup.seen
    evictOldest dedup.capacity fresh.1 fresh.2
  else (dedup.order, dedup.seen)

/-- Whether a message was already let through. One that was not is
remembered. -/
def checkDuplicate (message : Message) (now : Nat) (dedup : LiveDedup) :
    Bool × LiveDedup :=
  if message.msgId = 0 then (false, dedup)
  else
    let key := dedup.key message
    match dedup.seen[key]? with
    | some seenAt =>
      if now - seenAt < dedup.ttl then
        (true, { dedup with
          duplicates := (dedup.duplicates + 1) % 2 ^ 64 })
      else
        (false, { dedup with
          order := dedup.order.filter (· ≠ key) ++ [key]
          seen := dedup.seen.insert key now })
    | none =>
      let kept := dedup.evict now
      (false, { dedup with
        order := kept.1 ++ [key]
        seen := kept.2.insert key now })

-- ==== runs

/-- What is called on the store. -/
inductive Call where
  | setScope (creator room : String)
  | check (message : Message) (now : Nat)

def call (dedup : LiveDedup) : Call → LiveDedup
  | .setScope creator room => dedup.setScope creator room
  | .check message now => (dedup.checkDuplicate message now).2

def run (dedup : LiveDedup) (calls : List Call) : LiveDedup :=
  calls.foldl call dedup

/-- When a call reads the clock. -/
def Call.time : Call → Option Nat
  | .setScope _ _ => none
  | .check _ now => some now

/-- What a call admits under an identity. -/
def admits (dedup : LiveDedup) : Call → List (DedupKey × Nat)
  | .setScope _ _ => []
  | .check message now =>
    if message.msgId ≠ 0 ∧ (dedup.checkDuplicate message now).1 = false
    then [(dedup.key message, now)] else []

/-- Everything some calls admit, in order. -/
def admissions : LiveDedup → List Call → List (DedupKey × Nat)
  | _, [] => []
  | dedup, call :: rest =>
    dedup.admits call ++ admissions (dedup.call call) rest

-- ==== map and queue

/-- The map and the queue hold these entries. -/
structure Matches (entries : List (DedupKey × Nat)) (order : List DedupKey)
    (seen : Table DedupKey Nat) : Prop where
  order : order = entries.map Prod.fst
  nodup : (entries.map Prod.fst).Nodup
  seen : ∀ key at_, seen[key]? = some at_ ↔ (key, at_) ∈ entries

namespace Matches

variable {entries : List (DedupKey × Nat)} {order : List DedupKey}
  {seen : Table DedupKey Nat}

theorem empty : Matches [] [] ∅ where
  order := rfl
  nodup := nodup_nil
  seen key at_ := by
    exact ⟨fun h => (nomatch h), fun h => (not_mem_nil h).elim⟩

section

variable (h : Matches entries order seen)
include h

theorem mem_order (key : DedupKey) :
    key ∈ order ↔ seen[key]? ≠ none := by
  rw [h.order, mem_map, Option.ne_none_iff_exists']
  constructor
  · rintro ⟨e, hen, rfl⟩
    exact ⟨e.2, (h.seen _ _).2 hen⟩
  · rintro ⟨at_, hat⟩
    exact ⟨(key, at_), (h.seen _ _).1 hat, rfl⟩

theorem size :
    seen.size = entries.length := by
  rw [← card_keySet, ← length_map Prod.fst, ← toFinset_card_of_nodup h.nodup]
  refine congrArg Finset.card (Finset.ext fun key => ?_)
  rw [mem_keySet, ← h.mem_order, h.order, mem_toFinset]

omit h in
theorem tail {e : DedupKey × Nat} {r : List DedupKey}
    (h : Matches (e :: entries) (e.1 :: r) seen) :
    Matches entries r (seen.erase e.1) where
  order := (List.cons.inj h.order).2
  nodup := (nodup_cons.1 h.nodup).2
  seen key at_ := by
    have hnew := (nodup_cons.1 h.nodup).1
    rw [get_erase]
    split
    · next hs =>
      refine ⟨fun hn => (nomatch hn), fun hin => ?_⟩
      rw [hs] at hnew
      exact absurd (mem_map_of_mem (f := Prod.fst) hin) hnew
    · next hne =>
      rw [h.seen, mem_cons]
      refine or_iff_right fun heq => hne ?_
      rw [← heq]

theorem move (key : DedupKey)
    (now : Nat) :
    Matches (entries.filter (fun e => e.1 ≠ key) ++ [(key, now)])
      (order.filter (· ≠ key) ++ [key]) (seen.insert key now) where
  order := by
    rw [h.order, map_append, filter_map]
    rfl
  nodup := by
    rw [map_append, nodup_append]
    refine ⟨h.nodup.sublist (filter_sublist.map _), nodup_singleton _, ?_⟩
    intro a ha b hb hab
    obtain ⟨e, hen, rfl⟩ := mem_map.1 ha
    cases mem_singleton.1 hb
    exact of_decide_eq_true (mem_filter.1 hen).2 hab
  seen other at_ := by
    rw [get_insert, mem_append, mem_singleton, mem_filter]
    split
    · next hs =>
      subst hs
      rw [Option.some.injEq, Prod.mk.injEq]
      constructor
      · intro hat
        exact .inr ⟨rfl, hat.symm⟩
      · rintro (⟨-, hne⟩ | ⟨-, hat⟩)
        · exact absurd rfl (of_decide_eq_true hne)
        · exact hat.symm
    · next hne =>
      rw [h.seen]
      constructor
      · intro hin
        exact .inl ⟨hin, decide_eq_true (Ne.symm hne)⟩
      · rintro (⟨hin, -⟩ | heq)
        · exact hin
        · exact absurd (Prod.ext_iff.1 heq).1.symm hne

theorem push {key : DedupKey}
    (hn : key ∉ entries.map Prod.fst) (now : Nat) :
    Matches (entries ++ [(key, now)]) (order ++ [key])
      (seen.insert key now) := by
  have hmv := h.move key now
  have hes : entries.filter (fun e => e.1 ≠ key) = entries :=
    filter_eq_self.2 fun e hen => decide_eq_true fun hk =>
      hn (hk ▸ mem_map_of_mem hen)
  have hor : order.filter (· ≠ key) = order :=
    filter_eq_self.2 fun other ho => decide_eq_true fun hk => by
      rw [h.order, hk] at ho
      exact hn ho
  rw [hes, hor] at hmv
  exact hmv

end

theorem evictExpired {ttl now : Nat} (h : Matches entries order seen) :
    ∃ gone kept, entries = gone ++ kept
      ∧ (∀ e ∈ gone, ttl ≤ now - e.2)
      ∧ Matches kept (LiveDedup.evictExpired ttl now order seen).1
        (LiveDedup.evictExpired ttl now order seen).2 := by
  induction entries generalizing order seen with
  | nil =>
    cases h.order
    exact ⟨[], [], rfl, fun _ hin => (not_mem_nil hin).elim, h⟩
  | cons e rest ih =>
    cases h.order
    have hsn : seen[e.1]? = some e.2 := (h.seen _ _).2 mem_cons_self
    rw [map_cons, LiveDedup.evictExpired, hsn, Option.any_some]
    by_cases hf : now - e.2 < ttl
    · rw [if_pos (decide_eq_true hf)]
      exact ⟨[], e :: rest, rfl, fun _ hin => (not_mem_nil hin).elim, h⟩
    · rw [if_neg (fun hlt => hf (of_decide_eq_true hlt))]
      obtain ⟨gone, kept, hs, hold, hk⟩ := ih h.tail
      refine ⟨e :: gone, kept, by rw [hs, cons_append], ?_, hk⟩
      intro o ho
      rcases mem_cons.1 ho with rfl | hin
      · exact Nat.le_of_not_lt hf
      · exact hold o hin

/-- What is forgotten for room is a part at the front, and each of it
has a full store behind it once the new entry has come. -/
theorem evictOldest {c : Nat} (hcap : 0 < c)
    (h : Matches entries order seen) :
    ∃ gone kept, entries = gone ++ kept ∧ kept.length < c
      ∧ (∀ f e b, gone = f ++ e :: b → c ≤ (b ++ kept).length + 1)
      ∧ Matches kept (LiveDedup.evictOldest c order seen).1
        (LiveDedup.evictOldest c order seen).2 := by
  induction entries generalizing order seen with
  | nil =>
    cases h.order
    refine ⟨[], [], rfl, hcap, ?_, h⟩
    intro f e b hs
    cases f <;> cases hs
  | cons e rest ih =>
    cases h.order
    rw [map_cons, LiveDedup.evictOldest, h.size]
    by_cases hf : c ≤ (e :: rest).length
    · rw [if_pos hf]
      obtain ⟨gone, kept, rfl, hr, hb, hk⟩ := ih h.tail
      refine ⟨e :: gone, kept, rfl, hr, ?_, hk⟩
      intro f o b hs
      cases f with
      | nil =>
        cases hs
        exact hf
      | cons first f =>
        cases hs
        exact hb f o b rfl
    · rw [if_neg hf]
      refine ⟨[], e :: rest, rfl, Nat.lt_of_not_le hf, ?_, h⟩
      intro f o b hs
      cases f <;> cases hs

end Matches

-- ==== answers

section answers

variable {dedup : LiveDedup} {message : Message} {now seenAt : Nat}

theorem checkDuplicate_zero (hid : message.msgId = 0) :
    dedup.checkDuplicate message now = (false, dedup) := by
  unfold checkDuplicate
  rw [if_pos hid]

theorem checkDuplicate_fresh (hid : message.msgId ≠ 0)
    (hs : dedup.seen[dedup.key message]? = some seenAt)
    (hf : now - seenAt < dedup.ttl) :
    dedup.checkDuplicate message now
      = (true, { dedup with
          duplicates := (dedup.duplicates + 1) % 2 ^ 64 }) := by
  unfold checkDuplicate
  rw [if_neg hid]
  dsimp only
  rw [hs]
  dsimp only
  rw [if_pos hf]

theorem checkDuplicate_expired (hid : message.msgId ≠ 0)
    (hs : dedup.seen[dedup.key message]? = some seenAt)
    (ho : ¬ now - seenAt < dedup.ttl) :
    dedup.checkDuplicate message now
      = (false, { dedup with
          order := dedup.order.filter (· ≠ dedup.key message)
            ++ [dedup.key message]
          seen := dedup.seen.insert (dedup.key message) now }) := by
  unfold checkDuplicate
  rw [if_neg hid]
  dsimp only
  rw [hs]
  dsimp only
  rw [if_neg ho]

theorem checkDuplicate_new (hid : message.msgId ≠ 0)
    (hs : dedup.seen[dedup.key message]? = none) :
    dedup.checkDuplicate message now
      = (false, { dedup with
          order := (dedup.evict now).1 ++ [dedup.key message]
          seen := (dedup.evict now).2.insert (dedup.key message) now }) := by
  unfold checkDuplicate
  rw [if_neg hid]
  dsimp only
  rw [hs]

end answers

variable {dedup : LiveDedup}

/-- What is forgotten to make room is a part at the front; each of it is
too old, or has a full store behind it once the new entry has come. -/
theorem Matches.evict {entries : List (DedupKey × Nat)}
    (hc : 0 < dedup.capacity)
    (h : Matches entries dedup.order dedup.seen) (now : Nat) :
    ∃ out r, entries = out ++ r ∧ r.length < dedup.capacity
      ∧ (∀ f e b, out = f ++ e :: b →
        dedup.ttl ≤ now - e.2 ∨ dedup.capacity ≤ (b ++ r).length + 1)
      ∧ Matches r (dedup.evict now).1 (dedup.evict now).2 := by
  unfold LiveDedup.evict
  rw [h.size]
  split
  · obtain ⟨old, fresh, rfl, hl, hf⟩ :=
      @Matches.evictExpired _ _ _ dedup.ttl now h
    obtain ⟨out, r, rfl, hrm, ho, hr⟩ := hf.evictOldest hc
    refine ⟨old ++ out, r, (append_assoc _ _ _).symm, hrm, ?_, hr⟩
    intro f e b hs
    rcases append_eq_append_iff.1 hs with
      ⟨en, -, hen⟩ | ⟨en, hen, hr⟩
    · exact .inr (ho en e b hen)
    · cases en with
      | nil => exact .inr (ho [] e b hr.symm)
      | cons first en =>
        cases (List.cons.inj hr).1
        refine .inl (hl e ?_)
        rw [hen]
        exact mem_append_right _ mem_cons_self
  · next hrm =>
    refine ⟨[], entries, rfl, Nat.lt_of_not_le hrm, ?_, h⟩
    intro f e b hs
    cases f <;> cases hs

-- ==== history

/-- What the store holds of the admissions so far. -/
structure Remembers (dedup : LiveDedup) (log : List (DedupKey × Nat))
    (now : Nat) : Prop where
  capacity : 0 < dedup.capacity
  ordered : log.Pairwise fun a b => a.2 ≤ b.2
  past : ∀ entry ∈ log, entry.2 ≤ now
  kept : ∃ gone kept, latest log = gone ++ kept
    ∧ Matches kept dedup.order dedup.seen
    ∧ kept.length ≤ dedup.capacity
    ∧ ∀ front entry behind, gone = front ++ entry :: behind →
      dedup.ttl ≤ now - entry.2 ∨ dedup.capacity ≤ (behind ++ kept).length

namespace Remembers

variable {dedup : LiveDedup} {log : List (DedupKey × Nat)} {now : Nat}

theorem new (c ttl : Nat) :
    Remembers (LiveDedup.new c ttl) [] 0 where
  capacity := Nat.lt_of_lt_of_le Nat.zero_lt_one (Nat.le_max_right _ _)
  ordered := List.Pairwise.nil
  past _ hin := (not_mem_nil hin).elim
  kept := by
    refine ⟨[], [], rfl, .empty, Nat.zero_le _, ?_⟩
    intro f entry behind hs
    cases f <;> cases hs

theorem setScope (c r : String) (h : Remembers dedup log now) :
    Remembers (dedup.setScope c r) log now :=
  ⟨h.capacity, h.ordered, h.past, h.kept⟩

section

variable (h : Remembers dedup log now)
include h

theorem wait {l : Nat} (hle : now ≤ l) :
    Remembers dedup log l where
  capacity := h.capacity
  ordered := h.ordered
  past e hin := Nat.le_trans (h.past e hin) hle
  kept := by
    obtain ⟨g, k, hl, hm, hr, hg⟩ := h.kept
    refine ⟨g, k, hl, hm, hr, ?_⟩
    intro f e b hs
    exact (hg f e b hs).imp_left fun hold => by omega

theorem admitted {key : DedupKey} {n : LiveDedup}
    {g r : List (DedupKey × Nat)} (out : List (DedupKey × Nat))
    (hcap : n.capacity = dedup.capacity) (ht : n.ttl = dedup.ttl)
    (hl : latest log = g ++ (out ++ r))
    (hg : ∀ f e b, g = f ++ e :: b →
      dedup.ttl ≤ now - e.2 ∨ dedup.capacity ≤ (b ++ (out ++ r)).length)
    (ho : ∀ f e b, out = f ++ e :: b →
      dedup.ttl ≤ now - e.2 ∨ dedup.capacity
        ≤ ((b ++ r).filter (fun e => e.1 ≠ key)).length + 1)
    (hm : Matches
      (r.filter (fun e => e.1 ≠ key) ++ [(key, now)])
      n.order n.seen)
    (hr : (r.filter (fun e => e.1 ≠ key)).length + 1 ≤ dedup.capacity) :
    Remembers n (log ++ [(key, now)]) now where
  capacity := by
    rw [hcap]
    exact h.capacity
  ordered := by
    rw [pairwise_append]
    refine ⟨h.ordered, pairwise_singleton _ _, ?_⟩
    intro e hey new hnew
    cases mem_singleton.1 hnew
    exact h.past e hey
  past e hin := by
    rcases mem_append.1 hin with hin | hin
    · exact h.past e hin
    · cases mem_singleton.1 hin
      exact Nat.le_refl _
  kept := by
    refine ⟨(g ++ out).filter (fun e => e.1 ≠ key), _, ?_, hm, ?_, ?_⟩
    · rw [latest_snoc, hl, ← append_assoc, filter_append, append_assoc]
    · rw [length_append, hcap]
      exact hr
    · intro f e b hs
      obtain ⟨fi, second, hp, -, hsnd⟩ := filter_eq_append_iff.1 hs
      obtain ⟨between, t, rfl, -, -, rfl⟩ := filter_eq_cons_iff.1 hsnd
      rw [← append_assoc] at hp
      have hc : ((t ++ r).filter
            (fun e => e.1 ≠ key)).length + 1
          = (t.filter (fun e => e.1 ≠ key)
            ++ (r.filter (fun e => e.1 ≠ key) ++ [(key, now)])).length := by
        rw [filter_append, length_append, length_append, length_append]
        rfl
      rw [hcap, ht, ← hc]
      rcases append_eq_append_iff.1 hp with
        ⟨en, hfr, hen⟩ | ⟨en, hgoneEq, hen⟩
      · exact ho en e t hen
      · cases en with
        | nil => exact ho [] e t hen.symm
        | cons fi en =>
          cases hen
          have hn : (((en ++ out ++ r)).map Prod.fst).Nodup := by
            refine (nodup_keys_latest log).sublist (List.Sublist.map _ ?_)
            rw [hl, hgoneEq, append_assoc, append_assoc, append_assoc]
            exact (sublist_cons_self _ _).trans
              ((sublist_append_right _ _).trans (sublist_append_right _ _))
          refine (hg _ e en hgoneEq).imp_right fun hf =>
            Nat.le_trans ?_ (length_le_filter_ne key hn)
          show dedup.capacity ≤ (en ++ out ++ r).length
          rw [append_assoc]
          exact hf

theorem checkDuplicate (message : Message) :
    Remembers (dedup.checkDuplicate message now).2
      (log ++ dedup.admits (.check message now)) now := by
  obtain ⟨gone, kept, hlat, hm, hrm, hg⟩ := h.kept
  unfold admits
  dsimp only
  by_cases hid : message.msgId = 0
  · rw [if_neg (fun hb => hb.1 hid), append_nil,
      checkDuplicate_zero hid]
    exact h
  cases hs : dedup.seen[dedup.key message]? with
  | some seenAt =>
    by_cases hf : now - seenAt < dedup.ttl
    · rw [checkDuplicate_fresh hid hs hf,
        if_neg (fun hb => Bool.noConfusion hb.2), append_nil]
      exact ⟨h.capacity, h.ordered, h.past, h.kept⟩
    · rw [checkDuplicate_expired hid hs hf, if_pos ⟨hid, rfl⟩]
      refine h.admitted [] rfl rfl hlat hg ?_
        (hm.move (dedup.key message) now) ?_
      · intro f e b hsp
        cases f <;> cases hsp
      · refine Nat.lt_of_lt_of_le
          (length_filter_lt_length_iff_exists.2 ?_) hrm
        exact ⟨_, (hm.seen _ _).1 hs, by simp⟩
  | none =>
    rw [checkDuplicate_new hid hs, if_pos ⟨hid, rfl⟩]
    obtain ⟨out, rest, rfl, hl, ht, hr⟩ := hm.evict h.capacity now
    have hnew : ∀ e ∈ out ++ rest, e.1 ≠ dedup.key message := by
      intro e hen hk
      rw [← hk, (hm.seen e.1 e.2).2 hen] at hs
      cases hs
    have hrestNew : dedup.key message ∉ rest.map Prod.fst := by
      intro hin
      obtain ⟨e, hen, hk⟩ := mem_map.1 hin
      exact hnew e (mem_append_right _ hen) hk
    have hsm : ∀ part : List (DedupKey × Nat),
        (∀ e ∈ part, e ∈ out ++ rest) →
        part.filter (fun e => e.1 ≠ dedup.key message) = part :=
      fun part hp => filter_eq_self.2 fun e hen =>
        decide_eq_true (hnew e (hp e hen))
    have hrestSame := hsm rest fun _ => mem_append_right _
    refine h.admitted out rfl rfl hlat hg ?_ ?_ ?_
    · intro f e b hsp
      refine (ht f e b hsp).imp_right fun hfl => ?_
      rw [hsm (b ++ rest) ?_]
      · exact hfl
      · intro other ho
        rw [hsp, append_assoc]
        exact mem_append_right _ (mem_cons_of_mem _ ho)
    · rw [hrestSame]
      exact hr.push hrestNew now
    · rw [hrestSame]
      exact hl

theorem answer (message : Message) :
    (dedup.checkDuplicate message now).1 = true
      ↔ message.msgId ≠ 0 ∧ ∃ e at_ l,
        log = e ++ (dedup.key message, at_) :: l
          ∧ now - at_ < dedup.ttl
          ∧ others (dedup.key message) l < dedup.capacity := by
  obtain ⟨gone, kept, hlat, hmat, hrm, hg⟩ := h.kept
  have hr : (∃ e at_ l,
        log = e ++ (dedup.key message, at_) :: l
          ∧ now - at_ < dedup.ttl
          ∧ others (dedup.key message) l < dedup.capacity)
      ↔ ∃ at_, dedup.seen[dedup.key message]? = some at_
        ∧ now - at_ < dedup.ttl := by
    generalize dedup.key message = key
    constructor
    · rintro ⟨e, at_, l, rfl, hf, hfew⟩
      obtain ⟨be, last, b, hsp, hl, hsn, hin⟩ := exists_last e key at_ l
      have hle : at_ ≤ last := by
        rcases mem_cons.1 hin with heq | hin
        · exact Nat.le_of_eq (Prod.ext_iff.1 heq).2.symm
        · exact (pairwise_cons.1 (pairwise_append.1 h.ordered).2.1).1 _ hin
      refine ⟨last, (hmat.seen _ _).2 ?_, by omega⟩
      obtain ⟨f, hfr⟩ := @latest_split _ _ _ be b key last hl
      rw [← hsp, hlat] at hfr
      rcases append_eq_append_iff.1 hfr with
        ⟨ends, -, hen⟩ | ⟨ends, hgoneEq, hen⟩
      · rw [hen]
        exact mem_append_right _ mem_cons_self
      · cases ends with
        | nil =>
          rw [← nil_append kept, ← hen]
          exact mem_cons_self
        | cons first ends =>
          obtain ⟨rfl, hb⟩ := List.cons.inj hen
          have hls : (ends ++ kept).length < dedup.capacity := by
            rw [show ends ++ kept = latest b from hb.symm, length_latest hl]
            exact Nat.lt_of_le_of_lt (others_mono key hsn) hfew
          rcases hg f _ ends hgoneEq with hold | hfl
          · have hage : now - last ≤ now - at_ := by omega
            omega
          · omega
    · rintro ⟨at_, hs, hf⟩
      obtain ⟨f, b, rfl⟩ := append_of_mem ((hmat.seen _ _).1 hs)
      rw [← append_assoc] at hlat
      obtain ⟨e, l, rfl, hl, rfl⟩ := latest_eq_split hlat
      refine ⟨e, at_, l, rfl, hf, ?_⟩
      rw [← length_latest hl]
      rw [length_append, length_cons] at hrm
      omega
  rw [hr]
  by_cases hid : message.msgId = 0
  · rw [checkDuplicate_zero hid]
    exact iff_of_false Bool.false_ne_true fun hbt => hbt.1 hid
  rw [and_iff_right hid]
  cases hs : dedup.seen[dedup.key message]? with
  | none =>
    rw [checkDuplicate_new hid hs]
    refine iff_of_false Bool.false_ne_true ?_
    rintro ⟨at_, hat, -⟩
    cases hat
  | some seenAt =>
    by_cases hf : now - seenAt < dedup.ttl
    · rw [checkDuplicate_fresh hid hs hf]
      exact iff_of_true rfl ⟨seenAt, rfl, hf⟩
    · rw [checkDuplicate_expired hid hs hf]
      refine iff_of_false Bool.false_ne_true ?_
      rintro ⟨at_, hat, hls⟩
      cases hat
      exact hf hls

end

end Remembers

theorem Remembers.run {ca : List Call} {log : List (DedupKey × Nat)}
    {b now : Nat} (h : Remembers dedup log b)
    (ht : (b :: (ca.filterMap Call.time ++ [now])).Pairwise (· ≤ ·)) :
    Remembers (dedup.run ca) (log ++ dedup.admissions ca) now := by
  induction ca generalizing dedup log b with
  | nil =>
    show Remembers dedup (log ++ []) now
    rw [append_nil]
    exact h.wait ((pairwise_cons.1 ht).1 now mem_cons_self)
  | cons call rest ih =>
    show Remembers ((dedup.call call).run rest)
      (log ++ (dedup.admits call ++ (dedup.call call).admissions rest))
      now
    rw [← append_assoc]
    cases call with
    | setScope c room =>
      have hs : log ++ dedup.admits (.setScope c room) = log := append_nil log
      rw [hs]
      exact ih (h.setScope c room) ht
    | check message time =>
      obtain ⟨hf, hr⟩ := pairwise_cons.1 ht
      exact ih ((h.wait (hf time mem_cons_self)).checkDuplicate message) hr

theorem call_bounds (dedup : LiveDedup) (c : Call) :
    (dedup.call c).capacity = dedup.capacity
      ∧ (dedup.call c).ttl = dedup.ttl := by
  cases c with
  | setScope creator room => exact ⟨rfl, rfl⟩
  | check message now =>
    show (dedup.checkDuplicate message now).2.capacity = _
      ∧ (dedup.checkDuplicate message now).2.ttl = _
    unfold checkDuplicate
    split
    · exact ⟨rfl, rfl⟩
    · dsimp only
      split
      · split <;> exact ⟨rfl, rfl⟩
      · exact ⟨rfl, rfl⟩

theorem run_bounds (dedup : LiveDedup) (c : List Call) :
    (dedup.run c).capacity = dedup.capacity
      ∧ (dedup.run c).ttl = dedup.ttl := by
  induction c generalizing dedup with
  | nil => exact ⟨rfl, rfl⟩
  | cons ca rest ih =>
    obtain ⟨hc, ht⟩ := dedup.call_bounds ca
    rw [← hc, ← ht]
    exact ih (dedup.call ca)

/-- A message is a duplicate exactly if it has an identity, was let
through less than the time to live ago, and fewer others than the store
holds were let through since. Map and queue hold the same messages, each
once, and no more than they may. -/
theorem duplicate_iff (capacity ttl : Nat) (calls : List Call)
    (message : Message) (now : Nat)
    (htimes : (calls.filterMap Call.time ++ [now]).Pairwise (· ≤ ·)) :
    let dedup := (new capacity ttl).run calls
    ((dedup.checkDuplicate message now).1 = true
        ↔ message.msgId ≠ 0 ∧ ∃ earlier at_ later,
          (new capacity ttl).admissions calls
              = earlier ++ (dedup.key message, at_) :: later
            ∧ now - at_ < ttl
            ∧ others (dedup.key message) later < max capacity 1)
      ∧ dedup.order.Nodup
      ∧ (∀ key, key ∈ dedup.order ↔ dedup.seen[key]? ≠ none)
      ∧ dedup.order.length ≤ max capacity 1
      ∧ dedup.seen.size = dedup.order.length := by
  intro dedup
  have hs : (0 :: (calls.filterMap Call.time ++ [now])).Pairwise
      (· ≤ ·) :=
    pairwise_cons.2 ⟨fun _ _ => Nat.zero_le _, htimes⟩
  have h : Remembers dedup ((new capacity ttl).admissions calls) now :=
    (Remembers.new capacity ttl).run hs
  have hbds : dedup.capacity = max capacity 1 ∧ dedup.ttl = ttl :=
    (new capacity ttl).run_bounds calls
  obtain ⟨gone, kept, -, hmat, hr, -⟩ := h.kept
  rw [hbds.1] at hr
  refine ⟨?_, ?_, hmat.mem_order, ?_, ?_⟩
  · rw [h.answer, hbds.1, hbds.2]
  · rw [hmat.order]
    exact hmat.nodup
  · rw [hmat.order, length_map]
    exact hr
  · rw [hmat.size, hmat.order, length_map]

/-- A gift that comes again after four seconds. -/
theorem duplicate_replayed :
    let gift : Message := ⟨"WebcastGiftMessage", .gift, 7⟩
    (((new 2 300).run [.check gift 5]).checkDuplicate gift 9).1 = true := by
  intro gift
  have ha : (new 2 300).admissions [.check gift 5]
      = [(((new 2 300).run [.check gift 5]).key gift, 5)] := rfl
  refine (duplicate_iff 2 300 [.check gift 5] gift 9 ?_).1.2
    ⟨by decide, [], 5, [], ha, by decide, by decide⟩
  decide

end LiveDedup

end TikTools.Live
