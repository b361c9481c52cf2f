/-
The outbox and the mailbox over whole runs.

`Transport` keeps, beside the outbox, the numbers of the critical messages
accepted while the transport was healthy, of those that were cleared, and
the batches taken. What is accepted and not cleared is what was delivered,
followed by what is still in the reliable lane. `MailboxRun` keeps the
wakes that were asked for and not answered by a drain.
-/
import TikTools.Desktop.Lanes

namespace TikTools.Desktop

open TikTools.Lib List WebviewOutbox

variable {parse : String → Option Json}

-- ==== the runs

structure Transport where
  outbox : WebviewOutbox Nat
  nextTag : Nat
  /-- Critical messages accepted while the transport was healthy. -/
  accepted : List Nat
  cleared : List Nat
  batches : List (List (QueuedWebviewMessage Nat))

namespace Transport

inductive Action where
  | push (body : String)
  | pushValue (value : Json)
  | pushCritical (body : String)
  | take
  | fail
  | recover
  | discard

def start : Transport := ⟨.new, 0, [], [], []⟩

/-- A message of the class was pushed, and this is the outbox now. -/
def entered (s : Transport) (cls : WebviewMessageClass)
    (outbox : WebviewOutbox Nat) : Transport :=
  { s with
    outbox
    nextTag := s.nextTag + 1
    accepted :=
      if cls = .critical ∧ s.outbox.transportFailed = false
          ∧ outbox.transportFailed = false then s.accepted ++ [s.nextTag]
      else s.accepted }

def next (parse : String → Option Json) (s : Transport) :
    Action → Option Transport
  | .push body =>
    (s.outbox.push parse body s.nextTag).map
      (s.entered (WebviewOutbox.classOf parse body))
  | .pushValue value =>
    (s.outbox.pushValue value s.nextTag).map (s.entered (classifyValue value))
  | .pushCritical body =>
    (s.outbox.pushCritical body s.nextTag).map (s.entered .critical)
  | .take =>
    s.outbox.takePreparedBatch.map fun (batch, outbox) =>
      { s with outbox, batches := s.batches ++ [batch] }
  | .fail => some { s with outbox := s.outbox.fail }
  | .recover => some { s with outbox := s.outbox.recoverTransport }
  | .discard =>
    some { s with
      outbox := s.outbox.discardPending
      cleared := s.cleared ++ s.outbox.reliable.map (·.tag) }

/-- The critical messages of the batches taken, in order. -/
def delivered (s : Transport) : List Nat :=
  (s.batches.flatten.filter (·.cls == .critical)).map (·.tag)

/-- No queued message gives way to an older one of its key: of its
ranking instance, or of its competition. -/
def NeverOlder (o o' : WebviewOutbox Nat) : Prop :=
  ∀ n ∈ o'.lossy, n ∉ o.lossy → ∀ m ∈ o.lossy, ∀ key,
    m.coalesceKey = some key → n.coalesceKey = some key →
      (∀ inst revision revision', m.rankingRevision = some (inst, revision) →
        n.rankingRevision = some (inst, revision') → revision ≤ revision')
      ∧ ∀ generation generation', m.coalesceGeneration = some generation →
        n.coalesceGeneration = some generation' → generation ≤ generation'

structure Lawful (parse : String → Option Json) (s : Transport) : Prop where
  reliable_bytes : s.outbox.reliableBytes = total s.outbox.reliable
  lossy_bytes : s.outbox.lossyBytes = total s.outbox.lossy
  no_underflow : ∀ a, (s.next parse a).isSome = true
  reliable_bounds : s.outbox.reliable.length ≤ maxReliableMessages
    ∧ s.outbox.reliableBytes ≤ maxReliableBytes
  lossy_bounds : s.outbox.lossy.length ≤ maxPendingWebviewMessages
    ∧ s.outbox.lossyBytes ≤ maxLossyBytes
  batch_bounds : ∀ batch ∈ s.batches,
    batch.length ≤ maxBatchPerTick ∧ total batch ≤ maxBatchBytes
  progress : s.outbox.isEmpty = false →
    ∃ batch t, s.next parse .take = some t
      ∧ t.batches = s.batches ++ [batch] ∧ batch ≠ []
  one_per_key : ∀ key,
    (s.outbox.lossy.filter (·.coalesceKey = some key)).length ≤ 1
  newest : ∀ a t, s.next parse a = some t → NeverOlder s.outbox t.outbox
  conserved : s.accepted.filter (· ∉ s.cleared)
    = s.delivered ++ s.outbox.reliable.map (·.tag)
  once : s.accepted.Nodup

-- ==== one push

section push

variable {o o' : WebviewOutbox Nat} {cls : WebviewMessageClass} {tag : Nat}

theorem reliable_entered (h : WebviewOutbox.Entered o cls tag o') :
    (cls = .critical ∧ o.transportFailed = false
        ∧ o'.transportFailed = false
        ∧ ∃ m : QueuedWebviewMessage Nat, m.tag = tag
          ∧ o'.reliable = o.reliable ++ [m])
      ∨ ¬ (cls = .critical ∧ o.transportFailed = false
          ∧ o'.transportFailed = false) ∧ o'.reliable = o.reliable := by
  cases h with
  | refused hf =>
    refine .inr ⟨?_, rfl⟩
    rintro ⟨-, hh, -⟩
    rw [hf] at hh
    cases hh
  | failed =>
    refine .inr ⟨?_, rfl⟩
    rintro ⟨-, -, hh⟩
    cases hh
  | pushed m hcls htag _ hp =>
    subst hcls
    cases hp with
    | refused hf =>
      refine .inr ⟨?_, rfl⟩
      rintro ⟨-, hh, -⟩
      rw [hf] at hh
      cases hh
    | failed _ _ =>
      refine .inr ⟨?_, rfl⟩
      rintro ⟨-, -, hh⟩
      cases hh
    | accepted hh hc _ _ =>
      exact .inl ⟨hc, hh, hh, m, htag, rfl⟩
    | stale _ ho _ _ => exact .inr ⟨fun h => ho h.1, rfl⟩
    | queued _ _ _ ho _ _ _ _ =>
      exact .inr ⟨fun h => ho h.1, rfl⟩

theorem neverOlder_of_subset (h : ∀ n ∈ o'.lossy, n ∈ o.lossy) :
    NeverOlder o o' :=
  fun n hn hnew => absurd (h n hn) hnew

theorem not_older {key : String} {m n : QueuedWebviewMessage Nat}
    (h : o.hasNewer key n = false) (hm : m ∈ o.lossy)
    (hkey : m.coalesceKey = some key) :
    (∀ inst revision revision', m.rankingRevision = some (inst, revision) →
        n.rankingRevision = some (inst, revision') → revision ≤ revision')
      ∧ ∀ generation generation', m.coalesceGeneration = some generation →
        n.coalesceGeneration = some generation' →
          generation ≤ generation' := by
  have hn := any_eq_false.1 h m hm
  simp only [hkey, beq_self_eq_true, Bool.true_and, Bool.or_eq_true,
    not_or, Bool.not_eq_true] at hn
  constructor
  · intro inst revision revision' hrev hrev'
    have hf := hn.1
    simp only [hrev, hrev', beq_self_eq_true, Bool.true_and,
      decide_eq_false_iff_not, Nat.not_lt] at hf
    exact hf
  · intro generation generation' hgen hgen'
    have hsnd := hn.2
    simp only [hgen, hgen', decide_eq_false_iff_not, Nat.not_lt] at hsnd
    exact hsnd

theorem neverOlder_entered (h : WebviewOutbox.Entered o cls tag o') :
    NeverOlder o o' := by
  cases h with
  | refused | failed => exact neverOlder_of_subset fun _ hn => hn
  | pushed m hcls htag _ hp =>
    cases hp with
    | queued lossy _ _ _ hnw hl _ _ =>
      intro n hn hnew q hq key hqk hnk
      obtain hold | hs := mem_append.1 (hl.subset hn)
      · have hsub := (kept_spec o.lossy m).1
        exact absurd (hsub.subset hold) hnew
      · rw [mem_singleton.1 hs] at hnk ⊢
        exact not_older (hnw key hnk) hq hqk
    | _ => exact neverOlder_of_subset fun _ hn => hn

end push

-- ==== the invariant

structure Kept (s : Transport) : Prop where
  outbox : s.outbox.Sound
  batches : ∀ batch ∈ s.batches,
    batch.length ≤ maxBatchPerTick ∧ total batch ≤ maxBatchBytes
  conserved : s.accepted.filter (· ∉ s.cleared)
    = s.delivered ++ s.outbox.reliable.map (·.tag)
  once : s.accepted.Nodup
  old : ∀ n, n ∈ s.accepted ∨ n ∈ s.cleared → n < s.nextTag

theorem kept_start : start.Kept where
  outbox := sound_new
  batches := nofun
  conserved := rfl
  once := nodup_nil
  old := by
    rintro n (h | h)
    · cases h
    · cases h

variable {s t : Transport}

variable {outbox : WebviewOutbox Nat}

theorem Kept.entered (h : s.Kept) {cls : WebviewMessageClass}
    (he : WebviewOutbox.Entered s.outbox cls s.nextTag outbox) :
    (s.entered cls outbox).Kept := by
  obtain ⟨hcls, hbef, haf, m, ht, hl⟩ | ⟨hnot, hl⟩ := reliable_entered he
  · have hacc : (s.entered cls outbox).accepted
        = s.accepted ++ [s.nextTag] := if_pos ⟨hcls, hbef, haf⟩
    have hnew : s.nextTag ∉ s.accepted ∧ s.nextTag ∉ s.cleared :=
      ⟨fun hn => Nat.lt_irrefl _ (h.old _ (.inl hn)),
        fun hn => Nat.lt_irrefl _ (h.old _ (.inr hn))⟩
    refine ⟨h.outbox.entered he, h.batches, ?_, ?_, ?_⟩
    · rw [hacc, filter_append, filter_singleton]
      show s.accepted.filter (· ∉ s.cleared) ++ _
        = s.delivered ++ outbox.reliable.map (·.tag)
      have hc : s.nextTag ∉ (s.entered cls outbox).cleared := hnew.2
      rw [h.conserved, hl]
      simp [hc, ht]
    · rw [hacc]
      exact nodup_append.2 ⟨h.once, nodup_singleton _,
        fun a ha b hb heq => hnew.1 (mem_singleton.1 hb ▸ heq ▸ ha)⟩
    · rintro n hn
      rw [hacc] at hn
      obtain hm | hc := hn
      · obtain ho | hs := mem_append.1 hm
        · exact Nat.lt_succ_of_lt (h.old n (.inl ho))
        · rw [mem_singleton.1 hs]
          exact Nat.lt_succ_self _
      · exact Nat.lt_succ_of_lt (h.old n (.inr hc))
  · have hacc : (s.entered cls outbox).accepted = s.accepted :=
      if_neg hnot
    refine ⟨h.outbox.entered he, h.batches, ?_, ?_, ?_⟩
    · rw [hacc]
      show s.accepted.filter (· ∉ s.cleared)
        = s.delivered ++ outbox.reliable.map (·.tag)
      rw [hl]
      exact h.conserved
    · rw [hacc]
      exact h.once
    · rintro n hn
      rw [hacc] at hn
      exact Nat.lt_succ_of_lt (h.old n hn)

theorem Kept.taken (h : s.Kept) {batch : List (QueuedWebviewMessage Nat)}
    (hb : WebviewOutbox.Batched s.outbox batch outbox) :
    Kept { s with outbox, batches := s.batches ++ [batch] } := by
  obtain ⟨reliable, lossy, rfl, hr, hl⟩ := hb.parts
  have hc : reliable.filter (·.cls == .critical) = reliable :=
    filter_eq_self.2 fun m hm => by
      simp [h.outbox.critical m (hr ▸ mem_append_left _ hm)]
  have ho : lossy.filter (·.cls == .critical) = [] :=
    filter_eq_nil_iff.2 fun m hm => by
      simp [h.outbox.other m (hl ▸ mem_append_left _ hm)]
  refine ⟨h.outbox.batched hb, ?_, ?_, h.once, h.old⟩
  · intro batch hbt
    obtain hold | hnew := mem_append.1 hbt
    · exact h.batches batch hold
    · rw [mem_singleton.1 hnew]
      exact ⟨hb.count, hb.size⟩
  · show s.accepted.filter (· ∉ s.cleared) = _
    rw [h.conserved, hr]
    simp [delivered, hc, ho]

theorem Kept.discarded (h : s.Kept) :
    Kept { s with
      outbox := s.outbox.discardPending
      cleared := s.cleared ++ s.outbox.reliable.map (·.tag) } := by
  have hnd : (s.delivered ++ s.outbox.reliable.map (·.tag)).Nodup :=
    h.conserved ▸ h.once.filter _
  have hmem : ∀ n ∈ s.outbox.reliable.map (·.tag), n ∈ s.accepted :=
    fun n hn => by
      have hin : n ∈ s.accepted.filter (· ∉ s.cleared) := by
        rw [h.conserved]
        exact mem_append_right _ hn
      exact mem_of_mem_filter hin
  refine ⟨WebviewOutbox.Sound.discardPending, h.batches, ?_, h.once, ?_⟩
  · show s.accepted.filter
      (· ∉ s.cleared ++ s.outbox.reliable.map (·.tag)) = s.delivered ++ []
    have hs : s.accepted.filter
          (· ∉ s.cleared ++ s.outbox.reliable.map (·.tag))
        = (s.accepted.filter (· ∉ s.cleared)).filter
          (· ∉ s.outbox.reliable.map (·.tag)) := by
      rw [filter_filter]
      refine filter_congr fun n _ => ?_
      simp only [mem_append, not_or, Bool.decide_and, Bool.and_comm]
    have hd := (nodup_append.1 hnd).2.2
    rw [hs, h.conserved, filter_append, append_nil]
    have hk : s.delivered.filter (· ∉ s.outbox.reliable.map (·.tag))
        = s.delivered := filter_eq_self.2 fun n hn => by
      simpa using fun m hm heq =>
        hd n hn n (mem_map.2 ⟨m, hm, heq⟩) rfl
    have hdr : (s.outbox.reliable.map (·.tag)).filter
          (· ∉ s.outbox.reliable.map (·.tag)) = [] :=
      filter_eq_nil_iff.2 fun n hn => by simpa using hn
    rw [hk, hdr, append_nil]
  · rintro n (ha | hc)
    · exact h.old n (.inl ha)
    · obtain ho | hnew := mem_append.1 hc
      · exact h.old n (.inr ho)
      · exact h.old n (.inl (hmem n hnew))

/-- Every operation is carried out, keeps the invariant, and replaces
nothing by something older. -/
theorem Kept.next (hp : WebviewOutbox.ReadsLiterally parse)
    (h : s.Kept) (a : Action) :
    ∃ t, s.next parse a = some t ∧ t.Kept ∧ NeverOlder s.outbox t.outbox := by
  have hby := h.outbox.lossy_bytes
  cases a with
  | push body =>
    obtain ⟨o', ho', he⟩ := push_spec hp hby body s.nextTag
    exact ⟨_, by rw [Transport.next, ho']; rfl, h.entered he,
      neverOlder_entered he⟩
  | pushValue v =>
    obtain ⟨o', ho', he⟩ := pushValue_spec hby v s.nextTag
    exact ⟨_, by rw [Transport.next, ho']; rfl, h.entered he,
      neverOlder_entered he⟩
  | pushCritical body =>
    obtain ⟨o', ho', he⟩ := pushCritical_spec hby body s.nextTag
    exact ⟨_, by rw [Transport.next, ho']; rfl, h.entered he,
      neverOlder_entered he⟩
  | take =>
    obtain ⟨batch, o', ho', hb⟩ := takePreparedBatch_spec h.outbox
    obtain ⟨_, lossy, -, -, hl⟩ := hb.parts
    refine ⟨_, by rw [Transport.next, ho']; rfl, h.taken hb, ?_⟩
    exact neverOlder_of_subset fun n hn =>
      hl ▸ mem_append_right _ hn
  | fail =>
    exact ⟨_, rfl, { h with outbox := h.outbox.fail },
      neverOlder_of_subset fun _ hn => hn⟩
  | recover =>
    exact ⟨_, rfl, { h with outbox := h.outbox.recoverTransport },
      neverOlder_of_subset fun _ hn => hn⟩
  | discard =>
    exact ⟨_, rfl, h.discarded, neverOlder_of_subset nofun⟩

theorem Kept.one_per_key (h : s.Kept) (key : String) :
    (s.outbox.lossy.filter (·.coalesceKey = some key)).length ≤ 1 := by
  have hk := h.outbox.keys.sublist
    (@filter_sublist _ (fun m => m.coalesceKey = some key) s.outbox.lossy)
  have hall : ∀ m ∈ s.outbox.lossy.filter (·.coalesceKey = some key),
      m.coalesceKey = some key := fun m hm => by
    simpa using (mem_filter.1 hm).2
  generalize s.outbox.lossy.filter (·.coalesceKey = some key) = lane at *
  match lane with
  | [] => exact Nat.zero_le _
  | [_] => exact Nat.le_refl _
  | a :: b :: rest =>
    have hab := (pairwise_cons.1 hk).1 b (by simp)
    exact absurd (hall b (by simp)) (hab key (hall a (by simp)))

theorem Kept.lawful (hp : WebviewOutbox.ReadsLiterally parse)
    (h : s.Kept) : s.Lawful parse where
  reliable_bytes := h.outbox.reliable_bytes
  lossy_bytes := h.outbox.lossy_bytes
  no_underflow := fun a => by
    obtain ⟨t, ht, -⟩ := h.next hp a
    rw [ht]
    rfl
  reliable_bounds := ⟨h.outbox.reliable_count, h.outbox.reliable_size⟩
  lossy_bounds := ⟨h.outbox.lossy_count, h.outbox.lossy_size⟩
  batch_bounds := h.batches
  progress := fun hs => by
    obtain ⟨b, o', ho', hb⟩ := takePreparedBatch_spec h.outbox
    exact ⟨b, _, by rw [Transport.next, ho']; rfl, rfl, hb.progress hs⟩
  one_per_key := h.one_per_key
  newest := fun a t ht => by
    obtain ⟨u, hu, -, hn⟩ := h.next hp a
    cases ht.symm.trans hu
    exact hn
  conserved := h.conserved
  once := h.once

end Transport

-- ==== the wakes

structure MailboxRun where
  mailbox : ForwardMailbox Unit
  /-- The wakes asked for since the last drain. -/
  wakes : Nat

namespace MailboxRun

inductive Action where
  | fail
  | retirePage
  | push (body : String)
  | pushValue (value : Json)
  | shutdown
  | takeLossyDrops
  | drain
  | recover

def start : MailboxRun := ⟨.new, 0⟩

/-- A wake may be posted. -/
def posted (s : MailboxRun) (result : ForwardMailbox Unit × Bool) :
    MailboxRun :=
  ⟨result.1, s.wakes + if result.2 then 1 else 0⟩

/-- A drain answers the wakes; a shutdown is for a loop that is gone. -/
def next (parse : String → Option Json) (s : MailboxRun) :
    Action → Option MailboxRun
  | .fail => some (s.posted s.mailbox.fail)
  | .retirePage => some { s with mailbox := s.mailbox.retirePage }
  | .push body => (s.mailbox.push parse body ()).map s.posted
  | .pushValue value => (s.mailbox.pushValue value ()).map s.posted
  | .shutdown => some ⟨s.mailbox.shutdown, 0⟩
  | .takeLossyDrops =>
    some { s with mailbox := s.mailbox.takeLossyDrops.1 }
  | .drain =>
    s.mailbox.drain.map fun (mailbox, _, _, wake) =>
      posted ⟨mailbox, 0⟩ (mailbox, wake)
  | .recover => some { s with mailbox := s.mailbox.recover }

/-- The mailbox holds a message or a failure it has not reported. -/
def Holds (s : MailboxRun) : Prop :=
  s.mailbox.outbox.isEmpty = false ∨ s.mailbox.outbox.failurePending = true

structure Woken (s : MailboxRun) : Prop where
  outbox : s.mailbox.outbox.Sound
  wakes : s.wakes = if s.mailbox.wakePending then 1 else 0
  pending : s.Holds → s.mailbox.wakePending = true

theorem woken_start : start.Woken where
  outbox := sound_new
  wakes := rfl
  pending := by
    rintro (h | h)
    · cases h
    · cases h

variable {s t : MailboxRun}

theorem Woken.armed {outbox : WebviewOutbox Unit} (h : s.Woken)
    (ho : outbox.Sound) :
    (s.posted (ForwardMailbox.armWake { s.mailbox with outbox })).Woken := by
  have hw := h.wakes
  unfold ForwardMailbox.armWake
  by_cases hp : s.mailbox.wakePending = true
  · rw [if_pos hp]
    exact ⟨ho, hw, fun _ => hp⟩
  · have hn : s.mailbox.wakePending = false := by simpa using hp
    rw [if_neg hp]
    split
    · next hid =>
      refine ⟨ho, hw, fun hh => ?_⟩
      simp only [Bool.and_eq_true, Bool.not_eq_true'] at hid
      obtain hs | hf := hh
      · exact absurd (hid.1.symm.trans hs) nofun
      · exact absurd (hid.2.symm.trans hf) nofun
    · refine ⟨ho, ?_, fun _ => rfl⟩
      show s.wakes + 1 = 1
      rw [hw, hn]
      rfl

theorem Woken.next (hp : WebviewOutbox.ReadsLiterally parse)
    (h : s.Woken) {a : Action} (ht : s.next parse a = some t) :
    t.Woken := by
  have hby := h.outbox.lossy_bytes
  cases a with
  | fail =>
    cases ht
    exact h.armed h.outbox.fail
  | retirePage =>
    cases ht
    refine ⟨WebviewOutbox.Sound.discardPending, h.wakes, ?_⟩
    rintro (hs | hf)
    · cases hs
    · exact h.pending (.inr hf)
  | push body =>
    obtain ⟨o', ho', he⟩ := push_spec hp hby body ()
    rw [MailboxRun.next, ForwardMailbox.push, ho'] at ht
    cases ht
    exact h.armed (h.outbox.entered he)
  | pushValue value =>
    obtain ⟨o', ho', he⟩ := pushValue_spec hby value ()
    rw [MailboxRun.next, ForwardMailbox.pushValue, ho'] at ht
    cases ht
    exact h.armed (h.outbox.entered he)
  | shutdown =>
    cases ht
    refine ⟨{ sound_new with }, rfl, ?_⟩
    rintro (hs | hf)
    · cases hs
    · cases hf
  | takeLossyDrops =>
    cases ht
    exact ⟨h.outbox, h.wakes, h.pending⟩
  | drain =>
    obtain ⟨⟨mailbox, batch, failed, wake⟩, hd, rfl⟩ :=
      Option.map_eq_some_iff.1 ht
    obtain ⟨⟨batch', outbox⟩, htk, heq⟩ := Option.map_eq_some_iff.1 hd
    cases heq
    have hbef : WebviewOutbox.Sound
        (if s.mailbox.outbox.failurePending = true then
          WebviewOutbox.discardPending
            { s.mailbox.outbox with failurePending := false }
        else { s.mailbox.outbox with failurePending := false }) := by
      split
      · exact WebviewOutbox.Sound.discardPending
      · exact { h.outbox with }
    obtain ⟨batch'', outbox', ht', hb⟩ := takePreparedBatch_spec hbef
    cases htk.symm.trans ht'
    have hf : outbox.failurePending = false := by
      rw [hb.rest]
      split <;> rfl
    refine ⟨hbef.batched hb, Nat.zero_add _, ?_⟩
    rintro (hs | hpn)
    · show (!outbox.isEmpty) = true
      rw [Bool.not_eq_true']
      exact hs
    · exact absurd (hf.symm.trans hpn) nofun
  | recover =>
    cases ht
    exact ⟨h.outbox.recoverTransport, h.wakes, h.pending⟩

end MailboxRun

-- ==== the law

/-- Whatever is pushed, taken, failed, recovered and discarded, the lanes
are accounted and bounded, no batch of a non-empty outbox is empty, and
the critical messages arrive once and in order; and a mailbox that holds
something has one wake out. -/
theorem outbox_law (hparse : WebviewOutbox.ReadsLiterally parse) :
    (∀ actions s,
      Reaches (Transport.next parse) Transport.start actions s →
        s.Lawful parse)
    ∧ ∀ actions s,
      Reaches (MailboxRun.next parse) MailboxRun.start actions s →
        s.wakes ≤ 1 ∧ (s.Holds → s.wakes = 1) := by
  constructor
  · intro actions s hs
    have hk : s.Kept := by
      refine reaches_invariant Transport.kept_start ?_ hs
      intro s a t h ht
      obtain ⟨u, hu, hk, -⟩ := h.next hparse a
      cases ht.symm.trans hu
      exact hk
    exact hk.lawful hparse
  · intro actions s hs
    have hwk : s.Woken :=
      reaches_invariant MailboxRun.woken_start
        (fun s a t h ht => h.next hparse ht) hs
    have hw := hwk.wakes
    constructor
    · rw [hw]
      split
      · exact Nat.le_refl _
      · exact Nat.zero_le _
    · intro hh
      rw [hw, hwk.pending hh]
      rfl

/-- A parser that reads the empty object and nothing else. -/
def readsEmpty (text : String) : Option Json :=
  if text = "\x7b\x7d" then some (.object []) else none

theorem readsLiterally_readsEmpty :
    WebviewOutbox.ReadsLiterally readsEmpty := by
  intro text value h
  unfold readsEmpty at h
  split at h
  · next heq =>
    cases h
    subst heq
    decide
  · cases h

def roomStats : Json := .object [("type", .string "room-stats")]

/-- A response is delivered, two snapshots are one, and a mailbox that
got both has one wake out. -/
theorem outbox_law_snapshots :
    (∃ s : Transport, s.Lawful readsEmpty ∧ s.delivered = [0]
      ∧ s.outbox.lossy.length = 1)
    ∧ ∃ s : MailboxRun, s.Holds ∧ s.wakes = 1 := by
  have hl : ((runActions (Transport.next readsEmpty) .start
      [.push "\x7b\x7d", .take, .pushValue roomStats,
        .pushValue roomStats]).map
      fun s => (s.delivered, s.outbox.lossy.length)) = some ([0], 1) := by
    decide +kernel
  have hw : ((runActions (MailboxRun.next readsEmpty) .start
      [.push "\x7b\x7d", .pushValue roomStats]).map
      fun s => s.mailbox.outbox.isEmpty) = some false := by
    decide +kernel
  obtain ⟨s, hs, hres⟩ := Option.map_eq_some_iff.1 hl
  obtain ⟨u, hu, hsm⟩ := Option.map_eq_some_iff.1 hw
  obtain ⟨hlw, hml⟩ := outbox_law readsLiterally_readsEmpty
  refine ⟨⟨s, hlw _ s ⟨_, [], (append_nil _).symm, hs⟩,
    Prod.mk.inj hres⟩, u, .inl hsm, ?_⟩
  exact (hml _ u ⟨_, [], (append_nil _).symm, hu⟩).2 (.inl hsm)

end TikTools.Desktop
