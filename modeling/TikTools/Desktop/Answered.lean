/-
Page batches are acknowledged by their own acknowledgement.

Two invariants, which do not touch each other. `Messages` says for which
generation the messages in the mailbox and in the loop's outbox were
admitted. `Answers` says what the boolean of the acknowledgement stands
for, and what the document of the page has got. `Careful` is the condition
on the steps: an acknowledgement is stored while the batch it names is
pending; a page that calls itself ready holds no batch that was given up;
and a tick flushes in the generation it has synchronised with.
-/
import TikTools.Desktop.Page

namespace TikTools.Desktop

open TikTools.Lib List Option WebviewOutbox

variable {parse : String → Option Json}

-- ==== the tags

/-- The messages admitted for a generation were admitted for this one. -/
def Tagged (lane : List (QueuedWebviewMessage (Option Nat)))
    (generation : Nat) : Prop :=
  ∀ m ∈ lane, ∀ g, m.tag = some g → g = generation

namespace WebviewOutbox

/-- All queued messages. -/
def all {τ : Type} (o : WebviewOutbox τ) : List (QueuedWebviewMessage τ) :=
  o.reliable ++ o.lossy

variable {o o' : WebviewOutbox (Option Nat)} {generation : Nat}

theorem tagged_discardPending : Tagged o.discardPending.all generation :=
  nofun

theorem Pushed.mem {τ : Type} {o o' : WebviewOutbox τ}
    {m : QueuedWebviewMessage τ} (h : Pushed o m o') :
    ∀ q ∈ o'.all, q ∈ o.all ∨ q = m := by
  cases h with
  | refused | failed | stale => exact fun q hq => .inl hq
  | accepted =>
    intro q hq
    obtain (hold | hnew) | hl := (mem_append.1 hq).imp_left mem_append.1
    · exact .inl (mem_append_left _ hold)
    · exact .inr (mem_singleton.1 hnew)
    · exact .inl (mem_append_right _ hl)
  | queued lossy dropped _ _ _ hln _ _ =>
    intro q hq
    obtain hr | hl := mem_append.1 hq
    · exact .inl (mem_append_left _ hr)
    · obtain hold | hnew := mem_append.1 (hln.subset hl)
      · have hsub := (kept_spec o.lossy m).1
        exact .inl (mem_append_right _ (hsub.subset hold))
      · exact .inr (mem_singleton.1 hnew)

theorem Pushed.tagged {m : QueuedWebviewMessage (Option Nat)}
    (h : Pushed o m o') (ho : Tagged o.all generation)
    (hm : ∀ g, m.tag = some g → g = generation) :
    Tagged o'.all generation := by
  intro q hq
  obtain hl | rfl := h.mem q hq
  · exact ho q hl
  · exact hm

theorem Entered.tagged {cls : WebviewMessageClass} {tag : Option Nat}
    (h : Entered o cls tag o') (ho : Tagged o.all generation)
    (ht : ∀ g, tag = some g → g = generation) :
    Tagged o'.all generation := by
  cases h with
  | refused | failed => exact ho
  | pushed m _ hm _ hp => exact hp.tagged ho (hm ▸ ht)

theorem Batched.tagged {b : List (QueuedWebviewMessage (Option Nat))}
    (h : Batched o b o') (ho : Tagged o.all generation) :
    Tagged b generation ∧ Tagged o'.all generation := by
  obtain ⟨first, second, rfl, hr, hl⟩ := h.parts
  rw [all, hr, hl] at ho
  constructor
  · intro m hm
    obtain hf | hsnd := mem_append.1 hm
    · exact ho m (mem_append_left _ (mem_append_left _ hf))
    · exact ho m (mem_append_right _ (mem_append_left _ hsnd))
  · intro m hm
    obtain hf | hsnd := mem_append.1 hm
    · exact ho m (mem_append_left _ (mem_append_right _ hf))
    · exact ho m (mem_append_right _ (mem_append_right _ hsnd))

theorem Batched.fit {τ : Type} {o o' : WebviewOutbox τ}
    {b : List (QueuedWebviewMessage τ)} (h : Batched o b o')
    (ho : o.Sound) : ∀ m ∈ b, m.bytes ≤ maxBatchBytes := by
  obtain ⟨first, second, rfl, hr, hl⟩ := h.parts
  intro m hm
  refine ho.fit m ?_
  rw [hr, hl]
  obtain hf | hsnd := mem_append.1 hm
  · exact mem_append_left _ (mem_append_left _ hf)
  · exact mem_append_right _ (mem_append_left _ hsnd)

end WebviewOutbox

variable {ok : Bool} {mailbox : ForwardMailbox (Option Nat)}

theorem ForwardMailbox.drain_spec {generation : Nat}
    (hs : mailbox.outbox.Sound)
    (htg : Tagged mailbox.outbox.all generation) :
    ∃ m' me failed wake,
      mailbox.drain = some (m', me, failed, wake)
        ∧ m'.outbox.Sound
        ∧ Tagged m'.outbox.all generation
        ∧ Tagged me generation
        ∧ ∀ m ∈ me, m.bytes ≤ maxBatchBytes := by
  have hbef : ∃ o, o = (if mailbox.outbox.failurePending = true then
        WebviewOutbox.discardPending
          { mailbox.outbox with failurePending := false }
      else { mailbox.outbox with failurePending := false })
      ∧ o.Sound ∧ Tagged o.all generation := by
    refine ⟨_, rfl, ?_⟩
    split
    · exact ⟨WebviewOutbox.Sound.discardPending, tagged_discardPending⟩
    · exact ⟨{ hs with }, htg⟩
  obtain ⟨o, ho, hos, hot⟩ := hbef
  obtain ⟨batch, o', htk, hb⟩ := takePreparedBatch_spec hos
  have ht := hb.tagged hot
  refine ⟨{ mailbox with outbox := o', wakePending := !o'.isEmpty }, batch,
    mailbox.outbox.failurePending, !o'.isEmpty, ?_, hos.batched hb,
    ht.2, ht.1, hb.fit hos⟩
  rw [drain]
  simp only [← ho, htk, map_some]

namespace Page

variable {s t : Page}

-- ==== messages

structure Messages (s : Page) : Prop where
  mailbox : s.mailbox.outbox.Sound
  outbox : s.pendingHostMessages.Sound
  admitted : Tagged s.mailbox.outbox.all s.generation
  drained : s.uiGeneration = s.generation →
    Tagged s.pendingHostMessages.all s.generation
  behind : s.uiGeneration ≤ s.generation
  own : ∀ e ∈ s.evaluated, ∀ g, some g ∈ e.2 → g = e.1.generation

theorem messages_start : start.Messages where
  mailbox := sound_new
  outbox := sound_new
  admitted := nofun
  drained := fun _ => nofun
  behind := Nat.le_refl _
  own := nofun

section

variable (h : s.Messages)
include h

theorem Messages.overtaken (hs : mailbox.outbox.Sound)
    (ht : Tagged mailbox.outbox.all (s.generation + 1)) :
    Messages { s with generation := s.generation + 1, mailbox } where
  mailbox := hs
  outbox := h.outbox
  admitted := ht
  drained := fun heq => by
    have hb := h.behind
    have hsm : s.uiGeneration = s.generation + 1 := heq
    omega
  behind := Nat.le_succ_of_le h.behind
  own := h.own

theorem Messages.advanced :
    s.advanceGeneration.Messages :=
  { h.overtaken WebviewOutbox.Sound.discardPending
      tagged_discardPending with }

theorem Messages.failed (ok : Bool) :
    (s.failWebviewTransport ok).Messages := by
  unfold failWebviewTransport
  split
  · exact h
  · have hd : Messages { s with pageReady := false }.dropBatch :=
      { h with }
    exact { hd.advanced with
      outbox := WebviewOutbox.Sound.discardPending
      drained := fun _ => tagged_discardPending }

theorem Messages.synced : s.syncPageGeneration.Messages := by
  unfold syncPageGeneration
  split
  · exact h
  · have hc : (if s.pendingHostMessages.isEmpty = true then
          s.pendingHostMessages
        else s.pendingHostMessages.discardPending).Sound
        ∧ ∀ g, Tagged (if s.pendingHostMessages.isEmpty = true then
          s.pendingHostMessages
        else s.pendingHostMessages.discardPending).all g := by
      split
      · next hem =>
        refine ⟨h.outbox, fun g m hm => ?_⟩
        simp only [WebviewOutbox.isEmpty, Bool.and_eq_true,
          List.isEmpty_iff] at hem
        rw [WebviewOutbox.all, hem.1, hem.2] at hm
        cases hm
      · exact ⟨WebviewOutbox.Sound.discardPending,
          fun g => tagged_discardPending⟩
    exact { h with
      outbox := hc.1
      drained := fun _ => hc.2 _
      behind := Nat.le_refl _ }

theorem Messages.frontendReady :
    s.frontendReady.Messages := by
  unfold Page.frontendReady
  split
  · exact h
  · simp only
    split <;> split
    · exact { h with
        mailbox := h.mailbox.recoverTransport
        outbox := h.outbox.recoverTransport }
    · exact { h with
        mailbox := h.mailbox.recoverTransport
        outbox := h.outbox.recoverTransport }
    · exact { h with }
    · exact { h with }

theorem Messages.emit {m : QueuedWebviewMessage (Option Nat)}
    (hft : m.bytes ≤ maxBatchBytes) (htag : s.uiGeneration = s.generation →
      ∀ g, m.tag = some g → g = s.generation) (ht : s.emit ok m = some t) :
    t.Messages
      ∧ (t.uiGeneration = t.generation →
        s.uiGeneration = s.generation ∧ t.generation = s.generation) := by
  obtain ⟨o', ho', hp⟩ := pushPrepared_spec h.outbox.lossy_bytes m
  simp only [Page.emit, ho', map_some, Option.some.injEq] at ht
  subst ht
  have hqud : Messages { s with
      pendingHostMessages := { o' with failurePending := false } } :=
    { h with
      outbox := { h.outbox.pushed hft hp with }
      drained := fun heq => hp.tagged (h.drained heq) (htag heq) }
  split
  · refine ⟨hqud.failed ok, fun heq => ?_⟩
    have hb := h.behind
    unfold failWebviewTransport at heq ⊢
    split at heq
    · next hf =>
      rw [if_pos hf]
      exact ⟨heq, rfl⟩
    · -- the generation is ahead now
      have ha : s.uiGeneration = s.generation + 1 := heq
      omega
  · exact ⟨hqud, fun heq => ⟨heq, rfl⟩⟩

omit h in
theorem Messages.emitAll
    {me : List (QueuedWebviewMessage (Option Nat))} :
    ∀ {s : Page}, s.Messages →
      (∀ m ∈ me, m.bytes ≤ maxBatchBytes) →
      (s.uiGeneration = s.generation → Tagged me s.generation) →
      emitAll ok me s = some t → t.Messages := by
  induction me with
  | nil =>
    rintro s h - - ⟨⟩
    exact h
  | cons m rest ih =>
    intro s h hf htg ht
    obtain ⟨u, hu, hr⟩ := bind_eq_some_iff.1 ht
    obtain ⟨hms, hs⟩ := h.emit (hf m mem_cons_self)
      (fun heq => htg heq m mem_cons_self) hu
    refine ih hms (fun q hq => hf q (mem_cons_of_mem _ hq)) (fun heq => ?_) hr
    obtain ⟨hb, hg⟩ := hs heq
    rw [hg]
    exact fun q hq => htg hb q (mem_cons_of_mem _ hq)

theorem Messages.drain (ht : s.drain ok = some t) : t.Messages := by
  obtain ⟨mailbox, messages, failed, wake, hd, hs, htg, hms,
    hfit⟩ := ForwardMailbox.drain_spec h.mailbox h.admitted
  rw [Page.drain, hd, bind_some] at ht
  obtain ⟨o', hgap, hr⟩ := bind_eq_some_iff.1 ht
  have hg : o'.Sound ∧ (s.uiGeneration = s.generation →
      Tagged o'.all s.generation) := by
    split at hgap
    · obtain ⟨o'', ho'', he⟩ := pushValue_spec
        h.outbox.lossy_bytes (gapNotification (mailbox.outbox.lossyDropped
          - mailbox.reportedLossyDropped)) (none : Option Nat)
      simp only [ho'', Option.some.injEq] at hgap
      subst hgap
      exact ⟨h.outbox.entered he, fun heq => he.tagged (h.drained heq) nofun⟩
    · cases hgap
      exact ⟨h.outbox, h.drained⟩
  have hbef : Messages { s with
      mailbox :=
        { mailbox with reportedLossyDropped := mailbox.outbox.lossyDropped }
      pendingHostMessages := o' } :=
    { h with
      mailbox := hs, outbox := hg.1
      admitted := htg, drained := hg.2 }
  split at hr
  · refine (hbef.failed ok).emitAll hfit (fun heq => ?_) hr
    unfold failWebviewTransport at heq ⊢
    have hb := h.behind
    split at heq
    · next hl =>
      rw [if_pos hl]
      exact hms
    · have ha : s.uiGeneration = s.generation + 1 := heq
      omega
  · exact hbef.emitAll hfit (fun _ => hms) hr

theorem Messages.flush {r : Bool} (hc : s.uiGeneration = s.generation)
    (ht : s.flush ok r = some t) : t.Messages := by
  unfold Page.flush at ht
  split at ht
  · cases ht
    exact h
  · obtain ⟨batch, o', htk, hb⟩ :=
      takePreparedBatch_spec h.outbox
    obtain ⟨htg, hl⟩ := hb.tagged (h.drained hc)
    have hbef : Messages { s with pendingHostMessages := o' } :=
      { h with
        outbox := h.outbox.batched hb
        drained := fun _ => hl }
    rw [htk, map_some] at ht
    simp only [Option.some.injEq] at ht
    subst ht
    split
    · exact hbef.failed r
    · split
      · refine { hbef with own := ?_ }
        intro e he g hg
        obtain hold | hnew := mem_append.1 he
        · exact h.own e hold g hg
        · rw [mem_singleton.1 hnew] at hg ⊢
          obtain ⟨m, hm, hmt⟩ := mem_map.1 hg
          exact htg m hm g hmt
      · refine Messages.failed ?_ r
        exact { hbef with }

end

/-- The condition on the steps. -/
def Careful (s : Page) : Action → Prop
  | .store index =>
    ∀ batch, s.acking[index]? = some batch → s.pendingBatch = some batch
  | .handleReady => s.pendingBatch = none → s.inPage = []
  | .flush _ _ => s.uiGeneration = s.generation
  | _ => True

theorem eq_of_admits {generation : Option Nat}
    (h : s.admits generation = true) (g : Nat) (hg : generation = some g) :
    g = s.generation := by
  subst hg
  exact beq_iff_eq.1 h

theorem outbox_armWake (mailbox : ForwardMailbox (Option Nat)) :
    mailbox.armWake.1.outbox = mailbox.outbox := by
  unfold ForwardMailbox.armWake
  repeat' split
  all_goals rfl

theorem Messages.entered (h : s.Messages)
    {ou : WebviewOutbox (Option Nat)} (ho : ou.Sound)
    (ht : Tagged ou.all s.generation)
    (hml : mailbox.outbox = ou) :
    Messages { s with mailbox } :=
  { h with
    mailbox := hml ▸ ho
    admitted := hml ▸ ht }

theorem Messages.next (hp : WebviewOutbox.ReadsLiterally parse)
    (h : s.Messages) {a : Action} (hcr : s.Careful a)
    (ht : s.next parse a = some t) : t.Messages := by
  cases a with
  | post body generation =>
    simp only [Page.next] at ht
    split at ht
    · next ha =>
      obtain ⟨o', ho', he⟩ := push_spec hp
        h.mailbox.lossy_bytes body generation
      simp only [ForwardMailbox.push, ho', map_some, Option.some.injEq] at ht
      subst ht
      exact h.entered (h.mailbox.entered he)
        (he.tagged h.admitted (eq_of_admits ha)) (outbox_armWake _)
    · cases ht
      exact h
  | postValue value generation =>
    simp only [Page.next] at ht
    split at ht
    · next ha =>
      obtain ⟨o', ho', he⟩ := pushValue_spec
        h.mailbox.lossy_bytes value (some generation)
      simp only [ForwardMailbox.pushValue, ho', map_some,
        Option.some.injEq] at ht
      subst ht
      exact h.entered (h.mailbox.entered he)
        (he.tagged h.admitted (eq_of_admits ha)) (outbox_armWake _)
    · cases ht
      exact h
  | failMailbox =>
    cases ht
    exact h.entered h.mailbox.fail h.admitted (outbox_armWake _)
  | acknowledge batch =>
    cases ht
    unfold requestBatchAck
    simp only
    split <;> exact { h with }
  | store index =>
    obtain ⟨batch, -, rfl⟩ := map_eq_some_iff.1 ht
    exact { h with }
  | ready generation =>
    simp only [Page.next] at ht
    split at ht <;> cases ht
    · exact h
    · exact { h with }
  | started =>
    cases ht
    exact { h.advanced with }
  | handleAck =>
    simp only [Page.next] at ht
    split at ht <;> cases ht
    unfold Page.handleAck
    simp only
    repeat' split
    all_goals exact { h with }
  | handleReady =>
    simp only [Page.next] at ht
    split at ht <;> cases ht
    unfold Page.handleReady
    have hcn : Messages { s with readyPending := false } := { h with }
    simp only
    split
    · exact hcn.synced.frontendReady
    · exact hcn
  | sync =>
    cases ht
    exact h.synced
  | watchdog d ok =>
    simp only [Page.next] at ht
    split at ht <;> cases ht
    have hc := @WebviewOutbox.Sound.discardPending (Option Nat)
      s.pendingHostMessages
    have htg : Tagged s.pendingHostMessages.discardPending.all
        s.generation := tagged_discardPending
    cases d with
    | reloadOnce =>
      exact { h with outbox := hc, drained := fun _ => htg }
    | recreate =>
      unfold recover
      simp only
      split
      · exact { h with outbox := hc, drained := fun _ => htg }
      · exact { h with }
    | giveUp => exact { h with }
  | expire ok =>
    simp only [Page.next] at ht
    split at ht <;> cases ht
    exact h.failed ok
  | drain ok => exact h.drain ht
  | flush ok reload => exact h.flush hcr ht
  | reload =>
    simp only [Page.next] at ht
    split at ht <;> cases ht
    · exact h
    · exact { h with }
  | destroyed =>
    cases ht
    exact { h.advanced with }
  | createWindow =>
    simp only [Page.next] at ht
    split at ht <;> cases ht
    have hc : (if s.pendingHostMessages.transportFailed = true then
          s.pendingHostMessages.discardPending
        else s.pendingHostMessages).Sound
        ∧ (s.uiGeneration = s.generation →
          Tagged (if s.pendingHostMessages.transportFailed = true then
            s.pendingHostMessages.discardPending
          else s.pendingHostMessages).all s.generation) := by
      split
      · exact ⟨WebviewOutbox.Sound.discardPending,
          fun _ => tagged_discardPending⟩
      · exact ⟨h.outbox, h.drained⟩
    exact { h with outbox := hc.1, drained := hc.2 }
  | shutdown =>
    simp only [Page.next] at ht
    split at ht <;> cases ht
    · exact h
    · have hg : Messages { s with
          generation := s.generation + 1
          mailbox := s.mailbox.shutdown } :=
        h.overtaken { sound_new with } nofun
      exact { hg with }

-- ==== answers

/-- What the boolean stands for, and what the document has got. -/
structure Answers (s : Page) : Prop where
  flag : s.batchAcknowledged = true →
    s.pendingBatch ≠ none ∧ s.answered = true
  acking : ∀ batch ∈ s.acking, batch.sequence ≤ s.batchSequence
    ∧ (s.pendingBatch = some batch → s.answered = true)
  inPage : s.inPage = [] ∨ ∃ batch, s.inPage = [batch]
    ∧ (s.pendingBatch = some batch
        ∧ (s.uiGeneration = s.generation ∨ s.shuttingDown = true)
      ∨ s.pendingBatch = none ∧ s.pageReady = false)
  treated : ∀ x ∈ s.treated, x.2 = true

theorem answers_start : start.Answers where
  flag := nofun
  acking := nofun
  inPage := .inl rfl
  treated := nofun

section

variable (h : s.Answers)
include h

theorem Answers.dropped :
    Answers { s with pageReady := false }.dropBatch where
  flag := nofun
  acking := fun b hb => ⟨(h.acking b hb).1, nofun⟩
  inPage := h.inPage.imp_right fun ⟨b, hb, _⟩ =>
    ⟨b, hb, .inr ⟨rfl, rfl⟩⟩
  treated := h.treated

theorem Answers.failed (ok : Bool) :
    (s.failWebviewTransport ok).Answers := by
  unfold failWebviewTransport
  split
  · exact h
  · have hd := h.dropped
    exact { hd with
      flag := nofun
      inPage := hd.inPage.imp_right fun ⟨b, hb, _⟩ =>
        ⟨b, hb, .inr ⟨rfl, rfl⟩⟩ }

theorem Answers.advanced :
    Answers { s.advanceGeneration with inPage := [] } where
  flag := nofun
  acking := h.acking
  inPage := .inl rfl
  treated := h.treated

theorem Answers.synced : s.syncPageGeneration.Answers := by
  unfold syncPageGeneration
  split
  · exact h
  · exact { h.dropped with
      inPage := h.dropped.inPage.imp_right fun ⟨b, hb, _⟩ =>
        ⟨b, hb, .inr ⟨rfl, rfl⟩⟩ }

theorem Answers.frontendReady
    (hr : s.inPage = [] ∨ s.pendingBatch ≠ none ∨ s.shuttingDown = true) :
    s.frontendReady.Answers := by
  unfold Page.frontendReady
  split
  · exact h
  · have hi : ¬ s.shuttingDown = true → s.inPage = []
        ∨ ∃ b, s.inPage = [b]
          ∧ (s.pendingBatch = some b
              ∧ (s.uiGeneration = s.generation ∨ s.shuttingDown = true)
            ∨ s.pendingBatch = none ∧ true = false) := by
      intro hrn
      obtain hn | ⟨b, hb, ⟨hp, hgen⟩ | hg⟩ := h.inPage
      · exact .inl hn
      · exact .inr ⟨b, hb, .inl ⟨hp, hgen⟩⟩
      · obtain hn | hs | hd := hr
        · exact .inl hn
        · exact absurd hg.1 hs
        · exact absurd hd hrn
    simp only
    repeat' split
    all_goals first
      | exact { h with }
      | exact { h with inPage := hi ‹¬ s.shuttingDown = true› }

theorem Answers.handleReady (hcr : s.pendingBatch = none → s.inPage = []) :
    s.handleReady.Answers := by
  have hc : Answers { s with readyPending := false } := { h with }
  unfold Page.handleReady
  simp only
  split
  · refine hc.synced.frontendReady ?_
    unfold syncPageGeneration
    split
    · show s.inPage = [] ∨ s.pendingBatch ≠ none ∨ _
      by_cases hp : s.pendingBatch = none
      · exact .inl (hcr hp)
      · exact .inr (.inl hp)
    · next hb =>
      -- a batch of an older generation has lost its document
      obtain hn | ⟨batch, hbt, ⟨_, hs | hd⟩ | hg⟩ := h.inPage
      · exact .inl hn
      · exact absurd hs.symm hb
      · exact .inr (.inr hd)
      · exact .inl (hcr hg.1)
  · exact hc

theorem Answers.handleAck : s.handleAck.Answers := by
  unfold Page.handleAck
  simp only
  split
  · next batch hp =>
    split
    · next hmt =>
      have ha := (h.flag hmt.1).2
      refine ⟨nofun, fun b hb => ⟨(h.acking b hb).1, nofun⟩, ?_, ?_⟩
      · obtain hn | ⟨b, hb, ⟨hs, -⟩ | ⟨hg, -⟩⟩ := h.inPage
        · exact .inl (by simp [dropBatch, clearBatch, hn])
        · cases hp.symm.trans hs
          exact .inl (by simp [dropBatch, clearBatch, hb])
        · cases hp.symm.trans hg
      · intro x hx
        obtain hold | hnew := mem_append.1 hx
        · exact h.treated x hold
        · rw [mem_singleton.1 hnew]
          exact ha
    · exact { h with flag := nofun }
  · exact { h with flag := nofun }

theorem Answers.stored {i : Nat} {ba : BatchId}
    (hbt : s.acking[i]? = some ba)
    (hc : s.pendingBatch = some ba) :
    Answers { s with
      acking := s.acking.eraseIdx i
      batchAcknowledged := true
      batchAckWakePending := true } := by
  have ha := (h.acking ba (mem_of_getElem? hbt)).2 hc
  exact { h with
    flag := fun _ => ⟨by rw [hc]; nofun, ha⟩
    acking := fun b hb => h.acking b (mem_of_mem_eraseIdx hb) }

theorem Answers.acknowledged (batch : BatchId) :
    (s.requestBatchAck batch).Answers := by
  have han : ∀ b : BatchId, s.pendingBatch = some b →
      s.answered = true →
        (s.answered || s.pendingBatch == some batch) = true := by
    intro b _ ha
    rw [ha, Bool.true_or]
  have hn : Answers { s with
      answered := s.answered || s.pendingBatch == some batch } :=
    { h with
      flag := fun hf => ⟨(h.flag hf).1, by
        rw [(h.flag hf).2, Bool.true_or]⟩
      acking := fun b hb => ⟨(h.acking b hb).1, fun hp =>
        han b hp ((h.acking b hb).2 hp)⟩ }
  unfold requestBatchAck
  simp only
  split
  · exact hn
  · next hmt =>
    simp only [not_or, Decidable.not_not] at hmt
    refine { hn with acking := ?_ }
    intro b hb
    obtain hold | hnew := mem_append.1 hb
    · exact hn.acking b hold
    · rw [mem_singleton.1 hnew]
      refine ⟨Nat.le_of_eq hmt.2, fun hp => ?_⟩
      have hs : s.pendingBatch = some batch := hp
      rw [hs, beq_self_eq_true, Bool.or_true]

theorem Answers.flush {r : Bool} (hc : s.uiGeneration = s.generation)
    (ht : s.flush ok r = some t) : t.Answers := by
  unfold Page.flush at ht
  split at ht
  · cases ht
    exact h
  · next hd =>
    simp only [Bool.or_eq_true, not_or, Bool.not_eq_true',
      Bool.not_eq_true, Bool.not_eq_false] at hd
    obtain ⟨⟨⟨⟨⟨hr, -⟩, hid⟩, -⟩, -⟩, -⟩ := hd
    have hp : s.pendingBatch = none := by simpa using hid
    have hem : s.inPage = [] := by
      obtain hn | ⟨b, hb, ⟨hsm, -⟩ | ⟨-, hnot⟩⟩ := h.inPage
      · exact hn
      · cases hp.symm.trans hsm
      · exact absurd (hr.symm.trans hnot) nofun
    have hf : s.batchAcknowledged = false := by
      by_contra htr
      exact (h.flag (by simpa using htr)).1 hp
    obtain ⟨⟨batch, ou⟩, -, rfl⟩ := map_eq_some_iff.1 ht
    simp only
    have hs : Answers { s with
        pendingHostMessages := ou
        batchSequence := s.batchSequence + 1
        pendingBatch := some ⟨s.generation, s.batchSequence + 1⟩
        answered := false } := by
      refine ⟨?_, ?_, .inl hem, h.treated⟩
      · intro htr
        exact absurd (hf.symm.trans htr) nofun
      · intro b hb
        have hold := (h.acking b hb).1
        refine ⟨Nat.le_succ_of_le hold, ?_⟩
        rintro ⟨⟩
        exact absurd hold (Nat.not_succ_le_self _)
    split
    · refine Answers.failed ?_ r
      exact { h with }
    · split
      · refine { hs with inPage := .inr ⟨⟨s.generation,
          s.batchSequence + 1⟩, ?_, .inl ⟨rfl, .inl hc⟩⟩ }
        rw [hem, nil_append]
      · exact hs.failed r

omit h in
theorem Answers.emitAll
    {me : List (QueuedWebviewMessage (Option Nat))} :
    ∀ {s : Page}, s.Answers → emitAll ok me s = some t → t.Answers := by
  induction me with
  | nil =>
    rintro s h ⟨⟩
    exact h
  | cons m rest ih =>
    intro s h ht
    obtain ⟨u, hu, hr⟩ := bind_eq_some_iff.1 ht
    obtain ⟨outbox, -, rfl⟩ := map_eq_some_iff.1 hu
    refine ih ?_ hr
    split
    · refine Answers.failed ?_ ok
      exact { h with }
    · exact { h with }

theorem Answers.drain (ht : s.drain ok = some t) : t.Answers := by
  obtain ⟨⟨mailbox, messages, failed, wake⟩, -, hr⟩ := bind_eq_some_iff.1 ht
  obtain ⟨outbox, -, ha⟩ := bind_eq_some_iff.1 hr
  split at ha
  · refine Answers.emitAll (Answers.failed ?_ ok) ha
    exact { h with }
  · refine Answers.emitAll ?_ ha
    exact { h with }

theorem Answers.next {a : Action} (hc : s.Careful a)
    (ht : s.next parse a = some t) : t.Answers := by
  cases a with
  | post body generation =>
    simp only [Page.next] at ht
    split at ht
    · obtain ⟨result, -, rfl⟩ := map_eq_some_iff.1 ht
      exact { h with }
    · cases ht
      exact h
  | postValue value generation =>
    simp only [Page.next] at ht
    split at ht
    · obtain ⟨result, -, rfl⟩ := map_eq_some_iff.1 ht
      exact { h with }
    · cases ht
      exact h
  | failMailbox =>
    cases ht
    exact { h with }
  | acknowledge batch =>
    cases ht
    exact h.acknowledged batch
  | store index =>
    obtain ⟨batch, hb, rfl⟩ := map_eq_some_iff.1 ht
    exact h.stored hb (hc batch hb)
  | ready generation =>
    simp only [Page.next] at ht
    split at ht <;> cases ht
    · exact h
    · exact { h with }
  | started =>
    cases ht
    exact h.advanced
  | handleAck =>
    simp only [Page.next] at ht
    split at ht <;> cases ht
    exact h.handleAck
  | handleReady =>
    simp only [Page.next] at ht
    split at ht <;> cases ht
    exact h.handleReady hc
  | sync =>
    cases ht
    exact h.synced
  | watchdog d ok =>
    simp only [Page.next] at ht
    split at ht <;> cases ht
    have hd := h.dropped
    cases d with
    | reloadOnce => exact { hd with }
    | recreate =>
      unfold recover
      simp only
      split
      · exact { hd with inPage := .inl rfl }
      · exact { h with inPage := .inl rfl }
    | giveUp => exact { hd with }
  | expire ok =>
    simp only [Page.next] at ht
    split at ht <;> cases ht
    exact h.failed ok
  | drain ok => exact h.drain ht
  | flush ok reload => exact h.flush hc ht
  | reload =>
    simp only [Page.next] at ht
    split at ht <;> cases ht
    · exact h
    · exact h.dropped
  | destroyed =>
    cases ht
    exact { h.advanced with }
  | createWindow =>
    simp only [Page.next] at ht
    split at ht <;> cases ht
    exact { h with inPage := .inl rfl }
  | shutdown =>
    simp only [Page.next] at ht
    split at ht <;> cases ht
    · exact h
    · refine { h with inPage := h.inPage.imp_right ?_ }
      rintro ⟨batch, hb, ⟨hp, -⟩ | hg⟩
      · exact ⟨batch, hb, .inl ⟨hp, .inr rfl⟩⟩
      · exact ⟨batch, hb, .inr hg⟩

end

-- ==== the law

structure Acknowledged (s : Page) : Prop where
  /-- What was treated as acknowledged had been, while it was pending. -/
  answered : ∀ x ∈ s.treated, x.2 = true
  single : s.inPage.length ≤ 1
  /-- A message goes to the generation it was admitted for. -/
  own : ∀ e ∈ s.evaluated, ∀ g, some g ∈ e.2 → g = e.1.generation

/-- In every run whose steps meet the condition, batches are acknowledged
by their own acknowledgement, one at a time, and messages stay in their
generation. -/
theorem batches_acknowledged (hparse : WebviewOutbox.ReadsLiterally parse)
    (h : Run (fun s a t => s.next parse a = some t) Careful start s) :
    s.Acknowledged := by
  have hs : start.Messages ∧ start.Answers := ⟨messages_start, answers_start⟩
  have hinv : s.Messages ∧ s.Answers := by
    refine @Run.invariant _ _ _ _ _ _ (fun s => s.Messages ∧ s.Answers) h
      hs ?_
    rintro s a t ⟨hms, ha⟩ hc ht
    exact ⟨hms.next hparse hc ht, ha.next hc ht⟩
  refine ⟨hinv.2.treated, ?_, hinv.1.own⟩
  obtain hn | ⟨batch, hb, -⟩ := hinv.2.inPage
  · rw [hn]
    exact Nat.zero_le _
  · rw [hb]
    exact Nat.le_refl _

/-- The steps that are checked to meet the condition. -/
def careful (s : Page) : Action → Bool
  | .store index => (s.acking[index]?).all fun batch =>
    s.pendingBatch == some batch
  | .handleReady => s.pendingBatch.isSome || s.inPage.isEmpty
  | .flush _ _ => s.uiGeneration == s.generation
  | _ => true

theorem careful_of_check (s : Page) (a : Action) (h : s.careful a = true) :
    s.Careful a := by
  cases a with
  | store index =>
    intro batch hb
    simp only [careful, hb, all_some, beq_iff_eq] at h
    exact h
  | handleReady =>
    intro hn
    simpa [careful, hn] using h
  | flush ok reload => exact beq_iff_eq.1 h
  | _ => trivial

/-- A page is loaded and gets a first batch with one message. -/
def delivers (body : String) : List Action :=
  [.createWindow, .started, .sync, .ready 1, .handleReady,
    .post body (some 1), .drain true, .flush true true]

/-- A parser on texts that are no JSON. -/
def readsNothing (_ : String) : Option Json := none

theorem readsLiterally_readsNothing :
    WebviewOutbox.ReadsLiterally readsNothing := by
  intro text value h
  cases h

/-- Two batches are delivered, and the first is acknowledged twice while
it is pending. -/
theorem batches_acknowledged_twice :
    ∃ s : Page, s.Acknowledged ∧ s.treated = [(⟨1, 1⟩, true)]
      ∧ s.evaluated = [(⟨1, 1⟩, [some 1]), (⟨1, 2⟩, [some 1])] := by
  have hex : ((runWhile (Page.next readsNothing) careful start
      (delivers "a" ++ [.acknowledge ⟨1, 1⟩, .store 0,
        .acknowledge ⟨1, 1⟩, .store 0, .handleAck,
        .post "b" (some 1), .drain true, .flush true true])).map
      fun s => (s.treated, s.evaluated))
      = some ([(⟨1, 1⟩, true)],
        [(⟨1, 1⟩, [some 1]), (⟨1, 2⟩, [some 1])]) := by
    decide +kernel
  obtain ⟨s, hs, hres⟩ := map_eq_some_iff.1 hex
  have hrun := Run.of_runWhile careful_of_check .refl _ hs
  exact ⟨s, batches_acknowledged readsLiterally_readsNothing hrun,
    Prod.mk.inj hres⟩

/-- The page repeats the acknowledgement of the first batch after that was
treated, and the second batch, evaluated after it, is taken as
acknowledged. -/
theorem repeated_ack_answers_next_batch :
    ¬ ∀ s : Page,
      Run (fun s a t => s.next readsNothing a = some t)
        (fun _ _ => True) start s →
        ∀ x ∈ s.treated, x.2 = true := by
  intro h
  have hex : ((runWhile (Page.next readsNothing) (fun _ _ => true) start
      (delivers "a" ++ [.acknowledge ⟨1, 1⟩, .store 0, .handleAck,
        .acknowledge ⟨1, 1⟩, .store 0,
        .post "b" (some 1), .sync, .drain true, .flush true true,
        .handleAck])).map (·.treated))
      = some [(⟨1, 1⟩, true), (⟨1, 2⟩, false)] := by
    decide +kernel
  obtain ⟨s, hs, hres⟩ := map_eq_some_iff.1 hex
  have hrun := Run.of_runWhile (fun _ _ _ => trivial) .refl _ hs
  have ha := h s hrun (⟨1, 2⟩, false) (by simp [hres])
  cases ha

end Page

end TikTools.Desktop
