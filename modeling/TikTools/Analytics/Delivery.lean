/-
What the analytics writer owes, and the run invariant.

`Fits` says what each phase of the thread tells about the rest of the
state, `Sound` adds the equation between what was accepted, applied and
is still owed, and the accounts of the process. Both are kept by every
step that meets `Handshake`; the only two steps it excludes are a
recovery file cut from the queue while a submit is past its second look
at the stop flag, and a recovery file that could not be written.
-/
import TikTools.Analytics.Writer
import Mathlib.Data.List.Perm.Basic

namespace TikTools.Analytics

open TikTools.Lib List Option

variable {α : Type}

-- ==== what is owed

/-- The records of the batches whose ids are not in the table. -/
def unapplied (ids : List Nat) (batches : List (Batch α)) :
    List (Submission α) :=
  batches.flatMap fun batch =>
    if batch.id ∈ ids then [] else batch.records

/-- The records that the thread holds and has not applied. -/
def Phase.inHand (ids : List Nat) : Phase α → List (Submission α)
  | .collecting records => records
  | .applying batch | .deleting batch | .failed batch =>
    unapplied ids [batch]
  | .draining batch queued | .saving batch queued =>
    unapplied ids [batch] ++ queued
  | _ => []

/-- How many records the thread has applied and not counted off. -/
def Phase.due (ids : List Nat) : Phase α → Nat
  | .applying batch | .deleting batch | .failed batch
  | .draining batch _ | .saving batch _ =>
    if batch.id ∈ ids then batch.records.length else 0
  | .settling batch => batch.records.length
  | _ => 0

namespace Writer

variable (s : Writer α)

def owed : List (Submission α) :=
  unapplied s.ids s.file ++ (s.phase.inHand s.ids ++ s.queue)

/-- The submits between their count and their send. -/
def sending : Nat := s.submits.countP fun x => x.stage == .counted

/-- The numbers of all submissions that are not cancelled. -/
def numbers : List Nat :=
  s.accepted.map (·.number)
    ++ (s.refused ++ s.submits.map fun x => x.submission.number)

end Writer

variable {batch : Batch α} {done reported : Bool} {rest : List (Batch α)}
  {ids : List Nat} {id : Nat}

theorem unapplied_append {xs ys : List (Batch α)} :
    unapplied ids (xs ++ ys) = unapplied ids xs ++ unapplied ids ys :=
  flatMap_append

theorem unapplied_cons :
    unapplied ids (batch :: rest)
      = (if batch.id ∈ ids then [] else batch.records)
        ++ unapplied ids rest :=
  flatMap_cons

variable {batches : List (Batch α)}

theorem unapplied_eq_nil
    (h : ∀ batch ∈ batches, batch.id ∈ ids) : unapplied ids batches = [] := by
  refine flatMap_eq_nil_iff.2 fun batch hb => ?_
  rw [if_pos (h batch hb)]

theorem unapplied_new_id (h : ∀ batch ∈ batches, batch.id ≠ id) :
    unapplied (ids ++ [id]) batches = unapplied ids batches := by
  refine flatMap_congr fun batch hb => ?_
  have hiff : batch.id ∈ ids ++ [id] ↔ batch.id ∈ ids := by
    simp [h batch hb]
  simp only [hiff]

-- ==== the invariant

namespace Writer

/-- The queue is empty and stays so. -/
structure Sealed (s : Writer α) : Prop where
  queue : s.queue = []
  closed : s.ready = true → s.closed = true
  submits : ∀ x ∈ s.submits, x.stage ≠ .checked ∧ x.stage ≠ .counted

/-- Nothing was admitted yet. -/
structure Early (s : Writer α) : Prop where
  queue : s.queue = []
  submits : ∀ x ∈ s.submits, x.stage = .waiting
  accepted : s.acceptedHere = 0
  applied : s.appliedHere = 0
  pending : s.pending = 0
  uncounted : s.uncounted = 0

/-- What the phase tells about the rest of the state. -/
def Fits (s : Writer α) : Phase α → Prop
  | .loading => s.ready = false
  | .opening recovery => s.ready = false ∧ recovery = s.file
  | .replaying recovery rest =>
    s.ready = false ∧ recovery = s.file
      ∧ ∃ done, s.file = done ++ rest ∧ ∀ batch ∈ done, batch.id ∈ s.ids
  | .retiring => s.ready = false ∧ ∀ batch ∈ s.file, batch.id ∈ s.ids
  | .clearing => s.ready = false ∧ s.file = []
  | .polling | .collecting _ | .applying _ | .settling _ | .failed _ =>
    s.ready = true ∧ s.file = []
  | .deleting batch =>
    s.ready = true ∧ s.file = [] ∧ batch.id ∈ s.ids
  | .draining _ _ => s.ready = true ∧ s.file = [] ∧ s.closed = true
  | .saving _ _ => s.ready = true ∧ s.file = [] ∧ s.Sealed
  | .gone => s.Sealed

/-- The accounts of the process while its thread runs. -/
structure Balanced (s : Writer α) : Prop where
  here : s.acceptedHere
    = s.appliedHere + (s.phase.inHand s.ids).length + s.queue.length
  uncounted : s.uncounted = s.phase.due s.ids

structure Sound (s : Writer α) : Prop where
  conserved : s.accepted = s.applied ++ s.owed
  ids : (s.file.map (·.id)).Nodup
  fits : s.Fits s.phase
  early : s.ready = false → s.Early
  closed : s.closed = true → s.stop = true
  balanced : s.isGone = false → s.Balanced
  pending : s.pending + s.appliedHere
    = s.acceptedHere + s.sending + s.uncounted

/-- The thread stops emptying the queue only when no submit is past its
second look at the stop flag, and a recovery file that is written is
written. -/
def Handshake (s : Writer α) : Action α → Prop
  | .work done _ _ =>
    match s.phase with
    | .draining _ _ =>
      s.queue = [] → ∀ x ∈ s.submits, x.stage ≠ .checked ∧ x.stage ≠ .counted
    | .saving _ _ => done = true
    | _ => True
  | _ => True

theorem sound_start : (start : Writer α).Sound where
  conserved := rfl
  ids := nodup_nil
  fits := rfl
  early := fun _ =>
    { queue := rfl, submits := by simp [start]
      accepted := rfl, applied := rfl, pending := rfl, uncounted := rfl }
  closed := nofun
  balanced := fun _ => ⟨rfl, rfl⟩
  pending := rfl

-- ==== the submits

variable {s t : Writer α}

variable {phase : Phase α}

theorem Fits.of_same (h : s.Fits phase) (hi : t.ids = s.ids)
    (hf : t.file = s.file) (hr : t.ready = s.ready)
    (hc : s.closed = true → t.closed = true)
    (hs : s.Sealed → t.Sealed) : t.Fits phase := by
  cases phase <;> simp only [Fits, hi, hf, hr] at h ⊢
  case draining => exact ⟨h.1, h.2.1, hc h.2.2⟩
  case saving => exact ⟨h.1, h.2.1, hs h.2.2⟩
  case gone => exact hs h
  all_goals exact h

theorem Sound.submits_changed (h : s.Sound)
    (hsm : t = { s with
      submits := t.submits, refused := t.refused
      nextNumber := t.nextNumber })
    (hw : (∀ x ∈ s.submits, x.stage = .waiting) → s.ready = false →
      ∀ x ∈ t.submits, x.stage = .waiting)
    (hsl : s.Sealed →
      ∀ x ∈ t.submits, x.stage ≠ .checked ∧ x.stage ≠ .counted)
    (hsn : t.sending = s.sending) : t.Sound := by
  obtain ⟨hcn, hi, hf, hea, hc, hb, hp⟩ := h
  generalize hsb : t.submits = submits at *
  generalize hrf : t.refused = refused at *
  generalize hn : t.nextNumber = nextNumber at *
  subst hsm
  refine ⟨hcn, hi, ?_, ?_, hc, ?_, ?_⟩
  · exact hf.of_same rfl rfl rfl id fun hs =>
      ⟨hs.queue, hs.closed, hsl hs⟩
  · exact fun hr =>
      { hea hr with
        submits := hw (hea hr).submits hr }
  · exact fun hg => ⟨(hb hg).here, (hb hg).uncounted⟩
  · rw [hsn]
    exact hp

variable {index : Nat} {x : Submit α}

theorem submits_perm (hx : s.submits[index]? = some x) :
    s.submits.Perm (x :: s.submits.eraseIdx index) := by
  obtain ⟨hlt, rfl⟩ := List.getElem?_eq_some_iff.1 hx
  exact (List.getElem_cons_eraseIdx_perm hlt).symm

theorem advance_perm (hx : s.submits[index]? = some x) (stage : SubmitStage) :
    (s.advance index x stage).submits.Perm
      ({ x with stage } :: s.submits.eraseIdx index) := by
  obtain ⟨hlt, rfl⟩ := List.getElem?_eq_some_iff.1 hx
  exact List.set_perm_cons_eraseIdx hlt _

theorem sending_of_perm {rest : List (Submit α)}
    (h : s.submits.Perm (x :: rest)) :
    s.sending = rest.countP (fun x => x.stage == .counted)
      + if x.stage = .counted then 1 else 0 := by
  unfold sending
  rw [h.countP_eq, countP_cons]
  simp only [beq_iff_eq]

theorem Sound.dropped (h : s.Sound) (hx : s.submits[index]? = some x)
    (hst : x.stage ≠ .counted) (hsm : t = { s with
      submits := s.submits.eraseIdx index, refused := t.refused }) :
    t.Sound := by
  have hsub : ∀ y ∈ t.submits, y ∈ s.submits := by
    rw [hsm]
    exact fun y => mem_of_mem_eraseIdx
  have hsb : t.submits = s.submits.eraseIdx index := by rw [hsm]
  refine h.submits_changed (by rw [hsm]) ?_ ?_ ?_
  · exact fun ha _ y hy => ha y (hsub y hy)
  · exact fun hs y hy => hs.submits y (hsub y hy)
  · rw [sending_of_perm (submits_perm hx), if_neg hst, sending, hsb]
    rfl

variable {stage : SubmitStage}

theorem Sound.advanced (h : s.Sound) (hx : s.submits[index]? = some x)
    (hr : s.ready = true)
    (hst : s.Sealed → stage ≠ .checked ∧ stage ≠ .counted)
    (hc : x.stage ≠ .counted ∧ stage ≠ .counted) :
    (s.advance index x stage).Sound := by
  have hmem : ∀ y ∈ (s.advance index x stage).submits,
      y = { x with stage } ∨ y ∈ s.submits := fun y hy =>
    (mem_or_eq_of_mem_set hy).symm
  refine h.submits_changed rfl ?_ ?_ ?_
  · intro _ hf
    rw [hr] at hf
    cases hf
  · intro hs y hy
    obtain rfl | hold := hmem y hy
    · exact hst hs
    · exact hs.submits y hold
  · rw [sending_of_perm (submits_perm hx), if_neg hc.1,
      sending_of_perm (advance_perm hx stage), if_neg hc.2]

theorem Sound.ready_of_admitted (h : s.Sound) (hx : x ∈ s.submits)
    (hs : x.stage ≠ .waiting) : s.ready = true := by
  by_contra hr
  exact hs ((h.early (by simpa using hr)).submits x hx)

theorem not_sealed (hx : x ∈ s.submits)
    (hst : x.stage = .checked ∨ x.stage = .counted) :
    ¬ s.Sealed := fun hs =>
  hst.elim (hs.submits x hx).1 (hs.submits x hx).2

theorem Sound.not_gone (h : s.Sound) (hs : ¬ s.Sealed) :
    s.isGone = false := by
  have hf := h.fits
  unfold isGone
  split
  · next hphase =>
    rw [hphase] at hf
    exact absurd hf hs
  · rfl

theorem Sound.counted (h : s.Sound) (hx : s.submits[index]? = some x)
    (hst : x.stage = .checked) :
    Sound { s.advance index x .counted with pending := s.pending + 1 } := by
  have hmem : x ∈ s.submits := mem_of_getElem? hx
  have hr := h.ready_of_admitted hmem (by rw [hst]; nofun)
  have hsl := not_sealed hmem (.inl hst)
  have hsn : (s.advance index x .counted).sending = s.sending + 1 := by
    rw [sending_of_perm (submits_perm hx), if_neg (by rw [hst]; nofun),
      sending_of_perm (advance_perm hx .counted), if_pos rfl]
  have hp := h.pending
  refine ⟨h.conserved, h.ids, ?_, ?_, h.closed, ?_, ?_⟩
  · exact h.fits.of_same rfl rfl rfl id fun hs => absurd hs hsl
  · exact fun hf => absurd (hr.symm.trans hf) nofun
  · exact fun hg => ⟨(h.balanced hg).here, (h.balanced hg).uncounted⟩
  · show s.pending + 1 + s.appliedHere
      = s.acceptedHere + (s.advance index x .counted).sending + s.uncounted
    omega

theorem Sound.sent (h : s.Sound) (hx : s.submits[index]? = some x)
    (hst : x.stage = .counted) : (s.send index x).Sound := by
  have hmem : x ∈ s.submits := mem_of_getElem? hx
  have hr := h.ready_of_admitted hmem (by rw [hst]; nofun)
  have hsl := not_sealed hmem (.inr hst)
  have hg := h.not_gone hsl
  have hq : (s.send index x).queue = s.queue ++ [x.submission] := by
    simp [send, hg]
  have hsn : s.sending = (s.send index x).sending + 1 := by
    rw [sending_of_perm (submits_perm hx), if_pos hst]
    rfl
  have hh := (h.balanced hg).here
  have hp := h.pending
  refine ⟨?_, h.ids, ?_, ?_, h.closed, ?_, ?_⟩
  · show s.accepted ++ [x.submission] = s.applied
      ++ (unapplied s.ids s.file
        ++ (s.phase.inHand s.ids ++ (s.send index x).queue))
    rw [hq, h.conserved]
    simp only [owed, append_assoc]
  · exact h.fits.of_same rfl rfl rfl id fun hs => absurd hs hsl
  · exact fun hf => absurd (hr.symm.trans hf) nofun
  · refine fun _ => ⟨?_, (h.balanced hg).uncounted⟩
    show s.acceptedHere + 1 = s.appliedHere
      + (s.phase.inHand s.ids).length + (s.send index x).queue.length
    rw [hq, length_append, length_singleton]
    omega
  · show s.pending + s.appliedHere
      = s.acceptedHere + 1 + (s.send index x).sending + s.uncounted
    omega

theorem Sound.proceed (h : s.Sound) (hx : s.submits[index]? = some x)
    (ht : s.proceed index x = some t) : t.Sound := by
  have hmem : x ∈ s.submits := mem_of_getElem? hx
  unfold Writer.proceed at ht
  split at ht
  · next hst =>
    have hc : x.stage ≠ .counted := by rw [hst]; nofun
    split at ht
    · next hr =>
      split at ht
      · cases ht
        exact h.dropped hx hc rfl
      · split at ht
        · cases ht
          exact h.advanced hx hr (fun _ => ⟨nofun, nofun⟩) ⟨hc, nofun⟩
        · cases ht
    · split at ht
      · cases ht
        exact h.dropped hx hc rfl
      · cases ht
  · next hst =>
    have hc : x.stage ≠ .counted := by rw [hst]; nofun
    have hr := h.ready_of_admitted hmem (by rw [hst]; nofun)
    split at ht
    · cases ht
      exact h.dropped hx hc rfl
    · next hsp =>
      cases ht
      -- a sealed queue was closed, and that is after a stop
      refine h.advanced hx hr (fun hs => ?_) ⟨hc, nofun⟩
      exact absurd (h.closed (hs.closed hr)) hsp
  · next hst =>
    cases ht
    exact h.counted hx hst
  · next hst =>
    cases ht
    exact h.sent hx hst

-- ==== the thread

section

variable (h : s.Sound)
include h

theorem Sound.goTo (hg : s.isGone = false)
    (hf : s.Fits phase) (hh : phase.inHand s.ids = s.phase.inHand s.ids)
    (hd : phase.due s.ids = s.phase.due s.ids) : (s.goTo phase).Sound := by
  have hbal := h.balanced hg
  refine ⟨?_, h.ids, ?_, ?_, h.closed, ?_, h.pending⟩
  · show s.accepted = s.applied
      ++ (unapplied s.ids s.file ++ (phase.inHand s.ids ++ s.queue))
    rw [hh]
    exact h.conserved
  · exact hf.of_same rfl rfl rfl id fun hs =>
      ⟨hs.queue, hs.closed, hs.submits⟩
  · exact fun hr => { h.early hr with }
  · refine fun _ => ⟨?_, ?_⟩
    · show s.acceptedHere
        = s.appliedHere + (phase.inHand s.ids).length + s.queue.length
      rw [hh]
      exact hbal.here
    · show s.uncounted = phase.due s.ids
      rw [hd]
      exact hbal.uncounted

theorem Sound.observeStop : s.observeStop.Sound := by
  have hcl : s.closed = true → (s.closed || s.stop) = true := by
    intro hc
    rw [hc, Bool.true_or]
  refine ⟨h.conserved, h.ids, ?_, ?_, ?_, ?_, h.pending⟩
  · exact h.fits.of_same rfl rfl rfl hcl fun hs =>
      ⟨hs.queue, fun hr => hcl (hs.closed hr), hs.submits⟩
  · exact fun hr => { h.early hr with }
  · intro hc
    obtain ho | hst := Bool.or_eq_true_iff.1 hc
    · exact h.closed ho
    · exact hst
  · exact fun hg => ⟨(h.balanced hg).here, (h.balanced hg).uncounted⟩

theorem Sound.taken (hg : s.isGone = false)
    {x : Submission α} {queue : List (Submission α)}
    (hq : s.queue = x :: queue) (hf : s.Fits phase)
    (hh : phase.inHand s.ids = s.phase.inHand s.ids ++ [x])
    (hdue : phase.due s.ids = s.phase.due s.ids) :
    Sound { s with queue, phase } := by
  have hbal := h.balanced hg
  have hhr := hbal.here
  have hc := h.conserved
  refine ⟨?_, h.ids, ?_, ?_, h.closed, ?_, h.pending⟩
  · show s.accepted = s.applied
      ++ (unapplied s.ids s.file ++ (phase.inHand s.ids ++ queue))
    rw [hc, owed, hq, hh]
    simp only [append_assoc, singleton_append]
  · refine hf.of_same rfl rfl rfl id fun hs => ?_
    have hnil := hs.queue
    rw [hq] at hnil
    cases hnil
  · intro hr
    have hnil := (h.early hr).queue
    rw [hq] at hnil
    cases hnil
  · refine fun _ => ⟨?_, ?_⟩
    · show s.acceptedHere
        = s.appliedHere + (phase.inHand s.ids).length + queue.length
      rw [hq, length_cons] at hhr
      rw [hh, length_append, length_singleton]
      omega
    · show s.uncounted = phase.due s.ids
      rw [hdue]
      exact hbal.uncounted

theorem Sound.committed (hphase : s.phase = .applying batch) :
    (s.commit batch true).Sound := by
  by_cases hid : batch.id ∈ s.ids
  · rw [commit, if_pos hid]
    exact h
  have hg : s.isGone = false := by rw [isGone, hphase]
  obtain ⟨hr, hf⟩ : s.ready = true ∧ s.file = [] := by
    have hft := h.fits
    rw [hphase] at hft
    exact hft
  have hh : s.phase.inHand s.ids = batch.records := by
    rw [hphase]
    simp [Phase.inHand, unapplied, hid]
  have hh' : s.phase.inHand (s.ids ++ [batch.id]) = [] := by
    rw [hphase]
    simp [Phase.inHand, unapplied]
  have hc : s.accepted
      = s.applied
        ++ (unapplied s.ids s.file ++ (batch.records ++ s.queue)) := by
    rw [← hh]
    exact h.conserved
  have hhr := (h.balanced hg).here
  have hu := (h.balanced hg).uncounted
  have hp := h.pending
  rw [hphase, Phase.due, if_neg hid] at hu
  rw [hh] at hhr
  rw [commit, if_neg hid]
  refine ⟨?_, h.ids, ?_, ?_, h.closed, ?_, ?_⟩
  · show s.accepted = s.applied ++ batch.records
      ++ (unapplied (s.ids ++ [batch.id]) s.file
        ++ (s.phase.inHand (s.ids ++ [batch.id]) ++ s.queue))
    rw [hc, hh', hf]
    simp [unapplied]
  · show Fits _ s.phase
    rw [hphase]
    exact ⟨hr, hf⟩
  · exact fun hfl => absurd (hr.symm.trans hfl) nofun
  · refine fun _ => ⟨?_, ?_⟩
    · show s.acceptedHere = s.appliedHere + batch.records.length
        + (s.phase.inHand (s.ids ++ [batch.id])).length + s.queue.length
      rw [hh', length_nil]
      omega
    · show batch.records.length = s.phase.due (s.ids ++ [batch.id])
      rw [hphase]
      simp [Phase.due]
  · show s.pending + (s.appliedHere + batch.records.length)
      = s.acceptedHere + s.sending + batch.records.length
    omega

theorem Sound.replayed {r : List (Batch α)}
    (hphase : s.phase = .replaying r (batch :: rest)) :
    (s.commit batch false).Sound := by
  by_cases hid : batch.id ∈ s.ids
  · rw [commit, if_pos hid]
    exact h
  have hg : s.isGone = false := by rw [isGone, hphase]
  have hh : ∀ ids, s.phase.inHand ids = [] := by
    rw [hphase]
    exact fun _ => rfl
  obtain ⟨hr, hrc, done, hf, hd⟩ :
      s.Fits (.replaying r (batch :: rest)) := hphase ▸ h.fits
  -- the file names a batch once, so what follows is still to be applied
  have hrs : ∀ o ∈ rest, o.id ≠ batch.id := by
    have hn := h.ids
    rw [hf, map_append, map_cons] at hn
    have ht := (nodup_append.1 hn).2.1
    intro o ho heq
    exact (nodup_cons.1 ht).1 (heq ▸ mem_map_of_mem ho)
  have hold : unapplied s.ids s.file
      = batch.records ++ unapplied s.ids rest := by
    rw [hf, unapplied_append, unapplied_eq_nil hd, nil_append,
      unapplied_cons, if_neg hid]
  have hnew : unapplied (s.ids ++ [batch.id]) s.file
      = unapplied s.ids rest := by
    rw [hf, unapplied_append, unapplied_cons, unapplied_new_id hrs,
      unapplied_eq_nil fun b hb => mem_append_left _ (hd b hb),
      if_pos (mem_append_right _ (mem_singleton.2 rfl))]
    rfl
  rw [commit, if_neg hid]
  refine ⟨?_, h.ids, ?_, ?_, h.closed, ?_, h.pending⟩
  · show s.accepted = s.applied ++ batch.records
      ++ (unapplied (s.ids ++ [batch.id]) s.file
        ++ (s.phase.inHand (s.ids ++ [batch.id]) ++ s.queue))
    rw [h.conserved, owed, hh, hh, hold, hnew]
    simp only [append_assoc]
  · show Fits _ s.phase
    rw [hphase]
    exact ⟨hr, hrc, done, hf, fun b hb =>
      mem_append_left _ (hd b hb)⟩
  · exact fun hr => { h.early hr with }
  · refine fun _ => ⟨?_, ?_⟩
    · show s.acceptedHere = s.appliedHere
        + (s.phase.inHand (s.ids ++ [batch.id])).length + s.queue.length
      rw [hh, ← hh s.ids]
      exact (h.balanced hg).here
    · show s.uncounted = s.phase.due (s.ids ++ [batch.id])
      have hu := (h.balanced hg).uncounted
      rw [hphase] at hu ⊢
      exact hu

theorem Sound.retired (hphase : s.phase = .retiring) :
    Sound { s with file := [], phase := .clearing } := by
  obtain ⟨hr, happ⟩ : s.Fits .retiring := hphase ▸ h.fits
  have hea := h.early hr
  have hc := h.conserved
  rw [owed, unapplied_eq_nil happ, hphase, hea.queue] at hc
  refine ⟨?_, nodup_nil, ⟨hr, rfl⟩, ?_, h.closed, ?_, h.pending⟩
  · rw [hc, owed, hea.queue]
    rfl
  · exact fun _ => { hea with }
  · refine fun _ => ⟨?_, hea.uncounted⟩
    rw [hea.accepted, hea.applied, hea.queue]
    rfl

theorem Sound.cleared (hphase : s.phase = .clearing) :
    Sound { s with ids := [], ready := true, phase := .polling } := by
  obtain ⟨hr, hf⟩ : s.Fits .clearing := hphase ▸ h.fits
  have hea := h.early hr
  have hc := h.conserved
  rw [owed, hphase, hf] at hc
  refine ⟨?_, h.ids, ⟨rfl, hf⟩, nofun, h.closed, ?_, h.pending⟩
  · rw [hc, owed, hf]
    rfl
  · refine fun _ => ⟨?_, hea.uncounted⟩
    rw [hea.accepted, hea.applied, hea.queue]
    rfl

theorem Sound.deleted (hphase : s.phase = .deleting batch) :
    Sound { s with
      ids := s.ids.filter (· ≠ batch.id), phase := .settling batch } := by
  have hg : s.isGone = false := by rw [isGone, hphase]
  obtain ⟨hr, hf, hid⟩ : s.Fits (.deleting batch) := hphase ▸ h.fits
  have hh : s.phase.inHand s.ids = [] := by
    rw [hphase]
    simp [Phase.inHand, unapplied, hid]
  have hdue : s.phase.due s.ids = batch.records.length := by
    rw [hphase, Phase.due, if_pos hid]
  have hc := h.conserved
  have hhr := (h.balanced hg).here
  have hu := (h.balanced hg).uncounted
  rw [owed, hh, hf] at hc
  rw [hh] at hhr
  refine ⟨?_, h.ids, ⟨hr, hf⟩, ?_, h.closed, ?_, h.pending⟩
  · rw [hc, owed, hf]
    rfl
  · exact fun hr => { h.early hr with }
  · exact fun _ => ⟨hhr, hu.trans hdue⟩

theorem Sound.settled (hphase : s.phase = .settling batch) :
    Sound { s with
      pending := s.pending - batch.records.length
      uncounted := 0
      phase := .polling } := by
  have hg : s.isGone = false := by rw [isGone, hphase]
  obtain ⟨hr, hfl⟩ : s.Fits (.settling batch) := hphase ▸ h.fits
  have hc := h.conserved
  have hh := (h.balanced hg).here
  have hu := (h.balanced hg).uncounted
  have hp := h.pending
  rw [owed, hphase] at hc
  rw [hphase] at hh hu
  have hdue : s.uncounted = batch.records.length := hu
  refine ⟨hc, h.ids, ⟨hr, hfl⟩, ?_, h.closed, ?_, ?_⟩
  · exact fun hf => absurd (hr.symm.trans hf) nofun
  · exact fun _ => ⟨hh, rfl⟩
  · show s.pending - batch.records.length + s.appliedHere
      = s.acceptedHere + s.sending + 0
    omega

theorem Sound.saved {queued : List (Submission α)}
    (hphase : s.phase = .saving batch queued) (hid : s.usesId id = false)
    (hne : id ≠ batch.id) :
    Sound { s with file := remainder batch queued id, phase := .gone } := by
  obtain ⟨hr, hfl, hs⟩ : s.Fits (.saving batch queued) := hphase ▸ h.fits
  have hf : id ∉ s.ids := by
    simp only [usesId, Bool.or_eq_false_iff, contains_eq_mem,
      decide_eq_false_iff_not] at hid
    exact hid.1
  have ho : unapplied s.ids (remainder batch queued id)
      = unapplied s.ids [batch] ++ queued := by
    unfold remainder
    cases queued with
    | nil => simp
    | cons x xs => simp [unapplied, hf]
  have hids : ((remainder batch queued id).map (·.id)).Nodup := by
    unfold remainder
    split
    · exact nodup_singleton _
    · simpa using hne.symm
  have hc := h.conserved
  rw [owed, hphase, hfl, hs.queue] at hc
  refine ⟨?_, hids, ⟨hs.queue, hs.closed, hs.submits⟩, ?_,
    h.closed, nofun, h.pending⟩
  · rw [hc, owed, ho, hs.queue]
    rfl
  · exact fun hr => { h.early hr with }

theorem Sound.returned (hg : s.isGone = false)
    (hs : s.Sealed) (hh : s.phase.inHand s.ids = [])
    (hd : s.phase.due s.ids = 0) : (s.goTo .gone).Sound :=
  h.goTo hg hs hh.symm hd.symm

theorem Sound.sealed_of_early (hr : s.ready = false) :
    s.Sealed where
  queue := (h.early hr).queue
  closed := fun ht => absurd (hr.symm.trans ht) nofun
  submits := fun x hx => by
    rw [(h.early hr).submits x hx]
    exact ⟨nofun, nofun⟩

end

variable {here : Bool}

theorem commit_ids :
    batch.id ∈ (s.commit batch here).ids := by
  unfold commit
  split
  · assumption
  · exact mem_append_right _ (mem_singleton.2 rfl)

@[simp] theorem commit_phase :
    (s.commit batch here).phase = s.phase := by
  unfold commit
  split <;> rfl

section

variable (h : s.Sound)
include h

theorem Sound.replay_step {r : List (Batch α)}
    (hphase : s.phase = .replaying r (batch :: rest))
    (ht : s.work done reported id = some t) : t.Sound := by
  -- committed or not, the state before the thread goes on is sound
  have hs' : ∃ s', s' = (if done then s.commit batch false else s)
      ∧ s'.Sound ∧ s'.phase = .replaying r (batch :: rest) := by
    refine ⟨_, rfl, ?_⟩
    split
    · exact ⟨h.replayed hphase, commit_phase.trans hphase⟩
    · exact ⟨h, hphase⟩
  obtain ⟨s', hd, h', hp'⟩ := hs'
  have hg : s'.isGone = false := by rw [isGone, hp']
  obtain ⟨hr, hrc, be, hf, hbef⟩ :
      s'.Fits (.replaying r (batch :: rest)) := hp' ▸ h'.fits
  simp only [Writer.work, hphase, ← hd] at ht
  split at ht
  · next hbt =>
    cases ht
    have hid : batch.id ∈ s'.ids := by
      rw [hd, if_pos (Bool.and_eq_true_iff.1 hbt).1]
      exact commit_ids
    refine h'.goTo hg ⟨hr, hrc, be ++ [batch], ?_, ?_⟩
      (by rw [hp']; rfl) (by rw [hp']; rfl)
    · rw [hf, append_assoc, singleton_append]
    · intro b hb
      obtain ho | hnew := mem_append.1 hb
      · exact hbef b ho
      · exact mem_singleton.1 hnew ▸ hid
  · split at ht
    · cases ht
      exact h'.returned hg (h'.sealed_of_early hr)
        (by rw [hp']; rfl) (by rw [hp']; rfl)
    · cases ht
      exact h'

theorem Sound.apply_step (hphase : s.phase = .applying batch)
    (ht : s.work done reported id = some t) : t.Sound := by
  have hs' : ∃ s', s' = (if done then s.commit batch true else s)
      ∧ s'.Sound ∧ s'.phase = .applying batch := by
    refine ⟨_, rfl, ?_⟩
    split
    · exact ⟨h.committed hphase, commit_phase.trans hphase⟩
    · exact ⟨h, hphase⟩
  obtain ⟨s', hd, h', hp'⟩ := hs'
  have hg : s'.isGone = false := by rw [isGone, hp']
  obtain ⟨hr, hf⟩ : s'.Fits (.applying batch) := hp' ▸ h'.fits
  simp only [Writer.work, hphase, ← hd] at ht
  split at ht
  · next hb =>
    cases ht
    have hid : batch.id ∈ s'.ids := by
      rw [hd, if_pos (Bool.and_eq_true_iff.1 hb).1]
      exact commit_ids
    exact h'.goTo hg ⟨hr, hf, hid⟩ (by rw [hp']; rfl) (by rw [hp']; rfl)
  · cases ht
    exact h'.goTo hg ⟨hr, hf⟩ (by rw [hp']; rfl) (by rw [hp']; rfl)

section

variable {records : List (Submission α)}
  (hphase : s.phase = .collecting records)
include hphase

theorem Sound.batched (hid : ¬ s.usesId id = true) :
    (s.goTo (.applying ⟨id, records⟩)).Sound := by
  have hg : s.isGone = false := by rw [isGone, hphase]
  have hf : id ∉ s.ids := by
    simp only [usesId, Bool.or_eq_true, contains_eq_mem,
      decide_eq_true_eq, not_or] at hid
    exact hid.1
  have hft : s.Fits (.collecting records) := hphase ▸ h.fits
  refine h.goTo hg hft ?_ ?_
  · rw [hphase]
    simp [Phase.inHand, unapplied, hf]
  · rw [hphase]
    simp [Phase.due, hf]

theorem Sound.collect_step (ht : s.work done reported id = some t) :
    t.Sound := by
  have hg : s.isGone = false := by rw [isGone, hphase]
  have hf : s.Fits (.collecting records) := hphase ▸ h.fits
  simp only [Writer.work, hphase] at ht
  split at ht
  · next x queue hq =>
    split at ht
    · cases ht
      exact h.taken hg hq hf (by rw [hphase]; rfl) (by rw [hphase]; rfl)
    · split at ht
      · cases ht
      · next hid =>
        cases ht
        exact h.batched hphase hid
  · split at ht
    · cases ht
    · next hid =>
      cases ht
      exact h.batched hphase hid

end

theorem Sound.poll_step (hphase : s.phase = .polling)
    (ht : s.work done reported id = some t) : t.Sound := by
  have h' := h.observeStop
  have hp' : s.observeStop.phase = .polling := hphase
  have hg : s.observeStop.isGone = false := by rw [isGone, hp']
  have hf : s.observeStop.Fits .polling := hp' ▸ h'.fits
  simp only [Writer.work, hphase] at ht
  split at ht
  · next first queue hq =>
    cases ht
    exact h'.taken hg hq hf (by rw [hp']; rfl) (by rw [hp']; rfl)
  · next hq =>
    split at ht
    · next hd =>
      cases ht
      obtain ⟨hc, hp⟩ := Bool.and_eq_true_iff.1 hd
      refine h'.returned hg ⟨hq, fun _ => hc, fun x hx => ?_⟩
        (by rw [hp']; rfl) (by rw [hp']; rfl)
      -- nobody holds a place, so everybody waits
      have hn := countP_eq_zero.1 (beq_iff_eq.1 hp) x hx
      cases hs : x.stage with
      | waiting => exact ⟨nofun, nofun⟩
      | permitted | checked | counted => simp [hs, holdsPermit] at hn
    · cases ht
      exact h'

theorem Sound.drain_step {queued : List (Submission α)}
    (hphase : s.phase = .draining batch queued) (hcr : s.queue = [] →
      ∀ x ∈ s.submits, x.stage ≠ .checked ∧ x.stage ≠ .counted)
    (ht : s.work done reported id = some t) : t.Sound := by
  have hg : s.isGone = false := by rw [isGone, hphase]
  have hf : s.Fits (.draining batch queued) := hphase ▸ h.fits
  simp only [Writer.work, hphase] at ht
  split at ht
  · next next queue hq =>
    cases ht
    refine h.taken hg hq hf ?_ (by rw [hphase]; rfl)
    rw [hphase]
    simp only [Phase.inHand, append_assoc]
  · next hq =>
    cases ht
    obtain ⟨hr, hfl, hc⟩ := hf
    exact h.goTo hg
      ⟨hr, hfl, ⟨hq, fun _ => hc, hcr hq⟩⟩
      (by rw [hphase]; rfl) (by rw [hphase]; rfl)

theorem Sound.work (hc : s.Handshake (.work done reported id))
    (ht : s.work done reported id = some t) : t.Sound := by
  have hf := h.fits
  simp only [Handshake] at hc
  cases hphase : s.phase with
  | replaying recovery rest =>
    cases rest with
    | cons batch rest => exact h.replay_step hphase ht
    | nil =>
      have hg : s.isGone = false := by rw [isGone, hphase]
      rw [hphase] at hf
      obtain ⟨hr, rfl, before, hfl, hbef⟩ := hf
      simp only [Writer.work, hphase, Option.some.injEq] at ht
      subst ht
      rw [append_nil] at hfl
      split
      · next hem =>
        exact h.goTo hg ⟨hr, isEmpty_iff.1 hem⟩
          (by rw [hphase]; rfl) (by rw [hphase]; rfl)
      · exact h.goTo hg ⟨hr, hfl ▸ hbef⟩
          (by rw [hphase]; rfl) (by rw [hphase]; rfl)
  | applying batch => exact h.apply_step hphase ht
  | collecting records => exact h.collect_step hphase ht
  | polling => exact h.poll_step hphase ht
  | draining batch queued =>
    rw [hphase] at hc
    exact h.drain_step hphase hc ht
  | gone => simp [Writer.work, hphase] at ht
  | loading =>
    have hg : s.isGone = false := by rw [isGone, hphase]
    rw [hphase] at hf
    simp only [Writer.work, hphase] at ht
    split at ht
    · cases ht
      exact h.goTo hg ⟨hf, rfl⟩ (by rw [hphase]; rfl) (by rw [hphase]; rfl)
    · cases ht
      exact h.returned hg (h.sealed_of_early hf)
        (by rw [hphase]; rfl) (by rw [hphase]; rfl)
  | opening recovery =>
    have hg : s.isGone = false := by rw [isGone, hphase]
    rw [hphase] at hf
    simp only [Writer.work, hphase] at ht
    split at ht
    · cases ht
      exact h.goTo hg ⟨hf.1, hf.2, [], hf.2.symm, nofun⟩
        (by rw [hphase]; rfl) (by rw [hphase]; rfl)
    · split at ht
      · cases ht
        exact h.returned hg (h.sealed_of_early hf.1)
          (by rw [hphase]; rfl) (by rw [hphase]; rfl)
      · cases ht
        exact h
  | retiring =>
    have hg : s.isGone = false := by rw [isGone, hphase]
    rw [hphase] at hf
    simp only [Writer.work, hphase] at ht
    split at ht
    · cases ht
      exact h.retired hphase
    · cases ht
      exact h.returned hg (h.sealed_of_early hf.1)
        (by rw [hphase]; rfl) (by rw [hphase]; rfl)
  | clearing =>
    have hg : s.isGone = false := by rw [isGone, hphase]
    rw [hphase] at hf
    simp only [Writer.work, hphase] at ht
    split at ht
    · cases ht
      exact h.cleared hphase
    · cases ht
      exact h.returned hg (h.sealed_of_early hf.1)
        (by rw [hphase]; rfl) (by rw [hphase]; rfl)
  | deleting batch =>
    have hg : s.isGone = false := by rw [isGone, hphase]
    rw [hphase] at hf
    simp only [Writer.work, hphase] at ht
    split at ht
    · cases ht
      exact h.deleted hphase
    · cases ht
      exact h.goTo hg ⟨hf.1, hf.2.1⟩
        (by rw [hphase]; rfl) (by rw [hphase]; rfl)
  | settling batch =>
    simp only [Writer.work, hphase, Option.some.injEq] at ht
    subst ht
    exact h.settled hphase
  | failed batch =>
    have h' := h.observeStop
    have hp' : s.observeStop.phase = .failed batch := hphase
    have hg : s.observeStop.isGone = false := by rw [isGone, hp']
    have hf' := h'.fits
    rw [hp'] at hf'
    simp only [Writer.work, hphase, Option.some.injEq] at ht
    subst ht
    exact h'.goTo hg hf' (by rw [hp']; rfl) (by rw [hp']; rfl)
  | saving batch queued =>
    rw [hphase] at hc
    simp only [Writer.work, hphase, hc, if_true] at ht
    split at ht
    · cases ht
    · next hid =>
      simp only [Bool.or_eq_true, beq_iff_eq, not_or, Bool.not_eq_true] at hid
      cases ht
      exact h.saved hphase hid.1 hid.2

end

-- ==== the run

theorem Sound.restarted (h : s.Sound) (hm : s.mayRestart = true) :
    s.restarted.Sound := by
  have hr : s.queue = [] ∧ s.phase.inHand s.ids = [] := by
    have hf := h.fits
    unfold mayRestart at hm
    split at hm
    case h_1 hphase =>
      rw [hphase] at hf
      exact ⟨(h.early hf).queue, by rw [hphase]; rfl⟩
    case h_6 hphase =>
      rw [hphase] at hf
      exact ⟨Sealed.queue hf, by rw [hphase]; rfl⟩
    case h_7 => cases hm
    all_goals
      next hphase =>
      rw [hphase] at hf
      exact ⟨(h.early hf.1).queue, by rw [hphase]; rfl⟩
  have hc := h.conserved
  rw [owed, hr.1, hr.2] at hc
  refine ⟨hc, h.ids, rfl, fun _ => ?_, nofun, fun _ => ⟨rfl, rfl⟩, rfl⟩
  exact
    { queue := rfl, submits := nofun, accepted := rfl, applied := rfl
      pending := rfl, uncounted := rfl }

theorem Sound.expired (h : s.Sound)
    (hphase : s.phase = .failed batch) (hs : s.stop = true) :
    (s.observeStop.goTo (.draining batch [])).Sound := by
  have h' := h.observeStop
  have hp' : s.observeStop.phase = .failed batch := hphase
  have hg : s.observeStop.isGone = false := by rw [isGone, hp']
  have hf := h'.fits
  rw [hp'] at hf
  have hc : s.observeStop.closed = true := by
    show (s.closed || s.stop) = true
    rw [hs, Bool.or_true]
  refine h'.goTo hg ⟨hf.1, hf.2, hc⟩ ?_ (by rw [hp']; rfl)
  rw [hp']
  exact append_nil _

variable {a : Action α}

theorem Sound.next (h : s.Sound) (hcr : s.Handshake a)
    (ht : s.next a = some t) : t.Sound := by
  cases a with
  | submit record =>
    simp only [Writer.next] at ht
    split at ht
    · cases ht
      exact h.submits_changed rfl (fun hall _ => hall)
        (fun hs => hs.submits) rfl
    · cases ht
      refine h.submits_changed rfl ?_ ?_ ?_
      · intro hall _ x hx
        obtain hold | hnew := mem_append.1 hx
        · exact hall x hold
        · rw [mem_singleton.1 hnew]
      · intro hs x hx
        obtain hold | hnew := mem_append.1 hx
        · exact hs.submits x hold
        · rw [mem_singleton.1 hnew]
          exact ⟨nofun, nofun⟩
      · simp [sending]
  | cancel index =>
    obtain ⟨x, hx, hc⟩ := bind_eq_some_iff.1 ht
    split at hc
    · next hst =>
      cases hc
      exact h.dropped hx (by rw [hst]; nofun) rfl
    · cases hc
  | proceed index =>
    obtain ⟨x, hx, hp⟩ := bind_eq_some_iff.1 ht
    exact h.proceed hx hp
  | stop =>
    cases ht
    refine ⟨h.conserved, h.ids, ?_, ?_, fun _ => rfl, ?_, h.pending⟩
    · exact h.fits.of_same rfl rfl rfl id fun hs =>
        ⟨hs.queue, hs.closed, hs.submits⟩
    · exact fun hr => { h.early hr with }
    · exact fun hg =>
        ⟨(h.balanced hg).here, (h.balanced hg).uncounted⟩
  | work done reported id => exact h.work hcr ht
  | deadline =>
    simp only [Writer.next] at ht
    split at ht
    · next batch hphase =>
      split at ht
      · next hsp =>
        cases ht
        exact h.expired hphase hsp
      · cases ht
    · cases ht
  | restart =>
    simp only [Writer.next] at ht
    split at ht
    · next hmay =>
      cases ht
      exact h.restarted hmay
    · cases ht

-- ==== the numbers

/-- No two submissions that are not cancelled have one number. -/
structure Numbered (s : Writer α) : Prop where
  nodup : s.numbers.Nodup
  lt : ∀ n ∈ s.numbers, n < s.nextNumber

theorem Numbered.of_subperm (h : s.Numbered)
    (hs : t.numbers.Subperm s.numbers)
    (hnx : s.nextNumber ≤ t.nextNumber) : t.Numbered := by
  have hlt : ∀ n ∈ t.numbers, n < t.nextNumber := fun n hn =>
    Nat.lt_of_lt_of_le (h.lt n (hs.subset hn)) hnx
  obtain ⟨l, hp, hl⟩ := hs
  exact ⟨hp.nodup_iff.1 (h.nodup.sublist hl), hlt⟩

theorem work_numbers (ht : s.work done reported id = some t) :
    t.numbers = s.numbers ∧ t.nextNumber = s.nextNumber := by
  have hc : ∀ batch here, (s.commit batch here).numbers = s.numbers
      ∧ (s.commit batch here).nextNumber = s.nextNumber := by
    intro batch here
    unfold commit
    split <;> exact ⟨rfl, rfl⟩
  simp only [Writer.work] at ht
  repeat' split at ht
  all_goals first
    | cases ht; exact ⟨rfl, rfl⟩
    | cases ht; exact hc _ _
    | cases ht

section

variable (hx : s.submits[index]? = some x)
include hx

theorem numbers_perm :
    s.numbers.Perm (x.submission.number ::
      (s.accepted.map (·.number) ++ (s.refused
        ++ (s.submits.eraseIdx index).map fun x =>
          x.submission.number))) := by
  have hc := (submits_perm hx).map fun x => x.submission.number
  have hmid := (hc.append_left s.refused).append_left
    (s.accepted.map (·.number))
  -- the number moves to the front of two lists
  exact hmid.trans ((perm_middle.append_left _).trans perm_middle)

theorem refuse_numbers :
    (s.refuse index x).numbers.Perm s.numbers := by
  refine List.Perm.trans ?_ (numbers_perm hx).symm
  show (s.accepted.map (·.number)
    ++ ((s.refused ++ [x.submission.number]) ++ _)).Perm _
  rw [append_assoc, singleton_append]
  exact (perm_middle.append_left _).trans perm_middle

theorem send_numbers :
    (s.send index x).numbers.Perm s.numbers := by
  refine List.Perm.trans ?_ (numbers_perm hx).symm
  show ((s.accepted ++ [x.submission]).map (·.number) ++ _).Perm _
  rw [map_append, append_assoc]
  exact perm_middle

theorem advance_numbers :
    (s.advance index x stage).numbers = s.numbers := by
  obtain ⟨hlt, rfl⟩ := List.getElem?_eq_some_iff.1 hx
  have hmap : (s.submits.set index { s.submits[index] with stage }).map
        (fun x => x.submission.number)
      = s.submits.map fun x => x.submission.number := by
    have hs := @set_getElem_self _
      (s.submits.map fun x => x.submission.number) index
      (by simpa using hlt)
    simpa using hs
  simp only [numbers, advance, hmap]

end

theorem Numbered.next (h : s.Numbered) (ht : s.next a = some t) :
    t.Numbered := by
  cases a with
  | submit record =>
    have hnew : s.nextNumber ∉ s.numbers := fun hmem =>
      Nat.lt_irrefl _ (h.lt _ hmem)
    have hpr : t.numbers.Perm (s.nextNumber :: s.numbers)
        ∧ t.nextNumber = s.nextNumber + 1 := by
      simp only [Writer.next] at ht
      split at ht
      · cases ht
        refine ⟨?_, rfl⟩
        show (s.accepted.map (·.number)
          ++ ((s.refused ++ [s.nextNumber]) ++ _)).Perm _
        rw [append_assoc, singleton_append]
        exact (perm_middle.append_left _).trans perm_middle
      · cases ht
        refine ⟨?_, rfl⟩
        show (s.accepted.map (·.number) ++ (s.refused
          ++ (s.submits ++ [_]).map fun x : Submit α =>
            x.submission.number)).Perm _
        rw [map_append, ← append_assoc, ← append_assoc,
          append_assoc (s.accepted.map _)]
        exact perm_append_singleton _ _
    refine ⟨hpr.1.nodup_iff.2 (nodup_cons.2 ⟨hnew, h.nodup⟩), ?_⟩
    intro n hn
    rw [hpr.2]
    obtain rfl | hold := mem_cons.1 (hpr.1.mem_iff.1 hn)
    · exact Nat.lt_succ_self _
    · exact Nat.lt_succ_of_lt (h.lt n hold)
  | cancel index =>
    obtain ⟨x, hx, hc⟩ := bind_eq_some_iff.1 ht
    split at hc
    · cases hc
      refine h.of_subperm ⟨_, .refl _, ?_⟩ (Nat.le_refl _)
      exact (((eraseIdx_sublist ..).map _).append_left _).append_left _
    · cases hc
  | proceed index =>
    obtain ⟨x, hx, hp⟩ := bind_eq_some_iff.1 ht
    have hpr : t.numbers.Perm s.numbers
        ∧ t.nextNumber = s.nextNumber := by
      have hr := refuse_numbers hx
      have hadv : ∀ stage, (s.advance index x stage).numbers.Perm
          s.numbers := fun stage => .of_eq (advance_numbers hx)
      unfold Writer.proceed at hp
      repeat' split at hp
      all_goals first
        | cases hp; exact ⟨hr, rfl⟩
        | cases hp; exact ⟨hadv _, rfl⟩
        | cases hp; exact ⟨send_numbers hx, rfl⟩
        | cases hp
    exact h.of_subperm hpr.1.subperm (Nat.le_of_eq hpr.2.symm)
  | stop =>
    cases ht
    exact ⟨h.nodup, h.lt⟩
  | work done reported id =>
    have hs := work_numbers ht
    exact h.of_subperm (hs.1 ▸ .refl _) (Nat.le_of_eq hs.2.symm)
  | deadline =>
    simp only [Writer.next] at ht
    split at ht
    · split at ht
      · cases ht
        exact ⟨h.nodup, h.lt⟩
      · cases ht
    · cases ht
  | restart =>
    simp only [Writer.next] at ht
    split at ht
    · cases ht
      refine h.of_subperm ⟨_, .refl _, ?_⟩ (Nat.le_refl _)
      exact ((nil_sublist _).append_left _).append_left _
    · cases ht

-- ==== exactly once

/-- Nothing is left to apply: there is no recovery file, and the thread
has returned or polls an empty queue. -/
def Drained (s : Writer α) : Prop :=
  s.file = [] ∧ (s.phase = .gone ∨ s.phase = .polling ∧ s.queue = [])

/-- No submit is between its count and its send, and no batch is
committed and not counted off. -/
def AtRest (s : Writer α) : Prop :=
  (∀ x ∈ s.submits, x.stage ≠ .counted) ∧ s.uncounted = 0

structure AppliedExactlyOnce (s : Writer α) : Prop where
  /-- Nothing is applied that was not accepted, nothing out of order. -/
  in_order : s.applied <+: s.accepted
  drained : s.Drained → s.applied = s.accepted
  once : (s.applied.map (·.number)).Nodup
  refused : ∀ x ∈ s.applied, x.number ∉ s.refused
  pending : (s.pending : Int) = s.acceptedHere - s.appliedHere ↔ s.AtRest

theorem Sound.owed_of_drained (h : s.Sound) (hd : s.Drained) :
    s.owed = [] := by
  obtain ⟨hf, hg | ⟨hp, hq⟩⟩ := hd
  · have hs : s.Fits .gone := hg ▸ h.fits
    rw [owed, hf, hg, Sealed.queue hs]
    rfl
  · rw [owed, hf, hp, hq]
    rfl

theorem sending_eq_zero :
    s.sending = 0 ↔ ∀ x ∈ s.submits, x.stage ≠ .counted := by
  unfold sending
  simp only [countP_eq_zero, beq_iff_eq]

theorem AppliedExactlyOnce.of_sound (h : s.Sound) (hn : s.Numbered) :
    s.AppliedExactlyOnce := by
  have hc := h.conserved
  have hnd := nodup_append.1 hn.nodup
  have happ : (s.applied.map (·.number)).Sublist
      (s.accepted.map (·.number)) := by
    rw [hc]
    exact (sublist_append_left _ _).map _
  refine ⟨⟨s.owed, hc.symm⟩, ?_, hnd.1.sublist happ, ?_, ?_⟩
  · intro hd
    rw [hc, h.owed_of_drained hd, append_nil]
  · intro x hx hr
    have hmem := happ.subset (mem_map_of_mem hx)
    exact hnd.2.2 _ hmem _ (mem_append_left _ hr) rfl
  · have hp := h.pending
    rw [AtRest, ← sending_eq_zero]
    omega

/-- In every run that keeps the handshake, the records accepted are
applied exactly once and in order, and no record refused is. -/
theorem applied_exactly_once
    (h : Run (fun s a t => s.next a = some t) Handshake start s) :
    s.AppliedExactlyOnce := by
  have hinv : s.Sound ∧ s.Numbered := by
    have hst : (start : Writer α).Sound ∧ (start : Writer α).Numbered :=
      ⟨sound_start, nodup_nil, nofun⟩
    refine @Run.invariant _ _ _ _ _ _ (fun s => s.Sound ∧ s.Numbered) h hst ?_
    rintro s a t ⟨hs, hn⟩ hc ht
    exact ⟨hs.next hc ht, hn.next ht⟩
  exact .of_sound hinv.1 hinv.2

/-- The steps that are checked to keep the handshake. -/
def handshakes (s : Writer α) : Action α → Bool
  | .work done _ _ =>
    match s.phase with
    | .draining _ _ =>
      s.submits.all fun x => x.stage != .checked && x.stage != .counted
    | .saving _ _ => done
    | _ => true
  | _ => true

theorem handshake_of_handshakes (s : Writer α) (a : Action α)
    (h : s.handshakes a = true) : s.Handshake a := by
  cases a with
  | work done reported id =>
    simp only [handshakes] at h
    simp only [Handshake]
    split at h
    · intro _ x hx
      simpa using all_eq_true.1 h x hx
    · exact h
    · trivial
  | _ => trivial

/-- The steps of a thread that recovers, and of a submit. -/
def recovering : List (Action Nat) := List.replicate 4 (.work true true 0)

def submitting (record : Nat) : List (Action Nat) :=
  .submit record :: List.replicate 4 (.proceed 0)

/-- A batch is committed and its id is not deleted until the deadline; it
is saved with the rest of the queue. The next process skips it, applies
the rest and fails to remove the file, and the one after that skips
both. -/
theorem applied_exactly_once_saved :
    ∃ s : Writer Nat, s.AppliedExactlyOnce ∧ s.Drained
      ∧ s.applied.map (·.record) = [7, 8] ∧ s.accepted.length = 2 := by
  have hex : ((runWhile Writer.next handshakes start
      (recovering ++ submitting 7 ++ [.work true true 0, .work true true 1]
        ++ submitting 8
        ++ [.work true true 0, .work false true 0, .stop, .deadline,
          .work true true 0, .work true true 0, .work true true 2,
          .restart]
        ++ recovering
        ++ [.work true true 0, .work false true 0, .restart]
        ++ recovering
        ++ [.work true true 0, .work true true 0, .work true true 0])).map
      fun s => (s.file.isEmpty, s.queue.isEmpty,
        (match s.phase with
        | .polling => true
        | _ => false),
        s.applied.map (·.record), s.accepted.length))
      = some (true, true, true, [7, 8], 2) := by
    decide +kernel
  obtain ⟨s, hs, hres⟩ := map_eq_some_iff.1 hex
  simp only [Prod.mk.injEq, List.isEmpty_iff] at hres
  obtain ⟨hf, hq, hphase, happ, hacc⟩ := hres
  have hp : s.phase = .polling := by
    split at hphase
    · assumption
    · cases hphase
  have hrun := Run.of_runWhile handshake_of_handshakes .refl _ hs
  exact ⟨s, applied_exactly_once hrun, ⟨hf, .inr ⟨hp, hq⟩⟩, happ, hacc⟩

def failsToSave (s : Writer α) : Action α → Bool
  | .work done _ _ =>
    match s.phase with
    | .saving _ _ => !done
    | _ => false
  | _ => false

/-- The recovery-file writes succeed. -/
def SavesSucceed (s : Writer α) (a : Action α) : Prop :=
  s.failsToSave a = false

theorem savesSucceed_of_not_fails (s : Writer α) (a : Action α)
    (h : (!s.failsToSave a) = true) : s.SavesSucceed a := by
  simpa [SavesSucceed] using h

/-- A submit that is past its second look when the deadline is over sends
its record after the recovery file was cut: it returns without an error,
and its record is never applied. -/
theorem submit_lost_at_deadline :
    ¬ ∀ s : Writer Nat,
      Run (fun s a t => s.next a = some t) SavesSucceed start s →
        s.Drained → s.applied = s.accepted := by
  intro h
  have hex : ((runWhile Writer.next
      (fun s a => !s.failsToSave a) start
      (recovering ++ submitting 7 ++ [.work true true 0, .work true true 1]
        ++ [.submit 8, .proceed 0, .proceed 0, .stop, .work false true 0,
          .deadline, .work true true 0, .work true true 2,
          .proceed 0, .proceed 0, .restart]
        ++ recovering
        ++ [.work true true 0, .work true true 0])).map
      fun s => (s.file.isEmpty, s.queue.isEmpty,
        (match s.phase with
        | .polling => true
        | _ => false),
        s.applied.length, s.accepted.length))
      = some (true, true, true, 1, 2) := by
    decide +kernel
  obtain ⟨s, hs, hres⟩ := map_eq_some_iff.1 hex
  simp only [Prod.mk.injEq, List.isEmpty_iff] at hres
  obtain ⟨hf, hq, hphase, happ, hacc⟩ := hres
  have hp : s.phase = .polling := by
    split at hphase
    · assumption
    · cases hphase
  have hrun := Run.of_runWhile savesSucceed_of_not_fails .refl _ hs
  have hsm := h s hrun ⟨hf, .inr ⟨hp, hq⟩⟩
  rw [hsm, hacc] at happ
  exact absurd happ (by decide)

end Writer

end TikTools.Analytics
