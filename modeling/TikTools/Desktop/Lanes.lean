/-
What the two lanes of the WebView outbox hold, over whole runs.

`Pushed` says once what a push does to an outbox; every law of the lanes
is read off it. `Transport` adds to an outbox what was accepted, cleared
and delivered so far, and `MailboxRun` to a mailbox the wakes that are
out.
-/
import TikTools.Desktop.Outbox
import Mathlib.Algebra.GroupWithZero.Nat

namespace TikTools.Desktop

open TikTools.Lib List Option Nat

variable {τ : Type}

/-- The bytes of a lane. -/
def total (lane : List (QueuedWebviewMessage τ)) : Nat :=
  (lane.map (·.bytes)).sum

@[simp] theorem total_nil : total ([] : List (QueuedWebviewMessage τ)) = 0 :=
  rfl

@[simp] theorem total_cons (m : QueuedWebviewMessage τ)
    (lane : List (QueuedWebviewMessage τ)) :
    total (m :: lane) = m.bytes + total lane := rfl

@[simp] theorem total_append (xs ys : List (QueuedWebviewMessage τ)) :
    total (xs ++ ys) = total xs + total ys := by
  simp [total]

namespace WebviewOutbox

variable {o o' : WebviewOutbox τ} {m : QueuedWebviewMessage τ}

-- ==== shedding

theorem retain_eq (key : String) (lane : List (QueuedWebviewMessage τ))
    (e : Nat) :
    retain key lane (total lane + e)
      = some (lane.filter (·.coalesceKey ≠ some key),
        total (lane.filter (·.coalesceKey ≠ some key)) + e) := by
  induction lane generalizing e with
  | nil => rfl
  | cons m rest ih =>
    rw [retain]
    by_cases hkey : m.coalesceKey = some key
    · have hsub : checkedSub (total (m :: rest) + e) m.bytes
          = some (total rest + e) := by
        rw [checkedSub_eq_some, total_cons]
        omega
      rw [if_pos hkey, hsub, bind_some, ih,
        filter_cons_of_neg (by simpa using hkey)]
    · have hc : total (m :: rest) + e
          = total rest + (m.bytes + e) := by
        rw [total_cons]
        omega
      rw [if_neg hkey, hc, ih,
        filter_cons_of_pos (by simpa using hkey), map_some,
        total_cons]
      congr 2
      omega

/-- What changes when a lossy lane is cut: nothing but the lane. -/
structure Cut (o o' : WebviewOutbox τ) : Prop where
  lane : o'.lossy.Sublist o.lossy
  bytes : o'.lossyBytes = total o'.lossy
  rest : o' = { o with
    lossy := o'.lossy, lossyBytes := o'.lossyBytes
    lossyDropped := o'.lossyDropped }

theorem shedOne_spec (hb : o.lossyBytes = total o.lossy)
    (ho : o.overflows = true) :
    ∃ o', o.shedOne = some o' ∧ Cut o o'
      ∧ o'.lossy.length + 1 = o.lossy.length := by
  unfold shedOne
  split
  · next item hit =>
    obtain ⟨item', b, a, hbef, hi', hl, hes⟩ :=
      exists_of_eraseP (mem_of_find?_eq_some hit) (find?_some hit)
    have hs : item = item' := by
      rw [hl, find?_append, find?_eq_none.2 hbef,
        none_or, find?_cons_of_pos hi'] at hit
      exact (Option.some.inj hit).symm
    subst hs
    have hsub : checkedSub o.lossyBytes item.bytes
        = some (total (b ++ a)) := by
      rw [checkedSub_eq_some, hb, hl]
      simp only [total_append, total_cons]
      omega
    rw [hsub]
    refine ⟨_, rfl, ⟨eraseP_sublist, ?_, rfl⟩, ?_⟩
    · show total (b ++ a) = total (o.lossy.eraseP _)
      rw [hes]
    · show (o.lossy.eraseP _).length + 1 = o.lossy.length
      rw [hes, hl]
      simp only [length_append, length_cons]
      omega
  · split
    · next item rest hl =>
      have hsub : checkedSub o.lossyBytes item.bytes = some (total rest) := by
        rw [checkedSub_eq_some, hb, hl, total_cons]
        omega
      rw [hsub]
      refine ⟨_, rfl, ⟨?_, rfl, rfl⟩, ?_⟩
      · show rest.Sublist o.lossy
        rw [hl]
        exact sublist_cons_self _ _
      · show rest.length + 1 = o.lossy.length
        rw [hl, length_cons]
    · next hl =>
      -- an empty lane is within both bounds
      rw [overflows, hb, hl] at ho
      simp at ho

theorem shedLossyOverflow_spec {f : Nat} :
    ∀ {o : WebviewOutbox τ}, o.lossyBytes = total o.lossy →
      o.lossy.length ≤ f →
      ∃ o', shedLossyOverflow f o = some o' ∧ Cut o o'
        ∧ o'.overflows = false := by
  induction f with
  | zero =>
    intro o hb hf
    have hnil : o.lossy = [] := eq_nil_of_length_eq_zero (by omega)
    have ho : o.overflows = false := by
      rw [overflows, hb, hnil]
      rfl
    refine ⟨o, ?_, ⟨.refl _, hb, rfl⟩, ho⟩
    rw [shedLossyOverflow, ho]
    rfl
  | succ f ih =>
    intro o hb hf
    rw [shedLossyOverflow]
    by_cases ho : o.overflows = true
    · obtain ⟨u, hu, h, hlen⟩ := shedOne_spec hb ho
      obtain ⟨o', ho', h', hov'⟩ := ih h.bytes (by omega)
      rw [if_pos ho, hu, bind_some]
      refine ⟨o', ho', ⟨h'.lane.trans h.lane, h'.bytes, ?_⟩, hov'⟩
      rw [h'.rest, h.rest]
    · rw [if_neg ho]
      exact ⟨o, rfl, ⟨.refl _, hb, rfl⟩, by simpa using ho⟩

-- ==== pushing

/-- The queued messages that a message does not replace. -/
def kept (lossy : List (QueuedWebviewMessage τ))
    (m : QueuedWebviewMessage τ) : List (QueuedWebviewMessage τ) :=
  match m.coalesceKey with
  | some key => lossy.filter (·.coalesceKey ≠ some key)
  | none => lossy

/-- What a push does. -/
inductive Pushed (o : WebviewOutbox τ) (m : QueuedWebviewMessage τ) :
    WebviewOutbox τ → Prop
  | refused : o.transportFailed = true → Pushed o m o.refuse
  | failed : o.transportFailed = false → m.cls = .critical →
      Pushed o m o.fail
  | accepted : o.transportFailed = false → m.cls = .critical →
      o.reliable.length < maxReliableMessages →
      m.bytes ≤ maxReliableBytes - o.reliableBytes →
      Pushed o m { o with
        reliable := o.reliable ++ [m]
        reliableBytes := o.reliableBytes + m.bytes }
  | stale (key : String) : m.cls ≠ .critical → m.coalesceKey = some key →
      o.hasNewer key m = true → Pushed o m o
  | queued (lossy : List (QueuedWebviewMessage τ)) (dropped : Nat) :
      o.transportFailed = false → m.cls ≠ .critical →
      (∀ key, m.coalesceKey = some key → o.hasNewer key m = false) →
      lossy.Sublist (kept o.lossy m ++ [m]) →
      lossy.length ≤ maxPendingWebviewMessages →
      total lossy ≤ maxLossyBytes →
      Pushed o m { o with
        lossy, lossyBytes := total lossy, lossyDropped := dropped }

theorem pushLossy_spec (hb : o.lossyBytes = total o.lossy) :
    ∃ lossy d, o.pushLossy m = some { o with
        lossy, lossyBytes := total lossy, lossyDropped := d }
      ∧ lossy.Sublist (o.lossy ++ [m])
      ∧ lossy.length ≤ maxPendingWebviewMessages
      ∧ total lossy ≤ maxLossyBytes := by
  have hp : o.lossyBytes + m.bytes = total (o.lossy ++ [m]) := by
    rw [hb]
    simp
  obtain ⟨o', ho', hcut, ho⟩ := @shedLossyOverflow_spec τ
    (o.lossy ++ [m]).length
    { o with
      lossy := o.lossy ++ [m], lossyBytes := o.lossyBytes + m.bytes }
    hp (Nat.le_refl _)
  simp only [overflows, Bool.or_eq_false_iff, decide_eq_false_iff_not,
    Nat.not_lt] at ho
  refine ⟨o'.lossy, o'.lossyDropped, ?_, hcut.lane, ho.1, hcut.bytes ▸ ho.2⟩
  rw [pushLossy, ho', hcut.rest, hcut.bytes]

theorem pushPrepared_spec (hb : o.lossyBytes = total o.lossy)
    (m : QueuedWebviewMessage τ) :
    ∃ o', o.pushPrepared m = some o' ∧ Pushed o m o' := by
  unfold pushPrepared
  by_cases hf : o.transportFailed = true
  · rw [if_pos hf]
    exact ⟨_, rfl, .refused hf⟩
  have hh : o.transportFailed = false := by simpa using hf
  rw [if_neg hf]
  by_cases hcls : m.cls = .critical
  · rw [if_pos hcls, pushReliable, if_neg hf]
    split
    · exact ⟨_, rfl, .failed hh hcls⟩
    · next hrm =>
      obtain ⟨hc, hs⟩ := not_or.1 hrm
      exact ⟨_, rfl, .accepted hh hcls (Nat.lt_of_not_le hc)
        (Nat.le_of_not_lt hs)⟩
  rw [if_neg hcls]
  cases hkey : m.coalesceKey with
  | none =>
    obtain ⟨lossy, d, heq, hl, hc, hs⟩ := pushLossy_spec hb (m := m)
    refine ⟨_, heq, .queued lossy d hh hcls ?_ ?_ hc hs⟩
    · rw [hkey]
      nofun
    · rw [kept, hkey]
      exact hl
  | some key =>
    simp only
    by_cases hn : o.hasNewer key m = true
    · rw [if_pos hn]
      exact ⟨o, rfl, .stale key hcls hkey hn⟩
    · have hr := retain_eq key o.lossy 0
      rw [add_zero, ← hb] at hr
      obtain ⟨lossy, d, heq, hl, hc, hs⟩ :=
        @pushLossy_spec τ
          { o with
            lossy := o.lossy.filter (·.coalesceKey ≠ some key)
            lossyBytes :=
              total (o.lossy.filter (·.coalesceKey ≠ some key)) + 0 }
          m rfl
      rw [if_neg hn, hr, bind_some]
      refine ⟨_, heq, .queued lossy d hh hcls ?_ ?_ hc hs⟩
      · intro key' hkey'
        cases hkey.symm.trans hkey'
        simpa using hn
      · rw [kept, hkey]
        exact hl

/-- The class that a text is queued under. -/
def classOf (parse : String → Option Json) (body : String) :
    WebviewMessageClass :=
  ((parse body).map classifyValue).getD .critical

/-- What comes of something pushed: it is refused, it fails the
transport, or a message of its class and tag that fits a batch is
pushed. -/
inductive Entered (o : WebviewOutbox τ) (cls : WebviewMessageClass)
    (tag : τ) : WebviewOutbox τ → Prop
  | refused : o.transportFailed = true → Entered o cls tag o.refuse
  | failed : Entered o cls tag o.fail
  | pushed {o' : WebviewOutbox τ} (m : QueuedWebviewMessage τ) :
      m.cls = cls → m.tag = tag → m.bytes ≤ maxBatchBytes →
      Pushed o m o' → Entered o cls tag o'

theorem fromValue_cls_tag {v : Json} {b : Option String} {tag : τ}
    (h : QueuedWebviewMessage.fromValue v b tag = some m) :
    m.cls = classifyValue v ∧ m.tag = tag := by
  obtain ⟨text, -, hr⟩ := bind_eq_some_iff.1 h
  obtain ⟨literal, -, rfl⟩ := map_eq_some_iff.1 hr
  exact ⟨rfl, rfl⟩

theorem pushValue_spec (hb : o.lossyBytes = total o.lossy)
    (v : Json) (tag : τ) :
    ∃ o', o.pushValue v tag = some o'
      ∧ Entered o (classifyValue v) tag o' := by
  unfold pushValue
  split
  · next hf => exact ⟨_, rfl, .refused hf⟩
  · split
    · next m hm =>
      obtain ⟨hcls, htag⟩ := fromValue_cls_tag hm
      have hft := QueuedWebviewMessage.fromValue_bytes hm nofun
      obtain ⟨o', ho', hp⟩ := pushPrepared_spec hb m
      exact ⟨o', ho', .pushed m hcls htag hft hp⟩
    · exact ⟨_, rfl, .failed⟩

/-- What a parser must do: a text is no shorter than the strings in the
value it is read as. -/
def ReadsLiterally (parse : String → Option Json) : Prop :=
  ∀ text value, parse text = some value → value.weight ≤ text.utf8ByteSize

theorem push_spec {parse : String → Option Json}
    (hpr : ReadsLiterally parse)
    (hb : o.lossyBytes = total o.lossy) (body : String) (tag : τ) :
    ∃ o', o.push parse body tag = some o'
      ∧ Entered o (classOf parse body) tag o' := by
  unfold push
  split
  · next hfl => exact ⟨_, rfl, .refused hfl⟩
  · split
    · exact ⟨_, rfl, .failed⟩
    · next hs =>
      split
      · next value hv =>
        have hc : classOf parse body = classifyValue value := by
          rw [classOf, hv]
          rfl
        split
        · next m hm =>
          obtain ⟨h, ht⟩ := fromValue_cls_tag hm
          have hf := QueuedWebviewMessage.fromValue_bytes hm (by
            rintro given ⟨⟩
            exact ⟨Nat.le_of_not_lt hs, hpr body value hv⟩)
          obtain ⟨o', ho', hp⟩ := pushPrepared_spec hb m
          exact ⟨o', ho', .pushed m (h.trans hc.symm) ht hf hp⟩
        · exact ⟨_, rfl, .failed⟩
      · next hn =>
        have hc : classOf parse body = .critical := by
          rw [classOf, hn]
          rfl
        split
        · next l hl =>
          have hf : (QueuedWebviewMessage.plain body (some l)
              tag).bytes ≤ maxBatchBytes := by
            refine QueuedWebviewMessage.plain_bytes (Nat.le_of_not_lt hs) ?_
            rintro text ⟨⟩
            exact (encodeWithLimit_eq_some.1 hl).2
          obtain ⟨o', ho', hp⟩ := pushPrepared_spec hb
            (.plain body (some l) tag)
          exact ⟨o', ho', .pushed _ hc.symm rfl hf hp⟩
        · exact ⟨_, rfl, .failed⟩

theorem pushCritical_spec (hb : o.lossyBytes = total o.lossy)
    (body : String) (tag : τ) :
    ∃ o', o.pushCritical body tag = some o' ∧ Entered o .critical tag o' := by
  unfold pushCritical
  split
  · exact ⟨_, rfl, .failed⟩
  · next hs =>
    have hf := @QueuedWebviewMessage.plain_bytes τ body none tag
      (Nat.le_of_not_lt hs) nofun
    obtain ⟨o', ho', hp⟩ := pushPrepared_spec hb (.plain body none tag)
    exact ⟨o', ho', .pushed _ rfl rfl hf hp⟩

-- ==== the lanes

structure Sound (o : WebviewOutbox τ) : Prop where
  reliable_bytes : o.reliableBytes = total o.reliable
  lossy_bytes : o.lossyBytes = total o.lossy
  reliable_count : o.reliable.length ≤ maxReliableMessages
  reliable_size : o.reliableBytes ≤ maxReliableBytes
  lossy_count : o.lossy.length ≤ maxPendingWebviewMessages
  lossy_size : o.lossyBytes ≤ maxLossyBytes
  fit : ∀ m ∈ o.reliable ++ o.lossy, m.bytes ≤ maxBatchBytes
  critical : ∀ m ∈ o.reliable, m.cls = .critical
  other : ∀ m ∈ o.lossy, m.cls ≠ .critical
  keys : o.lossy.Pairwise fun a b =>
    ∀ key, a.coalesceKey = some key → b.coalesceKey ≠ some key

theorem sound_new : (new : WebviewOutbox τ).Sound where
  reliable_bytes := rfl
  lossy_bytes := rfl
  reliable_count := zero_le _
  reliable_size := zero_le _
  lossy_count := zero_le _
  lossy_size := zero_le _
  fit := nofun
  critical := nofun
  other := nofun
  keys := .nil

theorem Sound.fail (h : o.Sound) : o.fail.Sound := { h with }

theorem Sound.refuse (h : o.Sound) : o.refuse.Sound := { h with }

theorem Sound.recoverTransport (h : o.Sound) : o.recoverTransport.Sound :=
  { h with }

theorem Sound.discardPending : o.discardPending.Sound := { sound_new with }

theorem kept_spec (l : List (QueuedWebviewMessage τ))
    (m : QueuedWebviewMessage τ) :
    (kept l m).Sublist l
      ∧ ∀ q ∈ kept l m, ∀ key, q.coalesceKey = some key →
        m.coalesceKey ≠ some key := by
  unfold kept
  split
  · next key hkey =>
    refine ⟨filter_sublist, fun q hq key' hq' hm => ?_⟩
    cases hkey.symm.trans hm
    exact (by simpa using (mem_filter.1 hq).2 : ¬ _) hq'
  · next hn =>
    exact ⟨.refl _, fun q hq key hq' hm => nomatch hn.symm.trans hm⟩

theorem Sound.pushed (h : o.Sound) (hf : m.bytes ≤ maxBatchBytes)
    (hp : Pushed o m o') : o'.Sound := by
  cases hp with
  | refused => exact h.refuse
  | failed => exact h.fail
  | stale => exact h
  | accepted _ hcls hc hs =>
    have hby := h.reliable_bytes
    have hbn := h.reliable_size
    refine { h with
      reliable_bytes := ?_, reliable_count := ?_, reliable_size := ?_
      fit := ?_, critical := ?_ }
    · show o.reliableBytes + m.bytes = total (o.reliable ++ [m])
      simp [hby]
    · show (o.reliable ++ [m]).length ≤ _
      rw [length_append, length_singleton]
      omega
    · show o.reliableBytes + m.bytes ≤ _
      omega
    · intro q hq
      obtain (hold | hnew) | hls := (mem_append.1 hq).imp_left mem_append.1
      · exact h.fit q (mem_append_left _ hold)
      · exact mem_singleton.1 hnew ▸ hf
      · exact h.fit q (mem_append_right _ hls)
    · intro q hq
      obtain hold | hnew := mem_append.1 hq
      · exact h.critical q hold
      · exact mem_singleton.1 hnew ▸ hcls
  | queued l dropped _ hcls _ hl hc hs =>
    obtain ⟨hsub, hk⟩ := kept_spec o.lossy m
    have hmem : ∀ q ∈ l, q ∈ o.lossy ∨ q = m := by
      intro q hq
      obtain hold | hnew := mem_append.1 (hl.subset hq)
      · exact .inl (hsub.subset hold)
      · exact .inr (mem_singleton.1 hnew)
    refine { h with
      lossy_bytes := rfl, lossy_count := hc, lossy_size := hs
      fit := ?_, other := ?_, keys := ?_ }
    · intro q hq
      obtain hr | hq' := mem_append.1 hq
      · exact h.fit q (mem_append_left _ hr)
      · obtain hold | rfl := hmem q hq'
        · exact h.fit q (mem_append_right _ hold)
        · exact hf
    · intro q hq
      obtain hold | rfl := hmem q hq
      · exact h.other q hold
      · exact hcls
    · refine List.Pairwise.sublist hl ?_
      refine pairwise_append.2
        ⟨h.keys.sublist hsub, pairwise_singleton _ _, ?_⟩
      intro a ha b hb key hak
      rw [mem_singleton.1 hb]
      exact hk a ha key hak

theorem Sound.entered {cls : WebviewMessageClass} {tag : τ} (h : o.Sound)
    (hen : Entered o cls tag o') : o'.Sound := by
  cases hen with
  | refused => exact h.refuse
  | failed => exact h.fail
  | pushed m _ _ hf hp => exact h.pushed hf hp

-- ==== a batch

/-- A batch is within its bounds. -/
structure Filling.Fits (f : Filling τ) : Prop where
  count : f.batch.length ≤ maxBatchPerTick
  size : f.bytes ≤ maxBatchBytes
  bytes : f.bytes = total f.batch

theorem Filling.Fits.add {f : Filling τ} (h : f.Fits)
    (hr : ¬ f.isFull m = true) : (f.add m).Fits := by
  obtain ⟨hc, hs, hb⟩ := h
  simp only [Filling.isFull, Bool.or_eq_true, decide_eq_true_eq, not_or] at hr
  refine ⟨?_, ?_, ?_⟩
  · show (f.batch ++ [m]).length ≤ _
    rw [length_append, length_singleton]
    omega
  · show f.bytes + m.bytes ≤ _
    omega
  · show f.bytes + m.bytes = total (f.batch ++ [m])
    simp [hb]

/-- What one of the two loops takes from its lane: a front part of it, to
the end or until the batch is full. -/
structure Taken (lane left : List (QueuedWebviewMessage τ))
    (f f' : Filling τ) : Prop where
  fits : f'.Fits
  front : ∃ taken, lane = taken ++ left ∧ f'.batch = f.batch ++ taken
  stop : ∀ m ∈ left.head?, f'.isFull m = true

theorem Taken.cons {l le : List (QueuedWebviewMessage τ)}
    {f f' : Filling τ} (h : Taken l le (f.add m) f') :
    Taken (m :: l) le f f' := by
  obtain ⟨t, hl, hb⟩ := h.front
  refine ⟨h.fits, ⟨m :: t, ?_, ?_⟩, h.stop⟩
  · rw [hl, cons_append]
  · rw [hb, Filling.add, append_assoc, singleton_append]

theorem takeReliable_spec (la : List (QueuedWebviewMessage τ)) :
    ∀ {f : Filling τ}, f.Fits →
      ∃ left f', takeReliable la (total la) f = (left, total left, f')
        ∧ Taken la left f f' := by
  induction la with
  | nil =>
    intro f hf
    exact ⟨[], f, rfl, hf, ⟨[], rfl, (append_nil _).symm⟩, nofun⟩
  | cons m rest ih =>
    intro f hf
    rw [takeReliable]
    by_cases hfl : f.isFull m = true
    · rw [if_pos hfl]
      refine ⟨m :: rest, f, rfl, hf, ⟨[], rfl, (append_nil _).symm⟩, ?_⟩
      rintro _ ⟨⟩
      exact hfl
    · obtain ⟨left, f', heq, ht⟩ := ih (hf.add hfl)
      have hsub : total (m :: rest) - m.bytes = total rest := by
        rw [total_cons, Nat.add_sub_cancel_left]
      rw [if_neg hfl, hsub]
      exact ⟨left, f', heq, ht.cons⟩

theorem takeLossy_spec (lane : List (QueuedWebviewMessage τ)) :
    ∀ {f : Filling τ}, f.Fits →
      ∃ left f', takeLossy lane (total lane) f
          = some (left, total left, f')
        ∧ Taken lane left f f' := by
  induction lane with
  | nil =>
    intro f hf
    exact ⟨[], f, rfl, hf, ⟨[], rfl, (append_nil _).symm⟩, nofun⟩
  | cons m rest ih =>
    intro f hf
    rw [takeLossy]
    by_cases hfl : f.isFull m = true
    · rw [if_pos hfl]
      refine ⟨m :: rest, f, rfl, hf, ⟨[], rfl, (append_nil _).symm⟩, ?_⟩
      rintro _ ⟨⟩
      exact hfl
    · obtain ⟨left, f', heq, ht⟩ := ih (hf.add hfl)
      have hsub : checkedSub (total (m :: rest)) m.bytes
          = some (total rest) := by
        rw [checkedSub_eq_some, total_cons]
        omega
      rw [if_neg hfl, hsub, bind_some]
      exact ⟨left, f', heq, ht.cons⟩

/-- A batch: a front part of the reliable lane, then one of the lossy
lane. -/
structure Batched (o : WebviewOutbox τ)
    (batch : List (QueuedWebviewMessage τ)) (o' : WebviewOutbox τ) :
    Prop where
  parts : ∃ reliable lossy, batch = reliable ++ lossy
    ∧ o.reliable = reliable ++ o'.reliable ∧ o.lossy = lossy ++ o'.lossy
  count : batch.length ≤ maxBatchPerTick
  size : total batch ≤ maxBatchBytes
  progress : o.isEmpty = false → batch ≠ []
  bytes : o'.reliableBytes = total o'.reliable
    ∧ o'.lossyBytes = total o'.lossy
  rest : o' = { o with
    reliable := o'.reliable, reliableBytes := o'.reliableBytes
    lossy := o'.lossy, lossyBytes := o'.lossyBytes }

theorem not_isFull (hf : m.bytes ≤ maxBatchBytes) :
    (⟨[], 0⟩ : Filling τ).isFull m = false := by
  simp only [Filling.isFull, length_nil, Nat.sub_zero,
    Bool.or_eq_false_iff, decide_eq_false_iff_not, Nat.not_le, Nat.not_lt]
  exact ⟨by decide, hf⟩

theorem takePreparedBatch_spec (h : o.Sound) :
    ∃ batch o', o.takePreparedBatch = some (batch, o')
      ∧ Batched o batch o' := by
  have hem : (⟨[], 0⟩ : Filling τ).Fits := ⟨zero_le _, zero_le _, rfl⟩
  obtain ⟨reliable, f, hr, ht⟩ := takeReliable_spec o.reliable hem
  obtain ⟨lossy, f', hls, ht'⟩ := takeLossy_spec o.lossy ht.fits
  obtain ⟨first, hfr, hb⟩ := ht.front
  obtain ⟨second, hsnd, hb'⟩ := ht'.front
  rw [hb, nil_append] at hb'
  refine ⟨f'.batch,
    { o with
      reliable, reliableBytes := total reliable
      lossy, lossyBytes := total lossy },
    ?_, ⟨⟨first, second, hb', hfr, hsnd⟩,
    ht'.fits.count, ht'.fits.bytes ▸ ht'.fits.size, ?_,
    ⟨rfl, rfl⟩, rfl⟩⟩
  · rw [takePreparedBatch, h.reliable_bytes, hr]
    simp only [h.lossy_bytes, hls, map_some]
  · -- an empty batch has met nothing that fits it
    intro hs hnil
    rw [hb'] at hnil
    obtain ⟨rfl, rfl⟩ := append_eq_nil_iff.1 hnil
    rw [nil_append] at hfr hsnd
    have hf : f = ⟨[], 0⟩ := by
      have hby := ht.fits.bytes
      cases f
      simp_all
    have hf' : f' = ⟨[], 0⟩ := by
      have hby := ht'.fits.bytes
      cases f'
      simp_all
    have hreliableNil : o.reliable = [] := by
      cases hl : o.reliable with
      | nil => rfl
      | cons m rest =>
        have hfl := ht.stop m (by rw [← hfr, hl]; rfl)
        rw [hf, not_isFull (h.fit m (by simp [hl]))] at hfl
        cases hfl
    have hlossyNil : o.lossy = [] := by
      cases hl : o.lossy with
      | nil => rfl
      | cons m rest =>
        have hfl := ht'.stop m (by rw [← hsnd, hl]; rfl)
        rw [hf', not_isFull (h.fit m (by simp [hl]))] at hfl
        cases hfl
    rw [isEmpty, hreliableNil, hlossyNil] at hs
    cases hs

theorem Sound.batched {b : List (QueuedWebviewMessage τ)} (h : o.Sound)
    (hb : Batched o b o') : o'.Sound := by
  obtain ⟨first, second, -, hf, hs⟩ := hb.parts
  obtain ⟨hr, hl⟩ := hb.bytes
  have hreliableSub : o'.reliable.Sublist o.reliable :=
    hf ▸ sublist_append_right _ _
  have hlossySub : o'.lossy.Sublist o.lossy := hs ▸ sublist_append_right _ _
  have hreliableTotal : total o'.reliable ≤ total o.reliable := by
    rw [hf, total_append]
    exact le_add_left _ _
  have hlossyTotal : total o'.lossy ≤ total o.lossy := by
    rw [hs, total_append]
    exact le_add_left _ _
  refine ⟨hr, hl, ?_, ?_, ?_, ?_, ?_, ?_, ?_, ?_⟩
  · exact Nat.le_trans hreliableSub.length_le h.reliable_count
  · rw [hr]
    exact Nat.le_trans hreliableTotal (h.reliable_bytes ▸ h.reliable_size)
  · exact Nat.le_trans hlossySub.length_le h.lossy_count
  · rw [hl]
    exact Nat.le_trans hlossyTotal (h.lossy_bytes ▸ h.lossy_size)
  · exact fun m hm => h.fit m ((hreliableSub.append hlossySub).subset hm)
  · exact fun m hm => h.critical m (hreliableSub.subset hm)
  · exact fun m hm => h.other m (hlossySub.subset hm)
  · exact h.keys.sublist hlossySub

end WebviewOutbox

end TikTools.Desktop
