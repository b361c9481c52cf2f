/-
Replays: an event counts once, and one that did not count never will.

Within a generation a competition is routed to, paused, resumed and
expired. None of this changes its definition or the number of the
generation, and the rows of the generation only grow (`Within`). So the
reason an event was refused for still stands when it comes again, after
any number of other events and lifecycle changes.

An event is known by its kind, its competition and its identity; its
content is everything about it but where and when it was received.
-/
import TikTools.Competitions.Admission
import TikTools.Competitions.Founded

namespace TikTools.Competitions

open TikTools.Lib Table Round

variable {T : Type} {S : Codec T} {lower : String → String}

-- ==== events

namespace Call

/-- The calls of one generation. -/
def withinGeneration : Call → Bool
  | .command .. | .score .. | .gift .. | .expireDue .. => true
  | .transition _ kind _ _ =>
    kind ∈ [Transition.pause, .resume, .expire]
  | _ => false

/-- The calls route the same event. -/
def sameEvent : Call → Call → Prop
  | .command id input _, .command id' input' _ =>
    id = id' ∧ input.eventIdentity = input'.eventIdentity
  | .score id input _, .score id' input' _ =>
    id = id' ∧ input.key = input'.key
  | .gift id input _ _, .gift id' input' _ _ =>
    id = id' ∧ input.eventIdentity = input'.eventIdentity
  | _, _ => False

/-- They do, and it has the same content. -/
def sameContent : Call → Call → Prop
  | .command id input _, .command id' input' _ =>
    id = id' ∧ input.eventIdentity = input'.eventIdentity
      ∧ input.participantId = input'.participantId
      ∧ input.command = input'.command
  | .score id input _, .score id' input' _ =>
    id = id' ∧ input.key = input'.key
      ∧ input.participantId = input'.participantId
      ∧ input.score = input'.score
  | .gift id input _ _, .gift id' input' _ _ =>
    id = id' ∧ input.eventIdentity = input'.eventIdentity
      ∧ Round.giftReceipt input = Round.giftReceipt input'
  | _, _ => False

/-- The competition a call routes to. -/
def competition : Call → Option String
  | .command id _ _ | .score id _ _ | .gift id _ _ _ => some id
  | _ => none

end Call

/-- How an event was answered: whether it counted. A failed call and one
that finds no competition answer nothing. -/
def Store.answer (S : Codec T) (lower : String → String)
    (store : Store T) : Call → Option Bool
  | .command id input owner =>
    match routeCompetitionCommandWithPrevious S lower store id input
        owner with
    | .ok (_, outcome, _) => outcome.map (·.counts)
    | .error _ => none
  | .score id input owner =>
    match routeCompetitionScore S store id input owner with
    | .ok (_, outcome) => outcome.map (·.counts)
    | .error _ => none
  | .gift id input owner score =>
    match routeCompetitionGift S store id input owner score with
    | .ok (_, outcome) => outcome.map (·.counts)
    | .error _ => none
  | _ => none

-- ==== within

/-- The competition is active or paused. -/
def Store.running (S : Codec T) (store : Store T) (id : String) : Prop :=
  ∃ row state, store.reads S id row state ∧ state.lifecycle.running = true

/-- Within a generation: the same definition and generation number, and
rows that only grow. -/
structure Store.Within (S : Codec T) (store later : Store T) : Prop where
  reads : ∀ id row state, store.reads S id row state →
    ∃ state', later.reads S id row state'
      ∧ state'.generation = state.generation
  rounds : ∀ id generation,
    Round.Later (store.round id generation) (later.round id generation)

namespace Store

variable {store later next : Store T}

theorem Within.refl (store : Store T) : store.Within S store :=
  ⟨fun _ _ state h => ⟨state, h, rfl⟩, fun _ _ => .refl _⟩

theorem Within.trans (h : store.Within S later)
    (h' : later.Within S next) : store.Within S next := by
  refine ⟨?_, fun id g =>
    (h.rounds id g).trans (h'.rounds id g)⟩
  intro id row state hr
  obtain ⟨m, hm, hg⟩ := h.reads id row state hr
  obtain ⟨l, hl, hs⟩ := h'.reads id row m hm
  exact ⟨l, hl, hs.trans hg⟩

variable {state : LifecycleState}

theorem reads_unique {id : String} {row row' : DefinitionRow T}
    {state' : LifecycleState} (h : store.reads S id row state)
    (h' : store.reads S id row' state') : row = row' ∧ state = state' := by
  obtain ⟨hrow, hs⟩ := h
  obtain ⟨hrow', hs'⟩ := h'
  rw [hrow, Option.some.injEq] at hrow'
  rw [hs, Option.some.injEq] at hs'
  exact ⟨hrow', hs'⟩

theorem Within.setRound {id : String} {ge : Nat} {round : Round}
    (h : Round.Later (store.round id ge) round) :
    store.Within S (store.setRound id ge round) := by
  refine ⟨fun _ _ state hr => ⟨state, hr, rfl⟩, ?_⟩
  intro other g
  rw [round_setRound]
  split
  · next hs =>
    obtain ⟨rfl, rfl⟩ := scope_inj.1 hs
    exact h
  · exact .refl _

variable {db : Db T}

theorem reads_insert {id o : String} {row : DefinitionRow T}
    {m f : LifecycleState}
    (hd : db.definitions = store.definitions) (hsts : db.states
      = store.states.insert id (S.state.toText m))
    (hf : store.states[id]?.bind S.state.fromText = some f)
    (hg : m.generation = f.generation)
    (hr : store.reads S o row state) :
    ∃ s', ({ store with toDb := db } : Store T).reads S o row s'
      ∧ s'.generation = state.generation := by
  obtain ⟨h, hs⟩ := hr
  by_cases hsm : id = o
  · subst hsm
    rw [hf, Option.some.injEq] at hs
    refine ⟨m, ⟨?_, ?_⟩, hs ▸ hg⟩
    · show db.definitions[id]? = _
      rw [hd]
      exact h
    · show db.states[id]?.bind _ = _
      rw [hsts, get_insert_self]
      exact S.state_readsBack m
  · refine ⟨state, ⟨?_, ?_⟩, rfl⟩
    · show db.definitions[o]? = _
      rw [hd]
      exact h
    · show db.states[o]?.bind _ = _
      rw [hsts, get_insert_ne _ _ hsm]
      exact hs

variable {now : Nat}

theorem Within.transition {id : String} {t : Transition}
    {o : Option String} {a : Option LifecycleState}
    (hk : t ≠ .start)
    (hc : transitionCompetitionOwned S store id t now o
      = .ok (next, a)) : store.Within S next := by
  unfold transitionCompetitionOwned at hc
  split at hc
  · next row text hrow ht =>
    obtain ⟨definition, -, hc⟩ := okOr_ok.1 hc
    obtain ⟨state, hrd, hc⟩ := okOr_ok.1 hc
    obtain ⟨-, hc⟩ := ensure_ok.1 hc
    obtain ⟨m, hmv, hc⟩ := bind_eq_ok.1 hc
    have hmv := mapError_eq_ok hmv
    rw [if_neg hk] at hc
    cases hc
    have hgen : m.generation = state.generation := by
      rcases LifecycleState.transition_cases hmv with ⟨hs, -⟩
        | ⟨-, hsm, -⟩
      · exact absurd hs hk
      · exact hsm
    have hf : store.states[id]?.bind S.state.fromText = some state := by
      rw [ht]
      exact hrd
    exact ⟨fun _ _ _ hr =>
        reads_insert rfl rfl hf hgen hr,
      fun _ _ => .refl _⟩
  · cases hc
    exact .refl _

theorem Within.expireDue {owner : Option String}
    (hc : expireDueCompetitionsOwned S store.toDb now owner = .ok db) :
    store.Within S { store with toDb := db } := by
  refine @foldlM_invariant _ _ _
    (fun d : Db T => store.Within S { store with toDb := d })
    _ _ ?_ _ _ hc (.refl store)
  intro row hrow before after hs hbef
  obtain ⟨state, hrd, hs⟩ := okOr_ok.1 hs
  split at hs
  · obtain ⟨moved, hmv, hs⟩ := bind_eq_ok.1 hs
    have hmv := mapError_eq_ok hmv
    cases hs
    have hgen : moved.generation = state.generation := by
      rcases LifecycleState.transition_cases hmv with ⟨hsta, -⟩
        | ⟨-, hsm, -⟩
      · cases hsta
      · exact hsm
    refine ⟨?_, fun _ _ => .refl _⟩
    intro id found current hr
    obtain ⟨kept, hk, hsm⟩ := hbef.reads id found current hr
    by_cases hid : row.1 = id
    · subst hid
      have ht : store.states[row.1]? = some row.2 := mem_toList.1 hrow
      have hcur : state = current := by
        have hst := hr.2
        rw [ht] at hst
        exact Option.some.inj (hrd.symm.trans hst)
      refine ⟨moved, ⟨hk.1, ?_⟩, hcur ▸ hgen⟩
      rw [get_insert_self]
      exact S.state_readsBack moved
    · refine ⟨kept, ⟨hk.1, ?_⟩, hsm⟩
      rw [get_insert_ne _ _ hid]
      exact hk.2
  · cases hs
    exact hbef

theorem apply_within [DecidableEq T] (store : Store T) {call : Call}
    (hc : call.withinGeneration = true) :
    store.Within S (store.apply S lower call) := by
  cases call with
  | command id input owner =>
    refine commit_fst_spec (.refl store) fun next _ hok => ?_
    rcases route_command_cases S hok with ⟨rfl, -⟩
      | ⟨_, _, state, _, round, -, -, -, -, hr, rfl, -⟩
    · exact .refl _
    · exact .setRound (command_commanded hr).later
  | score id input owner =>
    refine commit_fst_spec (.refl store) fun next _ hok => ?_
    rcases route_score_cases S hok with ⟨rfl, -⟩
      | ⟨_, state, -, -, -, rfl, -⟩
    · exact .refl _
    · exact .setRound (score_scored _ state input).later
  | gift id input owner score =>
    refine commit_fst_spec (.refl store) fun next _ hok => ?_
    rcases route_gift_cases S hok with ⟨rfl, -⟩
      | ⟨_, state, _, round, -, -, -, hr, rfl, -⟩
    · exact .refl _
    · exact .setRound (gift_gifted hr).later
  | expireDue now owner =>
    exact commitDb_spec (.refl store) fun db hok => Within.expireDue hok
  | transition id transition now owner =>
    refine commit_fst_spec (.refl store) fun next _ hok => ?_
    refine Within.transition ?_ hok
    rintro rfl
    cases hc
  | _ => cases hc

theorem run_within [DecidableEq T] (store : Store T) {c : List Call}
    (hc : ∀ call ∈ c, call.withinGeneration = true) :
    store.Within S (store.run S lower c) := by
  induction c generalizing store with
  | nil => exact .refl store
  | cons call rest ih =>
    exact (apply_within store (hc call List.mem_cons_self)).trans
      (ih _ fun o ho => hc o (List.mem_cons_of_mem _ ho))

end Store

-- ==== known

namespace Round

variable {round later : Round}

/-- The identity of a routed event is recorded. -/
def knows (round : Round) : Call → Prop
  | .command _ input _ => round.contributions[input.eventIdentity]? ≠ none
  | .score _ input _ => round.scored[input.key]? ≠ none
  | .gift _ input _ _ => round.giftReceipts[input.eventIdentity]? ≠ none
  | _ => False

variable {call : Call}

theorem Later.knows (h : Later round later) (hk : round.knows call) :
    later.knows call := by
  cases call with
  | command id input owner => exact h.contributions _ hk
  | score id input owner => exact h.scored _ hk
  | gift id input owner score => exact h.giftReceipts _ hk
  | _ => cases hk

variable {call' : Call}

theorem knows_sameEvent (h : call.sameEvent call') (hk : round.knows call) :
    round.knows call' := by
  cases call with
  | command id input owner =>
    cases call' with
    | command id' input' owner' =>
      show round.contributions[input'.eventIdentity]? ≠ none
      rw [← h.2]
      exact hk
    | _ => cases h
  | score id input owner =>
    cases call' with
    | score id' input' owner' =>
      show round.scored[input'.key]? ≠ none
      rw [← h.2]
      exact hk
    | _ => cases h
  | gift id input owner score =>
    cases call' with
    | gift id' input' owner' score' =>
      show round.giftReceipts[input'.eventIdentity]? ≠ none
      rw [← h.2]
      exact hk
    | _ => cases h
  | _ => cases h

/-- The event is refused, under the definition that can be read. -/
def refuses (lower : String → String) (read : Option Definition)
    (round : Round) : Call → Prop
  | .command _ input _ => ∀ definition ∈ read, round.refusesCommand
      (definition.optionForCommand lower input.command) input
  | .score _ input _ => round.refusesScore input
  | .gift _ input _ _ => round.refusesGift input
  | _ => False

variable {lower : String → String} {read : Option Definition}

theorem Later.refuses (h : Later round later)
    (hr : round.refuses lower read call) :
    later.refuses lower read call := by
  cases call with
  | command id input owner =>
    exact fun d hrd =>
      h.refusesCommand (hr d hrd)
  | score id input owner => exact h.refusesScore hr
  | gift id input owner score => exact h.refusesGift hr
  | _ => cases hr

theorem refuses_sameContent (h : call.sameContent call')
    (hr : round.refuses lower read call) :
    round.refuses lower read call' := by
  cases call with
  | command id input owner =>
    cases call' with
    | command id' input' owner' =>
      obtain ⟨-, hid, hp, hcmd⟩ := h
      intro definition hrd
      have hbef := hr definition hrd
      unfold refusesCommand at hbef ⊢
      rwa [hid, hp, hcmd] at hbef
    | _ => cases h
  | score id input owner =>
    cases call' with
    | score id' input' owner' =>
      obtain ⟨-, hkey, -⟩ := h
      have hbef : round.refusesScore input := hr
      show round.refusesScore input'
      unfold refusesScore at hbef ⊢
      rwa [hkey] at hbef
    | _ => cases h
  | gift id input owner score =>
    cases call' with
    | gift id' input' owner' score' =>
      obtain ⟨-, hid, hrc⟩ := h
      have hp : input.participantId = input'.participantId :=
        congrArg GiftReceiptRow.participantId hrc
      have hbef : round.refusesGift input := hr
      show round.refusesGift input'
      unfold refusesGift at hbef ⊢
      rwa [hid, hp] at hbef
    | _ => cases h
  | _ => cases h

end Round

variable {call call' : Call}

theorem Call.competition_sameEvent {id : String} (h : call.sameEvent call')
    (hid : call.competition = some id) : call'.competition = some id := by
  cases call with
  | command _ _ _ =>
    cases call' with
    | command _ _ _ => exact h.1 ▸ hid
    | _ => cases h
  | score _ _ _ =>
    cases call' with
    | score _ _ _ => exact h.1 ▸ hid
    | _ => cases h
  | gift _ _ _ _ =>
    cases call' with
    | gift _ _ _ _ => exact h.1 ▸ hid
    | _ => cases h
  | _ => cases h

theorem Call.sameContent.sameEvent (h : call.sameContent call') :
    call.sameEvent call' := by
  cases call with
  | command _ _ _ =>
    cases call' with
    | command _ _ _ => exact ⟨h.1, h.2.1⟩
    | _ => cases h
  | score _ _ _ =>
    cases call' with
    | score _ _ _ => exact ⟨h.1, h.2.1⟩
    | _ => cases h
  | gift _ _ _ _ =>
    cases call' with
    | gift _ _ _ _ => exact ⟨h.1, h.2.1⟩
    | _ => cases h
  | _ => cases h

-- ==== routes

namespace Store

variable {store next : Store T}

variable {id : String}

theorem round_setRound_same {ge : Nat}
    {round : Round} (h : round = store.round id ge) (o : String)
    (g : Nat) : (store.setRound id ge round).round o g = store.round o g := by
  rw [round_setRound]
  split
  · next hs =>
    obtain ⟨rfl, rfl⟩ := scope_inj.1 hs
    exact h
  · rfl

theorem round_setRound_self (store : Store T) (id : String)
    (g : Nat) (round : Round) :
    (store.setRound id g round).round id g = round := by
  rw [round_setRound, if_pos rfl]

/-- A call changes something recorded of the competition. -/
def changes [DecidableEq T] (S : Codec T) (lower : String → String)
    (store : Store T) (call : Call) (id : String) : Prop :=
  ∃ generation, (store.apply S lower call).round id generation
    ≠ store.round id generation

/-- What routing an event comes to: nothing happens and it is not
counted, or the rows of the generation are written back, with the event
known where they changed, and it is refused from then on. -/
inductive Routed [DecidableEq T] (S : Codec T) (lower : String → String)
    (store : Store T) (call : Call) (id : String) : Prop
  | nothing : store.apply S lower call = store →
      store.answer S lower call = none
        ∨ store.answer S lower call = some false ∧ store.atRest S id →
      Routed S lower store call id
  | recorded (row : DefinitionRow T) (state : LifecycleState)
      (round : Round) (counts : Bool) :
      store.reads S id row state → state.lifecycle.running = true →
      store.apply S lower call = store.setRound id state.generation round →
      round = store.round id state.generation
        ∨ ¬ (store.round id state.generation).knows call ∧ round.knows call →
      store.answer S lower call = some counts →
      round.refuses lower (S.definition.fromText row.definitionJson) call →
      ((store.round id state.generation).refuses lower
          (S.definition.fromText row.definitionJson) call →
        counts = false) →
      Routed S lower store call id

variable {call : Call}

theorem routed [DecidableEq T] (store : Store T)
    (hid : call.competition = some id) : Routed S lower store call id := by
  cases call with
  | command other input owner =>
    cases hid
    cases hok : routeCompetitionCommandWithPrevious S lower store id input
      owner with
    | error error =>
      refine .nothing ?_ (.inl ?_)
      · show store.commit (Except.map _ _) = _
        rw [hok]
        rfl
      · simp only [answer, hok]
    | ok found =>
      obtain ⟨next, answer, previous⟩ := found
      have ha : store.apply S lower (.command id input owner)
          = next := by
        show store.commit (Except.map _ _) = _
        rw [hok]
        rfl
      have hans : store.answer S lower (.command id input owner)
          = answer.map (·.counts) := by
        simp only [Store.answer, hok]
      rcases route_command_cases S hok
        with ⟨rfl, -, rfl | ⟨rfl, hrs⟩⟩
        | ⟨row, definition, state, outcome, round, hr, hdef,
          hrn, -, hro, rfl, rfl⟩
      · exact .nothing ha (.inl hans)
      · exact .nothing ha (.inr ⟨hans, hrs⟩)
      · have hc := command_commanded hro
        refine .recorded row state round outcome.counts hr hrn
          ha ?_ hans ?_ ?_
        · exact hc.unchanged_or_new.imp_right
            fun ⟨hnew, hk⟩ => ⟨not_not.2 hnew, hk⟩
        · rintro read hrd
          rw [hdef] at hrd
          cases hrd
          exact hc.settled
        · exact fun hrf =>
            hc.of_refuses (hrf definition hdef)
  | score other input owner =>
    cases hid
    cases hok : routeCompetitionScore S store id input owner with
    | error error =>
      refine .nothing ?_ (.inl ?_)
      · show store.commit (Except.map _ _) = _
        rw [hok]
        rfl
      · simp only [answer, hok]
    | ok found =>
      obtain ⟨next, answer⟩ := found
      have ha : store.apply S lower (.score id input owner)
          = next := by
        show store.commit (Except.map _ _) = _
        rw [hok]
        rfl
      have hans : store.answer S lower (.score id input owner)
          = answer.map (·.counts) := by
        simp only [Store.answer, hok]
      rcases route_score_cases S hok
        with ⟨rfl, rfl | ⟨rfl, hrs⟩⟩
        | ⟨row, state, hr, hrn, -, rfl, rfl⟩
      · exact .nothing ha (.inl hans)
      · exact .nothing ha (.inr ⟨hans, hrs⟩)
      · have hs := score_scored
          (store.round id state.generation) state input
        exact .recorded row state _ _ hr hrn ha
          (hs.unchanged_or_new.imp_right
            fun ⟨hnew, hk⟩ => ⟨not_not.2 hnew, hk⟩)
          hans hs.settled hs.of_refuses
  | gift other input owner score =>
    cases hid
    cases hok : routeCompetitionGift S store id input owner score with
    | error error =>
      refine .nothing ?_ (.inl ?_)
      · show store.commit (Except.map _ _) = _
        rw [hok]
        rfl
      · simp only [answer, hok]
    | ok found =>
      obtain ⟨next, answer⟩ := found
      have ha : store.apply S lower (.gift id input owner score)
          = next := by
        show store.commit (Except.map _ _) = _
        rw [hok]
        rfl
      have hans : store.answer S lower (.gift id input owner score)
          = answer.map (·.counts) := by
        simp only [Store.answer, hok]
      rcases route_gift_cases S hok
        with ⟨rfl, rfl | ⟨rfl, hrs⟩⟩
        | ⟨row, state, outcome, round, hr, hrn, -, hro,
          rfl, rfl⟩
      · exact .nothing ha (.inl hans)
      · exact .nothing ha (.inr ⟨hans, hrs⟩)
      · have hg := gift_gifted hro
        exact .recorded row state round _ hr hrn ha
          (hg.unchanged_or_new.imp_right
            fun ⟨hnew, hk⟩ => ⟨not_not.2 hnew, hk⟩)
          hans hg.settled hg.of_refuses
  | _ => cases hid

theorem changes_new [DecidableEq T] (hid : call.competition = some id)
    (hch : store.changes S lower call id) :
    ∃ row state, store.reads S id row state
      ∧ ¬ (store.round id state.generation).knows call
      ∧ ((store.apply S lower call).round id state.generation).knows
        call := by
  obtain ⟨g, hne⟩ := hch
  cases routed store hid with
  | nothing hs _ =>
    rw [hs] at hne
    exact absurd rfl hne
  | recorded row state round _ hr _ ha hc _ _ _ =>
    rcases hc with hs | ⟨h, hk⟩
    · rw [ha] at hne
      exact absurd (round_setRound_same hs id g) hne
    · refine ⟨row, state, hr, h, ?_⟩
      rw [ha, round_setRound_self]
      exact hk

theorem answered_refuses [DecidableEq T] {counts : Bool}
    (hid : call.competition = some id) (hrn : store.running S id)
    (hans : store.answer S lower call = some counts) :
    ∃ row state, store.reads S id row state
      ∧ ((store.apply S lower call).round id state.generation).refuses
        lower (S.definition.fromText row.definitionJson) call := by
  cases routed store hid with
  | nothing _ hc =>
    rcases hc with hn | ⟨-, _, state, hr, hrs⟩
    · rw [hn] at hans
      cases hans
    · obtain ⟨_, current, hcur, ht⟩ := hrn
      rw [← (reads_unique hr hcur).2, hrs] at ht
      cases ht
  | recorded row state round _ hr _ ha _ _ hrf _ =>
    refine ⟨row, state, hr, ?_⟩
    rw [ha, round_setRound_self]
    exact hrf

theorem refused_answer [DecidableEq T] {row : DefinitionRow T}
    {state : LifecycleState} (hid : call.competition = some id)
    (hr : store.reads S id row state)
    (hrf : (store.round id state.generation).refuses lower
      (S.definition.fromText row.definitionJson) call) :
    store.answer S lower call ≠ some true := by
  intro hans
  cases routed store hid with
  | nothing _ hc =>
    rcases hc with hn | ⟨hf, -⟩
    · rw [hn] at hans
      cases hans
    · rw [hf] at hans
      cases hans
  | recorded row' state' _ counts hr' _ _ _ hcn _ hf =>
    obtain ⟨rfl, rfl⟩ := reads_unique hr hr'
    rw [hcn, hf hrf] at hans
    cases hans

end Store

-- ==== replays

theorem Call.withinGeneration_of_competition {id : String}
    (hid : call.competition = some id) : call.withinGeneration = true := by
  cases call with
  | command _ _ _ => rfl
  | score _ _ _ => rfl
  | gift _ _ _ _ => rfl
  | _ => cases hid

/-- Between any two times an event comes, a generation is routed to,
paused, resumed and expired in any way. If the first time changed what
is recorded of the competition, the second does not; and if the first
time was answered without counting, while the competition was active or
paused, the second does not count either. -/
theorem events_counted_once [DecidableEq T] (S : Codec T)
    (lower : String → String) (store : Store T) (id : String) :
    ∀ (call again : Call) (between : List Call),
      call.competition = some id → call.sameContent again →
      (∀ other ∈ between, other.withinGeneration = true) →
      let later := (store.apply S lower call).run S lower between
      (store.changes S lower call id →
          ¬ later.changes S lower again id)
        ∧ (store.running S id → store.answer S lower call = some false →
          later.answer S lower again ≠ some true) := by
  intro call again between hid hc hb later
  have hf : store.Within S (store.apply S lower call) :=
    Store.apply_within store (Call.withinGeneration_of_competition hid)
  have hl : (store.apply S lower call).Within S later := Store.run_within _ hb
  have ha : again.competition = some id :=
    Call.competition_sameEvent hc.sameEvent hid
  constructor
  · intro hch ht
    obtain ⟨row, state, hr, -, hk⟩ := Store.changes_new hid hch
    obtain ⟨_, last, hls, hnew, -⟩ := Store.changes_new ha ht
    obtain ⟨state', hs', hgen⟩ := (hf.trans hl).reads id row state hr
    obtain ⟨-, rfl⟩ := Store.reads_unique hs' hls
    refine hnew ?_
    rw [hgen]
    exact knows_sameEvent hc.sameEvent
      ((hl.rounds id state.generation).knows hk)
  · intro hrn hans
    obtain ⟨row, state, hr, hrf⟩ := Store.answered_refuses hid hrn hans
    obtain ⟨state', hs', hgen⟩ := (hf.trans hl).reads id row state hr
    refine Store.refused_answer ha hs' ?_
    rw [hgen]
    exact refuses_sameContent hc ((hl.rounds id state.generation).refuses hrf)

/-- A vote for a poll, received at some time. -/
def lateVote (receivedAt : Nat) : Call :=
  .command "lunch" ⟨"c", "r", "viewer", "chat:1", "!pizza", receivedAt⟩
    (some "host")

/-- A vote that comes while the poll is paused, and again after it. -/
theorem events_counted_once_paused :
    let store := Store.run plainCodec id
      { aggregations := Table.single "votes" ⟨"c", "r"⟩ }
      [.insert commandPoll, .transition "lunch" .start 0 (some "host"),
        .transition "lunch" .pause 3 (some "host")]
    let later := (store.apply plainCodec id (lateVote 5)).run plainCodec id
      [.transition "lunch" .resume 7 (some "host")]
    ¬ later.changes plainCodec id (lateVote 9) "lunch"
      ∧ later.answer plainCodec id (lateVote 9) ≠ some true := by
  intro store later
  obtain ⟨ho, hn⟩ := events_counted_once plainCodec id store "lunch"
    (lateVote 5) (lateVote 9) [.transition "lunch" .resume 7 (some "host")]
    rfl ⟨rfl, rfl, rfl, rfl⟩ (by decide)
  refine ⟨ho ⟨1, fun hsm => ?_⟩, hn ?_ (by decide +kernel)⟩
  · have hc : ((store.apply plainCodec id (lateVote 5)).round "lunch"
        1).contributionCount = (store.round "lunch" 1).contributionCount :=
      congrArg Round.contributionCount hsm
    revert hc
    decide +kernel
  · obtain ⟨row, hrow⟩ := Option.isSome_iff_exists.1
      (show (store.definitions["lunch"]?).isSome by decide +kernel)
    obtain ⟨state, hs⟩ := Option.isSome_iff_exists.1
      (show (store.states["lunch"]?.bind plainCodec.state.fromText).isSome
        by decide +kernel)
    refine ⟨row, state, ⟨hrow, hs⟩, ?_⟩
    have hr : ((store.states["lunch"]?.bind
        plainCodec.state.fromText).map (·.lifecycle.running)) = some true :=
      by decide +kernel
    rw [hs] at hr
    exact Option.some.inj hr

end TikTools.Competitions
