/-
The index from sources to rankings.

The engine keeps, for every source, the ids of the rankings that count
it. `SourcesIndexed` says that this list is exact: every ranking with a
rule for the source, each once, and no list for a source nobody counts.
Only `create`, `update` and `remove` touch the index or a definition;
the other operations are `Quiet`.

`create` names the new ranking in the index before it takes a number for
it. When there is none left it fails with the index ahead of the
rankings, and this is the only way to get there (`indexed_iff`).
-/
import TikTools.Aggregation.Limits
import TikTools.Aggregation.Tokens

namespace TikTools.Aggregation

open TikTools.Lib Std Option Table Aggregation Effect Ranking ExtTreeMap

set_option linter.dupNamespace false

-- ==== revisions

namespace Aggregation

variable {state next : Aggregation}

theorem apply_word {key : String} {d w : Nat}
    (h : state.apply key d w = .ok next)
    (hs : state.revision ≤ u64Max) : next.revision ≤ u64Max := by
  obtain ⟨-, h⟩ := ensure_ok.1 h
  obtain ⟨value, -, h⟩ := okOr_ok.1 h
  split at h
  · cases h
    exact hs
  · obtain ⟨-, h⟩ := ensure_ok.1 h
    obtain ⟨score, -, h⟩ := okOr_ok.1 h
    obtain ⟨total, -, h⟩ := okOr_ok.1 h
    obtain ⟨revision, hr, h⟩ := okOr_ok.1 h
    obtain ⟨hle, rfl⟩ := checkedAdd_eq_some.1 hr
    cases h
    exact hle

theorem reassign_word {s t : String} {am a : Nat}
    (h : state.reassign s t am a = .ok next) :
    next.revision ≤ u64Max := by
  obtain ⟨-, h⟩ := ensure_ok.1 h
  obtain ⟨old, -, h⟩ := okOr_ok.1 h
  obtain ⟨left, -, h⟩ := okOr_ok.1 h
  obtain ⟨score, -, h⟩ := okOr_ok.1 h
  obtain ⟨-, h⟩ := ensure_ok.1 h
  obtain ⟨total, -, h⟩ := okOr_ok.1 h
  obtain ⟨revision, hr, h⟩ := okOr_ok.1 h
  obtain ⟨hle, rfl⟩ := checkedAdd_eq_some.1 hr
  cases h
  exact hle

theorem expire_word {key : String} {a : Nat}
    (h : state.expire key a = .ok next) : next.revision ≤ u64Max := by
  obtain ⟨revision, hr, h⟩ := okOr_ok.1 h
  obtain ⟨hle, rfl⟩ := checkedAdd_eq_some.1 hr
  obtain ⟨previous, -, h⟩ := okOr_ok.1 h
  cases h
  exact hle

theorem touch_word (h : state.touch = .ok next) :
    next.revision ≤ u64Max := by
  obtain ⟨revision, hr, h⟩ := okOr_ok.1 h
  obtain ⟨hle, rfl⟩ := checkedAdd_eq_some.1 hr
  cases h
  exact hle

theorem reset_word (h : state.reset = .ok next) :
    next.revision ≤ u64Max := by
  obtain ⟨revision, hr, h⟩ := okOr_ok.1 h
  obtain ⟨hle, rfl⟩ := checkedAdd_eq_some.1 hr
  cases h
  exact hle

end Aggregation

namespace Ranking

/-- The definition stays, and the revision stays a 64-bit number. -/
structure Steady (before after : Ranking) : Prop where
  definition : after.definition = before.definition
  revision : before.state.revision ≤ u64Max → after.state.revision ≤ u64Max

namespace Steady

variable {before middle after : Ranking}

theorem refl (ranking : Ranking) : Steady ranking ranking := ⟨rfl, id⟩

theorem trans (h : Steady before middle) (h' : Steady middle after) :
    Steady before after :=
  ⟨h'.definition.trans h.definition, fun hb =>
    h'.revision (h.revision hb)⟩

theorem reject (ranking : Ranking) : Steady ranking ranking.reject :=
  ⟨rfl, id⟩

theorem touched (state : Aggregation) (h : state.revision ≤ u64Max) :
    (Ranking.touched state).revision ≤ u64Max := by
  unfold Ranking.touched
  split
  · next next hn => exact touch_word hn
  · exact h

theorem fault (ranking : Ranking) : Steady ranking ranking.fault :=
  ⟨rfl, touched ranking.state⟩

theorem change {f : Ranking → Except Error Ranking} {ranking : Ranking}
    (h : ∀ next, f ranking = .ok next → Steady ranking next) :
    Steady ranking (Effect.change f ranking).2 := by
  unfold Effect.change
  split
  · next next hn => exact h next hn
  · exact refl ranking

end Steady

theorem steady_expireDaily (uom : Int) (now : Nat)
    (ranking : Ranking) :
    Steady ranking (expireDaily uom now ranking).2 := by
  unfold expireDaily
  change Steady ranking ((if ranking.lastTime ≠ 0
      ∧ dayOf uom (max ranking.lastTime now) ≠ dayOf uom ranking.lastTime
    then _ else _ : Effect Ranking Error Unit)
      { ranking with lastTime := max ranking.lastTime now }).2
  have hc : Steady ranking
      { ranking with lastTime := max ranking.lastTime now } := ⟨rfl, id⟩
  split
  · refine hc.trans (.change fun next hn => ?_)
    obtain ⟨state, hs, hn⟩ := bind_eq_ok.1 hn
    cases hn
    exact ⟨rfl, fun _ => reset_word hs⟩
  · exact hc

theorem steady_expireRolling (dm : Nat) (events : List WindowEvent)
    (ranking : Ranking) :
    Steady ranking (expireRolling dm events ranking).2 := by
  induction events generalizing ranking with
  | nil => exact .refl ranking
  | cons event rest ih =>
    by_cases hf : ranking.lastTime - event.1 < dm
    · rw [expireRolling_stay hf]
      exact .refl ranking
    · cases hs : ranking.state.expire event.2.1 event.2.2 with
      | error error =>
        rw [expireRolling_fail hf hs]
        exact .refl ranking
      | ok state =>
        rw [expireRolling_take hf hs]
        have ht : Steady ranking
            { ranking with state, windowEvents := rest } :=
          ⟨rfl, fun _ => expire_word hs⟩
        exact ht.trans (ih _)

theorem steady_expireRanking (now : Nat) (ranking : Ranking) :
    Steady ranking (expireRanking now ranking).2 := by
  unfold expireRanking
  split
  · exact steady_expireDaily _ now ranking
  · exact ⟨rfl, id⟩
  · next dm maxEvents _ =>
    have hc : Steady ranking
        { ranking with lastTime := max ranking.lastTime now } :=
      ⟨rfl, id⟩
    exact hc.trans (steady_expireRolling dm ranking.windowEvents _)

theorem steady_expireOne (now : Nat) (ranking : Ranking) :
    Steady ranking (ranking.expireOne now) := by
  have hexp := steady_expireRanking now ranking
  unfold expireOne
  split
  · next e heq =>
    rw [heq] at hexp
    exact hexp
  · next error e heq =>
    rw [heq] at hexp
    exact hexp.trans (.reject e)

theorem steady_account {ranking next : Ranking}
    {c : Contribution} {u g : Option EntryMetadata}
    (h : ranking.account c u g = .ok next) :
    Steady ranking next := by
  obtain ⟨value, -, h⟩ := bind_eq_ok.1 h
  split at h
  · cases h
    exact .refl ranking
  · obtain ⟨key, -, h⟩ := okOr_ok.1 h
    obtain ⟨-, h⟩ := ensure_ok.1 h
    obtain ⟨d, -, h⟩ := bind_eq_ok.1 h
    cases d with
    | limited =>
      obtain ⟨state, hs, h⟩ := bind_eq_ok.1 h
      cases h
      exact ⟨rfl, fun _ => touch_word hs⟩
    | cooldown =>
      obtain ⟨state, hs, h⟩ := bind_eq_ok.1 h
      cases h
      exact ⟨rfl, fun _ => touch_word hs⟩
    | allowed =>
      obtain ⟨state, hs, h⟩ := bind_eq_ok.1 h
      cases h
      refine ⟨rfl, fun hb => ?_⟩
      have hw := apply_word hs hb
      split
      · rw [updateMetadata_revision]
        exact hw
      · exact hw

theorem steady_contribute (c : Contribution) (now : Nat)
    (u g : Option EntryMetadata) (ranking : Ranking) :
    Steady ranking (ranking.contribute c now u g).1 := by
  have hexp := steady_expireRanking now ranking
  unfold contribute
  split
  · exact .refl ranking
  · split
    · next error e heq =>
      rw [heq] at hexp
      exact hexp.trans (.reject e)
    · next e heq =>
      rw [heq] at hexp
      split
      · exact hexp
      · split
        · exact hexp.trans (.fault e)
        · next next hn => exact hexp.trans (steady_account hn)

theorem InPlace.steady {ranking next : Ranking}
    (h : InPlace ranking next) : Steady ranking next := by
  cases h with
  | kept => exact .refl ranking
  | fault => exact .fault ranking
  | applied _ hs => exact ⟨rfl, apply_word hs⟩
  | reassigned _ hs =>
    exact ⟨rfl, fun _ => reassign_word hs⟩
  | recounted _ _ _ hrev => exact ⟨rfl, fun _ => hrev⟩
  | described ht =>
    have hw := touch_word ht
    exact ⟨rfl, fun _ => hw⟩
  | paused ht => exact ⟨rfl, fun _ => touch_word ht⟩
  | recovered ht =>
    exact ⟨rfl, fun _ => touch_word ht⟩
  | unshown => exact .reject ranking
  | lost => exact ⟨rfl, Steady.touched ranking.state⟩

/-- A turn that neither redefines a ranking nor takes a checkpoint
over. -/
def Turn.plain : Turn → Bool
  | .restoreSessionCheckpoint _ | .redefine _ _ => false
  | _ => true

theorem steady_take (t : Turn) (hp : t.plain = true)
    (ranking : Ranking) : Steady ranking (ranking.take t) := by
  cases t with
  | restoreSessionCheckpoint | redefine => cases hp
  | contribute c now u g =>
    exact steady_contribute c now u g ranking
  | expireAt now => exact steady_expireOne now ranking
  | reset =>
    refine .change fun next hn => ?_
    obtain ⟨state, hs, hn⟩ := bind_eq_ok.1 hn
    cases hn
    exact ⟨rfl, fun _ => reset_word hs⟩
  | _ => exact (take_inPlace _ rfl).steady

end Ranking

namespace Engine

-- ==== sources

/-- A ranking with a rule for a source. -/
def Mentions (engine : Engine) (id source : String) : Prop :=
  ∃ ranking, engine.rankings[id]? = some ranking
    ∧ ∃ rule ∈ ranking.definition.sources, rule.source = source

def hasSource (engine : Engine) (source : String) : Bool :=
  engine.bySource[source]?.isSome

/-- The index is exact. -/
structure SourcesIndexed (engine : Engine) : Prop where
  live : ∀ source id : String, id ∈ engine.bySource[source]?.getD [] →
    engine.rankings[id]? ≠ none
  once : NamedOnce engine.bySource
  present : ∀ source : String, engine.bySource[source]? ≠ some []
  exact : ∀ id source : String, id ∈ engine.bySource[source]?.getD []
    ↔ engine.Mentions id source
  hasSource : ∀ source : String, engine.hasSource source = true
    ↔ ∃ id, engine.Mentions id source

variable {engine after : Engine}

theorem SourcesIndexed.of (ho : NamedOnce engine.bySource)
    (hp : ∀ source : String, engine.bySource[source]? ≠ some [])
    (het : ∀ id source : String, id ∈ engine.bySource[source]?.getD []
      ↔ engine.Mentions id source) : SourcesIndexed engine where
  live source id hin := by
    obtain ⟨ranking, hr, -⟩ := (het id source).1 hin
    rw [hr]
    exact some_ne_none ranking
  once := ho
  present := hp
  exact := het
  hasSource source := by
    unfold Engine.hasSource
    constructor
    · intro hs
      obtain ⟨ids, hids⟩ := isSome_iff_exists.1 hs
      cases ids with
      | nil => exact absurd hids (hp source)
      | cons id rest =>
        refine ⟨id, (het id source).1 ?_⟩
        rw [hids]
        exact List.mem_cons_self
    · rintro ⟨id, hmn⟩
      have hin := (het id source).2 hmn
      cases hids : engine.bySource[source]? with
      | none =>
        rw [hids] at hin
        exact (List.not_mem_nil hin).elim
      | some ids => rfl

variable {bySource : Table String (List String)}

theorem mem_indexSources {d : Definition} {id source : String} :
    id ∈ (indexSources bySource d)[source]?.getD []
      ↔ id ∈ bySource[source]?.getD []
        ∨ id = d.id ∧ ∃ rule ∈ d.sources, rule.source = source := by
  unfold indexSources
  generalize d.id = new
  induction d.sources generalizing bySource with
  | nil =>
    refine (or_iff_left ?_).symm
    rintro ⟨-, rule, hr, -⟩
    exact List.not_mem_nil hr
  | cons rule rest ih =>
    rw [List.foldl_cons, ih, get_insert]
    have hmn : (∃ r ∈ rule :: rest, r.source = source)
        ↔ rule.source = source ∨ ∃ r ∈ rest, r.source = source := by
      rw [List.exists_mem_cons_iff]
    rw [hmn]
    by_cases hsrc : rule.source = source
    · rw [if_pos hsrc, getD_some, hsrc]
      by_cases hnew : new ∈ bySource[source]?.getD []
      · rw [if_pos hnew]
        constructor
        · rintro (hin | ⟨hid, -⟩)
          · exact .inl hin
          · exact .inr ⟨hid, .inl rfl⟩
        · rintro (hin | ⟨rfl, -⟩)
          · exact .inl hin
          · exact .inl hnew
      · rw [if_neg hnew, List.mem_append, List.mem_singleton]
        constructor
        · rintro ((hin | hid) | ⟨hid, -⟩)
          · exact .inl hin
          · exact .inr ⟨hid, .inl rfl⟩
          · exact .inr ⟨hid, .inl rfl⟩
        · rintro (hin | ⟨hid, -⟩)
          · exact .inl (.inl hin)
          · exact .inl (.inr hid)
    · rw [if_neg hsrc, or_iff_right hsrc]

theorem present_indexSources {d : Definition}
    (h : ∀ s : String, bySource[s]? ≠ some []) (s : String) :
    (indexSources bySource d)[s]? ≠ some [] := by
  unfold indexSources
  generalize d.id = new
  induction d.sources generalizing bySource with
  | nil => exact h s
  | cons rule rest ih =>
    refine ih fun o => ?_
    rw [get_insert]
    split
    · next hsrc =>
      intro hn
      have hids := Option.some.inj hn
      split at hids
      · next hin =>
        rw [hids] at hin
        exact List.not_mem_nil hin
      · exact List.append_ne_nil_of_right_ne_nil _ (List.cons_ne_nil _ _) hids
    · exact h o

theorem mem_dropSources {gone id source : String} :
    id ∈ (dropSources bySource gone)[source]?.getD []
      ↔ id ∈ bySource[source]?.getD [] ∧ id ≠ gone := by
  unfold dropSources
  rw [Table.get_retain, Table.get_map]
  cases bySource[source]? with
  | none => exact iff_of_false List.not_mem_nil fun h =>
    List.not_mem_nil h.1
  | some ids =>
    rw [map_some, filter_some, getD_some]
    have hmem : id ∈ ids.filter (· ≠ gone) ↔ id ∈ ids ∧ id ≠ gone := by
      rw [List.mem_filter, decide_eq_true_eq]
    split
    · exact hmem
    · next hem =>
      rw [← hmem]
      have hnil : ids.filter (· ≠ gone) = [] := by
        by_contra hne
        exact hem (decide_eq_true hne)
      rw [hnil]
      exact Iff.rfl

theorem present_dropSources (bySource : Table String (List String))
    (g s : String) :
    (dropSources bySource g)[s]? ≠ some [] := by
  unfold dropSources
  rw [get_retain]
  intro h
  obtain ⟨-, hk⟩ := filter_eq_some_iff.1 h
  exact of_decide_eq_true hk rfl

theorem mentions_insert (ranking : Ranking) (id other source : String) :
    Mentions { engine with
      rankings := engine.rankings.insert id ranking } other source
      ↔ if id = other then
          ∃ rule ∈ ranking.definition.sources, rule.source = source
        else engine.Mentions other source := by
  unfold Mentions
  rw [get_insert]
  split
  · constructor
    · rintro ⟨_, hrn, hr⟩
      cases hrn
      exact hr
    · intro hr
      exact ⟨ranking, rfl, hr⟩
  · exact Iff.rfl

variable {ranking : Ranking}

/-- A ranking that stands under an id nobody is named by, and is named
under its sources. -/
theorem SourcesIndexed.named (h : SourcesIndexed engine)
    {d : Definition} {n : Nat}
    (hd : ranking.definition = d)
    (hon : NamedOnce bySource)
    (hp : ∀ source : String, bySource[source]? ≠ some [])
    (ho : ∀ id source : String, id ∈ bySource[source]?.getD []
      ↔ id ∈ engine.bySource[source]?.getD [] ∧ id ≠ d.id) :
    SourcesIndexed {
      rankings := engine.rankings.insert d.id ranking
      bySource := indexSources bySource d
      nextInstance := n } := by
  refine .of (hon.indexSources d)
    (present_indexSources hp) fun id source => ?_
  have hmn := @mentions_insert engine ranking d.id id source
  change _ ↔ Mentions { engine with
    rankings := engine.rankings.insert d.id ranking } id source
  rw [mem_indexSources, ho, h.exact, hmn, hd]
  split
  · next hid =>
    rw [or_iff_right fun hold => hold.2 hid.symm, and_iff_right hid.symm]
  · next hid =>
    rw [and_iff_left (Ne.symm hid), or_iff_left fun hnew =>
      hid hnew.1.symm]

theorem SourcesIndexed.unnamed (h : SourcesIndexed engine) {id : String}
    (hn : engine.rankings[id]? = none) (o s : String) :
    o ∈ engine.bySource[s]?.getD []
      ↔ o ∈ engine.bySource[s]?.getD [] ∧ o ≠ id := by
  refine (and_iff_left_of_imp ?_).symm
  rintro hin rfl
  exact h.live s o hin hn

-- ==== operations

/-- The revisions are 64-bit numbers. -/
def Words (engine : Engine) : Prop :=
  ∀ (id : String) (ranking : Ranking),
    engine.rankings[id]? = some ranking → ranking.state.revision ≤ u64Max

/-- Nothing but rankings changed, and those steadily. -/
structure Quiet (engine after : Engine) : Prop where
  bySource : after.bySource = engine.bySource
  steady : ∀ id : String, Option.Rel Ranking.Steady
    engine.rankings[id]? after.rankings[id]?

theorem Quiet.refl (engine : Engine) : Quiet engine engine where
  bySource := rfl
  steady id := by
    cases engine.rankings[id]? with
    | none => exact .none
    | some ranking => exact .some (.refl ranking)

theorem quiet_within {act : Effect Ranking Error Unit}
    (h : ∀ ranking, Ranking.Steady ranking (act ranking).2)
    (id : String) (engine : Engine) :
    Quiet engine (within id act engine).2 where
  bySource := bySource_within id act engine
  steady other := by
    rw [get_within]
    split
    · next hs =>
      subst hs
      cases engine.rankings[id]? with
      | none => exact .none
      | some ranking => exact .some (h ranking)
    · exact (Quiet.refl engine).steady other

theorem quiet_forSource {act : Ranking → Ranking × Option Error}
    (h : ∀ ranking, Ranking.Steady ranking (act ranking).1)
    (hn : NamedOnce engine.bySource) (s : String) :
    Quiet engine (engine.forSource s act).1 where
  bySource := bySource_forSource s act engine
  steady id := by
    rw [get_forSource _ _ _ hn]
    cases engine.rankings[id]? with
    | none => exact .none
    | some ranking =>
      split
      · exact .some (h ranking)
      · exact .some (.refl ranking)

theorem quiet_forAll {act : Ranking → Ranking}
    (h : ∀ ranking, Ranking.Steady ranking (act ranking))
    (engine : Engine) : Quiet engine (engine.forAll act) where
  bySource := rfl
  steady id := by
    change Option.Rel _ _ (ExtTreeMap.map _ engine.rankings)[id]?
    rw [Table.get_map]
    cases engine.rankings[id]? with
    | none => exact .none
    | some ranking => exact .some (h ranking)

theorem Quiet.mentions (h : Quiet engine after) (id source : String) :
    after.Mentions id source ↔ engine.Mentions id source := by
  unfold Mentions
  have hs := h.steady id
  cases hbef : engine.rankings[id]? with
  | none =>
    rw [hbef] at hs
    cases ha : after.rankings[id]? with
    | none => exact Iff.rfl
    | some ranking => rw [ha] at hs; cases hs
  | some ranking =>
    rw [hbef] at hs
    cases ha : after.rankings[id]? with
    | none => rw [ha] at hs; cases hs
    | some next =>
      rw [ha] at hs
      cases hs with
      | some hs =>
        simp only [Option.some.injEq, exists_eq_left', hs.definition]

theorem SourcesIndexed.quiet (h : SourcesIndexed engine)
    (hq : Quiet engine after) : SourcesIndexed after := by
  refine .of ?_ ?_ fun id s => ?_
  · rw [hq.bySource]
    exact h.once
  · rw [hq.bySource]
    exact h.present
  · rw [hq.bySource, hq.mentions]
    exact h.exact id s

theorem Words.quiet (h : engine.Words) (hq : Quiet engine after) :
    after.Words := by
  intro id next hn
  have hs := hq.steady id
  rw [hn] at hs
  cases hbef : engine.rankings[id]? with
  | none => rw [hbef] at hs; cases hs
  | some ranking =>
    rw [hbef] at hs
    cases hs with
    | some hs => exact hs.revision (h id ranking hbef)

theorem Words.insert (h : engine.Words)
    (hw : ranking.state.revision ≤ u64Max) (id : String)
    (bySource : Table String (List String)) (n : Nat) :
    Words ⟨engine.rankings.insert id ranking, bySource, n⟩ := by
  intro o next hn
  rw [get_insert] at hn
  split at hn
  · cases hn
    exact hw
  · exact h o next hn

/-- Everything `create` asks for but a number. -/
def Passes (engine : Engine) (identity : Identity)
    (definition : Definition) : Prop :=
  engine.rankings.size < 128 ∧ definition.valid = true
    ∧ engine.rankings[definition.id]?.isNone = true
    ∧ identity.isSome = true

instance (engine : Engine) (identity : Identity) (definition : Definition) :
    Decidable (engine.Passes identity definition) := by
  unfold Passes
  infer_instance

/-- What `create` leaves. -/
inductive Creates (engine : Engine) (identity : Identity)
    (definition : Definition) : Engine → Prop
  | refused (hrefused : ¬ engine.Passes identity definition) :
      Creates engine identity definition engine
  | spent (hpasses : engine.Passes identity definition)
      (hspent : ¬ engine.nextInstance < u64Max) :
      Creates engine identity definition { engine with
        bySource := indexSources engine.bySource definition }
  | made (bytes : Vector UInt8 16)
      (hpasses : engine.Passes identity definition)
      (hnumber : engine.nextInstance < u64Max) :
      Creates engine identity definition {
        rankings := engine.rankings.insert definition.id
          (.fresh definition (engine.nextInstance + 1) bytes)
        bySource := indexSources engine.bySource definition
        nextInstance := engine.nextInstance + 1 }

theorem create_creates (i : Identity) (definition : Definition)
    (engine : Engine) :
    Creates engine i definition (create i definition engine).2 := by
  have hs : ∀ {check : Engine → Prop} [∀ e, Decidable (check e)]
      {error : DefinitionError} {rest : Effect Engine DefinitionError Unit},
      (engine.Passes i definition → check engine) →
      (check engine → Creates engine i definition (rest engine).2) →
      Creates engine i definition
        (((Effect.look fun e => ensure (check e) error)
          >>= fun _ => rest) engine).2 := by
    intro check _ error rest hp hr
    by_cases hc : check engine
    · rw [bind_ok (f := fun _ => rest)
        (look_ok (ensure_true hc))]
      exact hr hc
    · rw [bind_error (f := fun _ => rest)
        (look_error (ensure_eq_error.2 ⟨hc, rfl⟩))]
      exact .refused fun h => hc (hp h)
  refine hs (fun h => h.1) fun hrm => hs (fun h => h.2.1)
    fun hv => hs (fun h => h.2.2.1) fun hnew => ?_
  cases i with
  | none => exact .refused fun h => Bool.noConfusion h.2.2.2
  | some b =>
    have hp : engine.Passes (some b) definition := ⟨hrm, hv, hnew, rfl⟩
    show Creates engine _ definition (Effect.change _
      { engine with
        bySource := indexSources engine.bySource definition }).2
    by_cases hn : engine.nextInstance < u64Max
    · have hnx : checkedAdd engine.nextInstance 1
          = some (engine.nextInstance + 1) :=
        checkedAdd_eq_some.2 ⟨hn, rfl⟩
      unfold Effect.change
      simp only [hnx]
      exact .made b hp hn
    · have hnn : checkedAdd engine.nextInstance 1 = none :=
        checkedAdd_eq_none.2 (by omega)
      unfold Effect.change
      simp only [hnn]
      exact .spent hp hn

theorem indexed_create (h : SourcesIndexed engine) (i : Identity)
    (d : Definition) :
    SourcesIndexed (create i d engine).2
      ↔ (engine.Passes i d → engine.nextInstance < u64Max) := by
  have hc := create_creates i d engine
  generalize (create i d engine).2 = after at hc ⊢
  cases hc with
  | refused hr =>
    exact iff_of_true h fun hp => absurd hp hr
  | spent hp hs =>
    refine iff_of_false (fun hid => ?_) fun hn =>
      hs (hn hp)
    -- a valid definition has a rule, and the index names it there
    have hv := hp.2.1
    have hsr : d.sources ≠ [] := by
      intro hnil
      unfold Definition.valid at hv
      simp [hnil] at hv
    obtain ⟨rule, hrl⟩ := List.exists_mem_of_ne_nil _ hsr
    refine hid.live rule.source d.id ?_ (isNone_iff_eq_none.1 hp.2.2.1)
    exact mem_indexSources.2 (.inr ⟨rfl, rule, hrl, rfl⟩)
  | made bytes hp hn =>
    refine iff_of_true ?_ fun _ => hn
    exact h.named rfl h.once h.present
      (h.unnamed (isNone_iff_eq_none.1 hp.2.2.1))

theorem words_create (h : engine.Words) (i : Identity)
    (d : Definition) :
    (create i d engine).2.Words := by
  have hc := create_creates i d engine
  generalize (create i d engine).2 = after at hc ⊢
  cases hc with
  | refused => exact h
  | spent => exact h
  | made bytes =>
    exact h.insert (Nat.zero_le _) _ _ _

/-- What `update` leaves: all as it was, or the definition replaced. -/
inductive Updates (engine : Engine) (definition : Definition) :
    Engine → Prop
  | refused : Updates engine definition engine
  | made {next : Ranking} (hdefinition : next.definition = definition)
      (hword : next.state.revision ≤ u64Max) :
      Updates engine definition { engine with
        rankings := engine.rankings.insert definition.id next
        bySource := indexSources
          (dropSources engine.bySource definition.id) definition }

theorem Ranking.redefine_ok {d : Definition}
    (h : ranking.state.revision < u64Max) (r : Bool) :
    ∃ next, ranking.redefine d r = .ok next
      ∧ next.definition = d
      ∧ next.state.revision ≤ u64Max := by
  have hn : checkedAdd ranking.state.revision 1
      = some (ranking.state.revision + 1) :=
    checkedAdd_eq_some.2 ⟨h, rfl⟩
  unfold Ranking.redefine
  cases r with
  | true =>
    unfold Ranking.reset Aggregation.reset
    rw [hn]
    exact ⟨_, rfl, rfl, h⟩
  | false =>
    unfold Aggregation.touch
    rw [hn]
    exact ⟨_, rfl, rfl, h⟩

theorem update_updates (hw : engine.Words) (i : Identity)
    (d : Definition) (reset : Bool) :
    Updates engine d (update i d reset engine).2 := by
  unfold update
  cases hc : validateUpdate i d reset engine with
  | error error =>
    rw [bind_error (look_error hc)]
    exact .refused
  | ok u =>
    rw [bind_ok (look_ok hc)]
    obtain ⟨_, -, hc⟩ := bind_eq_ok.1 hc
    obtain ⟨c, hcur, hc⟩ := okOr_ok.1 hc
    obtain ⟨-, hc⟩ := ensure_ok.1 hc
    obtain ⟨-, hc⟩ := ensure_ok.1 hc
    have hs : c.state.revision < u64Max :=
      Nat.lt_of_le_of_ne (hw d.id c hcur) (ensure_eq_ok.1 hc)
    obtain ⟨next, hn, hd, hwr⟩ := @Ranking.redefine_ok c d hs reset
    show Updates engine d (Effect.change _
      { engine with
        bySource := indexSources (dropSources engine.bySource d.id) d }).2
    unfold Effect.change
    simp only [hcur, okOr_some, ok_bind, hn]
    exact .made hd hwr

theorem indexed_update (h : SourcesIndexed engine) (hw : engine.Words)
    (i : Identity) (d : Definition) (r : Bool) :
    SourcesIndexed (update i d r engine).2 := by
  have hu := update_updates hw i d r
  generalize (update i d r engine).2 = after at hu ⊢
  cases hu with
  | refused => exact h
  | made hd hwr =>
    exact h.named hd (h.once.dropSources d.id)
      (present_dropSources _ _) fun id source => mem_dropSources

theorem words_update (h : engine.Words) (i : Identity)
    (d : Definition) (r : Bool) :
    (update i d r engine).2.Words := by
  have hu := update_updates h i d r
  generalize (update i d r engine).2 = after at hu ⊢
  cases hu with
  | refused => exact h
  | made hd hw => exact h.insert hw _ _ _

theorem indexed_remove (h : SourcesIndexed engine) (id : String) :
    SourcesIndexed (engine.remove id) := by
  unfold remove
  split
  · exact h
  · refine .of (h.once.dropSources id) (present_dropSources _ _)
      fun other source => ?_
    rw [mem_dropSources, h.exact]
    unfold Mentions
    rw [get_erase]
    split
    · next hs =>
      subst hs
      refine iff_of_false (fun hg => hg.2 rfl) ?_
      rintro ⟨ranking, hr, -⟩
      cases hr
    · next ho => exact and_iff_left (Ne.symm ho)

theorem words_remove (h : engine.Words) (id : String) :
    (engine.remove id).Words := by
  unfold remove
  split
  · exact h
  · intro o ranking hr
    rw [get_erase] at hr
    split at hr
    · cases hr
    · exact h o ranking hr

/-- The revision a checkpoint carries is a 64-bit number. -/
def Op.Word : Op → Prop
  | .restoreSessionCheckpoint checkpoint =>
    checkpoint.snapshot.revision ≤ u64Max
  | _ => True

instance : DecidablePred Op.Word := fun op => by
  unfold Op.Word
  split <;> infer_instance

/-- Whether an operation changes which rankings there are, or what they
count. -/
def Op.defines : Op → Bool
  | .create _ _ | .update _ _ _ | .remove _ => true
  | _ => false

theorem steady_restore {c : SessionCheckpoint}
    (hw : c.snapshot.revision ≤ u64Max) (ranking : Ranking) :
    Ranking.Steady ranking (Effect.change
      (Ranking.restoreSessionCheckpoint c) ranking).2 := by
  refine .change fun next hn => ?_
  obtain ⟨-, hn⟩ := ensure_ok.1 hn
  obtain ⟨state, -, hn⟩ := bind_eq_ok.1 hn
  obtain ⟨-, hn⟩ := ensure_ok.1 hn
  obtain ⟨_, -, hn⟩ := bind_eq_ok.1 hn
  obtain ⟨-, hn⟩ := ensure_ok.1 hn
  cases hn
  exact ⟨rfl, fun _ => hw⟩

variable {op : Op}

theorem perform_quiet (hn : NamedOnce engine.bySource) (hw : op.Word)
    (hd : op.defines = false) : Quiet engine (engine.perform op) := by
  cases op with
  | create | update | remove => cases hd
  | restoreSessionCheckpoint checkpoint =>
    exact quiet_within (steady_restore hw) _ engine
  | restoreAssignments id totals scored =>
    exact quiet_within (steady_take
      (.restoreAssignments totals scored) rfl) id engine
  | applyAssignment id before next =>
    exact quiet_within (steady_take
      (.applyAssignment before next) rfl) id engine
  | applyCommittedScore id option value =>
    exact quiet_within (steady_take
      (.applyCommittedScore option value) rfl) id engine
  | setEntryMetadata id key data =>
    exact quiet_within (steady_take
      (.setEntryMetadata key data) rfl) id engine
  | apply contribution now user gift =>
    exact quiet_forSource (fun ranking =>
      steady_contribute contribution now user gift ranking)
      hn contribution.source
  | expireAt now =>
    exact quiet_forAll (steady_expireOne now) engine
  | markRankingGap id =>
    exact quiet_within (steady_take .markRankingGap rfl) id engine
  | markRecoveryGap id =>
    exact quiet_within (steady_take .markRecoveryGap rfl) id engine
  | markGap creatorId roomId source =>
    exact quiet_forSource (steady_take
      (.markGap creatorId roomId source _) rfl) hn source
  | markMetricGap creatorId roomId source metric =>
    exact quiet_forSource (steady_take
      (.markGap creatorId roomId source _) rfl) hn source
  | markIngressLoss count =>
    unfold perform markIngressLoss
    dsimp only
    split
    · exact .refl engine
    · exact quiet_forAll (steady_take
      (.markIngressLoss count) rfl) engine
  | reset id =>
    exact quiet_within (steady_take .reset rfl) id engine
  | setPaused id paused =>
    exact quiet_within (steady_take (.setPaused paused) rfl) id engine

-- ==== runs

/-- An operation with arguments the host can pass. -/
def call (engine : Engine) (op : Op) : Option Engine :=
  if op.Word then some (engine.perform op) else none

/-- A ranking that may be created still gets a number. -/
def Supplied (engine : Engine) : Op → Prop
  | .create identity definition => engine.Passes identity definition →
      engine.nextInstance < u64Max
  | _ => True

theorem words_perform (hn : NamedOnce engine.bySource) (h : engine.Words)
    (hw : op.Word) : (engine.perform op).Words := by
  cases hd : op.defines with
  | false => exact h.quiet (perform_quiet hn hw hd)
  | true =>
    cases op with
    | create i d => exact words_create h i _
    | update i d r =>
      exact words_update h i d r
    | remove id => exact words_remove h id
    | _ => cases hd

/-- An operation leaves the index exact if it is no `create` that runs
out of numbers. -/
theorem indexed_perform (h : SourcesIndexed engine) (hw : engine.Words)
    (hwr : op.Word) :
    SourcesIndexed (engine.perform op) ↔ engine.Supplied op := by
  cases hd : op.defines with
  | false =>
    refine iff_of_true (h.quiet (perform_quiet h.once hwr hd)) ?_
    cases op with
    | create => cases hd
    | _ => trivial
  | true =>
    cases op with
    | create i d =>
      exact indexed_create h i d
    | update i d reset =>
      exact iff_of_true (indexed_update h hw i d reset) trivial
    | remove id => exact iff_of_true (indexed_remove h id) trivial
    | _ => cases hd

theorem indexed_empty : SourcesIndexed empty := by
  refine .of .empty (fun s => ?_) fun id s => ?_
  · rw [show empty.bySource[s]? = none from getElem?_empty]
    exact some_ne_none [] ∘ Eq.symm
  · rw [show empty.bySource[s]? = none from getElem?_empty]
    refine iff_of_false List.not_mem_nil ?_
    rintro ⟨ranking, hr, -⟩
    rw [show empty.rankings[id]? = none from getElem?_empty] at hr
    cases hr

theorem words_empty : empty.Words := by
  intro id ranking hr
  rw [show empty.rankings[id]? = none from getElem?_empty] at hr
  cases hr

/-- The index is exact all along a run exactly if every ranking created
in it still got a number. -/
theorem indexed_iff (ops : List Op) :
    (∀ engine, Reaches call empty ops engine → SourcesIndexed engine)
      ↔ ∀ done identity definition rest engine,
        ops = done ++ .create identity definition :: rest →
        runActions call empty done = some engine →
        engine.Passes identity definition →
        engine.nextInstance < u64Max := by
  have hc : ∀ {engine after : Engine} {op : Op},
      engine.call op = some after →
      op.Word ∧ engine.perform op = after := by
    intro engine after op h
    unfold call at h
    split at h
    · next hw => exact ⟨hw, Option.some.inj h⟩
    · cases h
  have hrn := @reaches_iff_within _ _ call empty
    (fun engine => engine.Reachable ∧ engine.Words) SourcesIndexed Supplied
    ⟨.empty, words_empty⟩ indexed_empty
    (by
      rintro engine op after ⟨hr, hwr⟩ h
      obtain ⟨hw, rfl⟩ := hc h
      exact ⟨hr.perform op, words_perform hr.named_once hwr hw⟩)
    (by
      rintro engine op after ⟨-, hwr⟩ hid h
      obtain ⟨hw, rfl⟩ := hc h
      exact indexed_perform hid hwr hw)
    ops
  rw [hrn]
  constructor
  · intro h done identity definition rest engine hops hen
    exact h done _ rest engine _ hops hen (if_pos trivial)
  · intro h done op rest engine after hops hen _
    cases op with
    | create identity definition =>
      exact h done identity definition rest engine hops hen
    | _ => trivial

-- ==== one too many

/-- The ranking of likes, created and removed again and again. -/
def churn (rounds : Nat) : List Op :=
  (List.replicate rounds
    [.create (some (.replicate 16 0)) likes, .remove "likes"]).flatten

/-- An engine without rankings. -/
def idle (nextInstance : Nat) : Engine := ⟨∅, ∅, nextInstance⟩

theorem idle_passes (ni : Nat) :
    (idle ni).Passes (some (.replicate 16 0)) likes := by
  refine ⟨?_, ?_, ?_, rfl⟩
  · exact show (∅ : Table String Ranking).size < 128 by decide
  · decide +kernel
  · exact isNone_iff_eq_none.2 getElem?_empty

theorem drop_indexed (d : Definition) :
    dropSources (indexSources ∅ d) d.id = ∅ := by
  refine Table.ext fun source => ?_
  have hp := present_dropSources (indexSources ∅ d) d.id source
  have hn : ∀ id, id ∉ (dropSources (indexSources ∅ d)
      d.id)[source]?.getD [] := by
    intro id hin
    obtain ⟨hin, ho⟩ := mem_dropSources.1 hin
    rw [mem_indexSources, getElem?_empty] at hin
    rcases hin with hin | ⟨hid, -⟩
    · exact List.not_mem_nil hin
    · exact ho hid
  cases hids : (dropSources (indexSources ∅ d) d.id)[source]? with
  | none => rfl
  | some ids =>
    rw [hids] at hp hn
    have hnil := List.eq_nil_iff_forall_not_mem.2 hn
    exact absurd (congrArg some hnil) hp

theorem idle_round {ni : Nat} (h : ni < u64Max) :
    ((idle ni).perform
      (.create (some (.replicate 16 0)) likes)).perform (.remove "likes")
      = idle (ni + 1) := by
  have hc := create_creates (some (.replicate 16 0)) likes (idle ni)
  change (remove "likes" (create _ likes (idle ni)).2) = _
  generalize (create _ likes (idle ni)).2 = after at hc ⊢
  cases hc with
  | refused hr => exact absurd (idle_passes _) hr
  | spent _ hs => exact absurd h hs
  | made bytes =>
    unfold remove
    rw [if_neg (by
      change ¬ Option.isNone
        ((∅ : Table String Ranking).insert "likes" _)["likes"]? = true
      exact Bool.false_ne_true)]
    congr 1
    exact drop_indexed likes

theorem idle_churn (r : Nat) {ni : Nat}
    (h : ni + r ≤ u64Max) :
    runActions call (idle ni) (churn r) = some (idle (ni + r)) := by
  induction r generalizing ni with
  | zero => rfl
  | succ r ih =>
    have hr := @idle_round ni (by omega)
    have hrs := @ih (ni + 1) (by omega)
    change runActions call (((idle ni).perform _).perform _) (churn r) = _
    rw [hr, hrs]
    congr 2
    omega

/-- After as many rankings as there are numbers the next one is named
under its source and does not exist. -/
theorem dangling_source :
    ¬ ∀ (ops : List Op) (engine : Engine),
      Reaches call empty ops engine → SourcesIndexed engine := by
  intro h
  have het := (indexed_iff (churn u64Max
    ++ [.create (some (.replicate 16 0)) likes])).1 (h _)
  have hs := @idle_churn u64Max 0 (Nat.zero_add _).le
  exact absurd (het (churn u64Max) _ likes [] (idle u64Max) rfl hs
    (idle_passes u64Max)) (Nat.lt_irrefl u64Max)

end Engine

end TikTools.Aggregation
