/-
Rolling windows of an engine.

A ranking of the engine sees the contributions to its sources and the
ticks of the clock, each once, since no source names a ranking twice
(`Reachable.named_once`). What it accepted along the way is read off its
turns (`accepted`), and the window and the scores are those of what was
accepted, whatever the clocks of the calls (`rolling_window`).
-/
import TikTools.Aggregation.Engine
import TikTools.Aggregation.Window

namespace TikTools.Aggregation

open TikTools.Lib Std List Option Table Effect

namespace Engine

-- ==== no source names one twice

/-- Every source names a ranking at most once. -/
def NamedOnce (bySource : Table String (List String)) : Prop :=
  ∀ source : String, (bySource[source]?.getD []).Nodup

theorem NamedOnce.empty : NamedOnce ∅ := by
  intro s
  rw [show (∅ : Table String (List String))[s]? = none from
    ExtTreeMap.getElem?_empty]
  exact nodup_nil

variable {bySource : Table String (List String)}

theorem NamedOnce.indexSources (h : NamedOnce bySource)
    (d : Definition) :
    NamedOnce (indexSources bySource d) := by
  unfold Engine.indexSources
  generalize d.sources = sources
  induction sources generalizing bySource with
  | nil => exact h
  | cons r rest ih =>
    apply ih
    intro s
    rw [get_insert]
    split
    · rw [getD_some]
      split
      · exact h r.source
      · next hn =>
        refine nodup_append.2 ⟨h r.source, nodup_singleton _, ?_⟩
        intro a ha b hb hab
        cases mem_singleton.1 hb
        exact hn (hab ▸ ha)
    · exact h s

theorem NamedOnce.dropSources (h : NamedOnce bySource) (id : String) :
    NamedOnce (dropSources bySource id) := by
  intro s
  unfold Engine.dropSources
  rw [Table.get_retain, Table.get_map]
  have hids := h s
  cases hf : bySource[s]? with
  | none => exact nodup_nil
  | some ids =>
    rw [hf, getD_some] at hids
    rw [map_some, filter_some]
    split
    · exact hids.filter _
    · exact nodup_nil

theorem named_create {i : Identity} {d : Definition} :
    Effect.Maintains (fun e : Engine => NamedOnce e.bySource)
      (create i d) := by
  refine .bind (.look _) fun _ => .bind (.look _) fun _ =>
    .bind (.look _) fun _ => .bind (.lift _) fun _ => .bind (.change ?_)
      fun _ => .change ?_
  · intro e n h hn
    cases h
    exact hn.indexSources d
  · intro e n h hn
    obtain ⟨number, -, h⟩ := okOr_ok.1 h
    cases h
    exact hn

theorem named_update {i : Identity} {d : Definition}
    {r : Bool} :
    Effect.Maintains (fun e : Engine => NamedOnce e.bySource)
      (update i d r) := by
  refine .bind (.look _) fun _ => .bind (.change ?_) fun _ => .change ?_
  · intro e n h hn
    cases h
    exact (hn.dropSources d.id).indexSources d
  · intro e n h hn
    obtain ⟨ranking, -, h⟩ := okOr_ok.1 h
    split at h
    · cases h
      exact hn
    · cases h

theorem bySource_within (id : String) (act : Effect Ranking Error Unit)
    (e : Engine) :
    (within id act e).2.bySource = e.bySource := by
  unfold within
  split <;> rfl

theorem forSource_keeps {γ : Type} {f : Engine → γ}
    (hf : ∀ engine rankings, f { engine with rankings } = f engine)
    (source : String) (act : Ranking → Ranking × Option Error)
    (engine : Engine) : f (engine.forSource source act).1 = f engine := by
  unfold forSource
  generalize engine.bySource[source]?.getD [] = ids
  generalize ([] : List (String × Error)) = failures
  induction ids generalizing engine failures with
  | nil => rfl
  | cons id rest ih =>
    rw [foldl_cons]
    dsimp only
    split
    · exact ih _ _
    · exact (ih _ _).trans (hf _ _)

theorem bySource_forSource (source : String)
    (act : Ranking → Ranking × Option Error) (engine : Engine) :
    (engine.forSource source act).1.bySource = engine.bySource :=
  forSource_keeps (fun _ _ => rfl) source act engine

theorem Reachable.named_once {e : Engine} (h : Reachable e) :
    NamedOnce e.bySource := by
  induction h with
  | empty => exact .empty
  | perform op _ ih =>
    cases op with
    | create i d => exact named_create _ ih
    | update i d reset => exact named_update _ ih
    | remove id =>
      unfold Engine.perform Engine.remove
      dsimp only
      split
      · exact ih
      · exact ih.dropSources id
    | expireAt now => exact ih
    | markIngressLoss count =>
      unfold Engine.perform Engine.markIngressLoss
      dsimp only
      split <;> exact ih
    | apply contribution now user gift =>
      unfold Engine.perform Engine.applyAt
      rwa [bySource_forSource]
    | markGap ci ri s =>
      unfold Engine.perform
      rwa [bySource_forSource]
    | markMetricGap ci ri s metric =>
      unfold Engine.perform
      rwa [bySource_forSource]
    | _ =>
      unfold Engine.perform
      rwa [bySource_within]

-- ==== turns of a ranking

/-- A ranking has one turn where its source names it, and none where it
does not. -/
theorem get_forSource (s id : String)
    (act : Ranking → Ranking × Option Error) {e : Engine}
    (hnm : NamedOnce e.bySource) :
    (e.forSource s act).1.rankings[id]?
      = e.rankings[id]?.map fun ranking =>
          if id ∈ e.bySource[s]?.getD [] then (act ranking).1
          else ranking := by
  unfold forSource
  have hn := hnm s
  clear hnm
  generalize e.bySource[s]?.getD [] = ids at hn ⊢
  generalize ([] : List (String × Error)) = f
  induction ids generalizing e f with
  | nil =>
    rw [foldl_nil]
    cases e.rankings[id]? <;> simp
  | cons o rest ih =>
    rw [nodup_cons] at hn
    rw [foldl_cons]
    dsimp only
    by_cases hid : o = id
    · subst hid
      cases ho : e.rankings[o]? with
      | none =>
        rw [ih hn.2, ho]
        rfl
      | some ranking =>
        rw [ih hn.2, get_insert_self, map_some,
          map_some, if_neg hn.1, if_pos mem_cons_self]
    · have hmem : (id ∈ o :: rest) = (id ∈ rest) := by
        rw [mem_cons]
        exact propext (or_iff_right (Ne.symm hid))
      cases ho : e.rankings[o]? with
      | none =>
        rw [ih hn.2]
        simp only [hmem]
      | some ranking =>
        rw [ih hn.2, get_insert_ne _ _ hid]
        simp only [hmem]

-- ==== what is fed in

/-- The calls that let time pass. -/
inductive Feed where
  | contribute (contribution : Contribution) (now : Nat)
      (user gift : Option EntryMetadata)
  | expireAt (now : Nat)

/-- The operation of a call. -/
def Feed.op : Feed → Op
  | .contribute contribution now user gift =>
    .apply contribution now user gift
  | .expireAt now => .expireAt now

/-- What a ranking accepts in one call. -/
def accepts (id : String) (engine : Engine) : Feed → List WindowEvent
  | .contribute contribution now _ _ =>
    match engine.rankings[id]? with
    | none => []
    | some ranking =>
      if id ∈ engine.bySource[contribution.source]?.getD [] then
        (ranking.admitted contribution now).toList
      else []
  | .expireAt _ => []

/-- The engine after some calls. -/
def fed (engine : Engine) (feeds : List Feed) : Engine :=
  feeds.foldl (fun engine feed => engine.perform feed.op) engine

/-- Everything a ranking accepted in some calls, with the clock at which
it did. -/
def accepted (id : String) : Engine → List Feed → List WindowEvent
  | _, [] => []
  | engine, feed :: rest =>
    accepts id engine feed ++ accepted id (engine.perform feed.op) rest

theorem fed_append (e : Engine) (f more : List Feed) :
    e.fed (f ++ more) = (e.fed f).fed more :=
  foldl_append

theorem named_fed {e : Engine} (h : NamedOnce e.bySource)
    (f : Feed) : NamedOnce (e.perform f.op).bySource := by
  cases f with
  | contribute c now u g =>
    show NamedOnce (applyAt c now u g e).1.bySource
    unfold applyAt
    rwa [bySource_forSource]
  | expireAt now => exact h

theorem named_fedAll {e : Engine} (h : NamedOnce e.bySource)
    (f : List Feed) : NamedOnce (e.fed f).bySource := by
  induction f generalizing e with
  | nil => exact h
  | cons fe rest ih => exact ih (named_fed h fe)

variable {durationMs maxEvents : Nat}

variable {ranking : Ranking}

theorem continues_perform {e : Engine}
    (hn : NamedOnce e.bySource) {id : String}
    (hr : e.rankings[id]? = some ranking)
    (h : ranking.Balanced durationMs maxEvents) (hdur : 0 < durationMs)
    (feed : Feed) :
    ∃ next, (e.perform feed.op).rankings[id]? = some next
      ∧ ranking.Continues durationMs maxEvents next (accepts id e feed) := by
  cases feed with
  | contribute c now user gift =>
    show ∃ next, (applyAt c now user gift e).1.rankings[id]? = some next ∧ _
    unfold applyAt accepts
    rw [get_forSource _ _ _ hn, hr, map_some]
    dsimp only
    split
    · exact ⟨_, rfl, h.contribute hdur c now user gift⟩
    · exact ⟨_, rfl, .refl h⟩
  | expireAt now =>
    show ∃ next, (ExtTreeMap.map (fun _ ranking =>
      Ranking.expireOne now ranking) e.rankings)[id]? = some next ∧ _
    rw [Table.get_map, hr, map_some]
    exact ⟨_, rfl, h.expireOne now⟩

theorem continues_fed (f : List Feed) {e : Engine}
    (hn : NamedOnce e.bySource) {id : String}
    (hr : e.rankings[id]? = some ranking)
    (h : ranking.Balanced durationMs maxEvents) (hd : 0 < durationMs) :
    ∃ n, (e.fed f).rankings[id]? = some n
      ∧ ranking.Continues durationMs maxEvents n (accepted id e f) := by
  induction f generalizing e ranking with
  | nil => exact ⟨ranking, hr, .refl h⟩
  | cons fe rest ih =>
    obtain ⟨middle, hm, hs⟩ := continues_perform hn hr h hd fe
    obtain ⟨n, hnx, hrs⟩ := ih (named_fed hn fe) hm hs.balanced
    exact ⟨n, hnx, hs.trans hrs⟩

theorem created {i : Identity} {d : Definition}
    {engine₀ e : Engine}
    (h : create i d engine₀ = (.ok (), e)) :
    d.valid = true ∧ ∃ ranking,
      e.rankings[d.id]? = some ranking
      ∧ ranking.definition = d
      ∧ ranking.state = Aggregation.new d.capacity
      ∧ ranking.windowEvents = [] := by
  obtain ⟨_, engine₁, _, hv'⟩ := bind_eq_ok.1 h
  obtain ⟨_, engine₂, hv, hu'⟩ := bind_eq_ok.1 hv'
  obtain ⟨_, engine₃, _, hb'⟩ := bind_eq_ok.1 hu'
  obtain ⟨bytes, engine₄, _, hn'⟩ := bind_eq_ok.1 hb'
  obtain ⟨_, engine₅, _, hl⟩ := bind_eq_ok.1 hn'
  unfold Effect.change at hl
  split at hl
  · next engine₆ hc =>
    cases hl
    obtain ⟨number, -, hc⟩ := okOr_ok.1 hc
    cases hc
    refine ⟨?_, _, get_insert_self _ _ _, rfl, rfl, rfl⟩
    exact ensure_eq_ok.1 (Prod.ext_iff.1 hv).1
  · cases hl

/-- However the clocks of the calls go, a rolling ranking counts what it
accepted and what is not too old, and its expiry never takes out what is
not there. -/
theorem rolling_window {engine₀ engine : Engine} {identity : Identity}
    {definition : Definition} (hreach : Reachable engine₀)
    (hcreate : create identity definition engine₀ = (.ok (), engine))
    (hwindow : definition.window = .rolling durationMs maxEvents)
    (feeds : List Feed) :
    ∃ ranking, (engine.fed feeds).rankings[definition.id]? = some ranking
      ∧ (∀ now, Ranking.ExpiresSafely durationMs ranking.windowEvents
          { ranking with lastTime := max ranking.lastTime now })
      ∧ (ranking.state.revision < u64Max →
        (∀ key : String, ranking.state.scores[key]?.getD 0
          = sumFor key ((accepted definition.id engine feeds).filter
              fun event => ranking.lastTime - event.1 < durationMs))
        ∧ ranking.state.total = sumOf ranking.state.scores
        ∧ (ranking.windowEvents.Pairwise fun a b => a.1 ≤ b.1)
        ∧ ranking.windowEvents.length ≤ maxEvents
        ∧ ∀ earlier later prior, feeds = earlier ++ later →
            (engine.fed earlier).rankings[definition.id]? = some prior →
            ∀ event ∈ accepted definition.id engine earlier,
              durationMs ≤ prior.lastTime - event.1 →
                durationMs ≤ ranking.lastTime - event.1
                  ∧ event ∉ ranking.windowEvents) := by
  have hn : NamedOnce engine.bySource := by
    have h := @named_create identity definition engine₀ hreach.named_once
    rwa [hcreate] at h
  obtain ⟨hv, start, hs, hdef, hst, hem⟩ := created hcreate
  have hdur : 0 < durationMs := by
    unfold Definition.valid at hv
    simp only [hwindow, Window.valid, Bool.and_eq_true,
      decide_eq_true_eq] at hv
    omega
  have hbal : start.Balanced durationMs maxEvents := by
    refine ⟨?_, ?_, ?_, ?_⟩
    · rw [hdef]
      exact hwindow
    · rw [hst]
      exact .new _
    · intro key
      rw [hst, hem]
      rfl
    · rw [hem]
      nofun
  have hw : start.Windowed durationMs maxEvents [] := by
    refine ⟨hbal.window, hem, .nil, nofun, hbal.counted, ?_⟩
    rw [hem]
    exact Nat.zero_le _
  obtain ⟨ranking, hr, hrun⟩ := continues_fed feeds hn hs hbal hdur
  refine ⟨ranking, hr, ?_, ?_⟩
  · intro now
    have hc := hrun.balanced.counted
    exact Ranking.Counted.safe ⟨hc.represented, hc.scores, hc.positive⟩
  · intro hls
    have hnow := hrun.windowed [] hw hls
    rw [nil_append] at hnow
    refine ⟨?_, hnow.counted.represented.total, ?_, hnow.bounded, ?_⟩
    · intro key
      rw [hnow.counted.scores key, hnow.events]
    · rw [hnow.events]
      exact hnow.inOrder.filter _
    · rintro earlier later prior rfl hp event hev hold
      -- the clock only went on since
      obtain ⟨prior', hp', hf⟩ := continues_fed earlier hn hs hbal hdur
      have hsm : prior' = prior := Option.some.inj (hp'.symm.trans hp)
      subst hsm
      have hn' : NamedOnce (engine.fed earlier).bySource :=
        named_fedAll hn earlier
      obtain ⟨last, hl, hsnd⟩ := continues_fed later hn' hp hf.balanced hdur
      rw [fed_append] at hr
      have hend : last = ranking := Option.some.inj (hl.symm.trans hr)
      subst hend
      have ht := hsnd.lastTime
      refine ⟨by omega, ?_⟩
      rw [hnow.events, mem_filter, decide_eq_true_eq]
      omega

/-- A ranking of the users of one room over the last second. -/
def lastSecond : Definition where
  schemaVersion := 1
  id := "likes"
  creatorId := "c"
  roomId := "r"
  window := .rolling 1000 10
  sources := [⟨"tiktok.like", "like.count", 1, true, []⟩]
  limit := 3
  capacity := 5

/-- Fifteen likes of a user of the room. -/
def fifteenLikes : Contribution where
  creatorId := "c"
  roomId := "r"
  source := "tiktok.like"
  user := some "u"
  gift := none
  option := none
  team := none
  customKey := none
  metrics := [("like.count", 15)]

theorem rolling_window_likes :
    let engine := (create (some (.replicate 16 0)) lastSecond empty).2
    let feeds := [Feed.contribute fifteenLikes 5000 none none,
      .contribute fifteenLikes 4000 none none, .expireAt 6000]
    ∃ ranking, (engine.fed feeds).rankings["likes"]? = some ranking
      ∧ (ranking.state.revision < u64Max →
        ranking.state.scores["u"]?.getD 0
          = sumFor "u" ((accepted "likes" engine feeds).filter
              fun event => ranking.lastTime - event.1 < 1000)
        ∧ ranking.windowEvents.length ≤ 10) := by
  intro engine feeds
  have hc : create (some (.replicate 16 0)) lastSecond empty
      = (.ok (), engine) := rfl
  obtain ⟨ranking, hr, -, h⟩ := rolling_window .empty hc rfl feeds
  refine ⟨ranking, hr, fun hl => ?_⟩
  obtain ⟨hs, -, -, hbdd, -⟩ := h hl
  exact ⟨hs "u", hbdd⟩

end Engine

end TikTools.Aggregation
