/-
The cache of a registry's documents, and when it stays usable.

A document and its signature are fetched one after the other, and each
replaces its cached file before the two are verified together. So a
fresh document whose signature does not follow leaves a pair that no
longer verifies, and with the server away there is nothing to go back to.
-/
import Mathlib.Data.List.Induction

namespace TikTools.Plugins.Fetched

open List

/-- What a request comes to; an unchanged reply without a tag to compare
is a failure like any other. -/
inductive Reply (B : Type) where
  | fresh (bytes : B) (etag : Option String)
  | notModified
  | notFound
  | failed

/-- A cached file with its entity tag. -/
structure CachedFile (B : Type) where
  bytes : B
  etag : Option String

structure Cache (B : Type) where
  document : Option (CachedFile B)
  signature : Option (CachedFile B)

variable {B : Type}

/-- `cached_get`: the bytes, or none for an error, and the file left. -/
def cachedGet (file : Option (CachedFile B)) :
    Reply B → Option B × Option (CachedFile B)
  | .fresh bytes etag => (some bytes, some ⟨bytes, etag⟩)
  | .notModified => (file.map (·.bytes), file)
  | .notFound => (none, file)
  | .failed => (file.map (·.bytes), file)

/-- The replies to the requests of one fetch. -/
structure Replies (B : Type) where
  document : Reply B
  signature : Reply B

section

variable (verifies : B → B → Bool) (cache : Cache B) (replies : Replies B)

/-- `document` of a verified registry; `verifies` is the check of a
signature against a document. -/
def document : Option B × Cache B :=
  let got := cachedGet cache.document replies.document
  match got.1 with
  | none => (none, { cache with document := got.2 })
  | some bytes =>
    let signed := cachedGet cache.signature replies.signature
    (match signed.1 with
      | none => none
      | some signature => if verifies signature bytes then some bytes else none,
      ⟨got.2, signed.2⟩)

/-- The cached signature verifies for the cached document. -/
def Cache.Verifies : Prop :=
  ∃ document signature, cache.document = some document
    ∧ cache.signature = some signature
    ∧ verifies signature.bytes document.bytes = true

end

/-- What a cached file is to hold once a reply has come. -/
def Reply.replaces (file : Option (CachedFile B)) : Reply B → Option B
  | .fresh bytes _ => some bytes
  | _ => file.map (·.bytes)

/-- The server cannot be reached, or says that nothing changed. -/
def Reply.Away (reply : Reply B) : Prop :=
  reply = .failed ∨ reply = .notModified

variable {verifies : B → B → Bool} {cache : Cache B} {replies : Replies B}

theorem cachedGet_away {f : Option (CachedFile B)} {r : Reply B}
    (h : r.Away) : cachedGet f r = (f.map (·.bytes), f) := by
  rcases h with rfl | rfl <;> rfl

theorem document_away (hdoc : replies.document.Away)
    (hsig : replies.signature.Away) :
    (∃ b, (document verifies cache replies).1 = some b)
      ↔ cache.Verifies verifies := by
  unfold document
  rw [cachedGet_away hdoc, cachedGet_away hsig]
  cases hd : cache.document with
  | none => simp [Cache.Verifies, hd]
  | some file =>
    cases hs : cache.signature with
    | none => simp [Cache.Verifies, hs]
    | some signature =>
      simp [Cache.Verifies, hd, hs]

/-- What was just accepted is what is cached. -/
theorem document_accepted {bytes : B}
    (h : (document verifies cache replies).1 = some bytes) :
    (document verifies cache replies).2.Verifies verifies := by
  have hget : ∀ {file : Option (CachedFile B)} {reply : Reply B} {bytes : B},
      (cachedGet file reply).1 = some bytes →
      ∃ kept, (cachedGet file reply).2 = some kept ∧ kept.bytes = bytes := by
    intro file reply bytes hr
    cases reply with
    | fresh =>
      cases hr
      exact ⟨_, rfl, rfl⟩
    | notFound => cases hr
    | notModified => exact Option.map_eq_some_iff.1 hr
    | failed => exact Option.map_eq_some_iff.1 hr
  unfold document at h ⊢
  dsimp only at h ⊢
  cases hgot : (cachedGet cache.document replies.document).1 with
  | none =>
    rw [hgot] at h
    cases h
  | some read =>
    rw [hgot] at h
    dsimp only at h ⊢
    split at h
    · cases h
    · next signature hsgn =>
      split at h
      · next hv =>
        obtain ⟨kept, hk, rfl⟩ := hget hgot
        obtain ⟨s, hc, rfl⟩ := hget hsgn
        exact ⟨kept, s, hk, hc, hv⟩
      · cases h

-- ==== runs

section

variable (verifies)

def fetched (fetches : List (Replies B)) : Cache B :=
  fetches.foldl (fun cache replies => (document verifies cache replies).2)
    ⟨none, none⟩

/-- One of the fetches was accepted. -/
def Accepted (fetches : List (Replies B)) : Prop :=
  ∃ before replies after, fetches = before ++ replies :: after
    ∧ ((document verifies (fetched verifies before) replies).1).isSome

/-- Once a document was accepted, it can be had with the server away. -/
def StaysUsable (fetches : List (Replies B)) : Prop :=
  ∀ before, before <+: fetches → Accepted verifies before →
    ∀ replies : Replies B, replies.document.Away → replies.signature.Away →
      ∃ bytes, (document verifies (fetched verifies before) replies).1
        = some bytes

/-- The replies of a fetch go together: the document is not there, or
what the signature's file is to hold verifies for what the document's
is. -/
def Replies.Match (cache : Cache B) (replies : Replies B) : Prop :=
  replies.document = .notFound
    ∨ ∃ document signature,
      replies.document.replaces cache.document = some document
        ∧ replies.signature.replaces cache.signature = some signature
        ∧ verifies signature document = true

/-- Once a document was accepted, the replies of each fetch go
together. -/
def KeepsPairs (fetches : List (Replies B)) : Prop :=
  ∀ before replies after, fetches = before ++ replies :: after →
    Accepted verifies before →
    replies.Match verifies (fetched verifies before)

end

theorem fetched_append (b : List (Replies B)) (replies : Replies B) :
    fetched verifies (b ++ [replies])
      = (document verifies (fetched verifies b) replies).2 :=
  foldl_append

theorem accepted_append {b : List (Replies B)} :
    Accepted verifies (b ++ [replies])
      ↔ Accepted verifies b
        ∨ ((document verifies (fetched verifies b) replies).1).isSome := by
  constructor
  · rintro ⟨f, l, ba, heq, h⟩
    rcases eq_nil_or_concat ba with rfl | ⟨r, x, rfl⟩
    · obtain ⟨rfl, hl⟩ := append_inj' heq rfl
      cases hl
      exact .inr h
    · rw [concat_eq_append, ← cons_append,
        ← append_assoc] at heq
      exact .inl ⟨f, l, r, (append_inj' heq rfl).1, h⟩
  · rintro (⟨f, l, ba, rfl, h⟩ | h)
    · exact ⟨f, l, ba ++ [replies], by simp, h⟩
    · exact ⟨b, replies, [], rfl, h⟩

/-- From a pair that verifies, a fetch leaves one exactly if its replies
go together. -/
theorem document_verifies_iff (h : cache.Verifies verifies) :
    (document verifies cache replies).2.Verifies verifies
      ↔ replies.Match verifies cache := by
  have hget : ∀ (f : CachedFile B) (r : Reply B),
      (cachedGet (some f) r).2.map (·.bytes) = r.replaces (some f) := by
    intro f r
    cases r <;> rfl
  obtain ⟨kept, s, hk, hs, hv⟩ := h
  unfold document Replies.Match
  rw [hk, hs, ← hget, ← hget]
  generalize cachedGet (some s) replies.signature = signature
  cases hr : replies.document with
  | notFound => simp [cachedGet, Cache.Verifies, hv]
  | _ =>
    rcases signature with ⟨read, _ | left⟩ <;>
      simp [cachedGet, Cache.Verifies]

/-- The cache stays usable exactly while the replies of every fetch after
the first accepted one go together. -/
theorem stays_usable_iff (verifies : B → B → Bool)
    (fetches : List (Replies B)) :
    StaysUsable verifies fetches ↔ KeepsPairs verifies fetches := by
  constructor
  · intro h before replies after heq hacc
    have hu : ∀ more, more <+: fetches → Accepted verifies more →
        (fetched verifies more).Verifies verifies := fun more hmr hs =>
      (document_away (.inl rfl) (.inl rfl)).1
        (h more hmr hs ⟨.failed, .failed⟩ (.inl rfl) (.inl rfl))
    rw [← document_verifies_iff (hu before ⟨_, heq.symm⟩ hacc),
      ← fetched_append]
    exact hu _ ⟨after, by rw [heq]; simp⟩ (accepted_append.2 (.inl hacc))
  · intro h before hpre hacc replies hdoc hsig
    refine (document_away hdoc hsig).2 ?_
    induction before using List.reverseRecOn with
    | nil =>
      obtain ⟨front, last, back, heq, -⟩ := hacc
      cases front <;> cases heq
    | append_singleton front last ih =>
      have hf : front <+: fetches := (prefix_append _ _).trans hpre
      obtain ⟨after, rfl⟩ := hpre
      rw [fetched_append]
      rcases accepted_append.1 hacc with hacc | hl
      · exact (document_verifies_iff (ih hf hacc)).2
          (h front last after (by simp) hacc)
      · obtain ⟨bytes, hb⟩ := Option.isSome_iff_exists.1 hl
        exact document_accepted hb

/-- A new document whose signature does not arrive. -/
theorem new_document_strands_cache :
    ¬ StaysUsable (fun signature document : Nat => signature == document)
      [⟨.fresh 1 none, .fresh 1 none⟩, ⟨.fresh 2 none, .failed⟩] := by
  intro h
  obtain ⟨bytes, hb⟩ := h _ (prefix_refl _)
    ⟨[], _, _, rfl, rfl⟩ ⟨.failed, .failed⟩ (.inl rfl) (.inl rfl)
  cases hb

end TikTools.Plugins.Fetched
