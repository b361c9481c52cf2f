/-
The trust store: which public keys a host accepts, for what, and on
whose word.

One map from KEY IDS holds the keys of every registry together. An
insertion replaces whatever the id named before; a delegation is
skipped only when the id is at that moment pinned as a root key.
Verification finds the key by id and looks at revocation, validity and
role; the source beside the key is never consulted.

Signature checking itself belongs to a library outside the repository
and enters as the parameter `check`.
-/
import TikTools.Lib.Checked
import TikTools.Lib.Table

namespace TikTools.Plugins

open TikTools.Lib List

-- ==== keys

/-- A free-form name of a key, such as `index-1`; nothing ties it to
the key material. -/
abbrev KeyId := String

inductive KeyRole where
  | root | index | publisher
  deriving DecidableEq, Repr

structure PublicKey where
  keyId : KeyId
  algorithm : String := "ed25519"
  publicKey : String
  deriving DecidableEq, Repr

structure TrustedKey where
  key : PublicKey
  role : KeyRole
  publisher : Option String := none
  scopes : List String := []
  notBefore : Option Nat := none
  notAfter : Option Nat := none
  revoked : Bool := false
  deriving DecidableEq, Repr

/-- A pinned root key. -/
def TrustedKey.root (key : PublicKey) : TrustedKey := { key, role := .root }

def TrustedKey.isValidAt (key : TrustedKey) (now : Nat) : Bool :=
  (key.notBefore.all fun start => start ≤ now)
    && key.notAfter.all fun stop => now ≤ stop

/-- The keys a registry's root signs for. -/
structure KeysDocument where
  version : Nat := 1
  expires : Option Nat := none
  keys : List TrustedKey
  deriving DecidableEq, Repr

def KeysDocument.isExpired (document : KeysDocument) (now : Nat) : Bool :=
  document.expires.any fun expires => expires < now

/-- The delegations of a document: its entries that are no roots. -/
def KeysDocument.delegated (document : KeysDocument) : List TrustedKey :=
  document.keys.filter fun key => key.role ≠ .root

-- ==== store

/-- The trusted keys by id, each with the registry it came from. -/
structure TrustStore where
  keys : Table KeyId (TrustedKey × String) := ∅

inductive PackageError where
  | unknownKey (key : KeyId)
  | revokedKey (key : KeyId)
  | keyExpired (key : KeyId)
  | keyScope (key subject : String)
  | signatureMismatch
  | invalidKey (message : String)
  deriving DecidableEq, Repr

/-- A detached signature: the key it names and the signature value. -/
structure DetachedSignature (G : Type) where
  keyId : KeyId
  signature : G

/-- The signature of a package, over its checksums file. -/
structure PackageSignature where
  keyId : KeyId
  publisher : String
  signature : String
  deriving DecidableEq

structure VerifiedSignature where
  publisher : String
  keyId : KeyId
  source : String
  deriving DecidableEq

namespace PackageError

/-- The text of an error. -/
def text : PackageError → String
  | .unknownKey key => "signing key " ++ key ++ " is not trusted"
  | .revokedKey key => "signing key " ++ key ++ " has been revoked"
  | .keyExpired key =>
    "signing key " ++ key ++ " is expired or not yet valid"
  | .keyScope key subject =>
    "signing key " ++ key ++ " may not sign " ++ subject
  | .signatureMismatch => "plugin signature does not verify"
  | .invalidKey message => "signing key file is invalid: " ++ message

/-- The errors of kind `UntrustedPublisher`. -/
def isUntrustedPublisher : PackageError → Bool
  | .unknownKey _ => true
  | .keyExpired _ => true
  | .keyScope _ _ => true
  | _ => false

end PackageError

namespace TrustedKey

/-- A scope names a package, or with a star the packages it starts. -/
def scopeAllows (packageId scope : String) : Bool :=
  if scope.toList.getLast? = some '*' then
    let start := scope.toList.dropLast
    start.isPrefixOf packageId.toList
      && start.length < packageId.toList.length
  else scope = packageId

/-- `allows_package`; without scopes, the packages named after the
publisher. -/
def allowsPackage (key : TrustedKey) (packageId : String) : Bool :=
  match key.publisher with
  | none => false
  | some publisher =>
    if key.scopes = [] then
      let rest := packageId.toList.drop publisher.toList.length
      publisher.toList.isPrefixOf packageId.toList
        && rest.head? = some '.' && 1 < rest.length
    else key.scopes.any (scopeAllows packageId)

end TrustedKey

def KeyRole.text : KeyRole → String
  | .root => "root"
  | .index => "index"
  | .publisher => "publisher"

namespace TrustStore

def get (store : TrustStore) (id : KeyId) :
    Option (TrustedKey × String) := store.keys[id]?

def insert (store : TrustStore) (key : TrustedKey) (source : String) :
    TrustStore :=
  { keys := store.keys.insert key.key.keyId (key, source) }

/-- Whether the id is currently pinned as a root key, by anyone. -/
def pinnedRoot (store : TrustStore) (id : KeyId) : Bool :=
  (store.get id).any fun entry => entry.1.role = .root

/-- Take over one delegation, unless its id is a pinned root. -/
def delegate (source : String) (store : TrustStore) (key : TrustedKey) :
    TrustStore :=
  if store.pinnedRoot key.key.keyId then store
  else store.insert key source

def extendDelegations (store : TrustStore) (document : KeysDocument)
    (source : String) : TrustStore :=
  document.delegated.foldl (delegate source) store

/-- Pin root keys under a registry's name. -/
def pinRoots (store : TrustStore) (roots : List PublicKey)
    (source : String) : TrustStore :=
  roots.foldl (fun store root => store.insert (.root root) source) store

def removeSource (store : TrustStore) (source : String) : TrustStore :=
  { keys := store.keys.retain fun _ entry => entry.2 != source }

/-- The key an id names, if it may be used in a role at a time. -/
def usable (store : TrustStore) (id : KeyId) (role : KeyRole)
    (now : Nat) : Except PackageError (TrustedKey × String) := do
  let entry ← okOr (store.get id) (.unknownKey id)
  ensure (entry.1.revoked = false) (.revokedKey id)
  ensure (entry.1.isValidAt now) (.keyExpired id)
  ensure (entry.1.role = role) (.keyScope id role.text)
  return entry

/-- Verify a detached signature in a role: by key id, whatever the
source of the key. -/
def verifyDetached {M G : Type} (check : PublicKey → M → G → Bool)
    (store : TrustStore) (signature : DetachedSignature G) (message : M)
    (role : KeyRole) (now : Nat) : Except PackageError TrustedKey := do
  let entry ← store.usable signature.keyId role now
  ensure (check entry.1.key message signature.signature) .signatureMismatch
  return entry.1

/-- `verify_package`: a publisher key, for this publisher and package,
has signed the checksums. -/
def verifyPackage {M : Type} (check : PublicKey → M → String → Bool)
    (store : TrustStore) (signature : PackageSignature) (checksums : M)
    (packageId : String) (now : Nat) :
    Except PackageError VerifiedSignature := do
  let entry ← store.usable signature.keyId .publisher now
  ensure (entry.1.publisher = some signature.publisher
      ∧ entry.1.allowsPackage packageId)
    (.keyScope signature.keyId packageId)
  ensure (check entry.1.key checksums signature.signature) .signatureMismatch
  return {
    publisher := signature.publisher
    keyId := signature.keyId
    source := entry.2 }

-- ---- one operation

@[simp] theorem get_empty (id : KeyId) : ({} : TrustStore).get id = none :=
  by simp [get]

theorem get_insert (st : TrustStore) (key : TrustedKey)
    (so : String) (id : KeyId) :
    (st.insert key so).get id
      = if key.key.keyId = id then some (key, so)
        else st.get id :=
  Table.get_insert _ _ _ _

theorem get_removeSource (store : TrustStore) (source : String)
    (id : KeyId) :
    (store.removeSource source).get id
      = (store.get id).filter fun entry => entry.2 != source :=
  Table.get_retain _ _ _

/-- Pinning and delegating look at one id at a time: what an id names
afterwards depends on what it named before and on the keys of that
id. -/
theorem get_delegate (source : String) (store : TrustStore)
    (key : TrustedKey) (id : KeyId) :
    (delegate source store key).get id
      = if key.key.keyId = id ∧ store.pinnedRoot id = false
        then some (key, source) else store.get id := by
  unfold delegate
  by_cases hid : key.key.keyId = id
  · subst hid
    cases hr : store.pinnedRoot key.key.keyId with
    | true => simp
    | false => simp [get_insert]
  · have hne : ¬ (key.key.keyId = id ∧ store.pinnedRoot id = false) :=
      fun h => hid h.1
    split
    · rfl
    · rw [get_insert, if_neg hid]

variable {t s : TrustStore}

/-- Two stores that agree on an id agree on it after the same roots are
pinned. -/
theorem get_pinRoots_congr {id : KeyId} (r : List PublicKey)
    (so : String) (h : s.get id = t.get id) :
    (s.pinRoots r so).get id = (t.pinRoots r so).get id := by
  induction r generalizing s t with
  | nil => exact h
  | cons root r ih =>
    apply ih
    rw [get_insert, get_insert, h]

theorem get_extend_congr {id : KeyId} (d : KeysDocument)
    (source : String) (h : s.get id = t.get id) :
    (s.extendDelegations d source).get id
      = (t.extendDelegations d source).get id := by
  unfold extendDelegations
  induction d.delegated generalizing s t with
  | nil => exact h
  | cons key keys ih =>
    apply ih
    rw [get_delegate, get_delegate]
    unfold pinnedRoot
    rw [h]

theorem get_pinRoots_of_not_named {st : TrustStore} {id : KeyId}
    {ro : List PublicKey} (so : String)
    (h : ∀ rt ∈ ro, rt.keyId ≠ id) :
    (st.pinRoots ro so).get id = st.get id := by
  unfold pinRoots
  induction ro generalizing st with
  | nil => rfl
  | cons rt ro ih =>
    rw [foldl_cons, ih fun r hr => h r (mem_cons_of_mem _ hr),
      get_insert, if_neg]
    exact h rt mem_cons_self

theorem get_extend_of_not_named {store : TrustStore} {id : KeyId}
    {d : KeysDocument} (source : String)
    (h : ∀ key ∈ d.delegated, key.key.keyId ≠ id) :
    (store.extendDelegations d source).get id = store.get id := by
  unfold extendDelegations
  revert h
  generalize d.delegated = de
  intro h
  induction de generalizing store with
  | nil => rfl
  | cons key keys ih =>
    rw [foldl_cons, ih fun r hr => h r (mem_cons_of_mem _ hr),
      get_delegate, if_neg]
    intro hid
    exact h key mem_cons_self hid.1

/-- Verification depends on the store only through the entry of the
signature's key id. -/
theorem verifyDetached_congr {M G : Type} (c : PublicKey → M → G → Bool)
    {si : DetachedSignature G}
    (h : s.get si.keyId = t.get si.keyId) (m : M)
    (r : KeyRole) (now : Nat) :
    verifyDetached c s si m r now = verifyDetached c t si m r now := by
  unfold verifyDetached usable
  rw [h]

end TrustStore

end TikTools.Plugins
