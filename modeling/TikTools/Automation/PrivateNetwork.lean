/-
Where an HTTP action connects to when the private network is off limits.

The checks look at the host text and at the answer of one lookup; the
client connects to an address the URL spells, or to what a lookup of
its own answers. The checks know every internal IPv4 address and every
internal IPv6 address by its octets and segments, but not an internal
IPv4 address in its mapped spelling.

So a request whose host is an IPv4 address never leaves the public
network, one to an IPv6 address only as a mapped address, and one to a
name as far as the client's own lookup leads it there
(`no_internal_connection_iff`).
-/
import TikTools.Automation.Http

namespace TikTools.Automation

open TikTools.Lib List

-- ==== the classifier

variable {a : Ipv4}

theorem isPrivateIp_v4 (h : a.Internal) : isPrivateIp (.v4 a) = true := by
  simp only [isPrivateIp, Bool.or_eq_true, Bool.and_eq_true, beq_iff_eq,
    decide_eq_true_eq]
  rcases h with h | h | h | h | h | h
  · have := Ipv4.inBlock_8 h
    simp_all
  · have := Ipv4.inBlock_8 h
    simp_all
  · obtain ⟨h0, h1⟩ := Ipv4.inBlock_12 h
    refine Or.inl (Or.inr ⟨h0, ?_⟩)
    bv_omega
  · have := Ipv4.inBlock_16 h
    simp_all
  · have := Ipv4.inBlock_16 h
    simp_all
  · have := Ipv4.inBlock_32 h
    simp_all

theorem isPrivateIp_v6 {a : Ipv6} (h : a.Internal) :
    isPrivateIp (.v6 a) = true := by
  simp only [isPrivateIp, Bool.or_eq_true, beq_iff_eq]
  rcases h with h | h | h | h
  · exact Or.inl (Or.inl (Or.inl (Ipv6.inBlock_128 h)))
  · exact Or.inl (Or.inl (Or.inr (Ipv6.inBlock_128 h)))
  · have hs := Ipv6.inBlock_first (by decide) h
    refine Or.inl (Or.inr ?_)
    calc a.s0 &&& 0xfe00#16
        = a.s0 &&& (BitVec.allOnes 16 <<< 9) := rfl
      _ = (a.s0 >>> 9) <<< 9 := and_allOnes_shiftLeft _ _
      _ = 0xfc00#16 := by rw [hs]; rfl
  · have hs := Ipv6.inBlock_first (by decide) h
    refine Or.inr ?_
    calc a.s0 &&& 0xffc0#16
        = a.s0 &&& (BitVec.allOnes 16 <<< 6) := rfl
      _ = (a.s0 >>> 6) <<< 6 := and_allOnes_shiftLeft _ _
      _ = 0xfe80#16 := by rw [hs]; rfl

variable {address : IpAddr}

/-- An address that is not private is internal only as the mapped
spelling of an internal IPv4 address. -/
theorem internal_iff_of_not_private (h : isPrivateIp address = false) :
    address.Internal ↔ ∃ v4 : Ipv4, address = .v6 v4.mapped ∧ v4.Internal := by
  cases address with
  | v4 a =>
    constructor
    · intro hi
      rw [isPrivateIp_v4 hi] at h
      cases h
    · rintro ⟨v4, heq, -⟩
      cases heq
  | v6 a =>
    constructor
    · rintro (hi | ⟨v4, rfl, hi⟩)
      · rw [isPrivateIp_v6 hi] at h
        cases h
      · exact ⟨v4, rfl, hi⟩
    · rintro ⟨v4, heq, hi⟩
      cases heq
      exact Or.inr ⟨v4, rfl, hi⟩

-- ==== the host text

/-- A character no trimming and no lower-casing touches. -/
def IsPlain (c : Char) : Prop := c.toLower = c ∧ c ≠ '[' ∧ c ≠ ']'

variable {c : Char}

theorem isPlain_of_toNat (hc : c.toNat < 65 ∨ 93 < c.toNat) :
    IsPlain c := by
  refine ⟨?_, ?_, ?_⟩
  · unfold Char.toLower
    rw [dif_neg]
    rintro ⟨hA, hZ⟩
    have hlo : 65 ≤ c.toNat := hA
    have hhi : c.toNat ≤ 90 := hZ
    omega
  · rintro rfl
    have h91 : '['.toNat = 91 := rfl
    omega
  · rintro rfl
    have h93 : ']'.toNat = 93 := rfl
    omega

theorem isPlain_digit (h : c.isDigit = true) : IsPlain c := by
  simp only [Char.isDigit, Bool.and_eq_true, decide_eq_true_eq] at h
  have hhi : c.toNat ≤ 57 := h.2
  apply isPlain_of_toNat
  omega

theorem isPlain_ipv6Char (h : isIpv6Char c = true) : IsPlain c := by
  simp only [isIpv6Char, Bool.or_eq_true, Bool.and_eq_true,
    decide_eq_true_eq, beq_iff_eq] at h
  rcases h with ((h | h) | rfl) | rfl
  · exact isPlain_digit h
  · have hlo : 97 ≤ c.toNat := h.1
    apply isPlain_of_toNat
    omega
  · exact isPlain_of_toNat (Or.inl (by decide))
  · exact isPlain_of_toNat (Or.inl (by decide))

theorem isPlain_octetText {o : BitVec 8} :
    ∀ c ∈ octetText o, IsPlain c :=
  fun _ hc => isPlain_digit
    (Nat.isDigit_of_mem_toDigits (by decide) (by decide) hc)

theorem isPlain_ipv4Text : ∀ c ∈ a.text, IsPlain c := by
  have hdot : IsPlain '.' := isPlain_of_toNat (Or.inl (by decide))
  intro c hc
  simp only [Ipv4.text, append_assoc, cons_append, mem_append, mem_cons] at hc
  rcases hc with hc | rfl | hc | rfl | hc | rfl | hc
  · exact isPlain_octetText c hc
  · exact hdot
  · exact isPlain_octetText c hc
  · exact hdot
  · exact isPlain_octetText c hc
  · exact hdot
  · exact isPlain_octetText c hc

variable {text : Text}

theorem toAsciiLowercase_plain
    (h : ∀ c ∈ text, IsPlain c) : toAsciiLowercase text = text := by
  have hid : text.map Char.toLower = text.map id :=
    map_congr_left fun c hc => (h c hc).1
  rw [toAsciiLowercase, hid, map_id]

theorem dropWhile_eq_self {p : Char → Bool}
    (h : ∀ c ∈ text, p c = false) : text.dropWhile p = text := by
  cases text with
  | nil => rfl
  | cons c rest => simp [h c mem_cons_self]

theorem isBracket_plain (h : IsPlain c) : isBracket c = false := by
  simp [isBracket, h.2.1, h.2.2]

theorem trimBrackets_plain (h : ∀ c ∈ text, IsPlain c) :
    trimBrackets text = text := by
  unfold trimBrackets
  rw [dropWhile_eq_self fun c hc => isBracket_plain (h c hc),
    dropWhile_eq_self fun c hc =>
      isBracket_plain (h c (mem_reverse.1 hc)),
    reverse_reverse]

theorem trimBrackets_bracketed (h : ∀ c ∈ text, IsPlain c)
    (hne : text ≠ []) : trimBrackets ('[' :: text ++ [']']) = text := by
  have hf : ('[' :: text ++ [']']).dropWhile isBracket
      = text ++ [']'] := by
    cases text with
    | nil => exact absurd rfl hne
    | cons c rest =>
      have hc := isBracket_plain (h c mem_cons_self)
      rw [cons_append, dropWhile_cons_of_pos (by decide),
        cons_append, dropWhile_cons_of_neg (by simp [hc])]
  have hb : (text ++ [']']).reverse.dropWhile isBracket
      = text.reverse := by
    rw [reverse_append, reverse_singleton,
      singleton_append, dropWhile_cons_of_pos (by decide)]
    exact dropWhile_eq_self fun c hc =>
      isBracket_plain (h c (mem_reverse.1 hc))
  unfold trimBrackets
  rw [hf, hb, reverse_reverse]

variable {t host : Text} {packages : Packages} {u : Url}

theorem isPrivateIp_of_host (ht : packages.HostText)
    (hpa : packages.parse t = some u) (hh : u.hostStr = some host)
    (hpr : isPrivateHost (toAsciiLowercase host) = false) :
    (∀ a, u.host = some (.ipv4 a) → isPrivateIp (.v4 a) = false)
      ∧ ∀ a, u.host = some (.ipv6 a) → isPrivateIp (.v6 a) = false := by
  have hany : (parseIpAddr (toAsciiLowercase
      (trimBrackets (toAsciiLowercase host)))).any isPrivateIp = false := by
    simp only [isPrivateHost, Bool.or_eq_false_iff] at hpr
    exact hpr.2
  constructor
  · intro a ha
    have hstr := ht.ipv4 t u a hpa ha
    obtain rfl := Option.some.inj (hh.symm.trans hstr)
    rw [toAsciiLowercase_plain isPlain_ipv4Text,
      trimBrackets_plain isPlain_ipv4Text,
      toAsciiLowercase_plain isPlain_ipv4Text, parseIpAddr_text] at hany
    exact hany
  · intro a ha
    obtain ⟨i, hstr, hch, hin⟩ := ht.ipv6 t u a hpa ha
    obtain rfl := Option.some.inj (hh.symm.trans hstr)
    have hp : ∀ c ∈ i, IsPlain c := fun c hc =>
      isPlain_ipv6Char (all_eq_true.1 hch c hc)
    have hne : i ≠ [] := by
      rintro rfl
      cases hin
    have hl : toAsciiLowercase ('[' :: i ++ [']'])
        = '[' :: i ++ [']'] := by
      have hmap := toAsciiLowercase_plain hp
      unfold toAsciiLowercase at hmap ⊢
      rw [map_append, map_cons, hmap]
      rfl
    rw [hl, trimBrackets_bracketed hp hne,
      toAsciiLowercase_plain hp, hin] at hany
    exact hany

-- ==== the requests

variable {url : Url}

/-- The host of a request that is sent outside the private network is
not private by its text. -/
theorem validateHttpUrlShape_host {ch : Text}
    {ah : Option (List Text)}
    (h : validateHttpUrlShape url ch ah false = .ok ()) :
    ∃ host, url.hostStr = some host
      ∧ isPrivateHost (toAsciiLowercase host) = false := by
  simp only [validateHttpUrlShape, ensure_ok, okOr_ok,
    ensure_eq_ok, and_true] at h
  obtain ⟨-, -, lower, hh, -, -, hp⟩ := h
  obtain ⟨host, hs, rfl⟩ := Option.map_eq_some_iff.1 hh
  exact ⟨host, hs, Bool.eq_false_iff.2 hp⟩

-- ==== where they go to

/-- Nothing internal hides behind the URL's host: an IPv6 address is
not the mapped spelling of an internal IPv4 address, and of what the
client's own lookups answer for a name it tries no internal address. -/
def LeadsOutside (net : Network) (url : Url) : Prop :=
  ∀ attempt < net.attempts,
    match url.host with
    | some (.ipv6 a) => ∀ v4 : Ipv4, a = v4.mapped → ¬ v4.Internal
    | some (.domain name) =>
      ∀ address ∈ (net.lookup (attempt + 1) name).getD [],
        net.tries attempt address → ¬ address.Internal
    | _ => True

variable {net : Network}

theorem mem_connections :
    address ∈ connections packages net hardenedPolicy url
      ↔ ∃ att < net.attempts, address ∈ dial net att url := by
  simp [connections, hardenedPolicy, RedirectPolicy.visited]

/-- Outside the private network the connections to an admitted URL are
internal only through a mapped address or the client's own lookup. -/
theorem connections_outside_iff (ht : packages.HostText)
    (hpr : packages.parse t = some url) (hh : url.hostStr = some host)
    (hp : isPrivateHost (toAsciiLowercase host) = false) :
    (∀ address ∈ connections packages net hardenedPolicy url,
        ¬ address.Internal) ↔ LeadsOutside net url := by
  obtain ⟨hv4, hv6⟩ := isPrivateIp_of_host ht hpr hh hp
  have hall : (∀ address ∈ connections packages net hardenedPolicy url,
        ¬ address.Internal)
      ↔ ∀ attempt < net.attempts, ∀ address ∈ dial net attempt url,
        ¬ address.Internal := by
    simp only [mem_connections]
    constructor
    · intro h attempt hlt address hmem
      exact h address ⟨attempt, hlt, hmem⟩
    · rintro h address ⟨attempt, hlt, hmem⟩
      exact h attempt hlt address hmem
  rw [hall]
  refine forall_congr' fun attempt => forall_congr' fun _ => ?_
  unfold dial
  cases hk : url.host with
  | none => simp
  | some kind =>
    cases kind with
    | ipv4 a =>
      have := hv4 a hk
      simp [internal_iff_of_not_private this]
    | ipv6 a =>
      have := hv6 a hk
      simp only [mem_singleton, forall_eq,
        internal_iff_of_not_private this, not_exists, not_and,
        IpAddr.v6.injEq]
    | domain name =>
      simp only [mem_filter, and_imp]

/-- While the private network is off limits an action makes no internal
connection if and only if every request it sends goes to a host that
leads outside. -/
theorem no_internal_connection_iff {packages : Packages}
    (htext : packages.HostText) (hreparse : packages.Reparses)
    (net : Network) (config : List (String × Json)) (event : Json)
    (globals : Globals) (allowedHosts : Option (List Text)) (test : Bool) :
    (allowPrivateNetwork config = false →
      ∀ address ∈ executeHttpAction packages net config event globals
        allowedHosts test, ¬ address.Internal)
    ↔ (allowPrivateNetwork config = false →
      ∀ request configuredHost url,
        prepareHttpAction packages net config event globals allowedHosts
          test = .ok (.send request configuredHost) →
        packages.parse request.url = some url →
        packages.builds request = true →
        LeadsOutside net url) := by
  refine imp_congr_right fun hal => ?_
  unfold executeHttpAction
  cases hpr : prepareHttpAction packages net config event globals
      allowedHosts test with
  | error e => simp
  | ok prepared =>
    cases prepared with
    | test summary => simp
    | send request configuredHost =>
      obtain ⟨rawUrl, url, -, hp, hurl, hs, -, -⟩ :=
        prepareHttpAction_send hpr
      rw [hal] at hs
      obtain ⟨host, hh, hpt⟩ := validateHttpUrlShape_host hs
      have ha : packages.parse request.url = some url := by
        rw [hurl]
        exact hreparse _ url hp
      have ho : (∀ address ∈ connections packages net
          hardenedPolicy url, ¬ address.Internal)
          ↔ LeadsOutside net url :=
        connections_outside_iff htext hp hh hpt
      simp only [sendHardenedHttpRequest, ha]
      cases hb : packages.builds request with
      | false =>
        refine ⟨?_, fun _ address hmem => nomatch hmem⟩
        rintro - _ _ _ ⟨⟩ - hb'
        rw [hb] at hb'
        cases hb'
      | true =>
        rw [if_pos rfl, ho]
        constructor
        · rintro hl _ _ _ ⟨⟩ hp' -
          cases ha.symm.trans hp'
          exact hl
        · intro h
          exact h request configuredHost url rfl ha hb

-- ==== a name, two lookups

/-- The URL of a hook on `hook.example`. -/
def hookUrl : Url where
  text := "http://hook.example/".toList
  scheme := "http".toList
  username := []
  password := none
  host := some (.domain "hook.example".toList)
  hostStr := some "hook.example".toList
  portOrKnownDefault := some 80

/-- Parsing as far as the hook needs it. -/
def hookPackages : Packages where
  parse t := if t = hookUrl.text then some hookUrl else none
  join _ _ := none
  appendPair url _ _ := url
  bindNumber _ _ := .invalid
  fromStr _ := none
  timeoutMs _ := 5000
  builds _ := true

theorem hookPackages_parse (h : hookPackages.parse t = some u) :
    u = hookUrl := by
  simp only [hookPackages] at h
  split at h
  · exact (Option.some.inj h).symm
  · cases h

theorem hookPackages_hostText : hookPackages.HostText where
  none t u h hh := by
    obtain rfl := hookPackages_parse h
    cases hh
  domain t u name h hh := by
    obtain rfl := hookPackages_parse h
    cases hh
    rfl
  ipv4 t u a h hh := by
    obtain rfl := hookPackages_parse h
    cases hh
  ipv6 t u a h hh := by
    obtain rfl := hookPackages_parse h
    cases hh

theorem hookPackages_reparses : hookPackages.Reparses := by
  intro t u h
  obtain rfl := hookPackages_parse h
  show (if hookUrl.text = hookUrl.text then some hookUrl else none)
    = some hookUrl
  exact if_pos rfl

def hookConfig : List (String × Json) :=
  [("url", .string "http://hook.example/")]

/-- The lookups of the checks and of the client answer in turn. -/
def answering (answers : List (List IpAddr)) : Network where
  lookup number _ := answers[number]?
  attempts := 1
  tries _ _ := true
  replies := []

def publicAddress : IpAddr := .v4 ⟨93, 184, 216, 34⟩

def loopback : Ipv4 := ⟨127, 0, 0, 1⟩

theorem loopback_internal : loopback.Internal := Or.inl (by decide)

/-- The public network: every lookup answers the public address. -/
def openNetwork : Network := answering [[publicAddress], [publicAddress]]

theorem openNetwork_leadsOutside : LeadsOutside openNetwork hookUrl := by
  intro att h address hm _ hin
  obtain rfl : att = 0 := Nat.lt_one_iff.1 h
  obtain rfl := mem_singleton.1 hm
  have hp : isPrivateIp publicAddress = false := by decide
  obtain ⟨v4, heq, -⟩ := (internal_iff_of_not_private hp).1 hin
  cases heq

/-- With a public answer to both lookups the hook stays outside. -/
theorem no_internal_connection_iff_public :
    executeHttpAction hookPackages openNetwork hookConfig .null [] none
        false = [publicAddress]
      ∧ ¬ publicAddress.Internal := by
  refine ⟨by decide, ?_⟩
  refine (no_internal_connection_iff hookPackages_hostText
    hookPackages_reparses openNetwork hookConfig .null [] none false).2
    (fun _ request configuredHost url _ hp _ => ?_) (by decide)
    publicAddress (by decide)
  rw [hookPackages_parse hp]
  exact openNetwork_leadsOutside

/-- A name that turns to the loopback address between the two lookups,
and one that stands for the mapped loopback address in both, lead the
action to this machine. -/
theorem hook_reaches_loopback :
    allowPrivateNetwork hookConfig = false
      ∧ (∃ address ∈ executeHttpAction hookPackages
          (answering [[publicAddress], [.v4 loopback]]) hookConfig .null
          [] none false, address.Internal)
      ∧ ∃ address ∈ executeHttpAction hookPackages
          (answering [[.v6 loopback.mapped], [.v6 loopback.mapped]])
          hookConfig .null [] none false, address.Internal := by
  refine ⟨by decide, ⟨.v4 loopback, by decide, loopback_internal⟩,
    ⟨.v6 loopback.mapped, by decide, Or.inr ⟨loopback, rfl,
      loopback_internal⟩⟩⟩

end TikTools.Automation
