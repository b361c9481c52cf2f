/-
Internet addresses: the two address families, their text forms as the
standard library reads them, and the address blocks.

A block is given by a network and the number of its leading bits, as
`10.0.0.0/8`; membership compares the leading bits of the addresses read
as numbers, whatever octets or segments the bits fall on. A program
tests single octets instead, so each block has a lemma that says which
octets an address of the block has.

An IPv4 address has a second spelling, the IPv4-mapped IPv6 address
`::ffff:a.b.c.d`. A connection to it reaches the IPv4 address.
-/
import TikTools.Lib.Text
import Mathlib.Data.List.TakeWhile
import Mathlib.Algebra.Group.Nat.Defs

namespace TikTools.Lib

open List

/-- `Ipv4Addr`: four octets. -/
structure Ipv4 where
  o0 : BitVec 8
  o1 : BitVec 8
  o2 : BitVec 8
  o3 : BitVec 8
  deriving DecidableEq, Repr

/-- `Ipv6Addr`: eight segments. -/
structure Ipv6 where
  s0 : BitVec 16
  s1 : BitVec 16
  s2 : BitVec 16
  s3 : BitVec 16
  s4 : BitVec 16
  s5 : BitVec 16
  s6 : BitVec 16
  s7 : BitVec 16
  deriving DecidableEq, Repr

inductive IpAddr where
  | v4 (address : Ipv4)
  | v6 (address : Ipv6)
  deriving DecidableEq, Repr

-- ==== the numbers

/-- The address as a number of 32 bits. -/
def Ipv4.toNat (a : Ipv4) : Nat :=
  ((a.o0.toNat * 256 + a.o1.toNat) * 256 + a.o2.toNat) * 256 + a.o3.toNat

/-- The address as a number of 128 bits. -/
def Ipv6.toNat (a : Ipv6) : Nat :=
  [a.s0, a.s1, a.s2, a.s3, a.s4, a.s5, a.s6, a.s7].foldl
    (fun n s => n * 65536 + s.toNat) 0

/-- The IPv4-mapped IPv6 address `::ffff:a.b.c.d`. -/
def Ipv4.mapped (a : Ipv4) : Ipv6 :=
  { s0 := 0, s1 := 0, s2 := 0, s3 := 0, s4 := 0, s5 := 0xffff
    s6 := a.o0 ++ a.o1, s7 := a.o2 ++ a.o3 }

/-- The addresses that share their first `bits` bits with `net`. -/
def Ipv4.InBlock (a net : Ipv4) (bits : Nat) : Prop :=
  a.toNat / 2 ^ (32 - bits) = net.toNat / 2 ^ (32 - bits)

def Ipv6.InBlock (a net : Ipv6) (bits : Nat) : Prop :=
  a.toNat / 2 ^ (128 - bits) = net.toNat / 2 ^ (128 - bits)

instance (a net : Ipv4) (bits : Nat) : Decidable (a.InBlock net bits) :=
  inferInstanceAs (Decidable (_ = _))

instance (a net : Ipv6) (bits : Nat) : Decidable (a.InBlock net bits) :=
  inferInstanceAs (Decidable (_ = _))

variable {a net : Ipv4}

theorem Ipv4.inBlock_8 (h : a.InBlock net 8) :
    a.o0 = net.o0 := by
  unfold Ipv4.InBlock Ipv4.toNat at h
  bv_omega

theorem Ipv4.inBlock_12 (h : a.InBlock net 12) :
    a.o0 = net.o0 ∧ a.o1.toNat / 16 = net.o1.toNat / 16 := by
  unfold Ipv4.InBlock Ipv4.toNat at h
  constructor <;> bv_omega

theorem Ipv4.inBlock_16 (h : a.InBlock net 16) :
    a.o0 = net.o0 ∧ a.o1 = net.o1 := by
  unfold Ipv4.InBlock Ipv4.toNat at h
  constructor <;> bv_omega

theorem Ipv4.inBlock_32 (h : a.InBlock net 32) :
    a = net := by
  unfold Ipv4.InBlock Ipv4.toNat at h
  obtain ⟨a0, a1, a2, a3⟩ := a
  obtain ⟨n0, n1, n2, n3⟩ := net
  simp only [Ipv4.mk.injEq] at h ⊢
  refine ⟨?_, ?_, ?_, ?_⟩ <;> bv_omega

theorem Ipv6.toNat_div (a : Ipv6) : a.toNat / 2 ^ 112 = a.s0.toNat := by
  simp only [Ipv6.toNat, List.foldl]
  bv_omega

theorem Ipv6.inBlock_first {a net : Ipv6} {b : Nat} (hb : b ≤ 16)
    (h : a.InBlock net b) :
    a.s0 >>> (16 - b) = net.s0 >>> (16 - b) := by
  have hpow : 2 ^ (128 - b) = 2 ^ 112 * 2 ^ (16 - b) := by
    rw [← Nat.pow_add]
    congr 1
    omega
  rw [Ipv6.InBlock, hpow, ← Nat.div_div_eq_div_mul,
    ← Nat.div_div_eq_div_mul, toNat_div, toNat_div] at h
  apply BitVec.eq_of_toNat_eq
  rw [BitVec.toNat_ushiftRight, BitVec.toNat_ushiftRight,
    Nat.shiftRight_eq_div_pow, Nat.shiftRight_eq_div_pow, h]

theorem and_allOnes_shiftLeft {w : Nat} (x : BitVec w) (n : Nat) :
    x &&& (BitVec.allOnes w <<< n) = (x >>> n) <<< n := by
  apply BitVec.eq_of_getLsbD_eq
  intro i hi
  simp only [BitVec.getLsbD_and, BitVec.getLsbD_shiftLeft,
    BitVec.getLsbD_allOnes, BitVec.getLsbD_ushiftRight, hi,
    decide_true, Bool.true_and]
  by_cases hn : i < n
  · simp [hn]
  · have hadd : n + (i - n) = i := by omega
    have hlt : i - n < w := by omega
    simp [hn, hadd, hlt]

theorem Ipv6.inBlock_128 {a net : Ipv6} (h : a.InBlock net 128) :
    a = net := by
  unfold Ipv6.InBlock Ipv6.toNat at h
  obtain ⟨a0, a1, a2, a3, a4, a5, a6, a7⟩ := a
  obtain ⟨n0, n1, n2, n3, n4, n5, n6, n7⟩ := net
  simp only [Ipv6.mk.injEq, List.foldl] at h ⊢
  refine ⟨?_, ?_, ?_, ?_, ?_, ?_, ?_, ?_⟩ <;> bv_omega

-- ==== internal addresses

/-- Loopback, private, link-local and unspecified IPv4 addresses. -/
def Ipv4.Internal (a : Ipv4) : Prop :=
  a.InBlock ⟨127, 0, 0, 0⟩ 8
    ∨ a.InBlock ⟨10, 0, 0, 0⟩ 8
    ∨ a.InBlock ⟨172, 16, 0, 0⟩ 12
    ∨ a.InBlock ⟨192, 168, 0, 0⟩ 16
    ∨ a.InBlock ⟨169, 254, 0, 0⟩ 16
    ∨ a.InBlock ⟨0, 0, 0, 0⟩ 32

/-- Loopback, unspecified, unique local and link-local IPv6 addresses. -/
def Ipv6.Internal (a : Ipv6) : Prop :=
  a.InBlock ⟨0, 0, 0, 0, 0, 0, 0, 1⟩ 128
    ∨ a.InBlock ⟨0, 0, 0, 0, 0, 0, 0, 0⟩ 128
    ∨ a.InBlock ⟨0xfc00, 0, 0, 0, 0, 0, 0, 0⟩ 7
    ∨ a.InBlock ⟨0xfe80, 0, 0, 0, 0, 0, 0, 0⟩ 10

/-- The addresses only a host of the same machine or network answers,
the mapped spelling of an IPv4 address included. -/
def IpAddr.Internal : IpAddr → Prop
  | .v4 a => a.Internal
  | .v6 a => a.Internal ∨ ∃ v4 : Ipv4, a = v4.mapped ∧ v4.Internal

-- ==== the text forms

/-- `char::to_digit`. -/
def toDigit (radix : Nat) (c : Char) : Option Nat :=
  let value :=
    if c.isDigit then c.toNat - '0'.toNat
    else if 'a' ≤ c ∧ c ≤ 'z' then c.toNat - 'a'.toNat + 10
    else if 'A' ≤ c ∧ c ≤ 'Z' then c.toNat - 'A'.toNat + 10
    else radix
  if value < radix then some value else none

/-- A number below `limit` of at most `maxDigits` digits, and the text
behind it. -/
def readNumber (radix maxDigits limit : Nat) (allowZeroPrefix : Bool)
    (text : List Char) : Option (Nat × List Char) :=
  let digits := text.takeWhile fun c => (toDigit radix c).isSome
  let value := digits.foldl
    (fun n c => n * radix + (toDigit radix c).getD 0) 0
  if digits = [] ∨ maxDigits < digits.length
      ∨ (allowZeroPrefix = false ∧ digits.head? = some '0'
        ∧ 1 < digits.length)
      ∨ limit ≤ value then none
  else some (value, text.drop digits.length)

/-- Element `index` of a list with separators: the separator goes before
every element but the first. -/
def readSeparator {α : Type} (separator : Char) (index : Nat)
    (inner : List Char → Option (α × List Char)) (text : List Char) :
    Option (α × List Char) :=
  if index = 0 then inner text
  else
    match text with
    | c :: rest => if c = separator then inner rest else none
    | [] => none

def readOctet (index : Nat) (text : List Char) :
    Option (BitVec 8 × List Char) :=
  readSeparator '.' index (fun t =>
    (readNumber 10 3 256 false t).map fun (n, rest) =>
      (BitVec.ofNat 8 n, rest)) text

/-- Four decimal octets. -/
def readIpv4 (text : List Char) : Option (Ipv4 × List Char) := do
  let (o0, text) ← readOctet 0 text
  let (o1, text) ← readOctet 1 text
  let (o2, text) ← readOctet 2 text
  let (o3, text) ← readOctet 3 text
  pure (⟨o0, o1, o2, o3⟩, text)

/-- At most `limit` more groups of an IPv6 address, the last two of
which may be spelled as an IPv4 address; whether they were; and the text
behind them. -/
def readGroups : (limit index : Nat) → List Char →
    List (BitVec 16) × Bool × List Char
  | 0, _, text => ([], false, text)
  | limit + 1, index, text =>
    match if 0 < limit then readSeparator ':' index readIpv4 text
      else none with
    | some (v4, rest) => ([v4.o0 ++ v4.o1, v4.o2 ++ v4.o3], true, rest)
    | none =>
      match readSeparator ':' index (readNumber 16 4 65536 true) text with
      | some (group, rest) =>
        let (groups, ipv4, rest) := readGroups limit (index + 1) rest
        (BitVec.ofNat 16 group :: groups, ipv4, rest)
      | none => ([], false, text)

/-- The address of eight groups. -/
def Ipv6.ofGroups (groups : List (BitVec 16)) : Ipv6 :=
  let s := fun i => groups.getD i 0
  ⟨s 0, s 1, s 2, s 3, s 4, s 5, s 6, s 7⟩

/-- Eight groups, or fewer around one `::`. -/
def readIpv6 (text : List Char) : Option (Ipv6 × List Char) :=
  let (head, headIpv4, rest) := readGroups 8 0 text
  if head.length = 8 then some (.ofGroups head, rest)
  else if headIpv4 then none
  else
    match rest with
    | ':' :: ':' :: rest =>
      let (tail, _, rest) := readGroups (7 - head.length) 0 rest
      let zeros := List.replicate (8 - head.length - tail.length) 0
      some (.ofGroups (head ++ zeros ++ tail), rest)
    | _ => none

/-- `str::parse::<IpAddr>`: the whole text is an address. -/
def parseIpAddr (text : List Char) : Option IpAddr :=
  match readIpv4 text with
  | some (address, rest) =>
    if rest = [] then some (.v4 address) else none
  | none =>
    match readIpv6 text with
    | some (address, rest) =>
      if rest = [] then some (.v6 address) else none
    | none => none

example : parseIpAddr "::ffff:192.168.0.1".toList
    = some (.v6 (Ipv4.mapped ⟨192, 168, 0, 1⟩)) := by decide

/-- The decimal digits of an octet. -/
def octetText (octet : BitVec 8) : List Char := Nat.toDigits 10 octet.toNat

/-- `Ipv4Addr::to_string`. -/
def Ipv4.text (a : Ipv4) : List Char :=
  octetText a.o0 ++ '.' :: octetText a.o1 ++ '.' :: octetText a.o2
    ++ '.' :: octetText a.o3

-- ==== reading them back

/-- What the reader of octets asks of a decimal text. -/
def isOctetText (value : Nat) (digits : List Char) : Bool :=
  digits ≠ [] && digits.length ≤ 3
    && !(digits.head? == some '0' && 1 < digits.length)
    && digits.all (fun c => (toDigit 10 c).isSome)
    && digits.foldl (fun n c => n * 10 + (toDigit 10 c).getD 0) 0 == value

theorem isOctetText_toDigits {v : Nat} (h : v < 256) :
    isOctetText v (Nat.toDigits 10 v) = true := by
  have hall : ((List.range 256).all fun n =>
      isOctetText n (Nat.toDigits 10 n)) = true := by decide +kernel
  exact all_eq_true.1 hall v (mem_range.2 h)

theorem readNumber_octetText (octet : BitVec 8) {rest : List Char}
    (hr : ∀ c ∈ rest.head?, toDigit 10 c = none) :
    readNumber 10 3 256 false (octetText octet ++ rest)
      = some (octet.toNat, rest) := by
  have ht : isOctetText octet.toNat (octetText octet) = true :=
    isOctetText_toDigits octet.isLt
  simp only [isOctetText, Bool.and_eq_true, decide_eq_true_eq,
    beq_iff_eq, all_eq_true, Bool.not_eq_true',
    Bool.and_eq_false_imp, decide_eq_false_iff_not] at ht
  obtain ⟨⟨⟨⟨hne, hlen⟩, hz⟩, hd⟩, hv⟩ := ht
  have htk : (octetText octet ++ rest).takeWhile
      (fun c => (toDigit 10 c).isSome) = octetText octet := by
    rw [takeWhile_append_of_pos hd]
    cases rest with
    | nil => simp
    | cons c rest => simp [hr c rfl]
  simp only [readNumber, htk, hv]
  rw [if_neg]
  · rw [drop_left]
  · rintro (h | h | h | h)
    · exact hne h
    · omega
    · exact hz h.2.1 h.2.2
    · omega

theorem parseIpAddr_text (a : Ipv4) : parseIpAddr a.text = some (.v4 a) := by
  have hdot : ∀ t : List Char, ∀ c ∈ ('.' :: t).head?,
      toDigit 10 c = none := by
    rintro t c ⟨⟩
    decide
  have hr : readIpv4 a.text = some (a, []) := by
    have hl : readNumber 10 3 256 false (octetText a.o3 ++ [])
        = some (a.o3.toNat, []) := readNumber_octetText a.o3 (by simp)
    rw [append_nil] at hl
    simp [readIpv4, readOctet, readSeparator, Ipv4.text,
      readNumber_octetText _ (hdot _), hl]
  rw [parseIpAddr, hr]
  rfl

end TikTools.Lib
