/-
What a script sees of the values the host sends it: numbers that are
safe integers, and lengths of texts in UTF-16 code units.

The host writes a number as plain digits, so only those are read as a
number here; `safeNat_ofNat` says that nothing is lost up to `maxSafe`.
A text is never longer in code units than it is in bytes (`jsLength_le`),
which is why a bound in bytes on one side meets the same bound in units
on the other.
-/
import TikTools.Lib.Json
import TikTools.Lib.Text
import Mathlib.Algebra.GroupWithZero.Nat

namespace TikTools.Lib

open List

/-- `Number.MAX_SAFE_INTEGER`. -/
def maxSafe : Nat := 9007199254740991

/-- The length of a text as a script has it. -/
def jsLength (s : String) : Nat := (utf16 s.toList).length

/-- `slice(0, n)`; half a surrogate pair at the end is no character. -/
def jsTake : Nat → List Char → List Char
  | _, [] => []
  | n, c :: rest =>
    if (utf16Units c).length ≤ n then
      c :: jsTake (n - (utf16Units c).length) rest
    else []

namespace Json

/-- A number as the host writes it. -/
def ofNat (n : Nat) : Json := .number (toString n)

/-- `Number.isSafeInteger(value) && value >= 0`. -/
def safeNat (value : Json) : Option Nat := value.asU64.filter (· ≤ maxSafe)

/-- The items of a value, if it is an array. -/
def asArray : Json → Option (List Json)
  | .array items => some items
  | _ => none

theorem asU64_ofNat {n : Nat} (h : n ≤ u64Max) :
    (ofNat n).asU64 = some n := by
  have hd : (toString n).toList.all Char.isDigit = true :=
    all_eq_true.2 fun c hc => isDigit_of_mem_toString hc
  have hl : (toString n).toList = Nat.toDigits 10 n := by
    rw [Nat.toString_eq_repr, Nat.toList_repr]
  have hne : (toString n).toList ≠ [] := by
    rw [hl]
    exact Nat.toDigits_ne_nil
  show (if _ then _ else _) = _
  rw [if_pos ⟨hne, hd⟩, hl, Nat.ofDigitChars_ten_toDigits]
  simp [h]

theorem safeNat_ofNat {n : Nat} (h : n ≤ maxSafe) :
    (ofNat n).safeNat = some n := by
  have hu64 : n ≤ u64Max := Nat.le_trans h (by decide)
  rw [safeNat, asU64_ofNat hu64]
  simp [h]

theorem safeNat_ofNat_eq_some {n m : Nat}
    (h : (ofNat n).safeNat = some m) : n = m := by
  by_cases hn : n ≤ maxSafe
  · rw [safeNat_ofNat hn] at h
    exact Option.some.inj h
  · exfalso
    obtain ⟨hr, hle⟩ := Option.filter_eq_some_iff.1 h
    unfold asU64 ofNat at hr
    dsimp only at hr
    split at hr
    · obtain ⟨heq, -⟩ := Option.filter_eq_some_iff.1 hr
      have hl : (toString n).toList = Nat.toDigits 10 n := by
        rw [Nat.toString_eq_repr, Nat.toList_repr]
      rw [hl, Nat.ofDigitChars_ten_toDigits] at heq
      cases heq
      exact hn (of_decide_eq_true hle)
    · cases hr

end Json

-- ==== lengths

theorem utf16Units_length_le (c : Char) :
    (utf16Units c).length ≤ c.utf8Size := by
  unfold utf16Units
  split
  · exact c.utf8Size_pos
  · next hbig =>
    have hf : c.utf8Size = 4 := by
      rw [Char.utf8Size_eq_four_iff]
      show 65535 < c.val.toNat
      have hval : c.toNat = c.val.toNat := rfl
      omega
    rw [hf]
    exact (by decide : 2 ≤ 4)

theorem utf8ByteSize_ofList (ch : List Char) :
    (String.ofList ch).utf8ByteSize = (ch.map Char.utf8Size).sum := by
  induction ch with
  | nil => rfl
  | cons c ch ih =>
    rw [map_cons, sum_cons, ← ih, String.ofList_cons,
      String.utf8ByteSize_append, String.utf8ByteSize_singleton]

theorem jsLength_le (s : String) : jsLength s ≤ s.utf8ByteSize := by
  have hu : ∀ ch : List Char,
      (utf16 ch).length ≤ (ch.map Char.utf8Size).sum := by
    intro ch
    induction ch with
    | nil => exact Nat.le_refl 0
    | cons c ch ih =>
      have hh := utf16Units_length_le c
      rw [utf16, flatMap_cons, length_append, map_cons, sum_cons]
      exact Nat.add_le_add hh ih
  have h := hu s.toList
  rwa [← utf8ByteSize_ofList, String.ofList_toList] at h

end TikTools.Lib
