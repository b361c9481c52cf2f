/-
Text: the character classes and string functions of the standard
library that several components use, and what makes a composed name
unambiguous.

Names are composed as `a:b` or by appending a counter. Two such names
are equal only when their parts are: the counter's decimal text
determines the counter, and the last separator splits the name when the
tail cannot contain one.
-/

namespace TikTools.Lib

open List

-- ==== characters

/-- The characters with the Unicode White_Space property. -/
def isWhitespace (c : Char) : Bool :=
  (9 ≤ c.toNat && c.toNat ≤ 13) || c.toNat == 32 || c.toNat == 133
    || c.toNat == 160 || c.toNat == 5760
    || (8192 ≤ c.toNat && c.toNat ≤ 8202) || c.toNat == 8232
    || c.toNat == 8233 || c.toNat == 8239 || c.toNat == 8287
    || c.toNat == 12288

/-- Without the white space at both ends. -/
def trim (chars : List Char) : List Char :=
  ((chars.dropWhile isWhitespace).reverse.dropWhile isWhitespace).reverse

theorem exists_strip {α : Type} (p : α → Bool) (l : List α) :
    ∃ le t,
      l = le ++ ((l.dropWhile p).reverse.dropWhile p).reverse ++ t
        ∧ (∀ a ∈ le, p a) ∧ ∀ a ∈ t, p a := by
  have hd : ∀ l : List α, ∃ f, l = f ++ l.dropWhile p
      ∧ ∀ a ∈ f, p a := fun l =>
    ⟨l.takeWhile p, takeWhile_append_dropWhile.symm,
      all_eq_true.1 all_takeWhile⟩
  obtain ⟨le, hld, hl⟩ := hd l
  obtain ⟨b, hbc, hb⟩ := hd (l.dropWhile p).reverse
  refine ⟨le, b.reverse, ?_, hl, fun a ha =>
    hb a (mem_reverse.1 ha)⟩
  have hr : l.dropWhile p
      = ((l.dropWhile p).reverse.dropWhile p).reverse ++ b.reverse := by
    rw [← reverse_append, ← hbc, reverse_reverse]
  rw [append_assoc, ← hr, ← hld]

theorem exists_trim (ch : List Char) : ∃ l t,
    ch = l ++ trim ch ++ t
      ∧ (∀ c ∈ l, isWhitespace c) ∧ ∀ c ∈ t, isWhitespace c :=
  exists_strip isWhitespace ch

/-- A text that begins and ends with no white space is what is left when
white space around it is cut off. -/
theorem trim_append {lead core trail : List Char}
    (hld : ∀ c ∈ lead, isWhitespace c)
    (ht : ∀ c ∈ trail, isWhitespace c) (hne : core ≠ [])
    (hf : isWhitespace (core.head hne) = false)
    (hl : isWhitespace (core.getLast hne) = false) :
    trim (lead ++ core ++ trail) = core := by
  have hfr : (lead ++ core ++ trail).dropWhile isWhitespace
      = core ++ trail := by
    rw [append_assoc, dropWhile_append_of_pos hld]
    obtain ⟨c, rest, rfl⟩ := exists_cons_of_ne_nil hne
    exact dropWhile_cons_of_neg (by simpa using hf)
  have hb : (core ++ trail).reverse.dropWhile isWhitespace
      = core.reverse := by
    have ht' : ∀ c ∈ trail.reverse, isWhitespace c := fun c hc =>
      ht c (mem_reverse.1 hc)
    rw [reverse_append, dropWhile_append_of_pos ht',
      ← dropLast_concat_getLast hne, reverse_append]
    exact dropWhile_cons_of_neg (by simpa using hl)
  rw [trim, hfr, hb, reverse_reverse]

/-- White space and line ends as ECMAScript has them: without the next
line control, with the byte order mark. -/
def isJsSpace (c : Char) : Bool :=
  (isWhitespace c && c.toNat != 133) || c.toNat == 65279

/-- `String.prototype.trim`. -/
def jsTrim (chars : List Char) : List Char :=
  ((chars.dropWhile isJsSpace).reverse.dropWhile isJsSpace).reverse

/-- The UTF-16 code units of a character. -/
def utf16Units (c : Char) : List Nat :=
  if c.toNat < 65536 then [c.toNat]
  else [55296 + (c.toNat - 65536) / 1024, 56320 + (c.toNat - 65536) % 1024]

/-- The UTF-16 code units of a text. -/
def utf16 (chars : List Char) : List Nat := chars.flatMap utf16Units

/-- `str::starts_with` on a literal. -/
def startsWith (s head : String) : Bool := head.toList.isPrefixOf s.toList

-- ==== composed names

theorem append_cons_inj {α : Type} {sep : α} {a a' b b' : List α}
    (h : a ++ sep :: b = a' ++ sep :: b') (hb : sep ∉ b)
    (hb' : sep ∉ b') : a = a' ∧ b = b' := by
  induction a generalizing a' with
  | nil =>
    cases a' with
    | nil => exact ⟨rfl, (List.cons.inj h).2⟩
    | cons c a' =>
      obtain ⟨-, h⟩ := List.cons.inj h
      exact absurd (h ▸ mem_append_right a' mem_cons_self) hb
  | cons c a ih =>
    cases a' with
    | nil =>
      obtain ⟨-, h⟩ := List.cons.inj h
      exact absurd (h ▸ mem_append_right a mem_cons_self) hb'
    | cons c' a' =>
      obtain ⟨rfl, hr⟩ := List.cons.inj h
      obtain ⟨rfl, rfl⟩ := ih hr
      exact ⟨rfl, rfl⟩

theorem splitOn_append {α : Type} [DecidableEq α] {sep : α} {t : List α}
    (h : sep ∉ t) (l : List α) : ∃ i last,
      (l ++ t).splitOn sep = i ++ [last ++ t] := by
  induction l with
  | nil =>
    exact ⟨[], [], splitOn_eq_singleton h⟩
  | cons c l ih =>
    obtain ⟨i, last, hl⟩ := ih
    rw [cons_append, splitOn_cons_eq_if_modifyHead, hl]
    split
    · exact ⟨[] :: i, last, rfl⟩
    · cases i with
      | nil => exact ⟨[], c :: last, rfl⟩
      | cons f i => exact ⟨(c :: f) :: i, last, rfl⟩

theorem toString_nat_inj {m n : Nat} (h : toString m = toString n) :
    m = n := by
  have hd : Nat.toDigits 10 m = Nat.toDigits 10 n := by
    rw [← Nat.toList_repr, ← Nat.toList_repr]
    exact congrArg String.toList h
  rw [← @Nat.ofDigitChars_ten_toDigits m, hd, Nat.ofDigitChars_ten_toDigits]

theorem isDigit_of_mem_toString {n : Nat} {c : Char}
    (h : c ∈ (toString n).toList) : c.isDigit := by
  rw [Nat.toString_eq_repr, Nat.toList_repr] at h
  exact Nat.isDigit_of_mem_toDigits (by decide) (by decide) h

end TikTools.Lib
