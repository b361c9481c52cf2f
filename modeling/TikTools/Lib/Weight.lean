/-
How long a text of a JSON value is at least.

`Json.weight` counts the bytes that every text of a value has: those of
the strings and keys in it, with their quotes, colons and brackets.
What is read under a key weighs less than the value (`weight_get`,
`weight_gets`), and the compact text is no shorter (`weight_le_encode`).
-/
import TikTools.Lib.Json

namespace TikTools.Lib.Json

-- ==== the weight

mutual

/-- A lower bound for the bytes of any text of a value: the strings and
keys in it, their quotes, colons and brackets. -/
def weight : Json → Nat
  | .null | .bool _ | .number _ => 0
  | .string s => s.utf8ByteSize + 2
  | .array items => weightItems items + 2
  | .object members => weightMembers members + 2

def weightItems : List Json → Nat
  | [] => 0
  | v :: rest => weight v + weightItems rest

def weightMembers : List (String × Json) → Nat
  | [] => 0
  | (k, v) :: rest => k.utf8ByteSize + 3 + weight v + weightMembers rest

end

theorem weight_member {key : String} {v : Json} :
    ∀ {m : List (String × Json)}, member key m = some v →
      key.utf8ByteSize + 3 + v.weight ≤ weightMembers m
  | [], h => nomatch h
  | (k, w) :: rest, h => by
    simp only [member] at h
    rw [weightMembers]
    split at h
    · next hk =>
      cases h
      subst hk
      omega
    · have hr := weight_member h
      omega

theorem weight_members {a b : String} {v w : Json} (hne : a ≠ b) :
    ∀ {m : List (String × Json)}, member a m = some v →
      member b m = some w →
      a.utf8ByteSize + 3 + v.weight + (b.utf8ByteSize + 3 + w.weight)
        ≤ weightMembers m
  | [], h, _ => nomatch h
  | (k, x) :: rest, ha, hb => by
    simp only [member] at ha hb
    rw [weightMembers]
    split at ha
    · next hk =>
      cases ha
      subst hk
      rw [if_neg hne] at hb
      have hr := weight_member hb
      omega
    · split at hb
      · next hk =>
        cases hb
        subst hk
        have hr := weight_member ha
        omega
      · have hr := weight_members hne ha hb
        omega

theorem weight_get {key : String} {v w : Json} (h : v.get key = some w) :
    key.utf8ByteSize + 5 + w.weight ≤ v.weight := by
  cases v with
  | object members =>
    have hmm := weight_member h
    rw [weight]
    omega
  | _ => cases h

theorem weight_gets {a b : String} {v x y : Json} (hne : a ≠ b)
    (ha : v.get a = some x) (hb : v.get b = some y) :
    a.utf8ByteSize + 3 + x.weight + (b.utf8ByteSize + 3 + y.weight) + 2
      ≤ v.weight := by
  cases v with
  | object members =>
    have hmm := weight_members hne ha hb
    rw [weight]
    omega
  | _ => cases ha

theorem weight_of_asStr {v : Json} {s : String} (h : v.asStr = some s) :
    v.weight = s.utf8ByteSize + 2 := by
  cases v with
  | string t =>
    cases h
    rfl
  | _ => cases h

-- ==== compact text

/-- The bytes of a text. -/
def size (text : List Char) : Nat := (String.ofList text).utf8ByteSize

@[simp] theorem size_nil : size [] = 0 := rfl

theorem size_append (s t : List Char) : size (s ++ t) = size s + size t := by
  rw [size, String.ofList_append, String.utf8ByteSize_append]
  rfl

theorem size_cons (c : Char) (s : List Char) :
    size (c :: s) = c.utf8Size + size s := by
  rw [size, String.ofList_cons, String.utf8ByteSize_append,
    String.utf8ByteSize_singleton]
  rfl

theorem size_toList (s : String) : size s.toList = s.utf8ByteSize := by
  rw [size, String.ofList_toList]

theorem size_escapeChar (c : Char) : c.utf8Size ≤ size (escapeChar c) := by
  by_cases ha : c.toNat < 128
  · have hone : c.utf8Size = 1 := by
      have hle : c.val ≤ 127 := by
        show c.toNat ≤ 127
        omega
      exact if_pos hle
    have hc : ∃ d rest, escapeChar c = d :: rest := by
      unfold escapeChar
      repeat' split
      all_goals exact ⟨_, _, rfl⟩
    obtain ⟨d, rest, hd⟩ := hc
    have hpos := d.utf8Size_pos
    rw [hd, size_cons, hone]
    omega
  · -- every character that is escaped is an ASCII one
    have hs : escapeChar c = [c] := by
      have hq : c ≠ '"' := by
        rintro rfl
        exact ha (by decide)
      have hb : c ≠ '\\' := by
        rintro rfl
        exact ha (by decide)
      unfold escapeChar
      rw [if_neg hq, if_neg hb, if_neg (by omega),
        if_neg (by omega), if_neg (by omega), if_neg (by omega),
        if_neg (by omega), if_neg (by omega)]
    rw [hs, size_cons]
    exact Nat.le_add_right _ _

theorem size_encodeString (s : String) :
    s.utf8ByteSize + 2 ≤ size (encodeString s) := by
  have hes : ∀ t : List Char,
      size t ≤ size (t.flatMap escapeChar) := by
    intro t
    induction t with
    | nil => exact Nat.le_refl _
    | cons c rest ih =>
      have hc := size_escapeChar c
      rw [List.flatMap_cons, size_append, size_cons]
      omega
  have ht := hes s.toList
  rw [size_toList] at ht
  have hq : '"'.utf8Size = 1 := by decide
  rw [encodeString, List.cons_append, size_cons, size_append, size_cons,
    size_nil, hq]
  omega

mutual

theorem weight_le_encode : (v : Json) → v.weight ≤ size v.encode
  | .null | .number _ => Nat.zero_le _
  | .bool true | .bool false => Nat.zero_le _
  | .string s => by
    exact size_encodeString s
  | .array i => by
    have hit := weightItems_le_encode i
    have ho : '['.utf8Size = 1 := by decide
    have hc : ']'.utf8Size = 1 := by decide
    rw [weight, encode, List.cons_append, size_cons, size_append,
      size_cons, size_nil, ho, hc]
    omega
  | .object m => by
    have hmm := weightMembers_le_encode m
    have ho : '\x7b'.utf8Size = 1 := by decide
    have hc : '\x7d'.utf8Size = 1 := by decide
    rw [weight, encode, List.cons_append, size_cons, size_append,
      size_cons, size_nil, ho, hc]
    omega

theorem weightItems_le_encode :
    (i : List Json) → weightItems i ≤ size (encodeItems i)
  | [] => Nat.zero_le _
  | [v] => by
    exact weight_le_encode v
  | v :: w :: r => by
    have hv := weight_le_encode v
    have hr := weightItems_le_encode (w :: r)
    rw [weightItems, encodeItems, size_append, size_cons]
    omega

theorem weightMembers_le_encode : (me : List (String × Json)) →
    weightMembers me ≤ size (encodeMembers me)
  | [] => Nat.zero_le _
  | [(k, v)] => by
    have hk := size_encodeString k
    have hv := weight_le_encode v
    have hc : ':'.utf8Size = 1 := by decide
    rw [weightMembers, weightMembers, encodeMembers, size_append,
      size_cons, hc]
    omega
  | (k, v) :: m :: r => by
    have hk := size_encodeString k
    have hv := weight_le_encode v
    have hr := weightMembers_le_encode (m :: r)
    have hc : ':'.utf8Size = 1 := by decide
    rw [weightMembers, encodeMembers, size_append, size_cons,
      size_append, size_cons, hc]
    omega

end

end TikTools.Lib.Json
