/-
JSON values as the parser hands them over: the tree of a document, with
object members in key order (the map behind an object is ordered) and
numbers kept by their canonical text.

Equality of two values is decidable by recursion on the tree, so a
comparison in the modelled code stays a computation.
-/
import TikTools.Lib.Checked

namespace TikTools.Lib

/-- A parsed JSON value. -/
inductive Json where
  | null
  | bool (b : Bool)
  | number (text : String)
  | string (s : String)
  | array (items : List Json)
  | object (members : List (String × Json))

namespace Json

-- ==== decidable equality

mutual

/-- Equality of two values, by recursion on the first. -/
def decEq : (a b : Json) → Decidable (a = b)
  | .null, .null => isTrue rfl
  | .bool a, .bool b => decidable_of_iff (a = b) (by simp)
  | .number a, .number b => decidable_of_iff (a = b) (by simp)
  | .string a, .string b => decidable_of_iff (a = b) (by simp)
  | .array a, .array b =>
    match decEqItems a b with
    | isTrue h => isTrue (by rw [h])
    | isFalse h => isFalse (by intro e; cases e; exact h rfl)
  | .object a, .object b =>
    match decEqMembers a b with
    | isTrue h => isTrue (by rw [h])
    | isFalse h => isFalse (by intro e; cases e; exact h rfl)
  | .null, .bool _ | .null, .number _ | .null, .string _
  | .null, .array _ | .null, .object _ => isFalse nofun
  | .bool _, .null | .bool _, .number _ | .bool _, .string _
  | .bool _, .array _ | .bool _, .object _ => isFalse nofun
  | .number _, .null | .number _, .bool _ | .number _, .string _
  | .number _, .array _ | .number _, .object _ => isFalse nofun
  | .string _, .null | .string _, .bool _ | .string _, .number _
  | .string _, .array _ | .string _, .object _ => isFalse nofun
  | .array _, .null | .array _, .bool _ | .array _, .number _
  | .array _, .string _ | .array _, .object _ => isFalse nofun
  | .object _, .null | .object _, .bool _ | .object _, .number _
  | .object _, .string _ | .object _, .array _ => isFalse nofun

/-- Equality of two lists of items. -/
def decEqItems : (a b : List Json) → Decidable (a = b)
  | [], [] => isTrue rfl
  | [], _ :: _ => isFalse nofun
  | _ :: _, [] => isFalse nofun
  | a :: as, b :: bs =>
    match decEq a b, decEqItems as bs with
    | isTrue h, isTrue hs => isTrue (by rw [h, hs])
    | isFalse h, _ => isFalse (by intro e; cases e; exact h rfl)
    | _, isFalse hs => isFalse (by intro e; cases e; exact hs rfl)

/-- Equality of two lists of object members. -/
def decEqMembers : (a b : List (String × Json)) → Decidable (a = b)
  | [], [] => isTrue rfl
  | [], _ :: _ => isFalse nofun
  | _ :: _, [] => isFalse nofun
  | (k, a) :: as, (l, b) :: bs =>
    match decidable_of_iff (k = l) Iff.rfl, decEq a b, decEqMembers as bs with
    | isTrue hk, isTrue h, isTrue hs => isTrue (by rw [hk, h, hs])
    | isFalse hk, _, _ =>
      isFalse (by intro e; cases e; exact hk rfl)
    | _, isFalse h, _ => isFalse (by intro e; cases e; exact h rfl)
    | _, _, isFalse hs => isFalse (by intro e; cases e; exact hs rfl)

end

instance : DecidableEq Json := decEq

instance : Inhabited Json := ⟨.null⟩

-- ==== object access

/-- The value under `key` among an object's members. -/
def member (key : String) : List (String × Json) → Option Json
  | [] => none
  | (k, v) :: rest => if k = key then some v else member key rest

/-- Insert or replace the value under `key`, keeping the key order. -/
def setMember (key : String) (value : Json) :
    List (String × Json) → List (String × Json)
  | [] => [(key, value)]
  | (k, v) :: rest =>
    if k = key then (key, value) :: rest
    else if key < k then (key, value) :: (k, v) :: rest
    else (k, v) :: setMember key value rest

/-- Write every member of `extra` over `members`, in order. -/
def extend (members extra : List (String × Json)) :
    List (String × Json) :=
  extra.foldl (fun acc kv => setMember kv.1 kv.2 acc) members

/-- The member of a value, absent when the value is no object. -/
def get (key : String) : Json → Option Json
  | .object members => member key members
  | _ => none

/-- The boolean a value is, if it is one. -/
def asBool : Json → Option Bool
  | .bool b => some b
  | _ => none

/-- The text a value is, if it is a string. -/
def asStr : Json → Option String
  | .string s => some s
  | _ => none

/-- The number a value is, if it is a natural number of 64 bits: its
canonical text consists of digits. -/
def asU64 : Json → Option Nat
  | .number text =>
    if text.toList ≠ [] ∧ text.toList.all Char.isDigit
    then some (Nat.ofDigitChars 10 text.toList 0) |>.filter (· ≤ u64Max)
    else none
  | _ => none

/-- The members of a value, if it is an object. -/
def asObject : Json → Option (List (String × Json))
  | .object members => some members
  | _ => none

@[simp] theorem asObject_object (members : List (String × Json)) :
    asObject (.object members) = some members := rfl

theorem member_setMember_self (key : String) (va : Json) :
    ∀ m, member key (setMember key va m) = some va
  | [] => by simp [setMember, member]
  | (k, v) :: r => by
    unfold setMember
    split
    · simp [member]
    · split
      · simp [member]
      · rename_i hne _
        simp [member, hne, member_setMember_self key va r]

theorem member_setMember_ne {key o : String} (va : Json)
    (h : key ≠ o) : ∀ m,
    member o (setMember key va m) = member o m
  | [] => by simp [setMember, member, h]
  | (k, v) :: r => by
    unfold setMember
    split
    · next hk =>
      subst hk
      simp [member, h]
    · split
      · simp [member, h]
      · simp only [member]
        rw [member_setMember_ne va h r]

-- ==== compact text

/-- The hexadecimal digit of a number below sixteen. -/
def hexDigit (n : Nat) : Char :=
  Char.ofNat (if n < 10 then 48 + n else 87 + n)

/-- A character of a string literal, escaped where the format asks. -/
def escapeChar (c : Char) : List Char :=
  if c = '"' then ['\\', '"']
  else if c = '\\' then ['\\', '\\']
  else if c.toNat = 8 then ['\\', 'b']
  else if c.toNat = 9 then ['\\', 't']
  else if c.toNat = 10 then ['\\', 'n']
  else if c.toNat = 12 then ['\\', 'f']
  else if c.toNat = 13 then ['\\', 'r']
  else if c.toNat < 32 then
    ['\\', 'u', '0', '0', hexDigit (c.toNat / 16), hexDigit (c.toNat % 16)]
  else [c]

/-- A string literal. -/
def encodeString (s : String) : List Char :=
  '"' :: s.toList.flatMap escapeChar ++ ['"']

mutual

/-- `serde_json::to_string`: the compact text of a value. -/
def encode : Json → List Char
  | .null => ['n', 'u', 'l', 'l']
  | .bool true => ['t', 'r', 'u', 'e']
  | .bool false => ['f', 'a', 'l', 's', 'e']
  | .number text => text.toList
  | .string s => encodeString s
  | .array items => '[' :: encodeItems items ++ [']']
  | .object members => '{' :: encodeMembers members ++ ['}']

def encodeItems : List Json → List Char
  | [] => []
  | [v] => encode v
  | v :: w :: rest => encode v ++ ',' :: encodeItems (w :: rest)

def encodeMembers : List (String × Json) → List Char
  | [] => []
  | [(k, v)] => encodeString k ++ ':' :: encode v
  | (k, v) :: m :: rest =>
    encodeString k ++ ':' :: encode v ++ ',' :: encodeMembers (m :: rest)

end

end Json

end TikTools.Lib
