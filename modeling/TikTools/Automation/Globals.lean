/-
The values of globals, and which of them keep their text.

A value is read as JSON and printed again, so what is kept is the
library's way to write it: a number loses its own spelling, and a quoted
text whose content is JSON changes once more when the stored value is
saved again.
-/
import TikTools.Lib.Table
import TikTools.Lib.Text
import TikTools.Lib.Weight

namespace TikTools.Automation

open TikTools.Lib

-- ==== setting a global

/-- The text a value is stored as. -/
def textOf : Json → Except String String
  | .string text => .ok text
  | .null => .error "global value cannot be null"
  | value => .ok (String.ofList value.encode)

section

-- The library reads a number as the text it prints for it.
variable (parse : String → Option Json)

def maxGlobalValueLen : Nat := 4096
def maxGlobalKeyLen : Nat := 64
def maxGlobalKeys : Nat := 128

def normalizeValue (raw : String) : Except String String := do
  let normalized ← textOf ((parse raw).getD (.string raw))
  ensure (normalized.utf8ByteSize ≤ maxGlobalValueLen)
    "global value exceeds 4096 characters"
  .ok normalized

def isIdentifier (value : String) : Bool :=
  match value.toList with
  | [] => false
  | first :: rest =>
    (first.isAlpha || first == '_') && value.utf8ByteSize ≤ 128
      && rest.all fun c => c.isAlphanum || c == '.' || c == '_' || c == '-'

def validateKey (key : String) : Except String Unit :=
  ensure (key ≠ "" ∧ key.utf8ByteSize ≤ maxGlobalKeyLen
      ∧ isIdentifier key = true)
    ("global keys are 1..=64 characters: letters, digits, and `._-`, "
      ++ "starting with a letter or `_`")

/-- Store a value under a bare key; it comes back with the globals that
result. -/
def globalsSet (globals : Table String String) (key raw : String) :
    Except String (String × Table String String) := do
  validateKey key
  let value ← normalizeValue parse raw
  ensure (globals[key]? ≠ none ∨ globals.size < maxGlobalKeys)
    "at most 128 globals"
  .ok (value, globals.insert key value)

end

-- ==== what keeps its text

variable {parse : String → Option Json} {raw text : String}

theorem normalizeValue_eq_ok :
    normalizeValue parse raw = .ok text
      ↔ textOf ((parse raw).getD (.string raw)) = .ok text
        ∧ text.utf8ByteSize ≤ maxGlobalValueLen := by
  unfold normalizeValue
  simp only [bind_eq_ok, ensure_eq_ok, Except.ok.injEq]
  constructor
  · rintro ⟨_, ht, -, hs, rfl⟩
    exact ⟨ht, hs⟩
  · rintro ⟨ht, hs⟩
    exact ⟨text, ht, (), hs, rfl⟩

theorem globalsSet_eq_ok {g after : Table String String}
    {key : String} : globalsSet parse g key raw = .ok (text, after)
      ↔ validateKey key = .ok () ∧ normalizeValue parse raw = .ok text
        ∧ (g[key]? ≠ none ∨ g.size < maxGlobalKeys)
        ∧ g.insert key text = after := by
  unfold globalsSet
  simp only [bind_eq_ok, ensure_eq_ok, Except.ok.injEq, Prod.mk.injEq]
  constructor
  · rintro ⟨_, hkey, _, ht, -, hr, rfl, ha⟩
    exact ⟨hkey, ht, hr, ha⟩
  · rintro ⟨hkey, ht, hr, ha⟩
    exact ⟨(), hkey, text, ht, (), hr, rfl, ha⟩

/-- A number or a truth value. -/
def IsScalar : Json → Prop
  | .bool _ | .number _ => True
  | _ => False

/-- What is read from the text is printed as a text that reads back as
what is printed so; a scalar is spelled as it is printed. -/
def Keeps (parse : String → Option Json) (raw : String) : Prop :=
  ∀ value, parse raw = some value →
    (IsScalar value → textOf value = .ok (String.ofList (trim raw.toList))
      ∧ (String.ofList (trim raw.toList)).utf8ByteSize ≤ maxGlobalValueLen)
    ∧ ∀ text, textOf value = .ok text →
      text.utf8ByteSize ≤ maxGlobalValueLen →
      ∀ again, parse text = some again → textOf again = .ok text

/-- The library reads "1e5" and prints it as "100000.0". -/
def readExponent (text : String) : Option Json :=
  if text = "1e5" ∨ text = "100000.0" then some (.number "100000.0")
  else none

end TikTools.Automation
