import Mathlib.Data.Int.Notation
import Mathlib.Data.Nat.Notation
import Mathlib.Tactic.Common

/-! `int` of decimal digits and of a sign before them, as Python reads them: a text of too many digits is refused
whatever its value, leading zeros counted. -/

namespace PythonIntegers

/-- What `int` raises. -/
inductive ValueError where
  | tooManyDigits
  deriving DecidableEq, Repr

/-- `sys.get_int_max_str_digits()`. -/
def maxDigits : ℕ := 4300

def IsNumeral (text : List Char) : Prop := text ≠ [] ∧ ∀ c ∈ text, c.isDigit = true

instance (text : List Char) : Decidable (IsNumeral text) := @instDecidableAnd _ _ _ (List.decidableBAll _ _)

/-- The number that digits denote. -/
def value (text : List Char) : ℕ := Nat.ofDigitChars 10 text 0

/-- `int(text)` of digits. -/
def int (text : List Char) : Except ValueError ℕ :=
  if maxDigits < text.length then .error .tooManyDigits else .ok (value text)

/-- A text without its sign. -/
def unsigned (text : List Char) : List Char := if text.head? = some '-' then text.tail else text

/-- `-?[0-9]+`, of the whole text. -/
def IsInteger (text : List Char) : Prop := IsNumeral (unsigned text)

instance (text : List Char) : Decidable (IsInteger text) := inferInstanceAs (Decidable (IsNumeral _))

def signed (text : List Char) (number : ℕ) : ℤ := if text.head? = some '-' then -number else number

def integer (text : List Char) : ℤ := signed text (value (unsigned text))

/-- `int(text)` of digits with a sign or without one; the sign does not count as a digit. -/
def toInteger (text : List Char) : Except ValueError ℤ := (int (unsigned text)).map (signed text)

variable {text : List Char}

theorem int_ok (h : text.length ≤ maxDigits) : int text = .ok (value text) := if_neg (Nat.not_lt.mpr h)

theorem int_error (h : maxDigits < text.length) : int text = .error .tooManyDigits := if_pos h

theorem toInteger_ok (h : (unsigned text).length ≤ maxDigits) : toInteger text = .ok (integer text) := by
  unfold toInteger
  rw [int_ok h]
  rfl

end PythonIntegers
