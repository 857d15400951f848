import Mathlib.Data.Nat.Notation
import Mathlib.Tactic.Common

/-! Query strings in the form `application/x-www-form-urlencoded`: the names and values that a reader of them
makes, in their order. Readers agree wherever what they decode is UTF-8; each has its own way with the rest.
-/

namespace FormQuery

/-- The value of a hexadecimal digit. -/
def hexValue (b : UInt8) : Option UInt8 :=
  if 48 ≤ b ∧ b ≤ 57 then some (b - 48)
  else if 65 ≤ b ∧ b ≤ 70 then some (b - 55)
  else if 97 ≤ b ∧ b ≤ 102 then some (b - 87)
  else none

/-- A percent sign and two hexadecimal digits stand for a byte; any other percent sign for itself. -/
def percentDecode : List UInt8 → List UInt8
  | b :: high :: low :: rest =>
    if b = 37 then
      match hexValue high, hexValue low with
      | some h, some l => (h * 16 + l) :: percentDecode rest
      | _, _ => b :: percentDecode (high :: low :: rest)
    else b :: percentDecode (high :: low :: rest)
  | b :: rest => b :: percentDecode rest
  | [] => []

-- UTF-8; `none` where the bytes are not.
variable (decode : List UInt8 → Option (List Char))

/-- The bytes of a name or a value, a plus sign standing for a space. -/
def bytesOf (raw : List Char) : List UInt8 :=
  percentDecode ((raw.map fun c => if c = '+' then ' ' else c).flatMap String.utf8EncodeChar)

/-- The parts between the ampersands that are not empty, each cut at its first equals sign. -/
def parts (query : List Char) : List (List Char × List Char) :=
  ((query.splitOn '&').filter (· ≠ [])).map fun part => (part.takeWhile (· ≠ '='), (part.dropWhile (· ≠ '=')).tail)

/-- What a reader makes of a query, with its own reading of what is not UTF-8. -/
def pairs (onInvalid : List Char → List Char) (query : List Char) : List (List Char × List Char) :=
  let read (raw : List Char) := (decode (bytesOf raw)).getD (onInvalid raw)
  (parts query).map fun part => (read part.1, read part.2)

/-- The names and values of the query are UTF-8 once percent-decoded. -/
def Decodes (query : List Char) : Prop :=
  ∀ part ∈ parts query, (decode (bytesOf part.1)).isSome = true ∧ (decode (bytesOf part.2)).isSome = true

instance (query : List Char) : Decidable (Decodes decode query) := List.decidableBAll _ _

variable {decode}

theorem pairs_alike {query : List Char} (h : Decodes decode query) (onInvalid onInvalid' : List Char → List Char) :
    pairs decode onInvalid query = pairs decode onInvalid' query := by
  refine List.map_congr_left fun part hpart => ?_
  obtain ⟨hname, hvalue⟩ := h part hpart
  obtain ⟨name, hname⟩ := Option.isSome_iff_exists.mp hname
  obtain ⟨value, hvalue⟩ := Option.isSome_iff_exists.mp hvalue
  simp only [hname, hvalue, Option.getD_some]

end FormQuery
