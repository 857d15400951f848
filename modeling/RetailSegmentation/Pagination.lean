import Mathlib.Data.Int.Notation
import RetailSegmentation.KitErrors
import RetailSegmentation.TextCodes

/-! The page and size of a request, as both kits read them off the query string (`_pagination` of kit-py's
`core.py`, `pagination` of kit-rs's `kit.rs`). -/

namespace RetailSegmentation.Pagination

open TextCodes

/-- One round of the loop: a name, its default and the range of its values. -/
structure Parameter where
  name : String
  default : ℕ
  minimum : ℕ
  maximum : ℕ

def invalidPagination (details : List Detail) : ApiError :=
  ⟨422, "invalid_pagination", "Pagination values are outside their allowed ranges.", details⟩

/-- What the loop ends with: both values, or the details of its two rounds in their order. -/
def answer : Except Detail ℕ → Except Detail ℕ → Except ApiError (ℕ × ℕ)
  | .ok page, .ok size => .ok (page, size)
  | .error detail, .ok _ => .error (invalidPagination [detail])
  | .ok _, .error detail => .error (invalidPagination [detail])
  | .error detail, .error detail' => .error (invalidPagination [detail, detail'])

namespace KitPy

def maxPage : ℕ := 4294967295

/-- `re.fullmatch(r"[0-9]+", raw)`. -/
def isDigits (raw : List Char) : Bool := raw ≠ [] && raw.all Char.isDigit

/-- `raw.lstrip("0") or "0"`. -/
def digits (raw : List Char) : List Char :=
  let stripped := raw.dropWhile (· = '0')
  if stripped = [] then ['0'] else stripped

def inRange (p : Parameter) (value : ℕ) : Except Detail ℕ :=
  if p.minimum ≤ value ∧ value ≤ p.maximum then .ok value else .error ⟨p.name, "out_of_range"⟩

def parameter (p : Parameter) : Option (List Char) → Except Detail ℕ
  | none => inRange p p.default
  | some raw =>
    if ¬ isDigits raw then .error ⟨p.name, "invalid_type"⟩
    else if (Nat.toDigits 10 p.maximum).length < (digits raw).length then .error ⟨p.name, "out_of_range"⟩
    else inRange p (Nat.ofDigitChars 10 (digits raw) 0)

def page : Parameter := ⟨"page", 1, 1, maxPage⟩

def size : Parameter := ⟨"size", 20, 1, 100⟩

def pagination (rawPage rawSize : Option (List Char)) : Except ApiError (ℕ × ℕ) :=
  answer (parameter page rawPage) (parameter size rawSize)

end KitPy

namespace KitRs

/-- One round of the loop; not every parameter has a maximum. -/
structure Parameter where
  name : String
  default : ℕ
  minimum : ℕ
  maximum : Option ℕ

/-- `str::parse::<u64>` of digits: `checked_mul` and `checked_add`, digit by digit. -/
def parseU64 (raw : List Char) : Option ℕ :=
  raw.foldlM (fun value c =>
    if value * 10 < 2 ^ 64 then
      let value := value * 10 + (c.toNat - '0'.toNat)
      if value < 2 ^ 64 then some value else none
    else none) 0

def inRange (p : Parameter) : Option ℕ → Except Detail ℕ
  | some value =>
    if p.minimum ≤ value ∧ (∀ maximum ∈ p.maximum, value ≤ maximum) ∧ value ≤ 2 ^ 32 - 1 then
      -- `value as u32`
      .ok (value % 2 ^ 32)
    else .error ⟨p.name, "out_of_range"⟩
  | none => .error ⟨p.name, "out_of_range"⟩

def parameter (p : Parameter) : Option (List Char) → Except Detail ℕ
  | none => inRange p (some p.default)
  | some raw =>
    if raw = [] ∨ ¬ raw.all Char.isDigit then .error ⟨p.name, "invalid_type"⟩ else inRange p (parseU64 raw)

def page : Parameter := ⟨"page", 1, 1, none⟩

def size : Parameter := ⟨"size", 20, 1, some 100⟩

def pagination (rawPage rawSize : Option (List Char)) : Except ApiError (ℕ × ℕ) :=
  answer (parameter page rawPage) (parameter size rawSize)

end KitRs

/-! ### Digits and their value -/

theorem KitPy.ofDigitChars_digits (raw : List Char) :
    Nat.ofDigitChars 10 (KitPy.digits raw) 0 = Nat.ofDigitChars 10 raw 0 := by
  have hvalue := ofDigitChars_dropWhile_zero raw
  unfold KitPy.digits
  dsimp only
  split
  · rename_i hnil
    rw [hnil] at hvalue
    exact hvalue
  · exact hvalue

/-- More digits than the maximum has, of which the first is not zero, are a larger number. -/
theorem KitPy.lt_of_length_digits {raw : List Char} (hraw : ∀ c ∈ raw, c.isDigit = true) {maximum : ℕ}
    (h : (Nat.toDigits 10 maximum).length < (KitPy.digits raw).length) : maximum < Nat.ofDigitChars 10 raw 0 := by
  have hmaximum := (Nat.length_toDigits_le_iff (by decide) Nat.length_toDigits_pos).mp (le_refl (Nat.toDigits 10 maximum).length)
  rw [← ofDigitChars_dropWhile_zero]
  unfold KitPy.digits at h
  dsimp only at h
  split at h
  · have hpos := @Nat.length_toDigits_pos 10 maximum
    rw [List.length_singleton] at h
    omega
  · cases hstripped : raw.dropWhile (· = '0') with
    | nil => contradiction
    | cons c rest =>
        rw [hstripped, List.length_cons] at h
        have hne : c ≠ '0' := by
          have hhead := List.head?_dropWhile_not (fun c => decide (c = '0')) raw
          simpa [hstripped] using hhead
        have hc : c.isDigit = true :=
          hraw c ((List.dropWhile_sublist _).mem (hstripped ▸ List.mem_cons_self))
        have hlow : 10 ^ rest.length ≤ Nat.ofDigitChars 10 (c :: rest) 0 := pow_le_ofDigitChars hc hne rest
        have hpow : 10 ^ (Nat.toDigits 10 maximum).length ≤ 10 ^ rest.length :=
          Nat.pow_le_pow_right (by decide) (Nat.lt_succ_iff.mp h)
        omega

/-- The checks of each step refuse exactly the numbers that are too large in the end. -/
theorem KitRs.parseU64_eq (raw : List Char) :
    KitRs.parseU64 raw = if Nat.ofDigitChars 10 raw 0 < 2 ^ 64 then some (Nat.ofDigitChars 10 raw 0) else none :=
  checkedDigits_eq (by decide) raw

/-! ### Both kits -/

/-- A parameter of one kit is that of the other: the maximum that kit-rs leaves out is that of a `u32`. -/
structure Same (p : Parameter) (q : KitRs.Parameter) : Prop where
  name : q.name = p.name
  default : q.default = p.default
  minimum : q.minimum = p.minimum
  range : ∀ value, (∀ maximum ∈ q.maximum, value ≤ maximum) ∧ value ≤ 2 ^ 32 - 1 ↔ value ≤ p.maximum
  small : p.maximum < 2 ^ 32

theorem inRange_eq {p : Parameter} {q : KitRs.Parameter} (h : Same p q) (value : ℕ) :
    KitRs.inRange q (some value) = KitPy.inRange p value := by
  have hsmall := h.small
  unfold KitRs.inRange KitPy.inRange
  rw [h.name, h.minimum]
  simp only [h.range]
  split_ifs with hrange
  · rw [Nat.mod_eq_of_lt (by omega)]
  · rfl

theorem KitPy.isDigits_iff {raw : List Char} : KitPy.isDigits raw = true ↔ raw ≠ [] ∧ ∀ c ∈ raw,
    c.isDigit = true := by
  unfold KitPy.isDigits
  rw [Bool.and_eq_true, decide_eq_true_eq, List.all_eq_true]

theorem parameter_eq {p : Parameter} {q : KitRs.Parameter} (h : Same p q) (raw : Option (List Char)) :
    KitRs.parameter q raw = KitPy.parameter p raw := by
  have hsmall := h.small
  have hlarge : ∀ value, p.maximum < value → KitPy.inRange p value = .error ⟨p.name, "out_of_range"⟩ := by
    intro value hvalue
    exact if_neg fun hrange => absurd hrange.2 (by omega)
  unfold KitRs.parameter KitPy.parameter
  cases raw with
  | none =>
      dsimp only
      rw [h.default, inRange_eq h]
  | some raw =>
      dsimp only
      by_cases hdigits : KitPy.isDigits raw = true
      · obtain ⟨hne, hall⟩ := KitPy.isDigits_iff.mp hdigits
        rw [if_neg (not_not.mpr hdigits), if_neg (not_or.mpr ⟨hne, not_not.mpr (List.all_eq_true.mpr hall)⟩),
          KitRs.parseU64_eq, KitPy.ofDigitChars_digits]
        -- a number that is no `u64` is larger than any maximum
        have hparsed : KitRs.inRange q (if Nat.ofDigitChars 10 raw 0 < 2 ^ 64 then some (Nat.ofDigitChars 10 raw 0) else none) =
            KitPy.inRange p (Nat.ofDigitChars 10 raw 0) := by
          split_ifs with hfits
          · exact inRange_eq h _
          · rw [hlarge _ (by omega), KitRs.inRange, h.name]
        rw [hparsed]
        split_ifs with hlong
        · exact hlarge _ (KitPy.lt_of_length_digits hall hlong)
        · rfl
      · have hnot : raw = [] ∨ ¬ raw.all Char.isDigit = true := by
          rw [KitPy.isDigits_iff, not_and_or, not_not] at hdigits
          exact hdigits.imp_right fun hnot hall => hnot (List.all_eq_true.mp hall)
        rw [if_pos hnot, if_pos hdigits, h.name]

theorem same_page : Same KitPy.page KitRs.page where
  name := rfl
  default := rfl
  minimum := rfl
  range value := by simp [KitPy.page, KitRs.page, KitPy.maxPage]
  small := by decide

theorem same_size : Same KitPy.size KitRs.size where
  name := rfl
  default := rfl
  minimum := rfl
  range value := by
    simp only [KitPy.size, KitRs.size, Option.mem_some_iff, forall_eq']
    omega
  small := by decide

theorem KitPy.parameter_range {p : Parameter} {raw : Option (List Char)} {value : ℕ}
    (h : KitPy.parameter p raw = .ok value) : p.minimum ≤ value ∧ value ≤ p.maximum := by
  have hrange : ∀ {read : ℕ}, KitPy.inRange p read = .ok value → p.minimum ≤ value ∧ value ≤ p.maximum := by
    intro read hread
    unfold KitPy.inRange at hread
    split_ifs at hread with hwithin
    obtain rfl := Except.ok.inj hread
    exact hwithin
  unfold KitPy.parameter at h
  split at h
  · exact hrange h
  · split_ifs at h
    exact hrange h

theorem answer_ok {page size : Except Detail ℕ} {values : ℕ × ℕ} (h : answer page size = .ok values) :
    page = .ok values.1 ∧ size = .ok values.2 := by
  unfold answer at h
  split at h
  · obtain rfl := Except.ok.inj h
    exact ⟨rfl, rfl⟩
  · cases h
  · cases h
  · cases h

/-- **Pagination.** The kits answer alike, and the offset of an accepted page is a `bigint`. -/
theorem pagination_agrees (rawPage rawSize : Option (List Char)) :
    KitRs.pagination rawPage rawSize = KitPy.pagination rawPage rawSize ∧
      ∀ page size, KitPy.pagination rawPage rawSize = .ok (page, size) →
        -2 ^ 63 ≤ ((page : ℤ) - 1) * size ∧ ((page : ℤ) - 1) * size < 2 ^ 63 := by
  refine ⟨?_, fun page size h => ?_⟩
  · unfold KitRs.pagination KitPy.pagination
    rw [parameter_eq same_page, parameter_eq same_size]
  · obtain ⟨hpage, hsize⟩ := answer_ok h
    obtain ⟨hfirst, hlast⟩ := KitPy.parameter_range hpage
    obtain ⟨hone, hmany⟩ := KitPy.parameter_range hsize
    change 1 ≤ page at hfirst
    change page ≤ 4294967295 at hlast
    change size ≤ 100 at hmany
    have hoffset : 0 ≤ ((page : ℤ) - 1) * size := Int.mul_nonneg (by omega) (by omega)
    have hbound : ((page : ℤ) - 1) * size ≤ 4294967294 * 100 :=
      Int.mul_le_mul (by omega) (by omega) (by omega) (by omega)
    omega

end RetailSegmentation.Pagination
