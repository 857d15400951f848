import Mathlib.Data.Prod.Lex
import Mathlib.Tactic.Ring
import RetailSegmentation.EngagementDays
import RetailSegmentation.PythonIntegers

/-! The numbers and dates of a query string or a form (`web/parsing.py`). -/

namespace RetailSegmentation.Parsing

open PythonIntegers TextCodes

/-- The largest value of an INTEGER column. -/
def intMax : ℤ := 2 ^ 31 - 1

/-- The same for a BIGINT key. -/
def bigintMax : ℤ := 2 ^ 63 - 1

/-! ### Whole numbers -/

/-- `raw.isascii()`. -/
def isascii (raw : List Char) : Bool := raw.all fun c => c.toNat < 128

/-- `raw.isdigit()`, of an ASCII text. -/
def isdigit (raw : List Char) : Bool := raw ≠ [] && raw.all Char.isDigit

/-- A non-negative whole number in ASCII digits, at most `maximum`. -/
def wholeNumber (raw : Option (List Char)) (maximum : ℤ) : Except ValueError (Option ℕ) :=
  match raw with
  | none => .ok none
  | some raw =>
    if ¬ (isascii raw && isdigit raw) then .ok none
    else (int raw).map fun (value : ℕ) => if (value : ℤ) ≤ maximum then some value else none

def pageNumber (raw : Option (List Char)) : Except ValueError ℕ :=
  (wholeNumber raw intMax).map fun
    | some value => if value ≠ 0 then value else 1
    | none => 1

/-! ### Dates -/

/-- A `date` of the calendar. -/
structure Date where
  year : ℕ
  month : ℕ
  day : ℕ
  year_mem : 1 ≤ year ∧ year ≤ 9999
  month_mem : 1 ≤ month ∧ month ≤ 12
  day_mem : 1 ≤ day ∧ day ≤ EngagementDays.daysInMonth (IsoTimes.isLeap (year - 1)) (month - 1)
  deriving DecidableEq

def Date.key (d : Date) : ℕ ×ₗ ℕ ×ₗ ℕ := toLex (d.year, toLex (d.month, d.day))

/-- The constructor; `none` where it raises `ValueError`. -/
def Date.of (year month day : ℕ) : Option Date :=
  if h : (1 ≤ year ∧ year ≤ 9999) ∧ (1 ≤ month ∧ month ≤ 12) ∧
      (1 ≤ day ∧ day ≤ EngagementDays.daysInMonth (IsoTimes.isLeap (year - 1)) (month - 1)) then
    some ⟨year, month, day, h.1, h.2.1, h.2.2⟩
  else none

theorem dateMin_mem : 1 ≤ 1 ∧ 1 ≤ EngagementDays.daysInMonth (IsoTimes.isLeap (1900 - 1)) (1 - 1) := by decide

theorem dateMax_mem : 1 ≤ 31 ∧ 31 ≤ EngagementDays.daysInMonth (IsoTimes.isLeap (2100 - 1)) (12 - 1) := by decide

def dateMin : Date := ⟨1900, 1, 1, by omega, by omega, dateMin_mem⟩

def dateMax : Date := ⟨2100, 12, 31, by omega, by omega, dateMax_mem⟩

/-- `_ISO_DATE.fullmatch(raw)`, with the numbers of its three fields. -/
def isoFields (raw : List Char) : Option (ℕ × ℕ × ℕ) :=
  (EngagementDays.isoDate raw).bind fun (year, month, day, rest) => if rest = [] then some (year, month,
    day) else none

/-- `date.fromisoformat` of a `YYYY-MM-DD`; `none` where it raises `ValueError`. -/
def fromisoformat (fields : ℕ × ℕ × ℕ) : Option Date := Date.of fields.1 fields.2.1 fields.2.2

/-- A `YYYY-MM-DD` date from the first to the last that is offered. -/
def isoDate (raw : Option (List Char)) : Except ValueError (Option Date) :=
  .ok (((raw.bind isoFields).bind fromisoformat).filter fun value =>
    dateMin.key ≤ value.key ∧ value.key ≤ dateMax.key)

/-- `date.isoformat`. -/
def Date.isoformat (d : Date) : List Char :=
  padText 10 4 d.year ++ '-' :: (padText 10 2 d.month ++ '-' :: padText 10 2 d.day)

example : (isoDate (some "2024-02-29".toList)).toOption.bind id = Date.of 2024 2 29 := by decide

/-! ### What is read -/

section Read

variable {raw : List Char}

theorem isDigit_isascii {c : Char} (hc : c.isDigit = true) : c.toNat < 128 := by
  obtain ⟨-, hhigh⟩ := Char.isDigit_iff_toNat.mp hc
  exact Nat.lt_of_le_of_lt hhigh (by decide)

theorem isdigit_iff : (isascii raw && isdigit raw) = true ↔ IsNumeral raw := by
  unfold isascii isdigit IsNumeral
  simp only [Bool.and_eq_true, List.all_eq_true, decide_eq_true_eq]
  constructor
  · exact fun h => h.2
  · exact fun h => ⟨fun c hc => isDigit_isascii (h.2 c hc), h⟩

theorem wholeNumber_of_numeral (hraw : IsNumeral raw) (hlength : raw.length ≤ maxDigits) (maximum : ℤ) :
    wholeNumber (some raw) maximum = .ok (if (value raw : ℤ) ≤ maximum then some (value raw) else none) := by
  unfold wholeNumber
  simp only [isdigit_iff.mpr hraw, not_true_eq_false, if_false, int_ok hlength]
  rfl

theorem wholeNumber_of_not (hraw : ¬ IsNumeral raw) (maximum : ℤ) : wholeNumber (some raw) maximum = .ok none := by
  unfold wholeNumber
  exact if_pos fun h => hraw (isdigit_iff.mp h)

theorem wholeNumber_long (hraw : IsNumeral raw) (hlength : maxDigits < raw.length) (maximum : ℤ) :
    wholeNumber (some raw) maximum = .error .tooManyDigits := by
  unfold wholeNumber
  simp only [isdigit_iff.mpr hraw, not_true_eq_false, if_false, int_error hlength]
  rfl

/-! ### The digits of a date -/

theorem padText_cons (width n : ℕ) :
    padText 10 (width + 1) n = Nat.digitChar (n / 10 ^ width % 10) :: padText 10 width n := by
  induction width generalizing n with
  | zero =>
      rw [Nat.pow_zero, Nat.div_one]
      rfl
  | succ width ih =>
      rw [padText, ih, Nat.div_div_eq_div_mul, ← Nat.pow_succ', List.cons_append]
      rfl

theorem padText_add (width k n : ℕ) : padText 10 width (k * 10 ^ width + n) = padText 10 width n := by
  induction width generalizing k n with
  | zero => rfl
  | succ width ih =>
      have hquotient : (k * 10 ^ (width + 1) + n) / 10 = k * 10 ^ width + n / 10 := by
        rw [Nat.pow_succ, ← Nat.mul_assoc, Nat.add_comm, Nat.add_mul_div_right _ _ (by decide), Nat.add_comm]
      have hlast : (k * 10 ^ (width + 1) + n) % 10 = n % 10 := by
        rw [Nat.pow_succ, ← Nat.mul_assoc, Nat.add_comm, Nat.add_mul_mod_self_right]
      rw [padText, padText, hquotient, hlast, ih]

theorem toNat_digitChar : ∀ d < 10, (Nat.digitChar d).toNat = d + 48 := by decide

theorem digits_cons {count start : ℕ} {c : Char} {text : List Char} (hc : c.isDigit = true) :
    EngagementDays.digits (count + 1) start (c :: text) =
      EngagementDays.digits count (start * 10 + (c.toNat - 48)) text := if_pos hc

theorem digits_padText {count start n : ℕ} {rest : List Char} (hn : n < 10 ^ count) :
    EngagementDays.digits count start (padText 10 count n ++ rest) = some (start * 10 ^ count + n, rest) := by
  induction count generalizing start n with
  | zero =>
      rw [Nat.pow_zero, Nat.lt_one_iff] at hn
      rw [hn, Nat.pow_zero, Nat.mul_one]
      rfl
  | succ count ih =>
      have hdigit : n / 10 ^ count < 10 := Nat.div_lt_of_lt_mul (by rwa [Nat.mul_comm, ← Nat.pow_succ'])
      have hrest : padText 10 count n = padText 10 count (n % 10 ^ count) := by
        conv_lhs => rw [← Nat.div_add_mod n (10 ^ count), Nat.mul_comm]
        exact padText_add count _ _
      rw [padText_cons, Nat.mod_eq_of_lt hdigit, List.cons_append, hrest,
        digits_cons (by rw [Nat.isDigit_digitChar, decide_eq_true hdigit]), toNat_digitChar _ hdigit,
        ih (Nat.mod_lt _ (Nat.pow_pos (by decide)))]
      have hvalue : (start * 10 + (n / 10 ^ count + 48 - 48)) * 10 ^ count + n % 10 ^ count =
          start * 10 ^ (count + 1) + n := by
        rw [Nat.add_sub_cancel]
        calc (start * 10 + n / 10 ^ count) * 10 ^ count + n % 10 ^ count
            = start * 10 ^ (count + 1) + (10 ^ count * (n / 10 ^ count) + n % 10 ^ count) := by ring
          _ = start * 10 ^ (count + 1) + n := by rw [Nat.div_add_mod]
      rw [hvalue]

theorem digits_some {count start n : ℕ} {text rest : List Char}
    (h : EngagementDays.digits count start text = some (n, rest)) :
    ∃ m < 10 ^ count, text = padText 10 count m ++ rest ∧ n = start * 10 ^ count + m := by
  induction count generalizing start text with
  | zero =>
      obtain ⟨rfl, rfl⟩ := Prod.mk.inj (Option.some.inj h)
      exact ⟨0, Nat.one_pos, rfl, by rw [Nat.pow_zero, Nat.mul_one]; rfl⟩
  | succ count ih =>
      cases text with
      | nil => cases h
      | cons c text =>
          by_cases hc : c.isDigit = true
          · rw [digits_cons hc] at h
            obtain ⟨m, hm, rfl, rfl⟩ := ih h
            obtain ⟨hlow, hhigh⟩ := Char.isDigit_iff_toNat.mp hc
            have hlow : 48 ≤ c.toNat := hlow
            have hhigh : c.toNat ≤ 57 := hhigh
            have hdigit : (((c.toNat - 48) * 10 ^ count + m) / 10 ^ count % 10).digitChar = c := by
              rw [Nat.add_comm, Nat.add_mul_div_right _ _ (Nat.pow_pos (by decide)), Nat.div_eq_of_lt hm,
                Nat.zero_add,
                Nat.mod_eq_of_lt (by omega)]
              refine Char.toNat_inj.mp ?_
              rw [toNat_digitChar _ (by omega)]
              omega
            refine ⟨(c.toNat - 48) * 10 ^ count + m, ?_, ?_, by ring⟩
            · have hmul : (c.toNat - 48) * 10 ^ count ≤ 9 * 10 ^ count := Nat.mul_le_mul_right _ (by omega)
              rw [Nat.pow_succ]
              omega
            · rw [padText_cons, hdigit, padText_add, List.cons_append]
          · rw [EngagementDays.digits, if_neg hc] at h
            cases h

theorem expect_some {c : Char} {text rest : List Char} (h : EngagementDays.expect c text = some rest) :
    text = c :: rest := by
  cases text with
  | nil => cases h
  | cons c' text =>
      change (if c' = c then some text else none) = some rest at h
      split_ifs at h with hc
      rw [hc, Option.some.inj h]

theorem isoFields_iff {year month day : ℕ} : isoFields raw = some (year, month, day) ↔
    year < 10 ^ 4 ∧ month < 10 ^ 2 ∧ day < 10 ^ 2 ∧
      raw = padText 10 4 year ++ '-' :: (padText 10 2 month ++ '-' :: padText 10 2 day) := by
  constructor
  · intro h
    unfold isoFields EngagementDays.isoDate at h
    simp only [Option.bind_eq_bind, Option.bind_eq_some_iff, Option.pure_def, Option.some.injEq, Prod.exists,
      Option.ite_none_right_eq_some] at h
    obtain ⟨_, _, _, _, ⟨y, afterYear, hyear, _, hfirst, m, afterMonth, hmonth, _, hsecond, d, _, hday, heq⟩, hend,
      hfields⟩ := h
    cases heq
    cases hfields
    cases hend
    obtain rfl := expect_some hfirst
    obtain rfl := expect_some hsecond
    obtain ⟨_, hy, rfl, rfl⟩ := digits_some hyear
    obtain ⟨_, hm, hrest, rfl⟩ := digits_some hmonth
    obtain ⟨_, hd, hlast, rfl⟩ := digits_some hday
    rw [hrest, hlast, List.append_nil, Nat.zero_mul, Nat.zero_mul, Nat.zero_add, Nat.zero_add, Nat.zero_add]
    exact ⟨hy, hm, hd, rfl⟩
  · rintro ⟨hyear, hmonth, hday, rfl⟩
    have hlast := @digits_padText 2 0 day [] hday
    rw [List.append_nil] at hlast
    unfold isoFields EngagementDays.isoDate
    simp [digits_padText hyear, digits_padText hmonth, hlast, EngagementDays.expect]

theorem dateOf_iff {year month day : ℕ} {d : Date} :
    Date.of year month day = some d ↔ d.year = year ∧ d.month = month ∧ d.day = day := by
  unfold Date.of
  constructor
  · intro h
    split_ifs at h with hvalid
    obtain rfl := Option.some.inj h
    exact ⟨rfl, rfl, rfl⟩
  · rintro ⟨rfl, rfl, rfl⟩
    exact dif_pos ⟨d.year_mem, d.month_mem, d.day_mem⟩

theorem daysInMonth_le : ∀ leap, ∀ month < 12, EngagementDays.daysInMonth leap month ≤ 31 := by decide

theorem Date.day_le (d : Date) : d.day ≤ 31 :=
  d.day_mem.2.trans (daysInMonth_le _ _ (by have := d.month_mem; omega))

theorem isoDate_read {d : Date} : (isoFields raw).bind fromisoformat = some d ↔ raw = d.isoformat := by
  constructor
  · intro h
    obtain ⟨⟨year, month, day⟩, hfields, hdate⟩ := Option.bind_eq_some_iff.mp h
    obtain ⟨hyear, hmonth, hday⟩ : d.year = year ∧ d.month = month ∧ d.day = day := dateOf_iff.mp hdate
    obtain ⟨-, -, -, hraw⟩ := isoFields_iff.mp hfields
    rw [hraw, ← hyear, ← hmonth, ← hday]
    rfl
  · intro hraw
    have hyear := d.year_mem
    have hmonth := d.month_mem
    have hday := d.day_le
    have hfields : isoFields raw = some (d.year, d.month, d.day) :=
      isoFields_iff.mpr ⟨by omega, by omega, by omega, hraw⟩
    exact Option.bind_eq_some_iff.mpr ⟨_, hfields, dateOf_iff.mpr ⟨rfl, rfl, rfl⟩⟩

end Read

/-! ### What is promised -/

/-- A number is returned exactly for a run of ASCII digits that denotes it, where it is not too large. -/
def WholeNumberRight (raw : List Char) (maximum : ℤ) : Prop :=
  ∃ answer, wholeNumber (some raw) maximum = .ok answer ∧
    ∀ n : ℕ, answer = some n ↔ IsNumeral raw ∧ value raw = n ∧ (n : ℤ) ≤ maximum

/-- A date is returned exactly for its own text, where it is one of those offered. -/
def IsoDateRight (raw : List Char) : Prop :=
  ∃ answer, isoDate (some raw) = .ok answer ∧
    ∀ d : Date, answer = some d ↔ raw = d.isoformat ∧ dateMin.key ≤ d.key ∧ d.key ≤ dateMax.key

def PageNumberRight (raw : List Char) : Prop := ∃ page, pageNumber (some raw) = .ok page ∧ 1 ≤ page

section Promised

variable {raw : List Char}

theorem isoDate_right : IsoDateRight raw := by
  refine ⟨_, rfl, fun d => ?_⟩
  rw [Option.bind_some, Option.filter_eq_some_iff, isoDate_read, decide_eq_true_eq]

theorem wholeNumber_right_iff (maximum : ℤ) :
    WholeNumberRight raw maximum ↔ ¬ (IsNumeral raw ∧ maxDigits < raw.length) := by
  by_cases hraw : IsNumeral raw
  · by_cases hlength : maxDigits < raw.length
    · refine iff_of_false ?_ (not_not.mpr ⟨hraw, hlength⟩)
      rintro ⟨answer, hanswer, -⟩
      cases (wholeNumber_long hraw hlength maximum).symm.trans hanswer
    · refine iff_of_true ⟨_, wholeNumber_of_numeral hraw (Nat.not_lt.mp hlength) maximum, fun n => ?_⟩
        fun h => hlength h.2
      rw [Option.ite_none_right_eq_some, Option.some.injEq]
      constructor
      · rintro ⟨hle, rfl⟩
        exact ⟨hraw, rfl, hle⟩
      · rintro ⟨-, rfl, hle⟩
        exact ⟨hle, rfl⟩
  · refine iff_of_true ⟨none, wholeNumber_of_not hraw maximum, fun n => ?_⟩ fun h => hraw h.1
    exact iff_of_false (fun h => by cases h) fun h => hraw h.1

theorem pageNumber_right (h : ¬ (IsNumeral raw ∧ maxDigits < raw.length)) : PageNumberRight raw := by
  obtain ⟨answer, hanswer, -⟩ := (wholeNumber_right_iff intMax).mpr h
  unfold PageNumberRight pageNumber
  rw [hanswer]
  refine ⟨_, rfl, ?_⟩
  cases answer with
  | none => exact le_rfl
  | some value =>
      dsimp only
      split_ifs with hvalue
      · exact Nat.one_le_iff_ne_zero.mpr hvalue
      · exact le_rfl

/-- **Numbers and dates of a query string.** They are read as documented exactly where the text is no run of more
than 4300 digits. -/
theorem parsing_right_iff (raw : List Char) (maximum : ℤ) :
    (WholeNumberRight raw maximum ∧ IsoDateRight raw ∧ PageNumberRight raw) ↔
      ¬ (IsNumeral raw ∧ maxDigits < raw.length) := by
  constructor
  · exact fun h => (wholeNumber_right_iff maximum).mp h.1
  · exact fun h => ⟨(wholeNumber_right_iff maximum).mpr h, isoDate_right, pageNumber_right h⟩

/-- As many zeros denote a number that every column holds. -/
theorem parsing_zeros : ¬ WholeNumberRight (List.replicate 4301 '0') intMax ∧
    wholeNumber (some (List.replicate 4301 '0')) intMax = .error .tooManyDigits ∧
    pageNumber (some (List.replicate 4301 '0')) = .error .tooManyDigits := by
  have hnumeral : IsNumeral (List.replicate 4301 '0') := by
    refine ⟨?_, fun c hc => ?_⟩
    · rw [List.replicate_succ]
      exact List.cons_ne_nil _ _
    · rw [List.eq_of_mem_replicate hc]
      rfl
  have hlength : maxDigits < (List.replicate 4301 '0').length := by
    rw [List.length_replicate]
    decide
  have hlong := wholeNumber_long hnumeral hlength intMax
  refine ⟨fun h => (wholeNumber_right_iff intMax).mp h ⟨hnumeral, hlength⟩, hlong, ?_⟩
  unfold pageNumber
  rw [hlong]
  rfl

end Promised

end RetailSegmentation.Parsing
