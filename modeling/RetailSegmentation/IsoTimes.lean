import Mathlib.Data.Int.Notation
import RetailSegmentation.TextCodes

/-! `datetime.isoformat` of UTC times: the proleptic Gregorian calendar of `datetime`, and that a time can be
read off its text. Instants are microseconds from the start of year 1. -/

namespace IsoTimes

open TextCodes

/-! ### The calendar -/

def daysBeforeMonth : List ℕ := [0, 31, 59, 90, 120, 151, 181, 212, 243, 273, 304, 334]

/-- `is_leap` of the year after `year` years. -/
def isLeap (year : ℕ) : Bool := (year + 1) % 4 == 0 && ((year + 1) % 100 != 0 || (year + 1) % 400 == 0)

/-- The days in `year` whole years. -/
def daysBeforeYear (year : ℕ) : ℕ := year * 365 + year / 4 - year / 100 + year / 400

/-- The day of the year that a month begins on, from zero. -/
def monthStart (leap : Bool) (month : ℕ) : ℕ :=
  daysBeforeMonth.getD month 0 + if leap && 2 ≤ month then 1 else 0

/-- The month and day of a day of the year, both from zero: the last month that begins by then. -/
def monthDay (leap : Bool) (day : ℕ) : ℕ × ℕ :=
  let month := ((List.range 11).filter fun month => monthStart leap (month + 1) ≤ day).length
  (month, day - monthStart leap month)

/-- The whole years before a day, and the day of its year: `_ord2ymd`, by cycles of 400, 100, 4 and 1 years. -/
def yearDay (day : ℕ) : ℕ × ℕ :=
  let n400 := day / 146097
  let rest := day % 146097
  let n100 := rest / 36524
  let rest := rest % 36524
  let n4 := rest / 1461
  let rest := rest % 1461
  let n1 := rest / 365
  let year := n400 * 400 + n100 * 100 + n4 * 4 + n1
  -- the last day of a cycle of 4 or of 400 years
  if n1 = 4 ∨ n100 = 4 then (year - 1, 365) else (year, rest % 365)

theorem daysBeforeYear_cycles {a b c d : ℕ} (hb : b < 4) (hc : c < 25) (hd : d < 4) :
    daysBeforeYear (a * 400 + b * 100 + c * 4 + d) = a * 146097 + b * 36524 + c * 1461 + d * 365 := by
  have h4 : (a * 400 + b * 100 + c * 4 + d) / 4 = a * 100 + b * 25 + c := by omega
  have h100 : (a * 400 + b * 100 + c * 4 + d) / 100 = a * 4 + b := by omega
  have h400 : (a * 400 + b * 100 + c * 4 + d) / 400 = a := by omega
  unfold daysBeforeYear
  rw [h4, h100, h400]
  omega

theorem daysBeforeYear_yearDay (day : ℕ) : daysBeforeYear (yearDay day).1 + (yearDay day).2 = day := by
  simp only [yearDay]
  have h400 := Nat.div_add_mod day 146097
  have hlt400 := Nat.mod_lt day (show 146097 > 0 by decide)
  generalize day / 146097 = a at *
  generalize day % 146097 = century at *
  have h100 := Nat.div_add_mod century 36524
  have hlt100 := Nat.mod_lt century (show 36524 > 0 by decide)
  generalize century / 36524 = b at *
  generalize century % 36524 = leap at *
  have h4 := Nat.div_add_mod leap 1461
  have hlt4 := Nat.mod_lt leap (show 1461 > 0 by decide)
  generalize leap / 1461 = c at *
  generalize leap % 1461 = common at *
  have h1 := Nat.div_add_mod common 365
  have hlt1 := Nat.mod_lt common (show 365 > 0 by decide)
  generalize common / 365 = d at *
  generalize common % 365 = e at *
  split_ifs with hend
  · rcases hend with hd | hb
    · -- the last year of a cycle of four is a day longer
      obtain rfl : e = 0 := by omega
      have hyear : a * 400 + b * 100 + c * 4 + d - 1 = a * 400 + b * 100 + c * 4 + 3 := by omega
      dsimp only
      rw [hyear, daysBeforeYear_cycles (by omega) (by omega) (by omega)]
      omega
    · have hyear : a * 400 + b * 100 + c * 4 + d - 1 = a * 400 + 3 * 100 + 24 * 4 + 3 := by omega
      dsimp only
      rw [hyear, daysBeforeYear_cycles (by omega) (by omega) (by omega)]
      omega
  · dsimp only
    rw [daysBeforeYear_cycles (by omega) (by omega) (by omega)]
    omega

theorem yearDay_lt (day : ℕ) : (yearDay day).2 < 366 := by
  simp only [yearDay]
  split_ifs <;> omega

theorem monthStart_monthDay : ∀ leap, ∀ day < 366,
    monthStart leap (monthDay leap day).1 + (monthDay leap day).2 = day ∧
    (monthDay leap day).1 < 12 ∧ (monthDay leap day).2 < 32 := by
  decide +kernel

/-! ### Texts -/

/-- Three numbers as `YYYY-MM-DD`, from zero. -/
def dateFields (year month day : ℕ) : List Char :=
  padText 10 4 (year + 1) ++ '-' :: (padText 10 2 (month + 1) ++ '-' :: padText 10 2 (day + 1))

theorem dateFields_injective {year month day year' month' day' : ℕ} (hyear : year < 9999) (hyear' : year' < 9999)
    (hmonth : month < 12) (hmonth' : month' < 12) (hday : day < 32) (hday' : day' < 32)
    (h : dateFields year month day = dateFields year' month' day') :
      year = year' ∧ month = month' ∧ day = day' := by
  obtain ⟨hyears, hrest⟩ := selfDelimiting_padText (by decide) (by decide) 4 _ _ _ _ (by omega) (by omega) h
  obtain ⟨hmonths, hrest⟩ := selfDelimiting_padText (by decide) (by decide) 2 _ _ _ _ (by omega) (by omega)
    (List.cons.inj hrest).2
  have hdays := padText_injective (by decide) (by decide) (by omega) (by omega) (List.cons.inj hrest).2
  exact ⟨Nat.succ.inj hyears, Nat.succ.inj hmonths, Nat.succ.inj hdays⟩

def dateText (day : ℕ) : List Char :=
  dateFields (yearDay day).1 (monthDay (isLeap (yearDay day).1) (yearDay day).2).1
    (monthDay (isLeap (yearDay day).1) (yearDay day).2).2

def daysOfYears : ℕ := 3652059

theorem year_lt {day : ℕ} (hday : day < daysOfYears) : (yearDay day).1 < 9999 := by
  have hsum := daysBeforeYear_yearDay day
  unfold daysOfYears at hday
  by_contra hlarge
  have hmono : daysBeforeYear 9999 ≤ daysBeforeYear (yearDay day).1 := by
    unfold daysBeforeYear
    omega
  have hlast : daysBeforeYear 9999 = 3652059 := by decide
  omega

theorem length_dateText (day : ℕ) : (dateText day).length = 10 := by
  simp [dateText, dateFields, length_padText]

theorem dateText_injective {a b : ℕ} (ha : a < daysOfYears) (hb : b < daysOfYears) (h : dateText a = dateText b) :
    a = b := by
  obtain ⟨hstart, hmonth, hday⟩ := monthStart_monthDay (isLeap (yearDay a).1) _ (yearDay_lt a)
  obtain ⟨hstart', hmonth', hday'⟩ := monthStart_monthDay (isLeap (yearDay b).1) _ (yearDay_lt b)
  obtain ⟨hyears, hmonths, hdays⟩ := dateFields_injective (year_lt ha) (year_lt hb) hmonth hmonth' hday hday' h
  rw [hmonths, hdays, hyears, hstart'] at hstart
  rw [← daysBeforeYear_yearDay a, ← daysBeforeYear_yearDay b, hyears, hstart]

/-- `HH:MM:SS` of a second of the day. -/
def clockText (second : ℕ) : List Char :=
  padText 10 2 (second / 3600) ++ ':' :: (padText 10 2 (second / 60 % 60) ++ ':' :: padText 10 2 (second % 60))

theorem length_clockText (second : ℕ) : (clockText second).length = 8 := by
  simp [clockText, length_padText]

theorem clockText_injective {a b : ℕ} (ha : a < 86400) (hb : b < 86400) (h : clockText a = clockText b) :
    a = b := by
  obtain ⟨hhour, hrest⟩ := selfDelimiting_padText (by decide) (by decide) 2 _ _ _ _ (by omega) (by omega) h
  obtain ⟨hminute, hrest⟩ := selfDelimiting_padText (by decide) (by decide) 2 _ _ _ _ (by omega) (by omega)
    (List.cons.inj hrest).2
  have hsecond := padText_injective (by decide) (by decide) (by omega) (by omega) (List.cons.inj hrest).2
  omega

/-- `isoformat` of a UTC time, with microseconds where there are any. -/
def isoformat (instant : ℕ) : List Char :=
  let seconds := instant / 1000000
  let fraction := if instant % 1000000 = 0 then [] else '.' :: padText 10 6 (instant % 1000000)
  dateText (seconds / 86400) ++ 'T' :: (clockText (seconds % 86400) ++ (fraction ++ "+00:00".toList))

theorem isoformat_injective {a b : ℕ} (ha : a < daysOfYears * 86400000000) (hb : b < daysOfYears * 86400000000)
    (h : isoformat a = isoformat b) : a = b := by
  unfold daysOfYears at ha hb
  obtain ⟨hdate, hrest⟩ := List.append_inj h (by rw [length_dateText, length_dateText])
  have hdays := dateText_injective (by unfold daysOfYears; omega) (by unfold daysOfYears; omega) hdate
  obtain ⟨hclock, hrest⟩ := List.append_inj (List.cons.inj hrest).2 (by rw [length_clockText, length_clockText])
  have hseconds := clockText_injective (Nat.mod_lt _ (by decide)) (Nat.mod_lt _ (by decide)) hclock
  have hfraction : a % 1000000 = b % 1000000 := by
    have htext := List.append_cancel_right hrest
    split_ifs at htext with hazero hbzero hbzero
    · rw [hazero, hbzero]
    · exact padText_injective (by decide) (by decide) (Nat.mod_lt _ (by decide)) (Nat.mod_lt _ (by decide))
        (List.cons.inj htext).2
  omega

end IsoTimes
