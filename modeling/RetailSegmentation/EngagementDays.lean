import Mathlib.Algebra.Order.Ring.Int
import RetailSegmentation.IsoTimes
import RetailSegmentation.KitErrors

/-! The day that an engagement event counts on (`services/engagement/app`): as the service computes it from
the time of the event, and as the rebuild groups the stored events. Times are microseconds from the start of
year 1. -/

namespace RetailSegmentation.EngagementDays

open IsoTimes

/-! ### `datetime` -/

def microsPerDay : ℕ := 86400000000

def maxMicros : ℕ := daysOfYears * microsPerDay

/-- A `datetime`: the time that it shows, and its offset from UTC in microseconds. -/
structure DateTime where
  wall : ℕ
  utcoffset : Option ℤ
  wall_lt : wall < maxMicros
  offset_lt : ∀ offset, utcoffset = some offset → -(microsPerDay : ℤ) < offset ∧ offset < microsPerDay

/-- A `datetime` in UTC. -/
structure Utc where
  micros : ℕ
  lt : micros < maxMicros
  deriving DecidableEq

/-- A `date`: the days before it. -/
structure Date where
  day : ℕ
  lt : day < daysOfYears
  deriving DecidableEq

inductive PyError where
  | overflowError
  deriving DecidableEq, Repr

/-- The days of a month of a year, both from zero. -/
def daysInMonth (leap : Bool) (month : ℕ) : ℕ :=
  if month = 1 ∧ leap then 29 else [31, 28, 31, 30, 31, 30, 31, 31, 30, 31, 30, 31].getD month 0

/-- What `datetime` takes for a time, and for the offset of a `timezone`. -/
structure Valid (year month day hour minute second micro : ℕ) (offset : Option ℤ) : Prop where
  year_mem : 1 ≤ year ∧ year ≤ 9999
  month_mem : 1 ≤ month ∧ month ≤ 12
  day_mem : 1 ≤ day ∧ day ≤ daysInMonth (isLeap (year - 1)) (month - 1)
  clock_lt : hour < 24 ∧ minute < 60 ∧ second < 60 ∧ micro < 1000000
  offset_lt : ∀ o ∈ offset, -(microsPerDay : ℤ) < o ∧ o < microsPerDay

instance (year month day hour minute second micro : ℕ) (offset : Option ℤ) :
    Decidable (Valid year month day hour minute second micro offset) :=
  decidable_of_iff ((1 ≤ year ∧ year ≤ 9999) ∧ (1 ≤ month ∧ month ≤ 12) ∧
    (1 ≤ day ∧ day ≤ daysInMonth (isLeap (year - 1)) (month - 1)) ∧
    (hour < 24 ∧ minute < 60 ∧ second < 60 ∧ micro < 1000000) ∧
    ∀ o ∈ offset, -(microsPerDay : ℤ) < o ∧ o < microsPerDay)
    ⟨fun h => ⟨h.1, h.2.1, h.2.2.1, h.2.2.2.1, h.2.2.2.2⟩,
      fun h => ⟨h.year_mem, h.month_mem, h.day_mem, h.clock_lt, h.offset_lt⟩⟩

def ordinal (year month day : ℕ) : ℕ :=
  daysBeforeYear (year - 1) + monthStart (isLeap (year - 1)) (month - 1) + (day - 1)

theorem monthEnd_le : ∀ leap, ∀ month < 12, monthStart leap month + daysInMonth leap month ≤ if leap then 366 else 365 := by
  decide

theorem ordinal_lt {year month day : ℕ} (hyear : 1 ≤ year ∧ year ≤ 9999) (hmonth : 1 ≤ month ∧ month ≤ 12)
    (hday : 1 ≤ day ∧ day ≤ daysInMonth (isLeap (year - 1)) (month - 1)) :
      ordinal year month day < daysOfYears := by
  have hend := monthEnd_le (isLeap (year - 1)) (month - 1) (by omega)
  have hstart : daysBeforeYear (year - 1) + (if isLeap (year - 1) then 366 else 365) ≤ daysOfYears := by
    by_cases hlast : year = 9999
    · subst hlast
      decide
    · have hyears : daysBeforeYear (year - 1) + 366 ≤ daysOfYears := by
        unfold daysBeforeYear daysOfYears
        omega
      split_ifs <;> omega
  unfold ordinal
  omega

/-- The constructor of an aware or a naive time. -/
def DateTime.of (year month day hour minute second micro : ℕ) (offset : Option ℤ) : Option DateTime :=
  if h : Valid year month day hour minute second micro offset then
    some ⟨ordinal year month day * microsPerDay + ((hour * 60 + minute) * 60 + second) * 1000000 + micro, offset, by
      have hordinal := ordinal_lt h.year_mem h.month_mem h.day_mem
      obtain ⟨hhour, hminute, hsecond, hmicro⟩ := h.clock_lt
      unfold maxMicros microsPerDay
      omega, fun o ho => h.offset_lt o ho⟩
  else none

/-- Digits at the start of a text, after those of a number. -/
def digits : ℕ → ℕ → List Char → Option (ℕ × List Char)
  | 0, value, text => some (value, text)
  | count + 1, value, c :: text => if c.isDigit then digits count (value * 10 + (c.toNat - 48)) text else none
  | _ + 1, _, [] => none

def expect (c : Char) : List Char → Option (List Char)
  | c' :: text => if c' = c then some text else none
  | [] => none

/-- `YYYY-MM-DD`. -/
def isoDate (text : List Char) : Option (ℕ × ℕ × ℕ × List Char) := do
  let (year, text) ← digits 4 0 text
  let text ← expect '-' text
  let (month, text) ← digits 2 0 text
  let text ← expect '-' text
  let (day, text) ← digits 2 0 text
  return (year, month, day, text)

/-- `HH:MM:SS`. -/
def isoTime (text : List Char) : Option (ℕ × ℕ × ℕ × List Char) := do
  let (hour, text) ← digits 2 0 text
  let text ← expect ':' text
  let (minute, text) ← digits 2 0 text
  let text ← expect ':' text
  let (second, text) ← digits 2 0 text
  return (hour, minute, second, text)

/-- Six digits of a fraction; further ones are dropped. -/
def fraction : List Char → Option (ℕ × List Char)
  | [] => some (0, [])
  | c :: text =>
    if c = '.' ∨ c = ',' then
      if text.takeWhile Char.isDigit = [] then none
      else
        let six := (text.takeWhile Char.isDigit ++ List.replicate 6 '0').take 6
        some (six.foldl (fun value c => value * 10 + (c.toNat - 48)) 0, text.dropWhile Char.isDigit)
    else some (0, c :: text)

/-- `Z`, hours and minutes, or nothing. -/
def parseOffset : List Char → Option (Option ℤ)
  | [] => some none
  | sign :: text =>
    if sign = 'Z' then
      if text = [] then some (some 0) else none
    else if sign = '+' ∨ sign = '-' then do
      let (hours, text) ← digits 2 0 text
      let text ← expect ':' text
      let (minutes, text) ← digits 2 0 text
      let micros : ℤ := ((hours * 60 + minutes) * 60000000 : ℕ)
      if text = [] then some (some (if sign = '-' then -micros else micros)) else none
    else none

/-- `datetime.fromisoformat` of the texts that the schema accepts; `none` where it raises `ValueError`. Any
character may stand between the date and the time. -/
def fromisoformat (text : List Char) : Option DateTime := do
  let (year, month, day, text) ← isoDate text
  let (hour, minute, second, text) ← isoTime text.tail
  let (micro, text) ← fraction text
  let offset ← parseOffset text
  DateTime.of year month day hour minute second micro offset

example : (fromisoformat "2026-10-15T23:30:00.1239-01:30".toList).map (·.utcoffset) = some (some (-5400000000)) := by
  decide

/-- The format `date-time` of the schema, that of RFC 3339: the letters may be small, and a line feed may
follow. -/
def isDatetime (text : List Char) : Bool :=
  match isoDate text with
  | none => false
  | some (year, month, day, text) =>
    match (expect 'T' (text.map Char.toUpper)).bind isoTime with
    | none => false
    | some (hour, minute, second, text) =>
      decide (1 ≤ year ∧ 1 ≤ month ∧ month ≤ 12 ∧ 1 ≤ day ∧ day ≤ daysInMonth (isLeap (year - 1)) (month - 1) ∧
        hour < 24 ∧ minute < 60 ∧ second < 60) && zone (secfrac text)
where
  secfrac : List Char → List Char
    | '.' :: text => if text.takeWhile Char.isDigit = [] then '.' :: text else text.dropWhile Char.isDigit
    | text => text
  zone : List Char → Bool
    | 'Z' :: text => text = [] || text = ['\n']
    | sign :: text =>
      (sign = '+' || sign = '-') &&
        match (digits 2 0 text).bind fun (hours, text) => (expect ':' text).bind fun text =>
          (digits 2 0 text).map fun (minutes, text) => (hours, minutes, text) with
        | some (hours, minutes, text) => hours < 24 && minutes < 60 && (text = [] || text = ['\n'])
        | none => false
    | [] => false

/-- The `occurred_at` of a request that the schema accepts. -/
structure OccurredAt where
  text : List Char
  date_time : isDatetime text

/-- `moment.astimezone(UTC)`. -/
def astimezone (wall : ℕ) (offset : ℤ) : Except PyError Utc :=
  if h : 0 ≤ (wall : ℤ) - offset ∧ (wall : ℤ) - offset < maxMicros then
    .ok ⟨((wall : ℤ) - offset).toNat, by omega⟩
  else .error .overflowError

/-! ### `events.py` and `service.py` -/

/-- A time cut to the millisecond. -/
def Utc.cut (u : Utc) : Utc where
  micros := u.micros - u.micros % 1000000 + u.micros % 1000000 / 1000 * 1000
  lt := by
    have hlt := u.lt
    omega

def toMillis (wall : ℕ) (offset : ℤ) : Except PyError Utc := (astimezone wall offset).map Utc.cut

def parseInstant (text : List Char) : Except PyError (Option Utc) :=
  match fromisoformat text with
  | none => .ok none
  | some moment =>
    match moment.utcoffset with
    | none => .ok none
    | some offset => (toMillis moment.wall offset).map some

/-- The time is in UTC already. -/
def utcDay (u : Utc) : List Char := dateText (u.micros / microsPerDay)

def futureTolerance : ℕ := 300000000

inductive Refusal where
  | python (error : PyError)
  | api (error : ApiError)
  deriving DecidableEq, Repr

def invalidFormat : ApiError :=
  ⟨422, "invalid_body", "The parsed body violates the request schema.", [⟨"occurred_at", "invalid_format"⟩]⟩

def occurredInFuture : ApiError :=
  ⟨422, "occurred_in_future", "occurred_at is more than five minutes ahead of the server.",
    [⟨"occurred_at", "in_future"⟩]⟩

/-- The time that `create_event` stores, by the server's clock. -/
def occurredAt (clock : Utc) (text : List Char) : Except Refusal Utc :=
  match parseInstant text with
  | .error e => .error (.python e)
  | .ok none => .error (.api invalidFormat)
  | .ok (some occurred) =>
    if clock.cut.micros + futureTolerance < maxMicros then
      if clock.cut.micros + futureTolerance < occurred.micros then .error (.api occurredInFuture) else .ok occurred
    else .error (.python .overflowError)

/-! ### MongoDB -/

def epochDay : ℕ := 719162

def millisPerDay : ℤ := 86400000

/-- A BSON date: milliseconds since 1970. -/
def toBson (u : Utc) : ℤ :=
  ((u.micros / 1000000 : ℕ) - epochDay * 86400) * 1000 + (u.micros % 1000000 / 1000 : ℕ)

/-- What is read back, where it is a `datetime`. -/
def ofBson (millis : ℤ) : Option Utc :=
  let micros := millis * 1000 + epochDay * microsPerDay
  if h : 0 ≤ micros ∧ micros < maxMicros then some ⟨micros.toNat, by omega⟩ else none

/-- `$dateToString` with `%Y-%m-%d`, in UTC. -/
def dateToString (millis : ℤ) : List Char := dateText (millis / millisPerDay + epochDay).toNat

/-! ### `rollup.py` -/

/-- `datetime.combine(date, time.min, tzinfo=UTC)`. -/
def Date.midnight (date : Date) : Utc := ⟨date.day * microsPerDay, by
  have hlt := date.lt
  unfold maxMicros microsPerDay
  omega⟩

/-- `date + timedelta(days=1)`. -/
def Date.next (date : Date) : Except PyError Date :=
  if h : date.day + 1 < daysOfYears then .ok ⟨date.day + 1, h⟩ else .error .overflowError

def Date.isoformat (date : Date) : List Char := dateText date.day

def dayBounds (first last : Date) : Except PyError (Utc × Utc) := do
  let next ← last.next
  return (first.midnight, next.midnight)

/-- `$match` of the stored date. -/
def inBounds (bounds : Utc × Utc) (millis : ℤ) : Bool := toBson bounds.1 ≤ millis && millis < toBson bounds.2

/-! ### The days agree -/

/-- An event counts on the day that the rebuild files it under. -/
structure Counted (u : Utc) : Prop where
  returned : utcDay u = dateToString (toBson u)
  read_back : ∃ stored, ofBson (toBson u) = some stored ∧ utcDay stored = dateToString (toBson u)
  in_bounds : ∃ date bounds, date.isoformat = dateToString (toBson u) ∧ dayBounds date date = .ok bounds ∧
    inBounds bounds (toBson u)

structure DaysAgree (clock : Utc) (occurred : OccurredAt) : Prop where
  parses : ∃ instant, parseInstant occurred.text = .ok instant
  counts : ∀ u, occurredAt clock occurred.text = .ok u → Counted u

/-- The time is within the years 1 to 9999 in UTC, and where it is of their last day, the clock refuses it. -/
def Placed (clock : Utc) (occurred : OccurredAt) : Prop :=
  ∀ moment offset, fromisoformat occurred.text = some moment → moment.utcoffset = some offset →
    0 ≤ moment.wall - offset ∧ moment.wall - offset < maxMicros ∧
      ((maxMicros : ℤ) - microsPerDay ≤ moment.wall - offset →
        (clock.micros / 1000 : ℕ) + 300000 < (moment.wall - offset) / 1000 ∨
          maxMicros ≤ clock.micros / 1000 * 1000 + futureTolerance)

theorem Utc.cut_micros (u : Utc) : u.cut.micros = u.micros / 1000 * 1000 := by
  unfold Utc.cut
  dsimp only
  omega

theorem toBson_eq (u : Utc) : toBson u = (u.micros / 1000 : ℕ) - epochDay * millisPerDay := by
  unfold toBson epochDay millisPerDay
  omega

theorem day_lt (u : Utc) : u.micros / microsPerDay < daysOfYears :=
  Nat.div_lt_of_lt_mul (by rw [Nat.mul_comm]; exact u.lt)

theorem utcDay_eq (u : Utc) : utcDay u = dateToString (toBson u) := by
  rw [toBson_eq]
  unfold utcDay dateToString
  congr 1
  unfold microsPerDay epochDay millisPerDay
  omega

theorem ofBson_toBson {u : Utc} (hcut : u.micros / 1000 * 1000 = u.micros) : ofBson (toBson u) = some u := by
  have hlt := u.lt
  have hmicros : toBson u * 1000 + epochDay * microsPerDay = u.micros := by
    rw [toBson_eq]
    unfold epochDay millisPerDay microsPerDay
    omega
  have hrange : 0 ≤ toBson u * 1000 + epochDay * microsPerDay ∧
      toBson u * 1000 + epochDay * microsPerDay < (maxMicros : ℤ) := by omega
  unfold ofBson
  rw [dif_pos hrange]
  simp only [hmicros, Int.toNat_natCast]

theorem toBson_midnight (date : Date) : toBson date.midnight = ((date.day : ℤ) - epochDay) * millisPerDay := by
  rw [toBson_eq]
  unfold Date.midnight millisPerDay microsPerDay
  dsimp only
  omega

theorem dayBounds_ok {first last : Date} (h : last.day + 1 < daysOfYears) :
    dayBounds first last = .ok (first.midnight, Date.midnight ⟨last.day + 1, h⟩) := by
  unfold dayBounds Date.next
  rw [dif_pos h]
  rfl

theorem dayBounds_error {first last : Date} (h : ¬ last.day + 1 < daysOfYears) :
    dayBounds first last = .error .overflowError := by
  unfold dayBounds Date.next
  rw [dif_neg h]
  rfl

theorem counted_iff {u : Utc} (hcut : u.micros / 1000 * 1000 = u.micros) :
    Counted u ↔ u.micros / microsPerDay + 1 < daysOfYears := by
  constructor
  · rintro ⟨-, -, date, bounds, hdate, hbounds, -⟩
    rw [← utcDay_eq] at hdate
    have hday : date.day = u.micros / microsPerDay := dateText_injective date.lt (day_lt u) hdate
    by_contra hlast
    rw [dayBounds_error (by rwa [hday])] at hbounds
    cases hbounds
  · intro hnext
    refine ⟨utcDay_eq u, ⟨u, ofBson_toBson hcut, utcDay_eq u⟩, ⟨u.micros / microsPerDay, day_lt u⟩, _, utcDay_eq u,
      dayBounds_ok hnext, ?_⟩
    unfold inBounds
    rw [toBson_midnight, toBson_midnight, toBson_eq, Bool.and_eq_true, decide_eq_true_eq, decide_eq_true_eq]
    unfold epochDay millisPerDay microsPerDay
    dsimp only
    omega

/-- The instant of a time whose offset leaves it within the years. -/
def instantOf (wall : ℕ) (offset : ℤ) (h : 0 ≤ (wall : ℤ) - offset ∧ (wall : ℤ) - offset < maxMicros) : Utc :=
  Utc.cut ⟨((wall : ℤ) - offset).toNat, by omega⟩

theorem instantOf_micros {wall : ℕ} {offset : ℤ} (h : 0 ≤ (wall : ℤ) - offset ∧ (wall : ℤ) - offset < maxMicros) :
    ((instantOf wall offset h).micros : ℤ) = ((wall : ℤ) - offset) / 1000 * 1000 := by
  unfold instantOf
  rw [Utc.cut_micros]
  dsimp only
  omega

theorem parseInstant_aware {text : List Char} {moment : DateTime} {offset : ℤ}
    (htext : fromisoformat text = some moment)
    (hoffset : moment.utcoffset = some offset) : parseInstant text = (toMillis moment.wall offset).map some := by
  simp only [parseInstant, htext, hoffset]

theorem toMillis_ok {wall : ℕ} {offset : ℤ} (h : 0 ≤ (wall : ℤ) - offset ∧ (wall : ℤ) - offset < maxMicros) :
    toMillis wall offset = .ok (instantOf wall offset h) := by
  unfold toMillis astimezone
  rw [dif_pos h]
  rfl

theorem toMillis_error {wall : ℕ} {offset : ℤ} (h : ¬ (0 ≤ (wall : ℤ) - offset ∧ (wall : ℤ) - offset < maxMicros)) :
    toMillis wall offset = .error .overflowError := by
  unfold toMillis astimezone
  rw [dif_neg h]
  rfl

theorem occurredAt_ok {clock instant u : Utc} {text : List Char}
    (hparse : parseInstant text = .ok (some instant)) :
    occurredAt clock text = .ok u ↔ clock.cut.micros + futureTolerance < maxMicros ∧
      instant.micros ≤ clock.cut.micros + futureTolerance ∧ u = instant := by
  simp only [occurredAt, hparse]
  split_ifs with hclock hfuture
  · simp [hclock, hfuture]
  · simp [hclock, Nat.not_lt.1 hfuture, eq_comm]
  · simp [hclock]

theorem days_agree (clock : Utc) (occurred : OccurredAt) : DaysAgree clock occurred ↔ Placed clock occurred := by
  constructor
  · rintro ⟨⟨instant, hparse⟩, hcounts⟩ moment offset htext hoffset
    rw [parseInstant_aware htext hoffset] at hparse
    by_cases hrange : 0 ≤ (moment.wall : ℤ) - offset ∧ (moment.wall : ℤ) - offset < maxMicros
    · refine ⟨hrange.1, hrange.2, fun hlast => ?_⟩
      by_contra haccepted
      have hmicros := instantOf_micros hrange
      -- an instant of the last day that the clock lets through has no end of its day
      have hstored : occurredAt clock occurred.text = .ok (instantOf moment.wall offset hrange) := by
        refine (occurredAt_ok (by rw [parseInstant_aware htext hoffset, toMillis_ok hrange]; rfl)).2 ⟨?_, ?_, rfl⟩
        · rw [Utc.cut_micros]
          omega
        · rw [Utc.cut_micros]
          unfold futureTolerance at *
          omega
      have hnext := (counted_iff (by omega)).1 (hcounts _ hstored)
      unfold maxMicros microsPerDay at *
      omega
    · rw [toMillis_error hrange] at hparse
      cases hparse
  · intro hplaced
    cases htext : fromisoformat occurred.text with
    | none =>
      have hparse : parseInstant occurred.text = .ok none := by simp only [parseInstant, htext]
      exact ⟨⟨_, hparse⟩, fun u hu => by simp [occurredAt, hparse] at hu⟩
    | some moment =>
      cases hoffset : moment.utcoffset with
      | none =>
        have hparse : parseInstant occurred.text = .ok none := by simp only [parseInstant, htext, hoffset]
        exact ⟨⟨_, hparse⟩, fun u hu => by simp [occurredAt, hparse] at hu⟩
      | some offset =>
        obtain ⟨hpositive, hmax, hlast⟩ := hplaced moment offset htext hoffset
        have hparse : parseInstant occurred.text = .ok (some (instantOf moment.wall offset ⟨hpositive, hmax⟩)) := by
          rw [parseInstant_aware htext hoffset, toMillis_ok ⟨hpositive, hmax⟩]
          rfl
        refine ⟨⟨_, hparse⟩, fun u hu => ?_⟩
        obtain ⟨hclock, hfuture, rfl⟩ := (occurredAt_ok hparse).1 hu
        have hmicros := instantOf_micros ⟨hpositive, hmax⟩
        rw [Utc.cut_micros] at hclock hfuture
        refine (counted_iff (by omega)).2 ?_
        unfold futureTolerance at *
        unfold maxMicros microsPerDay at *
        omega

/-- The schema accepts a time before the year 1 in UTC, on which `astimezone` raises. -/
theorem early_time_raises : ∃ (clock : Utc) (occurred : OccurredAt),
    occurred.text = "0001-01-01T00:00:00+01:00".toList ∧
    parseInstant occurred.text = .error .overflowError ∧ ¬ DaysAgree clock occurred := by
  have hraises : parseInstant "0001-01-01T00:00:00+01:00".toList = .error .overflowError := by decide +kernel
  refine ⟨⟨ordinal 2026 10 15 * microsPerDay, by decide⟩,
    ⟨"0001-01-01T00:00:00+01:00".toList, by decide +kernel⟩, rfl,
    hraises, fun hagree => ?_⟩
  obtain ⟨instant, hparse⟩ := hagree.parses
  rw [hraises] at hparse
  cases hparse

end RetailSegmentation.EngagementDays
