import Mathlib.Data.Rat.Defs
import Mathlib.Algebra.Order.Ring.Unbundled.Rat
import RetailSegmentation.KitErrors
import RetailSegmentation.TransactionServer
import RetailSegmentation.TransactionTables

/-! check-ins-service (`services/check-ins`). The phone names a check-in by an id of its own; the service
records it once, with the verdict it computes itself, and answers a repeated request with what is
recorded. -/

namespace RetailSegmentation.CheckIns

open Program Transactions

abbrev Uuid := BitVec 128

/-! ### Moments -/

/-- A `DateTime<Utc>`: seconds since 2000-01-01, and nanoseconds, a thousand million or more of them within
a leap second. -/
structure Moment where
  seconds : ℤ
  nanos : ℕ
  deriving DecidableEq, Repr

namespace Moment

/-- The microseconds it is bound to a `timestamptz` as. -/
def micros (m : Moment) : ℤ := (m.seconds * 1000000000 + m.nanos).tdiv 1000

/-- As a `timestamptz` is read back. -/
def ofMicros (n : ℤ) : Moment := ⟨n / 1000000, (n % 1000000).toNat * 1000⟩

def addMinutes (m : Moment) (n : ℤ) : Moment := ⟨m.seconds + 60 * n, m.nanos⟩

/-- `self > other`. -/
def After (m m' : Moment) : Prop := m'.seconds < m.seconds ∨ m'.seconds = m.seconds ∧ m'.nanos < m.nanos

instance (m m' : Moment) : Decidable (m.After m') := inferInstanceAs (Decidable (_ ∨ _))

/-- A whole number of microseconds, outside a leap second. -/
def Exact (m : Moment) : Prop := m.nanos < 1000000000 ∧ 1000 ∣ m.nanos

instance (m : Moment) : Decidable m.Exact := inferInstanceAs (Decidable (_ ∧ _))

theorem exact_ofMicros (n : ℤ) : (ofMicros n).Exact := by
  refine ⟨?_, Nat.dvd_mul_left 1000 _⟩
  change (n % 1000000).toNat * 1000 < 1000000000
  omega

theorem ofMicros_micros {m : Moment} : ofMicros m.micros = m ↔ m.Exact := by
  constructor
  · intro h
    rw [← h]
    exact exact_ofMicros _
  · rintro ⟨hlt, k, hk⟩
    obtain ⟨seconds, nanos⟩ := m
    obtain rfl : nanos = 1000 * k := hk
    have hmicros : micros ⟨seconds, 1000 * k⟩ = seconds * 1000000 + k := by
      have htotal : seconds * 1000000000 + ((1000 * k : ℕ) : ℤ) = (seconds * 1000000 + k) * 1000 := by
        omega
      rw [micros, htotal, Int.mul_tdiv_cancel _ (by decide)]
    have hlt' : 1000 * k < 1000000000 := hlt
    rw [hmicros, ofMicros]
    congr 1 <;> omega

end Moment

/-! ### Requests -/

structure Fix where
  latitude : ℚ
  longitude : ℚ
  accuracyM : ℚ
  deriving DecidableEq, Repr

/-- A validated `CheckInRequest` body. -/
structure CheckInRequest where
  clientCheckInId : Uuid
  storeId : ℤ
  occurredAt : Moment
  fix : Option Fix
  deriving DecidableEq, Repr

/-- A member of the body, a number as `serde_json` reads it; `null` stands for a missing one too. -/
inductive JsonValue where
  | null
  | number (text : String) (asI64 : Option ℤ)
  | string (text : String)
  | other
  deriving DecidableEq, Repr

abbrev Body := String → JsonValue

/-- The readers of the crates the service uses (`uuid`, `chrono`, `rust_decimal`), and the haversine distance
between two points rounded to one decimal, which is computed in doubles. -/
structure Crates where
  uuid : String → Option Uuid
  rfc3339 : String → Option Moment
  decimal : String → Option ℚ
  haversineM : ℚ × ℚ → ℚ × ℚ → ℚ

def invalidBody (message field code : String) : ApiError := ⟨422, "invalid_body", message, [⟨field, code⟩]⟩

def invalidToken : ApiError := ⟨401, "invalid_token", "The bearer token is invalid.", []⟩

def unknownStore (storeId : ℤ) : ApiError :=
  ⟨422, "unknown_store", "Store " ++ toString storeId ++ " is missing or inactive.",
    [⟨"store_id", "unknown_store"⟩]⟩

def conflict : ApiError :=
  ⟨409, "client_check_in_conflict",
    "This client_check_in_id was already used with different values.", []⟩

def occurredInFuture : ApiError :=
  ⟨422, "occurred_in_future", "occurred_at is more than five minutes ahead of the server.",
    [⟨"occurred_at", "in_future"⟩]⟩

/-- The characters `str::trim` drops. -/
def IsWhitespace (c : Char) : Prop :=
  9 ≤ c.toNat ∧ c.toNat ≤ 13 ∨ c.toNat ∈ [0x20, 0x85, 0xA0, 0x1680, 0x2028, 0x2029, 0x202F, 0x205F, 0x3000] ∨
    0x2000 ≤ c.toNat ∧ c.toNat ≤ 0x200A

instance (c : Char) : Decidable (IsWhitespace c) := inferInstanceAs (Decidable (_ ∨ _ ∨ _))

def trim (text : String) : String :=
  String.ofList (((text.toList.dropWhile (IsWhitespace ·)).reverse.dropWhile (IsWhitespace ·)).reverse)

section Parse

variable (crates : Crates)

def decimal : JsonValue → Option ℚ
  | .number text _ => crates.decimal text
  | .string text => crates.decimal (trim text)
  | _ => none

def asStr : JsonValue → Option String
  | .string text => some text
  | _ => none

/-- `as_i64`, then `i32::try_from`. -/
def asI32 : JsonValue → Option ℤ
  | .number _ asI64 => asI64.filter fun n => -2147483648 ≤ n ∧ n ≤ 2147483647
  | _ => none

def malformed : ApiError := invalidBody "The check-in is invalid." "body" "invalid"

/-- A part of the fix: `none` where it is missing, `some none` where it is no decimal. -/
def part (body : Body) (name : String) : Option (Option ℚ) :=
  if body name = .null then none else some (decimal crates (body name))

def missingPart (latitude longitude accuracyM : Option (Option ℚ)) : String :=
  if latitude.isNone then "latitude"
  else if longitude.isNone then "longitude"
  else if accuracyM.isNone then "accuracy_m"
  else "latitude"

def parseFix (body : Body) : Except ApiError (Option Fix) :=
  match part crates body "latitude", part crates body "longitude", part crates body "accuracy_m" with
  | none, none, none => .ok none
  | some (some latitude), some (some longitude), some (some accuracyM) =>
    .ok (some ⟨latitude, longitude, accuracyM⟩)
  | latitude, longitude, accuracyM =>
    .error (invalidBody "A fix needs latitude, longitude and accuracy_m together."
      (missingPart latitude longitude accuracyM) "required_with_fix")

def parseCheckIn (body : Body) : Except ApiError CheckInRequest :=
  match (asStr (body "client_check_in_id")).bind crates.uuid, asI32 (body "store_id"),
      (asStr (body "occurred_at")).bind crates.rfc3339 with
  | some clientCheckInId, some storeId, some occurredAt =>
    (parseFix crates body).map fun fix => ⟨clientCheckInId, storeId, occurredAt, fix⟩
  | _, _, _ => .error malformed

end Parse

/-! ### The rule -/

inductive Reason where
  | noFix | storeLocationUnknown | lowAccuracy | withinGeofence | outsideGeofence
  deriving DecidableEq, Repr

structure Geofence where
  latitude : ℚ
  longitude : ℚ
  radiusM : ℤ
  deriving DecidableEq, Repr

/-- The first reason that matches, and the distance it was judged on. -/
def verdict (haversineM : ℚ × ℚ → ℚ × ℚ → ℚ) : Option Fix → Option Geofence → Reason × Option ℚ
  | none, _ => (.noFix, none)
  | some _, none => (.storeLocationUnknown, none)
  | some fix, some geofence =>
    let distance := haversineM (fix.latitude, fix.longitude) (geofence.latitude, geofence.longitude)
    (if fix.accuracyM > geofence.radiusM then .lowAccuracy
      else if distance ≤ geofence.radiusM then .withinGeofence
      else .outsideGeofence, some distance)

/-! ### Rows -/

/-- The values an INSERT binds. -/
structure Columns where
  clientCheckInId : Uuid
  userId : Uuid
  storeId : ℤ
  latitude : Option ℚ
  longitude : Option ℚ
  accuracyM : Option ℚ
  distanceM : Option ℚ
  reason : Reason
  occurredAt : Moment
  deriving DecidableEq, Repr

/-- A row of `checkins.store_check_in`, kept under its `client_check_in_id`. -/
structure Row where
  checkInId : Uuid
  userId : Uuid
  storeId : ℤ
  latitude : Option ℚ
  longitude : Option ℚ
  accuracyM : Option ℚ
  distanceM : Option ℚ
  reason : Reason
  occurredAt : ℤ
  recordedAt : ℤ
  deriving DecidableEq, Repr

/-- What an INSERT draws for itself: the row's id and `now()`. -/
structure Drawn where
  checkInId : Uuid
  recordedAt : ℤ
  deriving DecidableEq, Repr

/-- NUMERIC keeps every digit, `timestamptz` whole microseconds. -/
def Columns.row (columns : Columns) (drawn : Drawn) : Row where
  checkInId := drawn.checkInId
  userId := columns.userId
  storeId := columns.storeId
  latitude := columns.latitude
  longitude := columns.longitude
  accuracyM := columns.accuracyM
  distanceM := columns.distanceM
  reason := columns.reason
  occurredAt := columns.occurredAt.micros
  recordedAt := drawn.recordedAt

/-- One check-in as read back, with its effective verdict. -/
structure CheckIn where
  checkInId : Uuid
  clientCheckInId : Uuid
  userId : Uuid
  storeId : ℤ
  latitude : Option ℚ
  longitude : Option ℚ
  accuracyM : Option ℚ
  distanceM : Option ℚ
  reason : Reason
  occurredAt : Moment
  recordedAt : Moment
  verified : Bool
  deriving DecidableEq, Repr

namespace CheckIn

def fromRow (clientCheckInId : Uuid) (row : Row) (verified : Bool) : CheckIn where
  checkInId := row.checkInId
  clientCheckInId := clientCheckInId
  userId := row.userId
  storeId := row.storeId
  latitude := row.latitude
  longitude := row.longitude
  accuracyM := row.accuracyM
  distanceM := row.distanceM
  reason := row.reason
  occurredAt := .ofMicros row.occurredAt
  recordedAt := .ofMicros row.recordedAt
  verified := verified

/-- The same request again: same user, store, fix and moment. -/
def SameRequest (c : CheckIn) (userId : Uuid) (request : CheckInRequest) : Prop :=
  c.userId = userId ∧ c.storeId = request.storeId ∧ c.occurredAt = request.occurredAt ∧
    c.latitude = request.fix.map Fix.latitude ∧ c.longitude = request.fix.map Fix.longitude ∧
    c.accuracyM = request.fix.map Fix.accuracyM

instance (c : CheckIn) (userId : Uuid) (request : CheckInRequest) :
    Decidable (c.SameRequest userId request) :=
  inferInstanceAs (Decidable (_ ∧ _ ∧ _ ∧ _ ∧ _ ∧ _))

end CheckIn

/-! ### Tables -/

/-- A row of `api_stores.store_directory_v1`. -/
structure Store where
  isActive : Bool
  latitude : Option ℚ
  longitude : Option ℚ
  geofenceRadiusM : Option ℤ
  deriving DecidableEq, Repr

def Store.geofence (store : Store) : Option Geofence :=
  match store.latitude, store.longitude, store.geofenceRadiusM with
  | some latitude, some longitude, some radiusM => some ⟨latitude, longitude, radiusM⟩
  | _, _, _ => none

/-- What the rows refer to, and the latest review of each check-in: changed by others at any time. -/
structure Surroundings where
  stores : ℤ → Option Store
  users : Uuid → Bool
  reviews : Uuid → Option Bool

/-- The check-ins, their surroundings, and who inserted each row that stands, which nothing reads. -/
structure CheckInDb (T : Type) where
  rows : Table T Uuid Row
  around : Surroundings
  author : Uuid → Option T

/-! ### Statements -/

inductive Statement where
  | setConfig (sub : String)
  | readByClientId (id : Uuid)
  | readStore (storeId : ℤ)
  | insert (columns : Columns)
  deriving DecidableEq, Repr

abbrev Result : Statement → Type
  | .setConfig _ => Unit
  | .readByClientId _ => Option CheckIn
  | .readStore _ => Option Store
  | .insert _ => Option CheckIn

/-- The CHECK the columns violate, tried in the order of the constraints' names. -/
def Columns.checkRefusal (columns : Columns) : Option DbError :=
  let nulls := [columns.latitude, columns.longitude, columns.accuracyM].count none
  if columns.accuracyM.any (· ≤ 0) then some (.checkViolation "store_check_in_accuracy_m_check")
  else if ¬ (columns.distanceM.isNone ↔ columns.reason ∈ [.noFix, .storeLocationUnknown]) then
    some (.checkViolation "store_check_in_distance_check")
  else if nulls ≠ (if columns.reason = .noFix then 3 else 0) then
    some (.checkViolation "store_check_in_fix_check")
  else if columns.latitude.any fun v => v < -90 ∨ 90 < v then
    some (.checkViolation "store_check_in_latitude_check")
  else if columns.longitude.any fun v => v < -180 ∨ 180 < v then
    some (.checkViolation "store_check_in_longitude_check")
  else none

namespace CheckInDb

variable {T : Type} [DecidableEq T]

def ofRows (rows : AList fun _ : Uuid => Row) (around : Surroundings) : CheckInDb T :=
  ⟨.ofRows rows, around, fun _ => none⟩

/-- The key an insertion violates. -/
def keyRefusal (drawn : Drawn) (db : CheckInDb T) (columns : Columns) : Option DbError :=
  if db.rows.rows.entries.any (fun e => e.2.checkInId = drawn.checkInId) then
    some (.uniqueViolation "store_check_in_pkey")
  else if !db.around.users columns.userId then some (.foreignKeyViolation "store_check_in_user_id_fkey")
  else if (db.around.stores columns.storeId).isNone then
    some (.foreignKeyViolation "store_check_in_store_id_fkey")
  else none

def effective (db : CheckInDb T) (id : Uuid) (row : Row) : CheckIn :=
  .fromRow id row ((db.around.reviews row.checkInId).getD (row.reason = .withinGeofence))

/-- The answer to a statement and the tables after it; `none` while it waits, or where it is refused. -/
def answer (drawn : Drawn) (t : T) : (s : Statement) → CheckInDb T → Option (Result s × CheckInDb T)
  | .setConfig _, db => some ((), db)
  | .readByClientId id, db => some ((db.rows.get t id).map (db.effective id), db)
  | .readStore storeId, db => some (db.around.stores storeId, db)
  | .insert columns, db =>
    if columns.checkRefusal.isSome then none
    else if (db.rows.get t columns.clientCheckInId).isSome then some (none, db)
    else if hfree : db.rows.Free t columns.clientCheckInId then
      if (db.keyRefusal drawn columns).isSome then none
      else some (some (.fromRow columns.clientCheckInId (columns.row drawn)
          (columns.reason = .withinGeofence)),
        { db with
          rows := db.rows.put t columns.clientCheckInId (some (columns.row drawn)) hfree
          author := Function.update db.author columns.clientCheckInId (some t) })
    else none

def refusal (drawn : Drawn) (t : T) (s : Statement) (db : CheckInDb T) : Option DbError :=
  match s with
  | .insert columns =>
    match columns.checkRefusal with
    | some e => some e
    | none =>
      if db.rows.get t columns.clientCheckInId = none ∧ db.rows.Free t columns.clientCheckInId then
        db.keyRefusal drawn columns
      else none
  | _ => none

def commit (t : T) (db : CheckInDb T) : CheckInDb T := { db with rows := db.rows.commit t }

def rollback (t : T) (db : CheckInDb T) : CheckInDb T where
  rows := db.rows.rollback t
  around := db.around
  author id := if id ∈ db.rows.pending t then none else db.author id

end CheckInDb

section Server

variable (T : Type) [DecidableEq T]

/-- The reply of a commit may be lost. -/
def checkInServer : Server T Statement Result DbError (CheckInDb T) where
  answers t s db v db' := ∃ drawn, CheckInDb.answer drawn t s db = some (v, db')
  refuses t s db e := ∃ drawn, CheckInDb.refusal drawn t s db = some e
  aborts := IsAbort
  commit := CheckInDb.commit
  rollback := CheckInDb.rollback
  losesReplies := True

/-- Requests in any number, while the stores, the users and the reviews change. -/
def checkInMachine : Machine T (Request Statement) (Reply Result DbError) (CheckInDb T) :=
  { (checkInServer T).machine with env := fun db db' => ∃ around, db' = { db with around } }

end Server

/-! ### Programs -/

abbrev CheckInProg (α : Type) : Type := SqlProg Result DbError Failure α

def execute (s : Statement) : CheckInProg (Result s) := Transactions.execute .database s

/-- Whether a check-in was written now or is a replay of an earlier one. -/
inductive Outcome where
  | created | replayed
  deriving DecidableEq, Repr

/-- A refusal the schema raises, in the contract's words, by constraint name. -/
def writeError (storeId : ℤ) : DbError → Failure
  | .foreignKeyViolation "store_check_in_user_id_fkey" => .api invalidToken
  | .foreignKeyViolation "store_check_in_store_id_fkey" => .api (unknownStore storeId)
  | .checkViolation "store_check_in_latitude_check" =>
    .api (invalidBody "The fix is outside its range." "latitude" "out_of_range")
  | .checkViolation "store_check_in_longitude_check" =>
    .api (invalidBody "The fix is outside its range." "longitude" "out_of_range")
  | .checkViolation "store_check_in_accuracy_m_check" =>
    .api (invalidBody "The fix is outside its range." "accuracy_m" "out_of_range")
  | e => .database e

def replay (existing : CheckIn) (userId : Uuid) (request : CheckInRequest) :
    CheckInProg (CheckIn × Outcome) :=
  if existing.SameRequest userId request then .ret (existing, .replayed) else .raise (.api conflict)

def futureToleranceMinutes : ℤ := 5

/-- `i16::try_from`. -/
def asI16 (n : ℤ) : Option ℤ := if -32768 ≤ n ∧ n ≤ 32767 then some n else none

/-- The transaction: its answer, and whether it is committed or dropped. -/
def recordBody (crates : Crates) (sub : String) (userId : Uuid) (request : CheckInRequest) (now : Moment) :
    CheckInProg ((CheckIn × Outcome) × Bool) := do
  execute (.setConfig sub)
  match ← execute (.readByClientId request.clientCheckInId) with
  | some existing => replay existing userId request >>= fun answer => .ret (answer, false)
  | none =>
    if request.occurredAt.After (now.addMinutes futureToleranceMinutes) then
      .raise (.api occurredInFuture)
    else match asI16 request.storeId with
      | none => .raise (.api (unknownStore request.storeId))
      | some storeId => do
        match (← execute (.readStore storeId)).filter Store.isActive with
        | none => .raise (.api (unknownStore request.storeId))
        | some store =>
          let (reason, distanceM) := verdict crates.haversineM request.fix store.geofence
          let inserted ← insertRow (.insert ⟨request.clientCheckInId, userId, storeId,
            request.fix.map Fix.latitude, request.fix.map Fix.longitude, request.fix.map Fix.accuracyM,
            distanceM, reason, request.occurredAt⟩)
          match inserted with
          | some checkIn => .ret ((checkIn, .created), true)
          | none =>
            match ← execute (.readByClientId request.clientCheckInId) with
            | none => .raise (.api conflict)
            | some winner => replay winner userId request >>= fun answer => .ret (answer, true)
where
  insertRow (s : Statement) : CheckInProg (Result s) :=
    Transactions.execute (writeError request.storeId) s

def recordCheckIn (crates : Crates) (sub : String) (request : CheckInRequest) (now : Moment) :
    CheckInProg (CheckIn × Outcome) :=
  match crates.uuid sub with
  | none => .raise (.api invalidToken)
  | some userId =>
    (recordBody crates sub userId request now).tryCatch (fun e => .call .rollback fun _ => .raise e) >>=
      fun
      | (answer, true) => Transactions.request .database .commit >>= fun _ => .ret answer
      | (answer, false) => .call .rollback fun _ => .ret answer

/-- A `createCheckIn` request: the token's `sub`, the body, and the clock when it is handled. -/
structure Call where
  sub : String
  body : Body
  now : Moment

def Call.program (crates : Crates) (call : Call) : CheckInProg (CheckIn × Outcome) :=
  match parseCheckIn crates call.body with
  | .error e => .raise (.api e)
  | .ok request => recordCheckIn crates call.sub request call.now

end RetailSegmentation.CheckIns
