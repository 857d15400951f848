import Mathlib.Algebra.BigOperators.Group.List.Basic
import Mathlib.Algebra.Ring.Int.Defs
import Mathlib.Data.Int.Notation
import Mathlib.Data.String.Basic
import Mathlib.Logic.Function.Basic
import Mathlib.Tactic.Common
import RetailSegmentation.DatabaseErrors

/-! The sales tables (`sql/01_schema.sql`) and the values their columns take. Money is in cents and
instants are microseconds from the start of year 1, UTC. A sale is named by its unique
`source_transaction_id`; its surrogate `transaction_id` only ever names the same row. -/

namespace RetailSegmentation.Sales

/-! ### Python values -/

abbrev Instant := ℤ

def microsecondsPerDay : ℤ := 86400000000

/-- A `datetime`: the local reading and, when it is aware, its UTC offset. -/
structure Timestamp where
  localTime : ℤ
  utcOffset : Option ℤ
  deriving DecidableEq, Repr

namespace Timestamp

def instant (ts : Timestamp) : Instant := ts.localTime - ts.utcOffset.getD 0

def date (ts : Timestamp) : ℤ := ts.localTime / microsecondsPerDay

end Timestamp

inductive Decimal where
  | finite (negative : Bool) (coefficient : ℕ) (exponent : ℤ)
  | infinite (negative : Bool)
  | nan
  deriving DecidableEq, Repr

namespace Decimal

def isFinite : Decimal → Bool
  | finite _ _ _ => true
  | _ => false

/-- `price <= 0`, of a finite decimal. -/
def notPositive : Decimal → Bool
  | finite negative coefficient _ => negative || coefficient == 0
  | _ => false

def roundHalfEven (n d : ℕ) : ℕ :=
  if 2 * (n % d) < d ∨ (2 * (n % d) = d ∧ n / d % 2 = 0) then n / d else n / d + 1

/-- `price.quantize(Decimal("0.01"))` in cents. `none` is `InvalidOperation`: the result would need
more than the 28 digits of the default context. -/
def quantizeCent : Decimal → Option ℕ
  | finite _ coefficient exponent =>
    let cents := if -2 ≤ exponent then coefficient * 10 ^ (exponent + 2).toNat
      else roundHalfEven coefficient (10 ^ (-2 - exponent).toNat)
    if cents < 10 ^ 28 then some cents else none
  | _ => none

/-- Is this many cents the same number as the (positive) decimal? -/
def isCents (cents : ℕ) : Decimal → Bool
  | finite _ coefficient exponent =>
    if -2 ≤ exponent then cents == coefficient * 10 ^ (exponent + 2).toNat
    else cents * 10 ^ (-2 - exponent).toNat == coefficient
  | _ => false

end Decimal

/-- What `str.strip` removes. -/
def isSpace (c : Char) : Bool :=
  (9 ≤ c.toNat && c.toNat ≤ 13) || (28 ≤ c.toNat && c.toNat ≤ 32) || c.toNat == 0x85 ||
    c.toNat == 0xa0 || c.toNat == 0x1680 || (0x2000 ≤ c.toNat && c.toNat ≤ 0x200a) ||
    c.toNat == 0x2028 || c.toNat == 0x2029 || c.toNat == 0x202f || c.toNat == 0x205f ||
    c.toNat == 0x3000

def strip (text : String) : String :=
  String.ofList (((text.toList.dropWhile isSpace).reverse.dropWhile isSpace).reverse)

def hasNul (text : String) : Bool := text.toList.contains '\x00'

/-! ### Rows -/

inductive DataOrigin where
  | observed | seeded
  deriving DecidableEq, Repr

/-- A row of `transaction`. -/
structure Header where
  customerId : String
  storeId : ℤ
  channelId : ℤ
  occurredAt : Instant
  total : ℤ
  dataOrigin : DataOrigin
  deriving DecidableEq, Repr

/-- A row of `transaction_line`. -/
structure Line where
  sourceTransactionId : String
  productId : ℤ
  quantity : ℤ
  unitPrice : ℤ
  deriving DecidableEq, Repr

/-- The value of `sale_capture.request_sha256`: 32 octets. -/
abbrev Digest := BitVec 256

/-- A store and a product, the key of `inventory`. -/
abbrev StockKey := ℤ × ℤ

/-- The reference tables, which no sale changes. Dates are day ordinals. -/
structure Catalog where
  registeredOn : String → Option ℤ
  productIsActive : ℤ → Option Bool
  hasStore : ℤ → Bool
  hasChannel : ℤ → Bool
  hasUser : String → Bool

/-- The value conversions of PostgreSQL and psycopg. -/
structure Postgres where
  /-- `uuid` input, giving the canonical text; `none` is `InvalidTextRepresentation`. -/
  uuidIn : String → Option String
  /-- Does `timestamptz` take this value, its offset included? -/
  takesTimestamp : Timestamp → Bool
  /-- Can a stored instant be returned as a `datetime`? -/
  givesTimestamp : Instant → Bool
  /-- Can a stored day be returned as a `date`? -/
  givesDate : ℤ → Bool

/-! ### What the columns refuse -/

/-- The role a session connected as. -/
inductive SessionUser where
  | web | svcSales
  deriving DecidableEq, Repr

def namespacePrefix : String := "svc-sales:"

/-- `source_transaction_id LIKE 'svc-sales:%'`. -/
def inNamespace (source : String) : Bool := namespacePrefix.toList.isPrefixOf source.toList

def isSmallint (n : ℤ) : Bool := -32768 ≤ n && n ≤ 32767

def isInt (n : ℤ) : Bool := -2147483648 ≤ n && n ≤ 2147483647

/-- `NUMERIC(10,2)`, in cents. -/
def fitsPrice (cents : ℤ) : Bool := -(10 ^ 10) < cents && cents < 10 ^ 10

/-- `NUMERIC(12,2)`, in cents. -/
def fitsTotal (cents : ℤ) : Bool := -(10 ^ 12) < cents && cents < 10 ^ 12

/-- The values of an `INSERT INTO transaction`. -/
structure NewHeader where
  sourceTransactionId : String
  customerId : String
  storeId : ℤ
  channelId : ℤ
  occurredAt : Timestamp
  total : ℤ
  dataOrigin : DataOrigin
  deriving DecidableEq, Repr

section Columns

variable (pg : Postgres) (cat : Catalog)

/-- The row the columns of `transaction` make of an insert: parameters are converted first, then the
column types, the namespace guard and the checks have their say. -/
def headerRow (clock : Instant) (session : SessionUser) (new : NewHeader) : Except DbError Header :=
  if hasNul new.sourceTransactionId || hasNul new.customerId then .error (.dataError .other)
  else match pg.uuidIn new.customerId with
  | none => .error (.dataError .invalidTextRepresentation)
  | some customerId =>
    if !pg.takesTimestamp new.occurredAt then .error (.dataError .other)
    else if 64 < new.sourceTransactionId.length then .error (.dataError .stringDataRightTruncation)
    else if !(isSmallint new.storeId && isSmallint new.channelId && fitsTotal new.total) then
      .error (.dataError .numericValueOutOfRange)
    else if inNamespace new.sourceTransactionId != (session == .svcSales) then
      .error (.dataError .other)
    else if session = .svcSales ∧ new.dataOrigin ≠ .observed then .error (.dataError .other)
    else if new.total < 0 then .error (.checkViolation "transaction_total_check")
    else if clock < new.occurredAt.instant then .error (.checkViolation "transaction_not_future")
    else .ok ⟨customerId, new.storeId, new.channelId, new.occurredAt.instant, new.total, new.dataOrigin⟩

/-- The foreign keys of a header, checked in the order they were declared. -/
def headerReference (header : Header) : Option DbError :=
  if (cat.registeredOn header.customerId).isNone then
    some (.foreignKeyViolation "transaction_customer_id_fkey")
  else if !cat.hasStore header.storeId then some (.foreignKeyViolation "transaction_store_id_fkey")
  else if !cat.hasChannel header.channelId then
    some (.foreignKeyViolation "transaction_channel_id_fkey")
  else none

/-- What refuses a line before its keys are looked at. -/
def lineRefusal (session : SessionUser) (line : Line) : Option DbError :=
  if !(isInt line.productId && isInt line.quantity && fitsPrice line.unitPrice) then
    some (.dataError .numericValueOutOfRange)
  else if session ≠ .svcSales ∧ inNamespace line.sourceTransactionId then some (.dataError .other)
  else if line.quantity ≤ 0 then some (.checkViolation "transaction_line_quantity_check")
  else if line.unitPrice ≤ 0 then some (.checkViolation "transaction_line_unit_price_check")
  else none

/-- What a sale reads about its customer and product: the day the customer registered and the state
of the product, `none` for an unknown one. -/
structure SaleReferences where
  registeredOn : ℤ
  productIsActive : Option Bool
  deriving DecidableEq, Repr

def saleReferences (customerId : String) (productId : ℤ) : Except DbError (Option SaleReferences) :=
  if hasNul customerId then .error (.dataError .other)
  else match pg.uuidIn customerId with
  | none => .error (.dataError .invalidTextRepresentation)
  | some customer => match cat.registeredOn customer with
    | none => .ok none
    | some day => if pg.givesDate day then .ok (some ⟨day, cat.productIsActive productId⟩)
      else .error (.dataError .other)

theorem saleReferences_error {customerId : String} {productId : ℤ} {e : DbError}
    (herror : saleReferences pg cat customerId productId = .error e) : ∃ kind, e = .dataError kind := by
  unfold saleReferences at herror
  split at herror
  · exact ⟨_, (Except.error.inj herror).symm⟩
  split at herror
  · exact ⟨_, (Except.error.inj herror).symm⟩
  split at herror
  · cases herror
  · split_ifs at herror
    exact ⟨_, (Except.error.inj herror).symm⟩

theorem headerRow_error {clock : Instant} {session : SessionUser} {new : NewHeader} {e : DbError}
    (herror : headerRow pg clock session new = .error e) :
    (∃ kind, e = .dataError kind) ∨ (e = .checkViolation "transaction_total_check" ∧ new.total < 0) ∨
      e = .checkViolation "transaction_not_future" := by
  unfold headerRow at herror
  split at herror
  · exact .inl ⟨_, (Except.error.inj herror).symm⟩
  split at herror
  · exact .inl ⟨_, (Except.error.inj herror).symm⟩
  split_ifs at herror with _ _ _ _ _ htotal
  · exact .inl ⟨_, (Except.error.inj herror).symm⟩
  · exact .inl ⟨_, (Except.error.inj herror).symm⟩
  · exact .inl ⟨_, (Except.error.inj herror).symm⟩
  · exact .inl ⟨_, (Except.error.inj herror).symm⟩
  · exact .inl ⟨_, (Except.error.inj herror).symm⟩
  · exact .inr (.inl ⟨(Except.error.inj herror).symm, htotal⟩)
  · exact .inr (.inr (Except.error.inj herror).symm)

theorem headerReference_some {header : Header} {e : DbError}
    (hreference : headerReference cat header = some e) :
    e = .foreignKeyViolation "transaction_customer_id_fkey" ∨
      e = .foreignKeyViolation "transaction_store_id_fkey" ∨
      e = .foreignKeyViolation "transaction_channel_id_fkey" := by
  unfold headerReference at hreference
  split_ifs at hreference
  · exact .inl (Option.some.inj hreference).symm
  · exact .inr (.inl (Option.some.inj hreference).symm)
  · exact .inr (.inr (Option.some.inj hreference).symm)

theorem lineRefusal_some {session : SessionUser} {line : Line} {e : DbError}
    (hline : lineRefusal session line = some e) : (∃ kind, e = .dataError kind) ∨
      e = .checkViolation "transaction_line_quantity_check" ∨
      e = .checkViolation "transaction_line_unit_price_check" := by
  unfold lineRefusal at hline
  split_ifs at hline
  · exact .inl ⟨_, (Option.some.inj hline).symm⟩
  · exact .inl ⟨_, (Option.some.inj hline).symm⟩
  · exact .inr (.inl (Option.some.inj hline).symm)
  · exact .inr (.inr (Option.some.inj hline).symm)

theorem headerRow_ok {clock : Instant} {session : SessionUser} {new : NewHeader} {header : Header}
    (hrow : headerRow pg clock session new = .ok header) :
    header.storeId = new.storeId ∧ header.channelId = new.channelId ∧
      header.occurredAt = new.occurredAt.instant ∧ header.total = new.total ∧
      header.dataOrigin = new.dataOrigin ∧ header.occurredAt ≤ clock ∧
      pg.uuidIn new.customerId = some header.customerId := by
  unfold headerRow at hrow
  split at hrow
  · cases hrow
  split at hrow
  · cases hrow
  · rename_i customer hcustomer
    split_ifs at hrow with _ _ _ _ _ _ hclock
    obtain rfl := Except.ok.inj hrow
    exact ⟨rfl, rfl, rfl, rfl, rfl, Int.not_lt.mp hclock, hcustomer⟩

theorem lineRefusal_none {session : SessionUser} {line : Line}
    (hline : lineRefusal session line = none) : 0 < line.quantity ∧ 0 < line.unitPrice := by
  unfold lineRefusal at hline
  split_ifs at hline with _ _ hquantity hprice
  exact ⟨Int.not_le.mp hquantity, Int.not_le.mp hprice⟩

end Columns

/-! ### The ledger -/

/-- The contents of the sales tables. -/
structure Ledger where
  header : String → Option Header
  lines : List Line
  stock : StockKey → Option ℤ
  capture : String → Option Digest

def linesOf (source : String) (lines : List Line) : List Line :=
  lines.filter fun line => line.sourceTransactionId = source

/-- `SUM(quantity * unit_price)` over the lines of a sale. -/
def linesTotal (source : String) (lines : List Line) : ℤ :=
  ((linesOf source lines).map fun line => line.quantity * line.unitPrice).sum

/-- The quantity of the lines of one product sold at one store. -/
def soldAt (header : String → Option Header) (key : StockKey) (lines : List Line) : ℤ :=
  ((lines.filter fun line => line.productId = key.2 ∧
    (header line.sourceTransactionId).map Header.storeId = some key.1).map Line.quantity).sum

theorem linesTotal_append (source : String) (lines added : List Line) :
    linesTotal source (lines ++ added) = linesTotal source lines + linesTotal source added := by
  simp [linesTotal, linesOf]

theorem soldAt_append (header : String → Option Header) (key : StockKey) (lines added : List Line) :
    soldAt header key (lines ++ added) = soldAt header key lines + soldAt header key added := by
  simp [soldAt]

theorem soldAt_singleton (header : String → Option Header) (key : StockKey) (line : Line) :
    soldAt header key [line] = if line.productId = key.2 ∧
      (header line.sourceTransactionId).map Header.storeId = some key.1 then line.quantity else 0 := by
  simp only [soldAt, List.filter_cons, List.filter_nil, decide_eq_true_eq]
  split_ifs
  · exact add_zero _
  · rfl

theorem soldAt_congr {header header' : String → Option Header} (key : StockKey) {lines : List Line}
    (hstore : ∀ line ∈ lines, (header line.sourceTransactionId).map Header.storeId =
      (header' line.sourceTransactionId).map Header.storeId) :
    soldAt header key lines = soldAt header' key lines := by
  unfold soldAt
  congr 2
  apply List.filter_congr
  intro line hline
  rw [hstore line hline]

end RetailSegmentation.Sales
