import RetailSegmentation.SalesIngestion

/-! The phone sales service (`services/sales/app`): `recordSale` and what it asks of the database. The
request is the one the kit hands over, its body already of the shape the contract declares. -/

namespace RetailSegmentation.Sales

open Program

/-! ### Requests and answers -/

/-- A line of a request: `quantity` is `none` where it is not a whole number, `unitPrice` where
`Decimal` refuses its text. -/
structure BodyLine where
  productId : ℤ
  quantity : Option ℤ
  unitPrice : Option Decimal
  deriving DecidableEq, Repr

/-- The body of a request; `occurredAt` is `none` where it is not an ISO time. -/
structure SaleBody where
  customerId : String
  storeId : ℤ
  channelId : ℤ
  occurredAt : Option Timestamp
  lines : List BodyLine
  deriving DecidableEq, Repr

/-- A `recordSale` request: its Idempotency-Key as `str(UUID(...))`, if it is one, its caller and the
time the service reads. -/
structure SaleRequest where
  key : Option String
  sub : String
  body : SaleBody
  now : Instant
  deriving DecidableEq, Repr

/-- A normalized line, its price in cents. -/
structure SaleLine where
  productId : ℤ
  quantity : ℤ
  unitPrice : ℤ
  deriving DecidableEq, Repr

/-- What the digest of a request is taken of. -/
structure CanonicalSale where
  sub : String
  customerId : String
  storeId : ℤ
  channelId : ℤ
  occurredAt : Instant
  lines : List SaleLine
  deriving DecidableEq, Repr

/-- The `Sale` representation. -/
structure SaleView where
  source : String
  header : Header
  lines : List Line
  deriving DecidableEq, Repr

structure Representation where
  status : ℕ
  replayed : Bool
  sale : SaleView
  deriving DecidableEq, Repr

/-! ### Local validation -/

def lineError (status : ℕ) (code message : String) (index : ℕ) (member detail : String) : ApiError :=
  ⟨status, code, message, "lines[" ++ toString index ++ "]." ++ member, detail⟩

def maxQuantity : ℤ := 2147483647

/-- A positive decimal with no digit beyond the cents, in cents. -/
def Decimal.toCents : Decimal → Option ℤ
  | .finite false coefficient exponent =>
    if coefficient ≠ 0 ∧ -2 ≤ exponent then some (coefficient * 10 ^ (exponent + 2).toNat) else none
  | _ => none

def validateLine (seen : List ℤ) (index : ℕ) (line : BodyLine) : Except ApiError SaleLine :=
  if line.productId ∈ seen then
    .error (lineError 409 "duplicate_product_line" "A product appears on more than one line." index
      "product_id" "duplicate")
  else if line.quantity.all (· ≤ 0) then
    .error (lineError 422 "invalid_quantity" "A quantity is not a positive whole number." index
      "quantity" "not_positive")
  else if line.quantity.any (maxQuantity < ·) then
    .error (lineError 422 "invalid_quantity" "A quantity is larger than a sale line can hold." index
      "quantity" "out_of_range")
  else match line.unitPrice.bind Decimal.toCents with
  | none => .error (lineError 422 "invalid_price"
      "A unit price is not a positive amount with two decimals." index "unit_price" "invalid")
  | some cents =>
    if 10 ^ 10 ≤ cents then .error (lineError 422 "invalid_price"
      "A unit price is larger than a sale line can hold." index "unit_price" "out_of_range")
    else .ok ⟨line.productId, line.quantity.getD 0, cents⟩

def validateLines : List ℤ → ℕ → List BodyLine → Except ApiError (List SaleLine)
  | _, _, [] => .ok []
  | seen, index, line :: rest => do
    let first ← validateLine seen index line
    let others ← validateLines (line.productId :: seen) (index + 1) rest
    return first :: others

def saleTotal (lines : List SaleLine) : ℤ := (lines.map fun line => line.unitPrice * line.quantity).sum

/-- `_validate_local`: the sale's time and lines. -/
def validateLocal (now : Instant) (body : SaleBody) : Except ApiError (Timestamp × List SaleLine) :=
  if body.lines = [] then
    .error ⟨422, "no_lines", "A sale needs at least one line.", "lines", "empty"⟩
  else do
    let lines ← validateLines [] 0 body.lines
    if 10 ^ 12 ≤ saleTotal lines then
      .error ⟨422, "invalid_body", "The sale's total is larger than a sale can hold.", "lines",
        "out_of_range"⟩
    else match body.occurredAt with
    | none => .error ⟨422, "invalid_body", "The sale violates its schema.", "occurred_at",
        "invalid_format"⟩
    | some occurredAt =>
      if occurredAt.utcOffset = none then .error ⟨422, "invalid_body", "The sale violates its schema.",
        "occurred_at", "missing_offset"⟩
      else if now < occurredAt.instant then .error ⟨422, "future_dated", "The sale is dated in the future.",
        "occurred_at", "future"⟩
      else .ok (occurredAt, lines)

/-- The instants a `datetime` can express: years 1 to 9999. -/
def maxInstant : Instant := 3652059 * microsecondsPerDay

def productOrder (lines : List SaleLine) : List SaleLine :=
  lines.insertionSort fun a b => a.productId ≤ b.productId

/-- `_canonical` before hashing; `none` where `astimezone` overflows. -/
def canonical (body : SaleBody) (occurredAt : Timestamp) (lines : List SaleLine) (sub : String) :
    Option CanonicalSale :=
  if 0 ≤ occurredAt.instant ∧ occurredAt.instant < maxInstant then
    some {
      sub
      customerId := String.ofList (body.customerId.toList.map Char.toLower)
      storeId := body.storeId
      channelId := body.channelId
      occurredAt := occurredAt.instant
      lines := productOrder lines }
  else none

/-! ### Statements -/

/-- `api_stock.consume_v1`. -/
def consume (storeId productId quantity : ℤ) : SalesProg Unit :=
  if quantity ≤ 0 then .raise (.database (.dataError .other))
  else do
    let updated : Option ℤ ← execute (.updateInventory storeId productId quantity)
    match updated with
    | some _ => return ()
    | none =>
      let locked : Option ℤ ← execute (.lockInventory storeId productId)
      match locked with
      | none => .raise (.database (.checkViolation "no_stock_record"))
      | some _ => .raise (.database (.checkViolation "stock_unavailable"))

/-- The row a normalized line becomes. -/
def SaleLine.toLine (source : String) (line : SaleLine) : Line :=
  ⟨source, line.productId, line.quantity, line.unitPrice⟩

def insertSaleLines (source : String) : List SaleLine → SalesProg Unit
  | [] => return ()
  | line :: rest => do
    let _ : Unit ← execute (.insertTransactionLine .svcSales (line.toLine source))
    insertSaleLines source rest

/-- Consume the stock of each line, in this order, pairing a refusal with the line's place in the
request. -/
def consumeLines (storeId : ℤ) : List (ℕ × SaleLine) → SalesProg Unit
  | [] => return ()
  | (index, line) :: rest => do
    (consume storeId line.productId line.quantity).tryCatch fun
      | .database (.checkViolation constraint) => .raise (.stockRefusal index (.checkViolation constraint))
      | e => .raise e
    consumeLines storeId rest

def indexedByProduct (lines : List SaleLine) : List (ℕ × SaleLine) :=
  (lines.zipIdx.map Prod.swap).insertionSort fun a b => a.2.productId ≤ b.2.productId

/-- A request that passed its local validation. -/
structure ValidSale where
  source : String
  body : SaleBody
  occurredAt : Timestamp
  lines : List SaleLine
  digest : Digest
  sub : String

namespace ValidSale

variable (sale : ValidSale)

def newHeader : NewHeader where
  sourceTransactionId := sale.source
  customerId := sale.body.customerId
  storeId := sale.body.storeId
  channelId := sale.body.channelId
  occurredAt := sale.occurredAt
  total := saleTotal sale.lines
  dataOrigin := .observed

end ValidSale

def insertSale (sale : ValidSale) : SalesProg Unit := do
  let _ : Unit ← execute (.insertTransaction .svcSales sale.newHeader)
  insertSaleLines sale.source sale.lines
  consumeLines sale.body.storeId (indexedByProduct sale.lines)
  execute (.insertCapture sale.source sale.digest sale.sub)

def checkProducts (states : List (ℤ × Bool)) : ℕ → List SaleLine → Except ApiError Unit
  | _, [] => .ok ()
  | index, line :: rest => match states.lookup line.productId with
    | none => .error (lineError 422 "unknown_product" "A product does not exist." index "product_id" "unknown")
    | some false =>
      .error (lineError 422 "inactive_product" "A product is not active." index "product_id" "inactive")
    | some true => checkProducts states (index + 1) rest

def refuse (result : Except ApiError Unit) : SalesProg Unit :=
  match result with
  | .ok () => .ret ()
  | .error e => .raise (.api e)

def validateReferences (sale : ValidSale) : SalesProg Unit := do
  let registeredOn : Option ℤ ← execute (.customerRegistration sale.body.customerId)
  match registeredOn with
  | none => .raise (.api ⟨422, "unknown_customer", "The customer does not exist.", "customer_id", "unknown"⟩)
  | some day =>
    if sale.occurredAt.date < day then
      .raise (.api ⟨422, "before_registration", "The sale is dated before the customer registered.",
        "occurred_at", "before_registration"⟩)
    else
      let states : List (ℤ × Bool) ← execute (.products (sale.lines.map SaleLine.productId))
      refuse (checkProducts states 0 sale.lines)

def readSale (source : String) : SalesProg (Option SaleView) := do
  let header : Option Header ← execute (.getSale source)
  match header with
  | none => return none
  | some header =>
    let lines : List Line ← execute (.getSaleLines source)
    return some ⟨source, header, lines⟩

def keyReused : ApiError :=
  ⟨409, "idempotency_key_reused", "The Idempotency-Key was already used for a different sale.",
    "Idempotency-Key", "reused"⟩

def replay (source : String) (digest : Digest) : SalesProg (Option Representation) := do
  let found : Option Digest ← execute (.findCapture source)
  match found with
  | none => return none
  | some original =>
    let sale ← readSale source
    match sale with
    | none => .raise .assertion
    | some sale =>
      if original ≠ digest then .raise (.api keyReused)
      else return some ⟨200, true, sale⟩

/-- `_database_refusal`: the answer for a refusal of the database, or the error itself. -/
def databaseRefusal (index : ℕ) (e : DbError) : Exc :=
  match e with
  | .checkViolation constraint | .foreignKeyViolation constraint | .uniqueViolation constraint =>
    if constraint = "no_stock_record" then
      .api (lineError 422 "no_stock_record" "The store has no stock record for a product." index
        "product_id" "no_stock_record")
    else if constraint = "stock_unavailable" then
      .api (lineError 409 "stock_unavailable" "The store does not hold enough stock for a line." index
        "quantity" "insufficient_stock")
    else if constraint = "transaction_store_id_fkey" then
      .api ⟨422, "unknown_store", "The store does not exist.", "store_id", "unknown"⟩
    else if constraint = "transaction_channel_id_fkey" then
      .api ⟨422, "unknown_channel", "The channel does not exist.", "channel_id", "unknown"⟩
    else .database e
  | e => .database e

/-- One attempt: the sale in a transaction of its own, then what was recorded. -/
def recordAttempt (sale : ValidSale) : SalesProg Representation := do
  atomic (validateReferences sale >>= fun _ => insertSale sale)
  let recorded ← readSale sale.source
  match recorded with
  | none => .raise .assertion
  | some recorded => return ⟨201, false, recorded⟩

/-- The `except` clauses of an attempt, with the attempts left after it. -/
def recordFailure (sale : ValidSale) (again : Option (SalesProg Representation)) :
    Exc → SalesProg Representation
  | .database .deadlockDetected => again.getD (.raise (.database .deadlockDetected))
  | .database .serializationFailure => again.getD (.raise (.database .serializationFailure))
  | .database (.uniqueViolation constraint) =>
    if constraint ≠ "transaction_source_transaction_id_key" then
      .raise (.database (.uniqueViolation constraint))
    else do
      let replayed ← replay sale.source sale.digest
      match replayed with
      | some answer => return answer
      | none => .raise (.database (.uniqueViolation constraint))
  | .stockRefusal index e => .raise (databaseRefusal index e)
  | .database (.checkViolation constraint) => .raise (databaseRefusal 0 (.checkViolation constraint))
  | .database (.foreignKeyViolation constraint) =>
    .raise (databaseRefusal 0 (.foreignKeyViolation constraint))
  | e => .raise e

/-- The attempts of `record_sale`: `retries` more after a deadlock or a serialization failure. -/
def recordAttempts (sale : ValidSale) : ℕ → SalesProg Representation
  | 0 => (recordAttempt sale).tryCatch (recordFailure sale none)
  | retries + 1 => (recordAttempt sale).tryCatch (recordFailure sale (some (recordAttempts sale retries)))

def keyRequired : ApiError :=
  ⟨400, "idempotency_key_required", "The Idempotency-Key header is missing or is not a UUID.",
    "Idempotency-Key", "required"⟩

/-- The request as the transaction will need it, or the exception it ends with. -/
def prepare (sha256 : CanonicalSale → Digest) (request : SaleRequest) : Except Exc ValidSale :=
  match request.key with
  | none => .error (.api keyRequired)
  | some key => match validateLocal request.now request.body with
    | .error e => .error (.api e)
    | .ok (occurredAt, lines) => match canonical request.body occurredAt lines request.sub with
      | none => .error .overflow
      | some canonical => .ok {
          source := namespacePrefix ++ key
          body := request.body
          digest := sha256 canonical
          sub := request.sub
          occurredAt, lines }

def recordSale (sha256 : CanonicalSale → Digest) (request : SaleRequest) : SalesProg Representation :=
  match prepare sha256 request with
  | .error e => .raise e
  | .ok sale => do
    let replayed ← replay sale.source sale.digest
    match replayed with
    | some answer => return answer
    | none => recordAttempts sale 2

/-! ### What the service answers and writes -/

theorem indexedByProduct_quantities (lines : List SaleLine) :
    ((indexedByProduct lines).map fun e => (e.2.productId, e.2.quantity)).Perm
      (lines.map fun line => (line.productId, line.quantity)) := by
  refine ((List.perm_insertionSort _ _).map _).trans (List.Perm.of_eq ?_)
  rw [List.map_map]
  conv_rhs => rw [← List.zipIdx_map_fst 0 lines, List.map_map]
  rfl

theorem checkProducts_error {states : List (ℤ × Bool)} {index : ℕ} {lines : List SaleLine} {e : ApiError}
    (hcheck : checkProducts states index lines = .error e) :
    e.code = "unknown_product" ∨ e.code = "inactive_product" := by
  induction lines generalizing index with
  | nil => cases hcheck
  | cons line rest ih =>
      rw [checkProducts] at hcheck
      split at hcheck
      · exact .inl (congrArg ApiError.code (Except.error.inj hcheck)).symm
      · exact .inr (congrArg ApiError.code (Except.error.inj hcheck)).symm
      · exact ih hcheck

theorem databaseRefusal_eq (index : ℕ) (e : DbError) :
    databaseRefusal index e = .database e ∨ ∃ answer, databaseRefusal index e = .api answer ∧
      answer.code ∈ ["no_stock_record", "stock_unavailable", "unknown_store", "unknown_channel"] := by
  unfold databaseRefusal
  split
  iterate 3
    split_ifs
    · exact .inr ⟨_, rfl, by simp [lineError]⟩
    · exact .inr ⟨_, rfl, by simp [lineError]⟩
    · exact .inr ⟨_, rfl, by simp⟩
    · exact .inr ⟨_, rfl, by simp⟩
    · exact .inl rfl
  exact .inl rfl


theorem validateLine_ok {seen : List ℤ} {index : ℕ} {line : BodyLine} {valid : SaleLine}
    (hline : validateLine seen index line = .ok valid) :
    line.productId = valid.productId ∧ line.quantity = some valid.quantity := by
  unfold validateLine at hline
  split_ifs at hline with _ hpositive hlarge
  split at hline
  · cases hline
  split_ifs at hline
  obtain rfl := Except.ok.inj hline
  cases hquantity : line.quantity with
  | none => simp [hquantity] at hpositive
  | some quantity => exact ⟨rfl, rfl⟩

theorem validateLines_ok {seen : List ℤ} {start : ℕ} {lines : List BodyLine} {valid : List SaleLine}
    (hlines : validateLines seen start lines = .ok valid) (index : ℕ) (v : SaleLine)
    (hv : valid[index]? = some v) :
    ∃ line, lines[index]? = some line ∧ line.productId = v.productId ∧ line.quantity = some v.quantity := by
  induction lines generalizing seen start valid index with
  | nil =>
      obtain rfl := Except.ok.inj hlines
      cases hv
  | cons line rest ih =>
      rw [validateLines] at hlines
      obtain ⟨first, hfirst, hlines⟩ := except_bind_ok hlines
      obtain ⟨others, hothers, hlines⟩ := except_bind_ok hlines
      obtain rfl := Except.ok.inj hlines
      cases index with
      | zero =>
          obtain rfl := Option.some.inj hv
          exact ⟨line, rfl, validateLine_ok hfirst⟩
      | succ index => exact ih hothers index hv

theorem prepare_ok {sha256 : CanonicalSale → Digest} {request : SaleRequest} {sale : ValidSale}
    (hprepare : prepare sha256 request = .ok sale) :
    sale.body = request.body ∧ ∀ (index : ℕ) (v : SaleLine), sale.lines[index]? = some v →
      ∃ line, request.body.lines[index]? = some line ∧ line.productId = v.productId ∧
        line.quantity = some v.quantity := by
  unfold prepare at hprepare
  split at hprepare
  · cases hprepare
  split at hprepare
  · cases hprepare
  rename_i occurredAt lines hlocal
  split at hprepare
  · cases hprepare
  obtain rfl := Except.ok.inj hprepare
  refine ⟨rfl, ?_⟩
  unfold validateLocal at hlocal
  split_ifs at hlocal
  obtain ⟨valid, hlines, hlocal⟩ := except_bind_ok hlocal
  split_ifs at hlocal
  split at hlocal
  · cases hlocal
  split_ifs at hlocal
  obtain ⟨-, rfl⟩ := Prod.mk.inj (Except.ok.inj hlocal)
  exact validateLines_ok hlines

end RetailSegmentation.Sales
