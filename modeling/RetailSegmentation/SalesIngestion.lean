import RetailSegmentation.SalesStatements

/-! Row-level sales ingestion (`web/services/ingestion.py`): validate and persist one sales row in one
transaction. `ingestRow` is the program, statement by statement; `Ledger.post` is what the
transaction as a whole makes of the committed tables, and `run_ingestRow` says they agree. -/

namespace RetailSegmentation.Sales

open Program

/-- A validated record of the producer (`SalesRow`). -/
structure SalesRow where
  sourceTransactionId : String
  customerId : String
  storeId : ℤ
  channelId : ℤ
  occurredAt : Timestamp
  productId : ℤ
  quantity : ℤ
  unitPrice : Decimal
  deriving DecidableEq, Repr

/-! ### Exceptions -/

/-- The reasons of a `RowRejected`. -/
inductive Rejection where
  | missingId
  | formula
  | missingOffset
  | future
  | quantityNotPositive
  | priceNotFinite
  | priceNotPositive
  | priceDecimals
  | unknown (entity : String)
  | beforeRegistration
  | inactiveProduct
  | malformed (reason : String)
  | createdConcurrently (source : String)
  | seededSale (source : String)
  | disagrees (source : String)
  | duplicateLine (source : String) (productId : ℤ)
  | noInventory (storeId productId : ℤ)
  | insufficientStock (storeId productId available : ℤ)
  | tooManyColumns
  | tooFewColumns
  deriving DecidableEq, Repr

def Rejection.text : Rejection → String
  | missingId => "source transaction id is required"
  | formula => "source transaction id cannot be a spreadsheet formula"
  | missingOffset => "occurred_at must include a UTC offset"
  | future => "occurred_at cannot be in the future"
  | quantityNotPositive => "quantity must be positive"
  | priceNotFinite => "unit price must be a finite number"
  | priceNotPositive => "unit price must be positive"
  | priceDecimals => "unit price must have at most 2 decimal places"
  | unknown entity => "unknown " ++ entity
  | beforeRegistration => "sale occurred before customer registration"
  | inactiveProduct => "product is inactive"
  | malformed reason => "malformed row: " ++ reason
  | createdConcurrently source => "duplicate: " ++ source ++ " was created concurrently"
  | seededSale source => "duplicate: " ++ source ++ " is a seeded sale"
  | disagrees source => "row disagrees with the accepted header for " ++ source
  | duplicateLine source productId =>
    "duplicate: " ++ source ++ " already has a line for product " ++ toString productId
  | noInventory storeId productId =>
    "no inventory for store " ++ toString storeId ++ " and product " ++ toString productId
  | insufficientStock storeId productId available =>
    "insufficient stock for store " ++ toString storeId ++ " and product " ++ toString productId ++
      ": " ++ toString available ++ " available"
  | tooManyColumns => "row has more columns than the header"
  | tooFewColumns => "row has fewer columns than the header"

/-- An error answer of the phone sales service, with its one detail. -/
structure ApiError where
  status : ℕ
  code : String
  message : String
  field : String
  detail : String
  deriving DecidableEq, Repr

inductive Exc where
  | rowRejected (reason : Rejection)
  | stockUnavailable (storeId productId : ℤ) (available : Option ℤ)
  | stockRefusal (index : ℕ) (error : DbError)
  | api (error : ApiError)
  | overflow
  | assertion
  | database (error : DbError)
  deriving DecidableEq, Repr

abbrev SalesProg (α : Type) : Type := Prog Command Reply Exc α

/-! ### Statements as calls -/

def call (c : Command) : SalesProg (Value c) :=
  .call c fun
    | .ok a => .ret a
    | .error e => .raise (.database e)

def execute (s : Statement) : SalesProg (Result s) := call (.execute s)

def commit : SalesProg Unit := call .commit

def rollback : SalesProg Unit := call .rollback

/-- Commit one service operation; roll back and pass on any exception. The web's `atomic` and the
kit's `transaction` both do this. -/
def atomic (function : SalesProg Unit) : SalesProg Unit :=
  (function >>= fun _ => commit).tryCatch fun error => rollback >>= fun _ => .raise error

/-- Raise `RowRejected` where a check fails. -/
def check (result : Except Rejection α) : SalesProg α :=
  match result with
  | .ok a => .ret a
  | .error reason => .raise (.rowRejected reason)

theorem except_bind_ok {ε α β : Type} {x : Except ε α} {f : α → Except ε β} {b : β}
    (h : x >>= f = .ok b) : ∃ a, x = .ok a ∧ f a = .ok b := by
  cases x with
  | error e => cases h
  | ok a => exact ⟨a, rfl, h⟩

theorem except_bind_error {ε α β : Type} {x : Except ε α} {f : α → Except ε β} {e : ε} (h : x >>= f = .error e) :
    x = .error e ∨ ∃ a, x = .ok a ∧ f a = .error e := by
  cases x with
  | error e' => exact .inl (congrArg Except.error (Except.error.inj h))
  | ok a => exact .inr ⟨a, rfl, h⟩

/-! ### Checks and translations -/

def isSpreadsheetFormula (value : String) : Bool :=
  match value.toList.dropWhile isSpace with
  | c :: _ => c == '=' || c == '+' || c == '-' || c == '@'
  | [] => false

/-- The checks made before the database is asked: the stripped id and the price in cents. -/
def checkRow (now : Instant) (row : SalesRow) : Except Rejection (String × ℤ) :=
  let source := strip row.sourceTransactionId
  if source = "" then .error .missingId
  else if isSpreadsheetFormula source then .error .formula
  else if row.occurredAt.utcOffset = none then .error .missingOffset
  else if now < row.occurredAt.instant then .error .future
  else if row.quantity ≤ 0 then .error .quantityNotPositive
  else if !row.unitPrice.isFinite then .error .priceNotFinite
  else if row.unitPrice.notPositive then .error .priceNotPositive
  else match row.unitPrice.quantizeCent with
  | none => .error .priceDecimals
  | some cents => if row.unitPrice.isCents cents then .ok (source, cents) else .error .priceDecimals

theorem isCents_pos {d : Decimal} {cents : ℕ} (hfinite : d.isFinite) (hpositive : ¬d.notPositive)
    (hcents : d.isCents cents) : 0 < cents := by
  cases d with
  | infinite _ => cases hfinite
  | nan => cases hfinite
  | finite negative coefficient exponent =>
      have hne : coefficient ≠ 0 := by
        rintro rfl
        exact hpositive (by simp [Decimal.notPositive])
      simp only [Decimal.isCents] at hcents
      split_ifs at hcents
      · rw [eq_of_beq hcents]
        exact Nat.mul_pos (Nat.pos_of_ne_zero hne) (Nat.pow_pos (by decide))
      · apply Nat.pos_of_ne_zero
        rintro rfl
        rw [Nat.zero_mul] at hcents
        exact hne (eq_of_beq hcents).symm

theorem checkRow_ok {now : Instant} {row : SalesRow} {source : String} {price : ℤ}
    (hcheck : checkRow now row = .ok (source, price)) :
    source = strip row.sourceTransactionId ∧ 0 < row.quantity ∧ 0 < price ∧ row.occurredAt.instant ≤ now := by
  unfold checkRow at hcheck
  dsimp only at hcheck
  split_ifs at hcheck with _ _ _ hnow hquantity hfinite hpositive
  split at hcheck
  · cases hcheck
  · rename_i cents _
    split_ifs at hcheck with hcents
    obtain ⟨rfl, rfl⟩ := Prod.mk.inj (Except.ok.inj hcheck)
    have hpos := isCents_pos (by simpa using hfinite) hpositive hcents
    exact ⟨rfl, Int.not_le.mp hquantity, by exact_mod_cast hpos, Int.not_lt.mp hnow⟩

def checkReferences (row : SalesRow) (references : Option SaleReferences) : Except Rejection Unit :=
  match references with
  | none => .error (.unknown "customer")
  | some references =>
    if row.occurredAt.date < references.registeredOn then .error .beforeRegistration
    else match references.productIsActive with
    | none => .error (.unknown "product")
    | some false => .error .inactiveProduct
    | some true => .ok ()

/-- The checks of a line against the header its sale already has. -/
def checkHeader (row : SalesRow) (source : String) (header : Header) : Except Rejection Unit :=
  if header.dataOrigin ≠ .observed then .error (.seededSale source)
  else if header.customerId ≠ row.customerId ∨ header.storeId ≠ row.storeId ∨
      header.channelId ≠ row.channelId ∨ header.occurredAt ≠ row.occurredAt.instant then
    .error (.disagrees source)
  else .ok ()

def fkEntity (constraint : String) : String :=
  if constraint = "transaction_customer_id_fkey" then "customer"
  else if constraint = "transaction_store_id_fkey" then "store"
  else if constraint = "transaction_channel_id_fkey" then "channel"
  else if constraint = "transaction_line_product_id_fkey" then "product"
  else "reference"

def headerMalformed : DataErrorKind → Rejection
  | .invalidTextRepresentation => .malformed "customer_id is not a valid identifier"
  | .stringDataRightTruncation => .malformed "transaction_id is too long"
  | .numericValueOutOfRange => .malformed "store_id or channel_id is out of range"
  | .other => .malformed "a value is not in the expected format"

def lineMalformed : DataErrorKind → Rejection
  | .numericValueOutOfRange => .malformed "product_id, quantity or unit_price is out of range"
  | _ => .malformed "a value is not in the expected format"

/-- The `except` clauses around the reference read: a `DataError` only. -/
def referencesRefusal : DbError → Exc
  | .dataError kind => .rowRejected (headerMalformed kind)
  | e => .database e

/-- The `except` clauses around the header insert. -/
def headerInsertRefusal (source : String) : DbError → Exc
  | .foreignKeyViolation constraint => .rowRejected (.unknown (fkEntity constraint))
  | .uniqueViolation _ => .rowRejected (.createdConcurrently source)
  | .dataError kind => .rowRejected (headerMalformed kind)
  | e => .database e

/-- The `except` clauses around the line insert. -/
def lineInsertRefusal (source : String) (productId : ℤ) : DbError → Exc
  | .uniqueViolation _ => .rowRejected (.duplicateLine source productId)
  | .foreignKeyViolation constraint => .rowRejected (.unknown (fkEntity constraint))
  | .dataError kind => .rowRejected (lineMalformed kind)
  | e => .database e

/-- `except StockUnavailable`. -/
def stockUnavailableRefusal : Exc → Exc
  | .stockUnavailable storeId productId none => .rowRejected (.noInventory storeId productId)
  | .stockUnavailable storeId productId (some available) =>
    .rowRejected (.insufficientStock storeId productId available)
  | e => e

/-- `try: body except psycopg.Error as error: raise translate(error)`. -/
def translating (body : SalesProg α) (translate : DbError → Exc) : SalesProg α :=
  body.tryCatch fun
    | .database e => .raise (translate e)
    | e => .raise e

/-! ### The transaction -/

/-- `decrement_stock`: consume stock, or say what is left of it. -/
def decrementStock (storeId productId quantity : ℤ) : SalesProg ℤ := do
  let updated : Option ℤ ← execute (.updateInventory storeId productId quantity)
  match updated with
  | some remaining => return remaining
  | none =>
    let available : Option ℤ ← execute (.lockInventory storeId productId)
    .raise (.stockUnavailable storeId productId available)

def newHeader (row : SalesRow) (source : String) : NewHeader where
  sourceTransactionId := source
  customerId := row.customerId
  storeId := row.storeId
  channelId := row.channelId
  occurredAt := row.occurredAt
  total := 0
  dataOrigin := .observed

def newLine (row : SalesRow) (source : String) (price : ℤ) : Line where
  sourceTransactionId := source
  productId := row.productId
  quantity := row.quantity
  unitPrice := price

def readReferences (row : SalesRow) : SalesProg Unit := do
  let references ← translating (execute (.getSaleReferences row.customerId row.productId))
    referencesRefusal
  check (checkReferences row references)

def findOrInsertHeader (row : SalesRow) (source : String) : SalesProg Unit := do
  let found : Option Header ← execute (.getTransactionBySourceId source)
  match found with
  | none =>
    translating (execute (.insertTransaction .web (newHeader row source)))
      (headerInsertRefusal source)
  | some header => check (checkHeader row source header)

def insertLine (row : SalesRow) (source : String) (price : ℤ) : SalesProg Unit :=
  translating (execute (.insertTransactionLine .web (newLine row source price)))
    (lineInsertRefusal source row.productId)

def takeStock (row : SalesRow) : SalesProg Unit :=
  (decrementStock row.storeId row.productId row.quantity >>= fun _ => .ret ()).tryCatch fun e =>
    .raise (stockUnavailableRefusal e)

def ingestRowBody (now : Instant) (row : SalesRow) : SalesProg Unit := do
  let (source, price) ← check (checkRow now row)
  readReferences row
  findOrInsertHeader row source
  insertLine row source price
  takeStock row
  execute (.recomputeTotal source)

def ingestRow (now : Instant) (row : SalesRow) : SalesProg Unit := atomic (ingestRowBody now row)

end RetailSegmentation.Sales
