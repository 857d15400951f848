import Mathlib.Data.List.Sort
import RetailSegmentation.ProgramSyntax
import RetailSegmentation.SalesSchema

/-! The statements of the two sales writers, `web/db/sales.py` and `web/db/inventory.py` on one side,
`services/sales/app/store.py` and `api_stock.consume_v1` on the other. A statement is given by its
answer and the rows it writes or locks, as functions of what its transaction reads. -/

namespace RetailSegmentation.Sales

open Program

inductive Statement where
  | getSaleReferences (customerId : String) (productId : ℤ)
  | getTransactionBySourceId (source : String)
  | insertTransaction (session : SessionUser) (new : NewHeader)
  | insertTransactionLine (session : SessionUser) (line : Line)
  | updateInventory (storeId productId quantity : ℤ)
  | lockInventory (storeId productId : ℤ)
  | recomputeTotal (source : String)
  | customerRegistration (customerId : String)
  | products (productIds : List ℤ)
  | findCapture (source : String)
  | getSale (source : String)
  | getSaleLines (source : String)
  | insertCapture (source : String) (digest : Digest) (recordedBy : String)
  deriving DecidableEq, Repr

abbrev Result : Statement → Type
  | .getSaleReferences _ _ => Option SaleReferences
  | .getTransactionBySourceId _ => Option Header
  | .insertTransaction _ _ => Unit
  | .insertTransactionLine _ _ => Unit
  | .updateInventory _ _ _ => Option ℤ
  | .lockInventory _ _ => Option ℤ
  | .recomputeTotal _ => Unit
  | .customerRegistration _ => Option ℤ
  | .products _ => List (ℤ × Bool)
  | .findCapture _ => Option Digest
  | .getSale _ => Option Header
  | .getSaleLines _ => List Line
  | .insertCapture _ _ _ => Unit

/-- What a connection is asked to do. -/
inductive Command where
  | execute (s : Statement)
  | commit
  | rollback
  deriving DecidableEq, Repr

abbrev Value : Command → Type
  | .execute s => Result s
  | .commit => Unit
  | .rollback => Unit

abbrev Reply (c : Command) : Type := Except DbError (Value c)

/-- A row written or locked. -/
inductive Write where
  | lockHeader (source : String)
  | putHeader (source : String) (header : Header)
  | addLine (line : Line)
  | lockStock (key : StockKey)
  | putStock (key : StockKey) (quantityOnHand : ℤ)
  | putCapture (source : String) (digest : Digest)
  deriving DecidableEq, Repr

section Effects

variable (pg : Postgres) (cat : Catalog) (clock : Instant)

/-- The answer of a statement that reads `ledger`, and the rows it writes. -/
def effect : (s : Statement) → Ledger → Except DbError (Result s) × List Write
  | .getSaleReferences customerId productId, _ => (saleReferences pg cat customerId productId, [])
  | .getTransactionBySourceId source, ledger =>
    if hasNul source then (.error (.dataError .other), [])
    else match ledger.header source with
    | none => (.ok none, [])
    | some header =>
      (if pg.givesTimestamp header.occurredAt then .ok (some header) else .error (.dataError .other),
        [.lockHeader source])
  | .insertTransaction session new, ledger =>
    match headerRow pg clock session new with
    | .error e => (.error e, [])
    | .ok header =>
      if (ledger.header new.sourceTransactionId).isSome then
        (.error (.uniqueViolation "transaction_source_transaction_id_key"), [])
      else match headerReference cat header with
      | some e => (.error e, [.lockHeader new.sourceTransactionId])
      | none => (.ok (), [.putHeader new.sourceTransactionId header])
  | .insertTransactionLine session line, ledger =>
    match lineRefusal session line with
    | some e => (.error e, [])
    | none =>
      if (linesOf line.sourceTransactionId ledger.lines).any fun other =>
          other.productId = line.productId then
        (.error (.uniqueViolation "transaction_line_pkey"), [])
      else if (ledger.header line.sourceTransactionId).isNone then
        (.error (.foreignKeyViolation "transaction_line_transaction_id_fkey"), [])
      else if (cat.productIsActive line.productId).isNone then
        (.error (.foreignKeyViolation "transaction_line_product_id_fkey"), [])
      else (.ok (), [.lockHeader line.sourceTransactionId, .addLine line])
  | .updateInventory storeId productId quantity, ledger =>
    match ledger.stock (storeId, productId) with
    | none => (.ok none, [])
    | some onHand =>
      if quantity ≤ onHand then
        (.ok (some (onHand - quantity)), [.putStock (storeId, productId) (onHand - quantity)])
      else (.ok none, [])
  | .lockInventory storeId productId, ledger =>
    match ledger.stock (storeId, productId) with
    | none => (.ok none, [])
    | some onHand => (.ok (some onHand), [.lockStock (storeId, productId)])
  | .recomputeTotal source, ledger =>
    match ledger.header source with
    | none => (.ok (), [])
    | some header =>
      if !fitsTotal (linesTotal source ledger.lines) then
        (.error (.dataError .numericValueOutOfRange), [])
      else if clock < header.occurredAt then (.error (.checkViolation "transaction_not_future"), [])
      else (.ok (), [.putHeader source { header with total := linesTotal source ledger.lines }])
  | .customerRegistration customerId, _ =>
    ((saleReferences pg cat customerId 0).map (Option.map SaleReferences.registeredOn), [])
  | .products productIds, _ =>
    (.ok (productIds.filterMap fun id => (cat.productIsActive id).map (Prod.mk id)), [])
  | .findCapture source, ledger =>
    (.ok ((ledger.header source).bind fun _ => ledger.capture source), [])
  | .getSale source, ledger => (.ok (ledger.header source), [])
  | .getSaleLines source, ledger =>
    (.ok ((linesOf source ledger.lines).insertionSort fun a b => a.productId ≤ b.productId), [])
  | .insertCapture source digest recordedBy, ledger =>
    match pg.uuidIn recordedBy with
    | none => (.error (.dataError .invalidTextRepresentation), [])
    | some user =>
      if (ledger.capture source).isSome then (.error (.uniqueViolation "sale_capture_pkey"), [])
      else if (ledger.header source).isNone then
        (.error (.foreignKeyViolation "sale_capture_transaction_id_fkey"), [])
      else if !cat.hasUser user then
        (.error (.foreignKeyViolation "sale_capture_recorded_by_fkey"), [])
      else (.ok (), [.putCapture source digest])

end Effects

def Statement.constraints : Statement → List DbError
  | .insertTransaction _ _ =>
    [.checkViolation "transaction_total_check", .checkViolation "transaction_not_future",
      .uniqueViolation "transaction_source_transaction_id_key",
      .foreignKeyViolation "transaction_customer_id_fkey", .foreignKeyViolation "transaction_store_id_fkey",
      .foreignKeyViolation "transaction_channel_id_fkey"]
  | .insertTransactionLine _ _ =>
    [.checkViolation "transaction_line_quantity_check", .checkViolation "transaction_line_unit_price_check",
      .uniqueViolation "transaction_line_pkey", .foreignKeyViolation "transaction_line_transaction_id_fkey",
      .foreignKeyViolation "transaction_line_product_id_fkey"]
  | .recomputeTotal _ => [.checkViolation "transaction_not_future"]
  | .insertCapture _ _ _ =>
    [.uniqueViolation "sale_capture_pkey", .foreignKeyViolation "sale_capture_transaction_id_fkey",
      .foreignKeyViolation "sale_capture_recorded_by_fkey"]
  | _ => []

/-- A refused statement was given a value its columns cannot take, or violates one of its constraints. -/
theorem effect_error {pg : Postgres} {cat : Catalog} {clock : Instant} {s : Statement} {ledger : Ledger}
    {e : DbError} (herror : (effect pg cat clock s ledger).1 = .error e) :
    (∃ kind, e = .dataError kind) ∨ e ∈ s.constraints := by
  cases s with
  | getSaleReferences customerId productId => exact .inl (saleReferences_error pg cat herror)
  | getTransactionBySourceId source =>
      simp only [effect] at herror
      split at herror
      · exact .inl ⟨_, (Except.error.inj herror).symm⟩
      split at herror
      · cases herror
      · split at herror
        · cases herror
        · exact .inl ⟨_, (Except.error.inj herror).symm⟩
  | insertTransaction session new =>
      simp only [effect] at herror
      split at herror
      · rename_i hrow
        obtain rfl := Except.error.inj herror
        rcases headerRow_error pg hrow with h | ⟨rfl, -⟩ | rfl
        · exact .inl h
        · exact .inr (by simp [Statement.constraints])
        · exact .inr (by simp [Statement.constraints])
      split at herror
      · obtain rfl := Except.error.inj herror
        exact .inr (by simp [Statement.constraints])
      split at herror
      · rename_i hreference
        obtain rfl := Except.error.inj herror
        rcases headerReference_some cat hreference with rfl | rfl | rfl <;>
          exact .inr (by simp [Statement.constraints])
      · cases herror
  | insertTransactionLine session line =>
      simp only [effect] at herror
      split at herror
      · rename_i hline
        obtain rfl := Except.error.inj herror
        rcases lineRefusal_some hline with h | rfl | rfl
        · exact .inl h
        · exact .inr (by simp [Statement.constraints])
        · exact .inr (by simp [Statement.constraints])
      · split_ifs at herror <;>
          (obtain rfl := Except.error.inj herror; exact .inr (by simp [Statement.constraints]))
  | updateInventory storeId productId quantity =>
      simp only [effect] at herror
      split at herror
      · cases herror
      · split_ifs at herror
  | lockInventory storeId productId =>
      simp only [effect] at herror
      split at herror <;> cases herror
  | recomputeTotal source =>
      simp only [effect] at herror
      split at herror
      · cases herror
      split_ifs at herror
      · exact .inl ⟨_, (Except.error.inj herror).symm⟩
      · obtain rfl := Except.error.inj herror
        exact .inr (by simp [Statement.constraints])
  | customerRegistration customerId =>
      simp only [effect] at herror
      cases hread : saleReferences pg cat customerId 0 with
      | ok references =>
          rw [hread] at herror
          cases herror
      | error e' =>
          rw [hread] at herror
          obtain rfl : e' = e := Except.error.inj herror
          exact .inl (saleReferences_error pg cat hread)
  | products productIds => cases herror
  | findCapture source => cases herror
  | getSale source => cases herror
  | getSaleLines source => cases herror
  | insertCapture source digest recordedBy =>
      simp only [effect] at herror
      split at herror
      · exact .inl ⟨_, (Except.error.inj herror).symm⟩
      · split_ifs at herror <;>
          (obtain rfl := Except.error.inj herror; exact .inr (by simp [Statement.constraints]))

/-- `fn_transaction_total_matches_lines`, for one sale. -/
def totalMatchesLines (ledger : Ledger) (source : String) : Bool :=
  match ledger.header source with
  | none => true
  | some header => header.total == linesTotal source ledger.lines

def totalMismatch : DbError := .checkViolation "transaction_total_matches_lines"

/-! ### One connection, alone -/

namespace Write

/-- The sale whose total the deferred trigger checks again after this write. -/
def sale : Write → Option String
  | putHeader source _ => some source
  | addLine line => some line.sourceTransactionId
  | _ => none

end Write

def Ledger.write (ledger : Ledger) : Write → Ledger
  | .putHeader source header =>
    { ledger with header := Function.update ledger.header source (some header) }
  | .addLine line => { ledger with lines := ledger.lines ++ [line] }
  | .putStock key onHand => { ledger with stock := Function.update ledger.stock key (some onHand) }
  | .putCapture source digest =>
    { ledger with capture := Function.update ledger.capture source (some digest) }
  | .lockHeader _ | .lockStock _ => ledger

@[simp] theorem Ledger.header_write_putHeader (ledger : Ledger) (source : String) (header : Header) :
    (ledger.write (.putHeader source header)).header source = some header :=
  Function.update_self _ _ _

@[simp] theorem Ledger.header_write_addLine (ledger : Ledger) (line : Line) :
    (ledger.write (.addLine line)).header = ledger.header := rfl

@[simp] theorem Ledger.header_write_putStock (ledger : Ledger) (key : StockKey) (onHand : ℤ) :
    (ledger.write (.putStock key onHand)).header = ledger.header := rfl

def Ledger.writes (ledger : Ledger) (writes : List Write) : Ledger := writes.foldl Ledger.write ledger

theorem effect_error_writes {pg : Postgres} {cat : Catalog} {clock : Instant} {s : Statement}
    {ledger : Ledger} {e : DbError} :
    (effect pg cat clock s ledger).1 = .error e → ledger.writes (effect pg cat clock s ledger).2 = ledger := by
  cases s with
  | getTransactionBySourceId source =>
      simp only [effect]
      split
      · exact fun _ => rfl
      · split <;> exact fun _ => rfl
  | insertTransaction session new =>
      simp only [effect]
      split
      · exact fun _ => rfl
      split
      · exact fun _ => rfl
      split
      · exact fun _ => rfl
      · nofun
  | insertTransactionLine session line =>
      simp only [effect]
      split
      · exact fun _ => rfl
      split_ifs <;> first | exact fun _ => rfl | nofun
  | updateInventory storeId productId quantity =>
      simp only [effect]
      split
      · nofun
      split_ifs <;> nofun
  | lockInventory storeId productId =>
      simp only [effect]
      split <;> nofun
  | recomputeTotal source =>
      simp only [effect]
      split
      · nofun
      split_ifs <;> first | exact fun _ => rfl | nofun
  | insertCapture source digest recordedBy =>
      simp only [effect]
      split
      · exact fun _ => rfl
      split_ifs <;> first | exact fun _ => rfl | nofun
  | _ => exact fun _ => rfl

/-- What is committed, what the open transaction reads, and the sales it has touched. -/
structure Session where
  committed : Ledger
  current : Ledger
  touched : List String

/-- A connection with no open transaction. -/
def Session.idle (ledger : Ledger) : Session := ⟨ledger, ledger, []⟩

def Session.handle (pg : Postgres) (cat : Catalog) (clock : Instant) :
    (c : Command) → Session → Reply c × Session
  | .execute s, session =>
    let (answer, writes) := effect pg cat clock s session.current
    (answer, ⟨session.committed, session.current.writes writes,
      session.touched ++ writes.filterMap Write.sale⟩)
  | .commit, session =>
    if session.touched.all (totalMatchesLines session.current) then
      (.ok (), Session.idle session.current)
    else (.error totalMismatch, Session.idle session.committed)
  | .rollback, session => (.ok (), Session.idle session.committed)

end RetailSegmentation.Sales
