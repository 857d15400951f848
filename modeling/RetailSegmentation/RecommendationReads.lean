import RetailSegmentation.RecommendationRule

/-! The tables behind a recommendation, what the schema keeps of them, and what each application reads of
them: recommendations-service through the published views (`services/recommendations/app/store.py`), the web
from the tables (`web/db`). A statement without ORDER BY may answer its rows in any order. -/

namespace RetailSegmentation.Recommendations

open Grouping

/-! ### Tables -/

structure CustomerRow where
  customerId : String
  name : String
  deriving DecidableEq, Repr

structure CategoryRow where
  categoryId : ℤ
  name : String
  parentCategoryId : Option ℤ
  deriving DecidableEq, Repr

structure ProductRow where
  productId : ℤ
  name : String
  categoryId : ℤ
  isActive : Bool
  deriving DecidableEq, Repr

/-- A store, or a channel. -/
structure PlaceRow where
  placeId : ℤ
  name : String
  deriving DecidableEq, Repr

inductive DataOrigin where
  | observed | seeded
  deriving DecidableEq, Repr

structure TransactionRow where
  transactionId : ℤ
  customerId : String
  storeId : ℤ
  channelId : ℤ
  occurredAt : Instant
  total : ℤ
  dataOrigin : DataOrigin
  deriving DecidableEq, Repr

structure LineRow where
  transactionId : ℤ
  productId : ℤ
  quantity : ℤ
  unitPrice : ℤ
  deriving DecidableEq, Repr

structure InventoryRow where
  storeId : ℤ
  productId : ℤ
  quantityOnHand : ℤ
  deriving DecidableEq, Repr

structure InterestRow where
  customerId : String
  categoryId : ℤ
  deriving DecidableEq, Repr

structure RunRow where
  runId : ℤ
  dataOrigin : DataOrigin
  deriving DecidableEq, Repr

structure LabelRow where
  labelCode : String
  name : String
  deriving DecidableEq, Repr

structure HistoryRow where
  historyId : ℤ
  customerId : String
  runId : ℤ
  labelCode : Option String
  validTo : Option Instant
  deriving DecidableEq, Repr

structure Shop where
  customers : List CustomerRow
  categories : List CategoryRow
  products : List ProductRow
  stores : List PlaceRow
  channels : List PlaceRow
  transactions : List TransactionRow
  lines : List LineRow
  inventory : List InventoryRow
  interests : List InterestRow
  runs : List RunRow
  labels : List LabelRow
  history : List HistoryRow

namespace Shop

variable (shop : Shop)

def parentOf (category : ℤ) : Option ℤ :=
  (shop.categories.find? fun c => c.categoryId = category).bind CategoryRow.parentCategoryId

def linesOf (t : TransactionRow) : List LineRow :=
  shop.lines.filter fun l => l.transactionId = t.transactionId

/-- What the schema keeps: the keys, the references, the acyclic hierarchy, the derived totals, and one open
assignment for each customer. -/
structure Valid : Prop where
  customerKeys : (shop.customers.map CustomerRow.customerId).Nodup
  categoryKeys : (shop.categories.map CategoryRow.categoryId).Nodup
  productKeys : (shop.products.map ProductRow.productId).Nodup
  storeKeys : (shop.stores.map PlaceRow.placeId).Nodup
  channelKeys : (shop.channels.map PlaceRow.placeId).Nodup
  transactionKeys : (shop.transactions.map TransactionRow.transactionId).Nodup
  inventoryKeys : (shop.inventory.map fun i => (i.storeId, i.productId)).Nodup
  runKeys : (shop.runs.map RunRow.runId).Nodup
  parents : ∀ c ∈ shop.categories, ∀ p, c.parentCategoryId = some p →
    p ∈ shop.categories.map CategoryRow.categoryId
  acyclic : Forest.Acyclic shop.parentOf
  productCategories : ∀ p ∈ shop.products, p.categoryId ∈ shop.categories.map CategoryRow.categoryId
  transactionStores : ∀ t ∈ shop.transactions, t.storeId ∈ shop.stores.map PlaceRow.placeId
  lineProducts : ∀ l ∈ shop.lines, l.productId ∈ shop.products.map ProductRow.productId
  stockedProducts : ∀ i ∈ shop.inventory, i.productId ∈ shop.products.map ProductRow.productId
  interestCategories : ∀ i ∈ shop.interests, i.categoryId ∈ shop.categories.map CategoryRow.categoryId
  historyCustomers : ∀ h ∈ shop.history, h.customerId ∈ shop.customers.map CustomerRow.customerId
  historyRuns : ∀ h ∈ shop.history, h.runId ∈ shop.runs.map RunRow.runId
  openOnce : ∀ h ∈ shop.history, ∀ h' ∈ shop.history, h.validTo = none → h'.validTo = none →
    h.customerId = h'.customerId → h = h'
  totals : ∀ t ∈ shop.transactions, t.total = ((shop.linesOf t).map fun l => l.quantity * l.unitPrice).sum
  lined : ∀ t ∈ shop.transactions, shop.linesOf t ≠ []

end Shop

/-- An order in which rows may be answered. -/
structure RowOrder where
  arrange : {α : Type} → List α → List α
  perm : ∀ {α : Type} (rows : List α), (arrange rows).Perm rows

def RowOrder.asStored : RowOrder := ⟨id, fun rows => .refl rows⟩

section Statements

variable (order : RowOrder) (shop : Shop)

/-- `BETWEEN`, closed at both ends. -/
def within (since until_ at_ : Instant) : Bool := decide (since ≤ at_) && decide (at_ ≤ until_)

/-! ### The published views, and what the service reads of them -/

/-- `api_sales.purchase_line_v1`. -/
def purchaseLineV1 : List (TransactionRow × LineRow) :=
  join shop.transactions shop.lines fun t l => l.transactionId = t.transactionId

/-- `api_segments.current_label_v1`. -/
def currentLabelV1 : List (CustomerRow × Option HistoryRow) :=
  leftJoin shop.customers shop.history fun c h => h.customerId = c.customerId ∧ h.validTo = none

def labelOf : Option HistoryRow → Label
  | none => ⟨.noOpenAssignment, none, none⟩
  | some h =>
    match h.labelCode with
    | none => ⟨.unassignedResult, none, some h.runId⟩
    | some code => ⟨.assigned, some code, some h.runId⟩

def currentLabel (customerId : String) : Label :=
  match (order.arrange ((currentLabelV1 shop).filter fun r => r.1.customerId = customerId)).head? with
  | none => ⟨.noOpenAssignment, none, none⟩
  | some r => labelOf r.2

/-- Every line the customer bought in the window, with the product's own category. -/
def purchaseLines (customerId : String) (since until_ : Instant) : List Line :=
  let rows := (join (purchaseLineV1 shop) shop.products fun r p => p.productId = r.2.productId).filter fun r =>
    r.1.1.customerId = customerId ∧ within since until_ r.1.1.occurredAt
  (order.arrange rows).map fun r =>
    ⟨r.1.1.transactionId, r.1.1.storeId, r.1.2.productId, r.2.categoryId, r.1.2.quantity, r.1.2.unitPrice⟩

def stockedProducts (storeId : ℤ) : List Stocked :=
  let rows := (join shop.inventory shop.products fun i p => p.productId = i.productId).filter fun r =>
    r.1.storeId = storeId ∧ 0 < r.1.quantityOnHand ∧ r.2.isActive
  (sortBy (fun r => r.1.productId) (order.arrange rows)).map fun r =>
    ⟨r.1.productId, r.2.categoryId, r.1.quantityOnHand⟩

/-- The lines that other customers with this open label bought in the window. -/
def segmentRows (labelCode customerId : String) (since until_ : Instant) :
    List ((CustomerRow × Option HistoryRow) × TransactionRow × LineRow) :=
  (join (currentLabelV1 shop) (purchaseLineV1 shop) fun c r => r.1.customerId = c.1.customerId).filter fun r =>
    (labelOf r.1.2).state = .assigned ∧ (labelOf r.1.2).labelCode = some labelCode ∧
      r.1.1.customerId ≠ customerId ∧ within since until_ r.2.1.occurredAt

/-- For each product, how many of them bought it. A buyer counts once. -/
def segmentBuyers (labelCode customerId : String) (since until_ : Instant) : Dict ℤ ℤ :=
  order.arrange (groupBy (fun r => r.2.2.productId)
    (fun product group => (product, countDistinct (fun r => r.2.1.customerId) group))
    (segmentRows shop labelCode customerId since until_))

def interestCategories (customerId : String) : List ℤ :=
  order.arrange ((shop.interests.filter fun i => i.customerId = customerId).map InterestRow.categoryId)

def categoryParents : Dict ℤ (Option ℤ) :=
  order.arrange (shop.categories.map fun c => (c.categoryId, c.parentCategoryId))

/-- The service's reads of the database as it stands. -/
def viewReads : Reads Id where
  currentLabel := currentLabel order shop
  purchaseLines := purchaseLines order shop
  stockedProducts := stockedProducts order shop
  segmentBuyers := segmentBuyers order shop
  interestCategories := interestCategories order shop
  categoryParents := categoryParents order shop

end Statements

/-! ### What the web reads of the tables -/

namespace Web

/-- A channel or a store the customer bought through, with its totals. -/
structure GroupTotal where
  itemId : ℤ
  name : String
  purchases : ℤ
  spend : ℤ
  deriving DecidableEq, Repr

structure CategoryTotal where
  categoryId : ℤ
  name : String
  purchases : ℤ
  units : ℤ
  spend : ℤ
  deriving DecidableEq, Repr

structure ProductTotal where
  productId : ℤ
  name : String
  purchases : ℤ
  units : ℤ
  deriving DecidableEq, Repr

structure StockedProduct where
  productId : ℤ
  name : String
  categoryId : ℤ
  categoryName : String
  quantityOnHand : ℤ
  deriving DecidableEq, Repr

/-- The open row of the history, with the run that wrote it and the label's name. -/
structure SegmentState where
  runId : ℤ
  labelCode : Option String
  labelName : Option String
  dataOrigin : DataOrigin
  deriving DecidableEq, Repr

section Statements

variable (order : RowOrder) (shop : Shop) (customerId : String) (since until_ : Instant)

/-- The customer's accepted sales in the window. -/
def sales : List TransactionRow :=
  shop.transactions.filter fun t => t.customerId = customerId ∧ within since until_ t.occurredAt

def getCustomer : Option CustomerRow := shop.customers.find? fun c => c.customerId = customerId

/-- Of the sales totals, the count, and whether the window holds a seeded sale of anyone's. -/
def getSalesTotals : ℤ × Bool :=
  ((sales shop customerId since until_).length,
    shop.transactions.any fun t => t.dataOrigin = .seeded ∧ within since until_ t.occurredAt)

/-- Of the two rows read, the open one. -/
def getCurrentHistoryRow : Option SegmentState :=
  ((join (shop.history.filter fun h => h.customerId = customerId ∧ h.validTo = none) shop.runs
    fun h r => r.runId = h.runId).head?).map fun r =>
      { runId := r.1.runId
        labelCode := r.1.labelCode
        labelName := r.1.labelCode.bind fun code =>
          (shop.labels.find? fun l => l.labelCode = code).map LabelRow.name
        dataOrigin := r.2.dataOrigin }

/-- Every channel, or every store, the customer bought through in the window. -/
def listPlaceTotals (places : List PlaceRow) (placeOf : TransactionRow → ℤ) : List GroupTotal :=
  order.arrange (groupBy (fun r => (r.2.placeId, r.2.name))
    (fun place group => ⟨place.1, place.2, group.length, (group.map fun r => r.1.total).sum⟩)
    ((join shop.transactions places fun t p => p.placeId = placeOf t).filter fun r =>
      r.1.customerId = customerId ∧ within since until_ r.1.occurredAt))

def listChannelTotals : List GroupTotal :=
  listPlaceTotals order shop customerId since until_ shop.channels TransactionRow.channelId

def listStoreTotals : List GroupTotal :=
  listPlaceTotals order shop customerId since until_ shop.stores TransactionRow.storeId

/-- The transactions with their lines and the lines' products. -/
def soldProducts : List ((TransactionRow × LineRow) × ProductRow) :=
  join (join shop.transactions shop.lines fun t l => l.transactionId = t.transactionId) shop.products
    fun r p => p.productId = r.2.productId

def listCategoryTotals : List CategoryTotal :=
  order.arrange (groupBy (fun r => (r.2.categoryId, r.2.name))
    (fun category group =>
      { categoryId := category.1
        name := category.2
        purchases := countDistinct (fun r => r.1.1.1.transactionId) group
        units := (group.map fun r => r.1.1.2.quantity).sum
        spend := (group.map fun r => r.1.1.2.quantity * r.1.1.2.unitPrice).sum })
    ((join (soldProducts shop) shop.categories fun r c => c.categoryId = r.2.categoryId).filter fun r =>
      r.1.1.1.customerId = customerId ∧ within since until_ r.1.1.1.occurredAt))

def listProductTotals : List ProductTotal :=
  order.arrange (groupBy (fun r => (r.2.productId, r.2.name))
    (fun product group => ⟨product.1, product.2, group.length, (group.map fun r => r.1.2.quantity).sum⟩)
    ((soldProducts shop).filter fun r =>
      r.1.1.customerId = customerId ∧ within since until_ r.1.1.occurredAt))

def listInterestCategories : List CategoryRow :=
  order.arrange ((join (shop.interests.filter fun i => i.customerId = customerId) shop.categories
    fun i c => c.categoryId = i.categoryId).map Prod.snd)

/-- Every active product with stock in this store, in product order. -/
def listStockedProducts (storeId : ℤ) : List StockedProduct :=
  let rows := (join (join shop.inventory shop.products fun i p => p.productId = i.productId) shop.categories
    fun r c => c.categoryId = r.2.categoryId).filter fun r =>
      r.1.1.storeId = storeId ∧ 0 < r.1.1.quantityOnHand ∧ r.1.2.isActive
  (sortBy (fun r => r.1.2.productId) (order.arrange rows)).map fun r =>
    ⟨r.1.2.productId, r.1.2.name, r.1.2.categoryId, r.2.name, r.1.1.quantityOnHand⟩

def segmentRows (labelCode : String) : List ((HistoryRow × TransactionRow) × LineRow) :=
  (join (join shop.history shop.transactions fun h t => t.customerId = h.customerId) shop.lines
    fun r l => l.transactionId = r.2.transactionId).filter fun r =>
      r.1.1.validTo = none ∧ r.1.1.labelCode = some labelCode ∧ r.1.1.customerId ≠ customerId ∧
        within since until_ r.1.2.occurredAt

def listSegmentBuyers (labelCode : String) : Dict ℤ ℤ :=
  order.arrange (groupBy (fun r => r.2.productId)
    (fun product group => (product, countDistinct (fun r => r.1.2.customerId) group))
    (segmentRows shop customerId since until_ labelCode))

def listAllCategories : List CategoryRow := order.arrange shop.categories

end Statements
end Web
end RetailSegmentation.Recommendations
