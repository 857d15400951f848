import RetailSegmentation.ConsumptionShiftReport

/-! The shift report and the profile of one customer (`web/services/consumption_shift.py`), over what one statement
reads of both periods (`web/db/consumption_shift.py`). -/

namespace RetailSegmentation.ConsumptionShifts

open Grouping Recommendations Recommendations.Web

/-! ### Periods -/

inductive Raised where
  | keyError (customerId : String)
  | invalidPeriods (message : String)
  deriving DecidableEq, Repr

def Period.check (period : Period) : Except Raised Unit :=
  if period.start < period.end_ then return () else throw (.invalidPeriods "A period must end after it starts.")

/-- The earlier and the later period, by their start. -/
def orderPeriods (first second : Period) : Except Raised (Period × Period) := do
  first.check
  second.check
  let (earlier, later) := if second.start < first.start then (second, first) else (first, second)
  if later.start < earlier.end_ then
    throw (.invalidPeriods
      ("The periods overlap, so a sale could count on both sides. Choose two " ++
        "periods where the earlier ends no later than the later begins."))
  return (earlier, later)

/-- The two adjacent periods of so many days that end at `asOf`. -/
def consecutivePeriods (asOf : Instant) (count : ℕ) : Except Raised (Period × Period) :=
  if count < 1 then throw (.invalidPeriods "A period is at least one day.")
  else orderPeriods ⟨asOf - 2 * days count, asOf - days count⟩ ⟨asOf - days count, asOf⟩

/-! ### One read of both periods -/

section Reads

variable (order : RowOrder) (shop : Shop) (period : Period) (customer : Option String)

def counts (t : TransactionRow) : Bool :=
  period.start ≤ t.occurredAt ∧ t.occurredAt < period.end_ ∧ ∀ c ∈ customer, t.customerId = c

def placeRows (places : List PlaceRow) (placeOf : TransactionRow → ℤ) : List (TransactionRow × PlaceRow) :=
  (join shop.transactions places fun t p => p.placeId = placeOf t).filter fun r => counts period customer r.1

/-- One customer's purchases through a channel or a store. -/
def placeTotal (place : ℤ × String) (group : List (TransactionRow × PlaceRow)) : GroupTotal :=
  ⟨place.1, place.2, group.length, (group.map fun r => r.1.total).sum⟩

def placeTotals (places : List PlaceRow) (placeOf : TransactionRow → ℤ) : List (String × GroupTotal) :=
  order.arrange (groupBy (fun r => (r.1.customerId, r.2.placeId, r.2.name))
    (fun key group => (key.1, placeTotal key.2 group)) (placeRows shop period customer places placeOf))

def categoryRows : List (((TransactionRow × LineRow) × ProductRow) × CategoryRow) :=
  (join (soldProducts shop) shop.categories fun r c => c.categoryId = r.2.categoryId).filter fun r =>
    counts period customer r.1.1.1

/-- One customer's purchases that hold a category. -/
def categoryTotal (category : ℤ × String) (group : List (((TransactionRow × LineRow) × ProductRow) × CategoryRow)) :
    CategoryTotal where
  categoryId := category.1
  name := category.2
  purchases := countDistinct (fun r => r.1.1.1.transactionId) group
  units := (group.map fun r => r.1.1.2.quantity).sum
  spend := (group.map fun r => r.1.1.2.quantity * r.1.1.2.unitPrice).sum

def categoryTotals : List (String × CategoryTotal) :=
  order.arrange (groupBy (fun r => (r.1.1.1.customerId, r.2.categoryId, r.2.name))
    (fun key group => (key.1, categoryTotal key.2 group)) (categoryRows shop period customer))

def linedRows : List TransactionRow :=
  shop.transactions.filter fun t => counts period customer t && !(shop.linesOf t).isEmpty

/-- Each customer's purchases with product lines. -/
def linedTotals : Dict String ℤ :=
  order.arrange (groupBy TransactionRow.customerId (fun c group => (c, (group.length : ℤ)))
    (linedRows shop period customer))

/-- `totals[customer].append(total)`, row by row. -/
def collect {α : Type} (rows : List (String × α)) : Dict String (List α) :=
  tally Prod.fst [] (fun totals row => totals ++ [row.2]) rows

def totalsFor : PeriodTotals where
  channels := collect (placeTotals order shop period customer shop.channels TransactionRow.channelId)
  stores := collect (placeTotals order shop period customer shop.stores TransactionRow.storeId)
  categories := collect (categoryTotals order shop period customer)
  lined := some (linedTotals order shop period customer)

/-- Whether a sale read is seeded. -/
def seededIn : Bool :=
  ((placeRows shop period customer shop.channels TransactionRow.channelId).any fun r => r.1.dataOrigin = .seeded) ||
    ((placeRows shop period customer shop.stores TransactionRow.storeId).any fun r => r.1.dataOrigin = .seeded) ||
    ((categoryRows shop period customer).any fun r => r.1.1.1.dataOrigin = .seeded) ||
    ((linedRows shop period customer).any fun t => t.dataOrigin = .seeded)

def listTotalsForPeriods (earlier later : Period) : PeriodTotals × PeriodTotals × Bool :=
  (totalsFor order shop earlier customer, totalsFor order shop later customer,
    seededIn shop earlier customer || seededIn shop later customer)

end Reads

/-! ### The report, and one customer on their profile -/

section Services

variable (order : RowOrder) (shop : Shop)

def leadersIn (totals : PeriodTotals) : Except Raised (Dict String CustomerLeaders) :=
  (buildLeaders totals).mapError .keyError

/-- Every customer whose dominant channel, dominant store or leading category changed between two periods. -/
def detectShifts (first second : Period) : Except Raised ShiftReport := do
  let (earlier, later) ← orderPeriods first second
  let (earlierTotals, laterTotals, seeded) := listTotalsForPeriods order shop none earlier later
  return comparePeriods earlier later (← leadersIn earlierTotals) (← leadersIn laterTotals) seeded

inductive ShiftStatus where
  | shifted | unchanged | undecided | notCompared
  deriving DecidableEq, Repr

/-- One dimension's leader in each period. -/
structure DimensionComparison where
  name : String
  before : Option Leader
  after : Option Leader
  basis : String
  deriving DecidableEq, Repr

def DimensionComparison.status (comparison : DimensionComparison) : ShiftStatus :=
  if comparison.before.isNone || comparison.after.isNone then .notCompared
  else if (changed comparison.before comparison.after).isSome then .shifted
  else if differs comparison.before comparison.after then .undecided
  else .unchanged

structure ProfileShifts where
  earlier : Period
  later : Period
  halfDays : ℕ
  earlierPurchases : ℤ
  laterPurchases : ℤ
  channel : DimensionComparison
  store : DimensionComparison
  category : DimensionComparison
  categoriesBefore : List Leader
  categoriesAfter : List Leader
  seeded : Bool
  deriving DecidableEq, Repr

def profileShifts (earlier later : Period) (halfDays : ℕ) (was now : Option CustomerLeaders) (seeded : Bool) :
    ProfileShifts where
  earlier := earlier
  later := later
  halfDays := halfDays
  earlierPurchases := (was.map CustomerLeaders.purchases).getD 0
  laterPurchases := (now.map CustomerLeaders.purchases).getD 0
  channel := ⟨"Channel", was.map CustomerLeaders.channel, now.map CustomerLeaders.channel, "purchases"⟩
  store := ⟨"Store", was.map CustomerLeaders.store, now.map CustomerLeaders.store, "purchases"⟩
  category := ⟨"Category", was.bind CustomerLeaders.category, now.bind CustomerLeaders.category,
    "purchases with product lines"⟩
  categoriesBefore := (was.map CustomerLeaders.categories).getD []
  categoriesAfter := (now.map CustomerLeaders.categories).getD []
  seeded := seeded

/-- The two halves of a customer's profile window, side by side. A window of one day has no halves. -/
def buildProfileShifts (customerId : String) (until_ : Instant) (windowDays : ℕ) :
    Except Raised (Option ProfileShifts) := do
  let halfDays := windowDays / 2
  if halfDays < 1 then return none
  let (earlier, later) ← consecutivePeriods until_ halfDays
  let (earlierTotals, laterTotals, seeded) := listTotalsForPeriods order shop (some customerId) earlier later
  let was := (← leadersIn earlierTotals).lookup customerId
  let now := (← leadersIn laterTotals).lookup customerId
  return some (profileShifts earlier later halfDays was now seeded)

end Services

end RetailSegmentation.ConsumptionShifts
