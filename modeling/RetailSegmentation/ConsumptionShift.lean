import Mathlib.Data.String.Basic
import RetailSegmentation.RecommendationWeb

/-! Consumption shifts between two periods (`web/services/consumption_shift.py`): who led a customer's buying in
each, and which leaders changed. -/

namespace RetailSegmentation.ConsumptionShifts

open Grouping Recommendations Recommendations.Web

/-- Below this many purchases in a period, one purchase decides who leads. -/
def minPurchasesPerPeriod : ℤ := 3

/-- Which of the two periods a customer has no sales in. -/
inductive Side where
  | earlier | later
  deriving DecidableEq, Repr

/-- A span of time whose first instant is in it and whose last is not. -/
structure Period where
  start : Instant
  end_ : Instant
  deriving DecidableEq, Repr

/-- The channel, store or category that led a customer's buying in a period, and how clearly. -/
structure Leader where
  itemId : ℤ
  name : String
  purchases : ℤ
  periodPurchases : ℤ
  runnerUpPurchases : Option ℤ
  deriving DecidableEq, Repr

def Leader.tooFew (leader : Leader) : Bool := leader.periodPurchases < minPurchasesPerPeriod

def Leader.tied (leader : Leader) : Bool := leader.runnerUpPurchases = some leader.purchases

/-- Whether the period can take part in a claimed shift. -/
def Leader.decisive (leader : Leader) : Bool := !leader.tooFew && !leader.tied

/-- One dimension that changed, with the value in each period. -/
structure DimensionShift where
  before : Leader
  after : Leader
  deriving DecidableEq, Repr

structure CustomerLeaders where
  channel : Leader
  store : Leader
  category : Option Leader
  categories : List Leader
  purchases : ℤ
  deriving DecidableEq, Repr

structure CustomerShift where
  customerId : String
  channel : Option DimensionShift
  store : Option DimensionShift
  category : Option DimensionShift
  deriving DecidableEq, Repr

structure CustomerAbsence where
  customerId : String
  absentFrom : Side
  deriving DecidableEq, Repr

structure ShiftReport where
  earlier : Period
  later : Period
  shifts : List CustomerShift
  absences : List CustomerAbsence
  compared : ℤ
  unchanged : ℤ
  undecided : ℤ
  seeded : Bool
  deriving DecidableEq, Repr

/-! ### Who led, in one period -/

/-- What one statement read of a period: each customer's totals, and their purchases with product lines. -/
structure PeriodTotals where
  channels : Dict String (List GroupTotal)
  stores : Dict String (List GroupTotal)
  categories : Dict String (List CategoryTotal)
  lined : Option (Dict String ℤ)

/-- The dominant channel or store, with how clearly it led. -/
def groupLeader (groups : List GroupTotal) (periodPurchases : ℤ) : Option Leader :=
  (rankDominant groups).map fun top =>
    let others := (groups.filter fun g => g.itemId ≠ top.itemId).map GroupTotal.purchases
    { itemId := top.itemId
      name := top.name
      purchases := top.purchases
      periodPurchases
      runnerUpPurchases := others.max? }

/-- Every category, the leading one first, which carries the runner-up's purchases. -/
def categoryLeaders (groups : List CategoryTotal) (linedPurchases : ℤ) : List Leader :=
  let ranked := rankCategories groups groups.length
  ranked.mapIdx fun index category =>
    { itemId := category.categoryId
      name := category.name
      purchases := category.purchases
      periodPurchases := linedPurchases
      runnerUpPurchases := if index = 0 then (ranked[1]?).map CategoryTotal.purchases else none }

/-- Who led one customer's buying, where they have a channel and a store. -/
def customerLeaders (channels stores : List GroupTotal) (categories : List CategoryTotal) (lined : Option ℤ) :
    Option CustomerLeaders :=
  let purchases := (channels.map GroupTotal.purchases).sum
  match groupLeader channels purchases, groupLeader stores purchases with
  | some channel, some store =>
    let categories := categoryLeaders categories (lined.getD purchases)
    some
      { channel
        store
        category := categories.head?
        categories := categories.take topCategoriesLimit
        purchases }
  | _, _ => none

/-- A customer with a channel and no entry for the stores raises. -/
def leadersOf (totals : PeriodTotals) (customerId : String) (channels : List GroupTotal) :
    Except String (Option CustomerLeaders) := do
  let stores ← totals.stores.item customerId
  return customerLeaders channels stores (totals.categories.at customerId [])
    (totals.lined.map fun lined => lined.at customerId 0)

def buildLeaders (totals : PeriodTotals) : Except String (Dict String CustomerLeaders) := do
  let leaders ← totals.channels.mapM fun entry => do
    let found ← leadersOf totals entry.1 entry.2
    return found.map fun leaders => (entry.1, leaders)
  return leaders.filterMap id

/-! ### Comparing two periods -/

def differs : Option Leader → Option Leader → Bool
  | some before, some after => before.itemId ≠ after.itemId
  | _, _ => false

/-- A change needs a leader on both sides, a different one, and both of them clear. -/
def changed : Option Leader → Option Leader → Option DimensionShift
  | some before, some after =>
    if before.itemId ≠ after.itemId ∧ before.decisive ∧ after.decisive then some ⟨before, after⟩ else none
  | _, _ => none

/-- The leader changed, but not clearly enough to claim a shift. -/
def undecided (before after : Option Leader) : Bool := differs before after && (changed before after).isNone

/-- What a comparison has found so far. -/
structure Found where
  shifts : List CustomerShift := []
  absences : List CustomerAbsence := []
  compared : ℤ := 0
  undecided : ℤ := 0

def compareCustomer (before after : Dict String CustomerLeaders) (found : Found) (customerId : String) : Found :=
  match before.lookup customerId, after.lookup customerId with
  | none, _ => { found with absences := found.absences ++ [⟨customerId, .earlier⟩] }
  | some _, none => { found with absences := found.absences ++ [⟨customerId, .later⟩] }
  | some was, some now =>
    let found := { found with compared := found.compared + 1 }
    let channel := changed was.channel now.channel
    let store := changed was.store now.store
    let category := changed was.category now.category
    if channel.isSome || store.isSome || category.isSome then
      { found with shifts := found.shifts ++ [⟨customerId, channel, store, category⟩] }
    else if undecided was.channel now.channel || undecided was.store now.store ||
        undecided was.category now.category then
      { found with undecided := found.undecided + 1 }
    else found

/-- Compare who led in the earlier period with who led in the later one, customer by customer in order of id. -/
def comparePeriods (earlier later : Period) (before after : Dict String CustomerLeaders) (seeded : Bool) :
    ShiftReport :=
  let customers := sortBy id (before.keys ++ after.keys).dedup
  let found := customers.foldl (compareCustomer before after) {}
  { earlier
    later
    shifts := found.shifts
    absences := found.absences
    compared := found.compared
    unchanged := found.compared - found.shifts.length
    undecided := found.undecided
    seeded }

end RetailSegmentation.ConsumptionShifts
