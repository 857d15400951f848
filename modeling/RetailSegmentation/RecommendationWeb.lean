import RetailSegmentation.RecommendationReads

/-! The web's recommendations (`web/services/recommendations.py`), over the consumption profile
(`web/services/consumption_profile.py`). -/

namespace RetailSegmentation.Recommendations.Web

open Grouping Forest

def maxLimit : ℕ := 50

def minWindowDays : ℕ := 1

def maxWindowDays : ℕ := 3650

/-- What the web raises, and `endless` where a walk up the categories would not end. -/
inductive Raised where
  | invalidLimit | invalidWindow | unknownCustomer | keyError | endless
  deriving DecidableEq, Repr

/-! ### The consumption profile -/

def GroupTotal.rank (g : GroupTotal) : ℤ ×ₗ ℤ ×ₗ ℤ := storeKey g.purchases g.spend g.itemId

def CategoryTotal.rank (g : CategoryTotal) : ℤ ×ₗ ℤ ×ₗ ℤ ×ₗ ℤ :=
  categoryKey g.purchases g.units g.spend g.categoryId

/-- Most purchases, then highest spend, then lowest id. -/
def rankDominant (groups : List GroupTotal) : Option GroupTotal := leastBy GroupTotal.rank groups

def rankCategories (groups : List CategoryTotal) (limit : ℕ) : List CategoryTotal :=
  (sortBy CategoryTotal.rank groups).take limit

structure ConsumptionProfile where
  customerId : String
  customerName : String
  windowDays : ℕ
  windowStart : Instant
  windowEnd : Instant
  purchaseCount : Option ℤ := none
  dominantChannel : Option GroupTotal := none
  dominantStore : Option GroupTotal := none
  favouriteCategories : List CategoryTotal := []
  currentSegment : Option SegmentState := none
  windowSeeded : Bool := false
  deriving DecidableEq, Repr

/-- What a recommendation takes from the profile of a customer who is there. -/
def profileOf (order : RowOrder) (shop : Shop) (customer : CustomerRow) (windowDays : ℕ) (asOf : Instant) :
    ConsumptionProfile :=
  let since := asOf - days windowDays
  let totals := getSalesTotals shop customer.customerId since asOf
  let empty : ConsumptionProfile :=
    { customerId := customer.customerId
      customerName := customer.name
      windowDays
      windowStart := since
      windowEnd := asOf
      currentSegment := getCurrentHistoryRow shop customer.customerId
      windowSeeded := totals.2 }
  if totals.1 = 0 then empty
  else { empty with
    purchaseCount := some totals.1
    dominantChannel := rankDominant (listChannelTotals order shop customer.customerId since asOf)
    dominantStore := rankDominant (listStoreTotals order shop customer.customerId since asOf)
    favouriteCategories :=
      rankCategories (listCategoryTotals order shop customer.customerId since asOf) topCategoriesLimit }

/-- One customer's profile over the last `windowDays`. -/
def buildProfile (order : RowOrder) (shop : Shop) (customerId : String) (windowDays : ℕ) (asOf : Instant) :
    Except Raised ConsumptionProfile :=
  if minWindowDays ≤ windowDays ∧ windowDays ≤ maxWindowDays then
    match getCustomer shop customerId with
    | none => throw .unknownCustomer
    | some customer => return profileOf order shop customer windowDays asOf
  else throw .invalidWindow

/-! ### What was asked and what was found -/

inductive Status where
  | recommended | noSegment | noUsualStore | noneMatch
  deriving DecidableEq, Repr

/-- Why one product was chosen: the signal, and it in words. -/
structure Reason where
  signal : Signal
  text : String
  deriving DecidableEq, Repr

structure Recommendation where
  productId : ℤ
  name : String
  categoryId : ℤ
  categoryName : String
  inStock : ℤ
  reasons : List Reason
  deriving DecidableEq, Repr

structure RecommendationResult where
  customerId : String
  customerName : String
  status : Status
  message : String
  windowDays : ℕ
  windowStart : Instant
  windowEnd : Instant
  labelCode : Option String := none
  labelName : Option String := none
  storeId : Option ℤ := none
  storeName : Option String := none
  channelId : Option ℤ := none
  channelName : Option String := none
  recommendations : List Recommendation := []
  synthetic : Bool := false
  deriving DecidableEq, Repr

/-! ### Ranking -/

def plural (count : ℤ) (singular many : String) : String := if count = 1 then singular else many

def daysText (count : ℕ) : String := s!"{count} " ++ plural count "day" "days"

/-- What is known of the customer when the products are ranked. -/
structure Known where
  preferred : List ℤ
  categoryPurchases : Dict ℤ ℤ
  categories : Dict ℤ CategoryRow
  totalPurchases : ℤ
  purchased : List ℤ
  buyers : Dict ℤ ℤ
  labelName : String
  windowDays : ℕ

section Rank

variable (known : Known)

/-- The category and every category above it, nearest first. -/
def Known.lineage (category : ℤ) : Except Raised (List ℤ) :=
  match climb (fun c => (known.categories.lookup c).bind CategoryRow.parentCategoryId)
    (known.categories.length + 1) category with
  | some chain => return chain
  | none => throw .endless

/-- `categories[matched].name`. -/
def Known.categoryName (category : ℤ) : Except Raised String :=
  match known.categories.lookup category with
  | some row => return row.name
  | none => throw .keyError

/-- Where the product sits, naming the category that matched when it is one above the product's own. -/
def Known.placed (product : StockedProduct) (matched : ℤ) : Except Raised String := do
  if matched = product.categoryId then return s!"In {product.categoryName}"
  return s!"In {product.categoryName}, part of {← known.categoryName matched}"

def segmentText (buyers : ℤ) (labelName : String) (windowDays : ℕ) : String :=
  s!"{buyers} other {labelName} " ++ plural buyers "customer" "customers" ++
    s!" bought it in the last {daysText windowDays}"

def preferredText (placed : String) : String := s!"{placed}, a category the customer said they like"

def historyText (source : String) (history total : ℤ) (windowDays : ℕ) : String :=
  s!"{source} in {history} of their {total} purchases in the last {daysText windowDays}"

def Known.source (product : StockedProduct) (bought : ℤ) : Except Raised String := do
  if bought = product.categoryId then return s!"The customer bought from {product.categoryName}"
  return s!"{← known.placed product bought}; the customer bought from {← known.categoryName bought}"

def Known.boughtCategories : List ℤ := (known.categoryPurchases.filter fun e => 1 ≤ e.2).map Prod.fst

def Known.history (bought : Option ℤ) : ℤ :=
  match bought with
  | some category => known.categoryPurchases.at category 0
  | none => 0

def Known.segmentReasons (product : StockedProduct) : List Reason :=
  if 1 ≤ known.buyers.at product.productId 0 then
    [⟨.segment, segmentText (known.buyers.at product.productId 0) known.labelName known.windowDays⟩]
  else []

def Known.preferredReasons (product : StockedProduct) : Option ℤ → Except Raised (List Reason)
  | none => return []
  | some preferred => return [⟨.preferredCategory, preferredText (← known.placed product preferred)⟩]

def Known.historyReasons (product : StockedProduct) : Option ℤ → Except Raised (List Reason)
  | none => return []
  | some bought => return [⟨.purchaseHistory,
      historyText (← known.source product bought) (known.history (some bought)) known.totalPurchases
        known.windowDays⟩]

def Known.candidate (product : StockedProduct) : Except Raised (Option (RankKey × Recommendation)) := do
  if product.quantityOnHand ≤ 0 ∨ product.productId ∈ known.purchased then return none
  let lineage ← known.lineage product.categoryId
  let preferred ← known.preferredReasons product (nearest lineage known.preferred)
  let bought := nearest lineage known.boughtCategories
  let history ← known.historyReasons product bought
  let reasons := known.segmentReasons product ++ preferred ++ history
  if reasons = [] then return none
  return some (rankKey reasons.length (known.buyers.at product.productId 0) (known.history bought)
      product.productId,
    ⟨product.productId, product.name, product.categoryId, product.categoryName, product.quantityOnHand,
      reasons⟩)

/-- The products to recommend, best first, each with its reasons. -/
def rankCandidates (stocked : List StockedProduct) (limit : ℕ) : Except Raised (List Recommendation) := do
  let ranked ← stocked.mapM known.candidate
  return ((sortBy Prod.fst (ranked.filterMap id)).take limit).map Prod.snd

end Rank

/-! ### The whole computation -/

def checkLimit (limit : ℕ) : Except Raised Unit :=
  if 1 ≤ limit ∧ limit ≤ maxLimit then return () else throw .invalidLimit

section Recommend

variable (order : RowOrder) (shop : Shop)

/-- What is ranked once a segment and a usual store are both known. -/
def knownOf (profile : ConsumptionProfile) (code labelName : String) : Known where
  preferred := (listInterestCategories order shop profile.customerId).map CategoryRow.categoryId
  categoryPurchases := profile.favouriteCategories.map fun c => (c.categoryId, c.purchases)
  categories := (listAllCategories order shop).map fun c => (c.categoryId, c)
  totalPurchases := profile.purchaseCount.getD 0
  purchased := (listProductTotals order shop profile.customerId profile.windowStart profile.windowEnd).map
    ProductTotal.productId
  buyers := listSegmentBuyers order shop profile.customerId profile.windowStart profile.windowEnd code
  labelName
  windowDays := profile.windowDays

def noSegmentMessage (segment : Option SegmentState) : String :=
  match segment with
  | none =>
    "No segment is available for this customer: no segmentation run has assigned them one, so no " ++
      "recommendations are given."
  | some segment =>
    s!"No segment is available for this customer: run {segment.runId} left them unassigned, because they " ++
      "had no sales in its window, so no recommendations are given."

def noStoreMessage (windowDays : ℕ) : String :=
  s!"No usual store is available: the customer has no accepted sale in the last {daysText windowDays}, so " ++
    "stock cannot be checked and no recommendations are given."

def foundMessage (items : List Recommendation) (storeName : String) : String :=
  if items = [] then
    s!"Nothing in stock at {storeName} matches this customer: no product there is in a category they prefer " ++
      "or buy from, or was bought by their segment, that they have not already bought."
  else
    s!"{items.length} " ++ plural items.length "recommendation" "recommendations" ++
      s!" from what {storeName} has in stock."

/-- The result as far as the profile alone decides it. -/
def baseResult (profile : ConsumptionProfile) : RecommendationResult :=
  { customerId := profile.customerId
    customerName := profile.customerName
    status := .noSegment
    message := noSegmentMessage profile.currentSegment
    windowDays := profile.windowDays
    windowStart := profile.windowStart
    windowEnd := profile.windowEnd
    synthetic := profile.windowSeeded ||
      profile.currentSegment.any fun segment => segment.dataOrigin = .seeded }

/-- `segment.label_name or segment.label_code`. -/
def labelNameOf (segment : SegmentState) (code : String) : String :=
  let name := segment.labelName.getD ""
  if name = "" then code else name

/-- The result for a customer whose segment is known. -/
def recommendTo (profile : ConsumptionProfile) (code labelName : String) (limit : ℕ) :
    Except Raised RecommendationResult := do
  match profile.dominantStore with
  | none =>
    return { baseResult profile with
      status := .noUsualStore
      labelCode := some code
      labelName := some labelName
      message := noStoreMessage profile.windowDays }
  | some store =>
    let items ← rankCandidates (knownOf order shop profile code labelName)
      (listStockedProducts order shop store.itemId) limit
    return { baseResult profile with
      status := if items = [] then .noneMatch else .recommended
      labelCode := some code
      labelName := some labelName
      storeId := some store.itemId
      storeName := some store.name
      channelId := profile.dominantChannel.map GroupTotal.itemId
      channelName := profile.dominantChannel.map GroupTotal.name
      recommendations := items
      message := foundMessage items store.name }

/-- Recommend products to one customer, from what their usual store has in stock. -/
def recommend (customerId : String) (windowDays limit : ℕ) (asOf : Instant) :
    Except Raised RecommendationResult := do
  checkLimit limit
  let profile ← buildProfile order shop customerId windowDays asOf
  match profile.currentSegment with
  | none => return baseResult profile
  | some segment =>
    match segment.labelCode with
    | none => return baseResult profile
    | some code => recommendTo order shop profile code (labelNameOf segment code) limit

end Recommend
end RetailSegmentation.Recommendations.Web
