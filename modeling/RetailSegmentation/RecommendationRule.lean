import Mathlib.Data.Prod.Lex
import RetailSegmentation.AncestorWalk
import RetailSegmentation.GroupedRows

/-! The rule of recommendations-service (`services/recommendations/app/rule.py`): what is recommended to a
customer, from the rows it reads. Money is in hundredths, a share in ten-thousandths, and an instant in
microseconds. -/

namespace RetailSegmentation.Recommendations

open Grouping Forest

abbrev Instant := ℤ

/-- `timedelta(days=...)`. -/
def days (count : ℕ) : ℤ := count * 86400000000

def topCategoriesLimit : ℕ := 3

/-! ### Rows -/

inductive LabelState where
  | assigned | unassignedResult | noOpenAssignment
  deriving DecidableEq, Repr

/-- The customer's open assignment, as `api_segments.current_label_v1` says it. -/
structure Label where
  state : LabelState
  labelCode : Option String
  runId : Option ℤ
  deriving DecidableEq, Repr

structure Line where
  transactionId : ℤ
  storeId : ℤ
  productId : ℤ
  categoryId : ℤ
  quantity : ℤ
  unitPrice : ℤ
  deriving DecidableEq, Repr

structure Stocked where
  productId : ℤ
  categoryId : ℤ
  quantityOnHand : ℤ
  deriving DecidableEq, Repr

/-- What the rule reads, one method for each published view read. -/
structure Reads (m : Type → Type) where
  currentLabel : String → m Label
  purchaseLines : String → Instant → Instant → m (List Line)
  stockedProducts : ℤ → m (List Stocked)
  segmentBuyers : String → String → Instant → Instant → m (Dict ℤ ℤ)
  interestCategories : String → m (List ℤ)
  categoryParents : m (Dict ℤ (Option ℤ))

inductive Status where
  | recommended | noOpenAssignment | unassignedResult | noUsualStore | noneMatch
  deriving DecidableEq, Repr

inductive Signal where
  | segment | preferredCategory | purchaseHistory
  deriving DecidableEq, Repr

structure Reason where
  signal : Signal
  segmentBuyers : Option ℤ
  categoryId : Option ℤ
  share : Option ℕ
  deriving DecidableEq, Repr

structure Item where
  productId : ℤ
  categoryId : ℤ
  quantityOnHand : ℤ
  reasons : List Reason
  deriving DecidableEq, Repr

structure Result where
  customerId : String
  status : Status
  windowStart : Instant
  windowEnd : Instant
  labelCode : Option String := none
  runId : Option ℤ := none
  usualStoreId : Option ℤ := none
  items : List Item := []
  deriving DecidableEq, Repr

/-! ### The profile pieces -/

section Tallies

variable (key : Line → ℤ) (lines : List Line)

def purchasesBy : Dict ℤ (Finset ℤ) := tally key ∅ (fun ids line => insert line.transactionId ids) lines

def unitsBy : Dict ℤ ℤ := tally key 0 (fun total line => total + line.quantity) lines

def spendBy : Dict ℤ ℤ := tally key 0 (fun total line => total + line.quantity * line.unitPrice) lines

def purchaseCount (k : ℤ) : ℤ := ((purchasesBy key lines).at k ∅).card

end Tallies

/-- Most purchases, then highest spend, then lowest id. -/
def storeKey (purchases spend id : ℤ) : ℤ ×ₗ ℤ ×ₗ ℤ := toLex (-purchases, toLex (-spend, id))

def storeRank (lines : List Line) (s : ℤ) : ℤ ×ₗ ℤ ×ₗ ℤ :=
  storeKey (purchaseCount Line.storeId lines s) ((spendBy Line.storeId lines).at s 0) s

def dominantStore (lines : List Line) : Option ℤ :=
  leastBy (storeRank lines) (purchasesBy Line.storeId lines).keys

/-- Most purchases, then units, then spend, then lowest id. -/
def categoryKey (purchases units spend id : ℤ) : ℤ ×ₗ ℤ ×ₗ ℤ ×ₗ ℤ :=
  toLex (-purchases, toLex (-units, toLex (-spend, id)))

def categoryRank (lines : List Line) (c : ℤ) : ℤ ×ₗ ℤ ×ₗ ℤ ×ₗ ℤ :=
  categoryKey (purchaseCount Line.categoryId lines c) ((unitsBy Line.categoryId lines).at c 0)
    ((spendBy Line.categoryId lines).at c 0) c

/-- The customer's favourite categories and the purchases that hold each. -/
def topCategories (lines : List Line) (limit : ℕ) : Dict ℤ ℤ :=
  ((sortBy (categoryRank lines) (purchasesBy Line.categoryId lines).keys).take limit).map fun c =>
    (c, purchaseCount Line.categoryId lines c)

/-! ### Ranking -/

def parentOf (parents : Dict ℤ (Option ℤ)) (category : ℤ) : Option ℤ := (parents.lookup category).join

/-- The category and every category above it, nearest first. Each step but the last leaves another known
category behind, so there are no more of them than known categories. -/
def lineage (category : ℤ) (parents : Dict ℤ (Option ℤ)) : List ℤ :=
  climbUnseen (parentOf parents) parents.length [category] category

def nearest (chain : List ℤ) (matching : List ℤ) : Option ℤ := chain.find? fun c => c ∈ matching

/-- The fraction of the customer's purchases that were in a category, half up. -/
def share (history total : ℤ) : ℕ := ((2 * history * 10000 + total) / (2 * total)).toNat

/-- What ranks a product, least first. -/
abbrev RankKey := ℤ ×ₗ ℤ ×ₗ ℤ ×ₗ ℤ

def rankKey (reasons : ℕ) (buyers history productId : ℤ) : RankKey :=
  toLex (-(reasons : ℤ), toLex (-buyers, toLex (-history, productId)))

/-- What the rule knows of the customer when it ranks. -/
structure Signals where
  preferred : List ℤ
  categoryPurchases : Dict ℤ ℤ
  parents : Dict ℤ (Option ℤ)
  totalPurchases : ℤ
  purchased : List ℤ
  buyers : Dict ℤ ℤ

section Rank

variable (known : Signals)

def Signals.bought : List ℤ := (known.categoryPurchases.filter fun e => 1 ≤ e.2).map Prod.fst

def Signals.segmentBuyers (product : Stocked) : ℤ := known.buyers.at product.productId 0

def Signals.liked (product : Stocked) : Option ℤ :=
  nearest (lineage product.categoryId known.parents) known.preferred

def Signals.historyCategory (product : Stocked) : Option ℤ :=
  nearest (lineage product.categoryId known.parents) known.bought

def Signals.history : Option ℤ → ℤ
  | some category => known.categoryPurchases.at category 0
  | none => 0

def Signals.segmentReasons (product : Stocked) : List Reason :=
  if 1 ≤ known.segmentBuyers product then
    [⟨.segment, some (known.segmentBuyers product), none, none⟩]
  else []

def preferredReasons : Option ℤ → List Reason
  | none => []
  | some category => [⟨.preferredCategory, none, some category, none⟩]

def Signals.historyReasons : Option ℤ → List Reason
  | none => []
  | some category =>
    [⟨.purchaseHistory, none, some category,
      some (share (known.history (some category)) known.totalPurchases)⟩]

def Signals.reasons (product : Stocked) : List Reason :=
  known.segmentReasons product ++ preferredReasons (known.liked product) ++
    known.historyReasons (known.historyCategory product)

def Signals.candidate (product : Stocked) : Option (RankKey × Item) :=
  if product.quantityOnHand ≤ 0 ∨ product.productId ∈ known.purchased then none
  else if known.reasons product = [] then none
  else some (rankKey (known.reasons product).length (known.segmentBuyers product)
      (known.history (known.historyCategory product)) product.productId,
    ⟨product.productId, product.categoryId, product.quantityOnHand, known.reasons product⟩)

/-- The products to recommend, best first, each with its reasons. -/
def rank (stocked : List Stocked) (limit : ℕ) : List Item :=
  ((sortBy Prod.fst (stocked.filterMap known.candidate)).take limit).map Prod.snd

end Rank

/-! ### The whole computation -/

section Recommend

variable {m : Type → Type} [Monad m]

/-- What is read once the label and the usual store are known. -/
def recommendFrom (reads : Reads m) (customerId code : String) (since until_ : Instant) (limit : ℕ)
    (lines : List Line) (store : ℤ) : m (List Item) := do
  let stocked ← reads.stockedProducts store
  let preferred ← reads.interestCategories customerId
  let parents ← reads.categoryParents
  let buyers ← reads.segmentBuyers code customerId since until_
  return rank
    { preferred, parents, buyers
      categoryPurchases := topCategories lines topCategoriesLimit
      totalPurchases := ((lines.map Line.transactionId).toFinset.card : ℤ)
      purchased := lines.map Line.productId } stocked limit

/-- Recommend for one known customer, as of a moment. Each read happens only once the status still depends on
it. -/
def recommend (reads : Reads m) (windowDays : ℕ) (customerId : String) (asOf : Instant) (limit : ℕ) :
    m Result := do
  let since := asOf - days windowDays
  let base : Result := { customerId, status := .noOpenAssignment, windowStart := since, windowEnd := asOf }
  let label ← reads.currentLabel customerId
  match label.state, label.labelCode with
  | .assigned, some code =>
    let known : Result := { base with labelCode := some code, runId := label.runId }
    let lines ← reads.purchaseLines customerId since asOf
    match dominantStore lines with
    | none => return { known with status := .noUsualStore }
    | some store =>
      let items ← recommendFrom reads customerId code since asOf limit lines store
      return { known with
        status := if items = [] then .noneMatch else .recommended
        usualStoreId := some store
        items }
  | .unassignedResult, _ => return { base with status := .unassignedResult }
  | _, _ => return base

end Recommend
end RetailSegmentation.Recommendations
