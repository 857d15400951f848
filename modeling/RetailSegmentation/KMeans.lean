import Mathlib.Data.Nat.Cast.Defs
import RetailSegmentation.GroupedRows
import RetailSegmentation.IndexedTables

/-! K-means over normalised recency, frequency and spend (`web/services/kmeans.py`). A float is a value of a linear
order with the operations of one, of which nothing else is assumed here: finite floats with their rounding are one,
exact numbers another. -/

namespace RetailSegmentation.KMeans

open Grouping Indexed

abbrev Point (F : Type) : Type := F × F × F

/-- What `random.Random` is seeded with. -/
inductive Seed where
  | number (seed : ℤ)
  | text (seed : String)
  deriving DecidableEq, Repr

/-- The functions of Python's library that a fit calls. -/
structure Library (F : Type) where
  /-- The values `Random(seed).random()` returns, one after the other. -/
  random : Seed → ℕ → F
  sum : List F → F
  fsum : List F → F
  dist : Point F → Point F → F
  /-- `int(x)` of an `x` that is not negative. -/
  truncate : F → ℕ

inductive Raised where
  | zeroDivisionError | indexError | stopIteration | emptySequence | unequalLengths
  | valueError (message : String)
  | tooFewCustomers (message : String)
  deriving DecidableEq, Repr

/-- Everything that shapes a fit; what `__post_init__` refuses cannot be built. -/
structure KMeansParams (F : Type) [LinearOrder F] [Zero F] where
  k : ℕ
  seed : ℤ
  maxIterations : ℕ
  tolerance : F
  one_le_k : 1 ≤ k
  one_le_maxIterations : 1 ≤ maxIterations
  tolerance_nonneg : 0 ≤ tolerance

/-- One customer's raw values over the feature window. -/
structure RawRfm (K M : Type) where
  customerId : K
  lastPurchaseAt : ℤ
  frequency : ℤ
  monetary : M

def silhouetteMaxCustomers : ℕ := 2000

def silhouetteSampleSize : ℕ := 1000

section Fit

variable {K M F : Type} [LinearOrder K] [LinearOrder F] [Zero F] [One F] [Neg F] [Add F] [Sub F] [Mul F] [Div F]
  [NatCast F] [Pow F ℕ]

/-- A finished fit. A `finalShift` of `none` is infinite, as before any iteration. -/
structure KMeansFit (K F : Type) [LinearOrder F] [Zero F] where
  params : KMeansParams F
  customerIds : List K
  points : List (Point F)
  assignments : List ℕ
  centroids : List (Point F)
  iterations : ℕ
  converged : Bool
  stoppedOn : String
  finalShift : Option F
  emptyClusterEvents : ℕ
  inertia : F
  silhouette : Option F
  clusterSizes : List ℕ
  silhouetteSample : Option ℕ

/-! ### Python -/

/-- `zip(xs, ys, strict=True)`. -/
def zipStrict {α β : Type} (xs : List α) (ys : List β) : Except Raised (List (α × β)) :=
  if xs.length = ys.length then return xs.zip ys else throw .unequalLengths

/-- `min(...)`. -/
def least (values : List F) : Except Raised F :=
  match values with
  | [] => throw .emptySequence
  | value :: rest => return rest.foldl min value

/-- `max(...)`. -/
def greatest {α : Type} [LinearOrder α] (values : List α) : Except Raised α :=
  match values with
  | [] => throw .emptySequence
  | value :: rest => return rest.foldl max value

def quotient (x y : F) : Except Raised F := if y = 0 then throw .zeroDivisionError else return x / y

/-- `x / count`. -/
def share (x : F) (count : ℕ) : Except Raised F :=
  if count = 0 then throw .zeroDivisionError else return x / (count : F)

/-! ### Normalisation -/

/-- Scale values to [0, 1] across the run; a constant feature is 0. -/
def minMax (values : List F) (reverse : Bool) : Except Raised (List F) := do
  let low ← least values
  let high ← greatest values
  if high = low then return values.map fun _ => 0
  if reverse then values.mapM fun value => quotient (high - value) (high - low)
  else values.mapM fun value => quotient (value - low) (high - low)

/-- One point per row; `days` is a time in days and `float` reads a count. -/
def normalise (days : ℤ → F) (float : ℤ → F) (amount : M → F) (rows : List (RawRfm K M)) :
    Except Raised (List (Point F)) := do
  if rows = [] then return []
  let latest ← greatest (rows.map RawRfm.lastPurchaseAt)
  let recency ← minMax (rows.map fun row => days (latest - row.lastPurchaseAt)) true
  let frequency ← minMax (rows.map fun row => float row.frequency) false
  let monetary ← minMax (rows.map fun row => amount row.monetary) false
  return recency.zip (frequency.zip monetary)

/-! ### The pieces of Lloyd's algorithm -/

def squared (a b : Point F) : F := (a.1 - b.1) ^ 2 + (a.2.1 - b.2.1) ^ 2 + (a.2.2 - b.2.2) ^ 2

/-- Another centroid is the best only when it is strictly nearer. -/
def nearer (point : Point F) (best : ℕ × F) (entry : Point F × ℕ) : ℕ × F :=
  let distance := squared point entry.1
  if distance < best.2 then (entry.2, distance) else best

def nearest (point : Point F) (centroids : List (Point F)) : Except Raised ℕ := do
  let first ← item Raised.indexError centroids 0
  return (((centroids.zipIdx).drop 1).foldl (nearer point) (0, squared point first)).1

variable (lib : Library F)

/-- Where the running sum of the positive weights reaches `target`; `none` is -1. -/
def pickFrom (target : F) (entries : List (F × ℕ)) (running : F) (pick : Option ℕ) : Option ℕ :=
  match entries with
  | [] => pick
  | (weight, index) :: rest =>
    if weight ≤ 0 then pickFrom target rest running pick
    else if target ≤ running + weight then some index
    else pickFrom target rest (running + weight) (some index)

/-- The variables of the loop that chooses the first centroids. `draws` is how often `rng.random()` was called. -/
structure Seeding (F : Type) where
  draws : ℕ
  chosen : List (Option ℕ)
  centres : List (Point F)
  nearestSquared : List F

/-- The customer who is the next centre, and the draws made by then. -/
def nextPick (seed : ℤ) (n : ℕ) (s : Seeding F) : Except Raised (Option ℕ × ℕ) :=
  let total := lib.sum s.nearestSquared
  if 0 < total then
    return (pickFrom (lib.random (.number seed) s.draws * total) s.nearestSquared.zipIdx 0 none, s.draws + 1)
  else
    match (List.range n).find? fun index => some index ∉ s.chosen with
    | some index => return (some index, s.draws)
    | none => throw .stopIteration

/-- One more centre. Index -1 is the last. -/
def addCentre (points : List (Point F)) (seed : ℤ) (s : Seeding F) : Except Raised (Seeding F) := do
  let (pick, draws) ← nextPick lib seed points.length s
  let centre ← item Raised.indexError points (pick.getD (points.length - 1))
  let pairs ← zipStrict s.nearestSquared points
  return {
    draws
    chosen := s.chosen.insert pick
    centres := s.centres ++ [centre]
    nearestSquared := pairs.map fun pair => min pair.1 (squared pair.2 centre) }

/-- `_initial_centroids`: each round adds a centre, until there are `k`. -/
def initialCentroids (points : List (Point F)) (k : ℕ) (seed : ℤ) : Except Raised (List (Point F)) := do
  let n := points.length
  let first := min (lib.truncate (lib.random (.number seed) 0 * (n : F))) (n - 1)
  let centre ← item Raised.indexError points first
  let s ← (List.range (k - 1)).foldlM (fun s _ => addCentre lib points seed s)
    ⟨1, [some first], [centre], points.map fun point => squared point centre⟩
  return s.centres

/-- The number of customers in each cluster. -/
def sizesOf (assignments : List ℕ) (k : ℕ) : Except Raised (List ℕ) :=
  assignments.foldlM (fun sizes cluster => adjustAt Raised.indexError sizes cluster (· + 1)) (List.replicate k 0)

/-- The variables of the refill; who is in `moved` was moved. -/
structure Refill where
  sizes : List ℕ
  assignments : List ℕ
  moved : List ℕ

/-- A customer of a cluster of at least two is the donor when strictly farther from its centroid. -/
def farther (points centroids : List (Point F)) (sizes : List ℕ) (best : Option ℕ × F) (entry : ℕ × ℕ) :
    Except Raised (Option ℕ × F) := do
  if (← item Raised.indexError sizes entry.1) < 2 then return best
  let distance := squared (← item Raised.indexError points entry.2) (← item Raised.indexError centroids entry.1)
  if best.2 < distance then return (some entry.2, distance) else return best

/-- A cluster that is empty takes the donor. Index -1 is the last. -/
def refillCluster (points centroids : List (Point F)) (s : Refill) (empty : ℕ) : Except Raised Refill := do
  if (← item Raised.indexError s.sizes empty) ≠ 0 then return s
  let best ← s.assignments.zipIdx.foldlM (farther points centroids s.sizes) (none, -1)
  let donor := best.1.getD (s.assignments.length - 1)
  let cluster ← item Raised.indexError s.assignments donor
  let sizes ← adjustAt Raised.indexError s.sizes cluster (· - 1)
  let sizes ← adjustAt Raised.indexError sizes empty fun _ => 1
  return ⟨sizes, s.assignments.set donor empty, s.moved ++ [donor]⟩

/-- Give every empty cluster a customer, lowest number first. -/
def refillEmptyClusters (points : List (Point F)) (assignments : List ℕ) (centroids : List (Point F)) :
    Except Raised Refill := do
  let sizes ← sizesOf assignments centroids.length
  (List.range centroids.length).foldlM (refillCluster points centroids) ⟨sizes, assignments, []⟩

/-- Add a customer to the sums and the counts of their cluster. -/
def addPoint (state : List (Point F) × List ℕ) (row : Point F × ℕ) : Except Raised (List (Point F) × List ℕ) := do
  let counts ← adjustAt Raised.indexError state.2 row.2 (· + 1)
  let sums ← adjustAt Raised.indexError state.1 row.2 fun total =>
    (total.1 + row.1.1, total.2.1 + row.1.2.1, total.2.2 + row.1.2.2)
  return (sums, counts)

def mean (entry : Point F × ℕ) : Except Raised (Point F) := do
  return (← share entry.1.1 entry.2, ← share entry.1.2.1 entry.2, ← share entry.1.2.2 entry.2)

def means (points : List (Point F)) (assignments : List ℕ) (k : ℕ) : Except Raised (List (Point F)) := do
  let pairs ← zipStrict points assignments
  let (sums, counts) ← pairs.foldlM addPoint (List.replicate k (0, 0, 0), List.replicate k 0)
  (sums.zip counts).mapM mean

/-! ### Silhouette -/

/-- `pool[i], pool[j] = pool[j], pool[i]`. -/
def swap (pool : List ℕ) (i j : ℕ) : Except Raised (List ℕ) := do
  let atI ← item Raised.indexError pool i
  let atJ ← item Raised.indexError pool j
  return (pool.set i atJ).set j atI

/-- `_silhouette_sample`: indexes out of `n`, chosen by a seeded partial shuffle, in ascending order. -/
def silhouetteIndexes (n : ℕ) (seed : ℤ) : Except Raised (List ℕ) := do
  let size := min silhouetteSampleSize n
  let pool ← (List.range size).foldlM (fun pool i => swap pool i
    (i + lib.truncate (lib.random (.text s!"silhouette:{seed}") i * ((n - i : ℕ) : F)))) (List.range n)
  return (pool.take size).insertionSort (· ≤ ·)

/-- The customers a silhouette is scored on: a sample when there are too many. -/
def scoredIndexes (n : ℕ) (seed : ℤ) : Except Raised (List ℕ) :=
  if silhouetteMaxCustomers < n then silhouetteIndexes lib n seed else return List.range n

/-- The distance of two customers. -/
def distance (points : List (Point F)) (index other : ℕ) : Except Raised F := do
  return lib.dist (← item Raised.indexError points index) (← item Raised.indexError points other)

def meanDistance (points : List (Point F)) (index : ℕ) (others : List ℕ) (count : ℕ) : Except Raised F := do
  share (lib.fsum (← others.mapM (distance lib points index))) count

/-- Add a customer's silhouette, which is 0 for one alone in their cluster. -/
def addSilhouette (points : List (Point F)) (assignments : List ℕ) (members : List (List ℕ)) (total : F)
    (index : ℕ) :
    Except Raised F := do
  let own ← item Raised.indexError assignments index
  let ownMembers ← item Raised.indexError members own
  if ownMembers.length = 1 then return total
  let inside ← meanDistance lib points index (ownMembers.filter fun other => other ≠ index) (ownMembers.length - 1)
  let outside ← least (← (members.zipIdx.filter fun entry => entry.2 ≠ own ∧ entry.1 ≠ []).mapM fun entry =>
    meanDistance lib points index entry.1 entry.1.length)
  let scale := max inside outside
  return total + if scale = 0 then 0 else (outside - inside) / scale

/-- `_silhouette`: the mean silhouette and, when it is a sample, the sample's size. -/
def silhouetteOf (points : List (Point F)) (assignments : List ℕ) (k : ℕ) (seed : ℤ) :
    Except Raised (Option F × Option ℕ) := do
  let n := points.length
  if k < 2 then return (none, none)
  let chosen ← scoredIndexes lib n seed
  let members ← assignments.zipIdx.foldlM
    (fun members entry => adjustAt Raised.indexError members entry.1 (· ++ [entry.2])) (List.replicate k [])
  let total ← chosen.foldlM (addSilhouette lib points assignments members) 0
  return (some (← share total chosen.length), if silhouetteMaxCustomers < n then some chosen.length else none)

/-! ### The fit -/

/-- What one iteration of Lloyd's algorithm comes to. -/
structure Iteration (F : Type) where
  refill : Refill
  centroids : List (Point F)
  shift : F

/-- One iteration: the nearest centroids, the refill, the means and how far the centroids moved. -/
def iteration (data : List (Point F)) (k : ℕ) (centroids : List (Point F)) : Except Raised (Iteration F) := do
  let assignments ← data.mapM fun point => nearest point centroids
  let refill ← refillEmptyClusters data assignments centroids
  let updated ← means data refill.assignments k
  let pairs ← zipStrict centroids updated
  let shift ← greatest (pairs.map fun pair => lib.dist pair.1 pair.2)
  return ⟨refill, updated, shift⟩

/-- The variables of the fit's loop; a `shift` of `none` is infinite. -/
structure Fitting (F : Type) where
  centroids : List (Point F)
  events : ℕ
  shift : Option F
  iterations : ℕ

/-- `shift <= tolerance`. -/
def within (tolerance : F) (shift : Option F) : Bool := shift.any (· ≤ tolerance)

/-- `for iteration in range(1, max_iterations + 1)`. -/
def iterate (data : List (Point F)) (k : ℕ) (tolerance : F) (left : ℕ) (s : Fitting F) :
    Except Raised (Fitting F) :=
  match left with
  | 0 => return s
  | left + 1 => do
    let round ← iteration lib data k s.centroids
    let s := ⟨round.centroids, s.events + round.refill.moved.length, some round.shift, s.iterations + 1⟩
    if within tolerance s.shift then return s else iterate data k tolerance left s

/-- The squared distance of a customer from the centroid of their cluster. -/
def ownDistance (centroids : List (Point F)) (pair : Point F × ℕ) : Except Raised F := do
  return squared pair.1 (← item Raised.indexError centroids pair.2)

def fitSorted (ids : List K) (data : List (Point F)) (params : KMeansParams F) :
    Except Raised (KMeansFit K F) := do
  let initial ← initialCentroids lib data params.k params.seed
  let fitted ← iterate lib data params.k params.tolerance params.maxIterations ⟨initial, 0, none, 0⟩
  let converged := within params.tolerance fitted.shift
  let assignments ← data.mapM fun point => nearest point fitted.centroids
  let refill ← refillEmptyClusters data assignments fitted.centroids
  let sizes ← sizesOf refill.assignments params.k
  let pairs ← zipStrict data refill.assignments
  let distances ← pairs.mapM (ownDistance fitted.centroids)
  let (silhouette, silhouetteSample) ← silhouetteOf lib data refill.assignments params.k params.seed
  return {
    params
    customerIds := ids
    points := data
    assignments := refill.assignments
    centroids := fitted.centroids
    iterations := fitted.iterations
    converged
    stoppedOn := if converged then "tolerance" else "iteration_limit"
    finalShift := fitted.shift
    emptyClusterEvents := fitted.events + refill.moved.length
    inertia := lib.fsum distances
    silhouette
    clusterSizes := sizes.insertionSort (· ≥ ·)
    silhouetteSample }

/-- Cluster customers with Lloyd's algorithm, sorted by id first. -/
def fit (customerIds : List K) (points : List (Point F)) (params : KMeansParams F) :
    Except Raised (KMeansFit K F) := do
  let n := customerIds.length
  if n ≠ points.length then throw (.valueError "Customers and points must pair up one to one.")
  if ¬ customerIds.Nodup then throw (.valueError "A customer appears twice in the fit.")
  if n < params.k then
    throw (.tooFewCustomers (s!"Only {n} " ++ (if n = 1 then "customer has" else "customers have") ++
      s!" sales in the window; k={params.k} needs at least {params.k}."))
  let sorted := sortBy Prod.fst (customerIds.zip points)
  fitSorted lib (sorted.map Prod.fst) (sorted.map Prod.snd) params

def fitCustomers (days : ℤ → F) (float : ℤ → F) (amount : M → F) (rows : List (RawRfm K M))
    (params : KMeansParams F) :
    Except Raised (KMeansFit K F) := do
  fit lib (rows.map RawRfm.customerId) (← normalise days float amount rows) params

end Fit
end RetailSegmentation.KMeans
