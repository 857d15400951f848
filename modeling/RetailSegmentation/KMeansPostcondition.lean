import Mathlib.Algebra.Order.Field.Rat
import Mathlib.Tactic.Linarith
import Mathlib.Tactic.Positivity
import Mathlib.Tactic.NormNum
import RetailSegmentation.KMeansFit

/-! What a finished fit satisfies: every customer has a cluster, no cluster is empty, and who was not moved at
the end is with the nearest centroid. -/

set_option linter.unusedSectionVars false

namespace RetailSegmentation.KMeans

open Grouping Indexed

section Silhouette

variable {F : Type} [LinearOrder F] [Zero F] [One F] [Neg F] [Add F] [Sub F] [Mul F] [Div F] [NatCast F] [Pow F ℕ]
  {lib : Library F} {n k : ℕ} {p : ℕ → Point F} {b : ℕ → ℕ}

/-! ### The silhouette -/

/-- What the shuffle keeps of its pool. -/
def Pool (n : ℕ) (pool : List ℕ) : Prop := pool.length = n ∧ ∀ x ∈ pool, x < n

theorem Pool.set {pool : List ℕ} (h : Pool n pool) {i x : ℕ} (hx : x < n) : Pool n (pool.set i x) := by
  refine ⟨by rw [List.length_set, h.1], fun y hy => ?_⟩
  rcases List.mem_or_eq_of_mem_set hy with hy | rfl
  · exact h.2 y hy
  · exact hx

theorem Pool.item {pool : List ℕ} (h : Pool n pool) {i : ℕ} (hi : i < n) :
    ∃ x < n, Indexed.item Raised.indexError pool i = .ok x := by
  obtain ⟨x, hx, hget⟩ := exists_item (h.1.symm ▸ hi) (e := Raised.indexError)
  exact ⟨x, h.2 x (List.mem_of_getElem? hget), hx⟩

theorem Pool.swap {pool : List ℕ} (h : Pool n pool) {i j : ℕ} (hi : i < n) (hj : j < n) :
    ∃ pool', KMeans.swap pool i j = .ok pool' ∧ Pool n pool' := by
  obtain ⟨x, hlt, hx⟩ := h.item hi
  obtain ⟨y, hlt', hy⟩ := h.item hj
  refine ⟨(pool.set i y).set j x, ?_, (h.set hlt').set hlt⟩
  unfold KMeans.swap
  simp only [hx, hy, bind, Except.bind]
  rfl

theorem silhouetteIndexes_ok (hlib : Lawful lib) (hn : 0 < n) (seed : ℤ) :
    ∃ chosen, silhouetteIndexes lib n seed = .ok chosen ∧ chosen ≠ [] ∧ ∀ i ∈ chosen, i < n := by
  have hround : ∀ i < min silhouetteSampleSize n, ∀ pool, Pool n pool → ∃ pool', swap pool i
      (i + lib.truncate (lib.random (.text s!"silhouette:{seed}") i * ((n - i : ℕ) : F))) = .ok pool' ∧
        Pool n pool' := by
    intro i hi pool hpool
    have hin : i < n := Nat.lt_of_lt_of_le hi (Nat.min_le_right _ _)
    have hj := hlib.index (.text s!"silhouette:{seed}") i (Nat.sub_pos_of_lt hin)
    exact hpool.swap hin (by omega)
  have hstart : Pool n (List.range n) := ⟨List.length_range, fun x hx => List.mem_range.mp hx⟩
  obtain ⟨pool, hrun, hpool⟩ := foldlM_range hround hstart
  refine ⟨(pool.take (min silhouetteSampleSize n)).insertionSort (· ≤ ·), ?_, ?_, fun i hi => ?_⟩
  · unfold silhouetteIndexes
    simp only [hrun, bind, Except.bind]
    rfl
  · refine List.ne_nil_of_length_pos ?_
    have hsize : 0 < silhouetteSampleSize := by decide
    rw [List.length_insertionSort, List.length_take, hpool.1]
    omega
  · exact hpool.2 i (List.mem_of_mem_take ((List.mem_insertionSort _).mp hi))

theorem scoredIndexes_ok (hlib : Lawful lib) (hn : 0 < n) (seed : ℤ) :
    ∃ chosen, scoredIndexes lib n seed = .ok chosen ∧ chosen ≠ [] ∧ ∀ i ∈ chosen, i < n := by
  unfold scoredIndexes
  split_ifs
  · exact silhouetteIndexes_ok hlib hn seed
  · refine ⟨List.range n, rfl, ?_, fun i hi => List.mem_range.mp hi⟩
    exact List.ne_nil_of_length_pos (by rw [List.length_range]; exact hn)

theorem meanDistance_ok {index : ℕ} (hindex : index < n) {others : List ℕ} (hothers : ∀ i ∈ others, i < n)
    {count : ℕ}
    (hcount : 0 < count) : ∃ x, meanDistance lib (column n p) index others count = .ok x := by
  have hdistance : ∀ i ∈ others, distance lib (column n p) index i = .ok (lib.dist (p index) (p i)) :=
    fun i hi => by
    unfold distance
    simp only [item_column hindex, item_column (hothers i hi), bind, Except.bind]
    rfl
  refine ⟨lib.fsum (others.map fun i => lib.dist (p index) (p i)) / (count : F), ?_⟩
  unfold meanDistance
  simp only [mapM_ok hdistance, bind, Except.bind]
  exact share_ok hcount

theorem addSilhouette_ok (hk : 2 ≤ k) (hbelow : ∀ i < n, b i < k) (hfull : ∀ c < k, 0 < size n b c) {index : ℕ}
    (hindex : index < n) (total : F) : ∃ total',
      addSilhouette lib (column n p) (column n b) (column k (clusterOf n b)) total index = .ok total' := by
  have hmembers : ∀ c, ∀ i ∈ clusterOf n b c, i < n := fun c i hi => (mem_clusterOf.mp hi).1
  unfold addSilhouette
  simp only [item_column hindex, item_column (hbelow index hindex), bind, Except.bind]
  by_cases hone : (clusterOf n b (b index)).length = 1
  · exact ⟨total, if_pos hone⟩
  · have hsize := hfull _ (hbelow index hindex)
    unfold size at hsize
    obtain ⟨inside, hinside⟩ := @meanDistance_ok F _ _ _ _ _ _ _ _ _ _ lib n p index hindex
      ((clusterOf n b (b index)).filter fun other => other ≠ index)
      (fun i hi => hmembers _ i (List.mem_of_mem_filter hi)) ((clusterOf n b (b index)).length - 1) (by omega)
    have hother : ∀ entry ∈ (column k (clusterOf n b)).zipIdx.filter fun entry => entry.2 ≠ b index ∧ entry.1 ≠ [],
        ∃ x, meanDistance lib (column n p) index entry.1 entry.1.length = .ok x := by
      intro entry hentry
      obtain ⟨hentry, hkept⟩ := List.mem_filter.mp hentry
      rw [column_zipIdx] at hentry
      obtain ⟨c, -, rfl⟩ := mem_column.mp hentry
      exact meanDistance_ok hindex (hmembers c) (List.length_pos_of_ne_nil (of_decide_eq_true hkept).2)
    obtain ⟨distances, hdistances, hlength⟩ := exists_mapM hother
    have hsome : distances ≠ [] := by
      obtain ⟨c, hc, hne⟩ : ∃ c < k, c ≠ b index := by
        by_cases hzero : b index = 0
        · exact ⟨1, by omega, by omega⟩
        · exact ⟨0, by omega, Ne.symm hzero⟩
      refine List.ne_nil_of_length_pos (hlength ▸ List.length_pos_of_mem (List.mem_filter.mpr
        ⟨?_, decide_eq_true ⟨hne, List.ne_nil_of_length_pos (hfull c hc)⟩⟩ : (clusterOf n b c, c) ∈ _))
      rw [column_zipIdx]
      exact mem_column.mpr ⟨c, hc, rfl⟩
    obtain ⟨outside, houtside, -⟩ := least_ok hsome
    simp only [if_neg hone, hinside, hdistances, houtside]
    exact ⟨_, rfl⟩

theorem silhouetteOf_ok (hlib : Lawful lib) (hkn : k ≤ n) (hbelow : ∀ i < n, b i < k)
    (hfull : ∀ c < k, 0 < size n b c) (seed : ℤ) :
    ∃ result, silhouetteOf lib (column n p) (column n b) k seed = .ok result := by
  unfold silhouetteOf
  by_cases hone : k < 2
  · exact ⟨(none, none), if_pos hone⟩
  · obtain ⟨chosen, hchosen, hsome, hlt⟩ := scoredIndexes_ok hlib (by omega : 0 < n) seed
    have hmembers : (column n b).zipIdx.foldlM (fun members entry =>
        adjustAt Raised.indexError members entry.1 (· ++ [entry.2])) (List.replicate k []) =
          .ok (column k (clusterOf n b)) := by
      have hrows : ∀ i ∈ List.range n, b i < k := fun i hi => hbelow i (List.mem_range.mp hi)
      have hfilled := @foldlM_adjustAt (List ℕ) ℕ Raised .indexError k b (fun members i => members ++ [i]) _ hrows
        fun _ => []
      rw [column_zipIdx, column_foldlM, replicate_column, hfilled]
      exact congrArg Except.ok (column_congr fun c _ => (foldl_append_map id _ []).trans (List.map_id _))
    obtain ⟨total, htotal⟩ := exists_foldlM (fun i hi total =>
      @addSilhouette_ok F _ _ _ _ _ _ _ _ _ _ lib n k p b (by omega) hbelow hfull i (hlt i hi) total) (0 : F)
    have hshare : share total chosen.length = .ok (total / (chosen.length : F)) :=
      share_ok (List.length_pos_of_ne_nil hsome)
    simp only [length_column, if_neg hone, hchosen, hmembers, htotal, hshare, bind, Except.bind]
    exact ⟨_, rfl⟩

end Silhouette

/-! ### The fit -/

section Fit

variable {K F : Type} [LinearOrder K] [LinearOrder F] [Zero F] [One F] [Neg F] [Add F] [Sub F] [Mul F] [Div F]
  [NatCast F] [Pow F ℕ] {lib : Library F}

/-- The cluster is the lowest-numbered of those whose centroid is nearest. -/
def LowestNearest (point : Point F) (centroids : List (Point F)) (cluster : ℕ) : Prop :=
  ∃ centroid, centroids[cluster]? = some centroid ∧ ∀ j other, centroids[j]? = some other →
    squared point centroid ≤ squared point other ∧ (j < cluster → squared point centroid < squared point other)

/-- The centroids' last movement is the greatest distance one of them moved in the last iteration. -/
structure LastMovement (lib : Library F) (result : KMeansFit K F) (shift : F) : Prop where
  iterations : 1 ≤ result.iterations ∧ result.iterations ≤ result.params.maxIterations
  moved : ∃ initial before, initialCentroids lib result.points result.params.k result.params.seed = .ok initial ∧
    centroidsAfter lib result.points result.params.k initial (result.iterations - 1) = .ok before ∧
    centroidsAfter lib result.points result.params.k initial result.iterations = .ok result.centroids ∧
    before.length = result.centroids.length ∧
    (∃ pair ∈ before.zip result.centroids, lib.dist pair.1 pair.2 = shift) ∧
    ∀ pair ∈ before.zip result.centroids, lib.dist pair.1 pair.2 ≤ shift

/-- What a fit of some customers, each with a point, comes to. -/
structure FitRight (lib : Library F) (customerIds : List K) (points : List (Point F)) (params : KMeansParams F)
    (result : KMeansFit K F) : Prop where
  asked : result.params = params
  customers : (result.customerIds.zip result.points).Perm (customerIds.zip points)
  ordered : result.customerIds.Pairwise (· < ·)
  assigned : result.assignments.length = result.customerIds.length ∧ ∀ cluster ∈ result.assignments,
    cluster < params.k
  full : ∀ cluster < params.k, cluster ∈ result.assignments
  sizes : result.clusterSizes.Perm ((List.range params.k).map fun cluster =>
      (result.assignments.filter fun assigned => assigned = cluster).length) ∧
    result.clusterSizes.Pairwise (· ≥ ·) ∧ result.clusterSizes.sum = customerIds.length
  nearest : ∃ assignments refill, (result.points.mapM fun point => nearest point result.centroids) = .ok assignments ∧
    refillEmptyClusters result.points assignments result.centroids = .ok refill ∧
    refill.assignments = result.assignments ∧ ∀ i ∉ refill.moved, ∀ point cluster, result.points[i]? = some point →
      result.assignments[i]? = some cluster → LowestNearest point result.centroids cluster
  converged : ∃ shift, result.finalShift = some shift ∧ LastMovement lib result shift ∧
    (result.converged = true ↔ shift ≤ params.tolerance)

variable {n k : ℕ} {p c : ℕ → Point F} {b : ℕ → ℕ}

theorem lowestNearest_of_lowest {point : Point F} {cluster : ℕ} (h : Lowest point c k cluster) :
    LowestNearest point (column k c) cluster := by
  refine ⟨c cluster, column_get h.1, fun j other hother => ?_⟩
  have hj : j < k := by
    by_contra hnot
    rw [List.getElem?_eq_none (by rw [length_column]; omega)] at hother
    cases hother
  rw [column_get hj] at hother
  obtain rfl := Option.some.inj hother
  exact h.2 j hj

theorem sum_size (hbelow : ∀ i < n, b i < k) : (column k (size n b)).sum = n := by
  have hkeys : ∀ i ∈ List.range n, b i ∈ List.range k := fun i hi =>
    List.mem_range.mpr (hbelow i (List.mem_range.mp hi))
  have hsum := sum_filter_key List.nodup_range hkeys
  rw [List.length_range] at hsum
  exact hsum

theorem filter_column (cluster : ℕ) :
    ((column n b).filter fun assigned => assigned = cluster).length = size n b cluster := by
  unfold column
  rw [List.filter_map, List.length_map]
  rfl

theorem Ended.centroids (hsquared : ∀ u v : Point F, -1 < squared u v) (hk : 0 < k) (hkn : k ≤ n) {tolerance : F}
    {most : ℕ} {s : Fitting F} (h : Ended lib (column n p) k (column k c) tolerance most s) :
    ∃ e, s.centroids = column k e := by
  obtain ⟨before, round, hbefore, hround, hafter, -⟩ := h.last
  obtain ⟨e, he⟩ := @centroidsAfter_ok F _ _ _ _ _ _ _ _ _ _ lib n k p hsquared hk hkn c (s.iterations - 1 + 1)
  exact ⟨e, hafter.trans (Except.ok.inj ((centroidsAfter_succ hbefore hround).symm.trans he))⟩

theorem lastMovement_ok (hsquared : ∀ u v : Point F, -1 < squared u v) {params : KMeansParams F}
    (hkn : params.k ≤ n)
    (hinitial : initialCentroids lib (column n p) params.k params.seed = .ok (column params.k c)) {s : Fitting F}
    (hended : Ended lib (column n p) params.k (column params.k c) params.tolerance params.maxIterations s)
    {result : KMeansFit K F} (hparams : result.params = params) (hpoints : result.points = column n p)
    (hiterations : result.iterations = s.iterations) (hcentroids : result.centroids = s.centroids) :
    ∃ shift, s.shift = some shift ∧ LastMovement lib result shift := by
  obtain ⟨before, round, hbefore, hround, hafter, hshift⟩ := hended.last
  obtain ⟨d, hd⟩ := @centroidsAfter_ok F _ _ _ _ _ _ _ _ _ _ lib n params.k p hsquared params.one_le_k hkn c
    (s.iterations - 1)
  obtain rfl := Except.ok.inj (hbefore.symm.trans hd)
  obtain ⟨_, b, round', hround', hrounded⟩ := @iteration_ok F _ _ _ _ _ _ _ _ _ _ lib n params.k p d hsquared
    params.one_le_k hkn
  obtain rfl := Except.ok.inj (hround.symm.trans hround')
  have hlast : s.iterations - 1 + 1 = s.iterations := by
    have hone := hended.bounds.1
    omega
  have hnext := centroidsAfter_succ hbefore hround
  rw [hlast, ← hafter] at hnext
  have hzip : (column params.k d).zip s.centroids = column params.k fun j => (d j, meanOf n p b j) := by
    rw [hafter, hrounded.centroids, column_zip]
  refine ⟨round.shift, hshift, ⟨?_, ⟨column params.k c, column params.k d, ?_⟩⟩⟩
  · rw [hparams, hiterations]
    exact hended.bounds
  · rw [hparams, hpoints, hiterations, hcentroids, hzip, hafter, hrounded.centroids]
    refine ⟨hinitial, hbefore, ?_, by rw [length_column, length_column], ?_, ?_⟩
    · rw [← hrounded.centroids, ← hafter]
      exact hnext
    · obtain ⟨j, hj, hfarthest⟩ := hrounded.farthest
      exact ⟨_, mem_column.mpr ⟨j, hj, rfl⟩, hfarthest⟩
    · intro pair hpair
      obtain ⟨j, hj, rfl⟩ := mem_column.mp hpair
      exact hrounded.shift j hj

theorem fitSorted_ok (hlib : Lawful lib) {ids : List K} (hordered : ids.Pairwise (· < ·)) (hids : ids.length = n)
    {params : KMeansParams F} (hkn : params.k ≤ n) :
    ∃ result, fitSorted lib ids (column n p) params = .ok result ∧
      FitRight lib ids (column n p) params result := by
  have hsquared := hlib.squared
  obtain ⟨c, hinitial⟩ := @initialCentroids_ok F _ _ _ _ _ _ _ _ _ _ lib n params.k p params.one_le_k hkn params.seed
  obtain ⟨left, hleft⟩ : ∃ left, params.maxIterations = left + 1 :=
    ⟨params.maxIterations - 1, by have := params.one_le_maxIterations; omega⟩
  obtain ⟨s, hrun, hended⟩ := @iterate_ok F _ _ _ _ _ _ _ _ _ _ lib n params.k p hsquared params.one_le_k hkn
    (column params.k c) params.tolerance left ⟨column params.k c, 0, none, 0⟩ c rfl rfl
  rw [Nat.zero_add, ← hleft] at hended
  obtain ⟨e, hcentroids⟩ := hended.centroids hsquared params.one_le_k hkn
  obtain ⟨a, hnearest, hlowest⟩ := @nearest_all F _ _ _ _ _ _ _ _ _ _ n params.k p e params.one_le_k
  obtain ⟨refill, b, hrefill, hassignments, hbelow, hmoves, hfull⟩ :=
    refill_ok hsquared hkn (fun i hi => (hlowest i hi).1) (p := p) (c := e)
  obtain ⟨silhouette, hsilhouette⟩ := @silhouetteOf_ok F _ _ _ _ _ _ _ _ _ _ lib n params.k p b hlib hkn hbelow hfull
    params.seed
  have hdistances : ∀ pair ∈ column n fun i => (p i, b i), ownDistance (column params.k e) pair =
      .ok (squared pair.1 (e pair.2)) := by
    intro pair hpair
    obtain ⟨i, hi, rfl⟩ := mem_column.mp hpair
    unfold ownDistance
    simp only [item_column (hbelow i hi), bind, Except.bind]
    rfl
  let result : KMeansFit K F := {
    params
    customerIds := ids
    points := column n p
    assignments := column n b
    centroids := column params.k e
    iterations := s.iterations
    converged := within params.tolerance s.shift
    stoppedOn := if within params.tolerance s.shift then "tolerance" else "iteration_limit"
    finalShift := s.shift
    emptyClusterEvents := s.events + refill.moved.length
    inertia := lib.fsum ((column n fun i => (p i, b i)).map fun pair => squared pair.1 (e pair.2))
    silhouette := silhouette.1
    clusterSizes := (column params.k (size n b)).insertionSort (· ≥ ·)
    silhouetteSample := silhouette.2 }
  have hok : fitSorted lib ids (column n p) params = .ok result := by
    unfold fitSorted
    rw [hleft]
    simp only [hinitial, hrun, hcentroids, hnearest, hrefill, hassignments, sizesOf_ok hbelow, zipStrict_ok,
      mapM_ok hdistances, hsilhouette, bind, Except.bind]
    rfl
  have hparams : result.params = params := rfl
  obtain ⟨shift, hshift, hmovement⟩ := lastMovement_ok hsquared hkn hinitial hended hparams rfl rfl hcentroids.symm
  refine ⟨result, hok, ⟨rfl, .rfl, hordered, ⟨?_, ?_⟩, ?_, ⟨?_, ?_, ?_⟩, ?_, ⟨shift, hshift, hmovement, ?_⟩⟩⟩
  · change (column n b).length = ids.length
    rw [length_column, hids]
  · intro cluster hcluster
    obtain ⟨i, hi, rfl⟩ := mem_column.mp hcluster
    exact hbelow i hi
  · intro cluster hcluster
    exact mem_column.mpr (size_pos.mp (hfull cluster hcluster))
  · refine (List.perm_insertionSort _ _).trans (.of_eq ?_)
    exact column_congr fun cluster _ => (filter_column cluster).symm
  · exact List.pairwise_insertionSort _ _
  · change ((column params.k (size n b)).insertionSort (· ≥ ·)).sum = ids.length
    rw [(List.perm_insertionSort _ _).sum_eq, sum_size hbelow, hids]
  · refine ⟨column n a, refill, hnearest, hrefill, hassignments, fun i hi point cluster hpoint hcluster => ?_⟩
    have hin : i < n := by
      by_contra hnot
      rw [List.getElem?_eq_none (by change (column n b).length ≤ i; rw [length_column]; omega)] at hcluster
      cases hcluster
    obtain rfl := Option.some.inj ((column_get hin).symm.trans hpoint)
    obtain rfl := Option.some.inj ((column_get hin).symm.trans hcluster)
    rw [hmoves.unmoved hi]
    exact lowestNearest_of_lowest (hlowest i hin)
  · change within params.tolerance s.shift = true ↔ _
    rw [hshift]
    exact decide_eq_true_iff

theorem sortBy_ordered {rows : List (K × Point F)} (hids : (rows.map Prod.fst).Nodup) :
    ((sortBy Prod.fst rows).map Prod.fst).Pairwise (· < ·) := by
  have hsorted : (sortBy Prod.fst rows).Pairwise fun a b => a.1 ≤ b.1 := List.pairwise_insertionSort _ _
  have hnodup : ((sortBy Prod.fst rows).map Prod.fst).Nodup :=
    ((perm_sortBy Prod.fst rows).map Prod.fst).nodup_iff.mpr hids
  have hle : ((sortBy Prod.fst rows).map Prod.fst).Pairwise (· ≤ ·) := List.pairwise_map.mpr hsorted
  exact (hle.and hnodup).imp fun h => lt_of_le_of_ne h.1 h.2

/-- **The fit.** Of at least `k` customers with distinct ids, each with a point, a fit ends without an error,
and what it returns is right. -/
theorem fit_postcondition (hlib : Lawful lib) {customerIds : List K} {points : List (Point F)}
    {params : KMeansParams F} (hids : customerIds.Nodup) (hlength : customerIds.length = points.length)
    (hk : params.k ≤ customerIds.length) :
    ∃ result, fit lib customerIds points params = .ok result ∧ FitRight lib customerIds points params result := by
  have hzip : (customerIds.zip points).length = customerIds.length := by
    rw [List.length_zip, ← hlength, Nat.min_self]
  have hfst : (customerIds.zip points).map Prod.fst = customerIds := List.map_fst_zip hlength.le
  have hperm := perm_sortBy Prod.fst (customerIds.zip points)
  have hsize : (sortBy Prod.fst (customerIds.zip points)).length = customerIds.length := hperm.length_eq.trans hzip
  have hordered : ((sortBy Prod.fst (customerIds.zip points)).map Prod.fst).Pairwise (· < ·) :=
    sortBy_ordered (by rw [hfst]; exact hids)
  obtain ⟨p, hp⟩ := exists_column ((0, 0, 0) : Point F) ((sortBy Prod.fst (customerIds.zip points)).map Prod.snd)
  rw [List.length_map, hsize] at hp
  obtain ⟨result, hok, hright⟩ := fitSorted_ok hlib hordered (n := customerIds.length) (p := p)
    (by rw [List.length_map, hsize]) hk
  refine ⟨result, ?_, ?_⟩
  · unfold fit
    simp only [if_neg (not_not.mpr hlength), if_neg (not_not.mpr hids), if_neg (Nat.not_lt.mpr hk), bind,
      Except.bind,
      hp]
    exact hok
  · rw [← hp] at hright
    refine { hright with customers := hright.customers.trans ?_, sizes := ?_ }
    · rw [List.zip_map']
      exact (List.Perm.of_eq (List.map_id _)).trans hperm
    · refine ⟨hright.sizes.1, hright.sizes.2.1, ?_⟩
      rw [hright.sizes.2.2, List.length_map, hsize]

end Fit

/-- Exact numbers, a generator that always returns one half, and the distance of points that differ in one
coordinate. -/
def halves : Library ℚ where
  random _ _ := 1 / 2
  sum := List.sum
  fsum := List.sum
  dist u v := |u.1 - v.1| + |u.2.1 - v.2.1| + |u.2.2 - v.2.2|
  truncate x := x.floor.toNat

theorem halves_lawful : Lawful halves where
  minus_one := by norm_num
  squared_nonneg u v := by
    unfold squared
    positivity
  random _ _ := by
    change (0 : ℚ) ≤ 1 / 2 ∧ (1 / 2 : ℚ) < 1
    norm_num
  truncate r m hr hlt hm := by
    have hpos : (0 : ℚ) < m := by exact_mod_cast hm
    have hproduct : r * m < m := by nlinarith
    change (r * (m : ℚ)).floor.toNat < m
    rw [Int.toNat_lt' (by omega), Rat.floor_lt_iff]
    exact_mod_cast hproduct

def twoClusters : KMeansParams ℚ := ⟨2, 7, 10, 0, Nat.le_succ 1, Nat.succ_le_succ (Nat.zero_le 9), le_rfl⟩

def threeClusters : KMeansParams ℚ :=
  ⟨3, 7, 10, 0, Nat.succ_le_succ (Nat.zero_le 2), Nat.succ_le_succ (Nat.zero_le 9), le_rfl⟩

/-- Three customers, two at one point: a cluster stays empty until the refill. -/
theorem fit_postcondition_coincident : ∃ result,
    fit halves [2, 1, 3] [(0, 0, 0), (0, 0, 0), (1, 0, 0)] threeClusters = .ok result ∧
      FitRight halves [2, 1, 3] [(0, 0, 0), (0, 0, 0), (1, 0, 0)] threeClusters result :=
  fit_postcondition halves_lawful (by decide) rfl le_rfl

end RetailSegmentation.KMeans
