import RetailSegmentation.KMeansPostcondition
import RetailSegmentation.SquaredDeviations

/-! Lloyd's descent in exact arithmetic, empty clusters and all. Between the nearest centroids and the means
stands a configuration in which a refilled cluster has its customer's own point for a centroid: it is no
farther from the customers than the nearest centroids, and the means are no farther than it. -/

set_option linter.unusedSectionVars false

namespace RetailSegmentation.KMeans

open Grouping Indexed Deviations

section Descent

variable {F : Type} [Field F] [LinearOrder F] [IsStrictOrderedRing F] {lib : Library F} {n k : ℕ}
  {p c : ℕ → Point F} {a b : ℕ → ℕ}

theorem squared_nonneg (u v : Point F) : 0 ≤ squared u v := by
  unfold squared
  positivity

theorem squared_self (u : Point F) : squared u u = 0 := by
  unfold squared
  simp

theorem squared_above (u v : Point F) : -1 < squared u v :=
  lt_of_lt_of_le (neg_lt_zero.mpr one_pos) (squared_nonneg u v)

/-- The squared distances of the customers from some centre of their own, added up. -/
def spread (n : ℕ) (p centre : ℕ → Point F) : F := ((List.range n).map fun i => squared (p i) (centre i)).sum

theorem spread_le {centre centre' : ℕ → Point F}
    (h : ∀ i < n, squared (p i) (centre i) ≤ squared (p i) (centre' i)) : spread n p centre ≤ spread n p centre' :=
  List.sum_le_sum fun i hi => h i (List.mem_range.mp hi)

/-! ### The refill -/

/-- However customers were moved, some centres are no farther from them than the centroids they were assigned
to. -/
theorem Moves.exists_target {moved : List ℕ} (h : Moves n a b moved) (c : ℕ → Point F) : ∃ target : ℕ → Point F,
    ∀ i < n, squared (p i) (target (b i)) ≤ squared (p i) (c (a i)) := by
  induction h with
  | none => exact ⟨c, fun i _ => le_rfl⟩
  | @move b moved donor empty _ _ _ hnone ih =>
      obtain ⟨target, htarget⟩ := ih
      -- the refilled cluster has its one customer's point for a centre
      refine ⟨Function.update target empty (p donor), fun i hi => ?_⟩
      by_cases hid : i = donor
      · rw [hid, Function.update_self, Function.update_self, squared_self]
        exact squared_nonneg _ _
      · have hne : b i ≠ empty := fun heq => by
          have hpos : 0 < size n b empty := size_pos.mpr ⟨i, hi, heq⟩
          omega
        rw [Function.update_of_ne hid, Function.update_of_ne hne]
        exact htarget i hi

/-! ### The means -/

theorem foldl_addTo (rows : List ℕ) (p : ℕ → Point F) (total : Point F) :
    rows.foldl (fun total i => addTo total (p i)) total = (total.1 + (rows.map fun i => (p i).1).sum,
      total.2.1 + (rows.map fun i => (p i).2.1).sum, total.2.2 + (rows.map fun i => (p i).2.2).sum) := by
  induction rows generalizing total with
  | nil => simp
  | cons row rows ih =>
      rw [List.foldl_cons, ih]
      simp only [List.map_cons, List.sum_cons, addTo, add_assoc]

theorem meanOf_eq (c : ℕ) : meanOf n p b c = (((clusterOf n b c).map fun i => (p i).1).sum / (clusterOf n b c).length,
    ((clusterOf n b c).map fun i => (p i).2.1).sum / (clusterOf n b c).length,
    ((clusterOf n b c).map fun i => (p i).2.2).sum / (clusterOf n b c).length) := by
  unfold meanOf sumOf
  rw [foldl_addTo]
  simp only [zero_add]
  rfl

/-- The distances of a cluster's customers from a point, added up, are the deviations in the three coordinates. -/
theorem sum_squared (rows : List ℕ) (p : ℕ → Point F) (centre : Point F) :
    (rows.map fun i => squared (p i) centre).sum = deviation rows (fun i => (p i).1) centre.1 +
      deviation rows (fun i => (p i).2.1) centre.2.1 + deviation rows (fun i => (p i).2.2) centre.2.2 := by
  unfold deviation squared
  rw [← List.sum_map_add, ← List.sum_map_add]

theorem cluster_mean_le {j : ℕ} (hfull : 0 < size n b j) (centre : Point F) :
    ((clusterOf n b j).map fun i => squared (p i) (meanOf n p b j)).sum ≤
      ((clusterOf n b j).map fun i => squared (p i) centre).sum := by
  rw [sum_squared, sum_squared, meanOf_eq]
  exact add_le_add (add_le_add (deviation_mean_le hfull _ _) (deviation_mean_le hfull _ _))
    (deviation_mean_le hfull _ _)

theorem spread_by_cluster (hbelow : ∀ i < n, b i < k) (centre : ℕ → Point F) : spread n p (fun i => centre (b i)) =
    ((List.range k).map fun j => ((clusterOf n b j).map fun i => squared (p i) (centre j)).sum).sum := by
  have hkeys : ∀ i ∈ List.range n, b i ∈ List.range k := fun i hi =>
    List.mem_range.mpr (hbelow i (List.mem_range.mp hi))
  have hsum := sum_by_key List.nodup_range hkeys fun i => squared (p i) (centre (b i))
  have hcluster : ∀ j ∈ List.range k, ((clusterOf n b j).map fun i => squared (p i) (centre (b i))).sum =
      ((clusterOf n b j).map fun i => squared (p i) (centre j)).sum := fun j _ =>
    congrArg List.sum (List.map_congr_left fun i hi => by rw [(mem_clusterOf.mp hi).2])
  unfold spread
  rw [← hsum]
  exact congrArg List.sum (List.map_congr_left hcluster)

theorem spread_means_le (hbelow : ∀ i < n, b i < k) (hfull : ∀ j < k, 0 < size n b j) (centre : ℕ → Point F) :
    spread n p (fun i => meanOf n p b (b i)) ≤ spread n p fun i => centre (b i) := by
  rw [spread_by_cluster hbelow, spread_by_cluster hbelow]
  exact List.sum_le_sum fun j hj => cluster_mean_le (hfull j (List.mem_range.mp hj)) (centre j)

/-! ### Two iterations -/

theorem spread_descends {a' b' : ℕ → ℕ} {round round' : Iteration F} (h : Rounded lib n k p c a b round)
    (h' : Rounded lib n k p (meanOf n p b) a' b' round') :
    spread n p (fun i => meanOf n p b' (b' i)) ≤ spread n p fun i => meanOf n p b (b i) := by
  obtain ⟨target, htarget⟩ := @Moves.exists_target F _ _ _ n p a' b' _ h'.moves (meanOf n p b)
  calc spread n p (fun i => meanOf n p b' (b' i))
      ≤ spread n p (fun i => target (b' i)) := spread_means_le h'.below h'.full target
    _ ≤ spread n p (fun i => meanOf n p b (a' i)) := spread_le htarget
    _ ≤ spread n p (fun i => meanOf n p b (b i)) := spread_le fun i hi => ((h'.nearest i hi).2 _ (h.below i hi)).1

/-- The squared distances of the customers from the updated centroid of their cluster, added up. -/
def withinSum (data : List (Point F)) (round : Iteration F) : F :=
  ((data.zip round.refill.assignments).map fun pair => squared pair.1 (round.centroids.getD pair.2 (0, 0, 0))).sum

theorem withinSum_eq {round : Iteration F} (h : Rounded lib n k p c a b round) :
    withinSum (column n p) round = spread n p fun i => meanOf n p b (b i) := by
  have hpair : ∀ i < n, squared (p i) ((column k (meanOf n p b)).getD (b i) (0, 0, 0)) =
      squared (p i) (meanOf n p b (b i)) := fun i hi => by
    rw [List.getD_eq_getElem?_getD, column_get (h.below i hi)]
    rfl
  unfold withinSum
  rw [h.assignments, h.centroids, column_zip, column_map, column_congr hpair]
  rfl

theorem withinSum_descends (hk : 0 < k) (hkn : k ≤ n) (c : ℕ → Point F) : ∃ round round',
    iteration lib (column n p) k (column k c) = .ok round ∧
      iteration lib (column n p) k round.centroids = .ok round' ∧
      withinSum (column n p) round' ≤ withinSum (column n p) round := by
  obtain ⟨_, b, round, hround, h⟩ := @iteration_ok F _ _ _ _ _ _ _ _ _ _ lib n k p c squared_above hk hkn
  obtain ⟨_, b', round', hround', h'⟩ := @iteration_ok F _ _ _ _ _ _ _ _ _ _ lib n k p (meanOf n p b) squared_above hk
    hkn
  refine ⟨round, round', hround, h.centroids ▸ hround', ?_⟩
  rw [withinSum_eq h, withinSum_eq h']
  exact spread_descends h h'

/-- **The descent.** In exact arithmetic no iteration of a fit leaves the customers farther from the updated
centroids of their clusters than the one before, whether or not clusters were refilled. -/
theorem lloyd_descent {K : Type} [LinearOrder K] {customerIds : List K} {points : List (Point F)}
    {params : KMeansParams F} {result : KMeansFit K F} (h : fit lib customerIds points params = .ok result) :
    ∃ initial, initialCentroids lib result.points params.k params.seed = .ok initial ∧
      centroidsAfter lib result.points params.k initial result.iterations = .ok result.centroids ∧
      ∀ t, t + 2 ≤ result.iterations → ∃ before round round',
        centroidsAfter lib result.points params.k initial t = .ok before ∧
        iteration lib result.points params.k before = .ok round ∧
        centroidsAfter lib result.points params.k initial (t + 1) = .ok round.centroids ∧
        iteration lib result.points params.k round.centroids = .ok round' ∧
        withinSum result.points round' ≤ withinSum result.points round := by
  obtain ⟨initial, s, hkn, hinitial, hrun, hiterations, hcentroids⟩ := fit_made h
  obtain ⟨p, hp⟩ := exists_column ((0, 0, 0) : Point F) result.points
  rw [hp] at hinitial hrun ⊢
  obtain ⟨c, hc⟩ := @initialCentroids_ok F _ _ _ _ _ _ _ _ _ _ lib _ params.k p params.one_le_k hkn params.seed
  obtain rfl := Except.ok.inj (hinitial.symm.trans hc)
  obtain ⟨left, hleft⟩ : ∃ left, params.maxIterations = left + 1 :=
    ⟨params.maxIterations - 1, by have := params.one_le_maxIterations; omega⟩
  obtain ⟨s', hrun', hended⟩ := @iterate_ok F _ _ _ _ _ _ _ _ _ _ lib _ params.k p squared_above params.one_le_k hkn
    (column params.k c) params.tolerance left ⟨column params.k c, 0, none, 0⟩ c rfl rfl
  rw [← hleft] at hrun'
  obtain rfl := Except.ok.inj (hrun.symm.trans hrun')
  refine ⟨_, hc, ?_, fun t _ => ?_⟩
  · obtain ⟨before, round, hbefore, hround, hafter, -⟩ := hended.last
    have hlast : s.iterations - 1 + 1 = s.iterations := by
      have hone := hended.bounds.1
      omega
    have hnext := centroidsAfter_succ hbefore hround
    rw [hiterations, hcentroids, hafter, ← hlast]
    exact hnext
  · obtain ⟨d, hd⟩ := @centroidsAfter_ok F _ _ _ _ _ _ _ _ _ _ lib _ params.k p squared_above params.one_le_k hkn c t
    obtain ⟨round, round', hround, hround', hle⟩ :=
      @withinSum_descends F _ _ _ lib _ params.k p params.one_le_k hkn d
    exact ⟨_, round, round', hd, hround, centroidsAfter_succ hd hround, hround', hle⟩

end Descent

def fiveOnALine : List (Point ℚ) := [(0, 0, 0), (1, 0, 0), (3, 0, 0), (4, 0, 0), (10, 0, 0)]

theorem lloyd_descent_line : ∃ result, fit halves [1, 2, 3, 4, 5] fiveOnALine twoClusters = .ok result ∧
    2 ≤ result.iterations ∧ ∃ initial, ∀ t, t + 2 ≤ result.iterations → ∃ before round round',
      centroidsAfter halves result.points 2 initial t = .ok before ∧
      iteration halves result.points 2 before = .ok round ∧
      iteration halves result.points 2 round.centroids = .ok round' ∧
      withinSum result.points round' ≤ withinSum result.points round := by
  have htwo : (fit halves [1, 2, 3, 4, 5] fiveOnALine twoClusters).toOption.any (2 ≤ ·.iterations) = true := by
    decide +kernel
  cases hfit : fit halves [1, 2, 3, 4, 5] fiveOnALine twoClusters with
  | error e =>
      rw [hfit] at htwo
      cases htwo
  | ok result =>
      obtain ⟨initial, -, -, hdescent⟩ := lloyd_descent hfit
      rw [hfit] at htwo
      refine ⟨result, rfl, of_decide_eq_true htwo, initial, fun t ht => ?_⟩
      obtain ⟨before, round, round', hbefore, hround, -, hround', hle⟩ := hdescent t ht
      exact ⟨before, round, round', hbefore, hround, hround', hle⟩

end RetailSegmentation.KMeans
