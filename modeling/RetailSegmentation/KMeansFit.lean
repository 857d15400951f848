import RetailSegmentation.KMeansSteps

/-! A fit ends without an error, whatever the generator returns, and leaves every customer in a cluster and no
cluster empty. -/

set_option linter.unusedSectionVars false

namespace RetailSegmentation.KMeans

open Grouping Indexed

/-! ### Loops without errors -/

section Loops

variable {α ε : Type} [LinearOrder α]

theorem foldl_max (value : α) (rest : List α) :
    rest.foldl max value ∈ value :: rest ∧ ∀ y ∈ value :: rest, y ≤ rest.foldl max value := by
  induction rest using List.reverseRecOn with
  | nil => exact ⟨List.mem_cons_self, fun y hy => (List.mem_singleton.mp hy).le⟩
  | append_singleton rest last ih =>
      obtain ⟨hmem, hall⟩ := ih
      rw [List.foldl_append, List.foldl_cons, List.foldl_nil, ← List.cons_append]
      refine ⟨?_, fun y hy => ?_⟩
      · rcases max_choice (rest.foldl max value) last with h | h
        · rw [h]
          exact List.mem_append_left _ hmem
        · rw [h]
          exact List.mem_append_right _ (List.mem_singleton_self last)
      · rcases List.mem_append.mp hy with hy | hy
        · exact (hall y hy).trans (le_max_left _ _)
        · exact (List.mem_singleton.mp hy).le.trans (le_max_right _ _)

theorem greatest_ok {values : List α} (h : values ≠ []) :
    ∃ x, greatest values = .ok x ∧ x ∈ values ∧ ∀ y ∈ values, y ≤ x := by
  cases values with
  | nil => exact absurd rfl h
  | cons value rest => exact ⟨_, rfl, foldl_max value rest⟩

theorem least_ok {values : List α} (h : values ≠ []) :
    ∃ x, least values = .ok x ∧ x ∈ values ∧ ∀ y ∈ values, x ≤ y := by
  cases values with
  | nil => exact absurd rfl h
  | cons value rest => exact ⟨_, rfl, @foldl_max αᵒᵈ _ value rest⟩

end Loops

section Fit

variable {F : Type} [LinearOrder F] [Zero F] [One F] [Neg F] [Add F] [Sub F] [Mul F] [Div F]
  [NatCast F] [Pow F ℕ] {lib : Library F} {n k : ℕ} {p c : ℕ → Point F}

/-- What is relied on of floats and of the generator. -/
structure Lawful (lib : Library F) : Prop where
  minus_one : (-1 : F) < 0
  squared_nonneg : ∀ u v : Point F, 0 ≤ squared u v
  random : ∀ seed i, 0 ≤ lib.random seed i ∧ lib.random seed i < 1
  truncate : ∀ (r : F) (m : ℕ), 0 ≤ r → r < 1 → 0 < m → lib.truncate (r * (m : F)) < m

theorem Lawful.squared (h : Lawful lib) (u v : Point F) : -1 < squared u v :=
  lt_of_lt_of_le h.minus_one (h.squared_nonneg u v)

theorem Lawful.index (h : Lawful lib) (seed : Seed) (i : ℕ) {m : ℕ} (hm : 0 < m) :
    lib.truncate (lib.random seed i * (m : F)) < m :=
  h.truncate _ m (h.random seed i).1 (h.random seed i).2 hm

/-! ### One iteration -/

/-- What an iteration from some centroids comes to. -/
structure Rounded (lib : Library F) (n k : ℕ) (p c : ℕ → Point F) (a b : ℕ → ℕ) (round : Iteration F) : Prop where
  nearest : ∀ i < n, Lowest (p i) c k (a i)
  moves : Moves n a b round.refill.moved
  assignments : round.refill.assignments = column n b
  below : ∀ i < n, b i < k
  full : ∀ j < k, 0 < size n b j
  centroids : round.centroids = column k (meanOf n p b)
  farthest : ∃ j < k, lib.dist (c j) (meanOf n p b j) = round.shift
  shift : ∀ j < k, lib.dist (c j) (meanOf n p b j) ≤ round.shift

theorem iteration_ok (hsquared : ∀ u v : Point F, -1 < squared u v) (hk : 0 < k) (hkn : k ≤ n) :
    ∃ a b round, iteration lib (column n p) k (column k c) = .ok round ∧ Rounded lib n k p c a b round := by
  obtain ⟨a, hnearest, hlowest⟩ := @nearest_all F _ _ _ _ _ _ _ _ _ _ n k p c hk
  obtain ⟨refill, b, hrefill, hassignments, hbelow, hmoves, hfull⟩ :=
    refill_ok hsquared hkn (fun i hi => (hlowest i hi).1) (p := p) (c := c)
  have hmeans := means_ok hbelow hfull (p := p)
  have hsome : column k (fun j => lib.dist (c j) (meanOf n p b j)) ≠ [] :=
    List.ne_nil_of_length_pos (by rw [length_column]; exact hk)
  obtain ⟨shift, hshift, hmem, hall⟩ := greatest_ok hsome
  obtain ⟨j, hj, hfarthest⟩ := mem_column.mp hmem
  refine ⟨a, b, ⟨refill, column k (meanOf n p b), shift⟩, ?_, hlowest, hmoves, hassignments, hbelow, hfull, rfl,
    ⟨j, hj, hfarthest⟩, fun j hj => hall _ (mem_column.mpr ⟨j, hj, rfl⟩)⟩
  unfold iteration
  simp only [hnearest, hrefill, hassignments, hmeans, zipStrict_ok, column_map, hshift, bind, Except.bind]
  rfl

def centroidsAfter (lib : Library F) (data : List (Point F)) (k : ℕ) (initial : List (Point F)) :
    ℕ → Except Raised (List (Point F))
  | 0 => return initial
  | t + 1 => do return (← iteration lib data k (← centroidsAfter lib data k initial t)).centroids

theorem centroidsAfter_succ {data initial centroids : List (Point F)} {t : ℕ} {round : Iteration F}
    (h : centroidsAfter lib data k initial t = .ok centroids) (hround : iteration lib data k centroids = .ok round) :
    centroidsAfter lib data k initial (t + 1) = .ok round.centroids := by
  unfold centroidsAfter
  simp only [h, hround, bind, Except.bind, pure, Except.pure]

theorem centroidsAfter_ok (hsquared : ∀ u v : Point F, -1 < squared u v) (hk : 0 < k) (hkn : k ≤ n)
    (c : ℕ → Point F)
    (t : ℕ) : ∃ d, centroidsAfter lib (column n p) k (column k c) t = .ok (column k d) := by
  induction t with
  | zero => exact ⟨c, rfl⟩
  | succ t ih =>
      obtain ⟨d, hd⟩ := ih
      obtain ⟨_, b, round, hround, hrounded⟩ := @iteration_ok F _ _ _ _ _ _ _ _ _ _ lib n k p d hsquared hk hkn
      exact ⟨meanOf n p b, (centroidsAfter_succ hd hround).trans (congrArg Except.ok hrounded.centroids)⟩

/-- How the loop ends: after an iteration that moved no centroid beyond the tolerance, or the last one. -/
structure Ended (lib : Library F) (data : List (Point F)) (k : ℕ) (initial : List (Point F))
    (tolerance : F) (most : ℕ)
    (s : Fitting F) : Prop where
  bounds : 1 ≤ s.iterations ∧ s.iterations ≤ most
  last : ∃ before round, centroidsAfter lib data k initial (s.iterations - 1) = .ok before ∧
    iteration lib data k before = .ok round ∧ s.centroids = round.centroids ∧ s.shift = some round.shift
  stopped : within tolerance s.shift = true ∨ s.iterations = most

theorem iterate_ok (hsquared : ∀ u v : Point F, -1 < squared u v) (hk : 0 < k) (hkn : k ≤ n)
    {initial : List (Point F)}
    (tolerance : F) (left : ℕ) {s : Fitting F} {c : ℕ → Point F} (hcentroids : s.centroids = column k c)
    (hafter : centroidsAfter lib (column n p) k initial s.iterations = .ok s.centroids) :
    ∃ s', iterate lib (column n p) k tolerance (left + 1) s = .ok s' ∧
      Ended lib (column n p) k initial tolerance (s.iterations + left + 1) s' := by
  induction left generalizing s c with
  | zero =>
      obtain ⟨_, b, round, hround, hrounded⟩ := @iteration_ok F _ _ _ _ _ _ _ _ _ _ lib n k p c hsquared hk hkn
      refine ⟨⟨round.centroids, s.events + round.refill.moved.length, some round.shift, s.iterations + 1⟩, ?_,
        ⟨⟨Nat.le_add_left 1 _, le_rfl⟩, ⟨_, round, hafter, hcentroids ▸ hround, rfl, rfl⟩, .inr rfl⟩⟩
      unfold iterate
      simp only [hcentroids, hround, bind, Except.bind]
      split_ifs <;> rfl
  | succ left ih =>
      obtain ⟨_, b, round, hround, hrounded⟩ := @iteration_ok F _ _ _ _ _ _ _ _ _ _ lib n k p c hsquared hk hkn
      by_cases hwithin : within tolerance (some round.shift) = true
      · refine ⟨⟨round.centroids, s.events + round.refill.moved.length, some round.shift, s.iterations + 1⟩, ?_,
          ⟨⟨Nat.le_add_left 1 _, by change s.iterations + 1 ≤ _; omega⟩,
            ⟨_, round, hafter, hcentroids ▸ hround, rfl, rfl⟩, .inl hwithin⟩⟩
        unfold iterate
        simp only [hcentroids, hround, bind, Except.bind, if_pos hwithin]
        rfl
      · have hnext := centroidsAfter_succ hafter (hcentroids ▸ hround)
        obtain ⟨s', hs', hended⟩ := @ih ⟨round.centroids, s.events + round.refill.moved.length, some round.shift,
          s.iterations + 1⟩ _ hrounded.centroids hnext
        refine ⟨s', ?_, ?_⟩
        · rw [iterate]
          simp only [hcentroids, hround, bind, Except.bind, if_neg hwithin]
          exact hs'
        · have hmost : s.iterations + (left + 1) + 1 = s.iterations + 1 + left + 1 := by omega
          rw [hmost]
          exact hended

/-! ### The first centroids -/

theorem pickFrom_lt {target : F} {entries : List (F × ℕ)} (h : ∀ entry ∈ entries, entry.2 < n) {running : F}
    {pick : Option ℕ} (hpick : ∀ i ∈ pick, i < n) : ∀ i ∈ pickFrom target entries running pick, i < n := by
  induction entries generalizing running pick with
  | nil => exact hpick
  | cons entry entries ih =>
      have hhead : ∀ i ∈ some entry.2, i < n := fun i hi => by
        obtain rfl := Option.some.inj hi
        exact h entry List.mem_cons_self
      have hrest : ∀ entry ∈ entries, entry.2 < n := fun entry hentry => h entry (List.mem_cons_of_mem _ hentry)
      unfold pickFrom
      split_ifs
      · exact ih hrest hpick
      · exact hhead
      · exact ih hrest hhead

theorem exists_unchosen {chosen : List (Option ℕ)} (h : chosen.length < n) :
    ∃ i, (List.range n).find? (fun index => some index ∉ chosen) = some i ∧ i < n := by
  cases hfind : (List.range n).find? fun index => some index ∉ chosen with
  | some i => exact ⟨i, rfl, List.mem_range.mp (List.mem_of_find?_eq_some hfind)⟩
  | none =>
      have hall : ∀ x ∈ (List.range n).map some, x ∈ chosen := by
        intro x hx
        obtain ⟨i, hi, rfl⟩ := List.mem_map.mp hx
        have hnot := List.find?_eq_none.mp hfind i hi
        simpa using hnot
      have hnodup : ((List.range n).map some).Nodup := List.nodup_range.map (Option.some_injective ℕ)
      have hle := (List.subperm_of_subset hnodup hall).length_le
      rw [List.length_map, List.length_range] at hle
      omega

/-- What the loop that chooses the centres keeps: after `t` rounds, one centre more than rounds. -/
structure Seeded (n t : ℕ) (s : Seeding F) : Prop where
  chosen : s.chosen.length ≤ t + 1
  centres : s.centres.length = t + 1
  nearest : s.nearestSquared.length = n

theorem nextPick_ok {seed : ℤ} {t : ℕ} {s : Seeding F} (h : Seeded n t s) (ht : t + 1 < n) :
    ∃ pick draws, nextPick lib seed n s = .ok (pick, draws) ∧ ∀ i ∈ pick, i < n := by
  unfold nextPick
  by_cases htotal : 0 < lib.sum s.nearestSquared
  · refine ⟨_, _, if_pos htotal, pickFrom_lt (fun entry hentry => ?_) fun i hi => absurd hi (Option.not_mem_none i)⟩
    have hindex := List.snd_lt_of_mem_zipIdx hentry
    rw [h.nearest] at hindex
    simpa using hindex
  · obtain ⟨i, hi, hlt⟩ := exists_unchosen (Nat.lt_of_le_of_lt h.chosen ht)
    refine ⟨some i, s.draws, (if_neg htotal).trans (by rw [hi]; rfl), fun j hj => ?_⟩
    obtain rfl := Option.some.inj hj
    exact hlt

theorem addCentre_ok {seed : ℤ} {t : ℕ} {s : Seeding F} (h : Seeded n t s) (ht : t + 1 < n) :
    ∃ s', addCentre lib (column n p) seed s = .ok s' ∧ Seeded n (t + 1) s' := by
  obtain ⟨pick, draws, hpick, hlt⟩ := @nextPick_ok F _ _ _ _ _ _ _ _ _ _ lib n seed t s h ht
  have hindex : pick.getD (n - 1) < n := by
    cases pick with
    | none =>
        change n - 1 < n
        omega
    | some i => exact hlt i rfl
  have hpairs : zipStrict s.nearestSquared (column n p) = .ok (s.nearestSquared.zip (column n p)) := by
    unfold zipStrict
    rw [if_pos (by rw [h.nearest, length_column])]
    rfl
  let next : Seeding F := ⟨draws, s.chosen.insert pick, s.centres ++ [p (pick.getD (n - 1))],
    (s.nearestSquared.zip (column n p)).map fun pair => min pair.1 (squared pair.2 (p (pick.getD (n - 1))))⟩
  refine ⟨next, ?_, ⟨?_, ?_, ?_⟩⟩
  · unfold addCentre
    simp only [length_column, hpick, item_column hindex, hpairs, bind, Except.bind]
    rfl
  · have hchosen := h.chosen
    change (s.chosen.insert pick).length ≤ t + 2
    rw [List.length_insert]
    split_ifs <;> omega
  · change (s.centres ++ [_]).length = _
    rw [List.length_append, h.centres]
    rfl
  · change ((s.nearestSquared.zip (column n p)).map _).length = n
    rw [List.length_map, List.length_zip, h.nearest, length_column, Nat.min_self]

theorem initialCentroids_ok (hk : 0 < k) (hkn : k ≤ n) (seed : ℤ) :
    ∃ c, initialCentroids lib (column n p) k seed = .ok (column k c) := by
  have hfirst : min (lib.truncate (lib.random (.number seed) 0 * (n : F))) (n - 1) < n :=
    Nat.lt_of_le_of_lt (Nat.min_le_right _ _) (by omega)
  have hround : ∀ t < k - 1, ∀ s : Seeding F, Seeded n t s →
      ∃ s', addCentre lib (column n p) seed s = .ok s' ∧ Seeded n (t + 1) s' :=
    fun t ht s hs => addCentre_ok hs (by omega)
  have hstart : ∀ i, Seeded n 0 (⟨1, [some i], [p i], (column n p).map fun point => squared point (p i)⟩ : Seeding F) :=
    fun i => ⟨le_rfl, rfl, by rw [List.length_map, length_column]⟩
  obtain ⟨s, hrun, hseeded⟩ := foldlM_range hround (hstart (min (lib.truncate
    (lib.random (.number seed) 0 * (n : F))) (n - 1)))
  obtain ⟨c, hc⟩ := exists_column ((0, 0, 0) : Point F) s.centres
  have hlength : s.centres.length = k := by
    rw [hseeded.centres]
    omega
  refine ⟨c, ?_⟩
  rw [hlength] at hc
  unfold initialCentroids
  simp only [length_column, item_column hfirst, hrun, bind, Except.bind, pure, Except.pure]
  exact congrArg Except.ok hc

/-! ### A finished fit -/

variable {K : Type} [LinearOrder K]

/-- What a fit that ended was made of: the first centroids and the iterations from them. -/
theorem fit_made {customerIds : List K} {points : List (Point F)} {params : KMeansParams F}
    {result : KMeansFit K F}
    (h : fit lib customerIds points params = .ok result) : ∃ initial s, params.k ≤ result.points.length ∧
      initialCentroids lib result.points params.k params.seed = .ok initial ∧
      iterate lib result.points params.k params.tolerance params.maxIterations ⟨initial, 0, none, 0⟩ = .ok s ∧
      result.iterations = s.iterations ∧ result.centroids = s.centroids := by
  unfold fit at h
  by_cases hlength : customerIds.length ≠ points.length
  · rw [if_pos hlength] at h
    cases h
  by_cases hids : ¬ customerIds.Nodup
  · rw [if_neg hlength, if_pos hids] at h
    cases h
  by_cases hk : customerIds.length < params.k
  · rw [if_neg hlength, if_neg hids, if_pos hk] at h
    cases h
  rw [if_neg hlength, if_neg hids, if_neg hk] at h
  obtain ⟨initial, hinitial, h⟩ := exists_of_bind h
  obtain ⟨s, hrun, h⟩ := exists_of_bind h
  obtain ⟨_, -, h⟩ := exists_of_bind h
  obtain ⟨_, -, h⟩ := exists_of_bind h
  obtain ⟨_, -, h⟩ := exists_of_bind h
  obtain ⟨_, -, h⟩ := exists_of_bind h
  obtain ⟨_, -, h⟩ := exists_of_bind h
  obtain ⟨_, -, h⟩ := exists_of_bind h
  obtain rfl := Except.ok.inj h
  refine ⟨initial, s, ?_, hinitial, hrun, rfl, rfl⟩
  change params.k ≤ ((sortBy Prod.fst (customerIds.zip points)).map Prod.snd).length
  rw [List.length_map, (perm_sortBy _ _).length_eq, List.length_zip, ← not_not.mp hlength, Nat.min_self]
  exact Nat.not_lt.mp hk

end Fit
end RetailSegmentation.KMeans
