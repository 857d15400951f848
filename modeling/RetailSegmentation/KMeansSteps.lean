import Mathlib.Data.Finset.Card
import RetailSegmentation.KMeans

/-! What the pieces of Lloyd's algorithm compute: the nearest centroid, the refill of empty clusters as a
sequence of moves, and the means of clusters of which none is empty. -/

set_option linter.unusedSectionVars false

namespace RetailSegmentation.KMeans

open Grouping Indexed

section Sizes

variable {n k : ℕ} {a : ℕ → ℕ}

def clusterOf (n : ℕ) (a : ℕ → ℕ) (c : ℕ) : List ℕ := (List.range n).filter fun i => a i = c

def size (n : ℕ) (a : ℕ → ℕ) (c : ℕ) : ℕ := (clusterOf n a c).length

theorem mem_clusterOf {c i : ℕ} : i ∈ clusterOf n a c ↔ i < n ∧ a i = c := by
  unfold clusterOf
  rw [List.mem_filter, List.mem_range, decide_eq_true_iff]

theorem size_pos {c : ℕ} : 0 < size n a c ↔ ∃ i < n, a i = c := by
  unfold size
  rw [List.length_pos_iff_exists_mem]
  simp only [mem_clusterOf]

theorem size_succ (c : ℕ) : size (n + 1) a c = size n a c + if a n = c then 1 else 0 := by
  unfold size clusterOf
  rw [List.range_succ, List.filter_append, List.length_append]
  by_cases h : a n = c
  · simp [h]
  · simp [h]

theorem size_congr {b : ℕ → ℕ} (h : ∀ i < n, a i = b i) (c : ℕ) : size n a c = size n b c := by
  unfold size clusterOf
  refine congrArg List.length (List.filter_congr fun i hi => ?_)
  rw [h i (List.mem_range.mp hi)]

theorem size_update {donor : ℕ} (hdonor : donor < n) (empty c : ℕ) :
    size n (Function.update a donor empty) c + (if a donor = c then 1 else 0) =
      size n a c + if empty = c then 1 else 0 := by
  induction n with
  | zero => exact absurd hdonor (Nat.not_lt_zero donor)
  | succ n ih =>
      rw [size_succ, size_succ]
      rcases Nat.lt_succ_iff_lt_or_eq.mp hdonor with hlt | rfl
      · have hne : n ≠ donor := by omega
        rw [Function.update_of_ne hne]
        have hsize := ih hlt
        omega
      · have hbefore : size donor (Function.update a donor empty) c = size donor a c :=
          size_congr (fun i hi => Function.update_of_ne (Nat.ne_of_lt hi) _ _) c
        rw [Function.update_self, hbefore]
        omega

/-- Where one of `k` clusters is empty, `k` customers or more cannot all be alone in theirs. -/
theorem exists_shared (hbelow : ∀ i < n, a i < k) (hkn : k ≤ n) {empty : ℕ} (hempty : empty < k)
    (hnone : size n a empty = 0) : ∃ i < n, 2 ≤ size n a (a i) := by
  have hcard : ((Finset.range k).erase empty).card < (Finset.range n).card := by
    rw [Finset.card_erase_of_mem (Finset.mem_range.mpr hempty), Finset.card_range, Finset.card_range]
    omega
  have hmaps : ∀ i ∈ Finset.range n, a i ∈ (Finset.range k).erase empty := fun i hi => by
    have hi := Finset.mem_range.mp hi
    refine Finset.mem_erase.mpr ⟨fun h => ?_, Finset.mem_range.mpr (hbelow i hi)⟩
    have hpos : 0 < size n a empty := size_pos.mpr ⟨i, hi, h⟩
    omega
  obtain ⟨i, hi, j, hj, hne, heq⟩ := Finset.exists_ne_map_eq_of_card_lt_of_maps_to hcard hmaps
  refine ⟨i, Finset.mem_range.mp hi, ?_⟩
  have hpair : [i, j].Subperm (clusterOf n a (a i)) := by
    refine List.subperm_of_subset (by simpa using hne) fun x hx => ?_
    rcases List.mem_cons.mp hx with rfl | hx
    · exact mem_clusterOf.mpr ⟨Finset.mem_range.mp hi, rfl⟩
    · obtain rfl := List.mem_singleton.mp hx
      exact mem_clusterOf.mpr ⟨Finset.mem_range.mp hj, heq.symm⟩
  exact hpair.length_le

end Sizes

/-! ### Moves -/

/-- What a refill may come to: a customer of a cluster of at least two moves to one that is empty, and so on. -/
inductive Moves (n : ℕ) (a : ℕ → ℕ) : (ℕ → ℕ) → List ℕ → Prop where
  | none : Moves n a a []
  | move {b : ℕ → ℕ} {moved : List ℕ} {donor empty : ℕ} : Moves n a b moved → donor < n → 2 ≤ size n b (b donor) →
      size n b empty = 0 → Moves n a (Function.update b donor empty) (moved ++ [donor])

theorem Moves.unmoved {n : ℕ} {a b : ℕ → ℕ} {moved : List ℕ} (h : Moves n a b moved) {i : ℕ} (hi : i ∉ moved) :
    b i = a i := by
  induction h with
  | none => rfl
  | move hmoves _ _ _ ih =>
      rw [List.mem_append, not_or, List.mem_singleton] at hi
      rw [Function.update_of_ne hi.2]
      exact ih hi.1

section Steps

variable {F : Type} [LinearOrder F] [Zero F] [One F] [Neg F] [Add F] [Sub F] [Mul F] [Div F] [NatCast F] [Pow F ℕ]
  {n k : ℕ} {p c : ℕ → Point F} {a : ℕ → ℕ}

/-! ### The nearest centroid -/

/-- The lowest-numbered of the nearest of `k` centroids. -/
def Lowest (point : Point F) (c : ℕ → Point F) (k b : ℕ) : Prop :=
  b < k ∧ ∀ i < k, squared point (c b) ≤ squared point (c i) ∧ (i < b → squared point (c b) < squared point (c i))

theorem nearest_ok (hk : 0 < k) (point : Point F) : ∃ b,
    nearest point (column k c) = .ok b ∧ Lowest point c k b := by
  obtain ⟨b, hb, hscan, hleast⟩ := scan_least (fun i => squared point (c i)) (k - 1)
  refine ⟨b, ?_, by omega, fun i hi => hleast i (by omega)⟩
  unfold nearest
  rw [item_column hk, column_zipIdx, column_drop]
  change Except.ok (List.foldl (nearer point) _ (column (k - 1) _)).1 = _
  rw [column_foldl]
  exact congrArg (fun best : ℕ × F => Except.ok best.1) hscan

theorem nearest_all (hk : 0 < k) : ∃ a : ℕ → ℕ,
    (column n p).mapM (fun point => nearest point (column k c)) = .ok (column n a) ∧ ∀ i < n,
      Lowest (p i) c k (a i) :=
  mapM_column 0 fun i _ => nearest_ok hk (p i)

/-! ### The refill -/

theorem sizesOf_ok (hbelow : ∀ i < n, a i < k) : sizesOf (column n a) k = .ok (column k (size n a)) := by
  have hrows : ∀ i ∈ List.range n, a i < k := fun i hi => hbelow i (List.mem_range.mp hi)
  have hcounts := @foldlM_adjustAt ℕ ℕ Raised .indexError k a (fun count _ => count + 1) _ hrows fun _ => 0
  have hsizes : ∀ c < k, ((List.range n).filter fun i => a i = c).foldl (fun count _ => count + 1) 0 = size n a c :=
    fun c _ => (foldl_succ _ 0).trans (Nat.zero_add _)
  unfold sizesOf
  rw [column_foldlM, replicate_column, hcounts, column_congr hsizes]

/-- The variables of a refill, of customers assigned as `a` says. -/
structure Represents (n k : ℕ) (s : Refill) (a : ℕ → ℕ) : Prop where
  sizes : s.sizes = column k (size n a)
  assignments : s.assignments = column n a
  below : ∀ i < n, a i < k

/-- The donor is the first of the farthest customers from their centroids in clusters of at least two. -/
theorem donor_ok (hsquared : ∀ u v : Point F, -1 < squared u v) (hbelow : ∀ i < n, a i < k)
    (hshared : ∃ i < n, 2 ≤ size n a (a i)) : ∃ donor < n, 2 ≤ size n a (a donor) ∧
      (column n a).zipIdx.foldlM (farther (column n p) (column k c) (column k (size n a))) (none, -1) =
        .ok (some donor, squared (p donor) (c (a donor))) ∧
      ∀ i < n, 2 ≤ size n a (a i) → squared (p i) (c (a i)) ≤ squared (p donor) (c (a donor)) ∧
        (i < donor → squared (p i) (c (a i)) < squared (p donor) (c (a donor))) := by
  have hround : ∀ i ∈ List.range n, ∀ best : Option ℕ × F,
      farther (column n p) (column k c) (column k (size n a)) best (a i, i) =
        .ok (if 2 ≤ size n a (a i) then
          (if best.2 < squared (p i) (c (a i)) then (some i, squared (p i) (c (a i))) else best) else best) := by
    intro i hi best
    have hi := List.mem_range.mp hi
    have hcluster := hbelow i hi
    unfold farther
    rw [item_column hcluster, item_column hcluster, item_column hi]
    by_cases hfew : size n a (a i) < 2
    · rw [if_neg (Nat.not_le.mpr hfew)]
      exact if_pos hfew
    · rw [if_pos (Nat.not_lt.mp hfew)]
      refine (if_neg hfew).trans ?_
      change (if best.2 < squared (p i) (c (a i)) then _ else _) = _
      split_ifs <;> rfl
  have hscan := @scan_greatest F _ (fun i => 2 ≤ size n a (a i)) _ (fun i => squared (p i) (c (a i))) (-1)
    (fun i => hsquared _ _) n
  obtain ⟨-, hnone⟩ | ⟨donor, hdonor, htwo, hscan, hfarthest⟩ := hscan
  · obtain ⟨i, hi, htwo⟩ := hshared
    exact absurd htwo (hnone i hi)
  · refine ⟨donor, hdonor, htwo, ?_, hfarthest⟩
    rw [column_zipIdx, column_foldlM, foldlM_ok hround]
    exact congrArg Except.ok hscan

theorem sizes_moved {donor empty : ℕ} (hdonor : donor < n) (htwo : 2 ≤ size n a (a donor))
    (hnone : size n a empty = 0)
    (c : ℕ) : Function.update (Function.update (size n a) (a donor) (size n a (a donor) - 1)) empty 1 c =
      size n (Function.update a donor empty) c := by
  have hmoved := size_update hdonor empty c (a := a)
  by_cases hempty : c = empty
  · subst hempty
    have hne : a donor ≠ c := fun h => by rw [h] at htwo; omega
    rw [Function.update_self]
    rw [if_neg hne, if_pos rfl] at hmoved
    omega
  · rw [Function.update_of_ne hempty]
    rw [if_neg (Ne.symm hempty)] at hmoved
    by_cases hcluster : c = a donor
    · subst hcluster
      rw [Function.update_self]
      rw [if_pos rfl] at hmoved
      omega
    · rw [Function.update_of_ne hcluster]
      rw [if_neg (Ne.symm hcluster)] at hmoved
      omega

theorem refillCluster_ok (hsquared : ∀ u v : Point F, -1 < squared u v) (hkn : k ≤ n) {s : Refill}
    (h : Represents n k s a) {empty : ℕ} (hempty : empty < k) : ∃ s' b,
      refillCluster (column n p) (column k c) s empty = .ok s' ∧ Represents n k s' b ∧ 0 < size n b empty ∧
        (∀ c, 0 < size n a c → 0 < size n b c) ∧ ∀ a₀, Moves n a₀ a s.moved → Moves n a₀ b s'.moved := by
  unfold refillCluster
  rw [h.sizes, h.assignments, item_column hempty]
  by_cases hnone : size n a empty = 0
  · obtain ⟨donor, hdonor, htwo, hscan, -⟩ :=
      donor_ok hsquared h.below (exists_shared h.below hkn hempty hnone) (p := p) (c := c)
    have hne : a donor ≠ empty := fun heq => by
      rw [heq, hnone] at htwo
      omega
    refine ⟨⟨column k (size n (Function.update a donor empty)), column n (Function.update a donor empty),
      s.moved ++ [donor]⟩, Function.update a donor empty, ?_, ⟨rfl, rfl, ?_⟩, ?_, ?_, ?_⟩
    · simp only [hscan, bind, Except.bind, if_neg (not_not.mpr hnone), Option.getD_some, item_column hdonor,
        adjustAt_column (h.below donor hdonor), adjustAt_column hempty, set_column,
        funext (sizes_moved hdonor htwo hnone)]
      rfl
    · intro i hi
      by_cases hid : i = donor
      · rw [hid, Function.update_self]
        exact hempty
      · rw [Function.update_of_ne hid]
        exact h.below i hi
    · exact size_pos.mpr ⟨donor, hdonor, Function.update_self ..⟩
    · intro c hc
      have hsize := @size_update n a donor hdonor empty c
      by_cases hcluster : a donor = c
      · subst hcluster
        rw [if_pos rfl] at hsize
        omega
      · rw [if_neg hcluster] at hsize
        omega
    · exact fun a₀ hmoves => hmoves.move hdonor htwo hnone
  · refine ⟨s, a, if_pos hnone, h, Nat.pos_of_ne_zero hnone, fun _ hc => hc, fun _ hm => hm⟩

theorem refill_ok (hsquared : ∀ u v : Point F, -1 < squared u v) (hkn : k ≤ n) (hbelow : ∀ i < n, a i < k) :
    ∃ refill b,
    refillEmptyClusters (column n p) (column n a) (column k c) = .ok refill ∧ refill.assignments = column n b ∧
      (∀ i < n, b i < k) ∧ Moves n a b refill.moved ∧ ∀ c < k, 0 < size n b c := by
  have hround : ∀ empty < k, ∀ s : Refill,
      (∃ b, Represents n k s b ∧ Moves n a b s.moved ∧ ∀ c < empty, 0 < size n b c) →
      ∃ s', refillCluster (column n p) (column k c) s empty = .ok s' ∧
        ∃ b, Represents n k s' b ∧ Moves n a b s'.moved ∧ ∀ c < empty + 1, 0 < size n b c := by
    rintro empty hempty s ⟨b, hrep, hmoves, hfull⟩
    obtain ⟨s', b', hrun, hrep', hfilled, hkept, hmoves'⟩ := refillCluster_ok hsquared hkn hrep hempty
    refine ⟨s', hrun, b', hrep', hmoves' a hmoves, fun c hc => ?_⟩
    rcases Nat.lt_succ_iff_lt_or_eq.mp hc with hc | rfl
    · exact hkept c (hfull c hc)
    · exact hfilled
  have hstart : ∃ b, Represents n k ⟨column k (size n a), column n a, []⟩ b ∧ Moves n a b [] ∧
      ∀ c < 0, 0 < size n b c := ⟨a, ⟨rfl, rfl, hbelow⟩, .none, fun c hc => absurd hc (Nat.not_lt_zero c)⟩
  obtain ⟨refill, hrun, b, hrep, hmoves, hfull⟩ := foldlM_range hround hstart
  refine ⟨refill, b, ?_, hrep.assignments, hrep.below, hmoves, hfull⟩
  unfold refillEmptyClusters
  rw [length_column, sizesOf_ok hbelow]
  exact hrun

/-! ### The means -/

def addTo (total point : Point F) : Point F := (total.1 + point.1, total.2.1 + point.2.1, total.2.2 + point.2.2)

def sumOf (n : ℕ) (p : ℕ → Point F) (a : ℕ → ℕ) (c : ℕ) : Point F :=
  (clusterOf n a c).foldl (fun total i => addTo total (p i)) (0, 0, 0)

def meanOf (n : ℕ) (p : ℕ → Point F) (a : ℕ → ℕ) (c : ℕ) : Point F :=
  ((sumOf n p a c).1 / (size n a c : F), (sumOf n p a c).2.1 / (size n a c : F),
    (sumOf n p a c).2.2 / (size n a c : F))

theorem zipStrict_ok {α β : Type} {f : ℕ → α} {g : ℕ → β} :
    zipStrict (column n f) (column n g) = .ok (column n fun i => (f i, g i)) := by
  unfold zipStrict
  rw [if_pos (by rw [length_column, length_column]), column_zip]
  rfl

theorem share_ok {x : F} {count : ℕ} (hcount : 0 < count) : share x count = .ok (x / (count : F)) :=
  if_neg (Nat.ne_of_gt hcount)

theorem means_ok (hbelow : ∀ i < n, a i < k) (hfull : ∀ c < k, 0 < size n a c) :
    means (column n p) (column n a) k = .ok (column k (meanOf n p a)) := by
  have hround : ∀ i ∈ List.range n, ∀ state : (ℕ → Point F) × (ℕ → ℕ),
      addPoint (column k state.1, column k state.2) (p i, a i) =
        .ok (column k (Function.update state.1 (a i) (addTo (state.1 (a i)) (p i))),
          column k (Function.update state.2 (a i) (state.2 (a i) + 1))) := by
    intro i hi state
    unfold addPoint
    simp only [adjustAt_column (hbelow i (List.mem_range.mp hi)), bind, Except.bind, pure, Except.pure]
    rfl
  have hrun := @foldlM_rep ℕ Raised _ _ (fun (state : List (Point F) × List ℕ) i => addPoint state (p i, a i))
    (fun state : (ℕ → Point F) × (ℕ → ℕ) => (column k state.1, column k state.2))
    (fun state i => (Function.update state.1 (a i) (addTo (state.1 (a i)) (p i)),
      Function.update state.2 (a i) (state.2 (a i) + 1))) _ hround (fun _ => (0, 0, 0), fun _ => 0)
  have hsums := foldl_update a (fun (total : Point F) i => addTo total (p i)) (List.range n) fun _ => (0, 0, 0)
  have hcounts := fun c => (foldl_update a (fun (count : ℕ) _ => count + 1) (List.range n) (fun _ => 0) c).trans
    ((foldl_succ _ 0).trans (Nat.zero_add _))
  have hentries : ∀ c < k, ((List.range n).foldl (fun g i => Function.update g (a i) (addTo (g (a i)) (p i)))
      (fun _ => (0, 0, 0)) c, (List.range n).foldl (fun g i => Function.update g (a i) (g (a i) + 1)) (fun _ => 0) c) =
        (sumOf n p a c, size n a c) := fun c _ => Prod.ext (hsums c) (hcounts c)
  have hmean : ∀ entry ∈ column k (fun c => (sumOf n p a c, size n a c)), mean entry =
      .ok (entry.1.1 / (entry.2 : F), entry.1.2.1 / (entry.2 : F), entry.1.2.2 / (entry.2 : F)) := by
    intro entry hentry
    obtain ⟨c, hc, rfl⟩ := mem_column.mp hentry
    have hshare : ∀ x : F, share x (size n a c) = .ok (x / (size n a c : F)) := fun x => share_ok (hfull c hc)
    unfold mean
    simp only [hshare, bind, Except.bind, pure, Except.pure]
  rw [foldl_both (fun (g : ℕ → Point F) i => Function.update g (a i) (addTo (g (a i)) (p i)))
    (fun (g : ℕ → ℕ) i => Function.update g (a i) (g (a i) + 1))] at hrun
  unfold means
  simp only [zipStrict_ok, column_foldlM, replicate_column, hrun, bind, Except.bind]
  rw [column_zip, column_congr hentries, mapM_ok hmean]
  exact congrArg Except.ok (column_map _)

end Steps
end RetailSegmentation.KMeans
