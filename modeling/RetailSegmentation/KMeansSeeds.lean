import RetailSegmentation.KMeansPostcondition

/-! The first centroids are those of different customers, also where customers coincide: who is a centre
weighs nothing, and only a customer who weighs something, or whom no round chose, is picked. -/

set_option linter.unusedSectionVars false

namespace RetailSegmentation.KMeans

open Grouping Indexed

section Seeds

variable {F : Type} [LinearOrder F] [Zero F] [One F] [Neg F] [Add F] [Sub F] [Mul F] [Div F]
  [NatCast F] [Pow F ℕ] {lib : Library F} {points : List (Point F)}

/-- What is relied on of floats: a difference, a square and a sum of what is zero are zero. -/
structure ZeroLaws (lib : Library F) : Prop where
  sub_self : ∀ x : F, x - x = 0
  zero_sq : (0 : F) ^ 2 = 0
  zero_add : (0 : F) + 0 = 0
  sum : ∀ weights : List F, (∀ w ∈ weights, w ≤ 0) → lib.sum weights ≤ 0

theorem ZeroLaws.squared_self (h : ZeroLaws lib) (u : Point F) : squared u u = 0 := by
  unfold squared
  simp only [h.sub_self, h.zero_sq, h.zero_add]

/-- The rounds of the loop that chooses the centres, each with the customer it picked: `picks` are the customers so
far, none of them twice and none of them -1, and none of them weighs anything. -/
structure Distinct (points : List (Point F)) (s : Seeding F) (picks : List ℕ) : Prop where
  nodup : picks.Nodup
  below : ∀ i ∈ picks, i < points.length
  chosen : s.chosen = (picks.map some).reverse
  centres : s.centres.map some = picks.map (points[·]?)
  nearest : s.nearestSquared.length = points.length
  weights : ∀ i ∈ picks, ∀ w ∈ s.nearestSquared[i]?, w ≤ 0

/-! ### One pick -/

theorem pickFrom_positive {target running : F} {entries : List (F × ℕ)} {pick : Option ℕ} {i : ℕ}
    (h : pickFrom target entries running pick = some i) :
    pick = some i ∨ ∃ weight, (weight, i) ∈ entries ∧ 0 < weight := by
  induction entries generalizing running pick with
  | nil => exact .inl h
  | cons entry entries ih =>
      obtain ⟨weight, index⟩ := entry
      unfold pickFrom at h
      by_cases hweight : weight ≤ 0
      · rw [if_pos hweight] at h
        obtain hpick | ⟨w, hmem, hpos⟩ := ih h
        · exact .inl hpick
        · exact .inr ⟨w, List.mem_cons_of_mem _ hmem, hpos⟩
      · have hhere : index = i → ∃ w, (w, i) ∈ (weight, index) :: entries ∧ 0 < w := fun hindex =>
          ⟨weight, hindex ▸ List.mem_cons_self, not_le.mp hweight⟩
        rw [if_neg hweight] at h
        by_cases hreached : target ≤ running + weight
        · rw [if_pos hreached] at h
          exact .inr (hhere (Option.some.inj h))
        · rw [if_neg hreached] at h
          obtain hpick | ⟨w, hmem, hpos⟩ := ih h
          · exact .inr (hhere (Option.some.inj hpick))
          · exact .inr ⟨w, List.mem_cons_of_mem _ hmem, hpos⟩

theorem pickFrom_ne_none {target running : F} {entries : List (F × ℕ)} {pick : Option ℕ}
    (h : pick ≠ none ∨ ∃ entry ∈ entries, 0 < entry.1) : pickFrom target entries running pick ≠ none := by
  induction entries generalizing running pick with
  | nil =>
      obtain hpick | ⟨_, hmem, _⟩ := h
      · exact hpick
      · cases hmem
  | cons entry entries ih =>
      obtain ⟨weight, index⟩ := entry
      unfold pickFrom
      split_ifs with hweight hreached
      · refine ih (h.imp_right fun hpos => ?_)
        obtain ⟨entry, hmem, hpos⟩ := hpos
        obtain rfl | hmem := List.mem_cons.mp hmem
        · exact absurd hpos (not_lt.mpr hweight)
        · exact ⟨entry, hmem, hpos⟩
      · exact Option.some_ne_none index
      · exact ih (.inl (Option.some_ne_none index))

theorem nextPick_new (laws : ZeroLaws lib) (seed : ℤ) {s : Seeding F} {picks : List ℕ}
    (h : Distinct points s picks)
    (hlt : picks.length < points.length) :
    ∃ pick draws, nextPick lib seed points.length s = .ok (some pick, draws) ∧ pick < points.length ∧
      pick ∉ picks := by
  unfold nextPick
  by_cases htotal : 0 < lib.sum s.nearestSquared
  · obtain ⟨w, hw, hpos⟩ : ∃ w ∈ s.nearestSquared, 0 < w := by
      by_contra hnone
      exact absurd htotal (not_lt.mpr (laws.sum _ fun w hw => not_lt.mp fun hpos => hnone ⟨w, hw, hpos⟩))
    obtain ⟨j, hj, hget⟩ := List.mem_iff_getElem.mp hw
    have hentry : (w, j) ∈ s.nearestSquared.zipIdx :=
      List.mk_mem_zipIdx_iff_getElem?.mpr (List.getElem?_eq_some_iff.mpr ⟨hj, hget⟩)
    obtain ⟨pick, hpick⟩ := Option.ne_none_iff_exists'.mp
      (pickFrom_ne_none (.inr ⟨(w, j), hentry, hpos⟩) : pickFrom (lib.random (.number seed) s.draws *
        lib.sum s.nearestSquared) s.nearestSquared.zipIdx 0 none ≠ none)
    obtain hnone | ⟨weight, hmem, hweight⟩ := pickFrom_positive hpick
    · cases hnone
    · have hindex := List.mk_mem_zipIdx_iff_getElem?.mp hmem
      obtain ⟨hbelow, -⟩ := List.getElem?_eq_some_iff.mp hindex
      refine ⟨pick, s.draws + 1, ?_, h.nearest ▸ hbelow, fun hold => ?_⟩
      · rw [if_pos htotal, hpick]
        rfl
      · exact absurd hweight (not_lt.mpr (h.weights pick hold weight hindex))
  · have hlength : s.chosen.length < points.length := by
      rw [h.chosen, List.length_reverse, List.length_map]
      exact hlt
    obtain ⟨pick, hfind, hbelow⟩ := exists_unchosen hlength
    refine ⟨pick, s.draws, ?_, hbelow, fun hold => ?_⟩
    · rw [if_neg htotal, hfind]
      rfl
    · have hnot : some pick ∉ s.chosen := by simpa using List.find?_some hfind
      rw [h.chosen, List.mem_reverse] at hnot
      exact hnot (List.mem_map_of_mem hold)

/-! ### The rounds -/

theorem addCentre_new (laws : ZeroLaws lib) (seed : ℤ) {s : Seeding F} {picks : List ℕ}
    (h : Distinct points s picks)
    (hlt : picks.length < points.length) :
    ∃ s' pick, addCentre lib points seed s = .ok s' ∧ Distinct points s' (picks ++ [pick]) := by
  obtain ⟨pick, draws, hpick, hbelow, hnew⟩ := nextPick_new laws seed h hlt
  have hcentre : points[pick]? = some points[pick] := List.getElem?_eq_getElem hbelow
  have hitem : item Raised.indexError points pick = .ok points[pick] := by
    unfold item
    rw [hcentre]
    rfl
  have hpairs : zipStrict s.nearestSquared points = .ok (s.nearestSquared.zip points) := if_pos h.nearest
  refine ⟨⟨draws, s.chosen.insert (some pick), s.centres ++ [points[pick]],
    (s.nearestSquared.zip points).map fun pair => min pair.1 (squared pair.2 points[pick])⟩, pick, ?_, ?_⟩
  · unfold addCentre
    simp only [hpick, Option.getD_some, hitem, hpairs, bind, Except.bind]
    rfl
  · refine ⟨?_, ?_, ?_, ?_, ?_, ?_⟩
    · exact List.nodup_append.mpr ⟨h.nodup, List.nodup_singleton pick, fun i hi j hj hij =>
        hnew (List.mem_singleton.mp hj ▸ hij ▸ hi)⟩
    · intro i hi
      obtain hi | hi := List.mem_append.mp hi
      · exact h.below i hi
      · rwa [List.mem_singleton.mp hi]
    · have hnot : some pick ∉ s.chosen := by
        rw [h.chosen, List.mem_reverse]
        intro hmem
        obtain ⟨i, hi, hsome⟩ := List.mem_map.mp hmem
        exact hnew (Option.some.inj hsome ▸ hi)
      change s.chosen.insert (some pick) = _
      rw [List.insert_of_not_mem hnot, h.chosen, List.map_append, List.reverse_append]
      rfl
    · change (s.centres ++ [points[pick]]).map some = _
      rw [List.map_append, List.map_append, h.centres, List.map_singleton, List.map_singleton, hcentre]
    · change ((s.nearestSquared.zip points).map _).length = _
      rw [List.length_map, List.length_zip, h.nearest, Nat.min_self]
    · intro i hi w hw
      change ((s.nearestSquared.zip points).map _)[i]? = some w at hw
      rw [List.getElem?_map, Option.map_eq_some_iff] at hw
      obtain ⟨pair, hpair, rfl⟩ := hw
      obtain ⟨hweight, hpoint⟩ := List.getElem?_zip_eq_some.mp hpair
      obtain hi | hi := List.mem_append.mp hi
      · exact (min_le_left _ _).trans (h.weights i hi pair.1 hweight)
      · rw [List.mem_singleton.mp hi, hcentre] at hpoint
        rw [← Option.some.inj hpoint, laws.squared_self]
        exact min_le_right _ _

/-- The state of the loop after its first rounds. -/
def seedings (lib : Library F) (points : List (Point F)) (seed : ℤ) (rounds : ℕ) : Except Raised (Seeding F) := do
  let n := points.length
  let first := min (lib.truncate (lib.random (.number seed) 0 * (n : F))) (n - 1)
  let centre ← item Raised.indexError points first
  (List.range rounds).foldlM (fun s _ => addCentre lib points seed s)
    ⟨1, [some first], [centre], points.map fun point => squared point centre⟩

theorem bind_centres (run : Except Raised (Seeding F)) :
    (run >>= fun s => return s.centres) = run.map Seeding.centres := by
  cases run <;> rfl

theorem initialCentroids_eq (k : ℕ) (seed : ℤ) :
    initialCentroids lib points k seed = (seedings lib points seed (k - 1)).map Seeding.centres := by
  unfold initialCentroids seedings
  dsimp only
  cases item Raised.indexError points _ with
  | error e => rfl
  | ok centre => exact bind_centres _

theorem seedings_distinct (laws : ZeroLaws lib) (seed : ℤ) (rounds : ℕ) (hrounds : rounds < points.length) :
    ∃ s picks, seedings lib points seed rounds = .ok s ∧ picks.length = rounds + 1 ∧ Distinct points s picks := by
  have hfirst : min (lib.truncate (lib.random (.number seed) 0 * (points.length : F))) (points.length - 1) <
      points.length := Nat.lt_of_le_of_lt (Nat.min_le_right _ _) (by omega)
  unfold seedings
  dsimp only
  generalize min (lib.truncate (lib.random (.number seed) 0 * (points.length : F))) (points.length - 1) = first
    at hfirst ⊢
  have hcentre : points[first]? = some points[first] := List.getElem?_eq_getElem hfirst
  have hitem : item Raised.indexError points first = .ok points[first] := by
    unfold item
    rw [hcentre]
    rfl
  have hstart : Distinct points
      (⟨1, [some first], [points[first]], points.map fun point => squared point points[first]⟩ : Seeding F) [first] := by
    refine ⟨List.nodup_singleton first, ?_, rfl, ?_, List.length_map _, ?_⟩
    · intro i hi
      rwa [List.mem_singleton.mp hi]
    · rw [List.map_singleton, List.map_singleton, hcentre]
    · intro i hi w hw
      rw [List.mem_singleton.mp hi, List.getElem?_map, hcentre] at hw
      rw [← Option.some.inj hw]
      exact (laws.squared_self _).le
  have hround : ∀ t < rounds, ∀ s : Seeding F, (∃ picks, picks.length = t + 1 ∧ Distinct points s picks) →
      ∃ s', addCentre lib points seed s = .ok s' ∧ ∃ picks,
        picks.length = t + 1 + 1 ∧ Distinct points s' picks := by
    intro t ht s hs
    obtain ⟨picks, hlength, hdistinct⟩ := hs
    obtain ⟨s', pick, hadd, hnext⟩ := addCentre_new laws seed hdistinct (by omega)
    exact ⟨s', hadd, picks ++ [pick], by rw [List.length_append, hlength]; rfl, hnext⟩
  obtain ⟨s, hrun, picks, hlength, hdistinct⟩ := foldlM_range (P := fun t s =>
    ∃ picks, picks.length = t + 1 ∧ Distinct points s picks) hround ⟨[first], rfl, hstart⟩
  refine ⟨s, picks, ?_, hlength, hdistinct⟩
  rw [hitem]
  exact hrun

/-- **Seeding.** The `k` centres are the points of `k` different customers, and no round picks -1. -/
theorem initialCentroids_distinct (lib : Library F) (laws : ZeroLaws lib) (points : List (Point F))
    (k : ℕ) (seed : ℤ)
    (hk : 1 ≤ k) (hkn : k ≤ points.length) :
    ∃ s picks, seedings lib points seed (k - 1) = .ok s ∧
      initialCentroids lib points k seed = .ok s.centres ∧ picks.length = k ∧ Distinct points s picks := by
  have hrounds : k - 1 < points.length := by omega
  obtain ⟨s, picks, hrun, hlength, hdistinct⟩ := seedings_distinct laws seed (k - 1) hrounds
  refine ⟨s, picks, hrun, ?_, by omega, hdistinct⟩
  rw [initialCentroids_eq, hrun]
  rfl

end Seeds

theorem halves_zeroLaws : ZeroLaws halves where
  sub_self x := by simp
  zero_sq := by norm_num
  zero_add := by norm_num
  sum weights h := by
    induction weights with
    | nil => exact le_rfl
    | cons w weights ih =>
        obtain ⟨hw, hweights⟩ := List.forall_mem_cons.mp h
        exact add_nonpos hw (ih hweights)

/-- Three customers, two of them at one point. -/
theorem initialCentroids_coincident :
    ∃ s picks, seedings halves [(0, 0, 0), (0, 0, 0), (1, 0, 0)] 7 (3 - 1) = .ok s ∧
      initialCentroids halves [(0, 0, 0), (0, 0, 0), (1, 0, 0)] 3 7 = .ok s.centres ∧ picks.length = 3 ∧
      Distinct [(0, 0, 0), (0, 0, 0), (1, 0, 0)] s picks :=
  initialCentroids_distinct halves halves_zeroLaws [(0, 0, 0), (0, 0, 0), (1, 0, 0)] 3 7 (by decide) (by decide)

end RetailSegmentation.KMeans
