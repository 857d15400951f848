import Mathlib.Algebra.Order.Group.Nat
import Mathlib.Data.Finset.Card
import Mathlib.Data.List.Sort
import Mathlib.Order.Interval.Finset.Nat
import Mathlib.Tactic.Ring

/-! Values dealt in order to a number of tiles as equally as they go: `n` rows to `b` tiles, the first tiles
taking one of the rows left over each. Equal values share a tile when it is the distinct values that are
dealt. -/

namespace Tiling

/-! ### Tiles of places -/

/-- The tile, counted from 1, of the row in place `i` of `n`. -/
def ntile (b n i : ℕ) : ℕ :=
  if i < n % b * (n / b + 1) then i / (n / b + 1) + 1 else (i - n % b) / (n / b) + 1

/-- The place where the tile after the first `t` begins. -/
def tileStart (b n t : ℕ) : ℕ := t * (n / b) + min t (n % b)

def tileSize (b n tile : ℕ) : ℕ := n / b + if tile ≤ n % b then 1 else 0

variable {b n i j s t : ℕ}

theorem tileStart_succ : tileStart b n (t + 1) = tileStart b n t + tileSize b n (t + 1) := by
  have hmul : (t + 1) * (n / b) = t * (n / b) + n / b := by ring
  unfold tileStart tileSize
  split_ifs with h
  · omega
  · omega

theorem tileStart_mono (h : s ≤ t) : tileStart b n s ≤ tileStart b n t := by
  have hmul : s * (n / b) ≤ t * (n / b) := Nat.mul_le_mul_right _ h
  unfold tileStart
  omega

theorem tileStart_all (hb : 0 < b) : tileStart b n b = n := by
  have hlt := Nat.mod_lt n hb
  have hdiv := Nat.div_add_mod n b
  unfold tileStart
  omega

theorem ntile_bounds (hb : 0 < b) (hi : i < n) :
    ∃ t, ntile b n i = t + 1 ∧ tileStart b n t ≤ i ∧ i < tileStart b n (t + 1) := by
  have hlt := Nat.mod_lt n hb
  have hdiv := Nat.div_add_mod n b
  unfold ntile tileStart
  generalize n / b = q at *
  generalize n % b = r at *
  have hwide : r * (q + 1) = r * q + r := by ring
  split_ifs with hlong
  · -- among the tiles that take one row more
    have hdm := Nat.div_add_mod i (q + 1)
    have hmod : i % (q + 1) < q + 1 := Nat.mod_lt i (Nat.succ_pos q)
    have htile : i / (q + 1) < r := (Nat.div_lt_iff_lt_mul (Nat.succ_pos q)).mpr hlong
    refine ⟨_, rfl, ?_⟩
    generalize i / (q + 1) = d at *
    have hbefore : (q + 1) * d = d * q + d := by ring
    have hafter : (d + 1) * q = d * q + q := by ring
    omega
  · have hq : 0 < q := by
      rcases Nat.eq_zero_or_pos q with rfl | hq
      · omega
      · exact hq
    have hdm := Nat.div_add_mod (i - r) q
    have hmod := Nat.mod_lt (i - r) hq
    have htile : r ≤ (i - r) / q := (Nat.le_div_iff_mul_le hq).mpr (by omega)
    refine ⟨_, rfl, ?_⟩
    generalize (i - r) / q = d at *
    have hbefore : q * d = d * q := by ring
    have hafter : (d + 1) * q = d * q + q := by ring
    omega

theorem ntile_eq (hb : 0 < b) (hi : i < n) :
    ntile b n i = t + 1 ↔ tileStart b n t ≤ i ∧ i < tileStart b n (t + 1) := by
  obtain ⟨s, hs, hfrom, hto⟩ := ntile_bounds hb hi
  rw [hs, Nat.add_right_cancel_iff]
  refine ⟨fun h => h ▸ ⟨hfrom, hto⟩, fun h => ?_⟩
  rcases Nat.lt_trichotomy s t with hst | hst | hst
  · have hle : tileStart b n (s + 1) ≤ tileStart b n t := tileStart_mono hst
    omega
  · exact hst
  · have hle : tileStart b n (t + 1) ≤ tileStart b n s := tileStart_mono hst
    omega

theorem ntile_pos : 0 < ntile b n i := by
  unfold ntile
  split_ifs <;> exact Nat.succ_pos _

theorem ntile_le (hb : 0 < b) (hi : i < n) : ntile b n i ≤ b := by
  obtain ⟨t, ht, hfrom, -⟩ := ntile_bounds hb hi
  by_contra hlarge
  have hle : tileStart b n b ≤ tileStart b n t := tileStart_mono (by omega)
  rw [tileStart_all hb] at hle
  omega

theorem ntile_mono (hb : 0 < b) (hij : i ≤ j) (hj : j < n) : ntile b n i ≤ ntile b n j := by
  obtain ⟨s, hs, hfrom, -⟩ := ntile_bounds hb (Nat.lt_of_le_of_lt hij hj)
  obtain ⟨t, ht, -, hto⟩ := ntile_bounds hb hj
  by_contra hlarge
  have hle : tileStart b n (t + 1) ≤ tileStart b n s := tileStart_mono (by omega)
  omega

theorem card_tile (hb : 0 < b) (ht : t < b) :
    ((Finset.range n).filter fun i => ntile b n i = t + 1).card = tileSize b n (t + 1) := by
  have hend : tileStart b n (t + 1) ≤ n := by
    have hle : tileStart b n (t + 1) ≤ tileStart b n b := tileStart_mono ht
    rwa [tileStart_all hb] at hle
  have hplaces : (Finset.range n).filter (fun i => ntile b n i = t + 1) =
      Finset.Ico (tileStart b n t) (tileStart b n (t + 1)) := by
    ext i
    rw [Finset.mem_filter, Finset.mem_range, Finset.mem_Ico]
    constructor
    · exact fun h => (ntile_eq hb h.1).mp h.2
    · exact fun h => ⟨by omega, (ntile_eq hb (by omega)).mpr h⟩
  rw [hplaces, Nat.card_Ico, tileStart_succ, Nat.add_sub_cancel_left]

/-! ### Distinct values, best first -/

section Values

variable {α : Type} [LinearOrder α]

/-- The greatest first. -/
def descending (values : List α) : List α := values.insertionSort (· ≥ ·)

/-- The distinct values, the greatest first. -/
def ranked (values : List α) : List α := descending values.dedup

/-- How many of the distinct values are greater. -/
def place (values : List α) (v : α) : ℕ := (values.toFinset.filter (v < ·)).card

variable {values values' : List α} {u v : α}

theorem mem_ranked : v ∈ ranked values ↔ v ∈ values := by
  unfold ranked descending
  rw [List.mem_insertionSort, List.mem_dedup]

theorem ranked_sorted : (ranked values).Pairwise (· > ·) := by
  have hsorted : (ranked values).Pairwise (· ≥ ·) := List.pairwise_insertionSort _ _
  have hnodup : (ranked values).Nodup :=
    (List.perm_insertionSort _ _).nodup_iff.mpr (List.nodup_dedup values)
  exact (hsorted.and hnodup).imp fun h => lt_of_le_of_ne h.1 h.2.symm

theorem nodup_ranked : (ranked values).Nodup := ranked_sorted.imp fun h => ne_of_gt h

theorem length_ranked : (ranked values).length = values.toFinset.card := by
  unfold ranked descending
  rw [List.length_insertionSort, List.card_toFinset]

theorem place_lt (hv : v ∈ values) : place values v < values.toFinset.card := by
  refine Finset.card_lt_card (Finset.filter_ssubset.mpr ⟨v, List.mem_toFinset.mpr hv, lt_irrefl v⟩)

theorem place_anti (h : u ≤ v) : place values v ≤ place values u :=
  Finset.card_le_card (Finset.monotone_filter_right _ fun _ _ hlt => lt_of_le_of_lt h hlt)

omit [LinearOrder α] in
theorem filter_eq_nil_of_forall {l : List α} {p : α → Bool} (h : ∀ x ∈ l, p x = false) : l.filter p = [] :=
  List.filter_eq_nil_iff.mpr fun x hx hp => by rw [h x hx] at hp; cases hp

theorem idxOf_descending {l : List α} (hl : l.Pairwise (· > ·)) (hv : v ∈ l) :
    l.idxOf v = (l.filter (v < ·)).length := by
  induction l with
  | nil => cases hv
  | cons x l ih =>
      obtain ⟨hx, hl⟩ := List.pairwise_cons.mp hl
      by_cases heq : x = v
      · subst heq
        have hnone : (x :: l).filter (x < ·) = [] := filter_eq_nil_of_forall fun y hy => by
          obtain rfl | hy := List.mem_cons.mp hy
          · exact decide_eq_false (lt_irrefl y)
          · exact decide_eq_false (not_lt_of_gt (hx y hy))
        rw [hnone, List.idxOf_cons_self]
        rfl
      · have hmem : v ∈ l := (List.mem_cons.mp hv).resolve_left (Ne.symm heq)
        have hlt : v < x := hx v hmem
        rw [List.idxOf_cons_ne _ heq, ih hl hmem, List.filter_cons_of_pos (by simpa using hlt)]
        rfl

theorem idxOf_ranked (hv : v ∈ values) : (ranked values).idxOf v = place values v := by
  have hset : (ranked values).toFinset = values.toFinset := by
    ext x
    rw [List.mem_toFinset, List.mem_toFinset, mem_ranked]
  rw [idxOf_descending ranked_sorted (mem_ranked.mpr hv), place, ← hset]
  have hfilter : (ranked values).toFinset.filter (v < ·) = ((ranked values).filter (v < ·)).toFinset := by
    ext x
    simp
  rw [hfilter, List.toFinset_card_of_nodup (nodup_ranked.filter _)]

theorem mem_slice {i size : ℕ} (hv : v ∈ values) :
    v ∈ ((ranked values).drop i).take size ↔ i ≤ place values v ∧ place values v < i + size := by
  have hlt : (ranked values).idxOf v < (ranked values).length := List.idxOf_lt_length_of_mem (mem_ranked.mpr hv)
  rw [← idxOf_ranked hv]
  constructor
  · intro hmem
    obtain ⟨j, hj, hget⟩ := List.mem_iff_getElem.mp hmem
    rw [List.getElem_take, List.getElem_drop] at hget
    rw [List.length_take, List.length_drop] at hj
    have hidx : (ranked values).idxOf v = i + j := by
      rw [← hget]
      exact nodup_ranked.idxOf_getElem _ _
    omega
  · intro h
    refine List.mem_iff_getElem.mpr ⟨(ranked values).idxOf v - i, ?_, ?_⟩
    · rw [List.length_take, List.length_drop]
      omega
    · rw [List.getElem_take, List.getElem_drop]
      have hplace : i + ((ranked values).idxOf v - i) = (ranked values).idxOf v := by omega
      simp only [hplace]
      exact List.getElem_idxOf hlt

/-! ### Scores -/

variable {b : ℕ}

/-- `b` for the values of the first tile, 1 for those of the last. -/
def score (b : ℕ) (values : List α) (v : α) : ℕ := b + 1 - ntile b values.toFinset.card (place values v)

theorem score_bounds (hb : 0 < b) (hv : v ∈ values) : 1 ≤ score b values v ∧ score b values v ≤ b := by
  have hle := ntile_le hb (place_lt hv)
  have hpos := @ntile_pos b values.toFinset.card (place values v)
  unfold score
  omega

theorem score_mono (hb : 0 < b) (hu : u ∈ values) (h : u ≤ v) : score b values u ≤ score b values v :=
  Nat.sub_le_sub_left (ntile_mono hb (place_anti h) (place_lt hu)) _

theorem score_congr (h : ∀ x, x ∈ values ↔ x ∈ values') : score b values v = score b values' v := by
  have hset : values.toFinset = values'.toFinset := by
    ext x
    rw [List.mem_toFinset, List.mem_toFinset, h]
  unfold score place
  rw [hset]

theorem place_strictAnti (hv : v ∈ values) (h : u < v) : place values v < place values u := by
  refine Finset.card_lt_card ((Finset.ssubset_iff_of_subset ?_).mpr ⟨v, ?_, ?_⟩)
  · exact Finset.monotone_filter_right _ fun _ _ hlt => lt_trans h hlt
  · exact Finset.mem_filter.mpr ⟨List.mem_toFinset.mpr hv, h⟩
  · exact fun hmem => lt_irrefl v (Finset.mem_filter.mp hmem).2

theorem place_injOn : Set.InjOn (place values) values.toFinset := by
  intro u hu v hv h
  rcases lt_trichotomy u v with hlt | heq | hlt
  · exact absurd h (ne_of_gt (place_strictAnti (List.mem_toFinset.mp hv) hlt))
  · exact heq
  · exact absurd h (ne_of_lt (place_strictAnti (List.mem_toFinset.mp hu) hlt))

theorem image_place : values.toFinset.image (place values) = Finset.range values.toFinset.card := by
  refine Finset.eq_of_subset_of_card_le (Finset.image_subset_iff.mpr fun v hv => ?_) ?_
  · exact Finset.mem_range.mpr (place_lt (List.mem_toFinset.mp hv))
  · rw [Finset.card_image_of_injOn place_injOn, Finset.card_range]

theorem card_score (hb : 0 < b) {t : ℕ} (ht : t < b) :
    (values.toFinset.filter fun v => score b values v = b - t).card = tileSize b values.toFinset.card (t + 1) := by
  have hscore : ∀ v ∈ values.toFinset,
      score b values v = b - t ↔ ntile b values.toFinset.card (place values v) = t + 1 := by
    intro v hv
    have hle := ntile_le hb (place_lt (List.mem_toFinset.mp hv))
    have hpos := @ntile_pos b values.toFinset.card (place values v)
    unfold score
    omega
  rw [Finset.filter_congr hscore, ← card_tile hb ht, ← image_place, Finset.filter_image]
  exact (Finset.card_image_of_injOn (place_injOn.mono (Finset.coe_subset.mpr (Finset.filter_subset _ _)))).symm

theorem card_score_le (hb : 0 < b) {s s' : ℕ} (hs : 1 ≤ s ∧ s ≤ b) (hs' : 1 ≤ s' ∧ s' ≤ b) :
    (values.toFinset.filter fun v => score b values v = s).card ≤
      (values.toFinset.filter fun v => score b values v = s').card + 1 := by
  obtain ⟨t, ht, rfl⟩ : ∃ t < b, s = b - t := ⟨b - s, by omega, by omega⟩
  obtain ⟨t', ht', rfl⟩ : ∃ t' < b, s' = b - t' := ⟨b - s', by omega, by omega⟩
  rw [card_score hb ht, card_score hb ht']
  unfold tileSize
  split_ifs <;> omega

theorem score_map {β : Type} [LinearOrder β] {f : α → β} (hf : ∀ u ∈ values, ∀ v ∈ values, u < v → f u < f v)
    (hv : v ∈ values) : score b (values.map f) (f v) = score b values v := by
  have hmono : StrictMonoOn f values.toFinset := fun u hu w hw =>
    hf u (List.mem_toFinset.mp hu) w (List.mem_toFinset.mp hw)
  have hset : (values.map f).toFinset = values.toFinset.image f := by
    ext x
    simp
  have hgreater : ∀ w ∈ values.toFinset, f v < f w ↔ v < w := fun w hw =>
    hmono.lt_iff_lt (List.mem_toFinset.mpr hv) hw
  have hplace : place (values.map f) (f v) = place values v := by
    unfold place
    rw [hset, Finset.filter_image, Finset.filter_congr hgreater]
    exact Finset.card_image_of_injOn (hmono.injOn.mono (Finset.coe_subset.mpr (Finset.filter_subset _ _)))
  unfold score
  rw [hplace, hset, Finset.card_image_of_injOn hmono.injOn]

end Values
end Tiling
