import Mathlib.Algebra.Order.Field.Rat
import RetailSegmentation.KMeansPostcondition

/-! The order in which customers arrive does not reach the result of a fit: what normalisation reads of all
rows does not depend on it, and the customers are sorted before anything else. -/

set_option linter.unusedSectionVars false

namespace RetailSegmentation.KMeans

open Grouping Indexed

section Order

variable {K M F : Type} [LinearOrder K] [LinearOrder F] [Zero F] [One F] [Neg F] [Add F] [Sub F] [Mul F] [Div F]
  [NatCast F] [Pow F ℕ] {lib : Library F}

/-! ### Normalisation -/

theorem greatest_perm {α : Type} [LinearOrder α] {values values' : List α} (h : values.Perm values') :
    greatest values = greatest values' := by
  by_cases hnil : values = []
  · rw [hnil] at h
    rw [hnil, h.nil_eq]
  · have hnil' : values' ≠ [] := fun hnil' => hnil (List.Perm.eq_nil (hnil' ▸ h))
    obtain ⟨x, hx, hmem, hall⟩ := greatest_ok hnil
    obtain ⟨x', hx', hmem', hall'⟩ := greatest_ok hnil'
    rw [hx, hx', le_antisymm (hall' x (h.mem_iff.mp hmem)) (hall x' (h.mem_iff.mpr hmem'))]

theorem least_perm {values values' : List F} (h : values.Perm values') : least values = least values' := by
  by_cases hnil : values = []
  · rw [hnil] at h
    rw [hnil, h.nil_eq]
  · have hnil' : values' ≠ [] := fun hnil' => hnil (List.Perm.eq_nil (hnil' ▸ h))
    obtain ⟨x, hx, hmem, hall⟩ := least_ok hnil
    obtain ⟨x', hx', hmem', hall'⟩ := least_ok hnil'
    rw [hx, hx', le_antisymm (hall x' (h.mem_iff.mpr hmem')) (hall' x (h.mem_iff.mp hmem))]

/-- Two computations over the same rows in two orders: both fail alike, or both take each row to the same. -/
def Alike {α β : Type} (rows rows' : List α) (x x' : Except Raised (List β)) : Prop :=
  (∃ e, x = .error e ∧ x' = .error e) ∨ ∃ g : α → β, x = .ok (rows.map g) ∧ x' = .ok (rows'.map g)

theorem quotients_alike {α : Type} {rows rows' : List α} (hrows : rows ≠ []) (hrows' : rows' ≠ [])
    (f : α → F) (y : F) :
    Alike rows rows' (rows.mapM fun row => quotient (f row) y) (rows'.mapM fun row => quotient (f row) y) := by
  by_cases hzero : y = 0
  · have hfails : ∀ rows : List α, rows ≠ [] →
        (rows.mapM fun row => quotient (f row) y) = .error .zeroDivisionError := by
      intro rows hrows
      cases rows with
      | nil => exact absurd rfl hrows
      | cons row rows =>
          have hrow : quotient (f row) y = .error .zeroDivisionError := if_pos hzero
          rw [List.mapM_cons, hrow]
          rfl
    exact .inl ⟨_, hfails rows hrows, hfails rows' hrows'⟩
  · have hrow : ∀ row, quotient (f row) y = .ok (f row / y) := fun row => if_neg hzero
    exact .inr ⟨fun row => f row / y, mapM_ok fun row _ => hrow row, mapM_ok fun row _ => hrow row⟩

theorem minMax_alike {α : Type} {rows rows' : List α} (h : rows.Perm rows') (hrows : rows ≠ []) (f : α → F)
    (reverse : Bool) : Alike rows rows' (minMax (rows.map f) reverse) (minMax (rows'.map f) reverse) := by
  have hrows' : rows' ≠ [] := fun hnil => hrows (List.Perm.eq_nil (hnil ▸ h))
  obtain ⟨low, hlow, -⟩ := least_ok (List.map_eq_nil_iff.not.mpr hrows : rows.map f ≠ [])
  obtain ⟨high, hhigh, -⟩ := greatest_ok (List.map_eq_nil_iff.not.mpr hrows : rows.map f ≠ [])
  have hlow' := (least_perm (h.map f)).symm.trans hlow
  have hhigh' := (greatest_perm (h.map f)).symm.trans hhigh
  unfold minMax
  simp only [hlow, hhigh, hlow', hhigh', bind, Except.bind, List.mapM_map, List.map_map]
  split_ifs
  · exact .inr ⟨fun _ => 0, rfl, rfl⟩
  · exact quotients_alike hrows hrows' _ _
  · exact quotients_alike hrows hrows' _ _

theorem normalise_alike (days float : ℤ → F) (amount : M → F) {rows rows' : List (RawRfm K M)}
    (h : rows.Perm rows') :
    Alike rows rows' (normalise days float amount rows) (normalise days float amount rows') := by
  by_cases hrows : rows = []
  · rw [hrows] at h ⊢
    rw [h.nil_eq.symm]
    exact .inr ⟨fun _ => (0, 0, 0), rfl, rfl⟩
  · have hrows' : rows' ≠ [] := fun hnil => hrows (List.Perm.eq_nil (hnil ▸ h))
    obtain ⟨latest, hlatest, -⟩ := greatest_ok (List.map_eq_nil_iff.not.mpr hrows :
      rows.map RawRfm.lastPurchaseAt ≠ [])
    have hlatest' := (greatest_perm (h.map RawRfm.lastPurchaseAt)).symm.trans hlatest
    unfold normalise
    simp only [if_neg hrows, if_neg hrows', hlatest, hlatest', bind, Except.bind]
    obtain ⟨e, he, he'⟩ | ⟨r, hr, hr'⟩ := minMax_alike h hrows (fun row => days (latest - row.lastPurchaseAt)) true
    · exact .inl ⟨e, by rw [he], by rw [he']⟩
    obtain ⟨e, he, he'⟩ | ⟨f, hf, hf'⟩ := minMax_alike h hrows (fun row => float row.frequency) false
    · exact .inl ⟨e, by rw [hr, he], by rw [hr', he']⟩
    obtain ⟨e, he, he'⟩ | ⟨m, hm, hm'⟩ := minMax_alike h hrows (fun row => amount row.monetary) false
    · exact .inl ⟨e, by rw [hr, hf, he], by rw [hr', hf', he']⟩
    refine .inr ⟨fun row => (r row, f row, m row), ?_, ?_⟩
    · rw [hr, hf, hm]
      simp only [List.zip_map']
      rfl
    · rw [hr', hf', hm']
      simp only [List.zip_map']
      rfl

/-! ### The fit -/

theorem fit_perm {α : Type} {rows rows' : List α} (h : rows.Perm rows') {id : α → K} (hids : (rows.map id).Nodup)
    (point : α → Point F) (params : KMeansParams F) :
    fit lib (rows.map id) (rows.map point) params = fit lib (rows'.map id) (rows'.map point) params := by
  have hids' : (rows'.map id).Nodup := (h.map id).nodup_iff.mp hids
  have hsorted : sortBy Prod.fst (rows.map fun row => (id row, point row)) =
      sortBy Prod.fst (rows'.map fun row => (id row, point row)) := by
    refine sortBy_perm (fun x hx y hy heq => ?_) (h.map _)
    obtain ⟨row, hrow, rfl⟩ := List.mem_map.mp hx
    obtain ⟨row', hrow', rfl⟩ := List.mem_map.mp hy
    rw [List.inj_on_of_nodup_map hids hrow hrow' heq]
  unfold fit
  simp only [List.zip_map', hsorted, List.length_map, h.length_eq, hids, hids']

/-- **Order independence.** Rows with distinct ids, in any order, have the same fit. -/
theorem fitCustomers_perm (days float : ℤ → F) (amount : M → F) {rows rows' : List (RawRfm K M)}
    (h : rows.Perm rows')
    (hids : (rows.map RawRfm.customerId).Nodup) (params : KMeansParams F) :
    fitCustomers lib days float amount rows params = fitCustomers lib days float amount rows' params := by
  unfold fitCustomers
  obtain ⟨e, he, he'⟩ | ⟨point, hpoint, hpoint'⟩ := normalise_alike days float amount h
  · rw [he, he']
    rfl
  · rw [hpoint, hpoint']
    exact fit_perm h hids point params

end Order

def threeRows : List (RawRfm ℕ ℤ) := [⟨2, 30, 1, 500⟩, ⟨1, 10, 4, 200⟩, ⟨3, 10, 4, 200⟩]

theorem fitCustomers_perm_three :
    fitCustomers halves (fun t => (t : ℚ)) (fun n => (n : ℚ)) (fun m : ℤ => (m : ℚ)) threeRows threeClusters =
      fitCustomers halves (fun t => (t : ℚ)) (fun n => (n : ℚ)) (fun m : ℤ => (m : ℚ)) threeRows.reverse threeClusters :=
  fitCustomers_perm _ _ _ threeRows.reverse_perm.symm (by decide) _

end RetailSegmentation.KMeans
