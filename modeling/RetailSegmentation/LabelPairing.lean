import RetailSegmentation.ClusterLabels
import RetailSegmentation.GroupedRows

/-! The pairing of the ranked clusters with the label vocabulary (`web/services/cluster_labels.py`): the clusters,
best first, and the labels, best first, are paired by proportional rank. -/

namespace RetailSegmentation.LabelPairing

open Grouping ClusterLabels

def mappingRule : String := "rank_proportional_endpoints_anchored"

/-- What a run records about its pairing. -/
structure Mapping where
  rule : String
  vocabularySize : ℕ
  labelsByRank : List String
  clustersPerLabel : Dict String ℕ
  sharedLabels : List String
  labelsWithoutCluster : List String
  deriving DecidableEq, Repr

def counter (labels : List String) : Dict String ℕ := tally id 0 (fun count _ => count + 1) labels

def describeMapping (k : ℕ) (vocabulary : List String) : Except LabelError Mapping := do
  let byRank ← labelsByRank k vocabulary
  let counts := counter byRank
  return {
    rule := mappingRule
    vocabularySize := vocabulary.length
    labelsByRank := byRank
    clustersPerLabel := .of vocabulary fun label => counts.at label 0
    sharedLabels := vocabulary.filter fun label => 1 < counts.at label 0
    labelsWithoutCluster := vocabulary.filter fun label => counts.at label 0 = 0 }

/-! ### The positions -/

section Positions

variable {rank rank' k size : ℕ}

theorem labelIndex_eq : labelIndex rank k size = (2 * rank * (size - 1) + (k - 1)) / (2 * (k - 1)) := rfl

theorem labelIndex_mono (h : rank ≤ rank') : labelIndex rank k size ≤ labelIndex rank' k size := by
  simp only [labelIndex_eq]
  gcongr

theorem labelIndex_zero (hk : minClusters ≤ k) : labelIndex 0 k size = 0 := by
  simp only [labelIndex_eq]
  rw [mul_zero, zero_mul, zero_add]
  exact Nat.div_eq_of_lt (by unfold minClusters at hk; omega)

theorem labelIndex_self (hk : minClusters ≤ k) (rank : ℕ) : labelIndex rank k k = rank := by
  have hpos : 0 < 2 * (k - 1) := by unfold minClusters at hk; omega
  simp only [labelIndex_eq]
  rw [show 2 * rank * (k - 1) + (k - 1) = (k - 1) + 2 * (k - 1) * rank by ring, Nat.add_mul_div_left _ _ hpos,
    Nat.div_eq_of_lt (by omega), zero_add]

theorem labelIndex_last (hk : minClusters ≤ k) : labelIndex (k - 1) k size = size - 1 := by
  have hpos : 0 < 2 * (k - 1) := by unfold minClusters at hk; omega
  simp only [labelIndex_eq]
  rw [show 2 * (k - 1) * (size - 1) + (k - 1) = (k - 1) + 2 * (k - 1) * (size - 1) by ring,
    Nat.add_mul_div_left _ _ hpos, Nat.div_eq_of_lt (by omega), zero_add]

theorem labelIndex_lt_succ (hk : minClusters ≤ k) (hle : k ≤ size) :
    labelIndex rank k size < labelIndex (rank + 1) k size := by
  have hpos : 0 < 2 * (k - 1) := by unfold minClusters at hk; omega
  have hspan : 2 * (k - 1) ≤ 2 * (size - 1) := by omega
  have hnext : 2 * (rank + 1) * (size - 1) = 2 * rank * (size - 1) + 2 * (size - 1) := by ring
  simp only [labelIndex_eq]
  calc (2 * rank * (size - 1) + (k - 1)) / (2 * (k - 1))
      < (2 * rank * (size - 1) + (k - 1)) / (2 * (k - 1)) + 1 := Nat.lt_succ_self _
    _ = (2 * rank * (size - 1) + (k - 1) + 2 * (k - 1)) / (2 * (k - 1)) := (Nat.add_div_right _ hpos).symm
    _ ≤ (2 * (rank + 1) * (size - 1) + (k - 1)) / (2 * (k - 1)) :=
        Nat.div_le_div_right (by omega)

theorem labelIndex_succ_le (hk : minClusters ≤ k) (hle : size ≤ k) :
    labelIndex (rank + 1) k size ≤ labelIndex rank k size + 1 := by
  have hpos : 0 < 2 * (k - 1) := by unfold minClusters at hk; omega
  have hspan : 2 * (size - 1) ≤ 2 * (k - 1) := by omega
  have hnext : 2 * (rank + 1) * (size - 1) = 2 * rank * (size - 1) + 2 * (size - 1) := by ring
  simp only [labelIndex_eq]
  calc (2 * (rank + 1) * (size - 1) + (k - 1)) / (2 * (k - 1))
      ≤ (2 * rank * (size - 1) + (k - 1) + 2 * (k - 1)) / (2 * (k - 1)) :=
        Nat.div_le_div_right (by omega)
    _ = (2 * rank * (size - 1) + (k - 1)) / (2 * (k - 1)) + 1 := Nat.add_div_right _ hpos

theorem labelIndex_injective (hk : minClusters ≤ k) (hle : k ≤ size) :
    Function.Injective fun rank => labelIndex rank k size :=
  StrictMono.injective (strictMono_nat_of_lt_succ fun rank => @labelIndex_lt_succ rank k size hk hle)

/-- What starts at 0 and never skips a position reaches every position up to its last. -/
theorem exists_labelIndex (hk : minClusters ≤ k) (hle : size ≤ k) {position : ℕ} (hposition : position < size) :
    ∃ rank < k, labelIndex rank k size = position := by
  have hlast : position ≤ labelIndex (k - 1) k size := by
    rw [labelIndex_last hk]
    omega
  have hex : ∃ rank, position ≤ labelIndex rank k size := ⟨k - 1, hlast⟩
  have hfirst := Nat.find_spec hex
  have hbound : Nat.find hex ≤ k - 1 := Nat.find_le hlast
  refine ⟨Nat.find hex, by unfold minClusters at hk; omega, le_antisymm ?_ hfirst⟩
  cases hrank : Nat.find hex with
  | zero =>
      rw [labelIndex_zero hk]
      exact Nat.zero_le _
  | succ rank =>
      have hbefore : ¬ position ≤ labelIndex rank k size := Nat.find_min hex (by omega)
      have hstep := @labelIndex_succ_le rank k size hk hle
      omega

end Positions

/-! ### The labels -/

section Labels

variable {k : ℕ} {vocabulary : List String}

/-- The number of clusters, of `k`, that take a label. -/
def takers (k : ℕ) (vocabulary : List String) (label : String) : ℕ :=
  ((List.range k).filter fun rank => vocabulary[labelIndex rank k vocabulary.length]? = some label).length

theorem labelsByRank_ok (hk : minClusters ≤ k) (hsome : vocabulary ≠ []) :
    labelsByRank k vocabulary =
      .ok ((List.range k).map fun rank => vocabulary.getD (labelIndex rank k vocabulary.length) "") := by
  have hcheck : checkVocabularySize k vocabulary = .ok () := by
    unfold checkVocabularySize
    rw [if_neg (by omega), if_neg hsome]
  unfold labelsByRank
  split
  case h_1 e herror =>
    rw [hcheck] at herror
    cases herror
  case h_2 =>
    refine congrArg Except.ok (List.ext_getElem (by simp) fun rank hrank _ => ?_)
    rw [List.length_ofFn] at hrank
    have hlt := labelIndex_lt hk hrank (List.length_pos_of_ne_nil hsome)
    rw [List.getElem_ofFn, List.getElem_map, List.getElem_range, List.getD_eq_getElem?_getD,
      List.getElem?_eq_getElem hlt]
    rfl

theorem counter_at (labels : List String) (label : String) :
    (counter labels).at label 0 = (labels.filter fun l => l = label).length := by
  unfold counter
  rw [at_tally, foldl_succ]
  exact Nat.zero_add _

theorem counter_labelsByRank (hk : minClusters ≤ k) (hsome : vocabulary ≠ []) (label : String) :
    (counter ((List.range k).map fun rank => vocabulary.getD (labelIndex rank k vocabulary.length) "")).at label 0 =
      takers k vocabulary label := by
  have hlabel : ∀ rank ∈ List.range k, decide (vocabulary.getD (labelIndex rank k vocabulary.length) "" = label) =
      decide (vocabulary[labelIndex rank k vocabulary.length]? = some label) := by
    intro rank hrank
    have hlt := labelIndex_lt hk (List.mem_range.mp hrank) (List.length_pos_of_ne_nil hsome)
    rw [List.getD_eq_getElem?_getD, List.getElem?_eq_getElem hlt]
    simp
  unfold takers
  rw [counter_at, List.filter_map, List.length_map]
  exact congrArg List.length (List.filter_congr hlabel)

theorem sum_takers (hk : minClusters ≤ k) (hsome : vocabulary ≠ []) (hdistinct : vocabulary.Nodup) :
    (vocabulary.map (takers k vocabulary)).sum = k := by
  have hmem : ∀ rank ∈ List.range k, vocabulary.getD (labelIndex rank k vocabulary.length) "" ∈ vocabulary := by
    intro rank hrank
    have hlt := labelIndex_lt hk (List.mem_range.mp hrank) (List.length_pos_of_ne_nil hsome)
    rw [List.getD_eq_getElem?_getD, List.getElem?_eq_getElem hlt]
    exact List.getElem_mem hlt
  have hcounts := sum_filter_key hdistinct hmem
  rw [List.length_range] at hcounts
  calc (vocabulary.map (takers k vocabulary)).sum
      = (vocabulary.map fun label => (counter ((List.range k).map fun rank =>
          vocabulary.getD (labelIndex rank k vocabulary.length) "")).at label 0).sum := by
        simp only [counter_labelsByRank hk hsome]
    _ = k := by
        simp only [counter_at, List.filter_map, List.length_map]
        exact hcounts

theorem describeMapping_ok (hk : minClusters ≤ k) (hsome : vocabulary ≠ []) (hdistinct : vocabulary.Nodup) :
    ∃ mapping, describeMapping k vocabulary = .ok mapping ∧
      mapping.clustersPerLabel = vocabulary.map (fun label => (label, takers k vocabulary label)) ∧
      mapping.sharedLabels = vocabulary.filter (fun label => 1 < takers k vocabulary label) ∧
      mapping.labelsWithoutCluster = vocabulary.filter fun label => takers k vocabulary label = 0 := by
  unfold describeMapping
  rw [labelsByRank_ok hk hsome]
  refine ⟨_, rfl, ?_, ?_, ?_⟩
  · simp only [counter_labelsByRank hk hsome]
    exact of_distinct hdistinct (takers k vocabulary)
  · exact List.filter_congr fun label _ => by rw [counter_labelsByRank hk hsome]
  · exact List.filter_congr fun label _ => by rw [counter_labelsByRank hk hsome]

/-- **The pairing.** Ranks and positions keep their order and their ends; no label is shared where there are
labels enough, and none is left over where there are clusters enough; and what is recorded counts every
cluster once. -/
theorem proportional_rank (hk : minClusters ≤ k) (hsome : vocabulary ≠ []) (hdistinct : vocabulary.Nodup) :
    (∀ rank rank', rank ≤ rank' → labelIndex rank k vocabulary.length ≤ labelIndex rank' k vocabulary.length) ∧
    labelIndex 0 k vocabulary.length = 0 ∧ labelIndex (k - 1) k vocabulary.length = vocabulary.length - 1 ∧
    (∀ rank < k, labelIndex rank k vocabulary.length < vocabulary.length) ∧
    (k ≤ vocabulary.length → ∀ rank < k, ∀ rank' < k,
      labelIndex rank k vocabulary.length = labelIndex rank' k vocabulary.length → rank = rank') ∧
    (vocabulary.length ≤ k → ∀ position < vocabulary.length,
      ∃ rank < k, labelIndex rank k vocabulary.length = position) ∧
    (k = vocabulary.length → ∀ rank, labelIndex rank k vocabulary.length = rank) ∧
    ∃ mapping, describeMapping k vocabulary = .ok mapping ∧
      mapping.clustersPerLabel = vocabulary.map (fun label => (label, takers k vocabulary label)) ∧
      (mapping.clustersPerLabel.map Prod.snd).sum = k ∧
      mapping.sharedLabels = vocabulary.filter (fun label => 1 < takers k vocabulary label) ∧
      mapping.labelsWithoutCluster = vocabulary.filter fun label => takers k vocabulary label = 0 := by
  refine ⟨fun _ _ => labelIndex_mono, labelIndex_zero hk, labelIndex_last hk, fun rank hrank => ?_,
    fun hle rank _ rank' _ h => labelIndex_injective hk hle h, fun hle position => exists_labelIndex hk hle,
    fun heq rank => ?_, ?_⟩
  · exact labelIndex_lt hk hrank (List.length_pos_of_ne_nil hsome)
  · rw [← heq]
    exact labelIndex_self hk rank
  · obtain ⟨mapping, hok, hcounts, hshared, hleft⟩ := describeMapping_ok hk hsome hdistinct
    refine ⟨mapping, hok, hcounts, ?_, hshared, hleft⟩
    rw [hcounts, List.map_map]
    exact sum_takers hk hsome hdistinct

theorem proportional_rank_three : labelIndex 1 3 5 = 2 ∧ ∃ mapping,
    describeMapping 3 ["a", "b", "c", "d", "e"] = .ok mapping ∧
      (mapping.clustersPerLabel.map Prod.snd).sum = 3 := by
  obtain ⟨-, -, -, -, -, -, -, mapping, hok, -, hsum, -⟩ :=
    @proportional_rank 3 ["a", "b", "c", "d", "e"] (by decide) (by decide) (by decide)
  exact ⟨rfl, mapping, hok, hsum⟩

end Labels
end RetailSegmentation.LabelPairing
