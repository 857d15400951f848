import Mathlib.Data.List.FinRange
import Mathlib.Data.List.Sort
import Mathlib.Data.Prod.Lex
import Mathlib.Data.String.Basic
import Mathlib.GroupTheory.Perm.Basic

/-! From clusters to stable labels (`web/services/cluster_labels.py`). A centroid coordinate is any
linearly ordered type with a negation: the finite floats of a fit are one. `fsum` is `math.fsum` of
the three coordinates; nothing here depends on how it rounds. -/

namespace RetailSegmentation.ClusterLabels

/-- A finished fit with `k` clusters. `fit` refuses a customer who appears twice, and pairs every
customer with one cluster number below `k`. -/
structure KMeansFit (F : Type) (k : ℕ) where
  customerIds : List String
  assignments : List (Fin k)
  centroids : Fin k → F × F × F
  aligned : customerIds.length = assignments.length
  distinct : customerIds.Nodup

/-- What the labelling raises: `VocabularySizeMismatch` with its text, or the `ValueError` of the
smallest member of a cluster without members. -/
inductive LabelError where
  | vocabularySizeMismatch (message : String)
  | emptyCluster
  deriving DecidableEq, Repr

def minClusters : ℕ := 2

namespace KMeansFit

variable {F : Type} {k : ℕ} (result : KMeansFit F k)

/-- Each customer with the number of their cluster, in the order of the fit. -/
def pairs : List (String × Fin k) := result.customerIds.zip result.assignments

/-- The customers in one cluster, in the order of the fit. -/
def members (cluster : Fin k) : List String :=
  (result.pairs.filter fun pair => pair.2 = cluster).map Prod.fst

/-- The same fit with every cluster renumbered, centroids and assignments alike. -/
def renumber (π : Equiv.Perm (Fin k)) : KMeansFit F k where
  customerIds := result.customerIds
  assignments := result.assignments.map π
  centroids := fun cluster => result.centroids (π.symm cluster)
  aligned := by rw [List.length_map, result.aligned]
  distinct := result.distinct

theorem mem_members {cluster : Fin k} {customer : String} :
    customer ∈ result.members cluster ↔ (customer, cluster) ∈ result.pairs := by
  simp [members]

theorem pairs_keys : result.pairs.map Prod.fst = result.customerIds :=
  List.map_fst_zip (Nat.le_of_eq result.aligned)

theorem pairs_unique {customer : String} {c d : Fin k} (hc : (customer, c) ∈ result.pairs)
    (hd : (customer, d) ∈ result.pairs) : c = d := by
  have hnodup : (result.pairs.map Prod.fst).Nodup := by
    rw [pairs_keys]
    exact result.distinct
  have hsame := List.inj_on_of_nodup_map hnodup hc hd rfl
  exact congrArg Prod.snd hsame

theorem renumber_pairs (π : Equiv.Perm (Fin k)) :
    (result.renumber π).pairs = result.pairs.map (Prod.map id π) := by
  rw [pairs, pairs, renumber, List.zip_map_right]

theorem renumber_members (π : Equiv.Perm (Fin k)) (cluster : Fin k) :
    (result.renumber π).members (π cluster) = result.members cluster := by
  rw [members, members, renumber_pairs, List.filter_map, List.map_map]
  congr 1
  apply List.filter_congr
  intro pair _
  simp

variable {result} in
theorem renumber_full (hfull : ∀ cluster, result.members cluster ≠ []) (π : Equiv.Perm (Fin k))
    (cluster : Fin k) : (result.renumber π).members cluster ≠ [] := by
  have := hfull (π.symm cluster)
  rwa [← result.renumber_members π, π.apply_symm_apply] at this

end KMeansFit

section Ranking

variable {F : Type} [LinearOrder F] [Neg F] (fsum : F → F → F → F) {k : ℕ} (result : KMeansFit F k)

/-- Descending sum, then descending R, F and M, then the smallest customer id. -/
abbrev Key (F : Type) : Type := F ×ₗ F ×ₗ F ×ₗ F ×ₗ String

def orderKey (cluster : Fin k) (hfull : result.members cluster ≠ []) : Key F :=
  let (recency, frequency, monetary) := result.centroids cluster
  toLex (-fsum recency frequency monetary, toLex (-recency, toLex (-frequency, toLex (-monetary,
    (result.members cluster).min hfull))))

/-- Cluster numbers, best first. `sorted` computes every key, and the key of a cluster without
members raises. -/
def rankClusters : Except LabelError (List (Fin k)) :=
  if hfull : ∀ cluster, result.members cluster ≠ [] then
    .ok ((List.finRange k).insertionSort fun a b =>
      orderKey fsum result a (hfull a) ≤ orderKey fsum result b (hfull b))
  else .error .emptyCluster

/-- The vocabulary position of the cluster in position `rank` of `k`. -/
def labelIndex (rank k vocabularySize : ℕ) : ℕ :=
  let span := vocabularySize - 1
  (2 * rank * span + (k - 1)) / (2 * (k - 1))

theorem labelIndex_lt {rank k vocabularySize : ℕ} (hk : minClusters ≤ k) (hrank : rank < k)
    (hsize : 0 < vocabularySize) : labelIndex rank k vocabularySize < vocabularySize := by
  obtain ⟨n, rfl⟩ : ∃ n, k = n + 2 := ⟨k - 2, by unfold minClusters at hk; omega⟩
  obtain ⟨span, rfl⟩ : ∃ span, vocabularySize = span + 1 := ⟨vocabularySize - 1, by omega⟩
  have hmul : rank * span ≤ (n + 1) * span := Nat.mul_le_mul_right _ (by omega)
  apply Nat.div_lt_of_lt_mul
  change 2 * rank * span + (n + 1) < 2 * (n + 1) * (span + 1)
  rw [Nat.mul_assoc, Nat.mul_assoc, Nat.mul_succ]
  omega

def checkVocabularySize (k : ℕ) (vocabulary : List String) : Except LabelError Unit :=
  if k < minClusters then
    .error (.vocabularySizeMismatch
      s!"K-means was asked for k={k} clusters. It needs at least {minClusters}: a single cluster has no best-to-worst order to pair with the labels.")
  else if vocabulary = [] then
    .error (.vocabularySizeMismatch "The label vocabulary is empty.")
  else .ok ()

theorem checkVocabularySize_ok {k : ℕ} {vocabulary : List String}
    (h : checkVocabularySize k vocabulary = .ok ()) : minClusters ≤ k ∧ vocabulary ≠ [] := by
  unfold checkVocabularySize at h
  split_ifs at h with hk hempty
  exact ⟨Nat.le_of_not_lt hk, hempty⟩

/-- The label of each position in the best-to-worst order of `k` clusters. -/
def labelsByRank (k : ℕ) (vocabulary : List String) : Except LabelError (List String) :=
  match hcheck : checkVocabularySize k vocabulary with
  | .error e => .error e
  | .ok () =>
    let hsize := checkVocabularySize_ok hcheck
    .ok (List.ofFn fun rank : Fin k => vocabulary.get
      ⟨labelIndex rank k vocabulary.length,
        labelIndex_lt hsize.1 rank.isLt (List.length_pos_iff.mpr hsize.2)⟩)

/-- The label of every cluster, as the entries of a dictionary in insertion order. -/
def labelClusters (vocabulary : List String) : Except LabelError (List (Fin k × String)) := do
  let labels ← labelsByRank k vocabulary
  let ranked ← rankClusters fsum result
  return ranked.zip labels

/-- Each customer's label, by the label of the cluster they are in. -/
def labelPairs (vocabulary : List String) : Except LabelError (List (String × Option String)) := do
  let labels ← labelClusters fsum result vocabulary
  return result.pairs.map fun (customer, cluster) => (customer, labels.lookup cluster)

variable {result}

omit [LinearOrder F] in
theorem orderKey_min {cluster : Fin k} (hfull : result.members cluster ≠ []) :
    (ofLex (ofLex (ofLex (ofLex (orderKey fsum result cluster hfull)).2).2).2).2 =
      (result.members cluster).min hfull := rfl

omit [LinearOrder F] in
theorem orderKey_injective {c d : Fin k} (hc : result.members c ≠ []) (hd : result.members d ≠ [])
    (heq : orderKey fsum result c hc = orderKey fsum result d hd) : c = d := by
  have hmin : (result.members c).min hc = (result.members d).min hd := by
    rw [← orderKey_min fsum hc, ← orderKey_min fsum hd, heq]
  refine result.pairs_unique (?_ : ((result.members c).min hc, c) ∈ result.pairs) ?_
  · exact result.mem_members.mp (List.min_mem hc)
  · rw [hmin]
    exact result.mem_members.mp (List.min_mem hd)

omit [LinearOrder F] in
theorem orderKey_renumber (π : Equiv.Perm (Fin k)) (cluster : Fin k)
    (hfull : result.members cluster ≠ []) (hfull' : (result.renumber π).members (π cluster) ≠ []) :
    orderKey fsum (result.renumber π) (π cluster) hfull' = orderKey fsum result cluster hfull := by
  have hcentroid : (result.renumber π).centroids (π cluster) = result.centroids cluster := by
    simp [KMeansFit.renumber]
  simp only [orderKey, hcentroid, result.renumber_members π]

variable (hfull : ∀ cluster, result.members cluster ≠ [])

include hfull

theorem rankClusters_spec : ∃ ranked, rankClusters fsum result = .ok ranked ∧
    ranked.Perm (List.finRange k) ∧ ranked.Pairwise fun a b =>
      orderKey fsum result a (hfull a) < orderKey fsum result b (hfull b) := by
  refine ⟨_, dif_pos hfull, List.perm_insertionSort _ _, ?_⟩
  have hle := List.pairwise_insertionSort (fun a b : Fin k =>
    orderKey fsum result a (hfull a) ≤ orderKey fsum result b (hfull b)) (List.finRange k)
  have hnodup := (List.perm_insertionSort (fun a b : Fin k =>
    orderKey fsum result a (hfull a) ≤ orderKey fsum result b (hfull b))
    (List.finRange k)).nodup_iff.mpr (List.nodup_finRange k)
  refine (hle.and hnodup).imp fun ⟨hab, hne⟩ => ?_
  exact lt_of_le_of_ne hab fun heq => hne (orderKey_injective fsum _ _ heq)

theorem rankClusters_renumber (π : Equiv.Perm (Fin k)) :
    rankClusters fsum (result.renumber π) = (rankClusters fsum result).map (List.map π) := by
  obtain ⟨ranked, hranked, hperm, hsorted⟩ := rankClusters_spec fsum hfull
  obtain ⟨ranked', hranked', hperm', hsorted'⟩ :=
    rankClusters_spec fsum (KMeansFit.renumber_full hfull π)
  rw [hranked, hranked']
  refine congrArg Except.ok (List.Perm.eq_of_pairwise (fun a b _ _ hab hba => absurd hab (lt_asymm hba))
    hsorted' ?_ ?_)
  · rw [List.pairwise_map]
    refine hsorted.imp fun {a b} hab => ?_
    rw [orderKey_renumber fsum π a (hfull a), orderKey_renumber fsum π b (hfull b)]
    exact hab
  · have hall : ((List.finRange k).map π).Perm (List.finRange k) := by
      rw [List.perm_ext_iff_of_nodup ((List.nodup_finRange k).map π.injective)
        (List.nodup_finRange k)]
      intro cluster
      simp only [List.mem_map, List.mem_finRange, true_and, iff_true]
      exact ⟨π.symm cluster, π.apply_symm_apply cluster⟩
    exact hperm'.trans (hall.symm.trans (hperm.map π).symm)

omit hfull in
theorem lookup_zip_map (π : Equiv.Perm (Fin k)) (ranked : List (Fin k)) (labels : List String)
    (cluster : Fin k) :
    ((ranked.map π).zip labels).lookup (π cluster) = (ranked.zip labels).lookup cluster := by
  induction ranked generalizing labels with
  | nil => rfl
  | cons c ranked ih =>
      cases labels with
      | nil => rfl
      | cons label labels =>
          simp only [List.map_cons, List.zip_cons_cons, List.lookup_cons, ih]
          rw [show (π cluster == π c) = (cluster == c) from
            decide_eq_decide.mpr π.injective.eq_iff]

omit hfull in
theorem lookup_zip_isSome {ranked : List (Fin k)} {labels : List String} {cluster : Fin k}
    (hmem : cluster ∈ ranked) (hlength : ranked.length = labels.length) :
    ((ranked.zip labels).lookup cluster).isSome := by
  induction ranked generalizing labels with
  | nil => cases hmem
  | cons c ranked ih =>
      obtain _ | ⟨label, labels⟩ := labels
      · cases hlength
      rw [List.zip_cons_cons, List.lookup_cons]
      by_cases hc : cluster = c
      · simp [hc]
      · rw [beq_eq_false_iff_ne.mpr hc]
        exact ih ((List.mem_cons.mp hmem).resolve_left hc) (Nat.succ.inj hlength)

theorem labelPairs_isSome {vocabulary : List String} {labelled : List (String × Option String)}
    (hlabels : labelPairs fsum result vocabulary = .ok labelled) :
    ∀ entry ∈ labelled, entry.2.isSome := by
  obtain ⟨ranked, hranked, hperm, -⟩ := rankClusters_spec fsum hfull
  have hlength : ranked.length = k := by rw [hperm.length_eq, List.length_finRange]
  unfold labelPairs labelClusters labelsByRank at hlabels
  rw [hranked] at hlabels
  split at hlabels
  · cases hlabels
  · obtain rfl := Except.ok.inj hlabels
    rintro _ hentry
    obtain ⟨⟨customer, cluster⟩, -, rfl⟩ := List.mem_map.mp hentry
    apply lookup_zip_isSome (hperm.mem_iff.mpr (List.mem_finRange cluster))
    rw [hlength, List.length_ofFn]

/-- **Labels follow contents, not numbers.** Renumbering the clusters of a fit without an empty
cluster changes no customer's label, and no two clusters tie in the ranking. -/
theorem labelPairs_renumber (π : Equiv.Perm (Fin k)) (vocabulary : List String) :
    labelPairs fsum (result.renumber π) vocabulary = labelPairs fsum result vocabulary ∧
    (∃ ranked, rankClusters fsum result = .ok ranked ∧ ranked.Perm (List.finRange k) ∧
      ranked.Pairwise fun a b =>
        orderKey fsum result a (hfull a) < orderKey fsum result b (hfull b)) ∧
    ∀ a b, a ≠ b → orderKey fsum result a (hfull a) < orderKey fsum result b (hfull b) ∨
      orderKey fsum result b (hfull b) < orderKey fsum result a (hfull a) := by
  refine ⟨?_, rankClusters_spec fsum hfull, fun a b hab =>
    lt_or_gt_of_ne fun heq => hab (orderKey_injective fsum _ _ heq)⟩
  obtain ⟨ranked, hranked, -, -⟩ := rankClusters_spec fsum hfull
  have hranked' := rankClusters_renumber fsum hfull π
  rw [hranked] at hranked'
  unfold labelPairs labelClusters
  rw [hranked, hranked', result.renumber_pairs]
  cases labelsByRank k vocabulary with
  | error e => rfl
  | ok labels =>
      refine congrArg Except.ok ?_
      rw [List.map_map]
      apply List.map_congr_left
      rintro ⟨customer, cluster⟩ -
      exact congrArg (Prod.mk customer) (lookup_zip_map π ranked labels cluster)

end Ranking

/-- Two clusters with the same centroid: only their members tell them apart. -/
def tiedFit : KMeansFit ℤ 2 where
  customerIds := ["10", "9", "95"]
  assignments := [1, 0, 1]
  centroids := fun _ => (3, 2, 1)
  aligned := rfl
  distinct := by decide

theorem labelPairs_renumber_tied :
    labelPairs (fun r f m => r + f + m) (tiedFit.renumber (Equiv.swap 0 1)) ["Champions", "Lost"] =
      .ok [("10", some "Champions"), ("9", some "Lost"), ("95", some "Champions")] := by
  have htied : ∀ cluster, tiedFit.members cluster ≠ [] := by decide
  rw [(labelPairs_renumber (fun r f m => r + f + m) htied (Equiv.swap 0 1) _).1]
  decide

end RetailSegmentation.ClusterLabels
