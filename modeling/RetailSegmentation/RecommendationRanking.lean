import RetailSegmentation.RecommendationWeb

/-! What the web's ranking recommends (`rank_candidates`): of the products it may recommend, the first by
their key, for reasons that are there exactly where their signals are. -/

namespace RetailSegmentation.Recommendations.Web

open Grouping Forest

section Known

variable (known : Known)

/-- The category directly above, as the hierarchy has it. -/
def Known.parentOf (category : ℤ) : Option ℤ := (known.categories.lookup category).bind CategoryRow.parentCategoryId

/-- The hierarchy is a tree: no category is above itself, and what is above one is a category. -/
structure Known.Tree : Prop where
  acyclic : Acyclic known.parentOf
  parents : ∀ c p, known.parentOf c = some p → p ∈ known.categories.keys

def Known.ancestors (category : ℤ) : List ℤ := (climb known.parentOf (known.categories.length + 1) category).getD []

def Known.likedCategory (product : StockedProduct) : Option ℤ :=
  nearest (known.ancestors product.categoryId) known.preferred

def Known.boughtCategory (product : StockedProduct) : Option ℤ :=
  nearest (known.ancestors product.categoryId) known.boughtCategories

def Known.nameOf (category : ℤ) : String := ((known.categories.lookup category).map CategoryRow.name).getD ""

def Known.placedText (product : StockedProduct) (matched : ℤ) : String :=
  if matched = product.categoryId then s!"In {product.categoryName}"
  else s!"In {product.categoryName}, part of {known.nameOf matched}"

def Known.sourceText (product : StockedProduct) (bought : ℤ) : String :=
  if bought = product.categoryId then s!"The customer bought from {product.categoryName}"
  else s!"{known.placedText product bought}; the customer bought from {known.nameOf bought}"

def Known.likedReasons (product : StockedProduct) : List Reason :=
  (known.likedCategory product).toList.map fun c =>
    ⟨.preferredCategory, preferredText (known.placedText product c)⟩

def Known.boughtReasons (product : StockedProduct) : List Reason :=
  (known.boughtCategory product).toList.map fun c => ⟨.purchaseHistory,
    historyText (known.sourceText product c) (known.history (some c)) known.totalPurchases known.windowDays⟩

def Known.reasonsOf (product : StockedProduct) : List Reason :=
  known.segmentReasons product ++ known.likedReasons product ++ known.boughtReasons product

def Known.keyOf (product : StockedProduct) : RankKey :=
  rankKey (known.reasonsOf product).length (known.buyers.at product.productId 0)
    (known.history (known.boughtCategory product)) product.productId

def Known.recommendation (product : StockedProduct) : Recommendation :=
  ⟨product.productId, product.name, product.categoryId, product.categoryName, product.quantityOnHand,
    known.reasonsOf product⟩

/-- A product that may be recommended and has a reason to be. -/
def Known.Eligible (product : StockedProduct) : Prop :=
  0 < product.quantityOnHand ∧ product.productId ∉ known.purchased ∧ known.reasonsOf product ≠ []

instance : DecidablePred known.Eligible := fun product => by unfold Known.Eligible; infer_instance

variable {known}

/-! ### One product -/

theorem ancestors_climb (htree : known.Tree) (c : ℤ) :
    climb known.parentOf (known.categories.length + 1) c = some (known.ancestors c) := by
  have hentries : ∀ x y, known.parentOf x = some y → x ∈ known.categories.keys := fun x y hxy => by
    by_contra hx
    unfold Known.parentOf at hxy
    rw [lookup_eq_none hx] at hxy
    cases hxy
  obtain ⟨chain, hchain⟩ := climb_ends (a := c) htree.acyclic fun x y _ => hentries x y
  have hlength : known.categories.keys.length = known.categories.length := List.length_map _
  rw [hlength] at hchain
  unfold Known.ancestors
  rw [hchain]
  rfl

theorem lineage_ok (htree : known.Tree) (c : ℤ) : known.lineage c = .ok (known.ancestors c) := by
  unfold Known.lineage
  have hparent : (fun c => (known.categories.lookup c).bind CategoryRow.parentCategoryId) = known.parentOf := rfl
  rw [hparent, ancestors_climb htree]
  rfl

theorem nearest_spec (htree : known.Tree) (c : ℤ) (matching : List ℤ) :
    IsNearest known.parentOf c (· ∈ matching) (nearest (known.ancestors c) matching) :=
  find_nearest (ancestors_climb htree c) (· ∈ matching)

theorem categoryName_ok (htree : known.Tree) {c x : ℤ} (hpath : Relation.ReflTransGen (Above known.parentOf) c x)
    (hne : x ≠ c) : known.categoryName x = .ok (known.nameOf x) := by
  obtain heq | ⟨y, -, hy⟩ := Relation.ReflTransGen.cases_tail hpath
  · exact absurd heq hne
  · obtain ⟨row, hrow⟩ := exists_lookup (htree.parents y x hy)
    unfold Known.categoryName Known.nameOf
    rw [hrow]
    rfl

theorem placed_ok (htree : known.Tree) {product : StockedProduct} {c : ℤ}
    (hpath : Relation.ReflTransGen (Above known.parentOf) product.categoryId c) :
    known.placed product c = .ok (known.placedText product c) := by
  unfold Known.placed Known.placedText
  by_cases heq : c = product.categoryId
  · simp only [if_pos heq]
    rfl
  · simp only [if_neg heq, categoryName_ok htree hpath heq, bind, Except.bind]
    rfl

theorem source_ok (htree : known.Tree) {product : StockedProduct} {c : ℤ}
    (hpath : Relation.ReflTransGen (Above known.parentOf) product.categoryId c) :
    known.source product c = .ok (known.sourceText product c) := by
  unfold Known.source Known.sourceText
  by_cases heq : c = product.categoryId
  · simp only [if_pos heq]
    rfl
  · simp only [if_neg heq, placed_ok htree hpath, categoryName_ok htree hpath heq, bind, Except.bind]
    rfl

theorem preferredReasons_ok (htree : known.Tree) (product : StockedProduct) :
    known.preferredReasons product (known.likedCategory product) = .ok (known.likedReasons product) := by
  have hspec := nearest_spec htree product.categoryId known.preferred
  unfold Known.likedReasons Known.likedCategory
  cases hfound : nearest (known.ancestors product.categoryId) known.preferred with
  | none => rfl
  | some c =>
      rw [hfound] at hspec
      simp only [Known.preferredReasons, placed_ok htree hspec.2.1, bind, Except.bind]
      rfl

theorem historyReasons_ok (htree : known.Tree) (product : StockedProduct) :
    known.historyReasons product (known.boughtCategory product) = .ok (known.boughtReasons product) := by
  have hspec := nearest_spec htree product.categoryId known.boughtCategories
  unfold Known.boughtReasons Known.boughtCategory
  cases hfound : nearest (known.ancestors product.categoryId) known.boughtCategories with
  | none => rfl
  | some c =>
      rw [hfound] at hspec
      simp only [Known.historyReasons, source_ok htree hspec.2.1, bind, Except.bind]
      rfl

theorem candidate_ok (htree : known.Tree) (product : StockedProduct) : known.candidate product =
    .ok (if known.Eligible product then some (known.keyOf product, known.recommendation product) else none) := by
  have hliked := preferredReasons_ok htree product
  have hbought := historyReasons_ok htree product
  unfold Known.candidate
  by_cases hout : product.quantityOnHand ≤ 0 ∨ product.productId ∈ known.purchased
  · have hnot : ¬ known.Eligible product := fun h =>
      hout.elim (fun hle => absurd h.1 (not_lt.mpr hle)) fun hmem => h.2.1 hmem
    rw [if_pos hout, if_neg hnot]
    rfl
  · have hreasons : known.segmentReasons product ++ known.likedReasons product ++ known.boughtReasons product =
        known.reasonsOf product := rfl
    have hlikedAt : nearest (known.ancestors product.categoryId) known.preferred = known.likedCategory product := rfl
    have hboughtAt : nearest (known.ancestors product.categoryId) known.boughtCategories =
        known.boughtCategory product := rfl
    obtain ⟨hquantity, hnew⟩ := not_or.mp hout
    simp only [if_neg hout, lineage_ok htree, bind, Except.bind, hlikedAt, hboughtAt, hliked, hbought, hreasons]
    by_cases hnone : known.reasonsOf product = []
    · rw [if_pos hnone, if_neg fun h => h.2.2 hnone]
      rfl
    · rw [if_neg hnone, if_pos ⟨not_le.mp hquantity, hnew, hnone⟩]
      rfl

/-! ### The ranking -/

/-- The reasons of a product are the three signals', each there at most once. -/
structure Known.Reasoned (known : Known) (product : StockedProduct) : Prop where
  liked : IsNearest known.parentOf product.categoryId (· ∈ known.preferred) (known.likedCategory product)
  bought : IsNearest known.parentOf product.categoryId (· ∈ known.boughtCategories) (known.boughtCategory product)
  segment : (∃ r ∈ known.reasonsOf product, r.signal = .segment) ↔ 1 ≤ known.buyers.at product.productId 0
  preferred : (known.reasonsOf product).filter (fun r => r.signal = .preferredCategory) = known.likedReasons product
  history : (known.reasonsOf product).filter (fun r => r.signal = .purchaseHistory) = known.boughtReasons product
  atMost : (known.reasonsOf product).length ≤ 3

theorem reasoned (htree : known.Tree) (product : StockedProduct) : known.Reasoned product := by
  have hliked : known.likedReasons product = [] ∨ ∃ text,
    known.likedReasons product = [⟨.preferredCategory, text⟩] := by
    unfold Known.likedReasons
    cases known.likedCategory product with
    | none => exact .inl rfl
    | some c => exact .inr ⟨_, rfl⟩
  have hbought : known.boughtReasons product = [] ∨ ∃ text,
    known.boughtReasons product = [⟨.purchaseHistory, text⟩] := by
    unfold Known.boughtReasons
    cases known.boughtCategory product with
    | none => exact .inl rfl
    | some c => exact .inr ⟨_, rfl⟩
  have hsegment : known.segmentReasons product = [] ∧ ¬ 1 ≤ known.buyers.at product.productId 0 ∨
      ∃ text, known.segmentReasons product = [⟨.segment, text⟩] ∧ 1 ≤ known.buyers.at product.productId 0 := by
    unfold Known.segmentReasons
    split_ifs with h
    · exact .inr ⟨_, rfl, h⟩
    · exact .inl ⟨rfl, h⟩
  refine ⟨nearest_spec htree _ _, nearest_spec htree _ _, ?_, ?_, ?_, ?_⟩ <;> unfold Known.reasonsOf
  · obtain ⟨hs, hnot⟩ | ⟨text, hs, hmany⟩ := hsegment
    · obtain hl | ⟨_, hl⟩ := hliked <;> obtain hb | ⟨_, hb⟩ := hbought <;> simp [hs, hl, hb, hnot]
    · simp [hs, hmany]
  · obtain ⟨hs, -⟩ | ⟨text, hs, -⟩ := hsegment <;> obtain hl | ⟨_, hl⟩ := hliked <;>
      obtain hb | ⟨_, hb⟩ := hbought <;> simp [hs, hl, hb]
  · obtain ⟨hs, -⟩ | ⟨text, hs, -⟩ := hsegment <;> obtain hl | ⟨_, hl⟩ := hliked <;>
      obtain hb | ⟨_, hb⟩ := hbought <;> simp [hs, hl, hb]
  · obtain ⟨hs, -⟩ | ⟨text, hs, -⟩ := hsegment <;> obtain hl | ⟨_, hl⟩ := hliked <;>
      obtain hb | ⟨_, hb⟩ := hbought <;> simp [hs, hl, hb]

def Known.ranked (known : Known) (stocked : List StockedProduct) : List StockedProduct :=
  sortBy known.keyOf (stocked.filter fun product => known.Eligible product)

theorem rankCandidates_ok (htree : known.Tree) (stocked : List StockedProduct) (limit : ℕ) :
    rankCandidates known stocked limit = .ok (((known.ranked stocked).take limit).map known.recommendation) := by
  have hcandidates := mapM_ok (fun product (_ : product ∈ stocked) => candidate_ok htree product)
  have heligible : (stocked.map fun product => if known.Eligible product then
      some (known.keyOf product, known.recommendation product) else none).filterMap id =
      (stocked.filter fun product => known.Eligible product).map fun product =>
        (known.keyOf product, known.recommendation product) := by
    rw [List.filterMap_map, ← List.filterMap_eq_map, List.filterMap_filter]
    refine List.filterMap_congr fun product _ => ?_
    by_cases h : known.Eligible product <;> simp [h]
  unfold rankCandidates
  simp only [hcandidates, bind, Except.bind, heligible]
  rw [← map_sortBy fun _ _ => rfl, ← List.map_take, List.map_map]
  rfl

/-- What is recommended: of the eligible products, those that rank first, as many as asked for. -/
structure Ranks (known : Known) (stocked : List StockedProduct) (limit : ℕ)
    (items : List Recommendation) : Prop where
  short : items.length ≤ limit
  eligible : ∀ item ∈ items, ∃ product ∈ stocked, known.Eligible product ∧ item = known.recommendation product ∧
    1 ≤ item.reasons.length ∧ item.reasons.length ≤ 3
  best : ∃ returned leftOut : List StockedProduct,
    (returned ++ leftOut).Perm (stocked.filter fun product => known.Eligible product) ∧
    items = returned.map known.recommendation ∧ returned.Pairwise (fun a b => known.keyOf a ≤ known.keyOf b) ∧
    ∀ a ∈ returned, ∀ b ∈ leftOut, known.keyOf a ≤ known.keyOf b

theorem ranked_ranks (htree : known.Tree) (stocked : List StockedProduct) (limit : ℕ) :
    Ranks known stocked limit (((known.ranked stocked).take limit).map known.recommendation) := by
  have hsorted : (known.ranked stocked).Pairwise fun a b => known.keyOf a ≤ known.keyOf b :=
    List.pairwise_insertionSort _ _
  rw [← List.take_append_drop limit (known.ranked stocked)] at hsorted
  obtain ⟨hreturned, -, hleft⟩ := List.pairwise_append.mp hsorted
  refine ⟨?_, fun item hitem => ?_, (known.ranked stocked).take limit, (known.ranked stocked).drop limit, ?_, rfl,
    hreturned, hleft⟩
  · rw [List.length_map]
    exact List.length_take_le _ _
  · obtain ⟨product, hproduct, rfl⟩ := List.mem_map.mp hitem
    obtain ⟨hstocked, heligible⟩ := List.mem_filter.mp (mem_sortBy.mp (List.mem_of_mem_take hproduct))
    have heligible := of_decide_eq_true heligible
    exact ⟨product, hstocked, heligible, rfl, List.length_pos_iff.mpr heligible.2.2,
      (reasoned htree product).atMost⟩
  · rw [List.take_append_drop]
    exact perm_sortBy _ _

theorem keyOf_product {product product' : StockedProduct} (h : known.keyOf product = known.keyOf product') :
    product.productId = product'.productId := by
  unfold Known.keyOf rankKey at h
  simp only [toLex_inj, Prod.mk.injEq] at h
  exact h.2.2.2

/-- **Ranking.** -/
theorem rankCandidates_ranks (htree : known.Tree) (stocked : List StockedProduct) (limit : ℕ) :
    (∀ product, known.Reasoned product) ∧ ∃ items, rankCandidates known stocked limit = .ok items ∧
      Ranks known stocked limit items ∧
      ((stocked.map StockedProduct.productId).Nodup → ∀ stocked', stocked.Perm stocked' →
        rankCandidates known stocked' limit = .ok items) := by
  refine ⟨reasoned htree, _, rankCandidates_ok htree stocked limit, ranked_ranks htree stocked limit,
    fun hids stocked' hperm => ?_⟩
  rw [rankCandidates_ok htree]
  unfold Known.ranked
  rw [sortBy_perm (fun a ha b hb h => ?_) (hperm.symm.filter _)]
  have hstocked : ∀ p ∈ stocked'.filter (fun product => known.Eligible product), p ∈ stocked := fun p hp =>
    hperm.mem_iff.mpr (List.mem_of_mem_filter hp)
  exact List.inj_on_of_nodup_map hids (hstocked a ha) (hstocked b hb) (keyOf_product h)

end Known

/-- Two categories, the second under the first, for which the customer has a preference. -/
def smallTree : Known where
  preferred := [1]
  categoryPurchases := [(2, 4)]
  categories := [(1, ⟨1, "Home", none⟩), (2, ⟨2, "Lamps", some 1⟩)]
  totalPurchases := 4
  purchased := [10]
  buyers := [(11, 3)]
  labelName := "Loyal"
  windowDays := 180

theorem smallTree_tree : smallTree.Tree where
  acyclic := by
    refine acyclic_of_lt id fun a b hab => ?_
    have hrow : ∀ row ∈ smallTree.categories, ∀ p ∈ row.2.parentCategoryId, p < row.1 := by decide
    obtain ⟨row, hlookup, hparent⟩ := Option.bind_eq_some_iff.mp hab
    exact hrow _ (mem_of_lookup hlookup) b hparent
  parents := by
    intro c p hp
    have hrow : ∀ row ∈ smallTree.categories, ∀ p ∈ row.2.parentCategoryId,
      p ∈ smallTree.categories.keys := by decide
    obtain ⟨row, hlookup, hparent⟩ := Option.bind_eq_some_iff.mp hp
    exact hrow _ (mem_of_lookup hlookup) p hparent

theorem rankCandidates_ranks_small : smallTree.Tree ∧ ∃ items,
    rankCandidates smallTree [⟨11, "Desk lamp", 2, "Lamps", 6⟩, ⟨10, "Floor lamp", 2, "Lamps", 1⟩] 5 = .ok items ∧
      rankCandidates smallTree [⟨10, "Floor lamp", 2, "Lamps", 1⟩,
        ⟨11, "Desk lamp", 2, "Lamps", 6⟩] 5 = .ok items := by
  obtain ⟨-, items, hok, -, horder⟩ := rankCandidates_ranks smallTree_tree
    [⟨11, "Desk lamp", 2, "Lamps", 6⟩, ⟨10, "Floor lamp", 2, "Lamps", 1⟩] 5
  exact ⟨smallTree_tree, items, hok, horder (by decide) _ (List.Perm.swap _ _ _)⟩

end RetailSegmentation.Recommendations.Web
