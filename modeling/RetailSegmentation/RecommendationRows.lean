import RetailSegmentation.RecommendationWeb

/-! What the service computes line by line is what the web has its statements compute: the usual store, the
favourite categories, the signals, the hierarchy, the open assignment and the shelf. -/

namespace RetailSegmentation.Recommendations

open Grouping

/-! ### What the tallies hold -/

section Tallies

variable {key : Line → ℤ} {lines : List Line} {k : ℤ}

theorem purchaseCount_eq : purchaseCount key lines k =
    (((lines.filter fun l => key l = k).map Line.transactionId).toFinset.card : ℤ) := by
  unfold purchaseCount purchasesBy
  rw [at_tally, foldl_insert, Finset.empty_union]

theorem unitsBy_at : (unitsBy key lines).at k 0 = ((lines.filter fun l => key l = k).map Line.quantity).sum := by
  unfold unitsBy
  rw [at_tally, foldl_add, zero_add]

theorem spendBy_at : (spendBy key lines).at k 0 =
    ((lines.filter fun l => key l = k).map fun l => l.quantity * l.unitPrice).sum := by
  unfold spendBy
  rw [at_tally, foldl_add, zero_add]

theorem mem_purchasesBy : k ∈ (purchasesBy key lines).keys ↔ ∃ l ∈ lines, key l = k := by
  unfold purchasesBy
  rw [mem_keys_tally, List.mem_map]

theorem nodup_purchasesBy : (purchasesBy key lines).keys.Nodup := nodup_keys_tally ..

end Tallies

theorem storeKey_id {p s i p' s' i' : ℤ} (h : storeKey p s i = storeKey p' s' i') : i = i' := by
  unfold storeKey at h
  simp only [toLex_inj, Prod.mk.injEq] at h
  exact h.2.2

theorem categoryKey_id {p u s i p' u' s' i' : ℤ} (h : categoryKey p u s i = categoryKey p' u' s' i') : i = i' := by
  unfold categoryKey at h
  simp only [toLex_inj, Prod.mk.injEq] at h
  exact h.2.2.2

/-! ### The rows of a customer's sales -/

abbrev SoldRow := (TransactionRow × LineRow) × ProductRow

def SoldRow.line (r : SoldRow) : Line :=
  ⟨r.1.1.transactionId, r.1.1.storeId, r.1.2.productId, r.2.categoryId, r.1.2.quantity, r.1.2.unitPrice⟩

section Bought

variable (shop : Shop) (customerId : String) (since until_ : Instant)

def bought : List SoldRow :=
  (Web.soldProducts shop).filter fun r => r.1.1.customerId = customerId ∧ within since until_ r.1.1.occurredAt

/-- How many of the customer's purchases hold a product of the category itself. -/
def purchasesOf (category : ℤ) : ℤ :=
  countDistinct (fun r => r.1.1.transactionId)
    ((bought shop customerId since until_).filter fun r => r.2.categoryId = category)

variable {shop} {customerId : String} {since until_ : Instant} {order order' : RowOrder}

theorem purchaseLines_perm :
    (purchaseLines order shop customerId since until_).Perm
    ((bought shop customerId since until_).map SoldRow.line) :=
  (order.perm _).map SoldRow.line

variable (hvalid : shop.Valid)

include hvalid

theorem bought_lines : (bought shop customerId since until_).map Prod.fst =
    join (Web.sales shop customerId since until_) shop.lines fun t l => l.transactionId = t.transactionId := by
  have hrefs : ∀ r ∈ purchaseLineV1 shop, r.2.productId ∈ shop.products.map ProductRow.productId :=
    fun r hr => hvalid.lineProducts r.2 (mem_join.mp hr).2.1
  have hfst : (Web.soldProducts shop).map Prod.fst = purchaseLineV1 shop := map_fst_join hvalid.productKeys hrefs
  have hfilter : (bought shop customerId since until_).map Prod.fst = (purchaseLineV1 shop).filter fun r =>
      r.1.customerId = customerId ∧ within since until_ r.1.occurredAt := by
    rw [← hfst, List.filter_map]
    rfl
  rw [hfilter]
  exact filter_join fun t : TransactionRow => decide (t.customerId = customerId ∧ within since until_ t.occurredAt)

theorem mem_bought {r : SoldRow} : r ∈ bought shop customerId since until_ →
    r.1.1 ∈ Web.sales shop customerId since until_ ∧ r.1.2 ∈ shop.lines ∧
      r.1.2.transactionId = r.1.1.transactionId := by
  intro hr
  have hmem : r.1 ∈ (bought shop customerId since until_).map Prod.fst := List.mem_map_of_mem hr
  rw [bought_lines hvalid, mem_join] at hmem
  exact ⟨hmem.1, hmem.2.1, of_decide_eq_true hmem.2.2⟩

theorem bought_of_sale {t : TransactionRow} (ht : t ∈ Web.sales shop customerId since until_) :
    ∃ r ∈ bought shop customerId since until_, r.1.1 = t := by
  obtain ⟨l, hl⟩ := List.exists_mem_of_ne_nil _ (hvalid.lined t (List.mem_of_mem_filter ht))
  obtain ⟨hl, hid⟩ := List.mem_filter.mp hl
  have hmem : (t, l) ∈ (bought shop customerId since until_).map Prod.fst := by
    rw [bought_lines hvalid, mem_join]
    exact ⟨ht, hl, hid⟩
  obtain ⟨r, hr, heq⟩ := List.mem_map.mp hmem
  exact ⟨r, hr, congrArg Prod.fst heq⟩

theorem card_transactions (p : TransactionRow → Bool) :
    (((bought shop customerId since until_).filter fun r => p r.1.1).map fun r => r.1.1.transactionId).toFinset.card =
      ((Web.sales shop customerId since until_).filter p).length := by
  have hsame : (((bought shop customerId since until_).filter fun r => p r.1.1).map
      fun r => r.1.1.transactionId).toFinset =
      (((Web.sales shop customerId since until_).filter p).map TransactionRow.transactionId).toFinset := by
    ext x
    simp only [List.mem_toFinset, List.mem_map, List.mem_filter]
    constructor
    · rintro ⟨r, ⟨hr, hp⟩, rfl⟩
      exact ⟨r.1.1, ⟨(mem_bought hvalid hr).1, hp⟩, rfl⟩
    · rintro ⟨t, ⟨ht, hp⟩, rfl⟩
      obtain ⟨r, hr, rfl⟩ := bought_of_sale hvalid ht
      exact ⟨r, ⟨hr, hp⟩, rfl⟩
  have hnodup : (((Web.sales shop customerId since until_).filter p).map TransactionRow.transactionId).Nodup :=
    hvalid.transactionKeys.sublist (((List.filter_sublist).trans List.filter_sublist).map _)
  rw [hsame, List.toFinset_card_of_nodup hnodup, List.length_map]

theorem sum_spent (p : TransactionRow → Bool) :
    (((bought shop customerId since until_).filter fun r => p r.1.1).map
      fun r => r.1.2.quantity * r.1.2.unitPrice).sum =
      (((Web.sales shop customerId since until_).filter p).map TransactionRow.total).sum := by
  have hlines : ((bought shop customerId since until_).filter fun r => p r.1.1).map Prod.fst =
      join ((Web.sales shop customerId since until_).filter p) shop.lines
        fun t l => l.transactionId = t.transactionId := by
    rw [← filter_join p, ← bought_lines hvalid, List.filter_map]
    rfl
  calc (((bought shop customerId since until_).filter fun r => p r.1.1).map
        fun r => r.1.2.quantity * r.1.2.unitPrice).sum
      = ((((bought shop customerId since until_).filter fun r => p r.1.1).map Prod.fst).map
          fun r => r.2.quantity * r.2.unitPrice).sum := by rw [List.map_map]; rfl
    _ = (((Web.sales shop customerId since until_).filter p).map fun t =>
          ((shop.linesOf t).map fun l => l.quantity * l.unitPrice).sum).sum := by
        rw [hlines]
        exact sum_join fun l : LineRow => l.quantity * l.unitPrice
    _ = _ := by
        congr 1
        refine List.map_congr_left fun t ht => (hvalid.totals t ?_).symm
        exact List.mem_of_mem_filter (List.mem_of_mem_filter ht)

/-! ### The usual store -/

omit hvalid in
theorem lines_with (key : Line → ℤ) (k : ℤ) {β : Type} (f : Line → β) :
    (((purchaseLines order shop customerId since until_).filter fun l => key l = k).map f).Perm
      (((bought shop customerId since until_).filter fun r => key r.line = k).map fun r => f r.line) := by
  refine ((purchaseLines_perm.filter _).map f).trans (.of_eq ?_)
  rw [List.filter_map, List.map_map]
  rfl

theorem store_purchases (s : ℤ) : purchaseCount Line.storeId (purchaseLines order shop customerId since until_) s =
    ((Web.sales shop customerId since until_).filter fun t => t.storeId = s).length := by
  rw [purchaseCount_eq, ← card_transactions hvalid, List.toFinset_eq_of_perm _ _ (lines_with Line.storeId s _)]
  rfl

theorem store_spend (s : ℤ) : (spendBy Line.storeId (purchaseLines order shop customerId since until_)).at s 0 =
    (((Web.sales shop customerId since until_).filter fun t => t.storeId = s).map TransactionRow.total).sum := by
  rw [spendBy_at, ← sum_spent hvalid, (lines_with Line.storeId s _).sum_eq]
  rfl

def placed (shop : Shop) (customerId : String) (since until_ : Instant) (places : List PlaceRow)
    (placeOf : TransactionRow → ℤ) : List (TransactionRow × PlaceRow) :=
  (join shop.transactions places fun t p => p.placeId = placeOf t).filter fun r =>
    r.1.customerId = customerId ∧ within since until_ r.1.occurredAt

omit hvalid in
theorem map_fst_placed {places : List PlaceRow} (hkeys : (places.map PlaceRow.placeId).Nodup)
    {placeOf : TransactionRow → ℤ} (hrefs : ∀ t ∈ shop.transactions, placeOf t ∈ places.map PlaceRow.placeId) :
    (placed shop customerId since until_ places placeOf).map Prod.fst = Web.sales shop customerId since until_ := by
  refine (map_fst_filter (q := fun t : TransactionRow =>
    decide (t.customerId = customerId ∧ within since until_ t.occurredAt)) fun _ _ => rfl).trans ?_
  rw [map_fst_join hkeys hrefs]
  rfl

theorem mem_storeTotals {g : Web.GroupTotal} (hg : g ∈ Web.listStoreTotals order' shop customerId since until_) :
    g.purchases = ((Web.sales shop customerId since until_).filter fun t => t.storeId = g.itemId).length ∧
      g.spend = (((Web.sales shop customerId since until_).filter fun t => t.storeId = g.itemId).map
        TransactionRow.total).sum := by
  obtain ⟨r, hr, rfl⟩ := mem_groupBy.mp ((order'.perm _).mem_iff.mp hg)
  obtain ⟨-, hplace, -⟩ := mem_join.mp (List.mem_of_mem_filter hr)
  have hgroup : ((placed shop customerId since until_ shop.stores TransactionRow.storeId).filter
      fun r' => (r'.2.placeId, r'.2.name) = (r.2.placeId, r.2.name)).map Prod.fst =
      (Web.sales shop customerId since until_).filter fun t => t.storeId = r.2.placeId := by
    rw [← map_fst_placed hvalid.storeKeys hvalid.transactionStores]
    refine map_fst_filter fun r' hr' => ?_
    obtain ⟨-, hplace', hon⟩ := mem_join.mp (List.mem_of_mem_filter hr')
    have hon : r'.2.placeId = r'.1.storeId := of_decide_eq_true hon
    refine decide_eq_decide.mpr ⟨fun h => ?_, fun h => ?_⟩
    · exact hon.symm.trans (congrArg Prod.fst h)
    · rw [eq_of_key hvalid.storeKeys hplace hplace' (hon.trans h)]
  rw [← hgroup]
  exact ⟨by rw [List.length_map]; rfl, by rw [List.map_map]; rfl⟩

theorem storeTotals_perm : ((Web.listStoreTotals order' shop customerId since until_).map Web.GroupTotal.itemId).Perm
    (purchasesBy Line.storeId (purchaseLines order shop customerId since until_)).keys := by
  have hnodup : ((Web.listStoreTotals order' shop customerId since until_).map Web.GroupTotal.itemId).Nodup := by
    refine ((order'.perm _).map _).nodup_iff.mpr ?_
    refine nodup_groupBy (q := Prod.fst) (fun _ _ => rfl) fun r hr r' hr' h => ?_
    obtain ⟨-, hplace, -⟩ := mem_join.mp (List.mem_of_mem_filter hr)
    obtain ⟨-, hplace', -⟩ := mem_join.mp (List.mem_of_mem_filter hr')
    rw [eq_of_key hvalid.storeKeys hplace' hplace h]
  refine (List.perm_ext_iff_of_nodup hnodup nodup_purchasesBy).mpr fun s => ?_
  rw [mem_purchasesBy, List.mem_map]
  constructor
  · rintro ⟨g, hg, rfl⟩
    obtain ⟨r, hr, rfl⟩ := mem_groupBy.mp ((order'.perm _).mem_iff.mp hg)
    obtain ⟨-, -, hon⟩ := mem_join.mp (List.mem_of_mem_filter hr)
    have hsale : r.1 ∈ Web.sales shop customerId since until_ := by
      rw [← map_fst_placed hvalid.storeKeys hvalid.transactionStores]
      exact List.mem_map_of_mem hr
    obtain ⟨b, hb, hsale⟩ := bought_of_sale hvalid hsale
    refine ⟨b.line, purchaseLines_perm.mem_iff.mpr (List.mem_map_of_mem hb), ?_⟩
    exact (congrArg TransactionRow.storeId hsale).trans (of_decide_eq_true hon).symm
  · rintro ⟨l, hl, rfl⟩
    obtain ⟨b, hb, rfl⟩ := List.mem_map.mp (purchaseLines_perm.mem_iff.mp hl)
    have hsale : b.1.1 ∈ (placed shop customerId since until_ shop.stores TransactionRow.storeId).map Prod.fst := by
      rw [map_fst_placed hvalid.storeKeys hvalid.transactionStores]
      exact (mem_bought hvalid hb).1
    obtain ⟨r, hr, hfst⟩ := List.mem_map.mp hsale
    obtain ⟨-, -, hon⟩ := mem_join.mp (List.mem_of_mem_filter hr)
    refine ⟨_, (order'.perm _).mem_iff.mpr (mem_groupBy.mpr ⟨r, hr, rfl⟩), ?_⟩
    exact (of_decide_eq_true hon).trans (congrArg TransactionRow.storeId hfst)

theorem dominantStore_eq : dominantStore (purchaseLines order shop customerId since until_) =
    (Web.rankDominant (Web.listStoreTotals order' shop customerId since until_)).map Web.GroupTotal.itemId := by
  unfold dominantStore Web.rankDominant
  rw [← leastBy_map fun g hg => ?_]
  · exact leastBy_perm (fun _ _ _ _ h => storeKey_id h) (storeTotals_perm hvalid).symm
  · unfold storeRank Web.GroupTotal.rank
    rw [store_purchases hvalid, store_spend hvalid, (mem_storeTotals hvalid hg).1, (mem_storeTotals hvalid hg).2]

/-! ### The favourite categories -/

def categorized (shop : Shop) (customerId : String) (since until_ : Instant) : List (SoldRow × CategoryRow) :=
  (join (Web.soldProducts shop) shop.categories fun r c => c.categoryId = r.2.categoryId).filter fun r =>
    r.1.1.1.customerId = customerId ∧ within since until_ r.1.1.1.occurredAt

theorem map_fst_categorized :
    (categorized shop customerId since until_).map Prod.fst = bought shop customerId since until_ := by
  have hrefs : ∀ r ∈ Web.soldProducts shop, r.2.categoryId ∈ shop.categories.map CategoryRow.categoryId :=
    fun r hr => hvalid.productCategories r.2 (mem_join.mp hr).2.1
  refine (map_fst_filter (q := fun r : SoldRow =>
    decide (r.1.1.customerId = customerId ∧ within since until_ r.1.1.occurredAt)) fun _ _ => rfl).trans ?_
  rw [map_fst_join hvalid.categoryKeys hrefs]
  rfl

theorem mem_categoryTotals {g : Web.CategoryTotal}
    (hg : g ∈ Web.listCategoryTotals order' shop customerId since until_) :
    g.purchases = purchasesOf shop customerId since until_ g.categoryId ∧
      g.units = (((bought shop customerId since until_).filter fun r => r.2.categoryId = g.categoryId).map
        fun r => r.1.2.quantity).sum ∧
      g.spend = (((bought shop customerId since until_).filter fun r => r.2.categoryId = g.categoryId).map
        fun r => r.1.2.quantity * r.1.2.unitPrice).sum := by
  obtain ⟨r, hr, rfl⟩ := mem_groupBy.mp ((order'.perm _).mem_iff.mp hg)
  obtain ⟨-, hcategory, -⟩ := mem_join.mp (List.mem_of_mem_filter hr)
  have hgroup : ((categorized shop customerId since until_).filter
      fun r' => (r'.2.categoryId, r'.2.name) = (r.2.categoryId, r.2.name)).map Prod.fst =
      (bought shop customerId since until_).filter fun b => b.2.categoryId = r.2.categoryId := by
    rw [← map_fst_categorized hvalid]
    refine map_fst_filter fun r' hr' => ?_
    obtain ⟨-, hcategory', hon⟩ := mem_join.mp (List.mem_of_mem_filter hr')
    have hon : r'.2.categoryId = r'.1.2.categoryId := of_decide_eq_true hon
    refine decide_eq_decide.mpr ⟨fun h => ?_, fun h => ?_⟩
    · exact hon.symm.trans (congrArg Prod.fst h)
    · rw [eq_of_key hvalid.categoryKeys hcategory hcategory' (hon.trans h)]
  unfold purchasesOf countDistinct
  rw [← hgroup, List.map_map, List.map_map, List.map_map]
  exact ⟨rfl, rfl, rfl⟩

theorem categoryTotals_perm :
    ((Web.listCategoryTotals order' shop customerId since until_).map Web.CategoryTotal.categoryId).Perm
      (purchasesBy Line.categoryId (purchaseLines order shop customerId since until_)).keys := by
  have hnodup : ((Web.listCategoryTotals order' shop customerId since until_).map
      Web.CategoryTotal.categoryId).Nodup := by
    refine ((order'.perm _).map _).nodup_iff.mpr ?_
    refine nodup_groupBy (q := Prod.fst) (fun _ _ => rfl) fun r hr r' hr' h => ?_
    obtain ⟨-, hcategory, -⟩ := mem_join.mp (List.mem_of_mem_filter hr)
    obtain ⟨-, hcategory', -⟩ := mem_join.mp (List.mem_of_mem_filter hr')
    rw [eq_of_key hvalid.categoryKeys hcategory' hcategory h]
  refine (List.perm_ext_iff_of_nodup hnodup nodup_purchasesBy).mpr fun s => ?_
  rw [mem_purchasesBy, List.mem_map]
  constructor
  · rintro ⟨g, hg, rfl⟩
    obtain ⟨r, hr, rfl⟩ := mem_groupBy.mp ((order'.perm _).mem_iff.mp hg)
    obtain ⟨-, -, hon⟩ := mem_join.mp (List.mem_of_mem_filter hr)
    have hbought : r.1 ∈ bought shop customerId since until_ := by
      rw [← map_fst_categorized hvalid]
      exact List.mem_map_of_mem hr
    refine ⟨SoldRow.line r.1, purchaseLines_perm.mem_iff.mpr (List.mem_map_of_mem hbought), ?_⟩
    exact (of_decide_eq_true hon).symm
  · rintro ⟨l, hl, rfl⟩
    obtain ⟨b, hb, rfl⟩ := List.mem_map.mp (purchaseLines_perm.mem_iff.mp hl)
    rw [← map_fst_categorized hvalid] at hb
    obtain ⟨r, hr, rfl⟩ := List.mem_map.mp hb
    obtain ⟨-, -, hon⟩ := mem_join.mp (List.mem_of_mem_filter hr)
    exact ⟨_, (order'.perm _).mem_iff.mpr (mem_groupBy.mpr ⟨r, hr, rfl⟩), of_decide_eq_true hon⟩

omit hvalid in
theorem category_purchases (category : ℤ) :
    purchaseCount Line.categoryId (purchaseLines order shop customerId since until_) category =
      purchasesOf shop customerId since until_ category := by
  unfold purchasesOf countDistinct
  rw [purchaseCount_eq, List.toFinset_eq_of_perm _ _ (lines_with Line.categoryId category _)]
  rfl

theorem topCategories_eq (limit : ℕ) :
    topCategories (purchaseLines order shop customerId since until_) limit =
      (Web.rankCategories (Web.listCategoryTotals order' shop customerId since until_) limit).map
        fun g => (g.categoryId, g.purchases) := by
  have hsort : (sortBy Web.CategoryTotal.rank (Web.listCategoryTotals order' shop customerId since until_)).map
      Web.CategoryTotal.categoryId =
      sortBy (categoryRank (purchaseLines order shop customerId since until_))
        (purchasesBy Line.categoryId (purchaseLines order shop customerId since until_)).keys := by
    refine (map_sortBy fun g hg => ?_).trans
      (sortBy_perm (fun _ _ _ _ h => categoryKey_id h) (categoryTotals_perm hvalid))
    obtain ⟨hpurchases, hunits, hspend⟩ := mem_categoryTotals hvalid hg
    unfold categoryRank Web.CategoryTotal.rank
    rw [category_purchases, unitsBy_at, spendBy_at, (lines_with Line.categoryId g.categoryId _).sum_eq,
      (lines_with Line.categoryId g.categoryId _).sum_eq, hpurchases, hunits, hspend]
    rfl
  unfold topCategories Web.rankCategories
  rw [← hsort, ← List.map_take, List.map_map]
  refine List.map_congr_left fun g hg => ?_
  have hg := mem_sortBy.mp (List.mem_of_mem_take hg)
  exact congrArg (g.categoryId, ·) ((category_purchases _).trans (mem_categoryTotals hvalid hg).1.symm)

/-! ### The other signals -/

theorem total_eq : (((purchaseLines order shop customerId since until_).map Line.transactionId).toFinset.card : ℤ) =
    (Web.getSalesTotals shop customerId since until_).1 := by
  rw [List.toFinset_eq_of_perm _ _ (purchaseLines_perm.map Line.transactionId), List.map_map]
  have hcard := @card_transactions shop customerId since until_ hvalid fun _ => true
  rw [List.filter_true, List.filter_true] at hcard
  exact congrArg Nat.cast hcard

omit hvalid in
theorem mem_purchased {product : ℤ} :
    product ∈ (purchaseLines order shop customerId since until_).map Line.productId ↔
      product ∈ (Web.listProductTotals order' shop customerId since until_).map Web.ProductTotal.productId := by
  rw [List.mem_map, List.mem_map]
  constructor
  · rintro ⟨l, hl, rfl⟩
    obtain ⟨b, hb, rfl⟩ := List.mem_map.mp (purchaseLines_perm.mem_iff.mp hl)
    obtain ⟨-, -, hon⟩ := mem_join.mp (List.mem_of_mem_filter hb)
    exact ⟨_, (order'.perm _).mem_iff.mpr (mem_groupBy.mpr ⟨b, hb, rfl⟩), of_decide_eq_true hon⟩
  · rintro ⟨g, hg, rfl⟩
    obtain ⟨b, hb, rfl⟩ := mem_groupBy.mp ((order'.perm _).mem_iff.mp hg)
    obtain ⟨-, -, hon⟩ := mem_join.mp (List.mem_of_mem_filter hb)
    exact ⟨SoldRow.line b, purchaseLines_perm.mem_iff.mpr (List.mem_map_of_mem hb), (of_decide_eq_true hon).symm⟩

theorem mem_interests {category : ℤ} : category ∈ interestCategories order shop customerId ↔
    category ∈ (Web.listInterestCategories order' shop customerId).map CategoryRow.categoryId := by
  have hmap : ((join (shop.interests.filter fun i => i.customerId = customerId) shop.categories
      fun i c => c.categoryId = i.categoryId).map Prod.snd).map CategoryRow.categoryId =
      (shop.interests.filter fun i => i.customerId = customerId).map InterestRow.categoryId := by
    conv_rhs => rw [← map_fst_join hvalid.categoryKeys
      fun i hi => hvalid.interestCategories i (List.mem_of_mem_filter hi)]
    rw [List.map_map, List.map_map]
    exact List.map_congr_left fun r hr => of_decide_eq_true (mem_join.mp hr).2.2
  unfold interestCategories Web.listInterestCategories
  rw [(order.perm _).mem_iff, ((order'.perm _).map CategoryRow.categoryId).mem_iff, hmap]

omit hvalid in
theorem labelOf_code {h : HistoryRow} {code : String} :
    (labelOf (some h)).labelCode = some code ↔ h.labelCode = some code := by
  unfold labelOf
  cases hcode : h.labelCode <;> simp [hcode]

omit hvalid in
theorem labelOf_none {h : HistoryRow} (hcode : h.labelCode = none) :
    labelOf (some h) = ⟨.unassignedResult, none, some h.runId⟩ := by
  simp [labelOf, hcode]

omit hvalid in
theorem labelOf_some {h : HistoryRow} {code : String} (hcode : h.labelCode = some code) :
    labelOf (some h) = ⟨.assigned, some code, some h.runId⟩ := by
  simp [labelOf, hcode]

omit hvalid in
theorem segmentBuyers_at (labelCode : String) (product : ℤ) :
    (segmentBuyers order shop labelCode customerId since until_).at product 0 =
      countDistinct (fun r => r.2.1.customerId)
        ((segmentRows shop labelCode customerId since until_).filter fun r => r.2.2.productId = product) := by
  have hperm := order.perm (groupBy (fun r => r.2.2.productId)
    (fun product group => (product, countDistinct (fun r => r.2.1.customerId) group))
    (segmentRows shop labelCode customerId since until_))
  exact at_groupBy _ (countDistinct_nil _) hperm product

omit hvalid in
theorem listSegmentBuyers_at (labelCode : String) (product : ℤ) :
    (Web.listSegmentBuyers order' shop customerId since until_ labelCode).at product 0 =
      countDistinct (fun r => r.1.2.customerId)
        ((Web.segmentRows shop customerId since until_ labelCode).filter fun r => r.2.productId = product) := by
  have hperm := order'.perm (groupBy (fun r => r.2.productId)
    (fun product group => (product, countDistinct (fun r => r.1.2.customerId) group))
    (Web.segmentRows shop customerId since until_ labelCode))
  exact at_groupBy _ (countDistinct_nil _) hperm product

theorem buyers_eq (labelCode : String) (product : ℤ) :
    (segmentBuyers order shop labelCode customerId since until_).at product 0 =
      (Web.listSegmentBuyers order' shop customerId since until_ labelCode).at product 0 := by
  rw [segmentBuyers_at, listSegmentBuyers_at]
  unfold countDistinct
  congr 2
  ext x
  simp only [List.mem_toFinset, List.mem_map, List.mem_filter, segmentRows, Web.segmentRows,
    purchaseLineV1, mem_join,
    decide_eq_true_eq]
  constructor
  · rintro ⟨⟨⟨c, h⟩, t, l⟩, ⟨⟨⟨hlabel, ⟨ht, hl, hline⟩, hcustomer⟩, hstate, hcode, hother, hwithin⟩, hproduct⟩, rfl⟩
    cases h with
    | none => cases hcode
    | some h =>
        obtain ⟨-, hh, hopen⟩ := mem_leftJoin_some.mp hlabel
        obtain ⟨howner, hopen⟩ := of_decide_eq_true hopen
        refine ⟨((h, t), l), ⟨⟨⟨⟨hh, ht, hcustomer.trans howner.symm⟩, hl, hline⟩, hopen, ?_, ?_, hwithin⟩, hproduct⟩, rfl⟩
        · exact labelOf_code.mp hcode
        · exact fun heq => hother (howner.symm.trans heq)
  · rintro ⟨⟨⟨h, t⟩, l⟩, ⟨⟨⟨⟨hh, ht, hcustomer⟩, hl, hline⟩, hopen, hcode, hother, hwithin⟩, hproduct⟩, rfl⟩
    obtain ⟨c, hc, howner⟩ := List.mem_map.mp (hvalid.historyCustomers h hh)
    have hlabel : (c, some h) ∈ currentLabelV1 shop :=
      mem_leftJoin_some.mpr ⟨hc, hh, decide_eq_true ⟨howner.symm, hopen⟩⟩
    refine ⟨((c, some h), t, l), ⟨⟨⟨hlabel, ⟨ht, hl, hline⟩, hcustomer.trans howner.symm⟩, ?_, ?_, ?_, hwithin⟩,
      hproduct⟩, rfl⟩
    · exact congrArg Label.state (labelOf_some hcode)
    · exact labelOf_code.mpr hcode
    · exact fun heq => hother (howner.symm.trans heq)

/-! ### The hierarchy -/

omit hvalid in
theorem parentOf_known {c p : ℤ} (h : shop.parentOf c = some p) :
    c ∈ shop.categories.map CategoryRow.categoryId := by
  obtain ⟨row, hrow, -⟩ := Option.bind_eq_some_iff.mp h
  exact List.mem_map.mpr ⟨row, List.mem_of_find?_eq_some hrow, by simpa using List.find?_some hrow⟩

theorem parents_eq (c : ℤ) : parentOf (categoryParents order shop) c = shop.parentOf c := by
  have hkeys : Dict.keys (shop.categories.map fun c => (c.categoryId, c.parentCategoryId)) |>.Nodup := by
    unfold Dict.keys
    rw [List.map_map]
    exact hvalid.categoryKeys
  unfold parentOf categoryParents
  rw [← lookup_perm hkeys (order.perm _).symm, lookup_rows]
  unfold Shop.parentOf
  cases shop.categories.find? fun row => row.categoryId = c <;> rfl

theorem categories_lookup (c : ℤ) :
    List.lookup c ((Web.listAllCategories order' shop).map fun row => (row.categoryId, row)) =
      shop.categories.find? fun row => row.categoryId = c := by
  have hkeys : Dict.keys (shop.categories.map fun row => (row.categoryId, row)) |>.Nodup := by
    unfold Dict.keys
    rw [List.map_map]
    exact hvalid.categoryKeys
  unfold Web.listAllCategories
  rw [← lookup_perm hkeys ((order'.perm _).map _).symm, lookup_rows, Option.map_id']

/-- The service's walk, which stops at what it has seen, and the web's, which does not, are one walk. -/
theorem lineage_eq (c : ℤ) : Forest.climb shop.parentOf (shop.categories.length + 1) c =
    some (lineage c (categoryParents order shop)) := by
  obtain ⟨chain, hchain⟩ := Forest.climb_ends (a := c) hvalid.acyclic fun _ _ _ => parentOf_known
  rw [List.length_map] at hchain
  have hlength : (categoryParents order shop).length = shop.categories.length := by
    unfold categoryParents
    rw [(order.perm _).length_eq, List.length_map]
  have hparents : parentOf (categoryParents order shop) = shop.parentOf := funext (parents_eq hvalid)
  unfold lineage
  rw [hchain, hparents, hlength, Forest.climbUnseen_eq hvalid.acyclic _ hchain]
  intro x hx
  obtain rfl := List.mem_singleton.mp hx
  exact .refl

/-! ### The open assignment -/

omit hvalid in
theorem head_of_all {α : Type} {rows : List α} {P : α → Prop} (hrows : rows ≠ []) (h : ∀ row ∈ rows, P row) :
    ∃ row, rows.head? = some row ∧ P row := by
  obtain ⟨row, rest, rfl⟩ := List.exists_cons_of_ne_nil hrows
  exact ⟨row, rfl, h row List.mem_cons_self⟩

theorem label_cases (hknown : customerId ∈ shop.customers.map CustomerRow.customerId) :
    (Web.getCurrentHistoryRow shop customerId = none ∧
      currentLabel order shop customerId = ⟨.noOpenAssignment, none, none⟩) ∨
    ∃ h segment, Web.getCurrentHistoryRow shop customerId = some segment ∧ segment.labelCode = h.labelCode ∧
      segment.runId = h.runId ∧ currentLabel order shop customerId = labelOf (some h) := by
  obtain ⟨c, hc, rfl⟩ := List.mem_map.mp hknown
  by_cases hopen : ∃ h ∈ shop.history, h.customerId = c.customerId ∧ h.validTo = none
  · obtain ⟨h, hh, howner, hnone⟩ := hopen
    have hview : ∃ r, ((order.arrange ((currentLabelV1 shop).filter fun r =>
        r.1.customerId = c.customerId)).head?) = some r ∧ r.2 = some h := by
      refine head_of_all (List.ne_nil_of_mem ((order.perm _).mem_iff.mpr (List.mem_filter.mpr
        ⟨mem_leftJoin_some.mpr ⟨hc, hh, decide_eq_true ⟨howner, hnone⟩⟩, decide_eq_true rfl⟩))) ?_
      rintro ⟨c', h'⟩ hr
      obtain ⟨hr, hid⟩ := List.mem_filter.mp ((order.perm _).mem_iff.mp hr)
      cases h' with
      | none =>
          have hmiss := (mem_leftJoin_none.mp hr).2 h hh
          exact absurd ⟨howner.trans (of_decide_eq_true hid).symm, hnone⟩ (of_decide_eq_false hmiss)
      | some h' =>
          obtain ⟨-, hh', hon⟩ := mem_leftJoin_some.mp hr
          obtain ⟨howner', hnone'⟩ := of_decide_eq_true hon
          rw [hvalid.openOnce h' hh' h hh hnone' hnone ((howner'.trans (of_decide_eq_true hid)).trans howner.symm)]
    have hruns : ((join (shop.history.filter fun h => h.customerId = c.customerId ∧ h.validTo = none) shop.runs
        fun h r => r.runId = h.runId).map Prod.fst) =
        shop.history.filter fun h => h.customerId = c.customerId ∧ h.validTo = none :=
      map_fst_join hvalid.runKeys fun h' hh' => hvalid.historyRuns h' (List.mem_of_mem_filter hh')
    have htable : ∃ r, ((join (shop.history.filter fun h => h.customerId = c.customerId ∧ h.validTo = none) shop.runs
        fun h r => r.runId = h.runId).head?) = some r ∧ r.1 = h := by
      refine head_of_all (fun hnil => ?_) fun r hr => ?_
      · rw [hnil] at hruns
        exact List.ne_nil_of_mem (List.mem_filter.mpr ⟨hh, decide_eq_true ⟨howner, hnone⟩⟩) hruns.symm
      · obtain ⟨hr, hopen⟩ := List.mem_filter.mp (mem_join.mp hr).1
        obtain ⟨howner', hnone'⟩ := of_decide_eq_true hopen
        exact hvalid.openOnce _ hr h hh hnone' hnone (howner'.trans howner.symm)
    obtain ⟨r, hr, hrow⟩ := hview
    obtain ⟨r', hr', rfl⟩ := htable
    refine .inr ⟨r'.1, _, congrArg (Option.map _) hr', rfl, rfl, ?_⟩
    unfold currentLabel
    rw [hr, ← hrow]
  · have hview : ∃ r, ((order.arrange ((currentLabelV1 shop).filter fun r =>
        r.1.customerId = c.customerId)).head?) = some r ∧ r.2 = none := by
      refine head_of_all (List.ne_nil_of_mem ((order.perm _).mem_iff.mpr (List.mem_filter.mpr
        ⟨mem_leftJoin_none.mpr ⟨hc, fun h hh => decide_eq_false fun hon => hopen ⟨h, hh, hon⟩⟩,
          decide_eq_true rfl⟩))) ?_
      rintro ⟨c', h'⟩ hr
      obtain ⟨hr, hid⟩ := List.mem_filter.mp ((order.perm _).mem_iff.mp hr)
      cases h' with
      | none => rfl
      | some h' =>
          obtain ⟨-, hh', hon⟩ := mem_leftJoin_some.mp hr
          obtain ⟨howner', hnone'⟩ := of_decide_eq_true hon
          exact absurd ⟨h', hh', howner'.trans (of_decide_eq_true hid), hnone'⟩ hopen
    have htable : shop.history.filter (fun h => h.customerId = c.customerId ∧ h.validTo = none) = [] :=
      List.filter_eq_nil_iff.mpr fun h hh hon => hopen ⟨h, hh, of_decide_eq_true hon⟩
    obtain ⟨r, hr, hrow⟩ := hview
    refine .inl ⟨?_, ?_⟩
    · unfold Web.getCurrentHistoryRow
      rw [htable]
      rfl
    · unfold currentLabel
      rw [hr]
      simp only [hrow]
      rfl

/-! ### What a store has in stock -/

/-- A product on the shelf, as the service reads it. -/
def stockedOf (w : Web.StockedProduct) : Stocked := ⟨w.productId, w.categoryId, w.quantityOnHand⟩

def categoryNameOf (shop : Shop) (category : ℤ) : String :=
  ((shop.categories.find? fun c => c.categoryId = category).map CategoryRow.name).getD ""

def productNameOf (shop : Shop) (product : ℤ) : String :=
  ((shop.products.find? fun p => p.productId = product).map ProductRow.name).getD ""

def shelf (shop : Shop) (storeId : ℤ) : List (InventoryRow × ProductRow) :=
  (join shop.inventory shop.products fun i p => p.productId = i.productId).filter fun r =>
    r.1.storeId = storeId ∧ 0 < r.1.quantityOnHand ∧ r.2.isActive

theorem shelf_keys (storeId : ℤ) : ∀ r ∈ shelf shop storeId, ∀ r' ∈ shelf shop storeId,
    r.1.productId = r'.1.productId → r = r' := by
  rintro ⟨i, p⟩ hr ⟨i', p'⟩ hr' h
  obtain ⟨hjoin, hcond⟩ := List.mem_filter.mp hr
  obtain ⟨hjoin', hcond'⟩ := List.mem_filter.mp hr'
  obtain ⟨hi, hp, hon⟩ := mem_join.mp hjoin
  obtain ⟨hi', hp', hon'⟩ := mem_join.mp hjoin'
  have hstore : i.storeId = i'.storeId := (of_decide_eq_true hcond).1.trans (of_decide_eq_true hcond').1.symm
  have hinventory : i = i' := eq_of_key hvalid.inventoryKeys hi' hi (Prod.ext hstore h)
  have hproduct : p = p' := eq_of_key hvalid.productKeys hp' hp
    ((of_decide_eq_true hon).trans (h.trans (of_decide_eq_true hon').symm))
  rw [hinventory, hproduct]

def categorizedShelf (shop : Shop) (storeId : ℤ) : List ((InventoryRow × ProductRow) × CategoryRow) :=
  (join (join shop.inventory shop.products fun i p => p.productId = i.productId) shop.categories
    fun r c => c.categoryId = r.2.categoryId).filter fun r =>
      r.1.1.storeId = storeId ∧ 0 < r.1.1.quantityOnHand ∧ r.1.2.isActive

theorem map_fst_categorizedShelf (storeId : ℤ) :
    (categorizedShelf shop storeId).map Prod.fst = shelf shop storeId := by
  refine (map_fst_filter (q := fun r : InventoryRow × ProductRow =>
    decide (r.1.storeId = storeId ∧ 0 < r.1.quantityOnHand ∧ r.2.isActive)) fun _ _ => rfl).trans ?_
  rw [map_fst_join hvalid.categoryKeys fun r hr => hvalid.productCategories r.2 (mem_join.mp hr).2.1]
  rfl

theorem stocked_eq (storeId : ℤ) :
    (Web.listStockedProducts order' shop storeId).map stockedOf = stockedProducts order shop storeId := by
  have hsort : (sortBy (fun r => r.1.2.productId) (order'.arrange (categorizedShelf shop storeId))).map Prod.fst =
      sortBy (fun r => r.1.productId) (order.arrange (shelf shop storeId)) := by
    have hmap : (sortBy (fun r => r.1.2.productId) (order'.arrange (categorizedShelf shop storeId))).map Prod.fst =
        sortBy (fun r => r.1.productId) ((order'.arrange (categorizedShelf shop storeId)).map Prod.fst) := by
      refine map_sortBy fun r hr => ?_
      obtain ⟨hjoin, -⟩ := List.mem_filter.mp ((order'.perm _).mem_iff.mp hr)
      exact (of_decide_eq_true (mem_join.mp (mem_join.mp hjoin).1).2.2).symm
    have hperm : ((order'.arrange (categorizedShelf shop storeId)).map Prod.fst).Perm
        (order.arrange (shelf shop storeId)) := by
      refine ((order'.perm _).map Prod.fst).trans (.trans (.of_eq ?_) (order.perm _).symm)
      exact map_fst_categorizedShelf hvalid storeId
    rw [hmap]
    refine (sortBy_perm (fun r hr r' hr' h => ?_) hperm.symm).symm
    exact shelf_keys hvalid storeId r ((order.perm _).mem_iff.mp hr) r' ((order.perm _).mem_iff.mp hr') h
  unfold Web.listStockedProducts stockedProducts
  change _ = (sortBy (fun r => r.1.productId) (order.arrange (shelf shop storeId))).map _
  rw [← hsort, List.map_map, List.map_map]
  refine List.map_congr_left fun r hr => ?_
  obtain ⟨hjoin, -⟩ := List.mem_filter.mp ((order'.perm _).mem_iff.mp (mem_sortBy.mp hr))
  have hon : r.1.2.productId = r.1.1.productId := of_decide_eq_true (mem_join.mp (mem_join.mp hjoin).1).2.2
  exact congrArg (fun product => Stocked.mk product r.1.2.categoryId r.1.1.quantityOnHand) hon

theorem stocked_names {storeId : ℤ} {w : Web.StockedProduct}
    (hw : w ∈ Web.listStockedProducts order' shop storeId) :
    w.name = productNameOf shop w.productId ∧ w.categoryName = categoryNameOf shop w.categoryId ∧
      w.categoryId ∈ shop.categories.map CategoryRow.categoryId := by
  obtain ⟨r, hr, rfl⟩ := List.mem_map.mp hw
  obtain ⟨hjoin, -⟩ := List.mem_filter.mp ((order'.perm _).mem_iff.mp (mem_sortBy.mp hr))
  obtain ⟨hshelf, hcategory, hon⟩ := mem_join.mp hjoin
  have hproduct := (mem_join.mp hshelf).2.1
  have hon : r.2.categoryId = r.1.2.categoryId := of_decide_eq_true hon
  refine ⟨?_, ?_, List.mem_map.mpr ⟨r.2, hcategory, hon⟩⟩
  · exact (congrArg (fun row => (row.map ProductRow.name).getD "") (find_key hvalid.productKeys hproduct)).symm
  · have hfind := find_key hvalid.categoryKeys hcategory
    rw [hon] at hfind
    exact (congrArg (fun row => (row.map CategoryRow.name).getD "") hfind).symm

end Bought
end RetailSegmentation.Recommendations
