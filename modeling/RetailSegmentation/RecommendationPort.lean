import RetailSegmentation.RecommendationRows

/-! The service and the web recommend the same products in the same order for the same reasons. -/

namespace RetailSegmentation.Recommendations

open Grouping

/-! ### The same products for the same reasons -/

section Words

variable (shop : Shop) (labelName : String) (windowDays : ℕ) (purchases : ℤ → ℤ) (total : ℤ)

/-- Where a product of a category sits, naming the category that matched when it is another one. -/
def placedWords (category matched : ℤ) : String :=
  if matched = category then s!"In {categoryNameOf shop category}"
  else s!"In {categoryNameOf shop category}, part of {categoryNameOf shop matched}"

def sourceWords (category matched : ℤ) : String :=
  if matched = category then s!"The customer bought from {categoryNameOf shop category}"
  else s!"{placedWords shop category matched}; the customer bought from {categoryNameOf shop matched}"

/-- The service's reason in the web's words; `purchases` counts the purchases that hold a category. -/
def inWords (category : ℤ) (r : Reason) : Web.Reason :=
  match r.signal with
  | .segment => ⟨.segment, Web.segmentText (r.segmentBuyers.getD 0) labelName windowDays⟩
  | .preferredCategory =>
    ⟨.preferredCategory, Web.preferredText (placedWords shop category (r.categoryId.getD 0))⟩
  | .purchaseHistory =>
    ⟨.purchaseHistory, Web.historyText (sourceWords shop category (r.categoryId.getD 0))
      (purchases (r.categoryId.getD 0)) total windowDays⟩

def recommendationOf (item : Item) : Web.Recommendation where
  productId := item.productId
  name := productNameOf shop item.productId
  categoryId := item.categoryId
  categoryName := categoryNameOf shop item.categoryId
  inStock := item.quantityOnHand
  reasons := item.reasons.map (inWords shop labelName windowDays purchases total item.categoryId)

end Words

/-- What the service and the web know of a customer agrees. -/
structure Agree (shop : Shop) (known : Signals) (web : Web.Known) : Prop where
  preferred : ∀ c, c ∈ known.preferred ↔ c ∈ web.preferred
  categoryPurchases : known.categoryPurchases = web.categoryPurchases
  totalPurchases : known.totalPurchases = web.totalPurchases
  purchased : ∀ p, p ∈ known.purchased ↔ p ∈ web.purchased
  buyers : ∀ p, known.buyers.at p 0 = web.buyers.at p 0
  lineage : ∀ c, web.lineage c = .ok (lineage c known.parents)
  names : ∀ c ∈ shop.categories.map CategoryRow.categoryId, web.categoryName c = .ok (categoryNameOf shop c)
  preferredKnown : ∀ c ∈ web.preferred, c ∈ shop.categories.map CategoryRow.categoryId
  boughtKnown : ∀ e ∈ web.categoryPurchases, e.1 ∈ shop.categories.map CategoryRow.categoryId

theorem nearest_congr {chain matching matching' : List ℤ} (h : ∀ c, c ∈ matching ↔ c ∈ matching') :
    nearest chain matching = nearest chain matching' := by
  unfold nearest
  simp only [h]

theorem mem_of_nearest {chain matching : List ℤ} {c : ℤ} (h : nearest chain matching = some c) : c ∈ matching :=
  of_decide_eq_true (List.find?_some (p := fun c => decide (c ∈ matching)) h)

section Agree

variable {shop : Shop} {known : Signals} {web : Web.Known} (hagree : Agree shop known web)

include hagree

theorem placed_eq {w : Web.StockedProduct} (hname : w.categoryName = categoryNameOf shop w.categoryId) {c : ℤ}
    (hc : c ∈ shop.categories.map CategoryRow.categoryId) :
    web.placed w c = .ok (placedWords shop w.categoryId c) := by
  unfold Web.Known.placed placedWords
  rw [hname, hagree.names c hc]
  split_ifs <;> rfl

theorem source_eq {w : Web.StockedProduct} (hname : w.categoryName = categoryNameOf shop w.categoryId) {c : ℤ}
    (hc : c ∈ shop.categories.map CategoryRow.categoryId) :
    web.source w c = .ok (sourceWords shop w.categoryId c) := by
  unfold Web.Known.source sourceWords
  rw [hname, placed_eq hagree hname hc, hagree.names c hc]
  split_ifs <;> rfl

variable {P : ℤ → ℤ} (hpurchases : ∀ e ∈ web.categoryPurchases, P e.1 = web.categoryPurchases.at e.1 0)
  {w : Web.StockedProduct} (hname : w.categoryName = categoryNameOf shop w.categoryId)

theorem segmentReasons_eq : web.segmentReasons w = (known.segmentReasons (stockedOf w)).map
    (inWords shop web.labelName web.windowDays P web.totalPurchases w.categoryId) := by
  unfold Web.Known.segmentReasons Signals.segmentReasons Signals.segmentBuyers
  rw [← hagree.buyers]
  change (if 1 ≤ known.buyers.at w.productId 0 then _ else _) = List.map _ (if 1 ≤ known.buyers.at w.productId 0 then _ else _)
  split_ifs <;> rfl

include hname

theorem preferredReasons_eq {matched : Option ℤ}
    (hmatched : ∀ c, matched = some c → c ∈ shop.categories.map CategoryRow.categoryId) :
    web.preferredReasons w matched = .ok ((preferredReasons matched).map
      (inWords shop web.labelName web.windowDays P web.totalPurchases w.categoryId)) := by
  cases matched with
  | none => rfl
  | some c =>
      simp only [Web.Known.preferredReasons, placed_eq hagree hname (hmatched c rfl)]
      rfl

include hpurchases

theorem historyReasons_eq {matched : Option ℤ} (hmatched : ∀ c, matched = some c → c ∈ web.boughtCategories) :
    web.historyReasons w matched = .ok ((known.historyReasons matched).map
      (inWords shop web.labelName web.windowDays P web.totalPurchases w.categoryId)) := by
  cases matched with
  | none => rfl
  | some c =>
      obtain ⟨e, he, rfl⟩ := List.mem_map.mp (hmatched c rfl)
      have he := List.mem_of_mem_filter he
      simp only [Web.Known.historyReasons, source_eq hagree hname (hagree.boughtKnown e he), Web.Known.history,
        ← hpurchases e he]
      rfl

omit hpurchases hname in
theorem bought_eq : web.boughtCategories = known.bought := by
  unfold Web.Known.boughtCategories Signals.bought
  rw [hagree.categoryPurchases]

omit hpurchases hname in
theorem history_eq (matched : Option ℤ) : web.history matched = known.history matched := by
  cases matched with
  | none => rfl
  | some c =>
      unfold Web.Known.history Signals.history
      rw [hagree.categoryPurchases]

theorem candidate_eq (hproduct : w.name = productNameOf shop w.productId) :
    web.candidate w = .ok ((known.candidate (stockedOf w)).map fun e =>
      (e.1, recommendationOf shop web.labelName web.windowDays P web.totalPurchases e.2)) := by
  have hliked : nearest (lineage w.categoryId known.parents) web.preferred = known.liked (stockedOf w) :=
    nearest_congr fun c => (hagree.preferred c).symm
  have hbought : nearest (lineage w.categoryId known.parents) web.boughtCategories =
      known.historyCategory (stockedOf w) := by
    rw [bought_eq hagree]
    rfl
  have hskip : (w.quantityOnHand ≤ 0 ∨ w.productId ∈ web.purchased) ↔
      ((stockedOf w).quantityOnHand ≤ 0 ∨ (stockedOf w).productId ∈ known.purchased) :=
    or_congr_right (hagree.purchased w.productId).symm
  have hpreferred := preferredReasons_eq (P := P) hagree hname fun c hc =>
    hagree.preferredKnown c (mem_of_nearest (hliked.trans hc))
  have hhistory := historyReasons_eq hagree hpurchases hname fun c hc => mem_of_nearest (hbought.trans hc)
  have hreasons : web.segmentReasons w ++ (preferredReasons (known.liked (stockedOf w))).map
      (inWords shop web.labelName web.windowDays P web.totalPurchases w.categoryId) ++
      (known.historyReasons (known.historyCategory (stockedOf w))).map
      (inWords shop web.labelName web.windowDays P web.totalPurchases w.categoryId) =
      (known.reasons (stockedOf w)).map
        (inWords shop web.labelName web.windowDays P web.totalPurchases w.categoryId) := by
    rw [segmentReasons_eq hagree, ← List.map_append, ← List.map_append]
    rfl
  unfold Web.Known.candidate Signals.candidate
  by_cases hout : w.quantityOnHand ≤ 0 ∨ w.productId ∈ web.purchased
  · rw [if_pos hout, if_pos (hskip.mp hout)]
    rfl
  · rw [if_neg hout, if_neg (mt hskip.mpr hout)]
    simp only [hagree.lineage, bind, Except.bind, hliked, hbought, hpreferred, hhistory, hreasons,
      history_eq hagree, ← hagree.buyers, List.map_eq_nil_iff, List.length_map]
    by_cases hnone : known.reasons (stockedOf w) = []
    · rw [if_pos hnone, if_pos hnone]
      rfl
    · rw [if_neg hnone, if_neg hnone, hproduct, hname]
      rfl

omit hname in
theorem rankCandidates_eq {stocked : List Web.StockedProduct} (hnames : ∀ w ∈ stocked,
      w.name = productNameOf shop w.productId ∧ w.categoryName = categoryNameOf shop w.categoryId) (limit : ℕ) :
    Web.rankCandidates web stocked limit = .ok ((rank known (stocked.map stockedOf) limit).map
      (recommendationOf shop web.labelName web.windowDays P web.totalPurchases)) := by
  have hcandidates : stocked.mapM web.candidate = .ok (stocked.map fun w =>
      (known.candidate (stockedOf w)).map fun e =>
        (e.1, recommendationOf shop web.labelName web.windowDays P web.totalPurchases e.2)) := by
    induction stocked with
    | nil => rfl
    | cons w stocked ih =>
        obtain ⟨hproduct, hname⟩ := hnames w List.mem_cons_self
        rw [List.mapM_cons, candidate_eq hagree hpurchases hname hproduct,
          ih fun w' hw' => hnames w' (List.mem_cons_of_mem w hw')]
        rfl
  unfold Web.rankCandidates rank
  rw [hcandidates]
  have hranked : (stocked.map fun w => (known.candidate (stockedOf w)).map fun e =>
      (e.1, recommendationOf shop web.labelName web.windowDays P web.totalPurchases e.2)).filterMap id =
      ((stocked.map stockedOf).filterMap known.candidate).map fun e =>
        (e.1, recommendationOf shop web.labelName web.windowDays P web.totalPurchases e.2) := by
    rw [List.filterMap_map, List.filterMap_map, List.map_filterMap]
    rfl
  change Except.ok (((sortBy Prod.fst (List.filterMap id _)).take limit).map Prod.snd) = _
  rw [hranked, ← map_sortBy fun _ _ => rfl, ← List.map_take, List.map_map, List.map_map]
  rfl

end Agree
/-! ### One customer -/

section Customer

variable {shop : Shop} {customerId : String} {since until_ : Instant} {order order' : RowOrder}
    (hvalid : shop.Valid)

/-- What the service knows of the customer when it ranks. -/
def signalsOf (order : RowOrder) (shop : Shop) (customerId code : String) (since until_ : Instant) : Signals where
  preferred := interestCategories order shop customerId
  categoryPurchases := topCategories (purchaseLines order shop customerId since until_) topCategoriesLimit
  parents := categoryParents order shop
  totalPurchases := (((purchaseLines order shop customerId since until_).map Line.transactionId).toFinset.card : ℤ)
  purchased := (purchaseLines order shop customerId since until_).map Line.productId
  buyers := segmentBuyers order shop code customerId since until_

include hvalid

theorem favourites_known {e : ℤ × ℤ} {limit : ℕ}
    (he : e ∈ topCategories (purchaseLines order shop customerId since until_) limit) :
    e.1 ∈ shop.categories.map CategoryRow.categoryId ∧
      purchasesOf shop customerId since until_ e.1 =
        (topCategories (purchaseLines order shop customerId since until_) limit).at e.1 0 := by
  have hkeys : (topCategories (purchaseLines order shop customerId since until_) limit).keys.Nodup := by
    unfold topCategories Dict.keys
    rw [List.map_map]
    refine List.Nodup.map (fun _ _ h => h) (.sublist (List.take_sublist limit _) ?_)
    exact (perm_sortBy _ _).nodup_iff.mpr nodup_purchasesBy
  have hat : (topCategories (purchaseLines order shop customerId since until_) limit).at e.1 0 = e.2 := by
    unfold Dict.at
    rw [(lookup_eq_some hkeys).mpr he]
    rfl
  obtain ⟨c, hc, rfl⟩ := List.mem_map.mp he
  obtain ⟨l, hl, rfl⟩ := mem_purchasesBy.mp (mem_sortBy.mp (List.mem_of_mem_take hc))
  obtain ⟨b, hb, rfl⟩ := List.mem_map.mp (purchaseLines_perm.mem_iff.mp hl)
  refine ⟨hvalid.productCategories b.2 (mem_join.mp (List.mem_of_mem_filter hb)).2.1, ?_⟩
  rw [hat, category_purchases]

theorem known_lineage {profile : Web.ConsumptionProfile} {code labelName : String} (c : ℤ) :
    (Web.knownOf order' shop profile code labelName).lineage c = .ok (lineage c (categoryParents order shop)) := by
  have hparent : (fun c => ((Web.knownOf order' shop profile code labelName).categories.lookup c).bind
      CategoryRow.parentCategoryId) = shop.parentOf :=
    funext fun c => congrArg (Option.bind · CategoryRow.parentCategoryId) (categories_lookup hvalid c)
  have hlength : (Web.knownOf order' shop profile code labelName).categories.length = shop.categories.length :=
    (List.length_map _).trans (order'.perm _).length_eq
  have hclimb : Forest.climb shop.parentOf (shop.categories.length + 1) c =
      some (lineage c (categoryParents order shop)) := lineage_eq hvalid c
  unfold Web.Known.lineage
  rw [hparent, hlength, hclimb]
  rfl

theorem known_name {profile : Web.ConsumptionProfile} {code labelName : String} {c : ℤ}
    (hc : c ∈ shop.categories.map CategoryRow.categoryId) :
    (Web.knownOf order' shop profile code labelName).categoryName c = .ok (categoryNameOf shop c) := by
  obtain ⟨row, hrow, rfl⟩ := List.mem_map.mp hc
  have hfind := find_key hvalid.categoryKeys hrow
  have hlookup : (Web.knownOf order' shop profile code labelName).categories.lookup row.categoryId = some row :=
    (categories_lookup hvalid row.categoryId).trans hfind
  unfold Web.Known.categoryName categoryNameOf
  rw [hlookup, hfind]
  rfl

theorem agree_of_profile {profile : Web.ConsumptionProfile} {code labelName : String}
    (hcustomer : profile.customerId = customerId) (hstart : profile.windowStart = since)
    (hend : profile.windowEnd = until_)
    (hcount : profile.purchaseCount.getD 0 = (Web.getSalesTotals shop customerId since until_).1)
    (hfavourites : profile.favouriteCategories =
      Web.rankCategories (Web.listCategoryTotals order' shop customerId since until_) topCategoriesLimit) :
    Agree shop (signalsOf order shop customerId code since until_) (Web.knownOf order' shop profile code labelName) := by
  subst hcustomer hstart hend
  have htop : topCategories (purchaseLines order shop profile.customerId profile.windowStart profile.windowEnd)
      topCategoriesLimit = (Web.knownOf order' shop profile code labelName).categoryPurchases := by
    rw [topCategories_eq hvalid, ← hfavourites]
    rfl
  exact
    { preferred := fun c => mem_interests hvalid
      categoryPurchases := htop
      totalPurchases := (total_eq hvalid).trans hcount.symm
      purchased := fun p => mem_purchased
      buyers := fun p => buyers_eq hvalid code p
      lineage := fun c => known_lineage hvalid c
      names := fun c hc => known_name hvalid hc
      preferredKnown := fun c hc => by
        obtain ⟨row, hrow, rfl⟩ := List.mem_map.mp hc
        obtain ⟨r, hr, rfl⟩ := List.mem_map.mp ((order'.perm _).mem_iff.mp hrow)
        exact List.mem_map_of_mem (mem_join.mp hr).2.1
      boughtKnown := fun e he => (favourites_known hvalid (htop ▸ he)).1 }

theorem no_store (hnone : Web.sales shop customerId since until_ = []) :
    dominantStore (purchaseLines order shop customerId since until_) = none := by
  have hlines : purchaseLines order shop customerId since until_ = [] := by
    refine List.eq_nil_iff_forall_not_mem.mpr fun l hl => ?_
    obtain ⟨b, hb, -⟩ := List.mem_map.mp (purchaseLines_perm.mem_iff.mp hl)
    have hsale := (mem_bought hvalid hb).1
    rw [hnone] at hsale
    cases hsale
  rw [hlines]
  rfl

end Customer

/-! ### The whole answer -/

/-- The service's status as the web says it: both statuses without a segment are one. -/
def webStatus : Status → Web.Status
  | .recommended => .recommended
  | .noOpenAssignment => .noSegment
  | .unassignedResult => .noSegment
  | .noUsualStore => .noUsualStore
  | .noneMatch => .noneMatch

/-- The number of the customer's purchases in the window. -/
def totalOf (shop : Shop) (customerId : String) (since until_ : Instant) : ℤ :=
  (Web.sales shop customerId since until_).length

/-- The web and the service answer the same for one customer. -/
structure SameAnswer (shop : Shop) (windowDays : ℕ) (web : Web.RecommendationResult) (port : Result) : Prop where
  customer : web.customerId = port.customerId
  status : web.status = webStatus port.status
  windowStart : web.windowStart = port.windowStart
  windowEnd : web.windowEnd = port.windowEnd
  label : web.labelCode = port.labelCode
  store : web.storeId = port.usualStoreId
  recommendations : web.recommendations = port.items.map (recommendationOf shop (web.labelName.getD "") windowDays
    (purchasesOf shop port.customerId port.windowStart port.windowEnd)
    (totalOf shop port.customerId port.windowStart port.windowEnd))
  shares : ∀ item ∈ port.items, ∀ r ∈ item.reasons, r.signal = .purchaseHistory → ∃ category,
    r.categoryId = some category ∧ r.share = some (share
      (purchasesOf shop port.customerId port.windowStart port.windowEnd category)
      (totalOf shop port.customerId port.windowStart port.windowEnd))

section Answer

variable {shop : Shop} {customerId : String} {order order' : RowOrder} {windowDays limit : ℕ} {asOf : Instant}

theorem profile_base (customer : CustomerRow) :
    (Web.profileOf order' shop customer windowDays asOf).customerId = customer.customerId ∧
      (Web.profileOf order' shop customer windowDays asOf).windowDays = windowDays ∧
      (Web.profileOf order' shop customer windowDays asOf).windowStart = asOf - days windowDays ∧
      (Web.profileOf order' shop customer windowDays asOf).windowEnd = asOf ∧
      (Web.profileOf order' shop customer windowDays asOf).currentSegment =
        Web.getCurrentHistoryRow shop customer.customerId := by
  unfold Web.profileOf
  dsimp only
  split_ifs <;> exact ⟨rfl, rfl, rfl, rfl, rfl⟩

theorem profile_totals (customer : CustomerRow) :
    Web.sales shop customer.customerId (asOf - days windowDays) asOf = [] ∧
        (Web.profileOf order' shop customer windowDays asOf).dominantStore = none ∨
      (Web.profileOf order' shop customer windowDays asOf).purchaseCount =
          some (Web.getSalesTotals shop customer.customerId (asOf - days windowDays) asOf).1 ∧
        (Web.profileOf order' shop customer windowDays asOf).dominantStore =
          Web.rankDominant (Web.listStoreTotals order' shop customer.customerId (asOf - days windowDays) asOf) ∧
        (Web.profileOf order' shop customer windowDays asOf).favouriteCategories = Web.rankCategories
          (Web.listCategoryTotals order' shop customer.customerId (asOf - days windowDays) asOf) topCategoriesLimit := by
  unfold Web.profileOf
  dsimp only
  split_ifs with hzero
  · exact .inl ⟨List.length_eq_zero_iff.mp (Int.ofNat_eq_zero.mp hzero), rfl⟩
  · exact .inr ⟨rfl, rfl, rfl⟩

/-- The service's answer as far as the window decides it. -/
def answerOf (customerId : String) (windowDays : ℕ) (asOf : Instant) (status : Status) : Result :=
  { customerId, status, windowStart := asOf - days windowDays, windowEnd := asOf }

theorem recommend_unassigned {h : HistoryRow} (hlabel : currentLabel order shop customerId = labelOf (some h))
    (hcode : h.labelCode = none) : recommend (viewReads order shop) windowDays customerId asOf limit =
      answerOf customerId windowDays asOf .unassignedResult := by
  have hlabel : (viewReads order shop).currentLabel customerId = ⟨.unassignedResult, none, some h.runId⟩ := by
    rw [← labelOf_none hcode]
    exact hlabel
  unfold recommend
  rw [hlabel]
  rfl

theorem recommend_no_assignment
    (hlabel : currentLabel order shop customerId = ⟨.noOpenAssignment, none, none⟩) :
    recommend (viewReads order shop) windowDays customerId asOf limit =
      answerOf customerId windowDays asOf .noOpenAssignment := by
  have hlabel : (viewReads order shop).currentLabel customerId = ⟨.noOpenAssignment, none, none⟩ := hlabel
  unfold recommend
  rw [hlabel]
  rfl

theorem recommend_no_store {h : HistoryRow} {code : String}
    (hlabel : currentLabel order shop customerId = labelOf (some h)) (hcode : h.labelCode = some code)
    (hstore : dominantStore (purchaseLines order shop customerId (asOf - days windowDays) asOf) = none) :
    recommend (viewReads order shop) windowDays customerId asOf limit =
      { answerOf customerId windowDays asOf .noUsualStore with labelCode := some code, runId := some h.runId } := by
  have hlabel : (viewReads order shop).currentLabel customerId = ⟨.assigned, some code, some h.runId⟩ := by
    rw [← labelOf_some hcode]
    exact hlabel
  unfold recommend
  rw [hlabel]
  simp only [bind, viewReads, hstore]
  rfl

theorem recommend_from_store {h : HistoryRow} {code : String} {store : ℤ}
    (hlabel : currentLabel order shop customerId = labelOf (some h)) (hcode : h.labelCode = some code)
    (hstore : dominantStore (purchaseLines order shop customerId (asOf - days windowDays) asOf) = some store)
    {items : List Item} (hitems : rank (signalsOf order shop customerId code (asOf - days windowDays) asOf)
      (stockedProducts order shop store) limit = items) :
    recommend (viewReads order shop) windowDays customerId asOf limit =
      { answerOf customerId windowDays asOf (if items = [] then .noneMatch else .recommended) with
        labelCode := some code
        runId := some h.runId
        usualStoreId := some store
        items } := by
  have hlabel : (viewReads order shop).currentLabel customerId = ⟨.assigned, some code, some h.runId⟩ := by
    rw [← labelOf_some hcode]
    exact hlabel
  subst hitems
  unfold recommend
  rw [hlabel]
  simp only [bind, viewReads, hstore]
  rfl

theorem mem_rank {known : Signals} {stocked : List Stocked} {item : Item} (h : item ∈ rank known stocked limit) :
    ∃ product, item.reasons = known.reasons product := by
  obtain ⟨e, he, rfl⟩ := List.mem_map.mp h
  obtain ⟨product, -, hcandidate⟩ := List.mem_filterMap.mp (mem_sortBy.mp (List.mem_of_mem_take he))
  refine ⟨product, ?_⟩
  unfold Signals.candidate at hcandidate
  split_ifs at hcandidate
  cases hcandidate
  rfl

theorem history_of_reason {known : Signals} {product : Stocked} {r : Reason} (h : r ∈ known.reasons product)
    (hsignal : r.signal = .purchaseHistory) : ∃ c ∈ known.bought,
    r.categoryId = some c ∧ r.share = some (share (known.categoryPurchases.at c 0) known.totalPurchases) := by
  obtain h | h := List.mem_append.mp h
  · obtain h | h := List.mem_append.mp h
    · unfold Signals.segmentReasons at h
      split_ifs at h
      · obtain rfl := List.mem_singleton.mp h
        cases hsignal
      · cases h
    · unfold preferredReasons at h
      split at h
      · cases h
      · obtain rfl := List.mem_singleton.mp h
        cases hsignal
  · unfold Signals.historyReasons at h
    split at h
    · cases h
    case h_2 c hmatched =>
      obtain rfl := List.mem_singleton.mp h
      exact ⟨c, mem_of_nearest hmatched, rfl, rfl⟩

/-! ### What the web answers -/

theorem build_profile (hknown : customerId ∈ shop.customers.map CustomerRow.customerId)
    (hwindow : Web.minWindowDays ≤ windowDays ∧ windowDays ≤ Web.maxWindowDays) :
    ∃ customer : CustomerRow, customer.customerId = customerId ∧
      Web.buildProfile order' shop customerId windowDays asOf =
        .ok (Web.profileOf order' shop customer windowDays asOf) := by
  obtain ⟨row, hrow, hid⟩ := List.mem_map.mp hknown
  obtain ⟨customer, hcustomer⟩ := Option.isSome_iff_exists.mp
    (List.find?_isSome.mpr ⟨row, hrow, decide_eq_true hid⟩ :
      (shop.customers.find? fun c => c.customerId = customerId).isSome)
  have hfound := List.find?_some hcustomer
  refine ⟨customer, of_decide_eq_true hfound, ?_⟩
  unfold Web.buildProfile Web.getCustomer
  rw [if_pos hwindow, hcustomer]
  rfl

section Valid

variable (hvalid : shop.Valid)

include hvalid

/-- A reason from the history says the share of the customer's purchases that hold its category. -/
theorem shares_eq {code : String} {since until_ : Instant} {stocked : List Stocked} :
    ∀ item ∈ rank (signalsOf order shop customerId code since until_) stocked limit, ∀ r ∈ item.reasons,
      r.signal = .purchaseHistory → ∃ category, r.categoryId = some category ∧
        r.share = some (share (purchasesOf shop customerId since until_ category)
          (totalOf shop customerId since until_)) := by
  intro item hitem r hr hsignal
  obtain ⟨product, hproduct⟩ := mem_rank hitem
  rw [hproduct] at hr
  obtain ⟨category, hbought, hcategory, hshare⟩ := history_of_reason hr hsignal
  obtain ⟨e, he, rfl⟩ := List.mem_map.mp hbought
  obtain ⟨-, hpurchases⟩ := favourites_known hvalid (List.mem_of_mem_filter he)
  have htotal : (signalsOf order shop customerId code since until_).totalPurchases =
      totalOf shop customerId since until_ := total_eq hvalid
  rw [htotal] at hshare
  refine ⟨e.1, hcategory, hshare.trans ?_⟩
  rw [hpurchases]
  rfl

omit hvalid in
theorem same_without_segment (customer : CustomerRow) {status : Status} (hstatus : webStatus status = .noSegment) :
    SameAnswer shop windowDays (Web.baseResult (Web.profileOf order' shop customer windowDays asOf))
      (answerOf customer.customerId windowDays asOf status) := by
  obtain ⟨hcustomer, -, hstart, hend, -⟩ := @profile_base shop order' windowDays asOf customer
  exact
    { customer := hcustomer
      status := hstatus.symm
      windowStart := hstart
      windowEnd := hend
      label := rfl
      store := rfl
      recommendations := rfl
      shares := fun _ hitem => by cases hitem }

omit hvalid in
theorem same_without_store (customer : CustomerRow) {h : HistoryRow} {code labelName : String}
    (hlabel : currentLabel order shop customer.customerId = labelOf (some h)) (hcode : h.labelCode = some code)
    (hstore : dominantStore (purchaseLines order shop customer.customerId (asOf - days windowDays) asOf) = none)
    (hprofile : (Web.profileOf order' shop customer windowDays asOf).dominantStore = none) :
    ∃ answer, Web.recommendTo order' shop (Web.profileOf order' shop customer windowDays asOf) code labelName limit =
        .ok answer ∧
      SameAnswer shop windowDays answer
        (recommend (viewReads order shop) windowDays customer.customerId asOf limit) := by
  obtain ⟨hcustomer, -, hstart, hend, -⟩ := @profile_base shop order' windowDays asOf customer
  unfold Web.recommendTo
  rw [hprofile, recommend_no_store hlabel hcode hstore]
  exact ⟨_, rfl,
    { customer := hcustomer
      status := rfl
      windowStart := hstart
      windowEnd := hend
      label := rfl
      store := rfl
      recommendations := rfl
      shares := fun _ hitem => by cases hitem }⟩

theorem same_with_store (customer : CustomerRow) {h : HistoryRow} {code labelName : String}
    (hlabel : currentLabel order shop customer.customerId = labelOf (some h)) (hcode : h.labelCode = some code)
    (hcount : (Web.profileOf order' shop customer windowDays asOf).purchaseCount =
      some (Web.getSalesTotals shop customer.customerId (asOf - days windowDays) asOf).1)
    (hfavourites : (Web.profileOf order' shop customer windowDays asOf).favouriteCategories = Web.rankCategories
      (Web.listCategoryTotals order' shop customer.customerId (asOf - days windowDays) asOf) topCategoriesLimit)
    {store : Web.GroupTotal}
    (hdominant : (Web.profileOf order' shop customer windowDays asOf).dominantStore = some store)
    (hstore : dominantStore (purchaseLines order shop customer.customerId (asOf - days windowDays) asOf) =
      some store.itemId) :
    ∃ answer, Web.recommendTo order' shop (Web.profileOf order' shop customer windowDays asOf) code labelName limit =
        .ok answer ∧
      SameAnswer shop windowDays answer
        (recommend (viewReads order shop) windowDays customer.customerId asOf limit) := by
  obtain ⟨hcustomer, hdays, hstart, hend, -⟩ := @profile_base shop order' windowDays asOf customer
  set profile := Web.profileOf order' shop customer windowDays asOf with hprofile
  have hagree : Agree shop (signalsOf order shop customer.customerId code (asOf - days windowDays) asOf)
      (Web.knownOf order' shop profile code labelName) :=
    agree_of_profile hvalid hcustomer hstart hend (by rw [hcount]; rfl) hfavourites
  have htotal : (Web.knownOf order' shop profile code labelName).totalPurchases =
      totalOf shop customer.customerId (asOf - days windowDays) asOf := by
    change profile.purchaseCount.getD 0 = _
    rw [hcount]
    rfl
  have hnames : ∀ w ∈ Web.listStockedProducts order' shop store.itemId,
      w.name = productNameOf shop w.productId ∧ w.categoryName = categoryNameOf shop w.categoryId :=
    fun w hw => ⟨(stocked_names hvalid hw).1, (stocked_names hvalid hw).2.1⟩
  have hpurchases : ∀ e ∈ (Web.knownOf order' shop profile code labelName).categoryPurchases,
      purchasesOf shop customer.customerId (asOf - days windowDays) asOf e.1 =
        (Web.knownOf order' shop profile code labelName).categoryPurchases.at e.1 0 := by
    rw [← hagree.categoryPurchases]
    exact fun e he => (favourites_known hvalid he).2
  have hranked := rankCandidates_eq hagree hpurchases hnames limit
  rw [@stocked_eq shop order order' hvalid, htotal] at hranked
  unfold Web.recommendTo
  rw [hdominant]
  simp only [hranked, bind, Except.bind]
  rw [recommend_from_store hlabel hcode hstore rfl]
  refine ⟨_, rfl,
    { customer := hcustomer
      status := ?_
      windowStart := hstart
      windowEnd := hend
      label := rfl
      store := rfl
      recommendations := ?_
      shares := shares_eq hvalid }⟩
  · simp only [List.map_eq_nil_iff]
    split_ifs <;> rfl
  · change List.map (recommendationOf shop labelName profile.windowDays _ _) _ = _
    rw [hdays]
    rfl

end Valid

/-- The service and the web answer the same, whatever order their rows come in. -/
theorem recommend_as_web (hvalid : shop.Valid) (hknown : customerId ∈ shop.customers.map CustomerRow.customerId)
    (hwindow : Web.minWindowDays ≤ windowDays ∧ windowDays ≤ Web.maxWindowDays)
    (hlimit : 1 ≤ limit ∧ limit ≤ Web.maxLimit) :
    ∃ answer, Web.recommend order' shop customerId windowDays limit asOf = .ok answer ∧
      SameAnswer shop windowDays answer (recommend (viewReads order shop) windowDays customerId asOf limit) := by
  obtain ⟨customer, rfl, hbuild⟩ := @build_profile shop customerId order' windowDays asOf hknown hwindow
  obtain ⟨-, -, -, -, hsegment⟩ := @profile_base shop order' windowDays asOf customer
  unfold Web.recommend Web.checkLimit
  rw [if_pos hlimit]
  simp only [bind, Except.bind, hbuild, pure, Except.pure, hsegment]
  obtain ⟨hnone, hlabel⟩ | ⟨h, segment, hsome, hcode, -, hlabel⟩ :=
    @label_cases shop customer.customerId order hvalid hknown
  · rw [hnone, recommend_no_assignment hlabel]
    exact ⟨_, rfl, same_without_segment customer rfl⟩
  rw [hsome]
  simp only [hcode]
  cases hassigned : h.labelCode with
  | none =>
      rw [recommend_unassigned hlabel hassigned]
      exact ⟨_, rfl, same_without_segment customer rfl⟩
  | some code =>
      obtain ⟨hsales, hprofile⟩ | ⟨hcount, hdominant, hfavourites⟩ :=
        @profile_totals shop order' windowDays asOf customer
      · exact same_without_store customer hlabel hassigned (no_store hvalid hsales) hprofile
      have hstore :=
        @dominantStore_eq shop customer.customerId (asOf - days windowDays) asOf order order' hvalid
      rw [← hdominant] at hstore
      cases hfound : (Web.profileOf order' shop customer windowDays asOf).dominantStore with
      | none =>
          rw [hfound] at hstore
          exact same_without_store customer hlabel hassigned hstore hfound
      | some store =>
          rw [hfound] at hstore
          exact same_with_store hvalid customer hlabel hassigned hcount hfavourites hfound hstore

end Answer

/-- A shop where one customer likes a category above what is on the shelf, and another of the segment bought
something else of it. -/
def cornerShop : Shop where
  customers := [⟨"a", "Ana"⟩, ⟨"b", "Ben"⟩]
  categories := [⟨1, "Dairy", none⟩, ⟨2, "Milk", some 1⟩, ⟨3, "Bread", none⟩]
  products := [⟨10, "Oat", 2, true⟩, ⟨11, "Cow", 2, true⟩, ⟨12, "Roll", 3, true⟩]
  stores := [⟨1, "North"⟩]
  channels := [⟨1, "Web"⟩]
  transactions := [⟨1, "a", 1, 1, 0, 200, .observed⟩, ⟨2, "b", 1, 1, 0, 100, .observed⟩]
  lines := [⟨1, 10, 2, 100⟩, ⟨2, 12, 1, 100⟩]
  inventory := [⟨1, 11, 5⟩, ⟨1, 12, 5⟩, ⟨1, 10, 3⟩]
  interests := [⟨"a", 1⟩]
  runs := [⟨7, .observed⟩]
  labels := [⟨"loyal", "Loyal"⟩]
  history := [⟨1, "a", 7, some "loyal", none⟩, ⟨2, "b", 7, some "loyal", none⟩]

theorem cornerShop_valid : cornerShop.Valid where
  customerKeys := by decide
  categoryKeys := by decide
  productKeys := by decide
  storeKeys := by decide
  channelKeys := by decide
  transactionKeys := by decide
  inventoryKeys := by decide
  runKeys := by decide
  parents := by
    have h : ∀ c ∈ cornerShop.categories, ∀ p ∈ c.parentCategoryId,
        p ∈ cornerShop.categories.map CategoryRow.categoryId := by decide
    exact h
  acyclic := by
    have h : ∀ c ∈ cornerShop.categories, ∀ p ∈ c.parentCategoryId, p < c.categoryId := by decide
    refine Forest.acyclic_of_lt id fun a b hab => ?_
    obtain ⟨row, hrow, hparent⟩ := Option.bind_eq_some_iff.mp hab
    have hid := List.find?_some hrow
    exact lt_of_lt_of_eq (h row (List.mem_of_find?_eq_some hrow) b hparent) (of_decide_eq_true hid)
  productCategories := by decide
  transactionStores := by decide
  lineProducts := by decide
  stockedProducts := by decide
  interestCategories := by decide
  historyCustomers := by decide
  historyRuns := by decide
  openOnce := by decide
  totals := by decide
  lined := by decide

theorem recommend_as_web_corner :
    (recommend (viewReads .asStored cornerShop) 180 "a" 5 10 : Result).items.length = 2 ∧
      ∃ answer, Web.recommend .asStored cornerShop "a" 180 10 5 = .ok answer ∧
        SameAnswer cornerShop 180 answer (recommend (viewReads .asStored cornerShop) 180 "a" 5 10) :=
  ⟨by decide +kernel, recommend_as_web cornerShop_valid (by decide) (by decide) (by decide)⟩

end RetailSegmentation.Recommendations
