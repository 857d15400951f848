import RetailSegmentation.ConsumptionShiftProfile
import RetailSegmentation.RecommendationRows

/-! The profile and the shift report agree about a customer: the totals of one customer are the same read
alone or with everyone's, and they are judged alike. -/

namespace RetailSegmentation.ConsumptionShifts

open Grouping Recommendations Recommendations.Web

/-! ### Leaders do not depend on the order of the rows -/

theorem max?_perm {l l' : List ℤ} (h : l.Perm l') : l.max? = l'.max? := by
  refine Option.ext fun m => ?_
  rw [List.max?_eq_some_iff, List.max?_eq_some_iff, h.mem_iff]
  simp only [h.mem_iff]

theorem groupLeader_perm {groups groups' : List GroupTotal} (hids : (groups.map GroupTotal.itemId).Nodup)
    (h : groups.Perm groups') (period : ℤ) : groupLeader groups period = groupLeader groups' period := by
  have htop : rankDominant groups = rankDominant groups' :=
    leastBy_perm (fun a ha b hb hrank => eq_of_key hids hb ha (storeKey_id hrank)) h
  have hothers : ∀ top : GroupTotal, ((groups.filter fun g => g.itemId ≠ top.itemId).map GroupTotal.purchases).max? =
      ((groups'.filter fun g => g.itemId ≠ top.itemId).map GroupTotal.purchases).max? := fun top =>
    max?_perm ((h.filter _).map _)
  simp only [groupLeader, htop, hothers]

theorem categoryLeaders_perm {groups groups' : List CategoryTotal}
    (hids : (groups.map CategoryTotal.categoryId).Nodup)
    (h : groups.Perm groups') (period : ℤ) : categoryLeaders groups period = categoryLeaders groups' period := by
  have hsorted : sortBy CategoryTotal.rank groups = sortBy CategoryTotal.rank groups' :=
    sortBy_perm (fun a ha b hb hrank => eq_of_key hids hb ha (categoryKey_id hrank)) h
  have hranked : rankCategories groups groups.length = rankCategories groups' groups'.length := by
    unfold rankCategories
    rw [hsorted, h.length_eq]
  unfold categoryLeaders
  rw [hranked]

theorem customerLeaders_perm {channels channels' stores stores' : List GroupTotal}
    {categories categories' : List CategoryTotal} (hchannels : (channels.map GroupTotal.itemId).Nodup)
    (hstores : (stores.map GroupTotal.itemId).Nodup) (hcategories : (categories.map CategoryTotal.categoryId).Nodup)
    (h : channels.Perm channels') (h' : stores.Perm stores') (h'' : categories.Perm categories') (lined : Option ℤ) :
    customerLeaders channels stores categories lined = customerLeaders channels' stores' categories' lined := by
  have hsum : (channels.map GroupTotal.purchases).sum = (channels'.map GroupTotal.purchases).sum :=
    (h.map _).sum_eq
  unfold customerLeaders
  simp only [hsum, groupLeader_perm hchannels h, groupLeader_perm hstores h', categoryLeaders_perm hcategories h'']

/-! ### The totals of one customer -/

/-- What the keys and references of the schema keep. -/
structure Keyed (shop : Shop) : Prop where
  channelKeys : (shop.channels.map PlaceRow.placeId).Nodup
  storeKeys : (shop.stores.map PlaceRow.placeId).Nodup
  categoryKeys : (shop.categories.map CategoryRow.categoryId).Nodup
  transactionChannels : ∀ t ∈ shop.transactions, t.channelId ∈ shop.channels.map PlaceRow.placeId
  transactionStores : ∀ t ∈ shop.transactions, t.storeId ∈ shop.stores.map PlaceRow.placeId

theorem at_collect {α : Type} (rows : List (String × α)) (c : String) :
    (collect rows).at c [] = (rows.filter fun row => row.1 = c).map Prod.snd := by
  unfold collect
  rw [at_tally, foldl_append_map, List.nil_append]

section Groups

variable {α γ : Type} {κ : Type} [DecidableEq κ] {rows rows' : List α} {key : α → String × κ}
    {total : κ → List α → γ}
  {arranged arranged' : List (String × γ)} {c : String}

theorem totals_perm (h : arranged.Perm (groupBy key (fun k group => (k.1, total k.2 group)) rows))
    (h' : arranged'.Perm (groupBy key (fun k group => (k.1, total k.2 group)) rows'))
    (hrows : (rows.filter fun row => (key row).1 = c) = rows'.filter fun row => (key row).1 = c) :
    ((collect arranged).at c []).Perm ((collect arranged').at c []) := by
  have hgroups : ∀ rows : List α, ((groupBy key (fun k group => (k.1, total k.2 group)) rows).filter
      fun row => row.1 = c).Perm (groupBy key (fun k group => (k.1, total k.2 group))
        (rows.filter fun row => (key row).1 = c)) := fun rows =>
    filter_groupBy_perm (p := fun k : String × κ => k.1 = c) fun _ _ => rfl
  rw [at_collect, at_collect]
  refine List.Perm.map _ ((h.filter _).trans ((hgroups rows).trans ?_))
  rw [hrows]
  exact (hgroups rows').symm.trans (h'.filter _).symm

theorem totals_nodup {ν : Type} [DecidableEq ν] {column : γ → ν} {item : κ → ν}
    (h : arranged.Perm (groupBy key (fun k group => (k.1, total k.2 group)) rows))
    (hcolumn : ∀ k group, column (total k group) = item k)
    (hitem : ∀ row ∈ rows, ∀ row' ∈ rows, item (key row).2 = item (key row').2 → (key row).2 = (key row').2) :
    (((collect arranged).at c []).map column).Nodup := by
  have hpairs : (arranged.map fun g => (g.1, column g.2)).Nodup := by
    refine (h.map _).nodup_iff.mpr (nodup_groupBy (q := fun k : String × κ => (k.1, item k.2))
      (fun k group => Prod.ext rfl (hcolumn k.2 group)) fun row hrow row' hrow' heq => ?_)
    obtain ⟨hcustomer, heq⟩ := Prod.mk.inj heq
    exact Prod.ext hcustomer (hitem row hrow row' hrow' heq)
  have htagged : (arranged.filter fun g => g.1 = c).map (fun g => (c, column g.2)) =
      (arranged.filter fun g => g.1 = c).map fun g => (g.1, column g.2) :=
    List.map_congr_left fun g hg => by rw [of_decide_eq_true (List.mem_filter.mp hg).2]
  rw [at_collect, List.map_map]
  refine List.Nodup.of_map (Prod.mk c) ?_
  rw [List.map_map]
  change ((arranged.filter fun g => g.1 = c).map fun g => (c, column g.2)).Nodup
  rw [htagged]
  exact hpairs.sublist (List.filter_sublist.map _)

end Groups

section Shop

variable {shop : Shop} {order order' : RowOrder} {period : Period} {c : String}

theorem counts_some (t : TransactionRow) : counts period (some c) t = (counts period none t && decide (t.customerId = c)) := by
  unfold counts
  simp [Bool.and_assoc]

/-- Of everyone's rows, the customer's are those that are read for the customer alone. -/
theorem filter_counts {α : Type} (sale : α → TransactionRow) (rows : List α) :
    ((rows.filter fun r => counts period none (sale r)).filter fun r => (sale r).customerId = c) =
      (rows.filter fun r => counts period (some c) (sale r)).filter fun r => (sale r).customerId = c := by
  rw [List.filter_filter, List.filter_filter]
  refine List.filter_congr fun r _ => ?_
  rw [counts_some]
  cases counts period none (sale r) <;> simp

theorem placeTotals_grouped (customer : Option String) (places : List PlaceRow) (placeOf : TransactionRow → ℤ) :
    (placeTotals order shop period customer places placeOf).Perm
      (groupBy (fun r => (r.1.customerId, r.2.placeId, r.2.name)) (fun key group => (key.1, placeTotal key.2 group))
        (placeRows shop period customer places placeOf)) := order.perm _

theorem categoryTotals_grouped (customer : Option String) :
    (categoryTotals order shop period customer).Perm
      (groupBy (fun r => (r.1.1.1.customerId, r.2.categoryId, r.2.name))
        (fun key group => (key.1, categoryTotal key.2 group)) (categoryRows shop period customer)) := order.perm _

theorem placeTotals_perm (places : List PlaceRow) (placeOf : TransactionRow → ℤ) :
    ((collect (placeTotals order shop period (some c) places placeOf)).at c []).Perm
      ((collect (placeTotals order' shop period none places placeOf)).at c []) :=
  totals_perm (placeTotals_grouped _ places placeOf) (placeTotals_grouped _ places placeOf)
    (filter_counts Prod.fst _).symm

theorem placeTotals_nodup {customer : Option String} {places : List PlaceRow} {placeOf : TransactionRow → ℤ}
    (hplaces : (places.map PlaceRow.placeId).Nodup) :
    (((collect (placeTotals order shop period customer places placeOf)).at c []).map GroupTotal.itemId).Nodup := by
  refine totals_nodup (placeTotals_grouped _ places placeOf) (fun _ _ => rfl) fun r hr r' hr' heq => ?_
  have hplace := (mem_join.mp (List.mem_of_mem_filter hr)).2.1
  have hplace' := (mem_join.mp (List.mem_of_mem_filter hr')).2.1
  rw [eq_of_key hplaces hplace' hplace heq]

theorem categoryTotals_perm : ((collect (categoryTotals order shop period (some c))).at c []).Perm
    ((collect (categoryTotals order' shop period none)).at c []) :=
  totals_perm (categoryTotals_grouped _) (categoryTotals_grouped _)
    (filter_counts (fun r : ((TransactionRow × LineRow) × ProductRow) × CategoryRow => r.1.1.1) _).symm

theorem categoryTotals_nodup {customer : Option String}
    (hcategories : (shop.categories.map CategoryRow.categoryId).Nodup) :
    (((collect (categoryTotals order shop period customer)).at c []).map CategoryTotal.categoryId).Nodup := by
  refine totals_nodup (categoryTotals_grouped _) (fun _ _ => rfl) fun r hr r' hr' heq => ?_
  have hcategory := (mem_join.mp (List.mem_of_mem_filter hr)).2.1
  have hcategory' := (mem_join.mp (List.mem_of_mem_filter hr')).2.1
  rw [eq_of_key hcategories hcategory' hcategory heq]

theorem linedTotals_at (customer : Option String) : (linedTotals order shop period customer).at c 0 =
    ((linedRows shop period customer).filter fun t => t.customerId = c).length :=
  at_groupBy (fun group : List TransactionRow => (group.length : ℤ)) rfl (order.perm _) c

theorem linedTotals_eq : (linedTotals order shop period (some c)).at c 0 = (linedTotals order' shop period none).at c 0 := by
  have hlines : ∀ customer, linedRows shop period customer =
      (shop.transactions.filter fun t => !(shop.linesOf t).isEmpty).filter fun t => counts period customer t := by
    intro customer
    rw [List.filter_filter]
    rfl
  rw [linedTotals_at, linedTotals_at, hlines, hlines, filter_counts fun t : TransactionRow => t]

theorem mem_placeTotals {customer : Option String} {places : List PlaceRow} {placeOf : TransactionRow → ℤ}
    (hplaces : ∀ t ∈ shop.transactions, placeOf t ∈ places.map PlaceRow.placeId) :
    c ∈ (placeTotals order shop period customer places placeOf).map Prod.fst ↔
      ∃ t ∈ shop.transactions, counts period customer t = true ∧ t.customerId = c := by
  rw [List.mem_map]
  constructor
  · rintro ⟨g, hg, rfl⟩
    obtain ⟨r, hr, rfl⟩ := mem_groupBy.mp ((placeTotals_grouped _ _ _).mem_iff.mp hg)
    obtain ⟨hjoin, hcounts⟩ := List.mem_filter.mp hr
    exact ⟨r.1, (mem_join.mp hjoin).1, hcounts, rfl⟩
  · rintro ⟨t, ht, hcounts, rfl⟩
    obtain ⟨place, hplace, hid⟩ := List.mem_map.mp (hplaces t ht)
    have hrow : (t, place) ∈ placeRows shop period customer places placeOf :=
      List.mem_filter.mpr ⟨mem_join.mpr ⟨ht, hplace, decide_eq_true hid⟩, hcounts⟩
    exact ⟨_, (placeTotals_grouped _ _ _).mem_iff.mpr (mem_groupBy.mpr ⟨_, hrow, rfl⟩), rfl⟩

theorem collect_ne_nil {α : Type} {rows : List (String × α)} : (collect rows).at c [] ≠ [] ↔
    c ∈ rows.map Prod.fst := by
  rw [at_collect, ne_eq, List.map_eq_nil_iff, List.filter_eq_nil_iff]
  simp

variable {customer : Option String} (hshop : Keyed shop)

include hshop

theorem sold_iff : (totalsFor order shop period customer).Sold c ↔
    ∃ t ∈ shop.transactions, counts period customer t = true ∧ t.customerId = c := by
  rw [sold_channels, ← mem_placeTotals hshop.transactionChannels]
  exact collect_ne_nil

theorem totalsFor_grouped : (totalsFor order shop period customer).Grouped where
  customers := by
    have hkeys : ((totalsFor order shop period customer).counts .channel).keys =
        (totalsFor order shop period customer).channels.keys := List.map_map ..
    rw [hkeys]
    exact nodup_keys_tally _ _ _ _
  items := by
    intro dimension c
    cases dimension with
    | channel =>
        rw [items_channel, List.map_map]
        exact placeTotals_nodup hshop.channelKeys
    | store =>
        rw [items_store, List.map_map]
        exact placeTotals_nodup hshop.storeKeys
    | category =>
        rw [items_category, List.map_map]
        exact categoryTotals_nodup hshop.categoryKeys
  stores := by
    intro c hc
    have hkeys : ((totalsFor order shop period customer).counts .channel).keys =
        (totalsFor order shop period customer).channels.keys := List.map_map ..
    rw [hkeys] at hc
    have hsale := (mem_placeTotals hshop.transactionChannels).mp (mem_keys_tally.mp hc)
    rw [items_store, ne_eq, List.map_eq_nil_iff]
    exact collect_ne_nil.mpr ((mem_placeTotals hshop.transactionStores).mpr hsale)
  sold := by
    intro dimension c hne
    rw [sold_iff hshop]
    cases dimension with
    | channel =>
        rw [items_channel, ne_eq, List.map_eq_nil_iff] at hne
        exact (mem_placeTotals hshop.transactionChannels).mp (collect_ne_nil.mp hne)
    | store =>
        rw [items_store, ne_eq, List.map_eq_nil_iff] at hne
        exact (mem_placeTotals hshop.transactionStores).mp (collect_ne_nil.mp hne)
    | category =>
        rw [items_category, ne_eq, List.map_eq_nil_iff] at hne
        obtain ⟨g, hg, rfl⟩ := List.mem_map.mp (collect_ne_nil.mp hne)
        obtain ⟨r, hr, rfl⟩ := mem_groupBy.mp ((categoryTotals_grouped _).mem_iff.mp hg)
        obtain ⟨hjoin, hcounts⟩ := List.mem_filter.mp hr
        exact ⟨r.1.1.1, (mem_join.mp (mem_join.mp (mem_join.mp hjoin).1).1).1, hcounts, rfl⟩

theorem leaders_alone : (totalsFor order shop period (some c)).leaders c = (totalsFor order' shop period none).leaders c := by
  have hlined : ((totalsFor order shop period (some c)).lined.map fun lined => lined.at c 0) =
      (totalsFor order' shop period none).lined.map fun lined => lined.at c 0 := congrArg some linedTotals_eq
  unfold PeriodTotals.leaders
  rw [hlined]
  exact customerLeaders_perm (placeTotals_nodup hshop.channelKeys) (placeTotals_nodup hshop.storeKeys)
    (categoryTotals_nodup hshop.categoryKeys) (placeTotals_perm _ _) (placeTotals_perm _ _) categoryTotals_perm _

end Shop

/-! ### Statuses -/

theorem status_shifted {comparison : DimensionComparison} :
    comparison.status = .shifted ↔ (changed comparison.before comparison.after).isSome = true := by
  obtain ⟨name, before, after, basis⟩ := comparison
  cases before with
  | none => simp [DimensionComparison.status, changed]
  | some leader =>
      cases after with
      | none => simp [DimensionComparison.status, changed]
      | some leader' =>
          unfold DimensionComparison.status
          rw [if_neg (by simp)]
          split_ifs with hchanged hdiffers <;> simp [hchanged]

theorem status_undecided {comparison : DimensionComparison} :
    comparison.status = .undecided ↔ undecided comparison.before comparison.after = true := by
  obtain ⟨name, before, after, basis⟩ := comparison
  cases before with
  | none => simp [DimensionComparison.status, undecided, differs]
  | some leader =>
      cases after with
      | none => simp [DimensionComparison.status, undecided, differs]
      | some leader' =>
          unfold DimensionComparison.status undecided
          rw [if_neg (by simp)]
          split_ifs with hchanged hdiffers
          · simp [Option.isSome_iff_ne_none.mp hchanged]
          · simp [Option.not_isSome_iff_eq_none.mp hchanged, hdiffers]
          · simp [hdiffers]

theorem status_notCompared {comparison : DimensionComparison} :
    comparison.status = .notCompared ↔ comparison.before = none ∨ comparison.after = none := by
  have hnone : (comparison.before.isNone || comparison.after.isNone) = true ↔
      comparison.before = none ∨ comparison.after = none := by
    rw [Bool.or_eq_true, Option.isNone_iff_eq_none, Option.isNone_iff_eq_none]
  rw [← hnone]
  unfold DimensionComparison.status
  split_ifs with h <;> simp [h]

/-! ### Periods -/

theorem orderPeriods_ok {first second : Period} (hfirst : first.start < first.end_)
    (hsecond : second.start < second.end_)
    (hadjacent : first.end_ ≤ second.start) : orderPeriods first second = .ok (first, second) := by
  have hstarts : ¬ second.start < first.start := not_lt.mpr (hfirst.le.trans hadjacent)
  unfold orderPeriods Period.check
  rw [if_pos hfirst, if_pos hsecond, if_neg hstarts]
  simp only [bind, Except.bind, pure, Except.pure]
  rw [if_neg (not_lt.mpr hadjacent)]

theorem consecutivePeriods_ok (asOf : Instant) {count : ℕ} (hcount : 1 ≤ count) : ∃ earlier later,
    consecutivePeriods asOf count = .ok (earlier, later) ∧ orderPeriods earlier later = .ok (earlier, later) := by
  have hspan : 0 < days count := by
    unfold days
    omega
  have hordered : orderPeriods ⟨asOf - 2 * days count, asOf - days count⟩ ⟨asOf - days count, asOf⟩ =
      .ok (⟨asOf - 2 * days count, asOf - days count⟩, ⟨asOf - days count, asOf⟩) := by
    exact orderPeriods_ok (Int.sub_lt_sub_left (by omega) asOf) (Int.sub_lt_self asOf hspan) le_rfl
  refine ⟨_, _, ?_, hordered⟩
  unfold consecutivePeriods
  rw [if_neg (not_lt.mpr hcount), hordered]

/-! ### The profile and the report -/

def ProfileShifts.dimension (profile : ProfileShifts) : Dimension → DimensionComparison
  | .channel => profile.channel
  | .store => profile.store
  | .category => profile.category

def SoldIn (shop : Shop) (period : Period) (c : String) : Prop :=
  ∃ t ∈ shop.transactions, counts period none t = true ∧ t.customerId = c

/-- What is said of a customer on their profile is what is said of them in the report, of whose customers some are
undecided. -/
structure Agrees (shop : Shop) (report : ShiftReport) (undecided : List String) (c : String)
    (profile : ProfileShifts) :
    Prop where
  periods : profile.earlier = report.earlier ∧ profile.later = report.later
  shifted : ∀ dimension, (profile.dimension dimension).status = .shifted ↔
    ∃ shift ∈ report.shifts, shift.customerId = c ∧ (shift.shift dimension).isSome = true
  notCompared : profile.channel.status = .notCompared ↔ c ∈ report.absences.map CustomerAbsence.customerId ∨
    ¬ SoldIn shop report.earlier c ∧ ¬ SoldIn shop report.later c
  undecided : c ∈ undecided ↔ (∀ dimension, (profile.dimension dimension).status ≠ .shifted) ∧
    ∃ dimension, (profile.dimension dimension).status = .undecided

/-- The profile shows the leaders of one customer in both periods. -/
structure Shows (profile : ProfileShifts) (was now : Option CustomerLeaders) : Prop where
  before : ∀ dimension, (profile.dimension dimension).before = was.bind fun leaders => leaders.leader dimension
  after : ∀ dimension, (profile.dimension dimension).after = now.bind fun leaders => leaders.leader dimension

theorem profileShifts_shows (earlier later : Period) (halfDays : ℕ) (was now : Option CustomerLeaders)
    (seeded : Bool) :
    Shows (profileShifts earlier later halfDays was now seeded) was now where
  before := fun dimension => by cases was <;> cases dimension <;> rfl
  after := fun dimension => by cases now <;> cases dimension <;> rfl

section Agreement

variable {shop : Shop} (hshop : Keyed shop) (order : RowOrder)

include hshop

theorem leadersIn_ok (period : Period) (customer : Option String) : ∃ leaders,
    leadersIn (totalsFor order shop period customer) = .ok leaders ∧
      (∀ c, leaders.lookup c = (totalsFor order shop period customer).leaders c) ∧
      Led (totalsFor order shop period customer) leaders := by
  have hgrouped : (totalsFor order shop period customer).Grouped := totalsFor_grouped hshop
  obtain ⟨leaders, hbuilt, hlookup⟩ := buildLeaders_ok hgrouped
  refine ⟨leaders, ?_, hlookup, led_of_lookup hgrouped hlookup⟩
  unfold leadersIn
  rw [hbuilt]
  rfl

variable {earlier later : Period} {before after : Dict String CustomerLeaders} {seeded : Bool} {order' : RowOrder}
  {profile : ProfileShifts} {c : String}

omit hshop in
theorem dimension_shifted {was now : Option CustomerLeaders} (hshows : Shows profile was now)
    (hwas : before.lookup c = was) (hnow : after.lookup c = now) (dimension : Dimension) :
    (profile.dimension dimension).status = .shifted ↔
      ∃ shift ∈ (comparePeriods earlier later before after seeded).shifts, shift.customerId = c ∧
        (shift.shift dimension).isSome = true := by
  rw [status_shifted, hshows.before, hshows.after]
  constructor
  · intro hsome
    obtain ⟨shift, hshift⟩ := Option.isSome_iff_exists.mp hsome
    obtain ⟨leader, leader', hleader, hleader', -⟩ := of_changed hshift
    obtain ⟨was, rfl, hleader⟩ := Option.bind_eq_some_iff.mp hleader
    obtain ⟨now, rfl, hleader'⟩ := Option.bind_eq_some_iff.mp hleader'
    refine ⟨shiftBetween c was now, mem_shifts.mpr ⟨c, was, now, hwas, hnow, rfl, dimension, hsome⟩, rfl, ?_⟩
    rw [shift_shiftBetween]
    exact hsome
  · rintro ⟨shift, hshift, rfl, hsome⟩
    obtain ⟨c, was', now', hwas', hnow', rfl, -⟩ := mem_shifts.mp hshift
    rw [shift_shiftBetween] at hsome
    obtain rfl : was = some was' := hwas.symm.trans hwas'
    obtain rfl : now = some now' := hnow.symm.trans hnow'
    exact hsome

omit hshop in
theorem undecided_none (before : Option Leader) : undecided before none = false := by
  cases before <;> rfl

omit hshop in
theorem dimension_undecided {was now : Option CustomerLeaders} (hshows : Shows profile was now)
    (hwas : before.lookup c = was) (hnow : after.lookup c = now) :
    c ∈ undecidedCustomers before after ↔ (∀ dimension, (profile.dimension dimension).status ≠ .shifted) ∧
      ∃ dimension, (profile.dimension dimension).status = .undecided := by
  have hshifted : ∀ dimension, (profile.dimension dimension).status = .shifted ↔
      (changed (was.bind fun leaders => leaders.leader dimension)
        (now.bind fun leaders => leaders.leader dimension)).isSome = true := fun dimension => by
    rw [status_shifted, hshows.before, hshows.after]
  have hundecided : ∀ dimension, (profile.dimension dimension).status = .undecided ↔
      undecided (was.bind fun leaders => leaders.leader dimension)
        (now.bind fun leaders => leaders.leader dimension) = true := fun dimension => by
    rw [status_undecided, hshows.before, hshows.after]
  simp only [hundecided, ne_eq, hshifted]
  unfold undecidedCustomers
  rw [List.mem_filter, mem_everyone, outcome_undecided]
  constructor
  · rintro ⟨-, was', now', hwas', hnow', hclaimed, hbetween⟩
    obtain rfl : was = some was' := hwas.symm.trans hwas'
    obtain rfl : now = some now' := hnow.symm.trans hnow'
    refine ⟨fun dimension hsome => ?_, (undecidedBetween_iff was' now').mp hbetween⟩
    rw [(claimed_iff _).mpr ⟨dimension, (shift_shiftBetween c was' now' dimension).symm ▸ hsome⟩] at hclaimed
    cases hclaimed
  · rintro ⟨hnone, dimension, hdimension⟩
    cases was with
    | none => cases hdimension
    | some was =>
        cases now with
        | none =>
            rw [Option.bind_none, undecided_none] at hdimension
            cases hdimension
        | some now =>
            refine ⟨.inl (lookup_isSome.mp (hwas ▸ rfl)), was, now, hwas, hnow, ?_,
              (undecidedBetween_iff was now).mpr ⟨dimension, hdimension⟩⟩
            refine Bool.eq_false_iff.mpr fun hclaimed => ?_
            obtain ⟨dimension', hsome⟩ := (claimed_iff _).mp hclaimed
            rw [shift_shiftBetween] at hsome
            exact hnone dimension' hsome

omit hshop in
theorem channel_notCompared {was now : Option CustomerLeaders} (hshows : Shows profile was now) :
    profile.channel.status = .notCompared ↔ was = none ∨ now = none := by
  have hbefore := hshows.before .channel
  have hafter := hshows.after .channel
  have hleader : ∀ found : Option CustomerLeaders,
      (found.bind fun leaders => leaders.leader .channel) = none ↔ found = none := fun found => by
    cases found with
    | none => exact iff_of_true rfl rfl
    | some leaders => exact iff_of_false (by rintro ⟨⟩) (by rintro ⟨⟩)
  rw [status_notCompared]
  change (profile.dimension .channel).before = none ∨ (profile.dimension .channel).after = none ↔ _
  rw [hbefore, hafter, hleader, hleader]

/-- **Profile and report.** -/
theorem profile_agrees (until_ : Instant) {windowDays : ℕ} (hwindow : 2 ≤ windowDays) :
    ∃ earlier later report, consecutivePeriods until_ (windowDays / 2) = .ok (earlier, later) ∧
      detectShifts order shop earlier later = .ok report ∧
      ∃ undecided : List String, undecided.Nodup ∧ report.undecided = undecided.length ∧
        ∀ order' c, ∃ profile, buildProfileShifts order' shop c until_ windowDays = .ok (some profile) ∧
          Agrees shop report undecided c profile := by
  have hhalf : 1 ≤ windowDays / 2 := by omega
  obtain ⟨earlier, later, hperiods, hordered⟩ := consecutivePeriods_ok until_ hhalf
  obtain ⟨before, hbefore, hlookup, hled⟩ := leadersIn_ok hshop order earlier none
  obtain ⟨after, hafter, hlookup', hled'⟩ := leadersIn_ok hshop order later none
  refine ⟨earlier, later, comparePeriods earlier later before after
    (seededIn shop earlier none || seededIn shop later none), hperiods, ?_, undecidedCustomers before after,
    (nodup_everyone _ _).filter _, ?_, fun order' c => ?_⟩
  · simp only [detectShifts, hordered, listTotalsForPeriods, hbefore, hafter, bind, Except.bind]
    rfl
  · rw [comparePeriods_found]
  · obtain ⟨was, hwas, hlookupWas, -⟩ := leadersIn_ok hshop order' earlier (some c)
    obtain ⟨now, hnow, hlookupNow, -⟩ := leadersIn_ok hshop order' later (some c)
    have heq : before.lookup c = was.lookup c := by
      rw [hlookup, hlookupWas, leaders_alone hshop]
    have heq' : after.lookup c = now.lookup c := by
      rw [hlookup', hlookupNow, leaders_alone hshop]
    have hshows := profileShifts_shows earlier later (windowDays / 2) (was.lookup c) (now.lookup c)
      (seededIn shop earlier (some c) || seededIn shop later (some c))
    refine ⟨_, ?_, ?_, fun dimension => dimension_shifted hshows heq heq' dimension, ?_,
      dimension_undecided hshows heq heq'⟩
    · simp only [buildProfileShifts, if_neg (not_lt.mpr hhalf), hperiods, listTotalsForPeriods, hwas, hnow, bind,
        Except.bind]
      rfl
    · rw [comparePeriods_found]
      exact ⟨rfl, rfl⟩
    · have hnone : ∀ {d : Dict String CustomerLeaders}, d.lookup c = none ↔ c ∉ d.keys := fun {d} => by
        rw [← lookup_isSome, Option.not_isSome_iff_eq_none]
      have hearlier : c ∈ before.keys ↔ SoldIn shop earlier c := (hled.keys c).trans (sold_iff hshop)
      have hlater : c ∈ after.keys ↔ SoldIn shop later c := (hled'.keys c).trans (sold_iff hshop)
      rw [channel_notCompared hshows, ← heq, ← heq', hnone, hnone, absent_iff, hearlier, hlater,
        comparePeriods_found]
      tauto

end Agreement

/-- One customer, who moved from one channel to the other. -/
def kiosk : Shop where
  customers := [⟨"ada", "Ada"⟩]
  categories := []
  products := []
  stores := [⟨7, "Centre"⟩]
  channels := [⟨1, "Counter"⟩, ⟨2, "Web"⟩]
  transactions :=
    [⟨1, "ada", 7, 1, -170000000000, 10, .observed⟩, ⟨2, "ada", 7, 1, -160000000000, 10, .observed⟩,
      ⟨3, "ada", 7, 1, -150000000000, 10, .observed⟩, ⟨4, "ada", 7, 2, -50000000000, 10, .observed⟩,
      ⟨5, "ada", 7, 2, -40000000000, 10, .observed⟩, ⟨6, "ada", 7, 2, -30000000000, 10, .observed⟩]
  lines := []
  inventory := []
  interests := []
  runs := []
  labels := []
  history := []

theorem kiosk_keyed : Keyed kiosk where
  channelKeys := by decide
  storeKeys := by decide
  categoryKeys := by decide
  transactionChannels := by decide
  transactionStores := by decide

theorem profile_agrees_kiosk : ∃ earlier later report, consecutivePeriods 0 (2 / 2) = .ok (earlier, later) ∧
    detectShifts .asStored kiosk earlier later = .ok report ∧
    ∃ profile, buildProfileShifts .asStored kiosk "ada" 0 2 = .ok (some profile) ∧
      (profile.channel.status = .shifted ↔
        ∃ shift ∈ report.shifts, shift.customerId = "ada" ∧ (shift.shift .channel).isSome = true) := by
  obtain ⟨earlier, later, report, hperiods, hreport, undecided, -, -, hagrees⟩ :=
    @profile_agrees kiosk kiosk_keyed .asStored 0 2 le_rfl
  obtain ⟨profile, hprofile, hagree⟩ := hagrees .asStored "ada"
  exact ⟨earlier, later, report, hperiods, hreport, profile, hprofile, hagree.shifted .channel⟩

/-- The profile says that the customer's channel shifted. -/
example : (buildProfileShifts .asStored kiosk "ada" 0 2).toOption.join.map (fun profile => profile.channel.status) =
    some .shifted := by decide +kernel

end RetailSegmentation.ConsumptionShifts
