import RetailSegmentation.ConsumptionShift

/-! What a shift report rests on: a shift is claimed between two clear leaders, whatever was spent, and every
customer with sales is either compared or absent. -/

namespace RetailSegmentation.ConsumptionShifts

open Grouping Recommendations Recommendations.Web

inductive Dimension where
  | channel | store | category
  deriving DecidableEq, Repr

/-- A channel, a store or a category with the purchases that count for it. -/
structure Item where
  itemId : ℤ
  name : String
  purchases : ℤ
  deriving DecidableEq, Repr

def groupItem (g : GroupTotal) : Item := ⟨g.itemId, g.name, g.purchases⟩

def categoryItem (g : CategoryTotal) : Item := ⟨g.categoryId, g.name, g.purchases⟩

def Leader.item (leader : Leader) : Item := ⟨leader.itemId, leader.name, leader.purchases⟩

/-! ### Leaders -/

/-- Most purchases of the items, and the runner-up's. -/
structure Leads (items : List Item) (period : ℤ) (leader : Leader) : Prop where
  item : leader.item ∈ items
  most : ∀ other ∈ items, other.purchases ≤ leader.purchases
  runnerUp : leader.runnerUpPurchases =
    ((items.filter fun other => other.itemId ≠ leader.itemId).map Item.purchases).max?
  period : leader.periodPurchases = period

/-- Enough purchases in the period, and strictly more with this item than with every other. -/
structure Clear (items : List Item) (period : ℤ) (item : Item) : Prop where
  mem : item ∈ items
  enough : minPurchasesPerPeriod ≤ period
  strict : ∀ other ∈ items, other.itemId ≠ item.itemId → other.purchases < item.purchases

/-- A leader, where there is anything to lead. -/
def LedBy (items : List Item) (period : ℤ) : Option Leader → Prop
  | none => items = []
  | some leader => Leads items period leader

section Leaders

variable {items items' : List Item} {period period' : ℤ} {leader leader' : Leader}

theorem Leads.runnerUp_le (h : Leads items period leader) {r : ℤ} (hr : leader.runnerUpPurchases = some r) :
    r ≤ leader.purchases ∧ ∀ other ∈ items, other.itemId ≠ leader.itemId → other.purchases ≤ r := by
  rw [h.runnerUp, List.max?_eq_some_iff] at hr
  obtain ⟨hmem, hmost⟩ := hr
  obtain ⟨other, hother, rfl⟩ := List.mem_map.mp hmem
  refine ⟨h.most other (List.mem_of_mem_filter hother), fun o ho hne => hmost _ (List.mem_map_of_mem ?_)⟩
  exact List.mem_filter.mpr ⟨ho, decide_eq_true hne⟩

theorem Leads.tied_iff (h : Leads items period leader) : leader.tied = true ↔
    ∃ other ∈ items, other.itemId ≠ leader.itemId ∧ leader.purchases ≤ other.purchases := by
  unfold Leader.tied
  rw [decide_eq_true_iff]
  constructor
  · intro htied
    rw [h.runnerUp, List.max?_eq_some_iff] at htied
    obtain ⟨other, hother, heq⟩ := List.mem_map.mp htied.1
    obtain ⟨hmem, hne⟩ := List.mem_filter.mp hother
    exact ⟨other, hmem, of_decide_eq_true hne, heq.ge⟩
  · rintro ⟨other, hother, hne, hle⟩
    cases hr : leader.runnerUpPurchases with
    | none =>
        rw [h.runnerUp, List.max?_eq_none_iff, List.map_eq_nil_iff, List.filter_eq_nil_iff] at hr
        exact absurd (decide_eq_true hne) (hr other hother)
    | some r =>
        obtain ⟨hrle, hmost⟩ := h.runnerUp_le hr
        exact congrArg some (le_antisymm hrle (hle.trans (hmost other hother hne)))

theorem Leads.decisive_iff (h : Leads items period leader) : leader.decisive = true ↔
    Clear items period leader.item := by
  have htied := h.tied_iff
  have hfew : leader.tooFew = true ↔ period < minPurchasesPerPeriod := by
    unfold Leader.tooFew
    rw [decide_eq_true_iff, h.period]
  unfold Leader.decisive
  rw [Bool.and_eq_true, Bool.not_eq_true', Bool.not_eq_true', ← Bool.not_eq_true, ← Bool.not_eq_true, hfew, htied]
  constructor
  · rintro ⟨henough, hnot⟩
    refine ⟨h.item, not_lt.mp henough, fun other hother hne => ?_⟩
    by_contra hle
    exact hnot ⟨other, hother, hne, not_lt.mp hle⟩
  · intro hclear
    refine ⟨not_lt.mpr hclear.enough, ?_⟩
    rintro ⟨other, hother, hne, hle⟩
    exact absurd (hclear.strict other hother hne) (not_lt.mpr hle)

theorem Leads.item_of_clear (h : Leads items period leader) {item : Item} (hclear : Clear items period item) :
    leader.itemId = item.itemId := by
  by_contra hne
  exact absurd (hclear.strict leader.item h.item hne) (not_lt.mpr (h.most item hclear.mem))

theorem Leads.decisive_of_clear (h : Leads items period leader) {item : Item} (hclear : Clear items period item) :
    leader.decisive = true := by
  have hid := h.item_of_clear hclear
  refine h.decisive_iff.mpr ⟨h.item, hclear.enough, fun other hother hne => ?_⟩
  have hlt := hclear.strict other hother (hid ▸ hne)
  exact hlt.trans_le (h.most item hclear.mem)

theorem Leads.eq_of_itemId (hids : (items.map Item.itemId).Nodup) (h : Leads items period leader)
    (h' : Leads items period leader') (hid : leader'.itemId = leader.itemId) : leader' = leader := by
  have hitem : leader'.item = leader.item := eq_of_key hids h.item h'.item hid
  have hrunnerUp : leader'.runnerUpPurchases = leader.runnerUpPurchases := by rw [h'.runnerUp, h.runnerUp, hid]
  obtain ⟨hid, hname, hpurchases⟩ := Item.mk.injEq .. ▸ hitem
  cases leader
  cases leader'
  simp only [Leader.mk.injEq]
  exact ⟨hid, hname, hpurchases, h'.period.trans h.period.symm, hrunnerUp⟩

theorem Leads.eq_of_decisive (hids : (items.map Item.itemId).Nodup) (h : Leads items period leader)
    (h' : Leads items period leader') (hdecisive : leader.decisive = true) : leader' = leader :=
  h.eq_of_itemId hids h' (h'.item_of_clear (h.decisive_iff.mp hdecisive))

end Leaders

/-! ### Ranked channels, stores and categories -/

theorem purchases_of_rank {g other : GroupTotal} (h : g.rank ≤ other.rank) : other.purchases ≤ g.purchases := by
  obtain hlt | ⟨heq, -⟩ := Prod.Lex.toLex_le_toLex.mp h
  · exact neg_le_neg_iff.mp hlt.le
  · exact (neg_injective heq).ge

theorem purchases_of_categoryRank {g other : CategoryTotal} (h : g.rank ≤ other.rank) :
    other.purchases ≤ g.purchases := by
  obtain hlt | ⟨heq, -⟩ := Prod.Lex.toLex_le_toLex.mp h
  · exact neg_le_neg_iff.mp hlt.le
  · exact (neg_injective heq).ge

theorem groupLeader_ledBy (groups : List GroupTotal) (period : ℤ) :
    LedBy (groups.map groupItem) period (groupLeader groups period) := by
  unfold groupLeader
  cases htop : rankDominant groups with
  | none =>
      have hnil : groups = [] := List.argmin_eq_none.mp htop
      rw [hnil]
      rfl
  | some top =>
      obtain ⟨hmem, hleast, -⟩ := List.mem_argmin_iff.mp htop
      refine ⟨List.mem_map_of_mem (f := groupItem) hmem, fun other hother => ?_, ?_, rfl⟩
      · obtain ⟨g, hg, rfl⟩ := List.mem_map.mp hother
        exact purchases_of_rank (hleast g hg)
      · rw [List.filter_map, List.map_map]
        rfl

theorem second_most {groups rest : List CategoryTotal} {top : CategoryTotal}
    (hids : (groups.map CategoryTotal.categoryId).Nodup) (hperm : (top :: rest).Perm groups)
    (hsorted : rest.Pairwise fun a b => a.rank ≤ b.rank) :
    (rest[0]?).map CategoryTotal.purchases =
      ((groups.filter fun g => g.categoryId ≠ top.categoryId).map CategoryTotal.purchases).max? := by
  have hdistinct := List.nodup_cons.mp ((hperm.map CategoryTotal.categoryId).nodup_iff.mpr hids)
  have hothers : (groups.filter fun g => g.categoryId ≠ top.categoryId).Perm rest := by
    refine (hperm.symm.filter _).trans (.of_eq ?_)
    rw [List.filter_cons_of_neg (by simp)]
    refine List.filter_eq_self.mpr fun g hg => decide_eq_true fun heq => ?_
    exact hdistinct.1 (heq ▸ List.mem_map_of_mem (f := CategoryTotal.categoryId) hg)
  cases rest with
  | nil =>
      rw [hothers.eq_nil]
      rfl
  | cons second rest =>
      refine (List.max?_eq_some_iff.mpr ⟨?_, fun n hn => ?_⟩).symm
      · exact List.mem_map_of_mem (hothers.mem_iff.mpr List.mem_cons_self)
      · obtain ⟨g, hg, rfl⟩ := List.mem_map.mp hn
        obtain rfl | hg := List.mem_cons.mp (hothers.mem_iff.mp hg)
        · exact le_rfl
        · exact purchases_of_categoryRank ((List.pairwise_cons.mp hsorted).1 g hg)

theorem categoryLeaders_ledBy {groups : List CategoryTotal} (hids : (groups.map CategoryTotal.categoryId).Nodup)
    (period : ℤ) : LedBy (groups.map categoryItem) period (categoryLeaders groups period).head? := by
  have hperm : (sortBy CategoryTotal.rank groups).Perm groups := perm_sortBy _ _
  have hsorted : (sortBy CategoryTotal.rank groups).Pairwise fun a b => a.rank ≤ b.rank :=
    List.pairwise_insertionSort _ _
  have hranked : rankCategories groups groups.length = sortBy CategoryTotal.rank groups :=
    List.take_of_length_le hperm.length_eq.le
  unfold categoryLeaders
  rw [hranked]
  cases hcase : sortBy CategoryTotal.rank groups with
  | nil =>
      rw [hcase] at hperm
      rw [hperm.nil_eq.symm]
      rfl
  | cons top rest =>
      rw [hcase] at hperm hsorted
      obtain ⟨hfirst, hrest⟩ := List.pairwise_cons.mp hsorted
      have hsecond := second_most hids hperm hrest
      simp only [List.mapIdx_cons, List.head?_cons, LedBy]
      refine ⟨List.mem_map_of_mem (f := categoryItem) (hperm.mem_iff.mp List.mem_cons_self),
        fun other hother => ?_, ?_,
        rfl⟩
      · obtain ⟨g, hg, rfl⟩ := List.mem_map.mp hother
        obtain rfl | hg := List.mem_cons.mp (hperm.mem_iff.mpr hg)
        · exact le_rfl
        · exact purchases_of_categoryRank (hfirst g hg)
      · rw [List.filter_map, List.map_map]
        exact hsecond

/-! ### One period -/

def PeriodTotals.counts (totals : PeriodTotals) : Dimension → Dict String (List Item)
  | .channel => totals.channels.map fun e => (e.1, e.2.map groupItem)
  | .store => totals.stores.map fun e => (e.1, e.2.map groupItem)
  | .category => totals.categories.map fun e => (e.1, e.2.map categoryItem)

def PeriodTotals.items (totals : PeriodTotals) (dimension : Dimension) (customerId : String) : List Item :=
  (totals.counts dimension).at customerId []

/-- The customer's purchases in the period; for a category, those with product lines. -/
def PeriodTotals.purchases (totals : PeriodTotals) (dimension : Dimension) (customerId : String) : ℤ :=
  let all := ((totals.items .channel customerId).map Item.purchases).sum
  if dimension = .category then (totals.lined.map fun lined => lined.at customerId 0).getD all else all

/-- A customer has accepted sales in the period exactly when they have a channel row. -/
def PeriodTotals.Sold (totals : PeriodTotals) (customerId : String) : Prop := totals.items .channel customerId ≠ []

/-- Totals as they are read: a customer once, an item once for each customer, a store for every customer with a
channel, and a channel for every customer with anything. -/
structure PeriodTotals.Grouped (totals : PeriodTotals) : Prop where
  customers : (totals.counts .channel).keys.Nodup
  items : ∀ dimension c, ((totals.items dimension c).map Item.itemId).Nodup
  stores : ∀ c ∈ (totals.counts .channel).keys, totals.items .store c ≠ []
  sold : ∀ dimension c, totals.items dimension c ≠ [] → totals.Sold c

def CustomerLeaders.leader (leaders : CustomerLeaders) : Dimension → Option Leader
  | .channel => some leaders.channel
  | .store => some leaders.store
  | .category => leaders.category

theorem at_values {α β : Type} (d : Dict String (List α)) (f : α → β) (c : String) :
    Dict.at (d.map fun e => (e.1, e.2.map f)) c [] = (d.at c []).map f := by
  unfold Dict.at
  induction d with
  | nil => rfl
  | cons e d ih =>
      rw [List.map_cons, lookup_entry, lookup_entry]
      by_cases hc : c = e.1
      · simp only [if_pos hc, Option.getD_some]
      · simp only [if_neg hc]
        exact ih

variable {totals : PeriodTotals}

theorem items_channel (c : String) : totals.items .channel c = (totals.channels.at c []).map groupItem :=
  at_values _ _ _

theorem items_store (c : String) : totals.items .store c = (totals.stores.at c []).map groupItem := at_values _ _ _

theorem items_category (c : String) : totals.items .category c = (totals.categories.at c []).map categoryItem :=
  at_values _ _ _

theorem purchases_items (groups : List GroupTotal) :
    ((groups.map groupItem).map Item.purchases).sum = (groups.map GroupTotal.purchases).sum := by
  rw [List.map_map]
  rfl

theorem customerLeaders_led (channels : List GroupTotal) {stores : List GroupTotal}
    {categories : List CategoryTotal}
    (lined : Option ℤ) (hids : (categories.map CategoryTotal.categoryId).Nodup) (hstores : stores ≠ []) :
    ((customerLeaders channels stores categories lined).isSome = true ↔ channels ≠ []) ∧
      ∀ leaders, customerLeaders channels stores categories lined = some leaders →
        let all := (channels.map GroupTotal.purchases).sum
        LedBy (channels.map groupItem) all (some leaders.channel) ∧
          LedBy (stores.map groupItem) all (some leaders.store) ∧
          LedBy (categories.map categoryItem) (lined.getD all) leaders.category := by
  have hchannel := groupLeader_ledBy channels (channels.map GroupTotal.purchases).sum
  have hstore := groupLeader_ledBy stores (channels.map GroupTotal.purchases).sum
  cases hfirst : groupLeader channels (channels.map GroupTotal.purchases).sum with
  | none =>
      rw [hfirst] at hchannel
      have hnone : channels = [] := List.map_eq_nil_iff.mp hchannel
      have hleaders : customerLeaders channels stores categories lined = none := by simp only [customerLeaders, hfirst]
      rw [hleaders]
      exact ⟨iff_of_false Bool.false_ne_true (not_not_intro hnone), fun _ h => by cases h⟩
  | some channel =>
      rw [hfirst] at hchannel
      cases hsecond : groupLeader stores (channels.map GroupTotal.purchases).sum with
      | none =>
          rw [hsecond] at hstore
          exact absurd (List.map_eq_nil_iff.mp hstore) hstores
      | some store =>
          rw [hsecond] at hstore
          have hsold : channels ≠ [] := by
            rintro rfl
            exact List.not_mem_nil hchannel.item
          simp only [customerLeaders, hfirst, hsecond]
          refine ⟨iff_of_true rfl hsold, fun leaders h => ?_⟩
          obtain rfl := Option.some.inj h
          exact ⟨hchannel, hstore, categoryLeaders_ledBy hids _⟩

/-- Who led the customer's buying, as their own totals have it. -/
def PeriodTotals.leaders (totals : PeriodTotals) (c : String) : Option CustomerLeaders :=
  customerLeaders (totals.channels.at c []) (totals.stores.at c []) (totals.categories.at c [])
    (totals.lined.map fun lined => lined.at c 0)

theorem sold_channels (c : String) : totals.Sold c ↔ totals.channels.at c [] ≠ [] := by
  unfold PeriodTotals.Sold
  rw [items_channel, ne_eq, ne_eq, List.map_eq_nil_iff]

theorem leadersOf_ok (h : totals.Grouped) {c : String} {channels : List GroupTotal}
    (hchannels : totals.channels.lookup c = some channels) :
    leadersOf totals c channels = .ok (totals.leaders c) := by
  have hkey : c ∈ (totals.counts .channel).keys := by
    have hkeys : (totals.counts .channel).keys = totals.channels.keys := List.map_map ..
    exact hkeys ▸ lookup_isSome.mp (hchannels ▸ rfl)
  have hvalue : totals.channels.at c [] = channels := by
    unfold Dict.at
    rw [hchannels]
    rfl
  have hstores : totals.stores.item c = .ok (totals.stores.at c []) := by
    have hstore := h.stores c hkey
    rw [items_store] at hstore
    unfold Dict.item Dict.at at *
    cases hlookup : totals.stores.lookup c with
    | none =>
        rw [hlookup] at hstore
        exact absurd rfl hstore
    | some stores => rfl
  simp only [leadersOf, hstores, bind, Except.bind]
  unfold PeriodTotals.leaders
  rw [hvalue]
  rfl

theorem buildLeaders_ok (h : totals.Grouped) :
    ∃ leaders, buildLeaders totals = .ok leaders ∧ ∀ c, leaders.lookup c = totals.leaders c := by
  have hkeysEq : (totals.counts .channel).keys = totals.channels.keys := List.map_map ..
  have hkeys : totals.channels.keys.Nodup := hkeysEq ▸ h.customers
  have hentries : ∀ e ∈ totals.channels, (do
      let found ← leadersOf totals e.1 e.2
      return found.map fun leaders => (e.1, leaders)) =
        Except.ok ((totals.leaders e.1).map fun leaders => (e.1, leaders)) := fun e he => by
    rw [leadersOf_ok h ((lookup_eq_some hkeys).mpr he)]
    rfl
  refine ⟨totals.channels.filterMap fun e => (totals.leaders e.1).map fun leaders => (e.1, leaders), ?_,
    fun c => ?_⟩
  · unfold buildLeaders
    rw [mapM_ok hentries]
    change Except.ok (List.filterMap id (totals.channels.map _)) = _
    rw [List.filterMap_map]
    rfl
  · rw [lookup_filterMap hkeys fun c _ => totals.leaders c]
    cases hchannels : totals.channels.lookup c with
    | some channels => rfl
    | none =>
        unfold PeriodTotals.leaders Dict.at
        rw [hchannels]
        rfl

/-- Every customer with sales, and who led their buying. -/
structure Led (totals : PeriodTotals) (leaders : Dict String CustomerLeaders) : Prop where
  keys : ∀ c, c ∈ leaders.keys ↔ totals.Sold c
  ledBy : ∀ c found, leaders.lookup c = some found →
    ∀ dimension, LedBy (totals.items dimension c) (totals.purchases dimension c) (found.leader dimension)

theorem leaders_led (h : totals.Grouped) {c : String} (hsold : totals.Sold c) :
    (totals.leaders c).isSome = true ∧ ∀ found, totals.leaders c = some found →
      ∀ dimension, LedBy (totals.items dimension c) (totals.purchases dimension c) (found.leader dimension) := by
  have hkey : c ∈ (totals.counts .channel).keys := by
    by_contra hnot
    have hnone : totals.items .channel c = [] := by
      unfold PeriodTotals.items Dict.at
      rw [lookup_eq_none hnot]
      rfl
    exact hsold hnone
  have hstores := h.stores c hkey
  have hids := h.items .category c
  rw [items_store, ne_eq, List.map_eq_nil_iff] at hstores
  rw [items_category, List.map_map] at hids
  obtain ⟨hsome, hled⟩ := customerLeaders_led (totals.channels.at c [])
    (totals.lined.map fun lined => lined.at c 0) hids hstores
  refine ⟨hsome.mpr ((sold_channels c).mp hsold), fun leaders hleaders dimension => ?_⟩
  obtain ⟨hchannel, hstore, hcategory⟩ := hled leaders hleaders
  unfold PeriodTotals.purchases
  rw [items_channel, purchases_items]
  cases dimension with
  | channel =>
      rw [items_channel]
      exact hchannel
  | store =>
      rw [items_store]
      exact hstore
  | category =>
      rw [items_category]
      exact hcategory

theorem leaders_none {c : String} (h : ¬ totals.Sold c) : totals.leaders c = none := by
  rw [sold_channels, not_not] at h
  unfold PeriodTotals.leaders
  rw [h]
  rfl

theorem led_of_lookup (h : totals.Grouped) {leaders : Dict String CustomerLeaders}
    (hlookup : ∀ c, leaders.lookup c = totals.leaders c) : Led totals leaders := by
  refine ⟨fun c => ?_, fun c found hfound => ?_⟩
  · rw [← lookup_isSome, hlookup]
    by_cases hsold : totals.Sold c
    · exact iff_of_true (leaders_led h hsold).1 hsold
    · rw [leaders_none hsold]
      exact iff_of_false Bool.false_ne_true hsold
  · rw [hlookup] at hfound
    have hsold : totals.Sold c := by
      by_contra hnot
      rw [leaders_none hnot] at hfound
      cases hfound
    exact (leaders_led h hsold).2 found hfound

theorem buildLeaders_led (h : totals.Grouped) : ∃ leaders,
    buildLeaders totals = .ok leaders ∧ Led totals leaders := by
  obtain ⟨leaders, hbuilt, hlookup⟩ := buildLeaders_ok h
  exact ⟨leaders, hbuilt, led_of_lookup h hlookup⟩

/-! ### One dimension -/

section Changed

variable {items items' : List Item} {period period' : ℤ} {before after before' after' : Option Leader}

theorem changed_some (leader leader' : Leader) : changed (some leader) (some leader') =
    if leader.itemId ≠ leader'.itemId ∧ leader.decisive ∧ leader'.decisive then some ⟨leader,
      leader'⟩ else none := rfl

theorem of_changed {shift : DimensionShift} (h : changed before after = some shift) :
    ∃ leader leader', before = some leader ∧ after = some leader' ∧ leader.decisive = true ∧
      leader'.decisive = true := by
  cases before with
  | none => cases h
  | some leader =>
      cases after with
      | none => cases h
      | some leader' =>
          rw [changed_some] at h
          split_ifs at h with hclaimed
          exact ⟨leader, leader', rfl, rfl, hclaimed.2⟩

theorem changed_isSome_iff (h : LedBy items period before) (h' : LedBy items' period' after) :
    (changed before after).isSome = true ↔ ∃ item item', Clear items period item ∧ Clear items' period' item' ∧
      item.itemId ≠ item'.itemId := by
  cases before with
  | none =>
      obtain rfl : items = [] := h
      exact iff_of_false Bool.false_ne_true fun ⟨item, _, hclear, _⟩ => List.not_mem_nil hclear.mem
  | some leader =>
      cases after with
      | none =>
          obtain rfl : items' = [] := h'
          exact iff_of_false Bool.false_ne_true fun ⟨_, item', _, hclear', _⟩ => List.not_mem_nil hclear'.mem
      | some leader' =>
          rw [changed_some]
          constructor
          · intro hsome
            split_ifs at hsome with hclaimed
            · obtain ⟨hne, hdecisive, hdecisive'⟩ := hclaimed
              exact ⟨_, _, h.decisive_iff.mp hdecisive, h'.decisive_iff.mp hdecisive', hne⟩
            · cases hsome
          · rintro ⟨item, item', hclear, hclear', hne⟩
            have hid := h.item_of_clear hclear
            have hid' := h'.item_of_clear hclear'
            rw [if_pos ⟨by rwa [hid, hid'], h.decisive_of_clear hclear, h'.decisive_of_clear hclear'⟩]
            rfl

theorem changed_eq (hids : (items.map Item.itemId).Nodup) (hids' : (items'.map Item.itemId).Nodup)
    (h : LedBy items period before) (h' : LedBy items' period' after) (hother : LedBy items period before')
    (hother' : LedBy items' period' after') : changed before' after' = changed before after := by
  have hiff := (changed_isSome_iff hother hother').trans (changed_isSome_iff h h').symm
  cases hchanged : changed before after with
  | none =>
      rw [hchanged] at hiff
      exact Option.not_isSome_iff_eq_none.mp fun hsome => Bool.false_ne_true (hiff.mp hsome)
  | some shift =>
      obtain ⟨leader, leader', rfl, rfl, hdecisive, hdecisive'⟩ := of_changed hchanged
      obtain ⟨shift', hchanged'⟩ := Option.isSome_iff_exists.mp (hiff.mpr (hchanged ▸ rfl))
      obtain ⟨other, other', rfl, rfl, -⟩ := of_changed hchanged'
      rw [Leads.eq_of_decisive hids h hother hdecisive, Leads.eq_of_decisive hids' h' hother' hdecisive', hchanged]

end Changed

/-! ### The whole report -/

def CustomerShift.shift (shift : CustomerShift) : Dimension → Option DimensionShift
  | .channel => shift.channel
  | .store => shift.store
  | .category => shift.category

def shiftBetween (c : String) (was now : CustomerLeaders) : CustomerShift :=
  ⟨c, changed was.channel now.channel, changed was.store now.store, changed was.category now.category⟩

def CustomerShift.claimed (shift : CustomerShift) : Bool :=
  shift.channel.isSome || shift.store.isSome || shift.category.isSome

def undecidedBetween (was now : CustomerLeaders) : Bool :=
  undecided was.channel now.channel || undecided was.store now.store || undecided was.category now.category

theorem exists_dimension {p : Dimension → Prop} : (∃ dimension, p dimension) ↔
    p .channel ∨ p .store ∨ p .category := by
  constructor
  · rintro ⟨dimension, h⟩
    cases dimension with
    | channel => exact .inl h
    | store => exact .inr (.inl h)
    | category => exact .inr (.inr h)
  · rintro (h | h | h)
    · exact ⟨.channel, h⟩
    · exact ⟨.store, h⟩
    · exact ⟨.category, h⟩

theorem claimed_iff (shift : CustomerShift) : shift.claimed = true ↔
    ∃ dimension, (shift.shift dimension).isSome = true := by
  unfold CustomerShift.claimed
  rw [Bool.or_eq_true, Bool.or_eq_true, or_assoc, exists_dimension]
  rfl

theorem undecidedBetween_iff (was now : CustomerLeaders) : undecidedBetween was now = true ↔
    ∃ dimension, undecided (was.leader dimension) (now.leader dimension) = true := by
  unfold undecidedBetween
  rw [Bool.or_eq_true, Bool.or_eq_true, or_assoc, exists_dimension]
  rfl

theorem shift_shiftBetween (c : String) (was now : CustomerLeaders) (dimension : Dimension) :
    (shiftBetween c was now).shift dimension = changed (was.leader dimension) (now.leader dimension) := by
  cases dimension <;> rfl

/-- What becomes of a customer of either period. -/
inductive Outcome where
  | absent (side : Side)
  | shifted (shift : CustomerShift)
  | undecided
  | unchanged

def Outcome.shift : Outcome → Option CustomerShift
  | .shifted shift => some shift
  | _ => none

def Outcome.side : Outcome → Option Side
  | .absent side => some side
  | _ => none

def Outcome.isUndecided : Outcome → Bool
  | .undecided => true
  | _ => false

section Report

variable (before after : Dict String CustomerLeaders)

def outcome (c : String) : Outcome :=
  match before.lookup c, after.lookup c with
  | none, _ => .absent .earlier
  | some _, none => .absent .later
  | some was, some now =>
    if (shiftBetween c was now).claimed then .shifted (shiftBetween c was now)
    else if undecidedBetween was now then .undecided
    else .unchanged

def Found.add (found : Found) (c : String) : Outcome → Found
  | .absent side => { found with absences := found.absences ++ [⟨c, side⟩] }
  | .shifted shift => { found with shifts := found.shifts ++ [shift], compared := found.compared + 1 }
  | .undecided => { found with compared := found.compared + 1, undecided := found.undecided + 1 }
  | .unchanged => { found with compared := found.compared + 1 }

theorem compareCustomer_outcome (found : Found) (c : String) :
    compareCustomer before after found c = found.add c (outcome before after c) := by
  unfold compareCustomer outcome
  cases before.lookup c with
  | none => rfl
  | some was =>
      cases after.lookup c with
      | none => rfl
      | some now =>
          change (if (shiftBetween c was now).claimed then _ else if undecidedBetween was now then _ else _) = _
          simp only []
          split_ifs <;> rfl

theorem foldl_compareCustomer (customers : List String) (found : Found) :
    customers.foldl (compareCustomer before after) found =
      { shifts := found.shifts ++ customers.filterMap fun c => (outcome before after c).shift
        absences := found.absences ++ customers.filterMap fun c => (outcome before after c).side.map (⟨c, ·⟩)
        compared := found.compared + (customers.filter fun c => (outcome before after c).side.isNone).length
        undecided := found.undecided + (customers.filter fun c => (outcome before after c).isUndecided).length } := by
  induction customers generalizing found with
  | nil => simp
  | cons c customers ih =>
      rw [List.foldl_cons, ih, compareCustomer_outcome, List.filterMap_cons, List.filterMap_cons, List.filter_cons,
        List.filter_cons]
      cases outcome before after c <;>
        simp [Found.add, Outcome.shift, Outcome.side, Outcome.isUndecided, add_assoc, add_comm]

variable {before after} {c : String} {was now : CustomerLeaders}

theorem outcome_earlier (h : before.lookup c = none) : outcome before after c = .absent .earlier := by
  unfold outcome
  rw [h]

theorem outcome_later (h : before.lookup c = some was) (h' : after.lookup c = none) :
    outcome before after c = .absent .later := by
  unfold outcome
  rw [h, h']

theorem outcome_both (h : before.lookup c = some was) (h' : after.lookup c = some now) :
    outcome before after c =
      if (shiftBetween c was now).claimed then .shifted (shiftBetween c was now)
      else if undecidedBetween was now then .undecided
      else .unchanged := by
  unfold outcome
  rw [h, h']

theorem outcome_cases (before after : Dict String CustomerLeaders) (c : String) :
    (c ∉ before.keys ∧ outcome before after c = .absent .earlier) ∨
      (c ∈ before.keys ∧ c ∉ after.keys ∧ outcome before after c = .absent .later) ∨
        ∃ was now, before.lookup c = some was ∧ after.lookup c = some now := by
  rw [← lookup_isSome, ← lookup_isSome]
  cases hwas : before.lookup c with
  | none => exact .inl ⟨Bool.false_ne_true, outcome_earlier hwas⟩
  | some was =>
      cases hnow : after.lookup c with
      | none => exact .inr (.inl ⟨rfl, Bool.false_ne_true, outcome_later hwas hnow⟩)
      | some now => exact .inr (.inr ⟨was, now, rfl, rfl⟩)

theorem outcome_shift {shift : CustomerShift} : (outcome before after c).shift = some shift ↔
    ∃ was now, before.lookup c = some was ∧ after.lookup c = some now ∧ shift = shiftBetween c was now ∧
      shift.claimed = true := by
  constructor
  · intro h
    obtain ⟨-, habsent⟩ | ⟨-, -, habsent⟩ | ⟨was, now, hwas, hnow⟩ := outcome_cases before after c
    · rw [habsent] at h
      cases h
    · rw [habsent] at h
      cases h
    · rw [outcome_both hwas hnow] at h
      split_ifs at h with hclaimed
      · obtain rfl := Option.some.inj h
        exact ⟨was, now, hwas, hnow, rfl, hclaimed⟩
      · cases h
      · cases h
  · rintro ⟨was, now, hwas, hnow, rfl, hclaimed⟩
    rw [outcome_both hwas hnow, if_pos hclaimed]
    rfl

theorem outcome_side {side : Side} : (outcome before after c).side = some side ↔
    side = .earlier ∧ c ∉ before.keys ∨ side = .later ∧ c ∈ before.keys ∧ c ∉ after.keys := by
  obtain ⟨hbefore, habsent⟩ | ⟨hbefore, hafter, habsent⟩ | ⟨was, now, hwas, hnow⟩ := outcome_cases before after c
  · rw [habsent]
    simp [Outcome.side, hbefore, eq_comm]
  · rw [habsent]
    simp [Outcome.side, hbefore, hafter, eq_comm]
  · have hbefore : c ∈ before.keys := lookup_isSome.mp (hwas ▸ rfl)
    have hafter : c ∈ after.keys := lookup_isSome.mp (hnow ▸ rfl)
    rw [outcome_both hwas hnow]
    split_ifs <;> simp [Outcome.side, hbefore, hafter]

theorem outcome_undecided : (outcome before after c).isUndecided = true ↔
    ∃ was now, before.lookup c = some was ∧ after.lookup c = some now ∧
      (shiftBetween c was now).claimed = false ∧ undecidedBetween was now = true := by
  constructor
  · intro h
    obtain ⟨-, habsent⟩ | ⟨-, -, habsent⟩ | ⟨was, now, hwas, hnow⟩ := outcome_cases before after c
    · rw [habsent] at h
      cases h
    · rw [habsent] at h
      cases h
    · rw [outcome_both hwas hnow] at h
      split_ifs at h with hclaimed hundecided
      · cases h
      · exact ⟨was, now, hwas, hnow, Bool.eq_false_iff.mpr hclaimed, hundecided⟩
      · cases h
  · rintro ⟨was, now, hwas, hnow, hclaimed, hundecided⟩
    rw [outcome_both hwas hnow, if_neg (Bool.eq_false_iff.mp hclaimed), if_pos hundecided]
    rfl

end Report

def everyone (before after : Dict String CustomerLeaders) : List String :=
  sortBy id (before.keys ++ after.keys).dedup

section Compare

variable {before after : Dict String CustomerLeaders} (earlier later : Period) (seeded : Bool)

theorem mem_everyone {c : String} : c ∈ everyone before after ↔ c ∈ before.keys ∨ c ∈ after.keys := by
  unfold everyone
  rw [mem_sortBy, List.mem_dedup, List.mem_append]

theorem nodup_everyone (before after : Dict String CustomerLeaders) : (everyone before after).Nodup :=
  (perm_sortBy _ _).nodup_iff.mpr (List.nodup_dedup _)

def comparedCustomers (before after : Dict String CustomerLeaders) : List String :=
  (everyone before after).filter fun c => (outcome before after c).side.isNone

def undecidedCustomers (before after : Dict String CustomerLeaders) : List String :=
  (everyone before after).filter fun c => (outcome before after c).isUndecided

theorem comparePeriods_found : comparePeriods earlier later before after seeded =
    { earlier
      later
      shifts := (everyone before after).filterMap fun c => (outcome before after c).shift
      absences := (everyone before after).filterMap fun c => (outcome before after c).side.map (⟨c, ·⟩)
      compared := (comparedCustomers before after).length
      unchanged := (comparedCustomers before after).length -
        ((everyone before after).filterMap fun c => (outcome before after c).shift).length
      undecided := (undecidedCustomers before after).length
      seeded } := by
  have hfound := foldl_compareCustomer before after (everyone before after) {}
  unfold everyone at hfound
  simp only [comparePeriods, hfound, List.nil_append, zero_add]
  rfl

theorem shifted_undecided_le (before after : Dict String CustomerLeaders) (customers : List String) :
    (customers.filterMap fun c => (outcome before after c).shift).length +
        (customers.filter fun c => (outcome before after c).isUndecided).length ≤
      (customers.filter fun c => (outcome before after c).side.isNone).length := by
  induction customers with
  | nil => exact le_rfl
  | cons c customers ih =>
      rw [List.filterMap_cons, List.filter_cons, List.filter_cons]
      cases outcome before after c with
      | absent side => exact ih
      | shifted shift => exact (Nat.succ_add _ _).le.trans (Nat.succ_le_succ ih)
      | undecided => exact Nat.succ_le_succ ih
      | unchanged => exact ih.trans (Nat.le_succ _)

variable {earlier later seeded}

theorem mem_shifts {shift : CustomerShift} : shift ∈ (comparePeriods earlier later before after seeded).shifts ↔
    ∃ c was now, before.lookup c = some was ∧ after.lookup c = some now ∧ shift = shiftBetween c was now ∧
      ∃ dimension, (changed (was.leader dimension) (now.leader dimension)).isSome = true := by
  rw [comparePeriods_found, List.mem_filterMap]
  constructor
  · rintro ⟨c, -, hshift⟩
    obtain ⟨was, now, hwas, hnow, rfl, hclaimed⟩ := outcome_shift.mp hshift
    obtain ⟨dimension, hsome⟩ := (claimed_iff _).mp hclaimed
    exact ⟨c, was, now, hwas, hnow, rfl, dimension, shift_shiftBetween c was now dimension ▸ hsome⟩
  · rintro ⟨c, was, now, hwas, hnow, rfl, dimension, hsome⟩
    have hclaimed := (claimed_iff _).mpr ⟨dimension, (shift_shiftBetween c was now dimension).symm ▸ hsome⟩
    exact ⟨c, mem_everyone.mpr (.inl (lookup_isSome.mp (hwas ▸ rfl))),
      outcome_shift.mpr ⟨was, now, hwas, hnow, rfl, hclaimed⟩⟩

theorem mem_absences {absence : CustomerAbsence} :
    absence ∈ (comparePeriods earlier later before after seeded).absences ↔
      absence.absentFrom = .earlier ∧ absence.customerId ∉ before.keys ∧ absence.customerId ∈ after.keys ∨
        absence.absentFrom = .later ∧ absence.customerId ∈ before.keys ∧ absence.customerId ∉ after.keys := by
  rw [comparePeriods_found, List.mem_filterMap]
  constructor
  · rintro ⟨c, hc, hfound⟩
    obtain ⟨side, hside, rfl⟩ := Option.map_eq_some_iff.mp hfound
    obtain ⟨rfl, hnot⟩ | ⟨rfl, hmem⟩ := outcome_side.mp hside
    · exact .inl ⟨rfl, hnot, (mem_everyone.mp hc).resolve_left hnot⟩
    · exact .inr ⟨rfl, hmem⟩
  · intro h
    obtain ⟨hside, hnot, hmem⟩ | ⟨hside, hmem, hnot⟩ := h
    · refine ⟨absence.customerId, mem_everyone.mpr (.inr hmem), ?_⟩
      rw [outcome_side.mpr (.inl ⟨hside, hnot⟩)]
      rfl
    · refine ⟨absence.customerId, mem_everyone.mpr (.inl hmem), ?_⟩
      rw [outcome_side.mpr (.inr ⟨hside, hmem, hnot⟩)]
      rfl

theorem absent_iff {c : String} :
    c ∈ (comparePeriods earlier later before after seeded).absences.map CustomerAbsence.customerId ↔
      c ∉ before.keys ∧ c ∈ after.keys ∨ c ∈ before.keys ∧ c ∉ after.keys := by
  simp only [List.mem_map, mem_absences]
  constructor
  · rintro ⟨absence, ⟨-, hkeys⟩ | ⟨-, hkeys⟩, rfl⟩
    · exact .inl hkeys
    · exact .inr hkeys
  · rintro (hkeys | hkeys)
    · exact ⟨⟨c, .earlier⟩, .inl ⟨rfl, hkeys⟩, rfl⟩
    · exact ⟨⟨c, .later⟩, .inr ⟨rfl, hkeys⟩, rfl⟩

theorem mem_comparedCustomers {c : String} :
    c ∈ comparedCustomers before after ↔ c ∈ before.keys ∧ c ∈ after.keys := by
  unfold comparedCustomers
  rw [List.mem_filter, mem_everyone, Option.isNone_iff_eq_none, Option.eq_none_iff_forall_ne_some]
  constructor
  · rintro ⟨hc, hnone⟩
    have hbefore : c ∈ before.keys := by
      by_contra hnot
      exact hnone .earlier (outcome_side.mpr (.inl ⟨rfl, hnot⟩))
    refine ⟨hbefore, ?_⟩
    by_contra hnot
    exact hnone .later (outcome_side.mpr (.inr ⟨rfl, hbefore, hnot⟩))
  · rintro ⟨hbefore, hafter⟩
    refine ⟨.inl hbefore, fun side hside => ?_⟩
    obtain ⟨-, hnot⟩ | ⟨-, -, hnot⟩ := outcome_side.mp hside
    · exact hnot hbefore
    · exact hnot hafter

end Compare

/-- Every customer with sales in either period is in exactly one of the compared and the absent, and the
counts of the report add up. -/
structure Reconciles (totals totals' : PeriodTotals) (report : ShiftReport) : Prop where
  compared : report.compared = report.shifts.length + report.unchanged
  undecided : 0 ≤ report.undecided ∧ report.undecided ≤ report.unchanged
  customers : ∃ compared : List String, compared.Nodup ∧ report.compared = compared.length ∧
    (∀ c, c ∈ compared ↔ totals.Sold c ∧ totals'.Sold c) ∧
    ∀ c, totals.Sold c ∨ totals'.Sold c ↔ Xor (c ∈ compared) (c ∈ report.absences.map CustomerAbsence.customerId)
  absent : ∀ absence ∈ report.absences, absence.absentFrom = .earlier ∧ ¬ totals.Sold absence.customerId ∨
    absence.absentFrom = .later ∧ ¬ totals'.Sold absence.customerId

/-- The same totals but for what was spent and how many units. -/
def PeriodTotals.SameCounts (totals other : PeriodTotals) : Prop :=
  (∀ dimension, other.counts dimension = totals.counts dimension) ∧ other.lined = totals.lined

section Claims

variable {totals totals' other other' : PeriodTotals} {before after before' after' : Dict String CustomerLeaders}
  {earlier later : Period} {seeded : Bool}

theorem reconciles (h : Led totals before) (h' : Led totals' after) :
    Reconciles totals totals' (comparePeriods earlier later before after seeded) := by
  have hle := shifted_undecided_le before after (everyone before after)
  refine ⟨?_, ?_, ⟨comparedCustomers before after, (nodup_everyone _ _).filter _, ?_, fun c => ?_, fun c => ?_⟩,
    fun absence habsence => ?_⟩
  · rw [comparePeriods_found]
    exact (add_sub_cancel _ _).symm
  · rw [comparePeriods_found]
    change (0 : ℤ) ≤ (undecidedCustomers before after).length ∧
      ((undecidedCustomers before after).length : ℤ) ≤ (comparedCustomers before after).length - _
    unfold undecidedCustomers comparedCustomers
    omega
  · rw [comparePeriods_found]
  · rw [mem_comparedCustomers, h.keys, h'.keys]
  · rw [mem_comparedCustomers, absent_iff, h.keys, h'.keys]
    unfold Xor
    tauto
  · obtain ⟨hside, hnot, -⟩ | ⟨hside, -, hnot⟩ := mem_absences.mp habsence
    · exact .inl ⟨hside, fun hsold => hnot ((h.keys _).mpr hsold)⟩
    · exact .inr ⟨hside, fun hsold => hnot ((h'.keys _).mpr hsold)⟩

namespace PeriodTotals.SameCounts

variable (hsame : totals.SameCounts other)

include hsame

theorem items_eq (dimension : Dimension) (c : String) : other.items dimension c = totals.items dimension c := by
  unfold PeriodTotals.items
  rw [hsame.1]

theorem purchases_eq (dimension : Dimension) (c : String) :
    other.purchases dimension c = totals.purchases dimension c := by
  unfold PeriodTotals.purchases
  rw [hsame.items_eq, hsame.2]

theorem sold_iff (c : String) : other.Sold c ↔ totals.Sold c := by
  unfold PeriodTotals.Sold
  rw [hsame.items_eq]

theorem grouped (h : totals.Grouped) : other.Grouped where
  customers := by
    rw [hsame.1]
    exact h.customers
  items := fun dimension c => by
    rw [hsame.items_eq]
    exact h.items dimension c
  stores := fun c hc => by
    rw [hsame.1] at hc
    rw [hsame.items_eq]
    exact h.stores c hc
  sold := fun dimension c hne => by
    rw [hsame.items_eq] at hne
    exact (hsame.sold_iff c).mpr (h.sold dimension c hne)

theorem ledBy {leaders : Dict String CustomerLeaders} (h : Led other leaders) {c : String}
    {found : CustomerLeaders}
    (hfound : leaders.lookup c = some found) (dimension : Dimension) :
    LedBy (totals.items dimension c) (totals.purchases dimension c) (found.leader dimension) := by
  rw [← hsame.items_eq, ← hsame.purchases_eq]
  exact h.ledBy c found hfound dimension

end PeriodTotals.SameCounts

section Same

variable (hg : totals.Grouped) (hg' : totals'.Grouped) (h : Led totals before) (h' : Led totals' after)
  (hsame : totals.SameCounts other) (hsame' : totals'.SameCounts other') (hother : Led other before')
  (hother' : Led other' after')

include hg hg' h h' hsame hsame' hother hother'

theorem shiftBetween_same {c : String} {was now was' now' : CustomerLeaders} (hwas : before.lookup c = some was)
    (hnow : after.lookup c = some now) (hwas' : before'.lookup c = some was') (hnow' : after'.lookup c = some now') :
    shiftBetween c was' now' = shiftBetween c was now := by
  have hchanged : ∀ dimension, changed (was'.leader dimension) (now'.leader dimension) =
      changed (was.leader dimension) (now.leader dimension) := fun dimension =>
    changed_eq (hg.items dimension c) (hg'.items dimension c) (h.ledBy c was hwas dimension) (h'.ledBy c now hnow dimension)
      (hsame.ledBy hother hwas' dimension) (hsame'.ledBy hother' hnow' dimension)
  unfold shiftBetween
  rw [CustomerShift.mk.injEq]
  exact ⟨rfl, hchanged .channel, hchanged .store, hchanged .category⟩

theorem outcome_same (c : String) : (outcome before' after' c).shift = (outcome before after c).shift := by
  have hkeys : c ∈ before'.keys ↔ c ∈ before.keys := by rw [hother.keys, h.keys, hsame.sold_iff]
  have hkeys' : c ∈ after'.keys ↔ c ∈ after.keys := by rw [hother'.keys, h'.keys, hsame'.sold_iff]
  refine Option.ext fun shift => ?_
  rw [outcome_shift, outcome_shift]
  constructor
  · rintro ⟨was', now', hwas', hnow', rfl, hclaimed⟩
    obtain ⟨was, hwas⟩ := exists_lookup (hkeys.mp (lookup_isSome.mp (hwas' ▸ rfl)))
    obtain ⟨now, hnow⟩ := exists_lookup (hkeys'.mp (lookup_isSome.mp (hnow' ▸ rfl)))
    have heq := shiftBetween_same hg hg' h h' hsame hsame' hother hother' hwas hnow hwas' hnow'
    exact ⟨was, now, hwas, hnow, heq, hclaimed⟩
  · rintro ⟨was, now, hwas, hnow, rfl, hclaimed⟩
    obtain ⟨was', hwas'⟩ := exists_lookup (hkeys.mpr (lookup_isSome.mp (hwas ▸ rfl)))
    obtain ⟨now', hnow'⟩ := exists_lookup (hkeys'.mpr (lookup_isSome.mp (hnow ▸ rfl)))
    have heq := shiftBetween_same hg hg' h h' hsame hsame' hother hother' hwas hnow hwas' hnow'
    exact ⟨was', now', hwas', hnow', heq.symm, hclaimed⟩

theorem shifts_same : (comparePeriods earlier later before' after' seeded).shifts =
    (comparePeriods earlier later before after seeded).shifts := by
  have heveryone : everyone before' after' = everyone before after := by
    refine sortBy_perm (fun _ _ _ _ heq => heq) ((List.perm_ext_iff_of_nodup (List.nodup_dedup _)
      (List.nodup_dedup _)).mpr fun c => ?_)
    rw [List.mem_dedup, List.mem_dedup, List.mem_append, List.mem_append, hother.keys, hother'.keys,
      h.keys, h'.keys,
      hsame.sold_iff, hsame'.sold_iff]
  have hshifts : ∀ c, (outcome before' after' c).shift = (outcome before after c).shift :=
    outcome_same hg hg' h h' hsame hsame' hother hother'
  rw [comparePeriods_found, comparePeriods_found, heveryone]
  simp only [hshifts]

end Same

/-- **Claimed shifts.** Two clear leaders that differ, whatever was spent; and the report reconciles. -/
theorem comparePeriods_claims (hg : totals.Grouped) (hg' : totals'.Grouped) (earlier later : Period)
    (seeded : Bool) :
    ∃ before after report, buildLeaders totals = .ok before ∧ buildLeaders totals' = .ok after ∧
      comparePeriods earlier later before after seeded = report ∧
      (∀ dimension c,
        (∃ shift ∈ report.shifts, shift.customerId = c ∧ (shift.shift dimension).isSome = true) ↔
          ∃ item item', Clear (totals.items dimension c) (totals.purchases dimension c) item ∧
            Clear (totals'.items dimension c) (totals'.purchases dimension c) item' ∧ item.itemId ≠ item'.itemId) ∧
      (∀ other other', totals.SameCounts other → totals'.SameCounts other' → ∃ before' after',
        buildLeaders other = .ok before' ∧ buildLeaders other' = .ok after' ∧
          (comparePeriods earlier later before' after' seeded).shifts = report.shifts) ∧
      Reconciles totals totals' report := by
  obtain ⟨before, hbefore, h⟩ := buildLeaders_led hg
  obtain ⟨after, hafter, h'⟩ := buildLeaders_led hg'
  refine ⟨before, after, _, hbefore, hafter, rfl, fun dimension c => ⟨?_, ?_⟩, ?_, reconciles h h'⟩
  · rintro ⟨shift, hshift, rfl, hsome⟩
    obtain ⟨c, was, now, hwas, hnow, rfl, -⟩ := mem_shifts.mp hshift
    rw [shift_shiftBetween] at hsome
    exact (changed_isSome_iff (h.ledBy c was hwas dimension) (h'.ledBy c now hnow dimension)).mp hsome
  · rintro ⟨item, item', hclear, hclear', hne⟩
    have hsold := hg.sold dimension c (List.ne_nil_of_mem hclear.mem)
    have hsold' := hg'.sold dimension c (List.ne_nil_of_mem hclear'.mem)
    obtain ⟨was, hwas⟩ := exists_lookup ((h.keys c).mpr hsold)
    obtain ⟨now, hnow⟩ := exists_lookup ((h'.keys c).mpr hsold')
    have hsome := (changed_isSome_iff (h.ledBy c was hwas dimension) (h'.ledBy c now hnow dimension)).mpr
      ⟨item, item', hclear, hclear', hne⟩
    refine ⟨shiftBetween c was now, mem_shifts.mpr ⟨c, was, now, hwas, hnow, rfl, dimension, hsome⟩, rfl, ?_⟩
    rw [shift_shiftBetween]
    exact hsome
  · intro other other' hsame hsame'
    obtain ⟨before', hbefore', hother⟩ := buildLeaders_led (hsame.grouped hg)
    obtain ⟨after', hafter', hother'⟩ := buildLeaders_led (hsame'.grouped hg')
    exact ⟨before', after', hbefore', hafter', shifts_same hg hg' h h' hsame hsame' hother hother'⟩

end Claims

/-- A quarter in which one customer bought through one channel, in one store and one category. -/
def quarter (channel : ℤ) : PeriodTotals where
  channels := [("ada", [⟨channel, "channel", 4, 100⟩])]
  stores := [("ada", [⟨7, "store", 4, 100⟩])]
  categories := [("ada", [⟨9, "category", 3, 5, 80⟩])]
  lined := some [("ada", 3)]

theorem quarter_grouped (channel : ℤ) : (quarter channel).Grouped := by
  have hitems : ∀ dimension c, (quarter channel).items dimension c = [] ∨ c = "ada" ∧
      ∃ item, (quarter channel).items dimension c = [item] := fun dimension c => by
    unfold PeriodTotals.items Dict.at
    by_cases hc : c = "ada"
    · subst hc
      cases dimension with
      | channel => exact .inr ⟨rfl, _, rfl⟩
      | store => exact .inr ⟨rfl, _, rfl⟩
      | category => exact .inr ⟨rfl, _, rfl⟩
    · refine .inl ?_
      rw [lookup_eq_none]
      · rfl
      · cases dimension <;> simpa [PeriodTotals.counts, quarter, Dict.keys] using hc
  refine ⟨List.nodup_singleton _, fun dimension c => ?_, fun c hc => ?_, fun dimension c hne => ?_⟩
  · obtain hnil | ⟨-, item, hone⟩ := hitems dimension c
    · rw [hnil]
      exact List.nodup_nil
    · rw [hone]
      exact List.nodup_singleton _
  · obtain rfl := List.mem_singleton.mp hc
    exact List.cons_ne_nil _ _
  · obtain hnil | ⟨rfl, -⟩ := hitems dimension c
    · exact absurd hnil hne
    · exact List.cons_ne_nil _ _

/-- The customer's channel shifted, and nothing else did. -/
theorem comparePeriods_claims_channel : ∃ before after report,
    buildLeaders (quarter 1) = .ok before ∧ buildLeaders (quarter 2) = .ok after ∧
      comparePeriods ⟨0, 90⟩ ⟨90, 180⟩ before after false = report ∧
      ∃ shift ∈ report.shifts, shift.customerId = "ada" ∧ (shift.shift .channel).isSome = true := by
  obtain ⟨before, after, report, hbefore, hafter, hreport, hclaims, -⟩ :=
    comparePeriods_claims (quarter_grouped 1) (quarter_grouped 2) ⟨0, 90⟩ ⟨90, 180⟩ false
  refine ⟨before, after, report, hbefore, hafter, hreport, (hclaims .channel "ada").mpr ?_⟩
  refine ⟨⟨1, "channel", 4⟩, ⟨2, "channel", 4⟩, ⟨List.mem_singleton.mpr rfl, by decide, ?_⟩,
    ⟨List.mem_singleton.mpr rfl, by decide, ?_⟩, by decide⟩
  · intro item hitem hne
    obtain rfl := List.mem_singleton.mp hitem
    exact absurd rfl hne
  · intro item hitem hne
    obtain rfl := List.mem_singleton.mp hitem
    exact absurd rfl hne

end RetailSegmentation.ConsumptionShifts
