import RetailSegmentation.GroupedRows
import RetailSegmentation.RootedTrees

/-! The category tree of the desktop (`clients/desktop/src/main/catalog.ts`): categories as the pages of a list
gave them, nested under their parents. -/

namespace RetailSegmentation.DesktopCategories

open Forest Grouping

structure CategoryView where
  categoryId : ℤ
  name : String
  parentCategoryId : Option ℤ
  deriving DecidableEq, Repr

/-- A category with its `children`. -/
abbrev CategoryNode := Forest.Tree CategoryView

/-- `nodes`: the category of every id. -/
def nodesOf (categories : List CategoryView) : Dict ℤ CategoryView :=
  categories.foldl (fun nodes c => nodes.put c.categoryId c) []

/-- The node that another is nested under; `none` for a root. -/
def parentOf (nodes : Dict ℤ CategoryView) (node : CategoryView) : Option CategoryView :=
  (node.parentCategoryId.bind fun id => nodes.lookup id).filter fun parent => parent.categoryId ≠ node.categoryId

/-- The roots, and the `children` of every node. -/
structure Linked where
  roots : List CategoryView
  children : Dict ℤ (List CategoryView)

def Linked.childrenOf (linked : Linked) (node : CategoryView) : List CategoryView :=
  linked.children.at node.categoryId []

def link (nodes : Dict ℤ CategoryView) (linked : Linked) (node : CategoryView) : Linked :=
  match parentOf nodes node with
  | none => { linked with roots := linked.roots ++ [node] }
  | some parent => { linked with children := linked.children.change parent.categoryId [] (· ++ [node]) }

def linkAll (nodes : Dict ℤ CategoryView) : Linked := (nodes.map Prod.snd).foldl (link nodes) ⟨[], []⟩

def byId (list : List CategoryView) : List CategoryView :=
  list.mergeSort fun a b => a.categoryId ≤ b.categoryId

/-- `sort`: it visits what is below the nodes of `list`, level by level, and that is what `list` holds in the
end. -/
def sort (linked : Linked) (fuel : ℕ) (list : List CategoryView) : Option (List CategoryNode) :=
  grow byId linked.childrenOf fuel list

/-- `none` where the visits of `sort` are nested deeper than `fuel`. -/
def treeOf (fuel : ℕ) (categories : List CategoryView) : Option (List CategoryNode) :=
  let linked := linkAll (nodesOf categories)
  sort linked fuel linked.roots

/-! ### What is linked -/

variable {categories : List CategoryView}

theorem nodesOf_eq (hids : (categories.map CategoryView.categoryId).Nodup) :
    nodesOf categories = categories.map fun c => (c.categoryId, c) := by
  induction categories using List.reverseRecOn with
  | nil => rfl
  | append_singleton front c ih =>
      rw [List.map_append, List.nodup_append] at hids
      obtain ⟨hfront, -, hnew⟩ := hids
      rw [nodesOf, List.foldl_append]
      change (nodesOf front).put c.categoryId c = _
      rw [ih hfront, List.map_append]
      apply change_new
      intro hmem
      have hfound : c.categoryId ∈ front.map CategoryView.categoryId := by
        simpa [Dict.keys] using hmem
      exact hnew _ hfound _ (List.mem_singleton_self _) rfl

theorem keys_nodesOf (hids : (categories.map CategoryView.categoryId).Nodup) :
    (nodesOf categories).keys.Nodup := by
  rw [nodesOf_eq hids]
  simpa [Dict.keys, Function.comp_def] using hids

theorem parentOf_eq_some (hids : (categories.map CategoryView.categoryId).Nodup) {c p : CategoryView} :
    parentOf (nodesOf categories) c = some p ↔
      p ∈ categories ∧ c.parentCategoryId = some p.categoryId ∧ p.categoryId ≠ c.categoryId := by
  have hmem : ∀ id, (nodesOf categories).lookup id = some p ↔ p ∈ categories ∧ p.categoryId = id := by
    intro id
    rw [lookup_eq_some (keys_nodesOf hids), nodesOf_eq hids, List.mem_map]
    constructor
    · rintro ⟨q, hq, heq⟩
      obtain ⟨hid, rfl⟩ := Prod.mk.inj heq
      exact ⟨hq, hid⟩
    · rintro ⟨hp, rfl⟩
      exact ⟨p, hp, rfl⟩
  rw [parentOf, Option.filter_eq_some_iff, Option.bind_eq_some_iff, decide_eq_true_eq]
  constructor
  · rintro ⟨⟨id, hid, hfound⟩, hne⟩
    obtain ⟨hp, rfl⟩ := (hmem id).mp hfound
    exact ⟨hp, hid, hne⟩
  · rintro ⟨hp, hid, hne⟩
    exact ⟨⟨p.categoryId, hid, (hmem _).mpr ⟨hp, rfl⟩⟩, hne⟩

/-- The nodes that a loop over some of them makes roots, and those that it makes children of one node. -/
theorem foldl_link (nodes : Dict ℤ CategoryView) (l : List CategoryView) (linked : Linked) (id : ℤ) :
    (l.foldl (link nodes) linked).roots = linked.roots ++ l.filter (fun x => (parentOf nodes x).isNone) ∧
    (l.foldl (link nodes) linked).children.at id [] = linked.children.at id [] ++
      l.filter fun x => (parentOf nodes x).map CategoryView.categoryId = some id := by
  induction l generalizing linked with
  | nil => simp
  | cons x l ih =>
      obtain ⟨hroots, hchildren⟩ := ih (link nodes linked x)
      rw [List.foldl_cons, hroots, hchildren]
      unfold link
      cases hparent : parentOf nodes x with
      | none => simp [hparent]
      | some p =>
          refine ⟨by simp [hparent], ?_⟩
          dsimp only
          have hat : (linked.children.change p.categoryId [] (· ++ [x])).at id [] =
              if id = p.categoryId then linked.children.at id [] ++ [x] else linked.children.at id [] := by
            unfold Dict.at
            rw [lookup_change]
            split_ifs with hid
            · rw [hid]
              rfl
            · rfl
          rw [hat]
          split_ifs with hid
          · simp [hparent, hid]
          · simp [hparent, Ne.symm hid]

theorem linkAll_roots (hids : (categories.map CategoryView.categoryId).Nodup) :
    (linkAll (nodesOf categories)).roots =
      categories.filter fun x => (parentOf (nodesOf categories) x).isNone := by
  have hnodes : (nodesOf categories).map Prod.snd = categories := by
    rw [nodesOf_eq hids]
    simp [Function.comp_def]
  rw [linkAll, hnodes, (foldl_link _ categories _ 0).1]
  rfl

theorem linkAll_children (hids : (categories.map CategoryView.categoryId).Nodup) (a : CategoryView) :
    (linkAll (nodesOf categories)).childrenOf a = categories.filter fun x =>
      (parentOf (nodesOf categories) x).map CategoryView.categoryId = some a.categoryId := by
  have hnodes : (nodesOf categories).map Prod.snd = categories := by
    rw [nodesOf_eq hids]
    simp [Function.comp_def]
  rw [Linked.childrenOf, linkAll, hnodes, (foldl_link _ categories _ a.categoryId).2]
  rfl

theorem siblings_linkAll (hids : (categories.map CategoryView.categoryId).Nodup) :
    Siblings (parentOf (nodesOf categories)) categories (linkAll (nodesOf categories)).childrenOf := by
  intro a ha
  rw [linkAll_children hids]
  apply List.Perm.of_eq
  apply List.filter_congr
  intro x _
  congr 1
  rw [eq_iff_iff, Option.map_eq_some_iff]
  constructor
  · rintro ⟨p, hp, hid⟩
    obtain rfl : p = a := List.inj_on_of_nodup_map hids ((parentOf_eq_some hids).mp hp).1 ha hid
    exact hp
  · intro hparent
    exact ⟨a, hparent, rfl⟩

/-! ### Every category once -/

/-- Both are in the list, and the first names the second as its parent. -/
def Under (categories : List CategoryView) (c p : CategoryView) : Prop :=
  c ∈ categories ∧ p ∈ categories ∧ c.parentCategoryId = some p.categoryId

def NoCycle (categories : List CategoryView) : Prop :=
  ∀ c, ¬ Relation.TransGen (fun c p => Under categories c p ∧ p ≠ c) c c

/-- The forest holds every category once, siblings by their ids; and where the parents of the list are
acyclic, every category whose parent is in the list below that one. -/
structure Shown (categories : List CategoryView) (forest : List CategoryNode) : Prop where
  once : (entriesOf forest).Perm categories
  ordered : (forest.map Forest.Tree.root).Pairwise (fun a b => a.categoryId ≤ b.categoryId) ∧
    EachOrdered (fun a b => a.categoryId ≤ b.categoryId) forest
  nested : (∀ c, ¬ Relation.TransGen (Under categories) c c) →
    ∀ c p, Under categories c p → (p, c) ∈ edgesOf forest

/-- `treeOf` ends, with the whole tree. -/
def TreeShown (categories : List CategoryView) : Prop :=
  ∃ forest, (∀ fuel > categories.length, treeOf fuel categories = some forest) ∧ Shown categories forest

theorem byId_perm (list : List CategoryView) : (byId list).Perm list := List.mergeSort_perm _ _

theorem byId_pairwise (list : List CategoryView) :
    (byId list).Pairwise fun a b => a.categoryId ≤ b.categoryId := by
  have hsorted := @List.pairwise_mergeSort CategoryView (fun a b => decide (a.categoryId ≤ b.categoryId))
    (fun a b c hab hbc => by simp only [decide_eq_true_eq] at *; omega)
    (fun a b => by simp only [Bool.or_eq_true, decide_eq_true_eq]; omega) list
  exact hsorted.imp of_decide_eq_true

theorem above_iff (hids : (categories.map CategoryView.categoryId).Nodup) {c p : CategoryView}
    (hc : c ∈ categories) :
    Above (parentOf (nodesOf categories)) c p ↔ Under categories c p ∧ p ≠ c := by
  rw [Above, parentOf_eq_some hids]
  constructor
  · rintro ⟨hp, hparent, hne⟩
    exact ⟨⟨hc, hp, hparent⟩, fun heq => hne (heq ▸ rfl)⟩
  · rintro ⟨⟨-, hp, hparent⟩, hne⟩
    exact ⟨hp, hparent, fun hid => hne (List.inj_on_of_nodup_map hids hp hc hid)⟩

theorem noCycle_iff (hids : (categories.map CategoryView.categoryId).Nodup) :
    NoCycle categories ↔ Acyclic (parentOf (nodesOf categories)) := by
  constructor
  · intro hnone c hcycle
    have hpath : ∀ {a b}, a ∈ categories → Relation.TransGen (Above (parentOf (nodesOf categories))) a b →
        Relation.TransGen (fun c p => Under categories c p ∧ p ≠ c) a b ∧ b ∈ categories := by
      intro a b ha h
      induction h with
      | single hab =>
          have hunder := (above_iff hids ha).mp hab
          exact ⟨.single hunder, hunder.1.2.1⟩
      | tail _ hbc ih =>
          have hunder := (above_iff hids ih.2).mp hbc
          exact ⟨ih.1.tail hunder, hunder.1.2.1⟩
    obtain ⟨b, -, hb⟩ := Relation.TransGen.tail'_iff.mp hcycle
    exact hnone c (hpath ((parentOf_eq_some hids).mp hb).1 hcycle).1
  · intro hacyclic c hcycle
    exact hacyclic c (Relation.TransGen.mono (fun a b hab => (above_iff hids hab.1.1).mpr hab) c c hcycle)

theorem tree_shown (hids : (categories.map CategoryView.categoryId).Nodup) :
    TreeShown categories ↔ NoCycle categories := by
  have hnodes : categories.Nodup := List.Nodup.of_map _ hids
  have hsiblings := siblings_linkAll hids
  have hparent : ∀ a b, parentOf (nodesOf categories) a = some b → b ∈ categories :=
    fun a b h => ((parentOf_eq_some hids).mp h).1
  have hroots := List.Perm.of_eq (linkAll_roots hids)
  obtain ⟨forest, hforest⟩ := grow_roots byId_perm hsiblings hroots (Nat.lt_succ_self _)
  have hcount : ∀ c ∈ categories, (entriesOf forest).count c =
      if (climb (parentOf (nodesOf categories)) (categories.length + 1) c).isSome then 1 else 0 :=
    fun c hc => count_grow_roots byId_perm hsiblings hnodes hparent hc hroots hforest
  have hends : ∀ fuel > categories.length, treeOf fuel categories = some forest :=
    fun fuel hfuel => grow_mono hfuel hforest
  rw [noCycle_iff hids]
  constructor
  · rintro ⟨forest', hends', hshown⟩ c hcycle
    obtain rfl : forest = forest' := Option.some.inj ((hends _ (Nat.lt_succ_self _)).symm.trans
      (hends' _ (Nat.lt_succ_self _)))
    obtain ⟨b, -, hb⟩ := Relation.TransGen.tail'_iff.mp hcycle
    have hc : c ∈ categories := hparent b c hb
    have hone : (entriesOf forest).count c = 1 := by
      rw [hshown.once.count_eq]
      exact List.count_eq_one_of_mem hnodes hc
    rw [hcount c hc] at hone
    cases hclimb : climb (parentOf (nodesOf categories)) (categories.length + 1) c with
    | none => simp [hclimb] at hone
    | some chain => exact not_cycle_of_climb hclimb hcycle
  · intro hacyclic
    have hone : ∀ c ∈ categories, (entriesOf forest).count c = 1 := by
      intro c hc
      obtain ⟨chain, hchain⟩ := @climb_ends _ _ _ hacyclic categories c fun x y hpath _ => by
        rcases Relation.ReflTransGen.cases_tail hpath with rfl | ⟨b, -, hb⟩
        · exact hc
        · exact hparent b x hb
      rw [hcount c hc, hchain]
      rfl
    refine ⟨forest, hends, ?_, ordered_grow byId_pairwise hforest, ?_⟩
    · rw [List.perm_iff_count]
      intro c
      by_cases hc : c ∈ categories
      · rw [hone c hc, List.count_eq_one_of_mem hnodes hc]
      · rw [List.count_eq_zero_of_not_mem hc]
        apply List.count_eq_zero_of_not_mem
        intro hmem
        refine hc (mem_entries_grow byId_perm (fun a x hx => ?_) (fun x hx => ?_) hforest hmem)
        · rw [linkAll_children hids] at hx
          exact (List.mem_filter.mp hx).1
        · exact (List.mem_filter.mp (hroots.mem_iff.mp hx)).1
    · intro hall c p hunder
      have hne : p ≠ c := by
        rintro rfl
        exact hall p (.single hunder)
      have hchild : c ∈ (linkAll (nodesOf categories)).childrenOf p := by
        rw [(hsiblings p hunder.2.1).mem_iff, List.mem_filter, decide_eq_true_eq]
        exact ⟨hunder.1, (above_iff hids hunder.1).mpr ⟨hunder, hne⟩⟩
      have hgrown : p ∈ entriesOf forest := by
        apply List.count_pos_iff.mp
        rw [hone p hunder.2.1]
        exact Nat.one_pos
      exact edges_grow byId_perm hforest hgrown hchild

def shelf : List CategoryView := [⟨11, "Cheese", some 1⟩, ⟨1, "Dairy", none⟩, ⟨5, "Orphan", some 99⟩,
    ⟨7, "Own", some 7⟩]

/-- A parent that is missing and a parent that is the category itself make roots. -/
theorem tree_shown_shelf : TreeShown shelf := by
  refine (tree_shown (by decide)).mpr fun c hcycle => ?_
  have hlower : ∀ {a b}, Relation.TransGen (fun c p => Under shelf c p ∧ p ≠ c) a b →
    b.categoryId < a.categoryId := by
    intro a b h
    have hstep : ∀ a ∈ shelf, ∀ b ∈ shelf, a.parentCategoryId = some b.categoryId → b ≠ a →
        b.categoryId < a.categoryId := by
      decide
    induction h with
    | single hab => exact hstep _ hab.1.1 _ hab.1.2.1 hab.1.2.2 hab.2
    | tail _ hbc ih => exact lt_trans (hstep _ hbc.1.1 _ hbc.1.2.1 hbc.1.2.2 hbc.2) ih
  exact lt_irrefl _ (hlower hcycle)

/-- Two categories read while they changed places: each names the other, and the tree has neither. -/
def swapped : List CategoryView := [⟨1, "Dairy", some 2⟩, ⟨2, "Cheese", some 1⟩]

theorem swapped_lost : (swapped.map CategoryView.categoryId).Nodup ∧ ¬ TreeShown swapped := by
  refine ⟨by decide, ?_⟩
  rintro ⟨forest, hends, hshown⟩
  have hnone : treeOf 3 swapped = some [] := by
    have hroots : (linkAll (nodesOf swapped)).roots = [] := by decide
    rw [treeOf, hroots, sort, grow, byId, List.mergeSort_nil]
    rfl
  obtain rfl : [] = forest := Option.some.inj (hnone.symm.trans (hends 3 (by decide)))
  have hlength := hshown.once.length_eq
  cases hlength

end RetailSegmentation.DesktopCategories
