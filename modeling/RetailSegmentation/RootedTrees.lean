import Mathlib.Algebra.BigOperators.Group.List.Basic
import Mathlib.Algebra.Ring.Nat
import Mathlib.Data.List.Forall2
import RetailSegmentation.AncestorWalk

/-! Trees grown from the roots of a hierarchy in which everything has at most one parent: a node is in them as
often as the walk from it up to the top passes a root, and they are finite, whatever the hierarchy. -/

namespace Forest

/-- A node and what is below it. -/
inductive Tree (α : Type) where
  | node (root : α) (children : List (Tree α))

variable {α : Type}

def Tree.root : Tree α → α
  | .node a _ => a

mutual

/-- The nodes of a tree, each before what is below it. -/
def Tree.entries : Tree α → List α
  | .node a children => a :: entriesOf children

def entriesOf : List (Tree α) → List α
  | [] => []
  | t :: rest => t.entries ++ entriesOf rest

end

mutual

def Tree.edges : Tree α → List (α × α)
  | .node a children => children.map (fun t => (a, t.root)) ++ edgesOf children

def edgesOf : List (Tree α) → List (α × α)
  | [] => []
  | t :: rest => t.edges ++ edgesOf rest

end

mutual

/-- Siblings are in order, at every level. -/
def Tree.Ordered (r : α → α → Prop) : Tree α → Prop
  | .node _ children => (children.map Tree.root).Pairwise r ∧ EachOrdered r children

def EachOrdered (r : α → α → Prop) : List (Tree α) → Prop
  | [] => True
  | t :: rest => t.Ordered r ∧ EachOrdered r rest

end

/-- The trees below some nodes, level by level in an order; `none` where they are deeper than `fuel`. -/
def grow (order : List α → List α) (children : α → List α) : ℕ → List α → Option (List (Tree α))
  | 0, _ => none
  | fuel + 1, level => (order level).mapM fun a => (grow order children fuel (children a)).map (.node a)

/-- A node and what is above it, of at most `fuel` steps. -/
def ascend (parent : α → Option α) : ℕ → α → List α
  | 0, _ => []
  | fuel + 1, a =>
    match parent a with
    | none => [a]
    | some b => a :: ascend parent fuel b

theorem mapM_eq_some {β : Type} {f : α → Option β} {level : List α} {ts : List β} (h : level.mapM f = some ts) :
    List.Forall₂ (fun a t => f a = some t) level ts := by
  induction level generalizing ts with
  | nil =>
      obtain rfl : [] = ts := Option.some.inj h
      exact .nil
  | cons a rest ih =>
      rw [List.mapM_cons] at h
      obtain ⟨t, ht, h⟩ := Option.bind_eq_some_iff.mp h
      obtain ⟨us, hus, h⟩ := Option.bind_eq_some_iff.mp h
      obtain rfl : t :: us = ts := Option.some.inj h
      exact .cons ht (ih hus)

theorem mapM_of_forall₂ {β : Type} {f : α → Option β} {level : List α} {ts : List β}
    (h : List.Forall₂ (fun a t => f a = some t) level ts) : level.mapM f = some ts := by
  induction h with
  | nil => rfl
  | cons ha _ ih => simp [List.mapM_cons, ha, ih]

theorem mapM_eq_none {β : Type} {f : α → Option β} {level : List α} (h : level.mapM f = none) :
    ∃ a ∈ level, f a = none := by
  induction level with
  | nil => cases h
  | cons a rest ih =>
      cases ha : f a with
      | none => exact ⟨a, List.mem_cons_self, ha⟩
      | some t =>
          have hrest : rest.mapM f = none := by
            cases hrest : rest.mapM f with
            | none => rfl
            | some us => simp [List.mapM_cons, ha, hrest] at h
          obtain ⟨b, hb, hnone⟩ := ih hrest
          exact ⟨b, List.mem_cons_of_mem _ hb, hnone⟩

section Grow

variable {order : List α → List α} {children : α → List α} {parent : α → Option α} {nodes : List α}
  {fuel : ℕ} {level : List α} {ts : List (Tree α)}

/-- What is above a node, without it: the parents of what is passed a step earlier. -/
theorem ascend_succ (fuel : ℕ) (a : α) : ascend parent (fuel + 1) a = a :: (ascend parent fuel a).filterMap parent := by
  induction fuel generalizing a with
  | zero => cases h : parent a <;> simp [ascend, h]
  | succ fuel ih =>
      rw [ascend]
      cases h : parent a with
      | none => simp [ascend, h]
      | some b =>
          have hup : ascend parent (fuel + 1) a = a :: ascend parent fuel b := by
            rw [ascend, h]
          rw [hup, List.filterMap_cons_some h, ← ih]

theorem mem_of_ascend (hparent : ∀ a b, parent a = some b → b ∈ nodes) {a x : α} (ha : a ∈ nodes)
    (h : x ∈ ascend parent fuel a) : x ∈ nodes := by
  induction fuel generalizing a with
  | zero => cases h
  | succ fuel ih =>
      rw [ascend_succ] at h
      rcases List.mem_cons.mp h with rfl | h
      · exact ha
      · obtain ⟨y, -, hy⟩ := List.mem_filterMap.mp h
        exact hparent y x hy

/-- A walk passes a node without a parent once, where it ends, and only there. -/
theorem countP_ascend (c : α) :
    ((ascend parent fuel c).countP fun x => (parent x).isNone) = if (climb parent fuel c).isSome then 1 else 0 := by
  induction fuel generalizing c with
  | zero => rfl
  | succ fuel ih =>
      rw [ascend]
      cases h : parent c with
      | none =>
          rw [climb_top h]
          simp [h]
      | some b =>
          rw [climb_above h, Option.isSome_map, ← ih b]
          simp [h]

theorem mem_entries_grow (horder : ∀ l, (order l).Perm l) (hchildren : ∀ a, ∀ x ∈ children a, x ∈ nodes)
    (hlevel : ∀ x ∈ level, x ∈ nodes) (hgrow : grow order children fuel level = some ts) {c : α}
    (hc : c ∈ entriesOf ts) : c ∈ nodes := by
  induction fuel generalizing level ts with
  | zero => cases hgrow
  | succ fuel ih =>
      have heach : ∀ {l : List α} {ts : List (Tree α)},
          List.Forall₂ (fun a t => (grow order children fuel (children a)).map (.node a) = some t) l ts →
          (∀ x ∈ l, x ∈ nodes) → c ∈ entriesOf ts → c ∈ nodes := by
        intro l ts h
        induction h with
        | nil =>
            intro _ hc
            cases hc
        | @cons a t l ts ht _ ihl =>
            intro hl hc
            obtain ⟨us, hus, rfl⟩ := Option.map_eq_some_iff.mp ht
            rw [entriesOf, Tree.entries, List.cons_append, List.mem_cons, List.mem_append] at hc
            rcases hc with rfl | hc | hc
            · exact hl _ List.mem_cons_self
            · exact ih (hchildren a) hus hc
            · exact ihl (fun x hx => hl x (List.mem_cons_of_mem _ hx)) hc
      exact heach (mapM_eq_some hgrow) (fun x hx => hlevel x ((horder level).mem_iff.mp hx)) hc

/-- Visits that end are the same with more room for them. -/
theorem grow_mono {fuel' : ℕ} (hle : fuel ≤ fuel') (hgrow : grow order children fuel level = some ts) :
    grow order children fuel' level = some ts := by
  induction fuel generalizing fuel' level ts with
  | zero => cases hgrow
  | succ fuel ih =>
      cases fuel' with
      | zero => omega
      | succ fuel' =>
          refine mapM_of_forall₂ ((mapM_eq_some hgrow).imp fun a t ht => ?_)
          obtain ⟨us, hus, rfl⟩ := Option.map_eq_some_iff.mp ht
          rw [ih (by omega) hus]
          rfl

/-! ### Walks up -/

theorem climb_unique {a : α} {fuel' : ℕ} {chain chain' : List α} (h : climb parent fuel a = some chain)
    (h' : climb parent fuel' a = some chain') : chain = chain' := by
  induction fuel generalizing a fuel' chain chain' with
  | zero => cases h
  | succ fuel ih =>
      cases fuel' with
      | zero => cases h'
      | succ fuel' =>
          cases hparent : parent a with
          | none =>
              rw [climb_top hparent] at h h'
              exact (Option.some.inj h).symm.trans (Option.some.inj h')
          | some b =>
              rw [climb_above hparent] at h h'
              obtain ⟨rest, hrest, rfl⟩ := Option.map_eq_some_iff.mp h
              obtain ⟨rest', hrest', rfl⟩ := Option.map_eq_some_iff.mp h'
              rw [ih hrest hrest']

/-- A walk that ends does not start on a cycle. -/
theorem not_cycle_of_climb {a : α} {chain : List α} (h : climb parent fuel a = some chain) :
    ¬ Relation.TransGen (Above parent) a a := by
  induction fuel generalizing a chain with
  | zero => cases h
  | succ fuel ih =>
      intro hcycle
      obtain ⟨b, hab, hback⟩ := Relation.TransGen.head'_iff.mp hcycle
      rw [climb_above hab] at h
      obtain ⟨rest, hrest, -⟩ := Option.map_eq_some_iff.mp h
      exact ih hrest (Relation.TransGen.tail' hback hab)

/-- The walk up from `a` ends after `k` nodes. -/
def Climbs (parent : α → Option α) (k : ℕ) (a : α) : Prop := ∃ chain,
    climb parent k a = some chain ∧ chain.length = k

theorem Climbs.below {k : ℕ} {a b : α} (h : Climbs parent k a) (hab : parent b = some a) :
    Climbs parent (k + 1) b := by
  obtain ⟨chain, hchain, hlength⟩ := h
  exact ⟨b :: chain, by rw [climb_above hab, hchain]; rfl, by rw [List.length_cons, hlength]⟩

theorem Climbs.unique {k k' : ℕ} {a : α} (h : Climbs parent k a) (h' : Climbs parent k' a) : k = k' := by
  obtain ⟨chain, hchain, hlength⟩ := h
  obtain ⟨chain', hchain', hlength'⟩ := h'
  rw [← hlength, ← hlength', climb_unique hchain hchain']

/-- A way down from where a walk up ends passes everything once. -/
theorem Climbs.nodup {k : ℕ} {a : α} {path : List α} (ha : Climbs parent k a)
    (hpath : List.IsChain (fun x y => parent y = some x) (a :: path)) :
    (a :: path).Nodup ∧ ∀ x ∈ path, ∃ k' > k, Climbs parent k' x := by
  induction path generalizing k a with
  | nil => exact ⟨List.nodup_singleton a, fun x hx => by cases hx⟩
  | cons b path ih =>
      obtain ⟨hab, hrest⟩ := List.isChain_cons_cons.mp hpath
      have hb := ha.below hab
      obtain ⟨hnodup, hlater⟩ := ih hb hrest
      have hbelow : ∀ x ∈ b :: path, ∃ k' > k, Climbs parent k' x := by
        intro x hx
        rcases List.mem_cons.mp hx with rfl | hx
        · exact ⟨k + 1, Nat.lt_succ_self k, hb⟩
        · obtain ⟨k', hk', hclimbs⟩ := hlater x hx
          exact ⟨k', by omega, hclimbs⟩
      refine ⟨List.nodup_cons.mpr ⟨fun hmem => ?_, hnodup⟩, hbelow⟩
      obtain ⟨k', hk', hclimbs⟩ := hbelow a hmem
      have heq := ha.unique hclimbs
      omega

/-! ### What is below what -/

theorem roots_grow (hgrow : grow order children (fuel + 1) level = some ts) : ts.map Tree.root = order level := by
  have hforall := mapM_eq_some hgrow
  clear hgrow
  generalize order level = l at hforall
  induction hforall with
  | nil => rfl
  | @cons a t l ts ht _ ih =>
      obtain ⟨us, -, rfl⟩ := Option.map_eq_some_iff.mp ht
      exact congrArg (a :: ·) ih

theorem ordered_grow {r : α → α → Prop} (horder : ∀ l, (order l).Pairwise r)
    (hgrow : grow order children fuel level = some ts) : (ts.map Tree.root).Pairwise r ∧ EachOrdered r ts := by
  induction fuel generalizing level ts with
  | zero => cases hgrow
  | succ fuel ih =>
      have heach : ∀ {l : List α} {ts : List (Tree α)},
          List.Forall₂ (fun a t => (grow order children fuel (children a)).map (.node a) = some t) l ts →
          ts.map Tree.root = l ∧ EachOrdered r ts := by
        intro l ts h
        induction h with
        | nil => exact ⟨rfl, trivial⟩
        | @cons a t l ts ht _ ihl =>
            obtain ⟨us, hus, rfl⟩ := Option.map_eq_some_iff.mp ht
            exact ⟨congrArg (a :: ·) ihl.1, ih hus, ihl.2⟩
      obtain ⟨hroots, hordered⟩ := heach (mapM_eq_some hgrow)
      exact ⟨hroots ▸ horder level, hordered⟩

/-- A node that is grown has its children below it. -/
theorem edges_grow (horder : ∀ l, (order l).Perm l) (hgrow : grow order children fuel level = some ts) {a b : α}
    (ha : a ∈ entriesOf ts) (hb : b ∈ children a) : (a, b) ∈ edgesOf ts := by
  induction fuel generalizing level ts with
  | zero => cases hgrow
  | succ fuel ih =>
      have heach : ∀ {l : List α} {ts : List (Tree α)},
          List.Forall₂ (fun a t => (grow order children fuel (children a)).map (.node a) = some t) l ts →
          a ∈ entriesOf ts → (a, b) ∈ edgesOf ts := by
        intro l ts h
        induction h with
        | nil =>
            intro ha
            cases ha
        | @cons c t l ts ht _ ihl =>
            intro ha
            obtain ⟨us, hus, rfl⟩ := Option.map_eq_some_iff.mp ht
            rw [entriesOf, Tree.entries, List.cons_append, List.mem_cons, List.mem_append] at ha
            rw [edgesOf, Tree.edges, List.mem_append, List.mem_append]
            rcases ha with rfl | ha | ha
            · refine .inl (.inl ?_)
              cases fuel with
              | zero => cases hus
              | succ fuel =>
                  have hroots := roots_grow hus
                  obtain ⟨u, hu, rfl⟩ := List.mem_map.mp (hroots ▸ (horder _).mem_iff.mpr hb)
                  exact List.mem_map.mpr ⟨u, hu, rfl⟩
            · exact .inl (.inr (ih hus ha))
            · exact .inr (ihl ha)
      exact heach (mapM_eq_some hgrow) ha

/-! ### How often a node is grown -/

variable [DecidableEq α]

/-- Entries of a list that are among some distinct ones, counted one by one. -/
theorem sum_count_filter (p : α → Bool) (hnodes : nodes.Nodup) {l : List α} (hl : ∀ x ∈ l, x ∈ nodes) :
    ((nodes.filter p).map fun m => l.count m).sum = l.countP p := by
  induction l with
  | nil => simp
  | cons x l ih =>
      have hone : ((nodes.filter p).map fun m => if x = m then 1 else 0).sum = if p x then 1 else 0 := by
        have hcount : (nodes.filter p).count x = if p x then 1 else 0 := by
          split_ifs with hp
          · rw [List.count_filter hp]
            exact List.count_eq_one_of_mem hnodes (hl x List.mem_cons_self)
          · apply List.count_eq_zero_of_not_mem
            intro hmem
            exact hp (List.mem_filter.mp hmem).2
        rw [← hcount, List.count_eq_countP, List.countP_eq_length_filter]
        induction nodes.filter p with
        | nil => rfl
        | cons m rest ih =>
            rw [List.map_cons, List.sum_cons, ih]
            by_cases hm : x = m
            · subst hm
              simp [Nat.add_comm]
            · simp [hm, Ne.symm hm]
      calc ((nodes.filter p).map fun m => (x :: l).count m).sum
          = ((nodes.filter p).map fun m => l.count m + if x = m then 1 else 0).sum := by
            congr 1
            apply List.map_congr_left
            intro m _
            rw [List.count_cons]
            simp [beq_iff_eq]
        _ = ((nodes.filter p).map fun m => l.count m).sum + if p x then 1 else 0 := by
            rw [List.sum_map_add, hone]
        _ = (x :: l).countP p := by
            rw [ih fun y hy => hl y (List.mem_cons_of_mem _ hy), List.countP_cons]

/-- The children of a node are the nodes that have it for a parent, in some order. -/
def Siblings (parent : α → Option α) (nodes : List α) (children : α → List α) : Prop :=
  ∀ a ∈ nodes, (children a).Perm (nodes.filter fun x => parent x = some a)

/-- A node is below another as often as the walk from it passes that one. -/
theorem count_grow (horder : ∀ l, (order l).Perm l) (hsiblings : Siblings parent nodes children)
    (hnodes : nodes.Nodup)
    (hparent : ∀ a b, parent a = some b → b ∈ nodes) {c : α} (hc : c ∈ nodes) (hlevel : ∀ a ∈ level, a ∈ nodes)
    (hgrow : grow order children fuel level = some ts) :
    (entriesOf ts).count c = (level.map fun a => (ascend parent fuel c).count a).sum := by
  induction fuel generalizing level ts with
  | zero => cases hgrow
  | succ fuel ih =>
      have htree : ∀ a ∈ nodes, ∀ t : Tree α, (grow order children fuel (children a)).map (.node a) = some t →
          t.entries.count c = (ascend parent (fuel + 1) c).count a := by
        intro a ha t ht
        obtain ⟨us, hus, rfl⟩ := Option.map_eq_some_iff.mp ht
        have hchildren : ∀ x ∈ children a, x ∈ nodes := fun x hx =>
          (List.mem_filter.mp ((hsiblings a ha).mem_iff.mp hx)).1
        have hbelow : ((children a).map fun m => (ascend parent fuel c).count m).sum =
            ((ascend parent fuel c).filterMap parent).count a := by
          rw [((hsiblings a ha).map _).sum_eq, sum_count_filter _ hnodes fun x hx => mem_of_ascend hparent hc hx,
            List.count_filterMap]
          apply List.countP_congr
          intro x _
          rw [decide_eq_true_eq, beq_iff_eq]
        rw [Tree.entries, List.count_cons, ih hchildren hus, hbelow, ascend_succ, List.count_cons, Bool.beq_comm]
      have heach : ∀ {l : List α} {ts : List (Tree α)},
          List.Forall₂ (fun a t => (grow order children fuel (children a)).map (.node a) = some t) l ts →
          (∀ a ∈ l, a ∈ nodes) → (entriesOf ts).count c = (l.map fun a => (ascend parent (fuel + 1) c).count a).sum := by
        intro l ts h
        induction h with
        | nil => exact fun _ => rfl
        | cons ht _ ihl =>
            intro hl
            rw [entriesOf, List.count_append, htree _ (hl _ List.mem_cons_self) _ ht,
              ihl fun a ha => hl a (List.mem_cons_of_mem _ ha), List.map_cons, List.sum_cons]
      rw [heach (mapM_eq_some hgrow) fun a ha => hlevel a ((horder level).mem_iff.mp ha),
        ((horder level).map _).sum_eq]

/-- From the roots, every node is grown once whose walk ends, and no other. -/
theorem count_grow_roots (horder : ∀ l, (order l).Perm l) (hsiblings : Siblings parent nodes children)
    (hnodes : nodes.Nodup) (hparent : ∀ a b, parent a = some b → b ∈ nodes) {c : α} (hc : c ∈ nodes)
    (hroots : level.Perm (nodes.filter fun x => (parent x).isNone)) (hgrow : grow order children fuel level = some ts) :
    (entriesOf ts).count c = if (climb parent fuel c).isSome then 1 else 0 := by
  rw [count_grow horder hsiblings hnodes hparent hc
    (fun a ha => (List.mem_filter.mp (hroots.mem_iff.mp ha)).1) hgrow, (hroots.map _).sum_eq,
    sum_count_filter _ hnodes fun x hx => mem_of_ascend hparent hc hx, countP_ascend]

/-! ### Trees end -/

/-- Where trees are too deep there is a way down as long. -/
theorem grow_eq_none (horder : ∀ l, (order l).Perm l) (hsiblings : Siblings parent nodes children) {a : α}
    (ha : a ∈ nodes) (h : grow order children fuel (children a) = none) :
    ∃ path : List α, path.length = fuel ∧ List.IsChain (fun x y => parent y = some x) (a :: path) ∧
      ∀ x ∈ path, x ∈ nodes := by
  induction fuel generalizing a with
  | zero => exact ⟨[], rfl, .singleton a, fun x hx => by cases hx⟩
  | succ fuel ih =>
      obtain ⟨b, hb, hnone⟩ := mapM_eq_none h
      have hchild := (hsiblings a ha).mem_iff.mp ((horder _).mem_iff.mp hb)
      obtain ⟨path, hlength, hpath, hmem⟩ := ih (List.mem_filter.mp hchild).1 (Option.map_eq_none_iff.mp hnone)
      refine ⟨b :: path, by rw [List.length_cons, hlength], ?_, ?_⟩
      · exact List.isChain_cons_cons.mpr ⟨of_decide_eq_true (List.mem_filter.mp hchild).2, hpath⟩
      · intro x hx
        rcases List.mem_cons.mp hx with rfl | hx
        · exact (List.mem_filter.mp hchild).1
        · exact hmem x hx

/-- The trees of the roots are no deeper than there are nodes, whether all nodes are in them or not. -/
theorem grow_roots (horder : ∀ l, (order l).Perm l) (hsiblings : Siblings parent nodes children)
    (hroots : level.Perm (nodes.filter fun x => (parent x).isNone)) (hfuel : nodes.length < fuel) :
    ∃ ts, grow order children fuel level = some ts := by
  cases hgrow : grow order children fuel level with
  | some ts => exact ⟨ts, rfl⟩
  | none =>
      cases fuel with
      | zero => omega
      | succ fuel =>
          obtain ⟨a, ha, hnone⟩ := mapM_eq_none hgrow
          obtain ⟨hanode, hatop⟩ := List.mem_filter.mp (hroots.mem_iff.mp ((horder _).mem_iff.mp ha))
          obtain ⟨path, hlength, hpath, hmem⟩ :=
            grow_eq_none horder hsiblings hanode (Option.map_eq_none_iff.mp hnone)
          have hclimbs : Climbs parent 1 a := ⟨[a], climb_top (Option.isNone_iff_eq_none.mp hatop), rfl⟩
          have hsubset : a :: path ⊆ nodes := by
            intro x hx
            rcases List.mem_cons.mp hx with rfl | hx
            · exact hanode
            · exact hmem x hx
          have hle := ((hclimbs.nodup hpath).1.subperm hsubset).length_le
          rw [List.length_cons, hlength] at hle
          omega


end Grow

end Forest
