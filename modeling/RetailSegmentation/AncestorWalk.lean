import Mathlib.Data.List.Nodup
import Mathlib.Data.List.Perm.Subperm
import Mathlib.Logic.Relation
import Mathlib.Order.Defs.PartialOrder

/-! Walks up a hierarchy, in which everything has at most one parent: on finitely many entries without a
cycle every walk ends, and a walk that stops at what it has already seen is the same walk. -/

namespace Forest

variable {κ : Type}

/-- `b` is directly above `a`. -/
def Above (parent : κ → Option κ) (a b : κ) : Prop := parent a = some b

def Acyclic (parent : κ → Option κ) : Prop := ∀ a, ¬ Relation.TransGen (Above parent) a a

/-- Everything from `a` up, nearest first; `none` while `fuel` steps have not reached the top. -/
def climb (parent : κ → Option κ) : ℕ → κ → Option (List κ)
  | 0, _ => none
  | fuel + 1, a =>
    match parent a with
    | none => some [a]
    | some b => (climb parent fuel b).map (a :: ·)

/-- The same, stopping below what has been seen. -/
def climbUnseen [DecidableEq κ] (parent : κ → Option κ) : ℕ → List κ → κ → List κ
  | 0, _, a => [a]
  | fuel + 1, seen, a =>
    match parent a with
    | none => [a]
    | some b => if b ∈ seen then [a] else a :: climbUnseen parent fuel (b :: seen) b

variable {parent : κ → Option κ} {a : κ} {fuel : ℕ} {chain : List κ}

/-- Where every parent lies below its child in some order, nothing is above itself. -/
theorem acyclic_of_lt {β : Type} [Preorder β] (height : κ → β)
    (h : ∀ a b, parent a = some b → height b < height a) : Acyclic parent := by
  intro a hcycle
  have hlt : ∀ b, Relation.TransGen (Above parent) a b → height b < height a := by
    intro b hpath
    induction hpath with
    | single hab => exact h _ _ hab
    | tail _ hbc ih => exact lt_trans (h _ _ hbc) ih
  exact lt_irrefl _ (hlt a hcycle)

theorem climb_top (h : parent a = none) : climb parent (fuel + 1) a = some [a] := by
  unfold climb
  rw [h]

theorem climb_above {b : κ} (h : parent a = some b) :
    climb parent (fuel + 1) a = (climb parent fuel b).map (a :: ·) := by
  rw [climb]
  rw [h]

/-- A walk that has not ended has passed as many entries as it has taken steps, each above the one before. -/
theorem path_of_climbing (h : climb parent fuel a = none) : ∃ path : List κ, path.length = fuel ∧
    path.Pairwise (Relation.TransGen (Above parent)) ∧
    ∀ x ∈ path, (∃ y, parent x = some y) ∧ Relation.ReflTransGen (Above parent) a x := by
  induction fuel generalizing a with
  | zero => exact ⟨[], rfl, List.Pairwise.nil, fun x hx => absurd hx List.not_mem_nil⟩
  | succ fuel ih =>
      cases hparent : parent a with
      | none =>
          rw [climb_top hparent] at h
          cases h
      | some b =>
          rw [climb_above hparent, Option.map_eq_none_iff] at h
          obtain ⟨path, hlength, hpairwise, hpath⟩ := ih h
          have habove : Above parent a b := hparent
          refine ⟨a :: path, by rw [List.length_cons, hlength], List.pairwise_cons.mpr ⟨?_, hpairwise⟩, ?_⟩
          · exact fun x hx => Relation.TransGen.head' habove (hpath x hx).2
          · intro x hx
            rcases List.mem_cons.mp hx with rfl | hx
            · exact ⟨⟨b, hparent⟩, .refl⟩
            · exact ⟨(hpath x hx).1, .head habove (hpath x hx).2⟩

/-- Without a cycle a walk ends before it has passed every entry twice. -/
theorem climb_ends [DecidableEq κ] (hacyclic : Acyclic parent) {entries : List κ} {a : κ}
    (hentries : ∀ x y, Relation.ReflTransGen (Above parent) a x → parent x = some y → x ∈ entries) :
    ∃ chain, climb parent (entries.length + 1) a = some chain := by
  cases hclimb : climb parent (entries.length + 1) a with
  | some chain => exact ⟨chain, rfl⟩
  | none =>
      obtain ⟨path, hlength, hpairwise, hpath⟩ := path_of_climbing hclimb
      have hnodup : path.Nodup := hpairwise.imp fun {x y} hxy heq => by
        subst heq
        exact hacyclic x hxy
      have hsubset : path ⊆ entries := by
        intro x hx
        obtain ⟨y, hy⟩ := (hpath x hx).1
        exact hentries x y (hpath x hx).2 hy
      have hle := (hnodup.subperm hsubset).length_le
      omega

/-- A walk passes what it starts from and everything above that. -/
theorem mem_climb (hclimb : climb parent fuel a = some chain) {x : κ} :
    x ∈ chain ↔ Relation.ReflTransGen (Above parent) a x := by
  induction fuel generalizing a chain with
  | zero => cases hclimb
  | succ fuel ih =>
      cases hparent : parent a with
      | none =>
          rw [climb_top hparent] at hclimb
          obtain rfl := Option.some.inj hclimb
          rw [List.mem_singleton]
          refine ⟨fun heq => heq ▸ .refl, fun hpath => ?_⟩
          obtain heq | ⟨b, hb, -⟩ := Relation.ReflTransGen.cases_head hpath
          · exact heq.symm
          · unfold Above at hb
            rw [hparent] at hb
            cases hb
      | some b =>
          rw [climb_above hparent] at hclimb
          obtain ⟨rest, hrest, rfl⟩ := Option.map_eq_some_iff.mp hclimb
          rw [List.mem_cons, ih hrest]
          constructor
          · rintro (rfl | hpath)
            · exact .refl
            · exact .head hparent hpath
          · intro hpath
            obtain heq | ⟨b', hb', hpath⟩ := Relation.ReflTransGen.cases_head hpath
            · exact .inl heq.symm
            · obtain rfl : b = b' := Option.some.inj (hparent.symm.trans hb')
              exact .inr hpath

/-- A walk passes what is nearer first. -/
theorem climb_pairwise (hclimb : climb parent fuel a = some chain) :
    chain.Pairwise (Relation.ReflTransGen (Above parent)) := by
  induction fuel generalizing a chain with
  | zero => cases hclimb
  | succ fuel ih =>
      cases hparent : parent a with
      | none =>
          rw [climb_top hparent] at hclimb
          obtain rfl := Option.some.inj hclimb
          exact List.pairwise_singleton _ _
      | some b =>
          rw [climb_above hparent] at hclimb
          obtain ⟨rest, hrest, rfl⟩ := Option.map_eq_some_iff.mp hclimb
          refine List.pairwise_cons.mpr ⟨fun x hx => ?_, ih hrest⟩
          exact .head hparent ((mem_climb hrest).mp hx)

/-- What a walk finds first of some entries: the nearest of those at or above its start. -/
def IsNearest (parent : κ → Option κ) (a : κ) (p : κ → Prop) : Option κ → Prop
  | none => ∀ x, p x → ¬ Relation.ReflTransGen (Above parent) a x
  | some x => p x ∧ Relation.ReflTransGen (Above parent) a x ∧
    ∀ y, p y → Relation.ReflTransGen (Above parent) a y → Relation.ReflTransGen (Above parent) x y

theorem find_nearest (hclimb : climb parent fuel a = some chain) (p : κ → Prop) [DecidablePred p] :
    IsNearest parent a p (chain.find? fun x => p x) := by
  cases hfind : chain.find? fun x => p x with
  | none => exact fun x hx hpath => List.find?_eq_none.mp hfind x ((mem_climb hclimb).mpr hpath) (decide_eq_true hx)
  | some x =>
      obtain ⟨hx, before, after, rfl, hbefore⟩ := List.find?_eq_some_iff_append.mp hfind
      refine ⟨of_decide_eq_true hx, (mem_climb hclimb).mp (by simp), fun y hy hpath => ?_⟩
      obtain hmem | hmem := List.mem_append.mp ((mem_climb hclimb).mpr hpath)
      · have hnot := hbefore y hmem
        simp [hy] at hnot
      · obtain rfl | hmem := List.mem_cons.mp hmem
        · exact .refl
        · exact (List.pairwise_cons.mp (List.pairwise_append.mp (climb_pairwise hclimb)).2.1).1 y hmem

/-- Without a cycle nothing above has been seen below. -/
theorem climbUnseen_eq [DecidableEq κ] (hacyclic : Acyclic parent) {seen : List κ}
    (hseen : ∀ x ∈ seen, Relation.ReflTransGen (Above parent) x a)
    (hclimb : climb parent (fuel + 1) a = some chain) : climbUnseen parent fuel seen a = chain := by
  induction fuel generalizing a chain seen with
  | zero =>
      cases hparent : parent a with
      | none =>
          rw [climb_top hparent] at hclimb
          exact Option.some.inj hclimb
      | some b =>
          rw [climb_above hparent] at hclimb
          cases hclimb
  | succ fuel ih =>
      unfold climbUnseen
      cases hparent : parent a with
      | none =>
          rw [climb_top hparent] at hclimb
          exact Option.some.inj hclimb
      | some b =>
          have habove : Above parent a b := hparent
          have hunseen : b ∉ seen := fun hb => hacyclic a (Relation.TransGen.head' habove (hseen b hb))
          rw [climb_above hparent] at hclimb
          obtain ⟨rest, hrest, rfl⟩ := Option.map_eq_some_iff.mp hclimb
          simp only [hunseen, if_false]
          congr 1
          refine ih (fun x hx => ?_) hrest
          rcases List.mem_cons.mp hx with rfl | hx
          · exact .refl
          · exact (hseen x hx).tail habove

/-! ### Changes -/

/-- Fewer parents make no cycle. -/
theorem Acyclic.mono {parent' : κ → Option κ} (hacyclic : Acyclic parent)
    (hsub : ∀ x y, parent' x = some y → parent x = some y) : Acyclic parent' := by
  intro x hcycle
  exact hacyclic x (Relation.TransGen.mono hsub x x hcycle)

section Link

variable [DecidableEq κ] {b : κ}

/-- A path that uses a new edge leads to its lower end first and goes on from its upper one. -/
theorem path_of_link {x y : κ} (hpath : Relation.TransGen (Above (Function.update parent a (some b))) x y) :
    Relation.TransGen (Above parent) x y ∨
      Relation.ReflTransGen (Above (Function.update parent a (some b))) x a ∧
        Relation.ReflTransGen (Above parent) b y := by
  induction hpath with
  | @single z hz =>
      unfold Above at hz
      by_cases hx : x = a
      · subst hx
        rw [Function.update_self] at hz
        obtain rfl := Option.some.inj hz
        exact .inr ⟨.refl, .refl⟩
      · rw [Function.update_of_ne hx] at hz
        exact .inl (.single hz)
  | @tail z w hpath hzw ih =>
      unfold Above at hzw
      by_cases hz : z = a
      · subst hz
        rw [Function.update_self] at hzw
        obtain rfl := Option.some.inj hzw
        exact .inr ⟨hpath.to_reflTransGen, .refl⟩
      · rw [Function.update_of_ne hz] at hzw
        exact ih.imp (fun h => h.tail hzw) fun h => ⟨h.1, h.2.tail hzw⟩

/-- A path that does not reach the lower end of a new edge is still there. -/
theorem path_linked {x y : κ} (hpath : Relation.ReflTransGen (Above parent) x y) :
    Relation.ReflTransGen (Above parent) x a ∨
      Relation.ReflTransGen (Above (Function.update parent a (some b))) x y := by
  induction hpath with
  | refl => exact .inr .refl
  | @tail z w hpath hzw ih =>
      by_cases hz : z = a
      · exact .inl (hz ▸ hpath)
      · refine ih.imp_right fun h => h.tail ?_
        unfold Above
        rw [Function.update_of_ne hz]
        exact hzw

/-- **To put something under what is not below it makes no cycle.** -/
theorem Acyclic.link (hacyclic : Acyclic parent) (hbelow : ¬ Relation.ReflTransGen (Above parent) b a) :
    Acyclic (Function.update parent a (some b)) := by
  have hnone : ¬ Relation.ReflTransGen (Above (Function.update parent a (some b))) b a := by
    intro hpath
    obtain heq | hpath := Relation.reflTransGen_iff_eq_or_transGen.mp hpath
    · exact hbelow (heq ▸ .refl)
    · obtain hold | hnew := path_of_link hpath
      · exact hbelow hold.to_reflTransGen
      · exact hbelow hnew.2
  intro x hcycle
  obtain hold | ⟨hdown, hup⟩ := path_of_link hcycle
  · exact hacyclic x hold
  · obtain hreached | hkept := path_linked (b := b) hup
    · exact hbelow hreached
    · exact hnone (hkept.trans hdown)

end Link

end Forest
