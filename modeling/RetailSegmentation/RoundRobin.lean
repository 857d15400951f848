import Mathlib.Data.Int.CardIntervalMod
import RetailSegmentation.GroupedRows

/-! A list shuffled in place and dealt in turn into hands: nothing is lost or dealt twice, and no two hands
differ in size by more than one. -/

namespace RoundRobin

open Grouping

variable {α : Type}

/-! ### Shuffling -/

/-- From the last place down, swap each element with one drawn from its place or before. -/
def shuffle (draw : (i : ℕ) → Fin (i + 1)) (xs : List α) : List α :=
  ((List.range' 1 (xs.length - 1)).reverse.foldl (fun order i => order.swapIfInBounds i (draw i)) xs.toArray).toList

theorem swapIfInBounds_perm (xs : Array α) (i j : ℕ) : (xs.swapIfInBounds i j).Perm xs := by
  unfold Array.swapIfInBounds
  split_ifs
  · exact Array.swap_perm _ _
  · exact .refl xs
  · exact .refl xs

theorem shuffle_perm (draw : (i : ℕ) → Fin (i + 1)) (xs : List α) : (shuffle draw xs).Perm xs := by
  have hswaps : ∀ (places : List ℕ) (order : Array α),
      (places.foldl (fun order i => order.swapIfInBounds i (draw i)) order).Perm order := by
    intro places
    induction places with
    | nil => exact fun order => .refl order
    | cons i places ih => exact fun order => (ih _).trans (swapIfInBounds_perm order i _)
  exact (hswaps _ xs.toArray).toList

/-! ### Dealing -/

/-- The hand that is dealt every so many cards. -/
def hand (hands g : ℕ) (xs : List α) : List α := (xs.zipIdx.filter fun card => card.2 % hands = g).map Prod.fst

variable {hands g : ℕ} {xs : List α}

theorem hand_snoc (hands g : ℕ) (xs : List α) (x : α) :
    hand hands g (xs ++ [x]) = hand hands g xs ++ if xs.length % hands = g then [x] else [] := by
  unfold hand
  rw [List.zipIdx_append, List.filter_append, List.map_append]
  by_cases hturn : xs.length % hands = g
  · simp [hturn]
  · simp [hturn]

/-- Each hand has its share, and the first hands one more. -/
theorem length_hand (hg : g < hands) (xs : List α) :
    (hand hands g xs).length = xs.length / hands + if g < xs.length % hands then 1 else 0 := by
  have hcount : (hand hands g xs).length = xs.length.count (· ≡ g [MOD hands]) := by
    induction xs using List.reverseRecOn with
    | nil => rfl
    | append_singleton xs x ih =>
        have hturn : xs.length ≡ g [MOD hands] ↔ xs.length % hands = g := by
          unfold Nat.ModEq
          rw [Nat.mod_eq_of_lt hg]
        rw [hand_snoc, List.length_append, ih, List.length_append, List.length_singleton, Nat.count_succ]
        by_cases h : xs.length % hands = g
        · simp [h, hturn]
        · simp [h, hturn]
  rw [hcount, Nat.count_modEq_card _ (Nat.zero_lt_of_lt hg), Nat.mod_eq_of_lt hg]

/-- The hands together are the cards. -/
theorem hands_perm (hhands : 0 < hands) (xs : List α) :
    ((List.range hands).flatMap fun g => hand hands g xs).Perm xs := by
  have hcards : ((List.range hands).flatMap fun g => xs.zipIdx.filter fun card => card.2 % hands = g).Perm xs.zipIdx :=
    flatMap_filter_perm List.nodup_range fun card _ => List.mem_range.mpr (Nat.mod_lt _ hhands)
  have hfst := hcards.map Prod.fst
  rwa [List.map_flatMap, List.zipIdx_map_fst] at hfst

end RoundRobin
