import Mathlib.Data.List.Dedup
import Mathlib.Data.List.Induction
import Mathlib.Data.List.Nodup
import Mathlib.Data.List.Perm.Subperm

/-! A memory of the most recent values. What is remembered becomes the newest, and the oldest are forgotten while there
are more than it may hold, so that a value that is not in it has been followed by as many others. -/

namespace Recent

variable {α : Type}

/-- The last of these, as many as the memory holds. -/
def newest (capacity : ℕ) (values : List α) : List α := values.drop (values.length - capacity)

/-- Forget the first of these while there are more than the memory holds. -/
def forget (capacity : ℕ) : List α → List α
  | [] => []
  | a :: rest => if capacity < rest.length + 1 then forget capacity rest else a :: rest

theorem forget_eq (capacity : ℕ) (values : List α) : forget capacity values = newest capacity values := by
  induction values with
  | nil => exact List.drop_nil.symm
  | cons a rest ih =>
      unfold forget newest
      split_ifs with hover
      · have hlength : (a :: rest).length - capacity = rest.length - capacity + 1 := by
          rw [List.length_cons]
          omega
        rw [hlength, List.drop_succ_cons, ih]
        rfl
      · have hlength : (a :: rest).length - capacity = 0 := by
          rw [List.length_cons]
          omega
        rw [hlength, List.drop_zero]

theorem newest_append {capacity : ℕ} {front values : List α} (h : front = [] ∨ capacity ≤ values.length) :
    newest capacity (front ++ values) = newest capacity values := by
  obtain rfl | hcapacity := h
  · rfl
  · unfold newest
    have hlength : (front ++ values).length - capacity = front.length + (values.length - capacity) := by
      rw [List.length_append]
      omega
    rw [hlength, List.drop_append]
    simp

theorem suffix_newest {capacity : ℕ} {front values : List α} (hcapacity : values.length ≤ capacity) :
    values <:+ newest capacity (front ++ values) := by
  unfold newest
  have hfront : (front ++ values).length - capacity ≤ front.length := by
    rw [List.length_append]
    omega
  rw [List.drop_append_of_le_length hfront]
  exact List.suffix_append _ _

/-- What comes before the newest, where there is anything, leaves a full memory. -/
theorem exists_newest (capacity : ℕ) (values : List α) :
    ∃ front, values = front ++ newest capacity values ∧ (front = [] ∨ (newest capacity values).length = capacity) := by
  refine ⟨values.take (values.length - capacity), (List.take_append_drop _ _).symm, ?_⟩
  by_cases hover : values.length ≤ capacity
  · left
    rw [Nat.sub_eq_zero_of_le hover, List.take_zero]
  · right
    unfold newest
    rw [List.length_drop]
    omega

variable [DecidableEq α]

def remember (capacity : ℕ) (memory : List α) (a : α) : List α := newest capacity (memory.erase a ++ [a])

/-- What is remembered of these. -/
def recent (capacity : ℕ) (past : List α) : List α := newest capacity past.dedup

theorem dedup_append_singleton (past : List α) (a : α) : (past ++ [a]).dedup = past.dedup.erase a ++ [a] := by
  induction past with
  | nil => rfl
  | cons b past ih =>
      rw [List.cons_append]
      by_cases hb : b ∈ past
      · rw [List.dedup_cons_of_mem (List.mem_append_left _ hb), List.dedup_cons_of_mem hb, ih]
      · rw [List.dedup_cons_of_notMem hb]
        by_cases hba : b = a
        · subst hba
          have hmem : b ∈ past ++ [b] := List.mem_append_right _ (List.mem_singleton_self b)
          rw [List.dedup_cons_of_mem hmem, ih, List.erase_cons_head,
            List.erase_of_not_mem fun h => hb (List.mem_dedup.mp h)]
        · have hnot : b ∉ past ++ [a] := by
            rw [List.mem_append, List.mem_singleton]
            exact not_or.mpr ⟨hb, hba⟩
          rw [List.dedup_cons_of_notMem hnot, ih, List.erase_cons_tail (by simpa using hba)]
          rfl

/-- Remembering a value is the memory of the values with it. -/
theorem remember_recent (capacity : ℕ) (past : List α) (a : α) :
    remember capacity (recent capacity past) a = recent capacity (past ++ [a]) := by
  obtain ⟨front, hsplit, hfull⟩ := exists_newest capacity past.dedup
  have hnodup : (front ++ newest capacity past.dedup).Nodup := hsplit ▸ past.nodup_dedup
  unfold recent remember
  rw [dedup_append_singleton]
  conv_rhs => rw [hsplit]
  by_cases ha : a ∈ front
  · have hnot : a ∉ newest capacity past.dedup := fun h => (List.nodup_append.mp hnodup).2.2 a ha a h rfl
    rw [List.erase_append_left _ ha, List.erase_of_not_mem hnot, List.append_assoc]
    have hcapacity := hfull.resolve_left (List.ne_nil_of_mem ha)
    refine (newest_append (.inr ?_)).symm
    rw [List.length_append, hcapacity]
    exact Nat.le_add_right _ _
  · rw [List.erase_append_right _ ha, List.append_assoc]
    refine (newest_append (hfull.imp_right fun hcapacity => ?_)).symm
    have herase := List.le_length_erase (l := newest capacity past.dedup) (a := a)
    rw [List.length_append, List.length_singleton]
    omega

theorem length_dedup_cons_le (a : α) (mid : List α) :
    (a :: mid).dedup.length ≤ (mid.filter fun b => b ≠ a).dedup.length + 1 := by
  have hmem : a ∈ (a :: mid).dedup := List.mem_dedup.mpr List.mem_cons_self
  have hsubset : (a :: mid).dedup.erase a ⊆ (mid.filter fun b => b ≠ a).dedup := by
    intro b hb
    obtain ⟨hne, hb⟩ := (List.nodup_dedup _).mem_erase_iff.mp hb
    have hmid : b ∈ mid := (List.mem_cons.mp (List.mem_dedup.mp hb)).resolve_left hne
    exact List.mem_dedup.mpr (List.mem_filter.mpr ⟨hmid, decide_eq_true hne⟩)
  have hle := (List.subperm_of_subset ((a :: mid).nodup_dedup.erase a) hsubset).length_le
  rw [List.length_erase_of_mem hmem] at hle
  omega

/-- **A value that was forgotten** was followed by as many others as the memory holds. -/
theorem followed_of_forgotten {capacity : ℕ} {before mid : List α} {a : α}
    (hforgotten : a ∉ recent capacity (before ++ a :: mid)) :
    capacity ≤ (mid.filter fun b => b ≠ a).dedup.length := by
  by_contra hless
  have hlength : (a :: mid).dedup.length ≤ capacity := Nat.le_trans (length_dedup_cons_le a mid) (Nat.lt_of_not_le hless)
  obtain ⟨front, hfront⟩ := List.suffix_union_right before (a :: mid).dedup
  have hmem : a ∈ (a :: mid).dedup := List.mem_dedup.mpr List.mem_cons_self
  refine hforgotten ?_
  unfold recent
  rw [List.dedup_append, ← hfront]
  exact (suffix_newest hlength).subset hmem

/-- Between two occurrences of a value are as many others as the memory holds. -/
def Spaced (capacity : ℕ) (past : List α) : Prop :=
  ∀ before a mid after, past = before ++ a :: (mid ++ a :: after) →
    capacity ≤ (mid.filter fun b => b ≠ a).dedup.length

theorem Spaced.nil (capacity : ℕ) : Spaced capacity ([] : List α) := by
  intro before a mid after h
  exact absurd h.symm (by simp)

theorem Spaced.append {capacity : ℕ} {past : List α} {a : α} (h : Spaced capacity past)
    (hnew : a ∉ recent capacity past) : Spaced capacity (past ++ [a]) := by
  intro before b mid after hsplit
  cases after using List.reverseRecOn with
  | nil =>
      have hsplit' : past ++ [a] = (before ++ b :: mid) ++ [b] := by simpa using hsplit
      obtain ⟨rfl, hb⟩ := List.append_inj' hsplit' rfl
      obtain rfl := (List.cons.inj hb).1
      exact followed_of_forgotten hnew
  | append_singleton after last =>
      have hsplit' : past ++ [a] = (before ++ b :: (mid ++ b :: after)) ++ [last] := by simpa using hsplit
      exact h before b mid after (List.append_inj' hsplit' rfl).1

end Recent
