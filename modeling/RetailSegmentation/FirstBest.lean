import Mathlib.Order.BooleanAlgebra.Basic
import Mathlib.Tactic.Common

/-! The best of what is offered in turn, under keys: an offer replaces another one only where it ranks higher. -/

namespace FirstBest

variable {κ β : Type*} [LinearOrder β]

def improve (key : κ) (best : Option (κ × β)) (rank : β) : Option (κ × β) :=
  if ∀ offer ∈ best, offer.2 < rank then some (key, rank) else best

def offerAll (key : κ) (best : Option (κ × β)) (ranks : List β) : Option (κ × β) := ranks.foldl (improve key) best

def Outranks (others ranks : List β) : Prop := ∃ rank ∈ ranks, ∀ other ∈ others, other < rank

theorem Outranks.congr {others others' ranks ranks' : List β} (hothers : ∀ rank, rank ∈ others ↔ rank ∈ others')
    (hranks : ∀ rank, rank ∈ ranks ↔ rank ∈ ranks') : Outranks others ranks ↔ Outranks others' ranks' := by
  simp only [Outranks, hothers, hranks]

/-- Either a highest rank of the list is now the best one, or the list has none above the best one before. -/
theorem offerAll_cases (key : κ) : ∀ (ranks : List β) (best : Option (κ × β)),
    (∃ rank ∈ ranks, offerAll key best ranks = some (key, rank) ∧ (∀ offer ∈ best, offer.2 < rank) ∧
      ∀ other ∈ ranks, other ≤ rank) ∨
    offerAll key best ranks = best ∧ ∀ rank ∈ ranks, ∃ offer ∈ best, rank ≤ offer.2
  | [], best => .inr ⟨rfl, fun rank hrank => absurd hrank List.not_mem_nil⟩
  | first :: rest, best => by
    have hrun : offerAll key best (first :: rest) = offerAll key (improve key best first) rest := rfl
    rw [hrun]
    by_cases hfirst : ∀ offer ∈ best, offer.2 < first
    · rw [improve, if_pos hfirst]
      left
      obtain ⟨rank, hrank, heq, habove, hmax⟩ | ⟨heq, hmax⟩ := offerAll_cases key rest (some (key, first))
      · have hlt : first < rank := habove _ rfl
        refine ⟨rank, List.mem_cons_of_mem _ hrank, heq, fun offer hoffer => (hfirst offer hoffer).trans hlt, ?_⟩
        intro other hother
        rcases List.mem_cons.mp hother with rfl | hother
        · exact hlt.le
        · exact hmax other hother
      · refine ⟨first, List.mem_cons_self, heq, hfirst, ?_⟩
        intro other hother
        rcases List.mem_cons.mp hother with rfl | hother
        · exact le_rfl
        · obtain ⟨offer, hoffer, hle⟩ := hmax other hother
          rw [Option.mem_some_iff] at hoffer
          rwa [← hoffer] at hle
    · rw [improve, if_neg hfirst]
      obtain ⟨offer, hoffer, hle⟩ : ∃ offer ∈ best, first ≤ offer.2 := by
        simpa only [not_forall, not_lt, exists_prop] using hfirst
      obtain ⟨rank, hrank, heq, habove, hmax⟩ | ⟨heq, hmax⟩ := offerAll_cases key rest best
      · refine .inl ⟨rank, List.mem_cons_of_mem _ hrank, heq, habove, ?_⟩
        intro other hother
        rcases List.mem_cons.mp hother with rfl | hother
        · exact hle.trans (habove offer hoffer).le
        · exact hmax other hother
      · refine .inr ⟨heq, ?_⟩
        intro other hother
        rcases List.mem_cons.mp hother with rfl | hother
        · exact ⟨offer, hoffer, hle⟩
        · exact hmax other hother

/-- What the ranks leave is among them. -/
theorem mem_offerAll {key : κ} {ranks : List β} {offer : κ × β} (h : offerAll key none ranks = some offer) :
    offer.2 ∈ ranks ∧ ∀ other ∈ ranks, other ≤ offer.2 := by
  obtain ⟨top, htop, heq, -, hmax⟩ | ⟨heq, -⟩ := offerAll_cases key ranks none
  · rw [heq] at h
    cases h
    exact ⟨htop, hmax⟩
  · rw [heq] at h
    cases h

theorem offerAll_eq_none {key : κ} {ranks : List β} (h : offerAll key none ranks = none) : ranks = [] := by
  obtain ⟨top, -, heq, -⟩ | ⟨-, hmax⟩ := offerAll_cases key ranks none
  · rw [heq] at h
    cases h
  · refine List.eq_nil_iff_forall_not_mem.mpr fun rank hrank => ?_
    obtain ⟨offer, hoffer, -⟩ := hmax rank hrank
    cases hoffer

/-- Of two lists in turn, the second has the best exactly where it outranks the first. -/
theorem offerAll_offerAll_key {key key' : κ} (hkey : key ≠ key') (others ranks : List β) :
    (∃ rank, offerAll key' (offerAll key none others) ranks = some (key', rank)) ↔ Outranks others ranks := by
  obtain ⟨rank, hrank, heq, habove, -⟩ | ⟨heq, hmax⟩ := offerAll_cases key' ranks (offerAll key none others)
  · refine iff_of_true ⟨rank, heq⟩ ⟨rank, hrank, ?_⟩
    intro other hother
    cases htop : offerAll key none others with
    | none => rw [offerAll_eq_none htop] at hother; cases hother
    | some top =>
      have hle := (mem_offerAll htop).2 other hother
      exact hle.trans_lt (habove top htop)
  · refine iff_of_false ?_ ?_
    · rintro ⟨rank, hrank⟩
      rw [heq] at hrank
      obtain ⟨top, -, htop, -⟩ | ⟨hnone, -⟩ := offerAll_cases key others none
      · rw [htop] at hrank
        cases hrank
        exact hkey rfl
      · rw [hnone] at hrank
        cases hrank
    · rintro ⟨rank, hrank, habove⟩
      obtain ⟨offer, hoffer, hle⟩ := hmax rank hrank
      have htop := (mem_offerAll hoffer).1
      exact absurd hle (habove _ htop).not_ge

/-- Of two lists each on their own, the second has the higher best exactly where it outranks the first. -/
theorem offerAll_lt_iff (key key' : κ) (others ranks : List β) :
    (∃ best ∈ offerAll key' none ranks, ∀ offer ∈ offerAll key none others, offer.2 < best.2) ↔
      Outranks others ranks := by
  constructor
  · rintro ⟨best, hbest, habove⟩
    refine ⟨best.2, (mem_offerAll hbest).1, ?_⟩
    intro other hother
    cases htop : offerAll key none others with
    | none => rw [offerAll_eq_none htop] at hother; cases hother
    | some top =>
      have hle := (mem_offerAll htop).2 other hother
      exact hle.trans_lt (habove top htop)
  · rintro ⟨rank, hrank, habove⟩
    cases hbest : offerAll key' none ranks with
    | none => rw [offerAll_eq_none hbest] at hrank; cases hrank
    | some best =>
      have hle := (mem_offerAll hbest).2 rank hrank
      refine ⟨best, rfl, fun offer hoffer => (habove offer.2 ?_).trans_le hle⟩
      exact (mem_offerAll hoffer).1

end FirstBest
