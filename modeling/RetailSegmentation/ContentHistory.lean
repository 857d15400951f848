import Mathlib.Data.List.Induction
import Mathlib.Data.Nat.Notation
import Mathlib.Tactic.Common

/-! The contents a database has had, one for each change that was committed, and copies of them: how many
changes a copy has seen. -/

/-- A first content, and what each change has made of it, oldest first. -/
structure History (D : Type) where
  first : D
  later : List D
  deriving DecidableEq, Repr

namespace History

variable {D : Type} (h : History D)

/-- The number of changes. -/
def count : ℕ := h.later.length

/-- The content after so many changes. -/
def content (n : ℕ) : Option D := (h.first :: h.later)[n]?

def last : D := h.later.getLastD h.first

def commit (d : D) : History D := ⟨h.first, h.later ++ [d]⟩

/-- A copy that has seen the first `m` changes, and maybe more. -/
def Since (m : ℕ) (d : D) : Prop := ∃ n, m ≤ n ∧ h.content n = some d

@[simp] theorem count_commit (d : D) : (h.commit d).count = h.count + 1 := by
  unfold count commit
  rw [List.length_append, List.length_singleton]

theorem content_count : h.content h.count = some h.last := by
  unfold content count last
  cases hlater : h.later using List.reverseRecOn with
  | nil => rfl
  | append_singleton later d =>
      rw [List.getLastD_eq_getLast?, List.getLast?_append, List.getLast?_singleton, List.length_append,
        List.length_singleton, List.getElem?_cons_succ, List.getElem?_append_right (Nat.le_refl _), Nat.sub_self]
      rfl

variable {h h' : History D} {m n : ℕ} {d : D}

theorem le_count (hd : h.content n = some d) : n ≤ h.count := Nat.le_of_lt_succ (List.getElem?_eq_some_iff.mp hd).1

theorem content_commit (hd : h.content n = some d) (d' : D) : (h.commit d').content n = some d := by
  unfold content commit at *
  rw [← List.cons_append]
  exact (List.getElem?_append_left (List.getElem?_eq_some_iff.mp hd).1).trans hd

theorem Since.extend (hd : h.Since m d) (hextend : ∀ n d, h.content n = some d → h'.content n = some d) :
    h'.Since m d := by
  obtain ⟨n, hle, hn⟩ := hd
  exact ⟨n, hle, hextend n d hn⟩

theorem Since.commit (hd : h.Since m d) (d' : D) : (h.commit d').Since m d :=
  hd.extend fun _ _ hn => content_commit hn d'

theorem Since.mono (hd : h.Since n d) (hle : m ≤ n) : h.Since m d := by
  obtain ⟨k, hk, hcontent⟩ := hd
  exact ⟨k, Nat.le_trans hle hk, hcontent⟩

theorem since_iff : h.Since m d ↔ ∃ n ∈ List.range (h.count + 1), m ≤ n ∧ h.content n = some d := by
  constructor
  · rintro ⟨n, hle, hn⟩
    exact ⟨n, List.mem_range.mpr (List.getElem?_eq_some_iff.mp hn).1, hle, hn⟩
  · rintro ⟨n, -, hle, hn⟩
    exact ⟨n, hle, hn⟩

instance [DecidableEq D] : Decidable (h.Since m d) := decidable_of_iff _ since_iff.symm

theorem since_last (hle : m ≤ h.count) : h.Since m h.last := ⟨h.count, hle, content_count h⟩

end History
