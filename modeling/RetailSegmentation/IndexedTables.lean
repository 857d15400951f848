import Mathlib.Data.List.MinMax
import Mathlib.Logic.Function.Basic
import Mathlib.Tactic.Common

/-! Tables whose entries are read and changed by number, and the scans that keep the first best of what they
pass. A number that is not there raises `e`. -/

namespace Indexed

variable {α β ε κ σ τ : Type}

/-! ### Entries -/

def item (e : ε) (xs : List α) (i : ℕ) : Except ε α :=
  match xs[i]? with
  | some x => return x
  | none => throw e

/-- `xs[i] = f(xs[i])`. -/
def adjustAt (e : ε) (xs : List α) (i : ℕ) (f : α → α) : Except ε (List α) := do
  return xs.set i (f (← item e xs i))

/-- The table of the values at the numbers below `k`. -/
def column (k : ℕ) (g : ℕ → α) : List α := (List.range k).map g

variable {e : ε} {xs : List α} {k i : ℕ} {g : ℕ → α}

theorem item_ok {x : α} (h : xs[i]? = some x) : item e xs i = .ok x := by
  unfold item
  rw [h]
  rfl

theorem exists_item (h : i < xs.length) : ∃ x, item e xs i = .ok x ∧ xs[i]? = some x :=
  ⟨xs[i], item_ok (List.getElem?_eq_getElem h), List.getElem?_eq_getElem h⟩

@[simp] theorem length_column : (column k g).length = k := by
  unfold column
  rw [List.length_map, List.length_range]

theorem column_get (h : i < k) : (column k g)[i]? = some (g i) := by
  unfold column
  rw [List.getElem?_map, List.getElem?_range h]
  rfl

@[simp] theorem getElem_column (h : i < (column k g).length) : (column k g)[i] = g i := by
  rw [List.getElem_eq_iff]
  exact column_get (by simpa using h)

theorem mem_column {x : α} : x ∈ column k g ↔ ∃ i < k, g i = x := by
  unfold column
  simp only [List.mem_map, List.mem_range]

theorem replicate_column (k : ℕ) (x : α) : List.replicate k x = column k fun _ => x := by
  unfold column
  rw [List.map_const', List.length_range]

theorem column_map (f : α → β) : (column k g).map f = column k fun i => f (g i) := by
  unfold column
  rw [List.map_map]
  rfl

/-- Every list is the table of its entries. -/
theorem exists_column (default : α) (xs : List α) : ∃ g : ℕ → α, xs = column xs.length g :=
  ⟨fun i => xs.getD i default, List.ext_getElem (by simp) fun i hi _ => by simp [hi]⟩

theorem column_zipIdx : (column k g).zipIdx = column k fun i => (g i, i) :=
  List.ext_getElem (by simp) fun i _ _ => by simp

theorem column_drop : (column k g).drop 1 = column (k - 1) fun i => g (i + 1) :=
  List.ext_getElem (by simp) fun i _ _ => by simp

theorem column_congr {h : ℕ → α} (heq : ∀ i < k, g i = h i) : column k g = column k h :=
  List.map_congr_left fun i hi => heq i (List.mem_range.mp hi)

theorem column_foldl {f : σ → α → σ} (s : σ) : (column k g).foldl f s = (List.range k).foldl (fun s i => f s (g i)) s :=
  List.foldl_map

theorem column_succ : column (k + 1) g = column k g ++ [g k] := by
  unfold column
  rw [List.range_succ, List.map_append]
  rfl

theorem column_foldlM {f : σ → α → Except ε σ} (s : σ) :
    (column k g).foldlM f s = (List.range k).foldlM (fun s i => f s (g i)) s :=
  List.foldlM_map ..

/-- What succeeds on every entry succeeds on the table. -/
theorem mapM_column (default : β) {f : α → Except ε β} {P : ℕ → β → Prop}
    (h : ∀ i < k, ∃ b, f (g i) = .ok b ∧ P i b) :
    ∃ r : ℕ → β, (column k g).mapM f = .ok (column k r) ∧ ∀ i < k, P i (r i) := by
  induction k with
  | zero => exact ⟨fun _ => default, rfl, fun i hi => absurd hi (Nat.not_lt_zero i)⟩
  | succ k ih =>
      obtain ⟨r, hr, hall⟩ := ih fun i hi => h i (Nat.lt_succ_of_lt hi)
      obtain ⟨b, hb, hP⟩ := h k (Nat.lt_succ_self k)
      have hbefore : ∀ i < k, r i = Function.update r k b i := fun i hi =>
        (Function.update_of_ne (Nat.ne_of_lt hi) b r).symm
      refine ⟨Function.update r k b, ?_, fun i hi => ?_⟩
      · rw [column_succ, column_succ, List.mapM_append, hr, Function.update_self, ← column_congr hbefore]
        change ((do let y ← [g k].mapM f; return column k r ++ y) : Except ε (List β)) = _
        rw [List.mapM_cons, hb]
        rfl
      · rcases Nat.lt_succ_iff_lt_or_eq.mp hi with hi | rfl
        · rw [← hbefore i hi]
          exact hall i hi
        · rw [Function.update_self]
          exact hP

theorem column_zip {h : ℕ → β} : (column k g).zip (column k h) = column k fun i => (g i, h i) := by
  unfold column
  rw [List.zip_map']

theorem set_column (x : α) : (column k g).set i x = column k (Function.update g i x) := by
  refine List.ext_getElem (by simp) fun j hj _ => ?_
  rw [List.getElem_set, getElem_column, getElem_column]
  by_cases h : i = j
  · subst h
    rw [if_pos rfl, Function.update_self]
  · rw [if_neg h, Function.update_of_ne (Ne.symm h)]

theorem item_column (h : i < k) : item e (column k g) i = .ok (g i) := item_ok (column_get h)

theorem adjustAt_column (h : i < k) (f : α → α) :
    adjustAt e (column k g) i f = .ok (column k (Function.update g i (f (g i)))) := by
  unfold adjustAt
  rw [item_column h]
  exact congrArg Except.ok (set_column _)

/-! ### Loops -/

theorem exists_of_bind {x : Except ε α} {f : α → Except ε β} {r : β} (h : (x >>= f) = .ok r) :
    ∃ a, x = .ok a ∧ f a = .ok r := by
  cases x with
  | error e => cases h
  | ok a => exact ⟨a, rfl, h⟩

/-- A loop over states that stand for others, none of whose rounds fails. -/
theorem foldlM_rep {f : σ → β → Except ε σ} {rep : τ → σ} {step : τ → β → τ} {rows : List β}
    (h : ∀ row ∈ rows, ∀ t, f (rep t) row = .ok (rep (step t row))) (t : τ) :
    rows.foldlM f (rep t) = .ok (rep (rows.foldl step t)) := by
  induction rows generalizing t with
  | nil => rfl
  | cons row rows ih =>
      rw [List.foldlM_cons, h row List.mem_cons_self]
      exact ih (fun row' hrow' => h row' (List.mem_cons_of_mem row hrow')) _

/-- Entries changed row by row: each is what its own rows make of it, in their order. -/
theorem foldl_update (key : β → ℕ) (step : α → β → α) (rows : List β) (g : ℕ → α) (c : ℕ) :
    rows.foldl (fun g row => Function.update g (key row) (step (g (key row)) row)) g c =
      (rows.filter fun row => key row = c).foldl step (g c) := by
  induction rows generalizing g with
  | nil => rfl
  | cons row rows ih =>
      rw [List.foldl_cons, ih, List.filter_cons]
      by_cases h : key row = c
      · subst h
        simp
      · simp [h, Function.update_of_ne (Ne.symm h)]

/-- A table whose entries are changed row by row. -/
theorem foldlM_adjustAt {key : β → ℕ} {step : α → β → α} {rows : List β} (h : ∀ row ∈ rows, key row < k)
    (g : ℕ → α) :
    rows.foldlM (fun xs row => adjustAt e xs (key row) fun x => step x row) (column k g) =
      .ok (column k fun c => (rows.filter fun row => key row = c).foldl step (g c)) := by
  have hround : ∀ row ∈ rows, ∀ g : ℕ → α, adjustAt e (column k g) (key row) (fun x => step x row) =
      .ok (column k (Function.update g (key row) (step (g (key row)) row))) := fun row hrow g =>
    adjustAt_column (h row hrow) _
  rw [foldlM_rep hround g]
  exact congrArg (fun g => Except.ok (column k g)) (funext (foldl_update key step rows g))

/-- A loop each of whose rounds keeps an invariant of what is done by then. -/
theorem foldlM_range {f : σ → ℕ → Except ε σ} {P : ℕ → σ → Prop} {n : ℕ}
    (h : ∀ i < n, ∀ s, P i s → ∃ s', f s i = .ok s' ∧ P (i + 1) s') {s : σ} (hs : P 0 s) :
    ∃ s', (List.range n).foldlM f s = .ok s' ∧ P n s' := by
  induction n with
  | zero => exact ⟨s, rfl, hs⟩
  | succ n ih =>
      obtain ⟨s₁, hrun, hs₁⟩ := ih fun i hi => h i (Nat.lt_succ_of_lt hi)
      obtain ⟨s₂, hstep, hs₂⟩ := h n (Nat.lt_succ_self n) s₁ hs₁
      refine ⟨s₂, ?_, hs₂⟩
      rw [List.range_succ, List.foldlM_append, hrun]
      change (List.foldlM f s₁ [n]) = _
      rw [List.foldlM_cons, hstep]
      rfl

/-! ### Scans -/

section Scans

variable [LinearOrder κ]

/-- A scan that keeps the first of the least ends with a least one, before which all are greater. -/
theorem scan_least (f : ℕ → κ) (n : ℕ) : ∃ b ≤ n,
    ((List.range n).foldl (fun best i => if f (i + 1) < best.2 then (i + 1, f (i + 1)) else best) (0, f 0)) = (b, f b) ∧
      ∀ i ≤ n, f b ≤ f i ∧ (i < b → f b < f i) := by
  induction n with
  | zero =>
      refine ⟨0, le_rfl, rfl, fun i hi => ?_⟩
      obtain rfl := Nat.le_zero.mp hi
      exact ⟨le_rfl, fun h => absurd h (lt_irrefl 0)⟩
  | succ n ih =>
      obtain ⟨b, hb, hscan, hleast⟩ := ih
      rw [List.range_succ, List.foldl_append, hscan, List.foldl_cons, List.foldl_nil]
      by_cases hlt : f (n + 1) < f b
      · refine ⟨n + 1, le_rfl, if_pos hlt, fun i hi => ?_⟩
        rcases Nat.le_succ_iff.mp hi with hi | rfl
        · have hless := lt_of_lt_of_le hlt (hleast i hi).1
          exact ⟨hless.le, fun _ => hless⟩
        · exact ⟨le_rfl, fun h => absurd h (lt_irrefl _)⟩
      · refine ⟨b, Nat.le_succ_of_le hb, if_neg hlt, fun i hi => ?_⟩
        rcases Nat.le_succ_iff.mp hi with hi | rfl
        · exact hleast i hi
        · exact ⟨not_lt.mp hlt, fun h => absurd h (by omega)⟩

/-- A scan for the first of the greatest, among those that qualify, of values all above the one it starts from. -/
theorem scan_greatest {p : ℕ → Prop} [DecidablePred p] {f : ℕ → κ} {bottom : κ}
    (hbottom : ∀ i, bottom < f i) (n : ℕ) :
    (List.range n).foldl (fun best i => if p i then (if best.2 < f i then (some i, f i) else best) else best)
        (none, bottom) = (none, bottom) ∧ (∀ i < n, ¬ p i) ∨
      ∃ b < n, p b ∧ (List.range n).foldl
          (fun best i => if p i then (if best.2 < f i then (some i, f i) else best) else best) (none, bottom) =
        (some b, f b) ∧ ∀ i < n, p i → f i ≤ f b ∧ (i < b → f i < f b) := by
  induction n with
  | zero => exact .inl ⟨rfl, fun i hi => absurd hi (Nat.not_lt_zero i)⟩
  | succ n ih =>
      rw [List.range_succ, List.foldl_append, List.foldl_cons, List.foldl_nil]
      obtain ⟨hscan, hnone⟩ | ⟨b, hb, hpb, hscan, hgreatest⟩ := ih
      · rw [hscan]
        by_cases hn : p n
        · refine .inr ⟨n, Nat.lt_succ_self n, hn, by rw [if_pos hn, if_pos (hbottom n)], fun i hi hpi => ?_⟩
          rcases Nat.lt_succ_iff_lt_or_eq.mp hi with hi | rfl
          · exact absurd hpi (hnone i hi)
          · exact ⟨le_rfl, fun h => absurd h (lt_irrefl _)⟩
        · refine .inl ⟨if_neg hn, fun i hi => ?_⟩
          rcases Nat.lt_succ_iff_lt_or_eq.mp hi with hi | rfl
          · exact hnone i hi
          · exact hn
      · rw [hscan]
        by_cases hbetter : p n ∧ f b < f n
        · refine .inr ⟨n, Nat.lt_succ_self n, hbetter.1, by rw [if_pos hbetter.1, if_pos hbetter.2],
            fun i hi hpi => ?_⟩
          rcases Nat.lt_succ_iff_lt_or_eq.mp hi with hi | rfl
          · have hless := lt_of_le_of_lt (hgreatest i hi hpi).1 hbetter.2
            exact ⟨hless.le, fun _ => hless⟩
          · exact ⟨le_rfl, fun h => absurd h (lt_irrefl _)⟩
        · refine .inr ⟨b, Nat.lt_succ_of_lt hb, hpb, ?_, fun i hi hpi => ?_⟩
          · by_cases hn : p n
            · rw [if_pos hn, if_neg fun h => hbetter ⟨hn, h⟩]
            · rw [if_neg hn]
          · rcases Nat.lt_succ_iff_lt_or_eq.mp hi with hi | rfl
            · exact hgreatest i hi hpi
            · exact ⟨not_lt.mp fun h => hbetter ⟨hpi, h⟩, fun h => absurd h (by omega)⟩

end Scans
end Indexed
