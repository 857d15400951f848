import Mathlib.Data.List.Perm.Basic
import RetailSegmentation.OldestFirst

/-! The pages of a query that orders by a key, each asked for by itself. Rows of one key come in another order for
every page, so that a row may be on two pages or on none, unless the rows of every key are on one page. -/

namespace OldestFirst

variable {α T : Type} [LinearOrder T] (key : α → T)

/-- An answer to `ORDER BY key LIMIT limit OFFSET skip` over `rows`. -/
def IsPage (skip limit : ℕ) (rows page : List α) : Prop :=
  ∃ ordered : List α, ordered.Perm rows ∧ ordered.Pairwise (fun a b => key a ≤ key b) ∧
    page = (ordered.drop skip).take limit

/-- The rows before all of the key of `a`. -/
def before (rows : List α) (a : α) : ℕ := rows.countP fun b => key b < key a

/-- The rows up to the last of the key of `a`. -/
def upTo (rows : List α) (a : α) : ℕ := rows.countP fun b => key b ≤ key a

/-- No page ends within the rows of one key. -/
def Aligned (size : ℕ) (rows : List α) : Prop :=
  ∀ a ∈ rows, ∀ k, ¬ (before key rows a < k * size ∧ k * size < upTo key rows a)

variable {key} {rows ordered : List α} {size : ℕ}

/-- Where a row stands among the rows in order. -/
theorem before_le_lt_upTo (hperm : ordered.Perm rows) (hsorted : ordered.Pairwise fun a b => key a ≤ key b)
    {front back : List α} {a : α} (hsplit : ordered = front ++ a :: back) :
    before key rows a ≤ front.length ∧ front.length < upTo key rows a := by
  subst hsplit
  obtain ⟨-, hback, hfront⟩ := List.pairwise_append.mp hsorted
  unfold before upTo
  rw [← hperm.countP_eq, ← hperm.countP_eq, List.countP_append, List.countP_append]
  constructor
  · have hnone : (a :: back).countP (fun b => key b < key a) = 0 := by
      apply List.countP_eq_zero.mpr
      intro b hb
      rcases List.mem_cons.mp hb with rfl | hb
      · simp
      · simpa using (List.pairwise_cons.mp hback).1 b hb
    have hle := List.countP_le_length (p := fun b => decide (key b < key a)) (l := front)
    omega
  · have hall : front.countP (fun b => key b ≤ key a) = front.length := by
      apply List.countP_eq_length.mpr
      intro b hb
      exact decide_eq_true (hfront b hb a List.mem_cons_self)
    have hself : 0 < (a :: back).countP (fun b => key b ≤ key a) := by
      rw [List.countP_cons_of_pos (by simp)]
      exact Nat.succ_pos _
    omega

/-- Where no page ends within the rows of one key, a page has the rows that belong on it. -/
theorem page_eq_filter (hsize : 0 < size) (haligned : Aligned key size rows) (hperm : ordered.Perm rows)
    (hsorted : ordered.Pairwise fun a b => key a ≤ key b) (k : ℕ) :
    (ordered.drop (k * size)).take size = ordered.filter fun a => before key rows a / size = k := by
  have hsplit : ordered = ordered.take (k * size) ++ ((ordered.drop (k * size)).take size ++
      (ordered.drop (k * size)).drop size) := by
    rw [List.take_append_drop, List.take_append_drop]
  have hfirst : ∀ a ∈ ordered.take (k * size), before key rows a / size ≠ k := by
    intro a ha
    obtain ⟨front, back, heq⟩ := List.append_of_mem ha
    have hlength : front.length < k * size := by
      have hle := List.length_take_le (k * size) ordered
      rw [heq, List.length_append, List.length_cons] at hle
      omega
    rw [heq, List.append_assoc, List.cons_append] at hsplit
    have hplace := (before_le_lt_upTo hperm hsorted hsplit).1
    exact (Nat.div_lt_of_lt_mul (by rw [Nat.mul_comm]; omega)).ne
  have hpage : ∀ a ∈ (ordered.drop (k * size)).take size, before key rows a / size = k := by
    intro a ha
    obtain ⟨front, back, heq⟩ := List.append_of_mem ha
    have hmany : k * size + front.length < ordered.length := by
      have hle := List.length_take_le' size (ordered.drop (k * size))
      rw [heq, List.length_append, List.length_cons, List.length_drop] at hle
      omega
    have hlength : front.length < size := by
      have hle := List.length_take_le size (ordered.drop (k * size))
      rw [heq, List.length_append, List.length_cons] at hle
      omega
    have htake : (ordered.take (k * size) ++ front).length = k * size + front.length := by
      rw [List.length_append, List.length_take, min_eq_left (by omega)]
    have hsplit' : ordered = (ordered.take (k * size) ++ front) ++ a :: (back ++ (ordered.drop (k * size)).drop size) := by
      rw [heq] at hsplit
      simpa using hsplit
    obtain ⟨hbefore, hupTo⟩ := before_le_lt_upTo hperm hsorted hsplit'
    rw [htake] at hbefore hupTo
    have hmem : a ∈ rows := hperm.mem_iff.mp (hsplit' ▸ List.mem_append_right _ List.mem_cons_self)
    have hstart : k * size ≤ before key rows a := by
      have hnot := haligned a hmem k
      omega
    exact Nat.div_eq_of_lt_le hstart (by rw [Nat.succ_mul]; omega)
  have hlast : ∀ a ∈ (ordered.drop (k * size)).drop size, before key rows a / size ≠ k := by
    intro a ha
    obtain ⟨front, back, heq⟩ := List.append_of_mem ha
    rw [List.drop_drop] at heq
    have hmany : k * size + size + front.length < ordered.length := by
      have hlength := congrArg List.length heq
      rw [List.length_drop, List.length_append, List.length_cons] at hlength
      omega
    have htake : (ordered.take (k * size + size) ++ front).length = k * size + size + front.length := by
      rw [List.length_append, List.length_take, min_eq_left (by omega)]
    have hsplit' : ordered = (ordered.take (k * size + size) ++ front) ++ a :: back := by
      rw [List.append_assoc, ← heq, List.take_append_drop]
    obtain ⟨-, hupTo⟩ := before_le_lt_upTo hperm hsorted hsplit'
    rw [htake] at hupTo
    have hmem : a ∈ rows := hperm.mem_iff.mp (hsplit' ▸ List.mem_append_right _ List.mem_cons_self)
    have hnext : (k + 1) * size ≤ before key rows a := by
      have hnot := haligned a hmem (k + 1)
      rw [Nat.succ_mul] at hnot ⊢
      omega
    have hlt : k < before key rows a / size := (Nat.le_div_iff_mul_le hsize).mpr hnext
    exact hlt.ne'
  conv_rhs => rw [hsplit]
  rw [List.filter_append, List.filter_append, List.filter_eq_nil_iff.mpr fun a ha => by simpa using hfirst a ha,
    List.filter_eq_self.mpr fun a ha => by simpa using hpage a ha,
    List.filter_eq_nil_iff.mpr fun a ha => by simpa using hlast a ha, List.nil_append, List.append_nil]

/-- Rows by a number each has, one number after the other. -/
theorem flatMap_filter_perm (number : α → ℕ) (m : ℕ) :
    ((List.range m).flatMap fun k => rows.filter fun a => number a = k).Perm (rows.filter fun a => number a < m) := by
  induction m with
  | zero => simp
  | succ m ih =>
      rw [List.range_succ, List.flatMap_append, List.flatMap_singleton]
      have hsplit := List.filter_append_perm (fun a => decide (number a < m)) (rows.filter fun a => number a < m + 1)
      rw [List.filter_filter, List.filter_filter] at hsplit
      refine ((ih.append_right _).trans (List.Perm.of_eq ?_)).trans hsplit
      congr 1
      · apply List.filter_congr
        intro a _
        simp only [← Bool.decide_and, decide_eq_decide]
        omega
      · apply List.filter_congr
        intro a _
        simp only [← decide_not, ← Bool.decide_and, decide_eq_decide]
        omega

theorem before_lt_length {a : α} (ha : a ∈ rows) : before key rows a < rows.length := by
  have hne : before key rows a ≠ rows.length := by
    intro heq
    have hself := List.countP_eq_length.mp heq a ha
    simp at hself
  exact lt_of_le_of_ne List.countP_le_length hne

theorem before_mono (rows : List α) {a b : α} (h : key a ≤ key b) : before key rows a ≤ before key rows b := by
  apply List.countP_mono_left
  intro c _ hc
  exact decide_eq_true (lt_of_lt_of_le (of_decide_eq_true hc) h)

theorem upTo_le_before (rows : List α) {a b : α} (h : key a < key b) : upTo key rows a ≤ before key rows b := by
  apply List.countP_mono_left
  intro c _ hc
  exact decide_eq_true (lt_of_le_of_lt (of_decide_eq_true hc) h)

theorem mem_page {front back : List α} {x : α} {k : ℕ} (hlow : k * size ≤ front.length)
    (hhigh : front.length < k * size + size) : x ∈ ((front ++ x :: back).drop (k * size)).take size := by
  apply List.mem_of_getElem? (i := front.length - k * size)
  rw [List.getElem?_take_of_lt (by omega), List.getElem?_drop, Nat.add_sub_cancel' hlow]
  simp

/-- **Every way to answer the pages gives every row once, in order,** exactly when no page ends within the
rows of one key. -/
theorem forall_pages_iff (hsize : 0 < size) (hrows : rows.Nodup) :
    (∀ pages : ℕ → List α, (∀ k, IsPage key (k * size) size rows (pages k)) → ∀ m, rows.length ≤ m * size →
      ((List.range m).flatMap pages).Perm rows ∧
        ((List.range m).flatMap pages).Pairwise fun a b => key a ≤ key b) ↔ Aligned key size rows := by
  constructor
  · intro hall a ha k hacross
    obtain ⟨ordered, hperm, hsorted⟩ := exists_sorted key rows
    have hlast : k * size < ordered.length := by
      have hle : upTo key rows a ≤ rows.length := List.countP_le_length
      rw [hperm.length_eq]
      omega
    obtain ⟨j, hj⟩ : ∃ j, k * size = j + 1 := Nat.exists_eq_succ_of_ne_zero (by omega)
    -- the rows on the two sides of the boundary have the same key
    obtain ⟨front, x, y, back, hsplit, hfront⟩ : ∃ front x y back,
      ordered = front ++ x :: y :: back ∧ front.length = j := by
      refine ⟨ordered.take j, ordered[j], ordered[j + 1], ordered.drop (j + 2),
        ?_, by rw [List.length_take]; omega⟩
      rw [List.getElem_cons_drop, List.getElem_cons_drop, List.take_append_drop]
    have hx := before_le_lt_upTo hperm hsorted hsplit
    have hy := @before_le_lt_upTo _ _ _ key rows ordered hperm hsorted (front ++ [x]) back y (by rw [hsplit]; simp)
    have hxy : key x ≤ key y := by
      have hpair := (List.pairwise_append.mp (hsplit ▸ hsorted)).2.1
      exact (List.pairwise_cons.mp hpair).1 y List.mem_cons_self
    rw [List.length_append, List.length_singleton] at hy
    have hax : key a ≤ key x := by
      by_contra hlt
      have hle := upTo_le_before rows (not_le.mp hlt)
      omega
    have hya : key y ≤ key a := by
      by_contra hlt
      have hle := upTo_le_before rows (not_le.mp hlt)
      omega
    have hyx := hya.trans hax
    -- the page after the boundary is answered with the two the other way round, so the first is on both pages
    set other := front ++ y :: x :: back with hother
    have hother_perm : other.Perm rows := by
      refine List.Perm.trans ?_ hperm
      rw [hsplit]
      exact (List.Perm.swap x y back).append_left front
    have hother_sorted : other.Pairwise fun a b => key a ≤ key b := by
      obtain ⟨hleft, hright, hboth⟩ := List.pairwise_append.mp (hsplit ▸ hsorted)
      obtain ⟨hxs, hys, hback⟩ := List.pairwise_cons.mp hright |>.imp_right List.pairwise_cons.mp
      refine List.pairwise_append.mpr ⟨hleft, List.pairwise_cons.mpr ⟨?_, List.pairwise_cons.mpr ⟨?_, hback⟩⟩, ?_⟩
      · intro c hc
        rcases List.mem_cons.mp hc with rfl | hc
        · exact hyx
        · exact hys c hc
      · exact fun c hc => hxs c (List.mem_cons_of_mem _ hc)
      · intro c hc d hd
        apply hboth c hc d
        simp only [List.mem_cons] at hd ⊢
        tauto
    have hpages : ∀ i, IsPage key (i * size) size rows
        (((if i = k then other else ordered).drop (i * size)).take size) := by
      intro i
      split_ifs
      · exact ⟨other, hother_perm, hother_sorted, rfl⟩
      · exact ⟨ordered, hperm, hsorted, rfl⟩
    have hlength : k * size < rows.length := hperm.length_eq ▸ hlast
    have hk : k < rows.length := lt_of_le_of_lt (Nat.le_mul_of_pos_right k hsize) hlength
    obtain ⟨honce, -⟩ := hall _ hpages rows.length (Nat.le_mul_of_pos_right _ hsize)
    have hdisjoint := (List.nodup_flatMap.mp (honce.nodup_iff.mpr hrows)).2
    obtain ⟨i, rfl⟩ : ∃ i, k = i + 1 := Nat.exists_eq_succ_of_ne_zero (by rintro rfl; omega)
    rw [Nat.succ_mul] at hj
    have hapart := List.pairwise_iff_getElem.mp hdisjoint i (i + 1) (by rw [List.length_range]; omega)
      (by rw [List.length_range]; exact hk) (Nat.lt_succ_self i)
    simp only [List.getElem_range] at hapart
    refine hapart (a := x) ?_ ?_
    · dsimp only
      rw [if_neg (Nat.succ_ne_self i).symm, hsplit]
      exact mem_page (by omega) (by omega)
    · dsimp only
      rw [if_pos rfl, hother, ← List.singleton_append, ← List.append_assoc]
      apply mem_page
      · rw [List.length_append, List.length_singleton, Nat.succ_mul]
        omega
      · rw [List.length_append, List.length_singleton, Nat.succ_mul]
        omega
  · intro haligned pages hpages m hm
    have hpage : ∀ k, ∃ ordered : List α, ordered.Perm rows ∧ (ordered.Pairwise fun a b => key a ≤ key b) ∧
        pages k = ordered.filter fun a => before key rows a / size = k := by
      intro k
      obtain ⟨ordered, hperm, hsorted, heq⟩ := hpages k
      exact ⟨ordered, hperm, hsorted, heq.trans (page_eq_filter hsize haligned hperm hsorted k)⟩
    have hmem : ∀ k, ∀ a ∈ pages k, before key rows a / size = k := by
      intro k a ha
      obtain ⟨ordered, -, -, heq⟩ := hpage k
      rw [heq] at ha
      exact of_decide_eq_true (List.mem_filter.mp ha).2
    constructor
    · have hsame : ∀ k ∈ List.range m, (pages k).Perm (rows.filter fun a => before key rows a / size = k) := by
        intro k _
        obtain ⟨ordered, hperm, -, heq⟩ := hpage k
        rw [heq]
        exact hperm.filter _
      refine ((List.Perm.flatMap_left _ hsame).trans (flatMap_filter_perm _ m)).trans (List.Perm.of_eq ?_)
      apply List.filter_eq_self.mpr
      intro a ha
      have hlt : before key rows a < rows.length := before_lt_length ha
      exact decide_eq_true (Nat.div_lt_of_lt_mul (by rw [Nat.mul_comm]; omega))
    · apply List.pairwise_flatMap.mpr
      refine ⟨fun k _ => ?_, List.pairwise_lt_range.imp fun {k k'} hlt a ha b hb => ?_⟩
      · obtain ⟨ordered, -, hsorted, heq⟩ := hpage k
        rw [heq]
        exact hsorted.filter _
      · by_contra hkey
        have hle := Nat.div_le_div_right (c := size) (before_mono rows (not_le.mp hkey).le)
        rw [hmem k a ha, hmem k' b hb] at hle
        omega

/-! ### So many pages -/

theorem IsPage.eq_nil {skip limit : ℕ} {page : List α} (h : IsPage key skip limit rows page)
    (hskip : rows.length ≤ skip) :
    page = [] := by
  obtain ⟨ordered, hperm, -, rfl⟩ := h
  rw [List.drop_eq_nil_of_le (hperm.length_eq.le.trans hskip), List.take_nil]

/-- Pages after the last change nothing. -/
theorem flatMap_range_eq {pages : ℕ → List α} {m m' : ℕ} (hm : m ≤ m') (hnil : ∀ k, m ≤ k → pages k = []) :
    (List.range m').flatMap pages = (List.range m).flatMap pages := by
  induction m', hm using Nat.le_induction with
  | base => rfl
  | succ n hle ih =>
      rw [List.range_succ, List.flatMap_append, ih, List.flatMap_singleton, hnil n hle, List.append_nil]

/-- It is enough to ask for as many pages as there are. -/
theorem forall_pages_at_iff (hsize : 0 < size) (hrows : rows.Nodup) {m : ℕ} (hm : rows.length ≤ m * size) :
    (∀ pages : ℕ → List α, (∀ k, IsPage key (k * size) size rows (pages k)) →
      ((List.range m).flatMap pages).Perm rows ∧
        ((List.range m).flatMap pages).Pairwise fun a b => key a ≤ key b) ↔ Aligned key size rows := by
  refine Iff.trans ?_ (forall_pages_iff hsize hrows)
  constructor
  · intro hall pages hpages m' hm'
    have hnil : ∀ n, rows.length ≤ n * size → ∀ k, n ≤ k → pages k = [] := fun n hn k hk =>
      (hpages k).eq_nil (hn.trans (Nat.mul_le_mul_right size hk))
    have hsame : (List.range m').flatMap pages = (List.range m).flatMap pages := by
      obtain hle | hle := Nat.le_total m m'
      · exact flatMap_range_eq hle (hnil m hm)
      · exact (flatMap_range_eq hle (hnil m' hm')).symm
    rw [hsame]
    exact hall pages hpages
  · exact fun hall pages hpages => hall pages hpages m hm

/-- No page ends within the rows of a key where no two rows share one. -/
theorem aligned_of_injOn (hrows : rows.Nodup) (hkey : ∀ a ∈ rows, ∀ b ∈ rows, key a = key b → a = b) :
    Aligned key size rows := by
  intro a ha k hacross
  have hone : upTo key rows a ≤ before key rows a + 1 := by
    unfold upTo before
    obtain ⟨front, back, rfl⟩ := List.append_of_mem ha
    have hother : ∀ b ∈ front ++ back, decide (key b ≤ key a) = true → decide (key b < key a) = true := by
      intro b hb hle
      refine decide_eq_true (lt_of_le_of_ne (of_decide_eq_true hle) fun heq => ?_)
      have hmem : b ∈ front ++ a :: back := by
        rw [List.mem_append, List.mem_cons]
        rw [List.mem_append] at hb
        tauto
      obtain rfl := hkey b hmem a ha heq
      exact (List.nodup_middle.mp hrows |> List.nodup_cons.mp).1 hb
    have hle := List.countP_mono_left hother
    rw [List.countP_append, List.countP_append] at hle ⊢
    rw [List.countP_cons_of_pos (by simp), List.countP_cons_of_neg (by simp)]
    omega
  omega

end OldestFirst
