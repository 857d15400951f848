import Mathlib.Data.List.Sort
import Mathlib.Order.Monotone.Defs

/-! The rows of a query that orders by a key and stops at a limit. Rows of one key come in any order, so that
the query may be answered in several ways; the lemmas say what holds of every answer. -/

namespace OldestFirst

variable {α T : Type} [LinearOrder T] (key : α → T)

/-- An answer to `ORDER BY key LIMIT limit` over `rows`. -/
def Oldest (limit : ℕ) (rows batch : List α) : Prop :=
  ∃ ordered : List α, ordered.Perm rows ∧ ordered.Pairwise (fun a b => key a ≤ key b) ∧ batch = ordered.take limit

theorem exists_sorted (rows : List α) : ∃ ordered : List α,
    ordered.Perm rows ∧ ordered.Pairwise fun a b => key a ≤ key b := by
  refine ⟨rows.mergeSort fun a b => key a ≤ key b, List.mergeSort_perm .., ?_⟩
  have hsorted : (rows.mergeSort fun a b => key a ≤ key b).Pairwise fun a b => decide (key a ≤ key b) :=
    List.pairwise_mergeSort
      (fun a b c hab hbc => decide_eq_true ((of_decide_eq_true hab).trans (of_decide_eq_true hbc)))
      (fun a b => by simpa using le_total (key a) (key b)) rows
  exact hsorted.imp of_decide_eq_true

theorem exists_oldest (limit : ℕ) (rows : List α) : ∃ batch, Oldest key limit rows batch := by
  obtain ⟨ordered, hperm, hsorted⟩ := exists_sorted key rows
  exact ⟨_, ordered, hperm, hsorted, rfl⟩

variable {key}

/-- Rows that come before all others may be answered first, in an order of the keys. -/
theorem exists_oldest_front {limit : ℕ} {rows front back : List α} (hsplit : (front ++ back).Perm rows)
    (hle : ∀ a ∈ front, ∀ b ∈ back, key a ≤ key b) :
    ∃ first last : List α, first.Perm front ∧ last.Perm back ∧
      Oldest key limit rows ((first ++ last).take limit) := by
  obtain ⟨first, hfirst, hsorted⟩ := exists_sorted key front
  obtain ⟨last, hlast, hsorted'⟩ := exists_sorted key back
  refine ⟨first, last, hfirst, hlast, first ++ last, (hfirst.append hlast).trans hsplit, ?_, rfl⟩
  exact List.pairwise_append.mpr ⟨hsorted, hsorted',
    fun a ha b hb => hle a (hfirst.mem_iff.mp ha) b (hlast.mem_iff.mp hb)⟩

section Limits

variable {limit : ℕ} {rows batch : List α}

theorem Oldest.mem (h : Oldest key limit rows batch) {a : α} (ha : a ∈ batch) : a ∈ rows := by
  obtain ⟨ordered, hperm, -, rfl⟩ := h
  exact hperm.mem_iff.mp (List.mem_of_mem_take ha)

/-- **Every answer has a row of a kind** exactly when fewer rows than the limit are of another kind and no
later than each of that kind. -/
theorem forall_oldest_exists_iff {p : α → Bool} (hsome : ∃ a ∈ rows, p a = true) :
    (∀ batch, Oldest key limit rows batch → ∃ a ∈ batch, p a = true) ↔
      rows.countP (fun b => !p b && rows.all fun a => !p a || decide (key b ≤ key a)) < limit := by
  set early : α → Bool := fun b => !p b && rows.all fun a => !p a || decide (key b ≤ key a) with hearly
  have early_iff : ∀ b, early b = true ↔ p b = false ∧ ∀ a ∈ rows, p a = true → key b ≤ key a := by
    intro b
    simp only [hearly, Bool.and_eq_true, Bool.not_eq_true', List.all_eq_true, Bool.or_eq_true, decide_eq_true_eq]
    refine and_congr_right fun _ => forall_congr' fun a => forall_congr' fun _ => ?_
    cases p a <;> simp
  constructor
  · intro hall
    by_contra hmany
    rw [not_lt, List.countP_eq_length_filter] at hmany
    have hle : ∀ a ∈ rows.filter early, ∀ b ∈ rows.filter (fun b => !early b), key a ≤ key b := by
      intro a ha b hb
      obtain ⟨-, hle⟩ := (early_iff a).mp (List.of_mem_filter ha)
      have hb' := List.of_mem_filter hb
      have hbmem := List.mem_of_mem_filter hb
      by_cases hpb : p b = true
      · exact hle b hbmem hpb
      · have hlate : ¬ ∀ c ∈ rows, p c = true → key b ≤ key c := fun hall' => by
          rw [(early_iff b).mpr ⟨by simpa using hpb, hall'⟩] at hb'
          cases hb'
        push Not at hlate
        obtain ⟨c, hc, hpc, hlt⟩ := hlate
        exact (hle c hc hpc).trans hlt.le
    -- the early ones first, and among them no row of the kind
    obtain ⟨first, last, hfirst, -, holdest⟩ :=
      exists_oldest_front (List.filter_append_perm early rows) hle
    obtain ⟨a, ha, hpa⟩ := hall _ holdest
    rw [List.take_append_of_le_length (hfirst.length_eq ▸ hmany)] at ha
    have hmem := List.of_mem_filter (hfirst.mem_iff.mp (List.mem_of_mem_take ha))
    rw [((early_iff a).mp hmem).1] at hpa
    cases hpa
  · rintro hfew batch ⟨ordered, hperm, hsorted, rfl⟩
    by_contra hnone
    push Not at hnone
    obtain ⟨c, hc, hpc⟩ := hsome
    -- the rows of the kind are all past the limit, and the ones before it are early
    have hrest : ∀ a ∈ rows, p a = true → a ∈ ordered.drop limit := by
      intro a ha hpa
      have hmem := hperm.mem_iff.mpr ha
      rw [← List.take_append_drop limit ordered, List.mem_append] at hmem
      exact hmem.resolve_left fun htake => hnone a htake hpa
    have hlimit : limit ≤ ordered.length := by
      have hpos := List.length_pos_of_mem (hrest c hc hpc)
      rw [List.length_drop] at hpos
      omega
    have hfront : ∀ a ∈ ordered.take limit, early a = true := by
      intro a ha
      refine (early_iff a).mpr ⟨by simpa using hnone a ha, fun b hb hpb => ?_⟩
      rw [← List.take_append_drop limit ordered] at hsorted
      exact (List.pairwise_append.mp hsorted).2.2 a ha b (hrest b hb hpb)
    have hcount : limit ≤ ordered.countP early := by
      rw [← List.take_append_drop limit ordered, List.countP_append, List.countP_eq_length.mpr hfront,
        List.length_take,
        min_eq_left hlimit]
      exact Nat.le_add_right _ _
    rw [hperm.countP_eq] at hcount
    omega

/-- **No answer has a row but of a kind** exactly when at least as many rows as the limit come strictly before
each row of another kind. -/
theorem forall_oldest_forall_iff {q : α → Bool} :
    (∀ batch, Oldest key limit rows batch → ∀ a ∈ batch, q a = true) ↔
      ∀ a ∈ rows, q a = false → limit ≤ rows.countP fun b => key b < key a := by
  constructor
  · intro hall a ha hqa
    by_contra hfew
    rw [not_le, List.countP_eq_length_filter] at hfew
    obtain ⟨before, after, rfl⟩ := List.append_of_mem ha
    have hperm : (before ++ a :: after).Perm (a :: (before ++ after)) := List.perm_middle
    rw [(hperm.filter _).length_eq, List.filter_cons, if_neg (by simp)] at hfew
    have hsplit : (((before ++ after).filter fun b => key b < key a) ++ [a] ++
        (before ++ after).filter fun b => !decide (key b < key a)).Perm (before ++ a :: after) := by
      refine List.Perm.trans ?_ hperm.symm
      rw [List.append_assoc]
      exact List.perm_middle.trans ((List.filter_append_perm _ _).cons a)
    have hle : ∀ b ∈ ((before ++ after).filter fun b => key b < key a) ++ [a],
        ∀ c ∈ (before ++ after).filter (fun b => !decide (key b < key a)), key b ≤ key c := by
      intro b hb c hc
      have hc' : key a ≤ key c := by simpa using List.of_mem_filter hc
      rcases List.mem_append.mp hb with hb | hb
      · have hlt : key b < key a := by simpa using List.of_mem_filter hb
        exact hlt.le.trans hc'
      · rw [List.mem_singleton.mp hb]
        exact hc'
    -- the earlier ones first, then this one
    obtain ⟨first, last, hfirst, -, holdest⟩ := exists_oldest_front hsplit hle
    have hlength : first.length ≤ limit := by
      rw [hfirst.length_eq, List.length_append, List.length_singleton]
      omega
    have hmem : a ∈ (first ++ last).take limit := by
      rw [List.take_append, List.take_of_length_le hlength]
      exact List.mem_append_left _ (hfirst.mem_iff.mpr (List.mem_append_right _ (List.mem_singleton_self a)))
    rw [hall _ holdest a hmem] at hqa
    cases hqa
  · rintro hcount batch ⟨ordered, hperm, hsorted, rfl⟩ a ha
    by_contra hqa
    have hmany := hcount a (hperm.mem_iff.mp (List.mem_of_mem_take ha)) (by simpa using hqa)
    obtain ⟨before, after, hsplit⟩ := List.append_of_mem ha
    have hlength : before.length < limit := by
      have hle := List.length_take_le limit ordered
      rw [hsplit, List.length_append, List.length_cons] at hle
      omega
    rw [← List.take_append_drop limit ordered, hsplit, List.append_assoc, List.cons_append] at hperm hsorted
    -- none of those after it is earlier
    have hlate : (a :: (after ++ ordered.drop limit)).countP (fun b => key b < key a) = 0 := by
      refine List.countP_eq_zero.mpr fun b hb => ?_
      rcases List.mem_cons.mp hb with rfl | hb
      · simp
      · simpa using (List.pairwise_cons.mp (List.pairwise_append.mp hsorted).2.1).1 b hb
    rw [← hperm.countP_eq, List.countP_append, hlate] at hmany
    have hle := List.countP_le_length (p := fun b => decide (key b < key a)) (l := before)
    omega

end Limits

end OldestFirst
