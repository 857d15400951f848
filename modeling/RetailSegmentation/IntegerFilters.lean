import RetailSegmentation.ProductFilters

/-! The integer filters of a query string: of products (`services/products/app/service.py`), of categories
(`services/categories/app/service.py`) and of sales (`services/sales/app/service.py`). Each checks a shape,
converts and then checks a range. -/

namespace RetailSegmentation.IntegerFilters

open ProductFilters ProductFilters.Py PythonIntegers

/-- An integer of a range, in the shape `-?[0-9]+`. -/
def integerFilter (malformed outside : ApiError) (low high : ℤ) : Option (List Char) → Except Raised (Option ℤ)
  | none => return none
  | some raw =>
    if ¬ IsInteger raw then throw (.api malformed)
    else do
      let value ← (toInteger raw).mapError .valueError
      if ¬ (low ≤ value ∧ value ≤ high) then throw (.api outside)
      else return some value

def int32Min : ℤ := -2 ^ 31

def int32Max : ℤ := 2 ^ 31 - 1

def parentError (message code : String) : ApiError := ⟨422, "invalid_query", message, [⟨"parent_id", code⟩]⟩

/-- `parent_filter` of categories-service. -/
def parentFilter (args : Args) : Except Raised (Option ℤ) :=
  integerFilter (parentError "parent_id must be an integer." "invalid_type")
    (parentError "parent_id is outside the int32 range." "out_of_range") int32Min int32Max (get args "parent_id")

def queryError (name code : String) : ApiError :=
  ⟨422, "invalid_query", "A filter is malformed or the range is reversed.", [⟨name, code⟩]⟩

def queryMaximum (name : String) : ℤ := if name = "customer_id" then 2147483647 else 32767

/-- `_query_integer` of sales-service. -/
def queryInteger (args : Args) (name : String) : Except Raised (Option ℤ) :=
  integerFilter (queryError name "invalid_type") (queryError name "out_of_range") 1 (queryMaximum name)
    (get args name)

/-! ### What a filter comes to -/

/-- A filter that returns a value inside its range, if any was given, or raises one of its refusals. -/
def Settled {α : Type} (result : Except Raised (Option α)) (InRange : α → Prop)
    (refusals : List ApiError) : Prop :=
  (∃ value, result = .ok value ∧ ∀ v ∈ value, InRange v) ∨ ∃ e ∈ refusals, result = .error (.api e)

/-- The digits of an integer, where one is given, are not too many for `int`. -/
def Short (args : Args) (name : String) : Prop :=
  ∀ raw ∈ get args name, IsInteger raw → (unsigned raw).length ≤ maxDigits

/-- The same for the number of a category, which has no sign. -/
def CategoryShort (args : Args) : Prop :=
  ∀ raw ∈ get args "category_id", IsNumeral raw → raw.length ≤ maxDigits

def IdsShort (args : Args) : Prop :=
  ∀ raw ∈ get args "ids", isIds raw = true → ∀ item ∈ raw.splitOn ',', item.length ≤ maxDigits

/-- Ids that may be looked up: at most 50 of them, each once and in their order. -/
structure IdsInRange (ids : List ℕ) : Prop where
  length : ids.length ≤ maxBatchIds
  sorted : ids.Pairwise (· < ·)
  range : ∀ id ∈ ids, 1 ≤ id ∧ id ≤ 2147483647

section Integers

variable {malformed outside : ApiError} {low high : ℤ}

theorem integerFilter_integer {raw : List Char} (hraw : IsInteger raw)
    (hlength : (unsigned raw).length ≤ maxDigits) :
    integerFilter malformed outside low high (some raw) =
      if low ≤ integer raw ∧ integer raw ≤ high then .ok (some (integer raw)) else .error (.api outside) := by
  unfold integerFilter
  dsimp only
  rw [if_neg (not_not.mpr hraw), toInteger_ok hlength]
  change (if ¬ (low ≤ integer raw ∧ integer raw ≤ high) then _ else _) = _
  by_cases hrange : low ≤ integer raw ∧ integer raw ≤ high
  · rw [if_neg (not_not.mpr hrange), if_pos hrange]
    rfl
  · rw [if_pos hrange, if_neg hrange]
    rfl

theorem integerFilter_settled {given : Option (List Char)}
    (h : ∀ raw ∈ given, IsInteger raw → (unsigned raw).length ≤ maxDigits) :
    Settled (integerFilter malformed outside low high given) (fun value => low ≤ value ∧ value ≤ high)
      [malformed, outside] := by
  cases given with
  | none => exact .inl ⟨none, rfl, by simp⟩
  | some raw =>
      by_cases hraw : IsInteger raw
      · rw [integerFilter_integer hraw (h raw rfl hraw)]
        by_cases hrange : low ≤ integer raw ∧ integer raw ≤ high
        · refine .inl ⟨some (integer raw), if_pos hrange, fun value hvalue => ?_⟩
          obtain rfl := Option.some.inj hvalue
          exact hrange
        · exact .inr ⟨outside, by simp, if_neg hrange⟩
      · exact .inr ⟨malformed, by simp, if_pos hraw⟩

end Integers

section Products

variable {args : Args}

theorem categoryFilter_numeral {raw : List Char} (hvalue : get args "category_id" = some raw)
    (hraw : IsNumeral raw)
    (hlength : raw.length ≤ maxDigits) : categoryFilter args =
      if 1 ≤ value raw ∧ value raw ≤ 32767 then .ok (some (value raw))
      else .error (.api (invalidQuery "category_id" "out_of_range")) := by
  unfold categoryFilter
  rw [hvalue]
  dsimp only
  rw [if_neg (not_not.mpr hraw), toInt_ok hlength]
  change (if ¬ (1 ≤ value raw ∧ value raw ≤ 32767) then _ else _) = _
  by_cases hrange : 1 ≤ value raw ∧ value raw ≤ 32767
  · rw [if_neg (not_not.mpr hrange), if_pos hrange]
    rfl
  · rw [if_pos hrange, if_neg hrange]
    rfl

theorem categoryFilter_settled (h : CategoryShort args) :
    Settled (categoryFilter args) (fun id => 1 ≤ id ∧ id ≤ 32767)
      [invalidQuery "category_id" "invalid_type", invalidQuery "category_id" "out_of_range"] := by
  cases hvalue : get args "category_id" with
  | none =>
      unfold categoryFilter
      rw [hvalue]
      exact .inl ⟨none, rfl, by simp⟩
  | some raw =>
      by_cases hraw : IsNumeral raw
      · rw [categoryFilter_numeral hvalue hraw (h raw hvalue hraw)]
        by_cases hrange : 1 ≤ value raw ∧ value raw ≤ 32767
        · refine .inl ⟨some (value raw), if_pos hrange, fun id hid => ?_⟩
          obtain rfl := Option.some.inj hid
          exact hrange
        · exact .inr ⟨_, List.mem_cons_of_mem _ List.mem_cons_self, if_neg hrange⟩
      · refine .inr ⟨_, List.mem_cons_self, ?_⟩
        unfold categoryFilter
        rw [hvalue]
        exact if_pos hraw

theorem one_le_value {item : List Char} (h : isPositive item = true) : 1 ≤ value item := by
  obtain ⟨hdigits, hzero⟩ := isPositive_iff.mp h
  obtain ⟨hne, hdigits⟩ := digits_iff.mp hdigits
  cases item with
  | nil => exact absurd rfl hne
  | cons c item =>
      have hc : c ≠ '0' := fun hc => hzero (congrArg some hc)
      exact le_trans Nat.one_le_two_pow
        (le_trans (Nat.pow_le_pow_left (by decide) _)
          (TextCodes.pow_le_ofDigitChars (hdigits c List.mem_cons_self) hc item))

theorem idsFilter_ids {raw : List Char} (hvalue : get args "ids" = some raw) (hraw : isIds raw = true)
    (hlength : ∀ item ∈ raw.splitOn ',', item.length ≤ maxDigits) : idsFilter args =
      if maxBatchIds < ((raw.splitOn ',').map value).length then .error (.api tooManyIds)
      else if ((raw.splitOn ',').map value).any (2147483647 < ·) then
        .error (.api (invalidQuery "ids" "out_of_range"))
      else .ok (some (((raw.splitOn ',').map value).dedup.insertionSort (· ≤ ·))) := by
  have hread : (raw.splitOn ',').mapM toInt = .ok ((raw.splitOn ',').map value) :=
    Grouping.mapM_ok fun item hitem => toInt_ok (hlength item hitem)
  unfold idsFilter
  rw [hvalue]
  dsimp only
  rw [if_neg (not_not.mpr hraw), hread]
  rfl

theorem idsInRange_sorted {numbers : List ℕ} (hlength : numbers.length ≤ maxBatchIds)
    (hrange : ∀ id ∈ numbers, 1 ≤ id ∧ id ≤ 2147483647) : IdsInRange (numbers.dedup.insertionSort (· ≤ ·)) := by
  refine ⟨?_, ?_, fun id hid => ?_⟩
  · rw [List.length_insertionSort]
    exact le_trans (List.dedup_sublist numbers).length_le hlength
  · rw [← dedup_insertionSort]
    exact dedup_sorted (List.pairwise_insertionSort (· ≤ ·) numbers)
  · exact hrange id (List.mem_dedup.mp ((List.perm_insertionSort _ _).mem_iff.mp hid))

theorem idsFilter_settled (h : IdsShort args) : Settled (idsFilter args) IdsInRange
    [invalidQuery "ids" "invalid_format", tooManyIds, invalidQuery "ids" "out_of_range"] := by
  cases hvalue : get args "ids" with
  | none =>
      unfold idsFilter
      rw [hvalue]
      exact .inl ⟨none, rfl, by simp⟩
  | some raw =>
      by_cases hraw : isIds raw = true
      · rw [idsFilter_ids hvalue hraw (h raw hvalue hraw)]
        split_ifs with hmany hlarge
        · exact .inr ⟨tooManyIds, by simp, rfl⟩
        · exact .inr ⟨_, by simp, rfl⟩
        · refine .inl ⟨_, rfl, fun ids hids => ?_⟩
          obtain rfl := Option.some.inj hids
          refine idsInRange_sorted (Nat.not_lt.mp hmany) fun id hid => ?_
          obtain ⟨item, hitem, rfl⟩ := List.mem_map.mp hid
          refine ⟨one_le_value (List.all_eq_true.mp hraw item hitem), Nat.not_lt.mp fun hover => hlarge ?_⟩
          exact List.any_eq_true.mpr ⟨_, hid, decide_eq_true hover⟩
      · refine .inr ⟨_, List.mem_cons_self, ?_⟩
        unfold idsFilter
        rw [hvalue]
        exact if_pos hraw

theorem idsFilter_zero {raw item : List Char} (hvalue : get args "ids" = some raw) (hitem : item ∈ raw.splitOn ',')
    (hzero : item.head? = some '0') : idsFilter args = .error (.api (invalidQuery "ids" "invalid_format")) := by
  unfold idsFilter
  rw [hvalue]
  refine if_pos fun hraw => ?_
  exact (isPositive_iff.mp (List.all_eq_true.mp hraw item hitem)).2 hzero

end Products

/-! ### The four filters -/

/-- Texts of a shape, given for a parameter, that denote the same number. -/
def SameNumber {ν : Type} (args args' : Args) (name : String) (Shape : List Char → Prop)
    (number : List Char → ν) : Prop :=
  ∃ raw ∈ get args name, ∃ raw' ∈ get args' name, Shape raw ∧ Shape raw' ∧ number raw = number raw'

theorem categoryFilter_same {args args' : Args} (h : CategoryShort args) (h' : CategoryShort args')
    (hsame : SameNumber args args' "category_id" IsNumeral value) :
      categoryFilter args = categoryFilter args' := by
  obtain ⟨raw, hget, raw', hget', hraw, hraw', hnumber⟩ := hsame
  rw [categoryFilter_numeral hget hraw (h raw hget hraw), categoryFilter_numeral hget' hraw' (h' raw' hget' hraw'),
    hnumber]

theorem integerFilter_same {args args' : Args} {name : String} {malformed outside : ApiError} {low high : ℤ}
    (h : Short args name) (h' : Short args' name) (hsame : SameNumber args args' name IsInteger integer) :
    integerFilter malformed outside low high (get args name) =
      integerFilter malformed outside low high (get args' name) := by
  obtain ⟨raw, hget, raw', hget', hraw, hraw', hnumber⟩ := hsame
  rw [hget, hget', integerFilter_integer hraw (h raw hget hraw), integerFilter_integer hraw' (h' raw' hget' hraw'),
    hnumber]

theorem idsFilter_same {args args' : Args} (h : IdsShort args) (h' : IdsShort args')
    (hsame : SameNumber args args' "ids" (fun raw => isIds raw = true) fun raw => (raw.splitOn ',').map value) :
    idsFilter args = idsFilter args' := by
  obtain ⟨raw, hget, raw', hget', hraw, hraw', hnumber⟩ := hsame
  rw [idsFilter_ids hget hraw (h raw hget hraw), idsFilter_ids hget' hraw' (h' raw' hget' hraw')]
  dsimp only at hnumber
  rw [hnumber]

/-- **Integer filters.** Of numbers that `int` reads, a filter returns one inside its range or raises a
refusal of its own, the same for every text of the number; ids with a leading zero are refused as malformed.
-/
theorem integer_filters (args args' : Args) (name : String)
    (hcategory : CategoryShort args ∧ CategoryShort args') (hids : IdsShort args ∧ IdsShort args')
    (hparent : Short args "parent_id" ∧ Short args' "parent_id") (hname : Short args name ∧ Short args' name) :
    (Settled (categoryFilter args) (fun id => 1 ≤ id ∧ id ≤ 32767)
        [invalidQuery "category_id" "invalid_type", invalidQuery "category_id" "out_of_range"] ∧
      Settled (idsFilter args) IdsInRange
        [invalidQuery "ids" "invalid_format", tooManyIds, invalidQuery "ids" "out_of_range"] ∧
      Settled (parentFilter args) (fun id => int32Min ≤ id ∧ id ≤ int32Max)
        [parentError "parent_id must be an integer." "invalid_type",
          parentError "parent_id is outside the int32 range." "out_of_range"] ∧
      Settled (queryInteger args name) (fun id => 1 ≤ id ∧ id ≤ queryMaximum name)
        [queryError name "invalid_type", queryError name "out_of_range"]) ∧
    ((SameNumber args args' "category_id" IsNumeral value → categoryFilter args = categoryFilter args') ∧
      (SameNumber args args' "parent_id" IsInteger integer → parentFilter args = parentFilter args') ∧
      (SameNumber args args' name IsInteger integer → queryInteger args name = queryInteger args' name) ∧
      (SameNumber args args' "ids" (fun raw => isIds raw = true) (fun raw => (raw.splitOn ',').map value) →
        idsFilter args = idsFilter args')) ∧
    (∀ raw ∈ get args "ids", (∃ item ∈ raw.splitOn ',', item.head? = some '0') →
      idsFilter args = .error (.api (invalidQuery "ids" "invalid_format"))) := by
  refine ⟨⟨categoryFilter_settled hcategory.1, idsFilter_settled hids.1, integerFilter_settled hparent.1,
    integerFilter_settled hname.1⟩, ⟨categoryFilter_same hcategory.1 hcategory.2,
    integerFilter_same hparent.1 hparent.2, integerFilter_same hname.1 hname.2, idsFilter_same hids.1 hids.2⟩, ?_⟩
  intro raw hget hzero
  obtain ⟨item, hitem, hzero⟩ := hzero
  exact idsFilter_zero hget hitem hzero

def padded : Args :=
  [("category_id".toList, "007".toList), ("parent_id".toList, "-03".toList), ("store_id".toList, "0040000".toList)]

def plain : Args :=
  [("category_id".toList, "7".toList), ("parent_id".toList, "-3".toList), ("store_id".toList, "40000".toList)]

theorem integer_filters_padded :
    categoryFilter padded = categoryFilter plain ∧ parentFilter padded = parentFilter plain ∧
      queryInteger padded "store_id" = queryInteger plain "store_id" := by
  have h := (integer_filters padded plain "store_id" ⟨by unfold CategoryShort; decide, by unfold CategoryShort; decide⟩
    ⟨by unfold IdsShort; decide, by unfold IdsShort; decide⟩ ⟨by unfold Short; decide, by unfold Short; decide⟩
    ⟨by unfold Short; decide, by unfold Short; decide⟩).2.1
  exact ⟨h.1 ⟨"007".toList, by decide, "7".toList, by decide, by decide, by decide, by decide⟩,
    h.2.1 ⟨"-03".toList, by decide, "-3".toList, by decide, by decide, by decide, by decide⟩,
    h.2.2.1 ⟨"0040000".toList, by decide, "40000".toList, by decide, by decide, by decide, by decide⟩⟩

/-- Two texts of one number, of which the filter of ids accepts the one without a leading zero. -/
theorem ids_leading_zero :
    value "01".toList = value "1".toList ∧
      idsFilter [("ids".toList, "01".toList)] = .error (.api (invalidQuery "ids" "invalid_format")) ∧
      idsFilter [("ids".toList, "1".toList)] = .ok (some [1]) := by decide

end RetailSegmentation.IntegerFilters
