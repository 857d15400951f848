import Mathlib.Data.List.Sort
import RetailSegmentation.FormQuery
import RetailSegmentation.GroupedRows
import RetailSegmentation.KitErrors
import RetailSegmentation.PythonIntegers
import RetailSegmentation.TextCodes

/-! The filters of a list of products, as products-service reads them (`services/products/app/service.py`) and
as its twin in Rust does (`bench/products-service-rs/src/lib.rs`). -/

namespace RetailSegmentation.ProductFilters

open PythonIntegers TextCodes

/-- The names and values of a query string, in its order. -/
abbrev Args := List (List Char × List Char)

structure Filters where
  q : Option (List Char)
  sku : Option (List Char)
  categoryId : Option ℕ
  active : Option Bool
  ids : Option (List ℕ)
  deriving DecidableEq, Repr

def invalidQuery (field code : String) : ApiError :=
  ⟨422, "invalid_query", "A query parameter is outside its allowed range.", [⟨field, code⟩]⟩

def tooManyIds : ApiError :=
  ⟨422, "too_many_ids", "At most 50 product ids may be requested.", [⟨"ids", "max_items"⟩]⟩

def maxBatchIds : ℕ := 50

namespace Py

/-- What leaves a filter: an answer of its own, or what `int` raises. -/
inductive Raised where
  | api (error : ApiError)
  | valueError (error : ValueError)
  deriving DecidableEq, Repr

/-- `request.args.get(name)`. -/
def get (args : Args) (name : String) : Option (List Char) := args.lookup name.toList

/-- `int(value)`. -/
def toInt (value : List Char) : Except Raised ℕ := (int value).mapError .valueError

def textFilter (args : Args) (name : String) (maximum : ℕ) : Except Raised (Option (List Char)) :=
  match get args name with
  | none => return none
  | some value =>
    if ¬ (1 ≤ value.length ∧ value.length ≤ maximum) then
      throw (.api (invalidQuery name (if value = [] then "too_short" else "too_long")))
    else if Char.ofNat 0 ∈ value then throw (.api (invalidQuery name "invalid_format"))
    else return some value

def categoryFilter (args : Args) : Except Raised (Option ℕ) :=
  match get args "category_id" with
  | none => return none
  | some value =>
    if ¬ IsNumeral value then throw (.api (invalidQuery "category_id" "invalid_type"))
    else do
      let number ← toInt value
      if ¬ (1 ≤ number ∧ number ≤ 32767) then throw (.api (invalidQuery "category_id" "out_of_range"))
      else return some number

def activeFilter (args : Args) : Except Raised (Option Bool) :=
  match get args "active" with
  | none => return none
  | some value =>
    if value ≠ "true".toList ∧ value ≠ "false".toList then throw (.api (invalidQuery "active" "invalid_type"))
    else return some (decide (value = "true".toList))

/-- `[1-9][0-9]*`. -/
def isPositive (item : List Char) : Bool := item.head?.any (fun c => c.isDigit && c ≠ '0') && item.tail.all Char.isDigit

/-- `_IDS.fullmatch(value)`. -/
def isIds (value : List Char) : Bool := (value.splitOn ',').all isPositive

def idsFilter (args : Args) : Except Raised (Option (List ℕ)) :=
  match get args "ids" with
  | none => return none
  | some value =>
    if ¬ isIds value then throw (.api (invalidQuery "ids" "invalid_format"))
    else do
      let ids ← (value.splitOn ',').mapM toInt
      if maxBatchIds < ids.length then throw (.api tooManyIds)
      else if ids.any (2147483647 < ·) then throw (.api (invalidQuery "ids" "out_of_range"))
      else return some (ids.dedup.insertionSort (· ≤ ·))

/-- The filters of `list_products`, in the order that it reads them. -/
def listProducts (args : Args) : Except Raised Filters := do
  let q ← textFilter args "q" 150
  let sku ← textFilter args "sku" 40
  let categoryId ← categoryFilter args
  let active ← activeFilter args
  let ids ← idsFilter args
  return { q, sku, categoryId, active, ids }

end Py

namespace Rs

def digits (value : List Char) : Bool := !value.isEmpty && value.all Char.isDigit

def firstValues (args : Args) : Args :=
  args.foldl (fun values arg => if (values.lookup arg.1).isSome then values else values ++ [arg]) []

def textFilter (values : Args) (name : String) (maximum : ℕ) : Except ApiError (Option (List Char)) :=
  match values.lookup name.toList with
  | none => return none
  | some value =>
    if value.length = 0 then throw (invalidQuery name "too_short")
    else if maximum < value.length then throw (invalidQuery name "too_long")
    else return some value

def categoryFilter (values : Args) : Except ApiError (Option ℕ) :=
  match values.lookup "category_id".toList with
  | none => return none
  | some value =>
    if ¬ digits value then throw (invalidQuery "category_id" "invalid_type")
    else match checkedDigits (2 ^ 64) value with
      | some number =>
        if 1 ≤ number ∧ number ≤ 32767 then return some number else throw (invalidQuery "category_id" "out_of_range")
      | none => throw (invalidQuery "category_id" "out_of_range")

def activeFilter (values : Args) : Except ApiError (Option Bool) :=
  match values.lookup "active".toList with
  | none => return none
  | some value =>
    if value = "true".toList then return some true
    else if value = "false".toList then return some false
    else throw (invalidQuery "active" "invalid_type")

/-- `item.parse::<i32>()`. -/
def parseId (item : List Char) : Except ApiError ℕ :=
  match checkedDigits (2 ^ 31) item with
  | some id => return id
  | none => throw (invalidQuery "ids" "out_of_range")

/-- `Vec::dedup`: of values that follow each other and are equal, the first stays. -/
def dedup : List ℕ → List ℕ
  | first :: second :: rest => if first = second then dedup (second :: rest) else first :: dedup (second :: rest)
  | ids => ids

def idsFilter (values : Args) : Except ApiError (Option (List ℕ)) :=
  match values.lookup "ids".toList with
  | none => return none
  | some value =>
    let items := value.splitOn ','
    if items.any fun item => !digits item || item.head? = some '0' then throw (invalidQuery "ids" "invalid_format")
    else if maxBatchIds < items.length then throw tooManyIds
    else do
      let ids ← items.mapM parseId
      return some (dedup (ids.insertionSort (· ≤ ·)))

/-- `parse_filters`, of the names and values of the query. -/
def parseFilters (args : Args) : Except ApiError Filters := do
  let values := firstValues args
  let q ← textFilter values "q" 150
  let sku ← textFilter values "sku" 40
  let categoryId ← categoryFilter values
  let active ← activeFilter values
  let ids ← idsFilter values
  return { q, sku, categoryId, active, ids }

end Rs

/-! ### One filter at a time -/

section Filters

variable {args : Args}

theorem lookup_arg (arg : List Char × List Char) (args : Args) (name : List Char) :
    List.lookup name (arg :: args) = if name = arg.1 then some arg.2 else args.lookup name := by
  obtain ⟨key, value⟩ := arg
  rw [List.lookup_cons]
  by_cases h : name = key
  · simp [h]
  · rw [beq_eq_false_iff_ne.mpr h, if_neg h]

theorem lookup_firstValues (args : Args) (name : List Char) :
    (Rs.firstValues args).lookup name = args.lookup name := by
  have hfold : ∀ values : Args, (args.foldl (fun values arg =>
      if (values.lookup arg.1).isSome then values else values ++ [arg]) values).lookup name =
        (values.lookup name).or (args.lookup name) := by
    induction args with
    | nil => exact fun values => (Option.or_none).symm
    | cons arg args ih =>
        intro values
        rw [List.foldl_cons, ih, lookup_arg arg args]
        by_cases hname : name = arg.1
        · subst hname
          rw [if_pos rfl]
          cases hvalue : values.lookup arg.1 with
          | none =>
              rw [Option.isSome_none, if_neg Bool.false_ne_true, List.lookup_append, hvalue, Option.none_or,
                lookup_arg arg [], if_pos rfl]
              rfl
          | some value =>
              rw [Option.isSome_some, if_pos rfl, hvalue]
              rfl
        · rw [if_neg hname]
          split_ifs
          · rfl
          · rw [List.lookup_append, lookup_arg arg [], if_neg hname, List.lookup_nil, Option.or_none]
  exact hfold []

def TextFits (args : Args) (name : String) (maximum : ℕ) : Prop :=
  ∀ value ∈ Py.get args name, 1 ≤ value.length ∧ value.length ≤ maximum

/-- A text of an allowed length holds no NUL. -/
def TextStorable (args : Args) (name : String) (maximum : ℕ) : Prop :=
  ∀ value ∈ Py.get args name, 1 ≤ value.length → value.length ≤ maximum → Char.ofNat 0 ∉ value

theorem textFits_some {name : String} {maximum : ℕ} {raw : List Char} (hraw : raw ∈ Py.get args name)
    (hlow : 1 ≤ raw.length) (hhigh : raw.length ≤ maximum) : TextFits args name maximum := by
  intro raw' hraw'
  obtain rfl := Option.some.inj (hraw.symm.trans hraw')
  exact ⟨hlow, hhigh⟩

theorem textFilter_eq {name : String} {maximum : ℕ} (h : TextStorable args name maximum) :
    Py.textFilter args name maximum = (Rs.textFilter (Rs.firstValues args) name maximum).mapError .api := by
  unfold Py.textFilter Rs.textFilter
  rw [lookup_firstValues]
  cases hvalue : args.lookup name.toList with
  | none =>
      have hget : Py.get args name = none := hvalue
      rw [hget]
      rfl
  | some value =>
      have hget : Py.get args name = some value := hvalue
      rw [hget]
      dsimp only
      cases value with
      | nil =>
          rw [if_pos (by simp), if_pos rfl]
          rfl
      | cons c value =>
          by_cases hlength : (c :: value).length ≤ maximum
          · have hnul := h _ hget (by simp) hlength
            rw [if_neg (not_not.mpr ⟨by simp, hlength⟩), if_neg hnul, if_neg (by simp), if_neg (by omega)]
            rfl
          · rw [if_pos fun hboth => hlength hboth.2, if_neg (by simp), if_neg (by simp), if_pos (by omega)]
            rfl

theorem textFilter_nul {name : String} {maximum : ℕ} {value : List Char} (hvalue : Py.get args name = some value)
    (hlow : 1 ≤ value.length) (hhigh : value.length ≤ maximum) (hnul : Char.ofNat 0 ∈ value) :
    Py.textFilter args name maximum = .error (.api (invalidQuery name "invalid_format")) ∧
      Rs.textFilter (Rs.firstValues args) name maximum = .ok (some value) := by
  constructor
  · unfold Py.textFilter
    rw [hvalue]
    dsimp only
    rw [if_neg (not_not.mpr ⟨hlow, hhigh⟩), if_pos hnul]
    rfl
  · unfold Rs.textFilter
    rw [lookup_firstValues, show args.lookup name.toList = some value from hvalue]
    dsimp only
    rw [if_neg (by omega), if_neg (by omega)]
    rfl

theorem digits_iff {value : List Char} : Rs.digits value = true ↔ IsNumeral value := by
  unfold Rs.digits IsNumeral
  simp [List.all_eq_true]

theorem toInt_ok {value : List Char} (h : value.length ≤ maxDigits) :
    Py.toInt value = .ok (PythonIntegers.value value) := by
  unfold Py.toInt
  rw [int_ok h]
  rfl

theorem toInt_error {value : List Char} (h : maxDigits < value.length) :
    Py.toInt value = .error (.valueError .tooManyDigits) := by
  unfold Py.toInt
  rw [int_error h]
  rfl

theorem categoryFilter_eq
    (h : ∀ value ∈ Py.get args "category_id", IsNumeral value → value.length ≤ maxDigits) :
    Py.categoryFilter args = (Rs.categoryFilter (Rs.firstValues args)).mapError .api := by
  unfold Py.categoryFilter Rs.categoryFilter
  rw [lookup_firstValues]
  cases hvalue : args.lookup "category_id".toList with
  | none =>
      rw [show Py.get args "category_id" = none from hvalue]
      rfl
  | some value =>
      have hget : Py.get args "category_id" = some value := hvalue
      rw [hget]
      dsimp only
      by_cases hnumeral : IsNumeral value
      · rw [if_neg (not_not.mpr hnumeral), if_neg (not_not.mpr (digits_iff.mpr hnumeral)),
          toInt_ok (h _ hget hnumeral),
          checkedDigits_eq (by decide)]
        change (if ¬ (1 ≤ PythonIntegers.value value ∧ PythonIntegers.value value ≤ 32767) then _ else _) = _
        unfold PythonIntegers.value
        by_cases hrange : 1 ≤ Nat.ofDigitChars 10 value 0 ∧ Nat.ofDigitChars 10 value 0 ≤ 32767
        · rw [if_neg (not_not.mpr hrange), if_pos (by omega)]
          dsimp only
          rw [if_pos hrange]
          rfl
        · rw [if_pos hrange]
          split
          · rename_i number hnumber
            obtain ⟨-, hnumber⟩ := Option.ite_none_right_eq_some.mp hnumber
            obtain rfl := Option.some.inj hnumber
            rw [if_neg hrange]
            rfl
          · rfl
      · rw [if_pos hnumeral, if_pos fun hdigits => hnumeral (digits_iff.mp hdigits)]
        rfl

theorem categoryFilter_long {value : List Char} (hvalue : Py.get args "category_id" = some value)
    (hnumeral : IsNumeral value) (hlong : maxDigits < value.length) :
    Py.categoryFilter args = .error (.valueError .tooManyDigits) := by
  unfold Py.categoryFilter
  rw [hvalue]
  dsimp only
  rw [if_neg (not_not.mpr hnumeral), toInt_error hlong]
  rfl

theorem activeFilter_eq (args : Args) :
    Py.activeFilter args = (Rs.activeFilter (Rs.firstValues args)).mapError .api := by
  unfold Py.activeFilter Rs.activeFilter
  rw [lookup_firstValues]
  cases hvalue : args.lookup "active".toList with
  | none =>
      rw [show Py.get args "active" = none from hvalue]
      rfl
  | some value =>
      rw [show Py.get args "active" = some value from hvalue]
      dsimp only
      by_cases htrue : value = "true".toList
      · subst htrue
        rfl
      · by_cases hfalse : value = "false".toList
        · subst hfalse
          rfl
        · rw [if_pos ⟨htrue, hfalse⟩, if_neg htrue, if_neg hfalse]
          rfl

/-! ### The ids -/

theorem mem_dedup {ids : List ℕ} {id : ℕ} : id ∈ Rs.dedup ids ↔ id ∈ ids := by
  fun_induction Rs.dedup ids with
  | case1 rest second ih => rw [ih]; simp
  | case2 first second rest hne ih => simp only [List.mem_cons, ih]
  | case3 => rfl

theorem dedup_sorted {ids : List ℕ} (h : ids.Pairwise (· ≤ ·)) : (Rs.dedup ids).Pairwise (· < ·) := by
  fun_induction Rs.dedup ids with
  | case1 rest second ih => exact ih (List.pairwise_cons.mp h).2
  | case2 first second rest hne ih =>
      obtain ⟨hfirst, hrest⟩ := List.pairwise_cons.mp h
      refine List.pairwise_cons.mpr ⟨fun id hid => ?_, ih hrest⟩
      have hsecond : first < second := lt_of_le_of_ne (hfirst second List.mem_cons_self) hne
      obtain rfl | hid := List.mem_cons.mp (mem_dedup.mp hid)
      · exact hsecond
      · exact lt_of_lt_of_le hsecond ((List.pairwise_cons.mp hrest).1 id hid)
  | case3 ids hshort =>
      cases ids with
      | nil => exact .nil
      | cons first rest =>
          cases rest with
          | nil => exact List.pairwise_singleton _ _
          | cons second rest => exact absurd rfl (hshort first second rest)

/-- Sorting and then dropping repetitions comes to the same as dropping them and then sorting. -/
theorem dedup_insertionSort (ids : List ℕ) :
    Rs.dedup (ids.insertionSort (· ≤ ·)) = ids.dedup.insertionSort (· ≤ ·) := by
  have hleft := dedup_sorted (List.pairwise_insertionSort (· ≤ ·) ids)
  have hright := List.pairwise_insertionSort (· ≤ ·) ids.dedup
  have hperm : (Rs.dedup (ids.insertionSort (· ≤ ·))).Perm (ids.dedup.insertionSort (· ≤ ·)) := by
    refine (List.perm_ext_iff_of_nodup (hleft.imp fun h => h.ne) ?_).mpr fun id => ?_
    · exact (List.perm_insertionSort _ _).nodup_iff.mpr (List.nodup_dedup ids)
    · rw [mem_dedup, (List.perm_insertionSort _ _).mem_iff, (List.perm_insertionSort _ _).mem_iff, List.mem_dedup]
  exact hperm.eq_of_pairwise (fun a b _ _ hab hba => le_antisymm hab hba) (hleft.imp fun h => h.le) hright

theorem isPositive_iff {item : List Char} :
    Py.isPositive item = true ↔ Rs.digits item = true ∧ item.head? ≠ some '0' := by
  unfold Py.isPositive Rs.digits
  cases item with
  | nil => simp
  | cons c item =>
      simp only [List.head?_cons, Option.any_some, List.tail_cons, List.isEmpty_cons, Bool.not_false,
        Bool.true_and,
        List.all_cons, Bool.and_eq_true, decide_eq_true_eq, ne_eq, Option.some.injEq]
      tauto

theorem isIds_iff {value : List Char} : Py.isIds value = true ↔
    ((value.splitOn ',').any fun item => !Rs.digits item || item.head? = some '0') = false := by
  unfold Py.isIds
  rw [List.all_eq_true, List.any_eq_false]
  refine forall₂_congr fun item _ => ?_
  rw [isPositive_iff, Bool.or_eq_true, Bool.not_eq_true', decide_eq_true_eq, not_or, Bool.not_eq_false]

theorem parseId_eq (item : List Char) : Rs.parseId item =
    if value item < 2 ^ 31 then .ok (value item) else .error (invalidQuery "ids" "out_of_range") := by
  unfold Rs.parseId value
  rw [checkedDigits_eq (by decide)]
  by_cases hvalue : Nat.ofDigitChars 10 item 0 < 2 ^ 31
  · rw [if_pos hvalue, if_pos hvalue]
    rfl
  · rw [if_neg hvalue, if_neg hvalue]
    rfl

theorem idsFilter_eq (h : ∀ value ∈ Py.get args "ids", Py.isIds value = true →
      ∀ item ∈ value.splitOn ',', item.length ≤ maxDigits) :
    Py.idsFilter args = (Rs.idsFilter (Rs.firstValues args)).mapError .api := by
  unfold Py.idsFilter Rs.idsFilter
  rw [lookup_firstValues]
  cases hvalue : args.lookup "ids".toList with
  | none =>
      rw [show Py.get args "ids" = none from hvalue]
      rfl
  | some raw =>
      have hget : Py.get args "ids" = some raw := hvalue
      rw [hget]
      dsimp only
      by_cases hids : Py.isIds raw = true
      · have hread : (raw.splitOn ',').mapM Py.toInt = .ok ((raw.splitOn ',').map value) :=
          Grouping.mapM_ok fun item hitem => toInt_ok (h _ hget hids item hitem)
        rw [if_neg (not_not.mpr hids), if_neg (Bool.not_eq_true _ ▸ isIds_iff.mp hids), hread]
        change (if maxBatchIds < ((raw.splitOn ',').map value).length then _ else _) = _
        rw [List.length_map]
        by_cases hmany : maxBatchIds < (raw.splitOn ',').length
        · rw [if_pos hmany, if_pos hmany]
          rfl
        · rw [if_neg hmany, if_neg hmany]
          by_cases hlarge : ((raw.splitOn ',').map value).any (2147483647 < ·) = true
          · obtain ⟨_, hmem, hover⟩ := List.any_eq_true.mp hlarge
            obtain ⟨item, hitem, rfl⟩ := List.mem_map.mp hmem
            have hover := of_decide_eq_true hover
            have hraised : (raw.splitOn ',').mapM Rs.parseId = .error (invalidQuery "ids" "out_of_range") := by
              refine Grouping.mapM_error (fun item' _ => ?_) ⟨item, hitem, ?_⟩
              · rw [parseId_eq]
                split_ifs
                · exact .inl ⟨_, rfl⟩
                · exact .inr rfl
              · rw [parseId_eq, if_neg (by omega)]
            rw [if_pos hlarge, hraised]
            rfl
          · have hread' : (raw.splitOn ',').mapM Rs.parseId = .ok ((raw.splitOn ',').map value) := by
              refine Grouping.mapM_ok fun item hitem => ?_
              rw [parseId_eq, if_pos]
              by_contra hover
              exact hlarge (List.any_eq_true.mpr ⟨_, List.mem_map_of_mem hitem, decide_eq_true (by omega)⟩)
            rw [if_neg hlarge, hread']
            change _ = Except.ok (some (Rs.dedup (((raw.splitOn ',').map value).insertionSort (· ≤ ·))))
            rw [dedup_insertionSort]
            rfl
      · rw [if_pos hids, if_pos (Bool.not_eq_false _ ▸ fun hnone => hids (isIds_iff.mpr hnone))]
        rfl

theorem idsFilter_long {raw item : List Char} (hvalue : Py.get args "ids" = some raw) (hids : Py.isIds raw = true)
    (hitem : item ∈ raw.splitOn ',') (hlong : maxDigits < item.length) :
    Py.idsFilter args = .error (.valueError .tooManyDigits) := by
  have hraised : (raw.splitOn ',').mapM Py.toInt = .error (.valueError .tooManyDigits) := by
    refine Grouping.mapM_error (fun item' _ => ?_) ⟨item, hitem, toInt_error hlong⟩
    by_cases hlength : item'.length ≤ maxDigits
    · exact .inl ⟨_, toInt_ok hlength⟩
    · exact .inr (toInt_error (Nat.not_le.mp hlength))
  unfold Py.idsFilter
  rw [hvalue]
  dsimp only
  rw [if_neg (not_not.mpr hids), hraised]
  rfl

/-! ### What is accepted, and what a refusal names -/

/-- A number of a category that may exist. -/
def CategoryFits (args : Args) : Prop :=
  ∀ raw ∈ Py.get args "category_id", IsNumeral raw ∧ 1 ≤ value raw ∧ value raw ≤ 32767

/-- One of the two words. -/
def ActiveFits (args : Args) : Prop :=
  ∀ raw ∈ Py.get args "active", raw = "true".toList ∨ raw = "false".toList

/-- A refusal whose one detail is about a parameter. -/
def Names (name : String) (e : ApiError) : Prop := ∃ code, e.details = [⟨name, code⟩]

theorem names_invalidQuery (name code : String) : Names name (invalidQuery name code) := ⟨code, rfl⟩

theorem textFilter_verdict (args : Args) (name : String) (maximum : ℕ) :
    (TextFits args name maximum ∧ Rs.textFilter (Rs.firstValues args) name maximum = .ok (Py.get args name)) ∨
      (¬ TextFits args name maximum ∧
        ∃ e, Rs.textFilter (Rs.firstValues args) name maximum = .error e ∧ Names name e) := by
  unfold TextFits Rs.textFilter
  rw [lookup_firstValues]
  change (_ ∧ _ = Except.ok (args.lookup name.toList)) ∨ _
  unfold Py.get
  cases args.lookup name.toList with
  | none => exact .inl ⟨by simp, rfl⟩
  | some raw =>
      by_cases hempty : raw.length = 0
      · exact .inr ⟨fun h => absurd (h raw rfl).1 (by omega), _, if_pos hempty, names_invalidQuery _ _⟩
      · by_cases hlong : maximum < raw.length
        · refine .inr ⟨fun h => absurd (h raw rfl).2 (by omega), invalidQuery name "too_long", ?_,
            names_invalidQuery _ _⟩
          dsimp only
          rw [if_neg hempty, if_pos hlong]
          rfl
        · refine .inl ⟨fun raw' hraw' => ?_, ?_⟩
          · obtain rfl := Option.some.inj hraw'
            omega
          · dsimp only
            rw [if_neg hempty, if_neg hlong]
            rfl

theorem categoryFilter_verdict (args : Args) :
    (CategoryFits args ∧ ∃ id, Rs.categoryFilter (Rs.firstValues args) = .ok id) ∨
      (¬ CategoryFits args ∧
        ∃ e, Rs.categoryFilter (Rs.firstValues args) = .error e ∧ Names "category_id" e) := by
  unfold CategoryFits Rs.categoryFilter
  rw [lookup_firstValues]
  unfold Py.get
  cases args.lookup "category_id".toList with
  | none => exact .inl ⟨by simp, none, rfl⟩
  | some raw =>
      dsimp only
      by_cases hnumeral : IsNumeral raw
      · rw [if_neg (not_not.mpr (digits_iff.mpr hnumeral)), checkedDigits_eq (by decide)]
        by_cases hrange : 1 ≤ value raw ∧ value raw ≤ 32767
        · refine .inl ⟨fun raw' hraw' => ?_, some (value raw), ?_⟩
          · obtain rfl := Option.some.inj hraw'
            exact ⟨hnumeral, hrange⟩
          · unfold value at hrange ⊢
            rw [if_pos (by omega)]
            exact if_pos hrange
        · refine .inr ⟨fun h => hrange (h raw rfl).2, invalidQuery "category_id" "out_of_range", ?_,
            names_invalidQuery _ _⟩
          split
          · rename_i number hnumber
            obtain ⟨-, hnumber⟩ := Option.ite_none_right_eq_some.mp hnumber
            obtain rfl := Option.some.inj hnumber
            exact if_neg hrange
          · rfl
      · exact .inr ⟨fun h => hnumeral (h raw rfl).1, _, if_pos fun hdigits => hnumeral (digits_iff.mp hdigits),
          names_invalidQuery _ _⟩

theorem activeFilter_verdict (args : Args) :
    (ActiveFits args ∧ ∃ active, Rs.activeFilter (Rs.firstValues args) = .ok active) ∨
      (¬ ActiveFits args ∧ ∃ e, Rs.activeFilter (Rs.firstValues args) = .error e ∧ Names "active" e) := by
  unfold ActiveFits Rs.activeFilter
  rw [lookup_firstValues]
  unfold Py.get
  cases args.lookup "active".toList with
  | none => exact .inl ⟨by simp, none, rfl⟩
  | some raw =>
      dsimp only
      by_cases htrue : raw = "true".toList
      · refine .inl ⟨fun raw' hraw' => ?_, some true, if_pos htrue⟩
        obtain rfl := Option.some.inj hraw'
        exact .inl htrue
      · rw [if_neg htrue]
        by_cases hfalse : raw = "false".toList
        · refine .inl ⟨fun raw' hraw' => ?_, some false, if_pos hfalse⟩
          obtain rfl := Option.some.inj hraw'
          exact .inr hfalse
        · exact .inr ⟨fun h => (h raw rfl).elim htrue hfalse, _, if_neg hfalse, names_invalidQuery _ _⟩

theorem idsFilter_names {e : ApiError} (h : Rs.idsFilter (Rs.firstValues args) = .error e) : Names "ids" e := by
  unfold Rs.idsFilter at h
  rw [lookup_firstValues] at h
  cases hvalue : args.lookup "ids".toList with
  | none =>
      rw [hvalue] at h
      cases h
  | some raw =>
      rw [hvalue] at h
      dsimp only at h
      split_ifs at h
      · obtain rfl := Except.error.inj h
        exact names_invalidQuery _ _
      · obtain rfl := Except.error.inj h
        exact ⟨_, rfl⟩
      · cases hread : (raw.splitOn ',').mapM Rs.parseId with
        | ok ids =>
            rw [hread] at h
            cases h
        | error raised =>
            rw [hread] at h
            obtain rfl := Except.error.inj h
            obtain ⟨item, -, hitem⟩ := Grouping.exists_of_mapM_error hread
            rw [parseId_eq] at hitem
            split_ifs at hitem
            obtain rfl := Except.error.inj hitem
            exact names_invalidQuery _ _

/-! ### The whole query -/

/-- What products-service makes of a query is what its twin makes of it. -/
inductive Alike : Except Py.Raised Filters → Except ApiError Filters → Prop where
  | accepted (filters : Filters) : Alike (.ok filters) (.ok filters)
  | refused (error twin : ApiError) (hcode : error.code = twin.code) (hdetails : error.details = twin.details) :
      Alike (.error (.api error)) (.error twin)

theorem alike_mapError (result : Except ApiError Filters) : Alike (result.mapError .api) result := by
  cases result with
  | ok filters => exact .accepted filters
  | error e => exact .refused e e rfl rfl

/-- No filter that is read holds what only one of the two can read: a NUL, or a run of too many digits. -/
structure Readable (args : Args) : Prop where
  q : TextStorable args "q" 150
  sku : TextFits args "q" 150 → TextStorable args "sku" 40
  category : TextFits args "q" 150 → TextFits args "sku" 40 →
    ∀ raw ∈ Py.get args "category_id", IsNumeral raw → raw.length ≤ maxDigits
  ids : TextFits args "q" 150 → TextFits args "sku" 40 → CategoryFits args → ActiveFits args →
    ∀ raw ∈ Py.get args "ids", Py.isIds raw = true → ∀ item ∈ raw.splitOn ',', item.length ≤ maxDigits

theorem listProducts_eq (h : Readable args) : Py.listProducts args = (Rs.parseFilters args).mapError .api := by
  unfold Py.listProducts Rs.parseFilters
  dsimp only
  rw [textFilter_eq h.q]
  obtain ⟨hq, hqs⟩ | ⟨-, e, hqs, -⟩ := textFilter_verdict args "q" 150
  swap
  · rw [hqs]
    rfl
  rw [textFilter_eq (h.sku hq)]
  obtain ⟨hsku, hskus⟩ | ⟨-, e, hskus, -⟩ := textFilter_verdict args "sku" 40
  swap
  · rw [hqs, hskus]
    rfl
  rw [categoryFilter_eq (h.category hq hsku)]
  obtain ⟨hcategory, id, hids⟩ | ⟨-, e, hids, -⟩ := categoryFilter_verdict args
  swap
  · rw [hqs, hskus, hids]
    rfl
  rw [activeFilter_eq]
  obtain ⟨hactive, active, hactives⟩ | ⟨-, e, hactives, -⟩ := activeFilter_verdict args
  swap
  · rw [hqs, hskus, hids, hactives]
    rfl
  rw [idsFilter_eq (h.ids hq hsku hcategory hactive), hqs, hskus, hids, hactives]
  cases Rs.idsFilter (Rs.firstValues args) <;> rfl

theorem parseFilters_names {e : ApiError} (h : Rs.parseFilters args = .error e) :
    (¬ TextFits args "q" 150 ∧ Names "q" e) ∨
      (TextFits args "q" 150 ∧ ¬ TextFits args "sku" 40 ∧ Names "sku" e) ∨
      (TextFits args "sku" 40 ∧ (Names "category_id" e ∨ Names "active" e ∨ Names "ids" e)) := by
  unfold Rs.parseFilters at h
  dsimp only at h
  obtain ⟨hq, hqs⟩ | ⟨hq, raised, hqs, hnames⟩ := textFilter_verdict args "q" 150
  swap
  · rw [hqs] at h
    obtain rfl := Except.error.inj h
    exact .inl ⟨hq, hnames⟩
  obtain ⟨hsku, hskus⟩ | ⟨hsku, raised, hskus, hnames⟩ := textFilter_verdict args "sku" 40
  swap
  · rw [hqs, hskus] at h
    obtain rfl := Except.error.inj h
    exact .inr (.inl ⟨hq, hsku, hnames⟩)
  refine .inr (.inr ⟨hsku, ?_⟩)
  obtain ⟨-, id, hids⟩ | ⟨-, raised, hids, hnames⟩ := categoryFilter_verdict args
  swap
  · rw [hqs, hskus, hids] at h
    obtain rfl := Except.error.inj h
    exact .inl hnames
  obtain ⟨-, active, hactives⟩ | ⟨-, raised, hactives, hnames⟩ := activeFilter_verdict args
  swap
  · rw [hqs, hskus, hids, hactives] at h
    obtain rfl := Except.error.inj h
    exact .inr (.inl hnames)
  rw [hqs, hskus, hids, hactives] at h
  cases hlast : Rs.idsFilter (Rs.firstValues args) with
  | ok ids =>
      rw [hlast] at h
      cases h
  | error raised =>
      rw [hlast] at h
      obtain rfl := Except.error.inj h
      exact .inr (.inr (idsFilter_names hlast))

theorem names_of_alike {name code : String} {py : Except Py.Raised Filters}
    (hpy : py = .error (.api (invalidQuery name code))) (h : Alike py (Rs.parseFilters args)) :
    ∃ e, Rs.parseFilters args = .error e ∧ Names name e := by
  subst hpy
  generalize hrs : Rs.parseFilters args = rs at h
  cases h with
  | refused _ twin _ hdetails => exact ⟨twin, rfl, code, hdetails.symm⟩

theorem not_alike_valueError {py : Except Py.Raised Filters} {e : ValueError} {rs : Except ApiError Filters}
    (hpy : py = .error (.valueError e)) : ¬ Alike py rs := by
  subst hpy
  intro h
  cases h

theorem names_inj {name name' : String} {e : ApiError} (h : Names name e) (h' : Names name' e) : name = name' := by
  obtain ⟨code, hcode⟩ := h
  obtain ⟨code', hcode'⟩ := h'
  exact congrArg Detail.field (List.cons.inj (hcode.symm.trans hcode')).1

theorem textStorable_q (h : Alike (Py.listProducts args) (Rs.parseFilters args)) : TextStorable args "q" 150 := by
  intro raw hraw hlow hhigh hnul
  have hpy : Py.listProducts args = .error (.api (invalidQuery "q" "invalid_format")) := by
    unfold Py.listProducts
    rw [(textFilter_nul hraw hlow hhigh hnul).1]
    rfl
  have hfits : TextFits args "q" 150 := textFits_some hraw hlow hhigh
  obtain ⟨e, hrs, hname⟩ := names_of_alike hpy h
  obtain ⟨hq, -⟩ | ⟨-, -, hsku⟩ | ⟨-, hcategory | hactive | hids⟩ := parseFilters_names hrs
  · exact hq hfits
  · exact absurd (names_inj hname hsku) (by decide)
  · exact absurd (names_inj hname hcategory) (by decide)
  · exact absurd (names_inj hname hactive) (by decide)
  · exact absurd (names_inj hname hids) (by decide)

theorem textFilter_fits {name : String} {maximum : ℕ} (hfits : TextFits args name maximum)
    (hstorable : TextStorable args name maximum) : Py.textFilter args name maximum = .ok (Py.get args name) := by
  rw [textFilter_eq hstorable]
  obtain ⟨-, hok⟩ | ⟨hnot, -⟩ := textFilter_verdict args name maximum
  · rw [hok]
    rfl
  · exact absurd hfits hnot

theorem textStorable_sku (hq : TextFits args "q" 150)
    (h : Alike (Py.listProducts args) (Rs.parseFilters args)) : TextStorable args "sku" 40 := by
  intro raw hraw hlow hhigh hnul
  have hpy : Py.listProducts args = .error (.api (invalidQuery "sku" "invalid_format")) := by
    unfold Py.listProducts
    rw [textFilter_fits hq (textStorable_q h), (textFilter_nul hraw hlow hhigh hnul).1]
    rfl
  have hfits : TextFits args "sku" 40 := textFits_some hraw hlow hhigh
  obtain ⟨e, hrs, hname⟩ := names_of_alike hpy h
  obtain ⟨hnot, -⟩ | ⟨-, hnot, -⟩ | ⟨-, hcategory | hactive | hids⟩ := parseFilters_names hrs
  · exact hnot hq
  · exact hnot hfits
  · exact absurd (names_inj hname hcategory) (by decide)
  · exact absurd (names_inj hname hactive) (by decide)
  · exact absurd (names_inj hname hids) (by decide)

theorem category_short (hq : TextFits args "q" 150) (hsku : TextFits args "sku" 40)
    (h : Alike (Py.listProducts args) (Rs.parseFilters args)) :
    ∀ raw ∈ Py.get args "category_id", IsNumeral raw → raw.length ≤ maxDigits := by
  intro raw hraw hnumeral
  by_contra hlong
  refine not_alike_valueError (e := .tooManyDigits) ?_ h
  unfold Py.listProducts
  rw [textFilter_fits hq (textStorable_q h), textFilter_fits hsku (textStorable_sku hq h),
    categoryFilter_long hraw hnumeral (Nat.not_le.mp hlong)]
  rfl

theorem ids_short (hq : TextFits args "q" 150) (hsku : TextFits args "sku" 40) (hcategory : CategoryFits args)
    (hactive : ActiveFits args) (h : Alike (Py.listProducts args) (Rs.parseFilters args)) :
    ∀ raw ∈ Py.get args "ids", Py.isIds raw = true → ∀ item ∈ raw.splitOn ',', item.length ≤ maxDigits := by
  intro raw hraw hids item hitem
  by_contra hlong
  refine not_alike_valueError (e := .tooManyDigits) ?_ h
  unfold Py.listProducts
  rw [textFilter_fits hq (textStorable_q h), textFilter_fits hsku (textStorable_sku hq h),
    categoryFilter_eq (category_short hq hsku h), activeFilter_eq,
      idsFilter_long hraw hids hitem (Nat.not_le.mp hlong)]
  obtain ⟨-, id, hid⟩ | ⟨hnot, -⟩ := categoryFilter_verdict args
  swap
  · exact absurd hcategory hnot
  obtain ⟨-, active, hactives⟩ | ⟨hnot, -⟩ := activeFilter_verdict args
  swap
  · exact absurd hactive hnot
  rw [hid, hactives]
  rfl

theorem readable_iff : Readable args ↔ Alike (Py.listProducts args) (Rs.parseFilters args) := by
  constructor
  · intro h
    rw [listProducts_eq h]
    exact alike_mapError _
  · intro h
    exact ⟨textStorable_q h, fun hq => textStorable_sku hq h, fun hq hsku => category_short hq hsku h,
      fun hq hsku hcategory hactive => ids_short hq hsku hcategory hactive h⟩

end Filters

/-- Of a query that decodes, the two make the same exactly when they read nothing that only one of them can. -/
theorem listProducts_alike_iff (decode : List UInt8 → Option (List Char))
    (onInvalid onInvalid' : List Char → List Char)
    (query : List Char) (hquery : FormQuery.Decodes decode query) :
    Alike (Py.listProducts (FormQuery.pairs decode onInvalid query))
        (Rs.parseFilters (FormQuery.pairs decode onInvalid' query)) ↔
      Readable (FormQuery.pairs decode onInvalid query) := by
  rw [FormQuery.pairs_alike hquery onInvalid' onInvalid]
  exact readable_iff.symm

def ascii (bytes : List UInt8) : Option (List Char) :=
  if bytes.all (· < 128) then some (bytes.map fun b => Char.ofNat b.toNat) else none

theorem listProducts_alike_ids :
    Alike (Py.listProducts (FormQuery.pairs ascii id "q=a+b&q=&ids=7,3,7".toList))
        (Rs.parseFilters (FormQuery.pairs ascii id "q=a+b&q=&ids=7,3,7".toList)) ↔
      Readable (FormQuery.pairs ascii id "q=a+b&q=&ids=7,3,7".toList) :=
  listProducts_alike_iff ascii id id "q=a+b&q=&ids=7,3,7".toList (by decide)

/-- The service refuses a NUL that its twin goes on to give to the database. -/
theorem listProducts_nul :
    Py.listProducts (FormQuery.pairs ascii id "q=%00".toList) = .error (.api (invalidQuery "q" "invalid_format")) ∧
      Rs.parseFilters (FormQuery.pairs ascii id "q=%00".toList) =
        .ok ⟨some [Char.ofNat 0], none, none, none, none⟩ ∧
      ¬ Alike (Py.listProducts (FormQuery.pairs ascii id "q=%00".toList))
        (Rs.parseFilters (FormQuery.pairs ascii id "q=%00".toList)) := by
  have hpy : Py.listProducts (FormQuery.pairs ascii id "q=%00".toList) =
      .error (.api (invalidQuery "q" "invalid_format")) := by decide
  have hrs : Rs.parseFilters (FormQuery.pairs ascii id "q=%00".toList) =
      .ok ⟨some [Char.ofNat 0], none, none, none, none⟩ := by decide
  refine ⟨hpy, hrs, ?_⟩
  rw [hpy, hrs]
  intro h
  cases h

end RetailSegmentation.ProductFilters
