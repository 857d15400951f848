import RetailSegmentation.SalesLoad

/-! Spellings of one sale: rows whose texts, offsets and decimals differ and denote the same values. A row's
own checks do not tell them apart. -/

namespace RetailSegmentation.Sales

open Program

/-! ### Equal decimals -/

namespace Decimal

/-- `==` of two decimals: coefficients are compared at the lesser exponent, and the zeros are equal. -/
def SameNumber : Decimal → Decimal → Prop
  | finite negative coefficient exponent, finite negative' coefficient' exponent' =>
    coefficient * 10 ^ (exponent - min exponent exponent').toNat =
      coefficient' * 10 ^ (exponent' - min exponent exponent').toNat ∧
    (negative = negative' ∨ coefficient = 0)
  | infinite negative, infinite negative' => negative = negative'
  | _, _ => False

/-- So many cents are the coefficient times its power of ten. -/
def Scaled (coefficient : ℕ) (exponent : ℤ) (cents : ℕ) : Prop :=
  coefficient * 10 ^ (exponent + 2).toNat = cents * 10 ^ (-2 - exponent).toNat

theorem scaled_shift {coefficient : ℕ} {exponent lesser : ℤ} (hle : lesser ≤ exponent) (cents : ℕ) :
    Scaled coefficient exponent cents ↔ Scaled (coefficient * 10 ^ (exponent - lesser).toNat) lesser cents := by
  have hsum : (exponent + 2).toNat + (-2 - lesser).toNat =
      (exponent - lesser).toNat + (lesser + 2).toNat + (-2 - exponent).toNat := by omega
  have hpos : 0 < 10 ^ (-2 - lesser).toNat := Nat.pow_pos (by decide)
  have hpos' : 0 < 10 ^ (-2 - exponent).toNat := Nat.pow_pos (by decide)
  have hleft : coefficient * 10 ^ (exponent + 2).toNat * 10 ^ (-2 - lesser).toNat =
      coefficient * 10 ^ (exponent - lesser).toNat * 10 ^ (lesser + 2).toNat * 10 ^ (-2 - exponent).toNat := by
    rw [mul_assoc, ← pow_add, hsum, pow_add, pow_add, ← mul_assoc, ← mul_assoc]
  unfold Scaled
  rw [← Nat.mul_left_inj hpos.ne', hleft, mul_right_comm cents, Nat.mul_left_inj hpos'.ne']

theorem roundHalfEven_exact {n d : ℕ} (hd : 0 < d) : roundHalfEven (n * d) d = n := by
  unfold roundHalfEven
  rw [Nat.mul_mod_left, Nat.mul_div_cancel n hd]
  exact if_pos (Or.inl (by omega))

theorem quantize_iff {negative : Bool} {coefficient : ℕ} {exponent : ℤ} {cents : ℕ} :
    (quantizeCent (finite negative coefficient exponent) = some cents ∧
      isCents cents (finite negative coefficient exponent) = true) ↔
      Scaled coefficient exponent cents ∧ cents < 10 ^ 28 := by
  unfold quantizeCent isCents Scaled
  by_cases hexponent : -2 ≤ exponent
  · have hzero : (-2 - exponent).toNat = 0 := by omega
    simp only [if_pos hexponent, hzero, pow_zero, mul_one, beq_iff_eq]
    constructor
    · rintro ⟨hquantize, rfl⟩
      split_ifs at hquantize with hlt
      exact ⟨rfl, hlt⟩
    · rintro ⟨rfl, hlt⟩
      exact ⟨if_pos hlt, rfl⟩
  · have hzero : (exponent + 2).toNat = 0 := by omega
    have hpos : 0 < 10 ^ (-2 - exponent).toNat := Nat.pow_pos (by decide)
    simp only [if_neg hexponent, hzero, pow_zero, mul_one, beq_iff_eq]
    constructor
    · rintro ⟨hquantize, rfl⟩
      rw [roundHalfEven_exact hpos] at hquantize
      split_ifs at hquantize with hlt
      exact ⟨rfl, hlt⟩
    · rintro ⟨rfl, hlt⟩
      rw [roundHalfEven_exact hpos]
      exact ⟨if_pos hlt, rfl⟩

variable {d d' : Decimal}

theorem SameNumber.isFinite (h : SameNumber d d') : d.isFinite = d'.isFinite := by
  cases d <;> cases d' <;> first | rfl | cases h

theorem SameNumber.notPositive (h : SameNumber d d') : d.notPositive = d'.notPositive := by
  cases d with
  | finite negative coefficient exponent =>
      cases d' with
      | finite negative' coefficient' exponent' =>
          obtain ⟨hvalue, hsign⟩ := h
          have hzero : coefficient = 0 ↔ coefficient' = 0 := by
            have hpos : ∀ n : ℕ, (10 ^ n : ℕ) ≠ 0 := fun n => (Nat.pow_pos (by decide)).ne'
            constructor
            · rintro rfl
              rw [Nat.zero_mul] at hvalue
              exact (Nat.mul_eq_zero.mp hvalue.symm).resolve_right (hpos _)
            · rintro rfl
              rw [Nat.zero_mul] at hvalue
              exact (Nat.mul_eq_zero.mp hvalue).resolve_right (hpos _)
          have hbeq : (coefficient == 0) = (coefficient' == 0) := by simpa using hzero
          unfold Decimal.notPositive
          obtain rfl | rfl := hsign
          · simp only [hbeq]
          · simp [hzero.mp rfl]
      | infinite negative' => cases h
      | nan => cases h
  | infinite negative => cases d' <;> first | rfl | cases h
  | nan => cases d' <;> cases h

theorem SameNumber.quantize (h : SameNumber d d') (cents : ℕ) :
    (d.quantizeCent = some cents ∧ d.isCents cents = true) ↔
      d'.quantizeCent = some cents ∧ d'.isCents cents = true := by
  cases d with
  | finite negative coefficient exponent =>
      cases d' with
      | finite negative' coefficient' exponent' =>
          rw [quantize_iff, quantize_iff, scaled_shift (min_le_left exponent exponent'), h.1,
            ← scaled_shift (min_le_right exponent exponent')]
      | infinite negative' => cases h
      | nan => cases h
  | infinite negative => cases d' <;> first | exact Iff.rfl | cases h
  | nan => cases d' <;> cases h

end Decimal

/-- The last of a row's own checks. -/
def priceOf (source : String) (unitPrice : Decimal) : Except Rejection (String × ℤ) :=
  match unitPrice.quantizeCent with
  | none => .error .priceDecimals
  | some cents => if unitPrice.isCents cents then .ok (source, cents) else .error .priceDecimals

theorem priceOf_ok {source : String} {d : Decimal} {cents : ℕ}
    (h : d.quantizeCent = some cents ∧ d.isCents cents = true) :
    priceOf source d = .ok (source, (cents : ℤ)) := by
  unfold priceOf
  simp only [h.1, h.2, if_true]

theorem priceOf_error {source : String} {d : Decimal}
    (h : ∀ cents, ¬ (d.quantizeCent = some cents ∧ d.isCents cents = true)) :
      priceOf source d = .error .priceDecimals := by
  unfold priceOf
  cases hquantize : d.quantizeCent with
  | none => rfl
  | some cents => exact if_neg fun hcents => h cents ⟨hquantize, hcents⟩

theorem priceOf_eq {d d' : Decimal} (h : d.SameNumber d') (source : String) :
    priceOf source d = priceOf source d' := by
  by_cases hcents : ∃ cents, d.quantizeCent = some cents ∧ d.isCents cents = true
  · obtain ⟨cents, hcents⟩ := hcents
    rw [priceOf_ok hcents, priceOf_ok ((h.quantize cents).mp hcents)]
  · rw [priceOf_error (not_exists.mp hcents), priceOf_error fun cents hsame =>
      hcents ⟨cents, (h.quantize cents).mpr hsame⟩]

/-! ### Spellings -/

/-- A text that reaches PostgreSQL and is read as this UUID. -/
def Postgres.Reads (pg : Postgres) (text customer : String) : Prop :=
  hasNul text = false ∧ pg.uuidIn text = some customer

/-- Two rows that denote the same sale line: ids up to the spaces around them, customers that PostgreSQL reads
as one UUID, one instant at two offsets, and equal numbers. -/
structure SameSale (pg : Postgres) (row row' : SalesRow) : Prop where
  source : strip row.sourceTransactionId = strip row'.sourceTransactionId
  customer : ∃ customer, pg.Reads row.customerId customer ∧ pg.Reads row'.customerId customer
  storeId : row.storeId = row'.storeId
  channelId : row.channelId = row'.channelId
  aware : row.occurredAt.utcOffset ≠ none ∧ row'.occurredAt.utcOffset ≠ none
  occurredAt : row.occurredAt.instant = row'.occurredAt.instant
  productId : row.productId = row'.productId
  quantity : row.quantity = row'.quantity
  unitPrice : row.unitPrice.SameNumber row'.unitPrice

namespace SameSale

variable {pg : Postgres} {row row' : SalesRow} (h : SameSale pg row row')

include h

theorem checkRow_eq (now : Instant) : checkRow now row = checkRow now row' := by
  have hprice : ∀ source, priceOf source row.unitPrice = priceOf source row'.unitPrice := priceOf_eq h.unitPrice
  unfold checkRow
  simp only [h.source, h.occurredAt, h.quantity, h.unitPrice.isFinite, h.unitPrice.notPositive, if_neg h.aware.1,
    if_neg h.aware.2]
  split_ifs <;> first | rfl | exact hprice _

theorem saleReferences_eq (cat : Catalog) (productId : ℤ) :
    saleReferences pg cat row.customerId productId = saleReferences pg cat row'.customerId productId := by
  obtain ⟨customer, ⟨hnul, hread⟩, hnul', hread'⟩ := h.customer
  unfold saleReferences
  rw [hnul, hnul', hread, hread']

end SameSale

end RetailSegmentation.Sales
