import Mathlib.Algebra.Order.Ring.Int
import Mathlib.Data.Char
import Mathlib.Data.List.Basic
import Mathlib.Data.Nat.Notation
import Mathlib.Tactic.Common

/-! Texts that determine what they were written from, whatever follows them: numbers, fields of a fixed width,
strings in quotes and lists of items. -/

namespace TextCodes

variable {α β τ : Type}

/-- The code of a value is told from any other's, and from what follows it. -/
def SelfDelimiting (P : α → Prop) (code : α → List τ) : Prop :=
  ∀ a b s t, P a → P b → code a ++ s = code b ++ t → a = b ∧ s = t

namespace SelfDelimiting

variable {P : α → Prop} {code : α → List τ}

/-- Codes of one length need only differ. -/
theorem of_length {n : ℕ} (hlength : ∀ a, P a → (code a).length = n)
    (hinj : ∀ a b, P a → P b → code a = code b → a = b) : SelfDelimiting P code := by
  intro a b s t ha hb h
  obtain ⟨hcode, hrest⟩ := List.append_inj h ((hlength a ha).trans (hlength b hb).symm)
  exact ⟨hinj a b ha hb hcode, hrest⟩

/-- Concatenated codes, up to something that no code starts with. -/
theorem flatMap (h : SelfDelimiting P code) (stop : List τ → Prop)
    (hstop : ∀ a s t, P a → stop t → code a ++ s ≠ t) {as bs : List α} {s t : List τ} (has : ∀ a ∈ as, P a)
    (hbs : ∀ b ∈ bs, P b) (hs : stop s) (ht : stop t) (heq : as.flatMap code ++ s = bs.flatMap code ++ t) :
    as = bs ∧ s = t := by
  induction as generalizing bs with
  | nil =>
      cases bs with
      | nil => exact ⟨rfl, heq⟩
      | cons b bs =>
          rw [List.flatMap_nil, List.nil_append, List.flatMap_cons, List.append_assoc] at heq
          exact absurd heq.symm (hstop b _ s (hbs b List.mem_cons_self) hs)
  | cons a as ih =>
      obtain ⟨ha, has⟩ := List.forall_mem_cons.mp has
      rw [List.flatMap_cons, List.append_assoc] at heq
      cases bs with
      | nil => exact absurd heq (hstop a _ t ha ht)
      | cons b bs =>
          obtain ⟨hb, hbs⟩ := List.forall_mem_cons.mp hbs
          rw [List.flatMap_cons, List.append_assoc] at heq
          obtain ⟨hsame, hrest⟩ := h a b _ _ ha hb heq
          obtain ⟨htail, hend⟩ := ih has hbs hrest
          exact ⟨congrArg₂ List.cons hsame htail, hend⟩

end SelfDelimiting

/-- Two runs of characters of a kind that both end where other characters follow. -/
theorem append_inj_of_stop {D : τ → Prop} {a b s t : List τ} (ha : ∀ c ∈ a, D c) (hb : ∀ c ∈ b, D c)
    (hs : ∀ c ∈ s.head?, ¬ D c) (ht : ∀ c ∈ t.head?, ¬ D c) (h : a ++ s = b ++ t) : a = b ∧ s = t := by
  induction a generalizing b with
  | nil =>
      cases b with
      | nil => exact ⟨rfl, h⟩
      | cons c b =>
          rw [List.nil_append] at h
          exact absurd (hb c List.mem_cons_self) (hs c (by rw [h]; rfl))
  | cons c a ih =>
      cases b with
      | nil =>
          rw [List.nil_append] at h
          exact absurd (ha c List.mem_cons_self) (ht c (by rw [← h]; rfl))
      | cons d b =>
          obtain ⟨rfl, hrest⟩ := List.cons.inj h
          obtain ⟨rfl, hend⟩ := ih (fun c hc => ha c (List.mem_cons_of_mem _ hc))
            (fun c hc => hb c (List.mem_cons_of_mem _ hc)) hrest
          exact ⟨rfl, hend⟩

/-! ### Numbers -/

/-- The decimal digits of a natural number. -/
def natText (n : ℕ) : List Char := Nat.toDigits 10 n

theorem natText_injective {n m : ℕ} (h : natText n = natText m) : n = m := by
  have := congrArg (fun text => Nat.ofDigitChars 10 text 0) h
  simpa [natText, Nat.ofDigitChars_ten_toDigits] using this

theorem isDigit_of_mem_natText {n : ℕ} {c : Char} (hc : c ∈ natText n) : c.isDigit = true :=
  Nat.isDigit_of_mem_toDigits (by decide) (by decide) hc

theorem ofDigitChars_zero_cons (digits : List Char) :
    Nat.ofDigitChars 10 ('0' :: digits) 0 = Nat.ofDigitChars 10 digits 0 := by
  rw [Nat.ofDigitChars_cons]
  rfl

theorem ofDigitChars_dropWhile_zero (digits : List Char) :
    Nat.ofDigitChars 10 (digits.dropWhile (· = '0')) 0 = Nat.ofDigitChars 10 digits 0 := by
  induction digits with
  | nil => rfl
  | cons c digits ih =>
      by_cases hzero : c = '0'
      · rw [hzero, List.dropWhile_cons_of_pos (by decide), ih, ofDigitChars_zero_cons]
      · rw [List.dropWhile_cons_of_neg (by simpa using hzero)]

theorem le_ofDigitChars (digits : List Char) (value : ℕ) : value ≤ Nat.ofDigitChars 10 digits value := by
  induction digits generalizing value with
  | nil => rw [Nat.ofDigitChars_nil]
  | cons c digits ih =>
      rw [Nat.ofDigitChars_cons]
      exact le_trans (by omega) (ih _)

theorem one_le_digit {c : Char} (hc : c.isDigit = true) (hne : c ≠ '0') : 1 ≤ c.toNat - '0'.toNat := by
  obtain ⟨hlow, -⟩ := Char.isDigit_iff_toNat.mp hc
  have hne' : c.toNat ≠ '0'.toNat := fun heq => hne (Char.toNat_inj.mp heq)
  omega

theorem pow_le_ofDigitChars {c : Char} (hc : c.isDigit = true) (hne : c ≠ '0') (rest : List Char) :
    10 ^ rest.length ≤ Nat.ofDigitChars 10 (c :: rest) 0 := by
  rw [Nat.ofDigitChars_cons, Nat.ofDigitChars_eq_ofDigitChars_zero]
  have hmul := Nat.mul_le_mul_left (10 ^ rest.length) (one_le_digit hc hne)
  rw [Nat.mul_zero, Nat.zero_add]
  omega

/-- Digits read one by one into a number of a bounded type, whose product and sum are checked. -/
def checkedDigits (bound : ℕ) (digits : List Char) : Option ℕ :=
  digits.foldlM (fun value c =>
    if value * 10 < bound then
      let value := value * 10 + (c.toNat - '0'.toNat)
      if value < bound then some value else none
    else none) 0

/-- The checks of each step refuse exactly the numbers that are too large in the end. -/
theorem checkedDigits_eq {bound : ℕ} (hbound : 0 < bound) (digits : List Char) : checkedDigits bound digits =
    if Nat.ofDigitChars 10 digits 0 < bound then some (Nat.ofDigitChars 10 digits 0) else none := by
  unfold checkedDigits
  generalize (0 : ℕ) = value at hbound ⊢
  induction digits generalizing value with
  | nil =>
      rw [Nat.ofDigitChars_nil, if_pos hbound]
      rfl
  | cons c digits ih =>
      have hgrows := le_ofDigitChars digits (10 * value + (c.toNat - '0'.toNat))
      rw [List.foldlM_cons, Nat.ofDigitChars_cons, Nat.mul_comm value 10]
      by_cases hmul : 10 * value < bound
      · by_cases hadd : 10 * value + (c.toNat - '0'.toNat) < bound
        · simp only [if_pos hmul, if_pos hadd]
          exact ih _ hadd
        · simp only [if_pos hmul, if_neg hadd]
          rw [if_neg (by omega)]
          rfl
      · rw [if_neg hmul, if_neg (by omega)]
        rfl

/-- `str` of an `int`. -/
def intText (n : ℤ) : List Char := if n < 0 then '-' :: natText n.natAbs else natText n.natAbs

/-- A character of a decimal integer. -/
def IsIntChar (c : Char) : Prop := c.isDigit = true ∨ c = '-'

theorem isIntChar_of_mem {n : ℤ} {c : Char} (hc : c ∈ intText n) : IsIntChar c := by
  unfold intText at hc
  split_ifs at hc
  · rcases List.mem_cons.mp hc with rfl | hc
    · exact .inr rfl
    · exact .inl (isDigit_of_mem_natText hc)
  · exact .inl (isDigit_of_mem_natText hc)

theorem intText_injective {n m : ℤ} (h : intText n = intText m) : n = m := by
  have hsign : ∀ {k : ℕ} {rest : List Char}, natText k ≠ '-' :: rest := fun {k rest} heq =>
    absurd (isDigit_of_mem_natText (n := k) (heq ▸ List.mem_cons_self)) (by decide)
  unfold intText at h
  split_ifs at h with hn hm hm
  · have := natText_injective (List.cons.inj h).2
    omega
  · exact absurd h.symm hsign
  · exact absurd h hsign
  · have := natText_injective h
    omega

/-- An integer ends where no character of an integer follows. -/
theorem intText_inj {n m : ℤ} {s t : List Char} (hs : ∀ c ∈ s.head?, ¬ IsIntChar c)
    (ht : ∀ c ∈ t.head?, ¬ IsIntChar c)
    (h : intText n ++ s = intText m ++ t) : n = m ∧ s = t := by
  obtain ⟨htext, hrest⟩ := append_inj_of_stop (fun _ hc => isIntChar_of_mem hc)
    (fun _ hc => isIntChar_of_mem hc) hs ht h
  exact ⟨intText_injective htext, hrest⟩

/-! ### Fields of a fixed width -/

/-- The last `width` digits of a number in a base, with leading zeros. -/
def padText (base : ℕ) : ℕ → ℕ → List Char
  | 0, _ => []
  | width + 1, n => padText base width (n / base) ++ [Nat.digitChar (n % base)]

theorem length_padText (base width n : ℕ) : (padText base width n).length = width := by
  induction width generalizing n with
  | zero => rfl
  | succ width ih => rw [padText, List.length_append, ih, List.length_singleton]

theorem digitChar_injective : ∀ d < 16, ∀ e < 16, Nat.digitChar d = Nat.digitChar e → d = e := by decide

theorem padText_injective {base : ℕ} (hbase : 0 < base) (hmost : base ≤ 16) {width n m : ℕ} (hn : n < base ^ width)
    (hm : m < base ^ width) (h : padText base width n = padText base width m) : n = m := by
  induction width generalizing n m with
  | zero =>
      rw [Nat.pow_zero] at hn hm
      omega
  | succ width ih =>
      obtain ⟨hfront, hlast⟩ := List.append_inj h (by rw [length_padText, length_padText])
      have hquotient := ih (Nat.div_lt_of_lt_mul (by rwa [Nat.pow_succ, Nat.mul_comm] at hn))
        (Nat.div_lt_of_lt_mul (by rwa [Nat.pow_succ, Nat.mul_comm] at hm)) hfront
      have hdigit := digitChar_injective _ (Nat.lt_of_lt_of_le (Nat.mod_lt n hbase) hmost) _
        (Nat.lt_of_lt_of_le (Nat.mod_lt m hbase) hmost)
        (List.cons.inj hlast).1
      rw [← Nat.div_add_mod n base, ← Nat.div_add_mod m base, hquotient, hdigit]

theorem selfDelimiting_padText {base : ℕ} (hbase : 0 < base) (hmost : base ≤ 16) (width : ℕ) :
    SelfDelimiting (fun n => n < base ^ width) (padText base width) :=
  .of_length (fun n _ => length_padText base width n) fun _ _ => padText_injective hbase hmost

end TextCodes
