import Mathlib.Data.List.TakeWhile
import Mathlib.Tactic.Ring
import RetailSegmentation.TextCodes
import RetailSegmentation.XmlBodies

/-! The numbers that XML Schema spells, and which of them each kit reads as the number it is. -/

namespace RetailSegmentation.XmlBodies

open TextCodes

/-! ### Numerals -/

/-- A text of `xs:decimal`, within its white space; one of `xs:integer` has no point. -/
structure Numeral where
  sign : List Char
  whole : List Char
  fraction : Option (List Char)
  signed : sign ∈ [[], ['-'], ['+']]
  wholeDigits : ∀ c ∈ whole, c.isDigit = true
  fractionDigits : ∀ digits ∈ fraction, ∀ c ∈ digits, c.isDigit = true
  someDigit : whole ≠ [] ∨ fraction.getD [] ≠ []

namespace Numeral

variable (n : Numeral)

def unsigned : List Char := n.whole ++ n.fraction.elim [] ('.' :: ·)

def text : List Char := n.sign ++ n.unsigned

def negative : Bool := n.sign = ['-']

def value : ℚ := numberValue n.negative n.whole (n.fraction.getD []) 0

/-- More digits than one before the point, and the first is zero. -/
def LeadingZero : Prop := n.whole.head? = some '0' ∧ 1 < n.whole.length

end Numeral

def Spells (n : Numeral) (text : List Char) : Prop :=
  ∃ before after, text = before ++ n.text ++ after ∧ (∀ c ∈ before, Xml.isSpace c = true) ∧
    ∀ c ∈ after, Xml.isSpace c = true

section Texts

variable {n : Numeral} {text : List Char}

theorem span_digits {whole rest : List Char} (hwhole : ∀ c ∈ whole, c.isDigit = true)
    (hrest : ∀ c ∈ rest.head?, c.isDigit = false) : (whole ++ rest).span Char.isDigit = (whole, rest) := by
  rw [List.span_eq_takeWhile_dropWhile, List.takeWhile_append_of_pos hwhole, List.dropWhile_append_of_pos hwhole]
  cases rest with
  | nil => simp
  | cons c rest =>
      have hc : c.isDigit = false := hrest c rfl
      simp [hc]

theorem splitNumber_unsigned (n : Numeral) : splitNumber n.unsigned = (n.whole, n.fraction, []) := by
  obtain ⟨sign, whole, fraction, hsigned, hwhole, hfraction, hsome⟩ := n
  unfold splitNumber Numeral.unsigned
  dsimp only
  cases fraction with
  | none =>
      rw [Option.elim_none, @span_digits _ [] hwhole nofun]
  | some digits =>
      rw [Option.elim_some, span_digits hwhole (by simp)]
      have hdigits := @span_digits _ [] (hfraction digits rfl) nofun
      rw [List.append_nil] at hdigits
      simp only [hdigits]

theorem Numeral.mem_unsigned {c : Char} (h : c ∈ n.unsigned) : c.isDigit = true ∨ c = '.' := by
  unfold unsigned at h
  rcases List.mem_append.mp h with h | h
  · exact .inl (n.wholeDigits c h)
  · cases hfraction : n.fraction with
    | none =>
        rw [hfraction] at h
        cases h
    | some digits =>
        rw [hfraction] at h
        rcases List.mem_cons.mp h with rfl | h
        · exact .inr rfl
        · exact .inl (n.fractionDigits digits hfraction c h)

theorem Numeral.unsigned_ne_nil (n : Numeral) : n.unsigned ≠ [] := by
  unfold unsigned
  intro h
  obtain ⟨hwhole, hfraction⟩ := List.append_eq_nil_iff.mp h
  rcases n.someDigit with hne | hne
  · exact hne hwhole
  · cases hsome : n.fraction with
    | none =>
        rw [hsome] at hne
        exact hne rfl
    | some digits =>
        rw [hsome] at hfraction
        cases hfraction

theorem Numeral.not_space {p : Char → Bool} (hp : ∀ c,
    (c.isDigit = true ∨ c ∈ ['.', '-', '+']) → p c = false) {c : Char}
    (h : c ∈ n.text) : p c = false := by
  rcases List.mem_append.mp h with h | h
  · refine hp c (.inr ?_)
    have hsigned := n.signed
    simp only [List.mem_cons, List.not_mem_nil, or_false] at hsigned
    rcases hsigned with hsign | hsign | hsign <;> rw [hsign] at h <;> simp_all
  · rcases n.mem_unsigned h with hdigit | rfl
    · exact hp c (.inl hdigit)
    · exact hp _ (.inr (by simp))

theorem trimAll_spells {p : Char → Bool} (hspace : ∀ c, Xml.isSpace c = true → p c = true)
    (hp : ∀ c, (c.isDigit = true ∨ c ∈ ['.', '-', '+']) → p c = false) (h : Spells n text) :
      trimAll p text = n.text := by
  obtain ⟨before, after, rfl, hbefore, hafter⟩ := h
  have hne : n.text ≠ [] := fun h => n.unsigned_ne_nil (List.append_eq_nil_iff.mp h).2
  have hplain : ∀ c ∈ n.text, p c = false := fun c hc => n.not_space hp hc
  unfold trimAll
  rw [List.append_assoc, List.dropWhile_append_of_pos fun c hc => hspace c (hbefore c hc)]
  have hstart : (n.text ++ after).dropWhile p = n.text ++ after := by
    obtain ⟨c, rest, hcore⟩ := List.exists_cons_of_ne_nil hne
    rw [hcore, List.cons_append, List.dropWhile_cons_of_neg]
    exact Bool.eq_false_iff.mp (hplain c (hcore ▸ List.mem_cons_self))
  have hend : n.text.reverse.dropWhile p = n.text.reverse := by
    obtain ⟨c, rest, hcore⟩ := List.exists_cons_of_ne_nil (List.reverse_ne_nil_iff.mpr hne)
    rw [hcore, List.dropWhile_cons_of_neg]
    exact Bool.eq_false_iff.mp (hplain c (List.mem_reverse.mp (hcore ▸ List.mem_cons_self)))
  rw [hstart, List.rdropWhile, List.reverse_append,
    List.dropWhile_append_of_pos fun c hc => hspace c (hafter c (List.mem_reverse.mp hc)), hend,
      List.reverse_reverse]

theorem isWithin_digits {ranges : List (ℕ × ℕ)}
    (hdigits : ∀ k ∈ List.range' 48 10, (ranges.any fun range => range.1 ≤ k && k ≤ range.2) = false)
    (hothers : ['.', '-', '+'].any (isWithin ranges) = false) (c : Char)
    (h : c.isDigit = true ∨ c ∈ ['.', '-', '+']) : isWithin ranges c = false := by
  rcases h with hdigit | hother
  · refine hdigits c.toNat (List.mem_range'_1.mpr ?_)
    unfold Char.isDigit at hdigit
    rw [Bool.and_eq_true, decide_eq_true_eq, decide_eq_true_eq] at hdigit
    have hlow : 48 ≤ c.toNat := hdigit.1
    have hhigh : c.toNat ≤ 57 := hdigit.2
    omega
  · exact Bool.eq_false_iff.mpr (List.any_eq_false.mp hothers c hother)

theorem isWithin_space {c : Char} (h : Xml.isSpace c = true) : isWithin whiteSpace c = true := by
  unfold Xml.isSpace at h
  simp only [Bool.or_eq_true, decide_eq_true_eq] at h
  rcases h with ((rfl | rfl) | rfl) | rfl <;> decide

theorem KitPy.strip_spells (h : Spells n text) : KitPy.strip text = n.text :=
  trimAll_spells (fun c hc => by rw [isWithin, List.any_cons, ← isWithin, isWithin_space hc, Bool.or_true])
    (isWithin_digits (by decide) (by decide)) h

theorem KitRs.trim_spells (h : Spells n text) : KitRs.trim text = n.text :=
  trimAll_spells (fun _ => isWithin_space) (isWithin_digits (by decide) (by decide)) h

theorem splitSign_text (n : Numeral) : splitSign n.text = (n.negative, n.unsigned) := by
  have hsigned := n.signed
  simp only [List.mem_cons, List.not_mem_nil, or_false] at hsigned
  unfold Numeral.text Numeral.negative
  rcases hsigned with hsign | hsign | hsign
  · obtain ⟨c, rest, hunsigned⟩ := List.exists_cons_of_ne_nil n.unsigned_ne_nil
    have hc := n.mem_unsigned (hunsigned ▸ List.mem_cons_self)
    rw [hsign, List.nil_append, hunsigned, splitSign]
    · rfl
    · intro rest h
      obtain ⟨rfl, -⟩ := List.cons.inj h
      exact absurd hc (by decide)
    · intro rest h
      obtain ⟨rfl, -⟩ := List.cons.inj h
      exact absurd hc (by decide)
  · rw [hsign]
    rfl
  · rw [hsign]
    rfl

/-! ### kit-py -/

theorem KitPy.decimal_spells (h : Spells n text) : KitPy.decimal text = some n.value := by
  have hplain : n.text.filter (· ≠ '_') = n.text :=
    List.filter_eq_self.mpr fun c hc => by
      have := n.not_space (p := (· = '_')) (fun c hc => ?_) hc
      · simpa using this
      · rcases hc with hdigit | hother
        · exact decide_eq_false fun heq => absurd (heq ▸ hdigit) (by decide)
        · simp only [List.mem_cons, List.not_mem_nil, or_false] at hother
          rcases hother with rfl | rfl | rfl <;> decide
  unfold KitPy.decimal
  rw [KitPy.strip_spells h, hplain, splitSign_text]
  dsimp only
  rw [splitNumber_unsigned]
  dsimp only
  rw [if_pos n.someDigit]
  rfl

def Numeral.integer (n : Numeral) : ℤ := (if n.negative then -1 else 1) * Nat.ofDigitChars 10 n.whole 0

theorem Numeral.unsigned_whole (n : Numeral) (hfraction : n.fraction = none) : n.unsigned = n.whole := by
  unfold unsigned
  rw [hfraction, Option.elim_none, List.append_nil]

theorem KitPy.int_spells (h : Spells n text) (hfraction : n.fraction = none) :
    KitPy.int text = if n.whole.length ≤ 4300 then some n.integer else none := by
  have hunsigned := n.unsigned_whole hfraction
  have hgroups : n.whole.splitOn '_' = [n.whole] := by
    rw [List.splitOn_eq_splitOnP]
    refine List.splitOnP_eq_singleton fun c hc => beq_eq_false_iff_ne.mpr fun heq => ?_
    exact absurd (heq ▸ n.wholeDigits c hc) (by decide)
  have hall : ([n.whole].all fun group => decide (group ≠ []) && group.all Char.isDigit) = true := by
    rw [List.all_cons, List.all_nil, Bool.and_true, Bool.and_eq_true, decide_eq_true_eq]
    refine ⟨?_, List.all_eq_true.mpr n.wholeDigits⟩
    rw [← hunsigned]
    exact n.unsigned_ne_nil
  unfold KitPy.int
  rw [KitPy.strip_spells h, splitSign_text]
  dsimp only
  rw [hunsigned, hgroups]
  simp only [hall, true_and, List.flatten_cons, List.flatten_nil, List.append_nil]
  rfl

/-! ### kit-rs -/

theorem parseNumber_signed {negative : Bool} {whole : List Char} {fraction : Option (List Char)}
    (hwhole : ∀ c ∈ whole, c.isDigit = true) (hfraction : ∀ digits ∈ fraction, ∀ c ∈ digits, c.isDigit = true)
    (hne : whole ≠ []) :
    KitRs.parseNumber ((if negative then ['-'] else []) ++ (whole ++ fraction.elim [] ('.' :: ·))) =
      if (whole = ['0'] ∨ whole.head? ≠ some '0') ∧ fraction ≠ some [] then
        some (numberValue negative whole (fraction.getD []) 0)
      else none := by
  have hsplit := splitNumber_unsigned ⟨[], whole, fraction, by simp, hwhole, hfraction, .inl hne⟩
  unfold Numeral.unsigned at hsplit
  dsimp only at hsplit
  have hminus : splitMinus ((if negative then ['-'] else []) ++ (whole ++ fraction.elim [] ('.' :: ·))) =
      (negative, whole ++ fraction.elim [] ('.' :: ·)) := by
    cases negative with
    | true => rfl
    | false =>
        obtain ⟨c, rest, hunsigned⟩ := List.exists_cons_of_ne_nil hne
        rw [if_neg Bool.false_ne_true, List.nil_append, hunsigned, List.cons_append, splitMinus]
        intro rest' h
        obtain ⟨rfl, -⟩ := List.cons.inj h
        exact absurd (hwhole '-' (hunsigned ▸ List.mem_cons_self)) (by decide)
  unfold KitRs.parseNumber
  rw [hminus]
  dsimp only
  rw [hsplit]
  dsimp only
  simp only [ne_eq, hne, not_false_eq_true, true_and]
  rfl

theorem head_unsigned {c : Char} (h : n.unsigned.head? = some c) : c.isDigit = true ∨ c = '.' :=
  n.mem_unsigned (List.mem_of_mem_head? h)

theorem unsigned_passes (n : Numeral) :
    ¬ (n.unsigned = [] ∨ n.unsigned.head? = some '+' ∨ n.unsigned.head? = some '-') := by
  rintro (h | h | h)
  · exact n.unsigned_ne_nil h
  · exact absurd (head_unsigned h) (by decide)
  · exact absurd (head_unsigned h) (by decide)

theorem KitRs.exactNumber_integer (h : Spells n text) (hfraction : n.fraction = none) :
    KitRs.exactNumber text true = some (n.integer : ℚ) := by
  have hunsigned := n.unsigned_whole hfraction
  have hsignificant : ∀ c ∈ n.whole.dropWhile (· = '0'), c.isDigit = true := fun c hc =>
    n.wholeDigits c ((List.dropWhile_sublist _).mem hc)
  have hparsed : ∀ whole : List Char, (∀ c ∈ whole, c.isDigit = true) → whole ≠ [] →
      (whole = ['0'] ∨ whole.head? ≠ some '0') → Nat.ofDigitChars 10 whole 0 = Nat.ofDigitChars 10 n.whole 0 →
      KitRs.parseNumber ((if n.negative then ['-'] else []) ++ whole) = some (n.integer : ℚ) := by
    intro whole hwhole hne hstart hsame
    have hparse := @parseNumber_signed n.negative _ none hwhole nofun hne
    rw [Option.elim_none, List.append_nil] at hparse
    refine hparse.trans ((if_pos ⟨hstart, nofun⟩).trans ?_)
    unfold numberValue Numeral.integer
    simp [hsame]
  unfold KitRs.exactNumber
  rw [KitRs.trim_spells h, splitSign_text]
  dsimp only
  rw [if_neg (unsigned_passes n), if_pos rfl, hunsigned, if_pos (List.all_eq_true.mpr n.wholeDigits)]
  by_cases hzero : n.whole.dropWhile (· = '0') = []
  · rw [if_pos hzero]
    refine hparsed ['0'] (by simp) (by simp) (.inl rfl) ?_
    rw [← ofDigitChars_dropWhile_zero n.whole, hzero]
    rfl
  · rw [if_neg hzero]
    refine hparsed _ hsignificant hzero (.inr fun hhead => ?_) (ofDigitChars_dropWhile_zero n.whole)
    have hnot := List.head?_dropWhile_not (· = '0') n.whole
    rw [hhead] at hnot
    exact absurd hnot (by decide)

theorem getLast_digits {front back : List Char} (hne : back ≠ []) (hback : ∀ c ∈ back, c.isDigit = true) :
    (front ++ back).getLast? ≠ some '.' := by
  intro h
  obtain ⟨front', c, rfl⟩ := List.eq_nil_or_concat back |>.resolve_left hne
  rw [List.concat_eq_append, ← List.append_assoc, List.getLast?_append, List.getLast?_singleton,
    Option.some_or] at h
  obtain rfl := Option.some.inj h
  exact absurd (hback '.' (by simp)) (by decide)

theorem exactNumber_normalized (h : Spells n text) : KitRs.exactNumber text false =
    KitRs.parseNumber ((if n.negative then ['-'] else []) ++ ((if n.whole = [] then ['0'] else n.whole) ++
      (n.fraction.map fun digits => if digits = [] then ['0'] else digits).elim [] ('.' :: ·))) := by
  unfold KitRs.exactNumber
  rw [KitRs.trim_spells h, splitSign_text]
  dsimp only
  rw [if_neg (unsigned_passes n), if_neg Bool.false_ne_true]
  obtain ⟨sign, whole, fraction, hsigned, hwhole, hfraction, hsome⟩ := n
  unfold Numeral.unsigned
  dsimp only at hwhole hfraction hsome ⊢
  have hpoint : ∀ c ∈ whole, c ≠ '.' := fun c hc heq => absurd (heq ▸ hwhole c hc) (by decide)
  cases whole with
  | nil =>
      cases fraction with
      | none => exact absurd rfl (hsome.resolve_left (not_not.mpr rfl))
      | some digits =>
          have hne : digits ≠ [] := hsome.resolve_left (not_not.mpr rfl)
          have hlast := @getLast_digits ((if Numeral.negative ⟨sign, [], some digits, hsigned, hwhole, hfraction, hsome⟩
            then ['-'] else []) ++ ['0', '.']) _ hne (hfraction digits rfl)
          rw [List.append_assoc] at hlast
          simp only [Option.elim_some, List.nil_append, List.head?_cons, if_true, Option.map_some, if_neg hne]
          exact congrArg KitRs.parseNumber (if_neg hlast)
  | cons c rest =>
      have hc : ¬ some c = some '.' := fun heq => hpoint c List.mem_cons_self (Option.some.inj heq)
      cases fraction with
      | none =>
          have hlast := @getLast_digits (if Numeral.negative ⟨sign, c :: rest, none, hsigned, hwhole, hfraction, hsome⟩
            then ['-'] else []) _ (List.cons_ne_nil c rest) hwhole
          simp only [Option.elim_none, List.append_nil, List.head?_cons, hc, if_false, Option.map_none,
            List.cons_ne_nil]
          exact congrArg KitRs.parseNumber (if_neg hlast)
      | some digits =>
          simp only [Option.elim_some, List.cons_append, List.head?_cons, hc, if_false, Option.map_some,
            List.cons_ne_nil]
          by_cases hne : digits = []
          · subst hne
            have hlast : (c :: (rest ++ ['.'])).getLast? = some '.' := by
              rw [← List.cons_append, List.getLast?_append]
              rfl
            simp [hlast]
          · have hlast := @getLast_digits ((if Numeral.negative ⟨sign, c :: rest, some digits, hsigned, hwhole,
              hfraction, hsome⟩ then ['-'] else []) ++ (c :: (rest ++ ['.']))) _ hne (hfraction digits rfl)
            rw [if_neg hne]
            refine congrArg KitRs.parseNumber (if_neg ?_)
            simpa using hlast

theorem numberValue_zero_cons (negative : Bool) (fraction : List Char) (exponent : ℤ) :
    numberValue negative ['0'] fraction exponent = numberValue negative [] fraction exponent := by
  unfold numberValue
  rw [List.singleton_append, ofDigitChars_zero_cons, List.nil_append]

theorem numberValue_fraction_zero (negative : Bool) (whole : List Char) :
    numberValue negative whole ['0'] 0 = numberValue negative whole [] 0 := by
  unfold numberValue
  have hdigit : '0'.toNat - '0'.toNat = 0 := rfl
  rw [Nat.ofDigitChars_append, Nat.ofDigitChars_cons, Nat.ofDigitChars_nil, List.append_nil, hdigit]
  simp only [List.length_singleton, List.length_nil, Nat.cast_mul, Nat.cast_ofNat, Nat.cast_one,
    Nat.cast_zero, add_zero, zero_sub, sub_zero, zpow_neg, zpow_one, zpow_zero, mul_one]
  ring

open Classical in
theorem KitRs.exactNumber_number (h : Spells n text) :
    KitRs.exactNumber text false = if n.LeadingZero then none else some n.value := by
  have hwhole : ∀ c ∈ (if n.whole = [] then ['0'] else n.whole), c.isDigit = true := by
    split_ifs
    · simp
    · exact n.wholeDigits
  have hfraction : ∀ digits ∈ n.fraction.map (fun digits => if digits = [] then ['0'] else digits),
      ∀ c ∈ digits, c.isDigit = true := by
    intro digits hdigits
    obtain ⟨original, horiginal, rfl⟩ := Option.map_eq_some_iff.mp hdigits
    split_ifs
    · simp
    · exact n.fractionDigits original horiginal
  have hne : (if n.whole = [] then ['0'] else n.whole) ≠ [] := by
    split_ifs with hempty
    · decide
    · exact hempty
  rw [exactNumber_normalized h, parseNumber_signed hwhole hfraction hne]
  have hsome : n.fraction.map (fun digits => if digits = [] then ['0'] else digits) ≠ some [] := by
    intro heq
    obtain ⟨original, -, hnil⟩ := Option.map_eq_some_iff.mp heq
    split_ifs at hnil with hempty
    exact hempty hnil
  have hstart : ((if n.whole = [] then ['0'] else n.whole) = ['0'] ∨
      (if n.whole = [] then ['0'] else n.whole).head? ≠ some '0') ↔ ¬ n.LeadingZero := by
    unfold Numeral.LeadingZero
    split_ifs with hempty
    · simp [hempty]
    · obtain ⟨c, rest, hcons⟩ := List.exists_cons_of_ne_nil hempty
      rw [hcons]
      cases rest <;> simp [or_iff_not_imp_left]
  refine (if_congr ((and_iff_left hsome).trans hstart) rfl rfl).trans ?_
  rw [ite_not]
  refine if_congr Iff.rfl rfl (congrArg some ?_)
  have hvalue : ∀ fraction : List Char, numberValue n.negative (if n.whole = [] then ['0'] else n.whole) fraction 0 =
      numberValue n.negative n.whole fraction 0 := by
    intro fraction
    split_ifs with hempty
    · rw [hempty, numberValue_zero_cons]
    · rfl
  rw [hvalue]
  unfold Numeral.value
  cases hfrac : n.fraction with
  | none => rfl
  | some digits =>
      rw [Option.map_some, Option.getD_some, Option.getD_some]
      split_ifs with hempty
      · rw [hempty, numberValue_fraction_zero]
      · rfl

end Texts

end RetailSegmentation.XmlBodies
