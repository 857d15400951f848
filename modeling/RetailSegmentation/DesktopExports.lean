import RetailSegmentation.Rfc4180

/-! Tables that leave the desktop as CSV files (`clients/desktop/src/main/exports.ts`). A string is its UTF-16 code
units. -/

namespace RetailSegmentation.DesktopExports

open Rfc4180

abbrev JsString := List UInt16

/-- The code unit of a character of the first plane. -/
def unit (c : Char) : UInt16 := UInt16.ofNat c.toNat

def csv : Alphabet UInt16 := ⟨unit ',', unit '"', unit '\r', unit '\n', by decide⟩

def bom : UInt16 := 0xfeff

/-- `/^[=+\-@\t\r]/` -/
def formulaStart (value : JsString) : Bool := value.head?.any fun c =>
    c ∈ ['=', '+', '-', '@', '\t', '\r'].map unit

def isDigit (c : UInt16) : Bool := unit '0' ≤ c ∧ c ≤ unit '9'

/-- `(\.\d+)?$` -/
def fractionEnds : JsString → Bool
  | [] => true
  | c :: fraction => c = unit '.' && !fraction.isEmpty && fraction.all isDigit

/-- `/^-?\d+(\.\d+)?$/` -/
def plainNumber (value : JsString) : Bool :=
  let unsigned := if value.head? = some (unit '-') then value.tail else value
  !(unsigned.takeWhile isDigit).isEmpty && fractionEnds (unsigned.dropWhile isDigit)

/-- `replaceAll('"', '""')` -/
def doubleQuotes (value : JsString) : JsString := value.flatMap fun c => if c = unit '"' then [unit '"',
    unit '"'] else [c]

def csvCell (value : JsString) : JsString :=
  let safe := if formulaStart value && !plainNumber value then unit '\'' :: value else value
  if safe.any (fun c => c = unit '"' ∨ c = unit ',' ∨ c = unit '\r' ∨ c = unit '\n') then
    unit '"' :: doubleQuotes safe ++ [unit '"']
  else safe

def toCsv (columns : List JsString) (rows : List (List JsString)) : JsString :=
  let lines := (columns :: rows).map fun r => [unit ','].intercalate (r.map csvCell)
  bom :: ([unit '\r', unit '\n'].intercalate lines ++ [unit '\r', unit '\n'])

/-- The text of a file, without the mark that says how it is encoded. -/
def dropBom : JsString → JsString
  | c :: text => if c = bom then text else c :: text
  | [] => []

/-! ### What a cell is -/

/-- Nothing, or a point and digits. -/
def IsFraction (fraction : JsString) : Prop :=
  fraction = [] ∨ ∃ digits, fraction = unit '.' :: digits ∧ digits ≠ [] ∧ ∀ c ∈ digits, isDigit c

/-- An optional minus sign, digits, and perhaps a fraction. -/
def IsPlainNumber (value : JsString) : Prop :=
  ∃ sign whole fraction : JsString, value = sign ++ whole ++ fraction ∧ (sign = [] ∨ sign = [unit '-']) ∧
    (whole ≠ [] ∧ ∀ c ∈ whole, isDigit c) ∧ IsFraction fraction

/-- It starts with a character that makes a spreadsheet read a formula. -/
def StartsFormula (value : JsString) : Prop :=
  ∃ c rest, value = c :: rest ∧ c ∈ ['=', '+', '-', '@', '\t', '\r'].map unit

/-- The cell is the original, with an apostrophe before it exactly where it would be read as a formula. -/
def Defused (value cell : JsString) : Prop :=
  (StartsFormula value ∧ ¬ IsPlainNumber value ∧ cell = unit '\'' :: value) ∨
    (¬ (StartsFormula value ∧ ¬ IsPlainNumber value) ∧ cell = value)

theorem formulaStart_iff (value : JsString) : formulaStart value = true ↔ StartsFormula value := by
  cases value with
  | nil =>
      constructor
      · intro h
        cases h
      · rintro ⟨c, rest, h, -⟩
        cases h
  | cons c rest =>
      unfold formulaStart StartsFormula
      rw [List.head?_cons, Option.any_some, decide_eq_true_eq]
      constructor
      · exact fun h => ⟨c, rest, rfl, h⟩
      · rintro ⟨c', rest', heq, h⟩
        obtain ⟨rfl, rfl⟩ := List.cons.inj heq
        exact h

theorem fractionEnds_iff (rest : JsString) : fractionEnds rest = true ↔ IsFraction rest := by
  cases rest with
  | nil => exact ⟨fun _ => .inl rfl, fun _ => rfl⟩
  | cons c fraction =>
      simp only [fractionEnds, Bool.and_eq_true, decide_eq_true_eq, Bool.not_eq_true',
        List.isEmpty_eq_false_iff, List.all_eq_true]
      constructor
      · rintro ⟨⟨rfl, hne⟩, hdigits⟩
        exact .inr ⟨fraction, rfl, hne, hdigits⟩
      · rintro (h | ⟨digits, heq, hne, hdigits⟩)
        · cases h
        · obtain ⟨rfl, rfl⟩ := List.cons.inj heq
          exact ⟨⟨rfl, hne⟩, hdigits⟩

theorem digits_split {whole fraction : JsString} (hwhole : ∀ c ∈ whole, isDigit c)
    (hfraction : IsFraction fraction) :
    (whole ++ fraction).takeWhile isDigit = whole ∧ (whole ++ fraction).dropWhile isDigit = fraction := by
  rw [List.takeWhile_append_of_pos hwhole, List.dropWhile_append_of_pos hwhole]
  rcases hfraction with rfl | ⟨digits, rfl, -, -⟩
  · simp
  · have hpoint : isDigit (unit '.') = false := by decide
    simp [hpoint]

theorem plainNumber_iff (value : JsString) : plainNumber value = true ↔ IsPlainNumber value := by
  unfold plainNumber
  simp only [Bool.and_eq_true, Bool.not_eq_true', List.isEmpty_eq_false_iff]
  rw [fractionEnds_iff]
  constructor
  · rintro ⟨hwhole, hfraction⟩
    have hdigits : ∀ text : JsString, ∀ c ∈ text.takeWhile isDigit, isDigit c :=
      fun text => List.all_eq_true.mp List.all_takeWhile
    by_cases hsign : value.head? = some (unit '-')
    · rw [if_pos hsign] at hwhole hfraction
      refine ⟨[unit '-'], _, _, ?_, .inr rfl, ⟨hwhole, hdigits _⟩, hfraction⟩
      rw [List.append_assoc, List.takeWhile_append_dropWhile, List.singleton_append]
      exact (List.cons_head?_tail hsign).symm
    · rw [if_neg hsign] at hwhole hfraction
      refine ⟨[], _, _, ?_, .inl rfl, ⟨hwhole, hdigits _⟩, hfraction⟩
      rw [List.nil_append, List.takeWhile_append_dropWhile]
  · rintro ⟨sign, whole, fraction, rfl, hsign, ⟨hne, hwhole⟩, hfraction⟩
    obtain ⟨htake, hdrop⟩ := digits_split hwhole hfraction
    have hunsigned : (if (sign ++ whole ++ fraction).head? = some (unit '-') then (sign ++ whole ++ fraction).tail
        else sign ++ whole ++ fraction) = whole ++ fraction := by
      rcases hsign with rfl | rfl
      · obtain ⟨c, rest, rfl⟩ := List.exists_cons_of_ne_nil hne
        have hc : c ≠ unit '-' := by
          rintro rfl
          exact absurd (hwhole _ List.mem_cons_self) (by decide)
        simp [hc]
      · simp
    rw [hunsigned, htake, hdrop]
    exact ⟨hne, hfraction⟩

/-! ### What a file holds -/

/-- A table with columns, and rows of their number. -/
structure Table where
  columns : List JsString
  rows : List (List JsString)
  columns_ne : columns ≠ []
  width : ∀ row ∈ rows, row.length = columns.length

def maxRows : ℕ := 100000

def maxColumns : ℕ := 100

def maxCell : ℕ := 10000

def strings (v : List JsString) : Prop := ∀ x ∈ v, x.length ≤ maxCell

instance (v : List JsString) : Decidable (strings v) := inferInstanceAs (Decidable (∀ x ∈ v, x.length ≤ maxCell))

/-- The table of a request for an export, which is refused without it. -/
def validRequest (columns : List JsString) (rows : List (List JsString)) : Option Table :=
  if h : strings columns ∧ columns ≠ [] ∧ columns.length ≤ maxColumns ∧ rows.length ≤ maxRows ∧
      ∀ row ∈ rows, strings row ∧ row.length = columns.length then
    some ⟨columns, rows, h.2.1, fun row hrow => (h.2.2.2.2 row hrow).2⟩
  else none

/-- What stands in a cell. -/
def defuse (value : JsString) : JsString :=
  if formulaStart value && !plainNumber value then unit '\'' :: value else value

theorem defused_defuse (value : JsString) : Defused value (defuse value) := by
  have hguard : (formulaStart value && !plainNumber value) = true ↔
    StartsFormula value ∧ ¬ IsPlainNumber value := by
    rw [Bool.and_eq_true, formulaStart_iff, Bool.not_eq_true', ← plainNumber_iff, Bool.not_eq_true]
  unfold defuse
  split_ifs with h
  · obtain ⟨hstarts, hplain⟩ := hguard.mp h
    exact .inl ⟨hstarts, hplain, rfl⟩
  · exact .inr ⟨fun hformula => h (hguard.mpr hformula), rfl⟩

theorem Defused.harmless {value cell : JsString} (h : Defused value cell) (hstarts : StartsFormula cell) :
    IsPlainNumber cell := by
  rcases h with ⟨-, -, rfl⟩ | ⟨hnot, rfl⟩
  · obtain ⟨c, rest, heq, hc⟩ := hstarts
    obtain ⟨rfl, -⟩ := List.cons.inj heq
    exact absurd hc (by decide)
  · by_contra hplain
    exact hnot ⟨hstarts, hplain⟩

theorem csvCell_eq (value : JsString) : csvCell value = writeField csv (defuse value) := by
  have hspecial : ∀ c : UInt16, (decide (c = unit '"' ∨ c = unit ',' ∨ c = unit '\r' ∨ c = unit '\n')) =
      decide (c = csv.comma ∨ c = csv.quote ∨ c = csv.cr ∨ c = csv.lf) := by
    intro c
    apply decide_eq_decide.mpr
    exact or_left_comm
  unfold csvCell writeField
  simp only [hspecial]
  rfl

theorem toCsv_eq (columns : List JsString) (rows : List (List JsString)) :
    toCsv columns rows = bom :: write csv ((columns :: rows).map fun r => r.map defuse) := by
  have hline : ∀ r : List JsString, [unit ','].intercalate (r.map csvCell) = writeRecord csv (r.map defuse) := by
    intro r
    rw [writeRecord, List.map_map]
    congr 1
    exact List.map_congr_left fun value _ => csvCell_eq value
  unfold toCsv write
  rw [List.map_map]
  simp only [hline]
  rfl

/-- The file of a table is read as its header and its rows in order, no cell of which is a formula. -/
theorem toCsv_read (table : Table) : ∃ records, read csv (dropBom (toCsv table.columns table.rows)) = some records ∧
    List.Forall₂ (List.Forall₂ Defused) (table.columns :: table.rows) records ∧
    ∀ record ∈ records, ∀ cell ∈ record, StartsFormula cell → IsPlainNumber cell := by
  have hcells : ∀ r : List JsString, List.Forall₂ Defused r (r.map defuse) := by
    intro r
    rw [List.forall₂_map_right_iff]
    exact List.forall₂_same.mpr fun value _ => defused_defuse value
  refine ⟨(table.columns :: table.rows).map fun r => r.map defuse, ?_, ?_, ?_⟩
  · rw [toCsv_eq, dropBom, if_pos rfl]
    apply read_write
    · simp
    · intro record hrecord
      obtain ⟨r, hr, rfl⟩ := List.mem_map.mp hrecord
      have hne : r ≠ [] := by
        rcases List.mem_cons.mp hr with rfl | hr
        · exact table.columns_ne
        · have hlength := table.width r hr
          rintro rfl
          exact table.columns_ne (List.length_eq_zero_iff.mp hlength.symm)
      simpa using hne
  · rw [List.forall₂_map_right_iff]
    exact List.forall₂_same.mpr fun r _ => hcells r
  · intro record hrecord cell hcell hstarts
    obtain ⟨r, -, rfl⟩ := List.mem_map.mp hrecord
    obtain ⟨value, -, rfl⟩ := List.mem_map.mp hcell
    exact (defused_defuse value).harmless hstarts

/-- Without columns the header is an empty line, which is read as a record of one empty field. -/
theorem toCsv_without_columns : read csv (dropBom (toCsv [] [])) = some [[[]]] ∧
    ¬ ∃ records, read csv (dropBom (toCsv [] [])) = some records ∧
      List.Forall₂ (List.Forall₂ Defused) [[]] records := by
  have hread : read csv (dropBom (toCsv [] [])) = some [[[]]] := by decide
  refine ⟨hread, ?_⟩
  rintro ⟨records, hrecords, hcells⟩
  obtain rfl : [[[]]] = records := Option.some.inj (hread.symm.trans hrecords)
  cases hcells with
  | cons hheader _ => cases hheader

end RetailSegmentation.DesktopExports
