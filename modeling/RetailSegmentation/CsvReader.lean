import Mathlib.Data.List.Basic
import Mathlib.Order.Basic

/-! Comma-separated text, read character by character: the physical lines of a file, the machine that makes
fields of them, and the records with the lines they take. A quoted field goes on over a line break, so a
record may take several lines; an empty line is a record without fields. -/

namespace Csv

/-! ### Lines -/

/-- The lines of a text with their endings; a line feed, a carriage return and the two together end one. -/
def physicalLines : List Char → List (List Char)
  | [] => []
  | '\r' :: '\n' :: rest => ['\r', '\n'] :: physicalLines rest
  | '\r' :: rest => ['\r'] :: physicalLines rest
  | '\n' :: rest => ['\n'] :: physicalLines rest
  | c :: rest => match physicalLines rest with
    | [] => [[c]]
    | line :: lines => (c :: line) :: lines

/-! ### The machine -/

structure Dialect where
  delimiter : Char := ','
  quotechar : Char := '"'
  fieldLimit : ℕ := 131072
  deriving DecidableEq, Repr

inductive State where
  | startRecord | startField | inField | inQuotedField | quoteInQuotedField | eatCrnl
  deriving DecidableEq, Repr

inductive Error where
  | fieldLimit | strayNewline
  deriving DecidableEq, Repr

structure Parser where
  state : State := .startRecord
  field : List Char := []
  fields : List String := []
  deriving DecidableEq, Repr

def isNewline (c : Char) : Bool := c = '\n' ∨ c = '\r'

def Parser.save (p : Parser) (state : State) : Parser := ⟨state, [], p.fields ++ [String.ofList p.field]⟩

section Machine

variable (d : Dialect)

def Parser.add (p : Parser) (c : Char) (state : State) : Except Error Parser :=
  if d.fieldLimit ≤ p.field.length then .error .fieldLimit else .ok { p with state, field := p.field ++ [c] }

def Parser.startField (p : Parser) (c : Char) : Except Error Parser :=
  if isNewline c then .ok (p.save .eatCrnl)
  else if c = d.quotechar then .ok { p with state := .inQuotedField }
  else if c = d.delimiter then .ok (p.save .startField)
  else p.add d c .inField

def Parser.process (p : Parser) (c : Char) : Except Error Parser :=
  match p.state with
  | .startRecord => if isNewline c then .ok { p with state := .eatCrnl } else p.startField d c
  | .startField => p.startField d c
  | .inField =>
    if isNewline c then .ok (p.save .eatCrnl)
    else if c = d.delimiter then .ok (p.save .startField)
    else p.add d c .inField
  | .inQuotedField => if c = d.quotechar then .ok { p with state := .quoteInQuotedField } else p.add d c .inQuotedField
  | .quoteInQuotedField =>
    if c = d.quotechar then p.add d c .inQuotedField
    else if c = d.delimiter then .ok (p.save .startField)
    else if isNewline c then .ok (p.save .eatCrnl)
    else p.add d c .inField
  | .eatCrnl => if isNewline c then .ok p else .error .strayNewline

/-- The end of a line, which ends the record unless a quoted field is open. -/
def Parser.endLine (p : Parser) : Parser :=
  match p.state with
  | .startRecord => p
  | .startField | .inField | .quoteInQuotedField => p.save .startRecord
  | .inQuotedField => p
  | .eatCrnl => { p with state := .startRecord }

def Parser.line (p : Parser) (line : List Char) : Except Error Parser :=
  (line.foldlM (Parser.process d) p).map Parser.endLine

/-! ### Records -/

/-- A record, the line it starts on, counted from one, and how many lines it takes. -/
structure Record where
  start : ℕ
  lines : ℕ
  fields : List String
  deriving DecidableEq, Repr

/-- Read the lines left, `taken` lines into the record that starts on line `start`. An error comes with the
number of lines read. -/
def read (p : Parser) (start taken : ℕ) : List (List Char) → Except (ℕ × Error) (List Record)
  | [] => if taken = 0 then .ok [] else .ok [⟨start, taken, (p.save .startRecord).fields⟩]
  | line :: rest =>
    match p.line d line with
    | .error e => .error (start + taken, e)
    | .ok p' =>
      if p'.state = .startRecord then
        (read {} (start + taken + 1) 0 rest).map (⟨start, taken + 1, p'.fields⟩ :: ·)
      else read p' start (taken + 1) rest

def records (text : List Char) : Except (ℕ × Error) (List Record) := read d {} 1 0 (physicalLines text)

end Machine

/-! ### Where records start -/

/-- Records that follow one another from a line on. -/
def Contiguous : ℕ → List Record → Prop
  | _, [] => True
  | line, r :: rs => r.start = line ∧ 0 < r.lines ∧ Contiguous (line + r.lines) rs

theorem contiguous_read {d : Dialect} {p : Parser} {start taken : ℕ} {lines : List (List Char)} {rs : List Record}
    (h : read d p start taken lines = .ok rs) : Contiguous start rs := by
  induction lines generalizing p start taken rs with
  | nil =>
      unfold read at h
      split_ifs at h with htaken
      · cases h
        exact trivial
      · cases h
        exact ⟨rfl, Nat.pos_of_ne_zero htaken, trivial⟩
  | cons line rest ih =>
      unfold read at h
      cases hline : p.line d line with
      | error e =>
          rw [hline] at h
          cases h
      | ok p' =>
          rw [hline] at h
          simp only at h
          split_ifs at h with hstart
          · cases hrest : read d {} (start + taken + 1) 0 rest with
            | error e =>
                rw [hrest] at h
                cases h
            | ok rest' =>
                rw [hrest] at h
                cases h
                refine ⟨rfl, Nat.succ_pos taken, ?_⟩
                exact ih hrest
          · exact ih h

theorem contiguous_records {d : Dialect} {text : List Char} {rs : List Record} (h : records d text = .ok rs) :
    Contiguous 1 rs :=
  contiguous_read h

theorem le_start {line : ℕ} {rs : List Record} (h : Contiguous line rs) {r : Record} (hr : r ∈ rs) :
    line ≤ r.start := by
  induction rs generalizing line with
  | nil => cases hr
  | cons first rs ih =>
      obtain ⟨hstart, -, hrest⟩ := h
      obtain rfl | hr := List.mem_cons.mp hr
      · exact Nat.le_of_eq hstart.symm
      · exact Nat.le_trans (Nat.le_add_right line first.lines) (ih hrest hr)

def numbered (number : ℕ) (rs : List Record) : List (Record × ℕ) :=
  (rs.filter fun r => r.fields ≠ []).zipIdx number

/-- A record of one line with fields, over which a numbering keeps up with the lines. -/
def Record.Plain (r : Record) : Prop := r.fields ≠ [] ∧ r.lines = 1

section Numbered

variable {number line : ℕ} {rs : List Record} {r first : Record} {k : ℕ}

theorem numbered_blank (hblank : first.fields = []) : numbered number (first :: rs) = numbered number rs := by
  unfold numbered
  rw [List.filter_cons_of_neg (by simpa using hblank)]

theorem numbered_fields (hfields : first.fields ≠ []) :
    numbered number (first :: rs) = (first, number) :: numbered (number + 1) rs := by
  unfold numbered
  rw [List.filter_cons_of_pos (by simpa using hfields), List.zipIdx_cons]

theorem mem_of_numbered (hr : (r, k) ∈ numbered number rs) : r ∈ rs :=
  List.mem_of_mem_filter (List.fst_mem_of_mem_zipIdx hr)

theorem number_lt_start (hlt : number < line) (h : Contiguous line rs) (hr : (r, k) ∈ numbered number rs) :
    k < r.start := by
  induction rs generalizing line number with
  | nil => cases hr
  | cons first rs ih =>
      obtain ⟨hstart, hlines, hrest⟩ := h
      by_cases hfields : first.fields = []
      · rw [numbered_blank hfields] at hr
        exact ih (by omega) hrest hr
      · rw [numbered_fields hfields] at hr
        obtain heq | hr := List.mem_cons.mp hr
        · cases heq
          omega
        · exact ih (by omega) hrest hr

theorem number_eq_start_iff (h : Contiguous line rs) (hr : (r, k) ∈ numbered line rs) :
    k = r.start ↔ ∀ b ∈ rs, b.start < r.start → b.Plain := by
  induction rs generalizing line with
  | nil => cases hr
  | cons first rs ih =>
      obtain ⟨hstart, hlines, hrest⟩ := h
      have hbefore : ∀ b ∈ rs, first.start < b.start := fun b hb => by
        have hle := le_start hrest hb
        omega
      -- past a first record that is not plain no number is the line's
      have hbehind : r ∈ rs → k < r.start → ¬ first.Plain →
        (k = r.start ↔ ∀ b ∈ first :: rs, b.start < r.start → b.Plain) :=
        fun hmem hlt hnot => iff_of_false (by omega) fun hall =>
          hnot (hall first List.mem_cons_self (hbefore r hmem))
      by_cases hfields : first.fields = []
      · rw [numbered_blank hfields] at hr
        exact hbehind (mem_of_numbered hr) (number_lt_start (by omega) hrest hr) fun hplain => hplain.1 hfields
      rw [numbered_fields hfields] at hr
      obtain heq | hr := List.mem_cons.mp hr
      · cases heq
        refine iff_of_true hstart.symm fun b hb hlt => ?_
        obtain rfl | hb := List.mem_cons.mp hb
        · omega
        · have hafter := hbefore b hb
          omega
      by_cases hone : first.lines = 1
      · rw [hone] at hrest
        rw [ih hrest hr, List.forall_mem_cons]
        exact ⟨fun hall => ⟨fun _ => ⟨hfields, hone⟩, hall⟩, fun hall => hall.2⟩
      · exact hbehind (mem_of_numbered hr) (number_lt_start (by omega) hrest hr) fun hplain => hone hplain.2

end Numbered

end Csv
