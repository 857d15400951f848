import Mathlib.Data.List.Forall2
import Mathlib.Tactic.Common

/-! Comma-separated text as RFC 4180 reads it: records end in a carriage return with a line feed, fields are plain
or in quotes, and in quotes a quote is doubled. An empty line is a record of one empty field. The text is over any
alphabet with the four characters that count. -/

namespace Rfc4180

structure Alphabet (α : Type) where
  comma : α
  quote : α
  cr : α
  lf : α
  distinct : [comma, quote, cr, lf].Nodup

theorem Alphabet.ne {α : Type} (a : Alphabet α) :
    a.comma ≠ a.quote ∧ a.comma ≠ a.cr ∧ a.comma ≠ a.lf ∧ a.quote ≠ a.cr ∧ a.quote ≠ a.lf ∧ a.cr ≠ a.lf := by
  have h := a.distinct
  simp only [List.nodup_cons, List.mem_cons, List.not_mem_nil, or_false, not_or] at h
  obtain ⟨⟨h1, h2, h3⟩, ⟨h4, h5⟩, h6, -⟩ := h
  exact ⟨h1, h2, h3, h4, h5, h6⟩

/-! ### Reading -/

inductive Phase where
  /-- Nothing of a record has been read. -/
  | record
  /-- A comma has been read last. -/
  | field
  | plain
  | quoted
  /-- A quote in a quoted field: its end, or the first of two. -/
  | quote
  /-- The carriage return of an end of line. -/
  | cr
  deriving DecidableEq, Repr

structure Reader (α : Type) where
  records : List (List (List α)) := []
  fields : List (List α) := []
  text : List α := []
  phase : Phase := .record

section Reader

variable {α : Type} [DecidableEq α] (a : Alphabet α)

def Reader.endField (r : Reader α) (phase : Phase) : Reader α :=
  { r with fields := r.fields ++ [r.text], text := [], phase }

def Reader.endRecord (r : Reader α) : Reader α := ⟨r.records ++ [r.fields], [], [], .record⟩

def Reader.add (r : Reader α) (c : α) (phase : Phase) : Reader α := { r with text := r.text ++ [c], phase }

/-- A character at the start of a field. -/
def Reader.start (r : Reader α) (c : α) : Option (Reader α) :=
  if c = a.quote then some { r with phase := .quoted }
  else if c = a.comma then some (r.endField .field)
  else if c = a.cr then some (r.endField .cr)
  else if c = a.lf then none
  else some (r.add c .plain)

def Reader.step (r : Reader α) (c : α) : Option (Reader α) :=
  match r.phase with
  | .record => r.start a c
  | .field => r.start a c
  | .plain =>
    if c = a.comma then some (r.endField .field)
    else if c = a.cr then some (r.endField .cr)
    else if c = a.quote ∨ c = a.lf then none
    else some (r.add c .plain)
  | .quoted => if c = a.quote then some { r with phase := .quote } else some (r.add c .quoted)
  | .quote =>
    if c = a.quote then some (r.add c .quoted)
    else if c = a.comma then some (r.endField .field)
    else if c = a.cr then some (r.endField .cr)
    else none
  | .cr => if c = a.lf then some r.endRecord else none

def Reader.run (r : Reader α) : List α → Option (Reader α)
  | [] => some r
  | c :: text => (r.step a c).bind fun r => r.run text

/-- The end of the text, where the last line may be without an end. -/
def Reader.finish (r : Reader α) : Option (List (List (List α))) :=
  match r.phase with
  | .record => some r.records
  | .field => some (r.endField .record).endRecord.records
  | .plain => some (r.endField .record).endRecord.records
  | .quote => some (r.endField .record).endRecord.records
  | .quoted => none
  | .cr => none

def read (text : List α) : Option (List (List (List α))) := (Reader.run a {} text).bind Reader.finish

/-! ### Writing -/

/-- A field, in quotes where it holds a character that counts. -/
def writeField (field : List α) : List α :=
  if field.any (fun c => c = a.comma ∨ c = a.quote ∨ c = a.cr ∨ c = a.lf) then
    a.quote :: (field.flatMap fun c => if c = a.quote then [a.quote, a.quote] else [c]) ++ [a.quote]
  else field

def writeRecord (record : List (List α)) : List α := [a.comma].intercalate (record.map (writeField a))

def write (records : List (List (List α))) : List α :=
  [a.cr, a.lf].intercalate (records.map (writeRecord a)) ++ [a.cr, a.lf]

/-! ### What is written is read -/

variable {a}

theorem Reader.run_append (r : Reader α) (front rest : List α) :
    r.run a (front ++ rest) = (r.run a front).bind fun r => r.run a rest := by
  induction front generalizing r with
  | nil => rfl
  | cons c front ih =>
      rw [List.cons_append, run, run]
      cases r.step a c with
      | none => rfl
      | some r' => exact ih r'

def Reader.Whole (r : Reader α) : Prop :=
  r.phase = .plain ∨ r.phase = .quote ∨ (r.phase = .record ∨ r.phase = .field) ∧ r.text = []

theorem run_plain {r : Reader α} (hphase : r.phase = .plain) {field : List α}
    (hfield : ∀ c ∈ field, ¬ (c = a.comma ∨ c = a.quote ∨ c = a.cr ∨ c = a.lf)) :
    r.run a field = some { r with text := r.text ++ field } := by
  induction field generalizing r with
  | nil =>
      rw [Reader.run, List.append_nil]
  | cons c field ih =>
      have hc := hfield c List.mem_cons_self
      simp only [not_or] at hc
      obtain ⟨hcomma, hquote, hcr, hlf⟩ := hc
      have hstep : r.step a c = some (r.add c .plain) := by
        simp [Reader.step, hphase, hcomma, hquote, hcr, hlf]
      rw [Reader.run, hstep, Option.bind_some, ih rfl fun d hd => hfield d (List.mem_cons_of_mem _ hd)]
      simp [Reader.add, hphase]

theorem run_doubled {r : Reader α} (hphase : r.phase = .quoted) (field : List α) :
    r.run a (field.flatMap fun c => if c = a.quote then [a.quote, a.quote] else [c]) =
      some { r with text := r.text ++ field } := by
  induction field generalizing r with
  | nil =>
      rw [List.flatMap_nil, Reader.run, List.append_nil]
  | cons c field ih =>
      have hfirst : r.run a (if c = a.quote then [a.quote, a.quote] else [c]) = some (r.add c .quoted) := by
        by_cases hc : c = a.quote
        · subst hc
          simp [Reader.run, Reader.step, hphase, Reader.add]
        · simp [Reader.run, Reader.step, hphase, hc]
      rw [List.flatMap_cons, Reader.run_append, hfirst, Option.bind_some, ih rfl]
      simp [Reader.add, hphase]

/-- A field that is written is read, up to its end. -/
theorem run_field {r : Reader α} (hphase : r.phase = .record ∨ r.phase = .field) (htext : r.text = [])
    (field : List α) :
    ∃ r' : Reader α, r.run a (writeField a field) = some r' ∧ r'.Whole ∧ r'.text = field ∧ r'.fields = r.fields ∧
      r'.records = r.records := by
  have hstart : ∀ c, r.step a c = r.start a c := by
    intro c
    rcases hphase with h | h <;> simp [Reader.step, h]
  unfold writeField
  split_ifs with hspecial
  · have hquote : r.step a a.quote = some { r with phase := .quoted } := by
      rw [hstart, Reader.start, if_pos rfl]
    refine ⟨{ r with text := field, phase := .quote }, ?_, .inr (.inl rfl), rfl, rfl, rfl⟩
    rw [List.cons_append, Reader.run, hquote, Option.bind_some, Reader.run_append, run_doubled rfl,
      Option.bind_some]
    simp [Reader.run, Reader.step, htext]
  · cases field with
    | nil => exact ⟨r, rfl, .inr (.inr ⟨hphase, htext⟩), htext, rfl, rfl⟩
    | cons c field =>
        have hplain : ∀ d ∈ c :: field, ¬ (d = a.comma ∨ d = a.quote ∨ d = a.cr ∨ d = a.lf) := by
          intro d hd hcounts
          exact hspecial (List.any_eq_true.mpr ⟨d, hd, decide_eq_true hcounts⟩)
        have hc := hplain c List.mem_cons_self
        simp only [not_or] at hc
        have hfirst : r.step a c = some (r.add c .plain) := by
          rw [hstart]
          simp [Reader.start, hc]
        refine ⟨{ r.add c .plain with text := (r.add c .plain).text ++ field }, ?_, .inl rfl, ?_, rfl, rfl⟩
        · rw [Reader.run, hfirst, Option.bind_some, run_plain rfl fun d hd => hplain d (List.mem_cons_of_mem _ hd)]
        · simp [Reader.add, htext]

theorem step_comma {r : Reader α} (h : r.Whole) : r.step a a.comma = some (r.endField .field) := by
  obtain ⟨hquote, hcr, hlf, -⟩ := a.ne
  rcases h with h | h | ⟨h | h, -⟩ <;> simp [Reader.step, Reader.start, h, hquote]

theorem step_cr {r : Reader α} (h : r.Whole) : r.step a a.cr = some (r.endField .cr) := by
  obtain ⟨-, hcomma, -, hquote, -, -⟩ := a.ne
  rcases h with h | h | ⟨h | h, -⟩ <;> simp [Reader.step, Reader.start, h, Ne.symm hquote, Ne.symm hcomma]

/-- The fields of a record are read, up to the end of the last one. -/
theorem run_fields {r : Reader α} (hphase : r.phase = .record ∨ r.phase = .field) (htext : r.text = [])
    (field : List α)
    (rest : List (List α)) : ∃ r' : Reader α, r.run a (writeRecord a (field :: rest)) = some r' ∧ r'.Whole ∧
      r'.fields ++ [r'.text] = r.fields ++ field :: rest ∧ r'.records = r.records := by
  induction rest generalizing r field with
  | nil =>
      obtain ⟨r', hrun, hwhole, htext', hfields, hrecords⟩ := run_field (a := a) hphase htext field
      refine ⟨r', ?_, hwhole, by rw [htext', hfields], hrecords⟩
      simpa [writeRecord, List.intercalate] using hrun
  | cons next rest ih =>
      obtain ⟨r', hrun, hwhole, htext', hfields, hrecords⟩ := run_field (a := a) hphase htext field
      obtain ⟨r'', hrun', hwhole', hfields', hrecords'⟩ :=
        @ih (r'.endField .field) (.inr rfl) rfl next
      refine ⟨r'', ?_, hwhole', ?_, hrecords'.trans hrecords⟩
      · rw [writeRecord, List.map_cons, List.map_cons, List.intercalate_cons_cons, List.append_assoc,
          Reader.run_append, hrun,
          Option.bind_some, List.singleton_append, Reader.run, step_comma hwhole, Option.bind_some]
        exact hrun'
      · rw [hfields']
        simp [Reader.endField, htext', hfields]

theorem run_record (records : List (List (List α))) {record : List (List α)} (hrecord : record ≠ []) :
    Reader.run a ⟨records, [], [], .record⟩ (writeRecord a record ++ [a.cr, a.lf]) =
      some ⟨records ++ [record], [], [], .record⟩ := by
  cases record with
  | nil => exact absurd rfl hrecord
  | cons field rest =>
      obtain ⟨r, hrun, hwhole, hfields, hrecords⟩ :=
        @run_fields _ _ a ⟨records, [], [], .record⟩ (.inl rfl) rfl field rest
      rw [Reader.run_append, hrun, Option.bind_some, Reader.run, step_cr hwhole, Option.bind_some]
      rw [List.nil_append] at hfields
      simp [Reader.run, Reader.step, Reader.endField, Reader.endRecord, hfields, hrecords]

theorem run_records (before records : List (List (List α))) (hrecords : ∀ record ∈ records, record ≠ []) :
    Reader.run a ⟨before, [], [], .record⟩ (records.flatMap fun record => writeRecord a record ++ [a.cr, a.lf]) =
      some ⟨before ++ records, [], [], .record⟩ := by
  induction records generalizing before with
  | nil =>
      rw [List.flatMap_nil, Reader.run, List.append_nil]
  | cons record records ih =>
      rw [List.flatMap_cons, Reader.run_append, run_record before (hrecords record List.mem_cons_self),
        Option.bind_some,
        ih _ fun record hrecord => hrecords record (List.mem_cons_of_mem _ hrecord), List.append_assoc,
        List.singleton_append]

theorem write_eq {records : List (List (List α))} (hne : records ≠ []) :
    write a records = records.flatMap fun record => writeRecord a record ++ [a.cr, a.lf] := by
  unfold write
  induction records with
  | nil => exact absurd rfl hne
  | cons record records ih =>
      cases records with
      | nil => simp [List.intercalate]
      | cons next records =>
          have hrest := ih (List.cons_ne_nil next records)
          rw [List.map_cons] at hrest
          rw [List.map_cons, List.map_cons, List.intercalate_cons_cons, List.append_assoc, hrest]
          rfl

/-- Records of one field or more are read as they were written. -/
theorem read_write {records : List (List (List α))} (hne : records ≠ [])
    (hrecords : ∀ record ∈ records, record ≠ []) :
    read a (write a records) = some records := by
  rw [read, write_eq hne]
  have hrun := run_records (a := a) [] records hrecords
  change Reader.run a {} _ = _ at hrun
  rw [hrun]
  rfl

end Reader

end Rfc4180
