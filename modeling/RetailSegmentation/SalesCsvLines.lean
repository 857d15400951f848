import RetailSegmentation.CsvReader
import RetailSegmentation.SalesLoad

/-! The line numbers of a load's rejections: `load_sales_csv` counts the records that have fields, which is
the physical line only as long as every record before is one line with fields. -/

namespace RetailSegmentation.Sales

open Program Csv

/-- An upload: its text as `utf-8-sig` decodes it, if it does. -/
abbrev Upload := Option (List Char)

/-- What the passes before the load and the reader itself make of an upload. -/
def readUpload : Upload → SalesFile
  | none => .undecodable
  | some text => match records {} text with
    | .error (line, .fieldLimit) => .fieldTooLong line
    | .error (line, .strayNewline) => .unparsable line
    | .ok rs => .records (rs.map Record.fields)

def uploadRecords (upload : Upload) : List Record := ((upload.map (records {})).bind Except.toOption).getD []

/-- A rejected record, with the number the load gave it. -/
structure RejectedRecord where
  lineNumber : ℕ
  record : Record
  reason : Rejection
  deriving DecidableEq, Repr

def RejectedRecord.report (r : RejectedRecord) : RowRejection := ⟨r.lineNumber, r.reason.text⟩

section Lines

variable (pg : Postgres) (cat : Catalog) (parsers : Parsers) (times : ℕ → Instant × Instant)

/-- The records rejected, in file order; none after one that raises something else. -/
def rejectedRecords : List (Record × ℕ) → Ledger → List RejectedRecord
  | [], _ => []
  | (record, line) :: rest, ledger =>
    match parseRow parsers record.fields with
    | .error reason => ⟨line, record, reason⟩ :: rejectedRecords rest ledger
    | .ok row => match ingest pg cat (callAt times line row) ledger with
      | (.ok (), ledger') => rejectedRecords rest ledger'
      | (.error (.rowRejected reason), ledger') => ⟨line, record, reason⟩ :: rejectedRecords rest ledger'
      | (.error _, _) => []

def rejectedOf (upload : Upload) (ledger : Ledger) : List RejectedRecord :=
  rejectedRecords pg cat parsers times (numbered 2 (uploadRecords upload).tail) ledger

variable {pg cat parsers times}

theorem loadRows_rejections {line : ℕ} {rs : List Record} {received received' : ℕ}
    {rejections rejections' : List RowRejection} {ledger ledger' : Ledger}
    (h : loadRows pg cat parsers times line (rs.map Record.fields) received rejections ledger =
      (.ok (received', rejections'), ledger')) :
    rejections' = rejections ++
      (rejectedRecords pg cat parsers times (rs.zipIdx line) ledger).map RejectedRecord.report := by
  induction rs generalizing line received rejections ledger with
  | nil =>
      cases h
      exact (List.append_nil _).symm
  | cons record rs ih =>
      rw [List.map_cons] at h
      unfold loadRows at h
      rw [List.zipIdx_cons]
      unfold rejectedRecords
      cases hparse : parseRow parsers record.fields with
      | error reason =>
          rw [hparse] at h
          simp only at h ⊢
          rw [ih h, List.append_assoc]
          rfl
      | ok row =>
          rw [hparse] at h
          simp only at h ⊢
          rcases hingest : ingest pg cat (callAt times line row) ledger with ⟨result, after⟩
          rw [hingest] at h
          cases result with
          | ok _ => exact ih h
          | error e =>
              cases e with
              | rowRejected reason =>
                  simp only at h ⊢
                  rw [ih h, List.append_assoc]
                  rfl
              | _ => cases h

theorem dataRecords_fields (rs : List Record) :
    dataRecords (rs.map Record.fields) = (rs.filter fun r => r.fields ≠ []).map Record.fields := by
  unfold dataRecords
  rw [List.filter_map]
  rfl

theorem mem_rejectedRecords {rows : List (Record × ℕ)} {ledger : Ledger} {r : RejectedRecord}
    (hr : r ∈ rejectedRecords pg cat parsers times rows ledger) : (r.record, r.lineNumber) ∈ rows := by
  induction rows generalizing ledger with
  | nil => cases hr
  | cons row rows ih =>
      unfold rejectedRecords at hr
      split at hr
      · obtain rfl | hr := List.mem_cons.mp hr
        · exact List.mem_cons_self
        · exact List.mem_cons_of_mem _ (ih hr)
      · split at hr
        · exact List.mem_cons_of_mem _ (ih hr)
        · obtain rfl | hr := List.mem_cons.mp hr
          · exact List.mem_cons_self
          · exact List.mem_cons_of_mem _ (ih hr)
        · cases hr

theorem loadSalesCsv_ok {version : ℕ} {file : SalesFile} {ledger ledger' : Ledger} {report : LoadReport}
    (h : loadSalesCsv pg cat parsers times version file ledger = (.ok report, ledger')) :
    ∃ rows received, file = .records (expectedHeader :: rows) ∧
      loadRows pg cat parsers times 2 (dataRecords rows) 0 [] ledger = (.ok (received, report.rejections),
        ledger') := by
  unfold loadSalesCsv at h
  split at h
  · cases h
  split at h
  · cases h
  · cases h
  · cases h
  · cases h
  · rename_i header rows
    split at h
    · cases h
    rename_i hheader
    split at h
    · rename_i received rejections ledger'' hloop
      cases h
      exact ⟨rows, received, by rw [not_not.mp hheader], hloop⟩
    · cases h

theorem readUpload_records {upload : Upload} {rows : List (List String)} (h : readUpload upload = .records rows) :
    rows = (uploadRecords upload).map Record.fields ∧ Contiguous 1 (uploadRecords upload) := by
  unfold readUpload at h
  split at h
  · cases h
  · rename_i text
    split at h
    · cases h
    · cases h
    · rename_i rs hrecords
      cases h
      have hupload : uploadRecords (some text) = rs := by
        simp only [uploadRecords, Option.map_some, hrecords]
        rfl
      rw [hupload]
      exact ⟨rfl, contiguous_records hrecords⟩

/-- Every rejection of a load is a rejected record's, and names the physical line the record starts on exactly
when no record before it is blank or takes several lines. -/
theorem lineNumber_eq_start_iff (version : ℕ) (upload : Upload) (ledger ledger' : Ledger) (report : LoadReport)
    (h : loadSalesCsv pg cat parsers times version (readUpload upload) ledger = (.ok report, ledger')) :
    report.rejections = (rejectedOf pg cat parsers times upload ledger).map RejectedRecord.report ∧
    ∀ r ∈ rejectedOf pg cat parsers times upload ledger, r.record ∈ uploadRecords upload ∧
      (r.report.lineNumber = r.record.start ↔
        ∀ b ∈ uploadRecords upload, b.start < r.record.start → b.fields ≠ [] ∧ b.lines = 1) := by
  obtain ⟨rows, received, hfile, hloop⟩ := loadSalesCsv_ok h
  obtain ⟨hrows, hcontiguous⟩ := readUpload_records hfile
  cases hupload : uploadRecords upload with
  | nil =>
      rw [hupload] at hrows
      cases hrows
  | cons header rest =>
      rw [hupload, List.map_cons] at hrows
      obtain ⟨hheader, rfl⟩ := List.cons.inj hrows
      have hrejected : rejectedOf pg cat parsers times upload ledger =
          rejectedRecords pg cat parsers times (numbered 2 rest) ledger := by
        rw [rejectedOf, hupload, List.tail_cons]
      have hfields : header.fields ≠ [] := by
        rw [← hheader]
        exact List.cons_ne_nil _ _
      rw [dataRecords_fields] at hloop
      rw [hrejected, loadRows_rejections hloop, List.nil_append]
      refine ⟨rfl, fun r hr => ?_⟩
      have hnumbered : (r.record, r.lineNumber) ∈ numbered 1 (header :: rest) := by
        rw [numbered_fields hfields]
        exact List.mem_cons_of_mem _ (mem_rejectedRecords hr)
      rw [hupload] at hcontiguous
      exact ⟨mem_of_numbered hnumbered, number_eq_start_iff hcontiguous hnumbered⟩

end Lines

/-- A header, an empty line and a line of one column. -/
def blankUpload : Upload :=
  some ("transaction_id,customer_id,store_id,channel_id,occurred_at,product_id,quantity,unit_price\n\nx\n".toList)

theorem blankUpload_records : uploadRecords blankUpload =
    [⟨1, 1, expectedHeader⟩, ⟨2, 1, []⟩, ⟨3, 1, ["x"]⟩] := by
  decide +kernel

theorem blankUpload_read : readUpload blankUpload = .records [expectedHeader, [], ["x"]] := by
  decide +kernel

theorem blankUpload_load (pg : Postgres) (cat : Catalog) (parsers : Parsers) (times : ℕ → Instant × Instant)
    (ledger : Ledger) : loadSalesCsv pg cat parsers times 1 (readUpload blankUpload) ledger =
      (.ok ⟨1, 0, 1, [⟨2, "row has fewer columns than the header"⟩]⟩, ledger) := by
  rw [blankUpload_read]
  rfl

def blankRejection : RejectedRecord := ⟨2, ⟨3, 1, ["x"]⟩, .tooFewColumns⟩

theorem blankUpload_rejected (pg : Postgres) (cat : Catalog) (parsers : Parsers) (times : ℕ → Instant × Instant)
    (ledger : Ledger) : rejectedOf pg cat parsers times blankUpload ledger = [blankRejection] := by
  unfold rejectedOf
  rw [blankUpload_records]
  rfl

theorem blankRejection_mem (pg : Postgres) (cat : Catalog) (parsers : Parsers) (times : ℕ → Instant × Instant)
    (ledger : Ledger) : blankRejection ∈ rejectedOf pg cat parsers times blankUpload ledger := by
  rw [blankUpload_rejected]
  exact List.mem_singleton_self _

/-- The record after an empty line is reported on the empty line. -/
theorem lineNumber_ne_start_blank : ¬ ∀ (upload : Upload) (ledger ledger' : Ledger) (report : LoadReport),
    loadSalesCsv cornerPostgres cornerCatalog cornerParsers cornerTimes 1 (readUpload upload) ledger =
      (.ok report, ledger') →
    ∀ r ∈ rejectedOf cornerPostgres cornerCatalog cornerParsers cornerTimes upload ledger,
      r.report.lineNumber = r.record.start := by
  intro h
  have heq := h blankUpload cornerLedger cornerLedger _ (blankUpload_load _ _ _ _ _) blankRejection
    (blankRejection_mem _ _ _ _ _)
  exact absurd heq (by decide)

/-- In the same file the condition fails as the number does. -/
theorem lineNumber_eq_start_iff_blank :
    blankRejection.record ∈ uploadRecords blankUpload ∧
      (blankRejection.report.lineNumber = blankRejection.record.start ↔
      ∀ b ∈ uploadRecords blankUpload, b.start < blankRejection.record.start → b.fields ≠ [] ∧ b.lines = 1) :=
  (lineNumber_eq_start_iff 1 blankUpload cornerLedger cornerLedger _
    (blankUpload_load cornerPostgres cornerCatalog cornerParsers cornerTimes cornerLedger)).2 blankRejection
    (blankRejection_mem _ _ _ _ _)

end RetailSegmentation.Sales
