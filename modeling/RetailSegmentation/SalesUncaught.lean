import Mathlib.Data.List.Forall2
import RetailSegmentation.SalesAnswers
import RetailSegmentation.SalesLedger

/-! Which requests `record_sale` answers, whatever the tables hold: with the sale, or with a refusal of its own. -/

namespace RetailSegmentation.Sales

open Program

/-! ### Requests that conform -/

def isHexDigit (c : Char) : Bool := ('0' ≤ c && c ≤ '9') || ('a' ≤ c && c ≤ 'f') || ('A' ≤ c && c ≤ 'F')

/-- Where a UUID has hex digits, and where hyphens. -/
def uuidShape : List Bool := List.intercalate [false] ([8, 4, 4, 4, 12].map fun n => List.replicate n true)

/-- The pattern of `customer_id` in the contract, and the form of `str(UUID(...))`. -/
def IsUuidText (text : String) : Prop :=
  List.Forall₂ (fun hex c => if hex then isHexDigit c = true else c = '-') uuidShape text.toList

instance (text : String) : Decidable (IsUuidText text) :=
  inferInstanceAs (Decidable (List.Forall₂ _ uuidShape text.toList))

theorem IsUuidText.mem {text : String} (h : IsUuidText text) {c : Char} (hc : c ∈ text.toList) :
    isHexDigit c = true ∨ c = '-' := by
  unfold IsUuidText at h
  generalize uuidShape = shape at h
  generalize text.toList = chars at h hc
  induction h with
  | nil => cases hc
  | @cons hex c' shape chars hfirst _ ih =>
      rcases List.mem_cons.mp hc with rfl | hc
      · cases hex with
        | true => exact .inl hfirst
        | false => exact .inr hfirst
      · exact ih hc

theorem IsUuidText.hasNul {text : String} (h : IsUuidText text) : hasNul text = false := by
  unfold Sales.hasNul
  rw [List.contains_eq_mem, decide_eq_false_iff_not]
  intro hnul
  rcases h.mem hnul with hhex | heq
  · exact absurd hhex (by decide)
  · exact absurd heq (by decide)

theorem IsUuidText.length {text : String} (h : IsUuidText text) : text.length = 36 := by
  rw [← String.length_toList]
  exact (List.Forall₂.length_eq h).symm

/-- The body conforms to the schema, and the Idempotency-Key is one that the service has read. -/
structure Conforms (request : SaleRequest) : Prop where
  customer : IsUuidText request.body.customerId
  key : ∀ key, request.key = some key → IsUuidText key

/-- `sale` is what the request's own values make of it. -/
structure Prepared (request : SaleRequest) (sale : ValidSale) : Prop where
  key : ∃ key, request.key = some key ∧ sale.source = namespacePrefix ++ key
  body : sale.body = request.body
  sub : sale.sub = request.sub
  accepted : Acceptable request.now request.body sale.occurredAt sale.lines

/-- The quantities, the prices and the total fit their columns. -/
structure FitsColumns (sale : ValidSale) : Prop where
  lines : ∀ line ∈ sale.lines, isInt line.quantity = true ∧ fitsPrice line.unitPrice = true
  total : fitsTotal (saleTotal sale.lines) = true

section Requests

variable {pg : Postgres} {cat : Catalog} {clock : Instant} {request : SaleRequest} {sale : ValidSale}

theorem Prepared.normalized (hconforms : Conforms request) (h : Prepared request sale) : sale.Normalized := by
  obtain ⟨key, hkey, hsource⟩ := h.key
  have huuid := hconforms.key key hkey
  have hlines : ∀ line ∈ sale.lines, ∃ asked ∈ request.body.lines, asked.normalized = some line :=
    fun line hline =>
    h.accepted.exists_of_mem hline
  refine ⟨⟨?_, ?_, ?_⟩, ?_, ?_, h.accepted.total⟩
  · rw [hsource]
    unfold inNamespace
    rw [String.toList_append]
    exact List.isPrefixOf_iff_prefix.mpr (List.prefix_append _ _)
  · rw [hsource, String.length_append, huuid.length]
    decide
  · have hnul := huuid.hasNul
    rw [hsource]
    unfold hasNul at hnul ⊢
    rw [String.toList_append, List.contains_eq_mem, decide_eq_false_iff_not, List.mem_append, not_or]
    rw [List.contains_eq_mem, decide_eq_false_iff_not] at hnul
    exact ⟨by decide, hnul⟩
  · exact h.accepted.nodup
  · intro line hline
    obtain ⟨asked, -, hasked⟩ := hlines line hline
    obtain ⟨-, -, hcents, hpositive, hmost, hless⟩ := BodyLine.normalized_some hasked
    obtain ⟨price, -, hprice⟩ := Option.bind_eq_some_iff.mp hcents
    exact ⟨hpositive, hmost, Decimal.toCents_pos hprice, hless⟩

theorem ValidSale.Normalized.fits (h : sale.Normalized) : FitsColumns sale := by
  refine ⟨fun line hline => ?_, h.fitsTotal⟩
  obtain ⟨hquantity, hmost, hprice, hless⟩ := h.lines line hline
  unfold isInt fitsPrice maxQuantity at *
  simp only [Bool.and_eq_true, decide_eq_true_eq]
  omega

/-- What the request needs besides, so that it comes to an answer: a time within the years of a `datetime`,
and tables that its sale may be recorded in. -/
structure Manageable (pg : Postgres) (cat : Catalog) (clock : Instant) (ledger : Ledger)
    (sale : ValidSale) : Prop where
  years : 0 ≤ sale.occurredAt.instant ∧ sale.occurredAt.instant < maxInstant
  dates : ledger.captured sale.source = none → ∀ customer day, pg.uuidIn sale.body.customerId = some customer →
    cat.registeredOn customer = some day → pg.givesDate day = true
  tables : ledger.captured sale.source = none → ReferencesInOrder pg cat sale → Recordable pg cat clock ledger sale

theorem Manageable.of_prepared {ledger : Ledger} {other : ValidSale} (h : Manageable pg cat clock ledger sale)
    (hsale : Prepared request sale) (hother : Prepared request other) : Manageable pg cat clock ledger other := by
  obtain ⟨source, body, occurredAt, lines, digest, sub⟩ := sale
  obtain ⟨source', body', occurredAt', lines', digest', sub'⟩ := other
  obtain ⟨⟨key, hkey, rfl⟩, rfl, rfl, haccepted⟩ := hsale
  obtain ⟨⟨key', hkey', rfl⟩, rfl, rfl, haccepted'⟩ := hother
  obtain rfl := Option.some.inj (hkey.symm.trans hkey')
  obtain ⟨rfl, rfl⟩ : occurredAt = occurredAt' ∧ lines = lines' :=
    Prod.mk.inj (Except.ok.inj ((validateLocal_iff.mpr haccepted).symm.trans (validateLocal_iff.mpr haccepted')))
  refine ⟨h.years, h.dates, fun hcaptured horder => ?_⟩
  obtain ⟨hcolumns, hfresh, hcaller⟩ := h.tables hcaptured horder
  exact ⟨⟨hcolumns.time, hcolumns.store, hcolumns.channel, hcolumns.past⟩, hfresh, hcaller⟩

theorem settles_iff {ledger : Ledger} (huuid : ∀ text, IsUuidText text → (pg.uuidIn text).isSome = true)
    (hcustomer : IsUuidText sale.body.customerId) : Settles pg cat clock ledger sale ↔
      (∀ customer day, pg.uuidIn sale.body.customerId = some customer → cat.registeredOn customer = some day →
        pg.givesDate day = true) ∧ (ReferencesInOrder pg cat sale → Recordable pg cat clock ledger sale) := by
  refine and_congr_left fun _ => ?_
  obtain ⟨customer, hknown⟩ := Option.isSome_iff_exists.mp (huuid _ hcustomer)
  unfold saleReferences
  rw [hcustomer.hasNul, if_neg Bool.false_ne_true, hknown]
  dsimp only
  cases hregistered : cat.registeredOn customer with
  | none =>
      refine ⟨fun _ other day hother hday => ?_, fun _ => nofun⟩
      obtain rfl := Option.some.inj hother
      rw [hregistered] at hday
      cases hday
  | some day =>
      dsimp only
      cases hgives : pg.givesDate day with
      | false =>
          refine ⟨fun h => absurd (if_neg Bool.false_ne_true) (h (.dataError .other)), fun h => ?_⟩
          have htrue := h customer day rfl hregistered
          rw [hgives] at htrue
          cases htrue
      | true =>
          refine ⟨fun _ other day' hother hday => ?_, fun _ e => by rw [if_pos rfl]; exact nofun⟩
          obtain rfl := Option.some.inj hother
          obtain rfl := Option.some.inj (hregistered.symm.trans hday)
          exact hgives

theorem canonical_isSome {body : SaleBody} {occurredAt : Timestamp} {lines : List SaleLine} {sub : String} :
    (canonical body occurredAt lines sub).isSome = true ↔
      0 ≤ occurredAt.instant ∧ occurredAt.instant < maxInstant := by
  unfold canonical
  split_ifs with h
  · exact iff_of_true rfl h
  · exact iff_of_false nofun h

theorem answered_prepared_iff {ledger : Ledger} (hconforms : Conforms request)
    (huuid : ∀ text, IsUuidText text → (pg.uuidIn text).isSome = true)
    (hproducts : ∀ id active, cat.productIsActive id = some active →
      isInt id = true) (hreferenced : ledger.Referenced)
    (hsale : Prepared request sale) (hyears : 0 ≤ sale.occurredAt.instant ∧ sale.occurredAt.instant < maxInstant) :
    IsAnswer ((replay sale.source sale.digest >>= fun replayed => match replayed with
      | some answer => pure answer
      | none => recordAttempts sale 2).run (Session.handle pg cat clock) (Session.idle ledger)).1 ↔
      Manageable pg cat clock ledger sale := by
  have hcustomer : IsUuidText sale.body.customerId := by
    rw [hsale.body]
    exact hconforms.customer
  by_cases hcaptured : ledger.captured sale.source = none
  · rw [run_then (run_replay_none sale.digest hcaptured)]
    dsimp only
    rw [recordAttempts_answered_iff (hsale.normalized hconforms) hreferenced hproducts hcaptured,
      settles_iff huuid hcustomer]
    exact ⟨fun h => ⟨hyears, fun _ => h.1, fun _ => h.2⟩, fun h => ⟨h.dates hcaptured, h.tables hcaptured⟩⟩
  · refine iff_of_true ?_ ⟨hyears, fun h => absurd h hcaptured, fun h => absurd h hcaptured⟩
    rcases @run_replay_some pg cat clock sale.source sale.digest ledger hcaptured with ⟨answer, hrun⟩ | hrun
    · rw [run_then hrun]
      exact nofun
    · rw [Prog.run_bind, hrun]
      exact answered_api keyReused

end Requests

/-! ### The first year -/

/-- PostgreSQL of a corner shop that takes every UUID. -/
def plainPostgres : Postgres where
  uuidIn text := if IsUuidText text then some (String.ofList (text.toList.map Char.toLower)) else none
  takesTimestamp _ := true
  givesTimestamp _ := true
  givesDate _ := true

def plainBody (storeId : ℤ) (occurredAt : Timestamp) : SaleBody :=
  ⟨cornerCustomer, storeId, 1, some occurredAt, [⟨7, some 2, some (.finite false 250 (-2))⟩]⟩

/-- Two units, said to be sold at this time. -/
def plainRequest (storeId : ℤ) (occurredAt : Timestamp) : SaleRequest :=
  ⟨some cornerCustomer, cornerCustomer, plainBody storeId occurredAt, 739000 * microsecondsPerDay⟩

/-- The first midnight of year 1, an hour east. -/
def firstMidnight : Timestamp := ⟨0, some 3600000000⟩

def anyDay : Timestamp := ⟨738000 * microsecondsPerDay, some 0⟩

theorem plainRequest_conforms (storeId : ℤ) (occurredAt : Timestamp) :
    Conforms (plainRequest storeId occurredAt) where
  customer := (by decide : IsUuidText cornerCustomer)
  key key hkey := by
    obtain rfl := Option.some.inj hkey
    decide

end RetailSegmentation.Sales
