import RetailSegmentation.SalesStock

/-! When a line is refused for stock. Either writer raises such a refusal, or answers one, only after the
statement that locks the inventory row, and names the line and what that statement found. -/

namespace RetailSegmentation.Sales

open Program

/-! ### Refusals -/

/-- The constraints under which `consume_v1` refuses. -/
def stockConstraint : DbError → Bool
  | .checkViolation constraint | .foreignKeyViolation constraint | .uniqueViolation constraint =>
    constraint == "no_stock_record" || constraint == "stock_unavailable"
  | _ => false

/-- The exceptions and answers that refuse a line for stock. -/
def StockRefused : Exc → Prop
  | .rowRejected (.noInventory _ _) => True
  | .rowRejected (.insufficientStock _ _ _) => True
  | .stockUnavailable _ _ _ => True
  | .stockRefusal _ e => stockConstraint e
  | .api e => e.code = "no_stock_record" ∨ e.code = "stock_unavailable"
  | .database e => stockConstraint e
  | _ => False

/-- What a locking read of an inventory row found. -/
structure Found where
  storeId : ℤ
  productId : ℤ
  onHand : Option ℤ
  deriving DecidableEq, Repr

/-- The constraint `consume_v1` refuses with. -/
def refusedConstraint : Option ℤ → String
  | none => "no_stock_record"
  | some _ => "stock_unavailable"

/-- The server itself never answers a statement with the refusal of `consume_v1`. -/
def Possible (c : Command) (r : Reply c) : Prop := ∀ e, r = .error e → stockConstraint e = false

/-- A refusal for stock is caused by the locking read, and nothing but a rollback follows it. -/
def stockCauses : Causes Command Reply Exc Found where
  possible := Possible
  shows c r found := match c, r with
    | .execute (.lockInventory storeId productId), .ok onHand => found = ⟨storeId, productId, onHand⟩
    | _, _ => False
  quiet c := c = .rollback
  needs := StockRefused

/-- `e` refuses the row's line, or the request's line at some index, for what was found. -/
def Job.Refuses (job : Job) (found : Found) (e : Exc) : Prop :=
  match job with
  | .row _ _ =>
    e = stockUnavailableRefusal (.stockUnavailable found.storeId found.productId found.onHand)
  | .sale request => ∃ index, request.body.lines[index]?.map BodyLine.productId = some found.productId ∧
    e = databaseRefusal index (.checkViolation (refusedConstraint found.onHand))

section Refused

variable {T : Type} [DecidableEq T] {pg : Postgres} {cat : Catalog} {t : T}

/-! ### Refused statements -/

theorem stockConstraint_effect {clock : Instant} {s : Statement} {ledger : Ledger} {e : DbError}
    (herror : (effect pg cat clock s ledger).1 = .error e) : stockConstraint e = false := by
  rcases effect_error herror with ⟨kind, rfl⟩ | hconstraint
  · rfl
  · have hnone : ∀ e ∈ s.constraints, stockConstraint e = false := by
      cases s <;> simp [Statement.constraints, stockConstraint]
    exact hnone e hconstraint

theorem possible_of_step {c : Command} {r : Reply c} {db db' : SalesDb T}
    (hstep : salesStep pg cat t c db r db') : Possible c r := by
  have habort : ∀ e, IsAbort e → stockConstraint e = false := by
    rintro e (rfl | rfl | rfl) <;> rfl
  rintro e rfl
  cases c with
  | execute s =>
      rcases SalesDb.step_execute hstep with ⟨clock, hr, -⟩ | ⟨e', he', hr, -⟩
      · exact stockConstraint_effect hr.symm
      · exact Except.error.inj hr ▸ habort e' he'
  | commit =>
      rcases SalesDb.step_commit hstep with ⟨hr | ⟨e', he', hr⟩, -⟩ | ⟨e', rfl | he', hr, -⟩
      · cases hr
      · exact Except.error.inj hr ▸ habort e' he'
      · exact Except.error.inj hr ▸ by decide
      · exact Except.error.inj hr ▸ habort e' he'
  | rollback =>
      rcases (SalesDb.step_rollback hstep).1 with hr | ⟨e', he', hr⟩
      · cases hr
      · exact Except.error.inj hr ▸ habort e' he'

end Refused

/-! ### Checks -/

theorem checkRow_refusal {now : Instant} {row : SalesRow} {reason : Rejection}
    (hcheck : checkRow now row = .error reason) : ¬StockRefused (.rowRejected reason) := by
  unfold checkRow at hcheck
  dsimp only at hcheck
  split_ifs at hcheck
  iterate 7 (rw [← Except.error.inj hcheck]; exact id)
  split at hcheck
  · rw [← Except.error.inj hcheck]; exact id
  · split_ifs at hcheck
    rw [← Except.error.inj hcheck]; exact id

theorem checkReferences_refusal {row : SalesRow} {references : Option SaleReferences} {reason : Rejection}
    (hcheck : checkReferences row references = .error reason) : ¬StockRefused (.rowRejected reason) := by
  unfold checkReferences at hcheck
  split at hcheck
  · rw [← Except.error.inj hcheck]; exact id
  split_ifs at hcheck
  · rw [← Except.error.inj hcheck]; exact id
  split at hcheck
  · rw [← Except.error.inj hcheck]; exact id
  · rw [← Except.error.inj hcheck]; exact id
  · cases hcheck

theorem checkHeader_refusal {row : SalesRow} {source : String} {header : Header} {reason : Rejection}
    (hcheck : checkHeader row source header = .error reason) : ¬StockRefused (.rowRejected reason) := by
  unfold checkHeader at hcheck
  split_ifs at hcheck
  · rw [← Except.error.inj hcheck]; exact id
  · rw [← Except.error.inj hcheck]; exact id

theorem validateLine_refusal {seen : List ℤ} {index : ℕ} {line : BodyLine} {e : ApiError}
    (hline : validateLine seen index line = .error e) : ¬StockRefused (.api e) := by
  unfold validateLine at hline
  split_ifs at hline
  iterate 3 (rw [← Except.error.inj hline]; simp [StockRefused, lineError])
  split at hline
  · rw [← Except.error.inj hline]; simp [StockRefused, lineError]
  · split_ifs at hline
    rw [← Except.error.inj hline]; simp [StockRefused, lineError]

theorem validateLines_refusal {seen : List ℤ} {index : ℕ} {lines : List BodyLine} {e : ApiError}
    (hlines : validateLines seen index lines = .error e) : ¬StockRefused (.api e) := by
  induction lines generalizing seen index with
  | nil => cases hlines
  | cons line rest ih =>
      rw [validateLines] at hlines
      cases hfirst : validateLine seen index line with
      | error e' =>
          rw [hfirst] at hlines
          obtain rfl : e' = e := Except.error.inj hlines
          exact validateLine_refusal hfirst
      | ok first =>
          rw [hfirst] at hlines
          cases hothers : validateLines (line.productId :: seen) (index + 1) rest with
          | error e' =>
              rw [hothers] at hlines
              obtain rfl : e' = e := Except.error.inj hlines
              exact ih hothers
          | ok others =>
              rw [hothers] at hlines
              cases hlines

theorem validateLocal_refusal {now : Instant} {body : SaleBody} {e : ApiError}
    (hlocal : validateLocal now body = .error e) : ¬StockRefused (.api e) := by
  unfold validateLocal at hlocal
  split_ifs at hlocal
  · rw [← Except.error.inj hlocal]; simp [StockRefused]
  cases hlines : validateLines [] 0 body.lines with
  | error e' =>
      rw [hlines] at hlocal
      obtain rfl : e' = e := Except.error.inj hlocal
      exact validateLines_refusal hlines
  | ok lines =>
      rw [hlines] at hlocal
      change (if _ then _ else _ : Except ApiError (Timestamp × List SaleLine)) = _ at hlocal
      split_ifs at hlocal
      · rw [← Except.error.inj hlocal]; simp [StockRefused]
      split at hlocal
      · rw [← Except.error.inj hlocal]; simp [StockRefused]
      split_ifs at hlocal
      · rw [← Except.error.inj hlocal]; simp [StockRefused]
      · rw [← Except.error.inj hlocal]; simp [StockRefused]

theorem checkProducts_refusal {states : List (ℤ × Bool)} {index : ℕ} {lines : List SaleLine} {e : ApiError}
    (hcheck : checkProducts states index lines = .error e) : ¬StockRefused (.api e) := by
  rcases checkProducts_error hcheck with hcode | hcode <;> simp [StockRefused, hcode]

theorem prepare_refusal {sha256 : CanonicalSale → Digest} {request : SaleRequest} {e : Exc}
    (hprepare : prepare sha256 request = .error e) : ¬StockRefused e := by
  unfold prepare at hprepare
  split at hprepare
  · rw [← Except.error.inj hprepare]; simp [StockRefused, keyRequired]
  split at hprepare
  · rename_i e' hlocal
    rw [← Except.error.inj hprepare]
    exact validateLocal_refusal hlocal
  split at hprepare
  · rw [← Except.error.inj hprepare]; exact id
  · cases hprepare

theorem databaseRefusal_refusal {index : ℕ} {e : DbError} (hconstraint : stockConstraint e = false) :
    ¬StockRefused (databaseRefusal index e) := by
  have hdatabase : ¬StockRefused (.database e) := Bool.eq_false_iff.mp hconstraint
  unfold databaseRefusal
  split
  iterate 3
    simp only [stockConstraint, Bool.or_eq_false_iff, beq_eq_false_iff_ne] at hconstraint
    rw [if_neg hconstraint.1, if_neg hconstraint.2]
    split_ifs
    · simp [StockRefused]
    · simp [StockRefused]
    · exact hdatabase
  exact hdatabase

theorem headerMalformed_refusal (kind : DataErrorKind) :
    ¬StockRefused (.rowRejected (headerMalformed kind)) := by
  cases kind <;> exact id

theorem lineMalformed_refusal (kind : DataErrorKind) :
    ¬StockRefused (.rowRejected (lineMalformed kind)) := by
  cases kind <;> exact id

theorem referencesRefusal_refusal {e : DbError} (he : stockConstraint e = false) :
    ¬StockRefused (referencesRefusal e) := by
  cases e with
  | dataError kind => exact headerMalformed_refusal kind
  | _ => exact Bool.eq_false_iff.mp he

theorem headerInsertRefusal_refusal {source : String} {e : DbError} (he : stockConstraint e = false) :
    ¬StockRefused (headerInsertRefusal source e) := by
  cases e with
  | dataError kind => exact headerMalformed_refusal kind
  | foreignKeyViolation constraint => exact id
  | uniqueViolation constraint => exact id
  | _ => exact Bool.eq_false_iff.mp he

theorem lineInsertRefusal_refusal {source : String} {productId : ℤ} {e : DbError}
    (he : stockConstraint e = false) : ¬StockRefused (lineInsertRefusal source productId e) := by
  cases e with
  | dataError kind => exact lineMalformed_refusal kind
  | foreignKeyViolation constraint => exact id
  | uniqueViolation constraint => exact id
  | _ => exact Bool.eq_false_iff.mp he

/-! ### Statements and transactions -/

section Programs

-- The programs are not evaluated through the checks of their requests.
seal checkRow prepare

variable {α : Type} {fits : Found → Exc → Prop} {x : Option Found}

theorem excuses_of_not {e : Exc} (he : ¬StockRefused e) : stockCauses.Excuses fits x e :=
  fun hneeds => absurd hneeds he

theorem excuses_database {e : DbError} (he : stockConstraint e = false) :
    stockCauses.Excuses fits x (.database e) := excuses_of_not (Bool.eq_false_iff.mp he)

theorem justified_call (c : Command) : (call c).Justified stockCauses fits none := by
  intro r hpossible
  refine ⟨none, .inl rfl, ?_⟩
  cases r with
  | ok v => trivial
  | error e => exact excuses_database (hpossible e rfl)

theorem justified_execute (s : Statement) : (execute s).Justified stockCauses fits none :=
  justified_call (.execute s)

theorem justified_atomic {body : SalesProg Unit} (hbody : body.Justified stockCauses fits none) :
    (atomic body).Justified stockCauses fits none := by
  refine Prog.Justified.tryCatch (hbody.bind fun _ => justified_call .commit) fun x e he => ?_
  intro r hpossible
  cases r with
  | ok v => exact ⟨x, .inr (.inl ⟨rfl, rfl⟩), he⟩
  | error e' => exact ⟨none, .inl rfl, excuses_database (hpossible e' rfl)⟩

theorem justified_check {result : Except Rejection α}
    (hresult : ∀ reason, result = .error reason → ¬StockRefused (.rowRejected reason)) :
    (check result).Justified stockCauses fits none := by
  cases result with
  | ok a => trivial
  | error reason => exact excuses_of_not (hresult reason rfl)

theorem justified_translating {p : SalesProg α} {translate : DbError → Exc}
    (hp : p.Justified stockCauses (fun _ _ => False) none)
    (htranslate : ∀ e, stockConstraint e = false → ¬StockRefused (translate e)) :
    (translating p translate).Justified stockCauses fits none := by
  refine Prog.Justified.tryCatch hp fun x e he => ?_
  have hnot : ¬StockRefused e := fun h => (he h).elim fun _ h => h.2
  cases e with
  | database e => exact excuses_of_not (htranslate e (Bool.eq_false_iff.mpr hnot))
  | _ => exact excuses_of_not hnot

theorem justified_lock {storeId productId : ℤ} {f : Option ℤ → SalesProg α}
    (hf : ∀ onHand, (f onHand).Justified stockCauses fits (some ⟨storeId, productId, onHand⟩)) :
    (execute (.lockInventory storeId productId) >>= f).Justified stockCauses fits none := by
  intro r hpossible
  cases r with
  | ok onHand => exact ⟨_, .inr (.inr ⟨_, rfl, rfl⟩), hf onHand⟩
  | error e => exact ⟨none, .inl rfl, excuses_database (hpossible e rfl)⟩

/-! ### The two programs -/

theorem justified_decrementStock (storeId productId quantity : ℤ) :
    (decrementStock storeId productId quantity).Justified stockCauses (fun found e =>
      e = .stockUnavailable found.storeId found.productId found.onHand) none := by
  refine (justified_execute _).bind fun updated => ?_
  cases updated with
  | some remaining => trivial
  | none => exact justified_lock fun onHand _ => ⟨_, rfl, rfl⟩

theorem justified_takeStock (now : Instant) (row : SalesRow) :
    (takeStock row).Justified stockCauses (Job.row now row).Refuses none := by
  refine Prog.Justified.tryCatch ((justified_decrementStock _ _ _).bind fun _ => trivial) fun x e he hneeds => ?_
  cases e with
  | stockUnavailable storeId productId available =>
      obtain ⟨found, rfl, hfits⟩ := he trivial
      exact ⟨found, rfl, congrArg stockUnavailableRefusal hfits⟩
  | _ =>
      obtain ⟨found, -, hfits⟩ := he hneeds
      cases hfits

theorem justified_ingestRow (now : Instant) (row : SalesRow) :
    (ingestRow now row).Justified stockCauses (Job.row now row).Refuses none := by
  refine justified_atomic ?_
  refine Prog.Justified.bind (justified_check fun _ => checkRow_refusal) fun (source, price) => ?_
  refine Prog.Justified.bind ?_ fun _ => ?_
  · refine (justified_translating (justified_execute _) fun _ => referencesRefusal_refusal).bind
      fun references => ?_
    exact justified_check fun _ => checkReferences_refusal
  refine Prog.Justified.bind ?_ fun _ => ?_
  · refine (justified_execute _).bind fun found => ?_
    cases found with
    | none => exact justified_translating (justified_execute _) fun _ => headerInsertRefusal_refusal
    | some header => exact justified_check fun _ => checkHeader_refusal
  refine Prog.Justified.bind ?_ fun _ => ?_
  · exact justified_translating (justified_execute _) fun _ => lineInsertRefusal_refusal
  exact (justified_takeStock now row).bind fun _ => justified_execute _

theorem justified_consume (storeId productId quantity : ℤ) :
    (consume storeId productId quantity).Justified stockCauses (fun found e =>
      found.productId = productId ∧
        e = .database (.checkViolation (refusedConstraint found.onHand))) none := by
  unfold consume
  split_ifs
  · exact excuses_database rfl
  · refine (justified_execute _).bind fun updated => ?_
    cases updated with
    | some remaining => trivial
    | none =>
        refine justified_lock fun onHand => ?_
        cases onHand with
        | none => exact fun _ => ⟨_, rfl, rfl, rfl⟩
        | some onHand => exact fun _ => ⟨_, rfl, rfl, rfl⟩

theorem justified_insertSaleLines (source : String) (lines : List SaleLine) :
    (insertSaleLines source lines).Justified stockCauses fits none := by
  induction lines with
  | nil => trivial
  | cons line lines ih => exact (justified_execute _).bind fun _ => ih

/-- What `_consume` raises: the refusal, with the place of the line in the request. -/
def RefusesAt (request : SaleRequest) (found : Found) (e : Exc) : Prop :=
  ∃ index, request.body.lines[index]?.map BodyLine.productId = some found.productId ∧
    e = .stockRefusal index (.checkViolation (refusedConstraint found.onHand))

theorem justified_consumeLines {request : SaleRequest} (storeId : ℤ) (lines : List (ℕ × SaleLine))
    (hlines : ∀ e ∈ lines, request.body.lines[e.1]?.map BodyLine.productId = some e.2.productId) :
    (consumeLines storeId lines).Justified stockCauses (RefusesAt request) none := by
  induction lines with
  | nil => trivial
  | cons entry lines ih =>
      obtain ⟨index, line⟩ := entry
      refine Prog.Justified.bind ((justified_consume _ _ _).tryCatch fun x e he => ?_)
        fun _ => ih fun e he => hlines e (List.mem_cons_of_mem _ he)
      split
      · intro hneeds
        obtain ⟨found, rfl, hproduct, herror⟩ := he hneeds
        refine ⟨found, rfl, index, ?_, ?_⟩
        · rw [hproduct]
          exact hlines _ List.mem_cons_self
        · rw [Exc.database.inj herror]
      · intro hneeds
        rename_i hother
        obtain ⟨found, rfl, -, herror⟩ := he hneeds
        exact absurd herror (hother _)

theorem justified_validateReferences (sale : ValidSale) :
    (validateReferences sale).Justified stockCauses fits none := by
  refine (justified_execute _).bind fun registeredOn => ?_
  cases registeredOn with
  | none => exact excuses_of_not (by simp [StockRefused])
  | some day =>
      dsimp only
      split_ifs
      · exact excuses_of_not (by simp [StockRefused])
      · refine (justified_execute _).bind fun states => ?_
        unfold refuse
        split
        · trivial
        · rename_i e hcheck
          exact excuses_of_not (checkProducts_refusal hcheck)

theorem justified_readSale (source : String) : (readSale source).Justified stockCauses fits none := by
  refine (justified_execute _).bind fun header => ?_
  cases header with
  | none => trivial
  | some header => exact (justified_execute _).bind fun _ => trivial

theorem justified_replay (source : String) (digest : Digest) :
    (replay source digest).Justified stockCauses fits none := by
  refine (justified_execute _).bind fun found => ?_
  cases found with
  | none => trivial
  | some original =>
      refine (justified_readSale source).bind fun sale => ?_
      cases sale with
      | none => exact excuses_of_not id
      | some sale =>
          dsimp only
          split_ifs
          · exact excuses_of_not (by simp [StockRefused, keyReused])
          · trivial

/-- The lines of the request are those that were normalized, each in its place. -/
def SameLines (request : SaleRequest) (sale : ValidSale) : Prop :=
  ∀ (index : ℕ) (line : SaleLine), sale.lines[index]? = some line →
    request.body.lines[index]?.map BodyLine.productId = some line.productId

variable {request : SaleRequest} {sale : ValidSale}

theorem justified_insertSale (hlines : SameLines request sale) :
    (insertSale sale).Justified stockCauses (RefusesAt request) none := by
  refine (justified_execute _).bind fun _ => ?_
  refine (justified_insertSaleLines _ _).bind fun _ => ?_
  refine (justified_consumeLines _ _ fun e he => ?_).bind fun _ => justified_execute _
  have hperm : (indexedByProduct sale.lines).Perm (sale.lines.zipIdx.map Prod.swap) :=
    List.perm_insertionSort _ _
  obtain ⟨⟨line, index⟩, hline, rfl⟩ := List.mem_map.mp (hperm.mem_iff.mp he)
  exact hlines index line (List.mem_zipIdx_iff_getElem?.mp hline)

theorem justified_recordAttempt (hlines : SameLines request sale) :
    (recordAttempt sale).Justified stockCauses (RefusesAt request) none := by
  refine (justified_atomic ((justified_validateReferences sale).bind
    fun _ => justified_insertSale hlines)).bind fun _ => ?_
  refine (justified_readSale _).bind fun recorded => ?_
  cases recorded with
  | none => exact excuses_of_not id
  | some recorded => trivial

theorem justified_recordFailure {again : Option (SalesProg Representation)}
    (hagain : ∀ p, again = some p → p.Justified stockCauses (Job.sale request).Refuses none) {e : Exc}
    (he : stockCauses.Excuses (RefusesAt request) x e) :
    (recordFailure sale again e).Justified stockCauses (Job.sale request).Refuses x := by
  -- Only a `_StockRefusal` is left a refusal for stock.
  have hother : (∀ index e', e ≠ .stockRefusal index e') → ¬StockRefused e := by
    intro hne hneeds
    obtain ⟨found, -, index, -, herror⟩ := he hneeds
    exact hne _ _ herror
  have hretry : ∀ e : DbError, stockConstraint e = false →
      (again.getD (.raise (.database e))).Justified stockCauses (Job.sale request).Refuses x := by
    intro e he
    cases again with
    | none => exact excuses_database he
    | some p => exact (hagain p rfl).of_none
  unfold recordFailure
  split
  · exact hretry _ rfl
  · exact hretry _ rfl
  · have hnot := hother fun _ _ => nofun
    split_ifs
    · exact excuses_of_not hnot
    · refine ((justified_replay _ _).bind fun replayed => ?_).of_none
      cases replayed with
      | none => exact excuses_of_not hnot
      | some answer => trivial
  · rename_i index e'
    by_cases hconstraint : stockConstraint e'
    · obtain ⟨found, rfl, index', hline, herror⟩ := he hconstraint
      obtain ⟨rfl, rfl⟩ := Exc.stockRefusal.inj herror
      exact fun _ => ⟨found, rfl, index, hline, rfl⟩
    · exact excuses_of_not (databaseRefusal_refusal (Bool.eq_false_iff.mpr hconstraint))
  · exact excuses_of_not (databaseRefusal_refusal (Bool.eq_false_iff.mpr (hother fun _ _ => nofun)))
  · exact excuses_of_not (databaseRefusal_refusal (Bool.eq_false_iff.mpr (hother fun _ _ => nofun)))
  · rename_i hrefusal _ _
    exact excuses_of_not (hother hrefusal)

theorem justified_recordAttempts (hlines : SameLines request sale) (retries : ℕ) :
    (recordAttempts sale retries).Justified stockCauses (Job.sale request).Refuses none := by
  induction retries with
  | zero =>
      exact (justified_recordAttempt hlines).tryCatch fun _ _ he =>
        justified_recordFailure (fun _ h => by cases h) he
  | succ retries ih =>
      refine (justified_recordAttempt hlines).tryCatch fun _ _ he =>
        justified_recordFailure (fun p hp => ?_) he
      obtain rfl := Option.some.inj hp
      exact ih

theorem justified_recordSale (sha256 : CanonicalSale → Digest) (request : SaleRequest) :
    (recordSale sha256 request).Justified stockCauses (Job.sale request).Refuses none := by
  unfold recordSale
  cases hprepare : prepare sha256 request with
  | error e => exact excuses_of_not (prepare_refusal hprepare)
  | ok sale =>
      have hlines : SameLines request sale := by
        intro index line hline
        obtain ⟨asked, hasked, hproduct, -⟩ := (prepare_ok hprepare).2 index line hline
        rw [hasked, Option.map_some, hproduct]
      refine (justified_replay _ _).bind fun replayed => ?_
      cases replayed with
      | none => exact justified_recordAttempts hlines 2
      | some answer => trivial

theorem justified_program (sha256 : CanonicalSale → Digest) (job : Job) :
    (job.program sha256).Justified stockCauses job.Refuses none := by
  cases job with
  | row now row => exact (justified_ingestRow now row).bind fun _ => trivial
  | sale request => exact (justified_recordSale sha256 request).bind fun _ => trivial

end Programs

end RetailSegmentation.Sales
