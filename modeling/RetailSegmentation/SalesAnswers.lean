import Mathlib.Algebra.Order.BigOperators.Group.List
import RetailSegmentation.SalesAcceptance
import RetailSegmentation.SalesPosting
import RetailSegmentation.SalesRefusals

/-! How a phone sale ends, run alone on its connection: with the sale, with a refusal that the service words
itself, or with an error that it does not catch. -/

namespace RetailSegmentation.Sales

open Program

section Statements

variable {pg : Postgres} {cat : Catalog} {clock : Instant} {α : Type}

/-! ### References -/

theorem run_then {β : Type} {p : SalesProg α} {f : α → SalesProg β} {session after : Session} {a : α}
    (hrun : p.run (Session.handle pg cat clock) session = (.ok a, after)) :
    (p >>= f).run (Session.handle pg cat clock) session = (f a).run (Session.handle pg cat clock) after := by
  rw [Prog.run_bind, hrun]

theorem run_read {s : Statement} {session : Session} (hwrites : (effect pg cat clock s session.current).2 = []) :
    (execute s).run (Session.handle pg cat clock) session =
      ((effect pg cat clock s session.current).1.mapError Exc.database, session) := by
  rw [run_execute, hwrites]
  simp [Ledger.writes]

/-- What `_validate_references` ends with. -/
def referencesVerdict (pg : Postgres) (cat : Catalog) (sale : ValidSale) : Except Exc Unit :=
  match saleReferences pg cat sale.body.customerId 0 with
  | .error e => .error (.database e)
  | .ok none =>
    .error (.api ⟨422, "unknown_customer", "The customer does not exist.", "customer_id", "unknown"⟩)
  | .ok (some references) =>
    if sale.occurredAt.date < references.registeredOn then
      .error (.api ⟨422, "before_registration", "The sale is dated before the customer registered.",
        "occurred_at", "before_registration"⟩)
    else
      let states := (sale.lines.map SaleLine.productId).filterMap fun id =>
        (cat.productIsActive id).map (Prod.mk id)
      (checkProducts states 0 sale.lines).mapError Exc.api

theorem run_validateReferences (sale : ValidSale) (session : Session) :
    (validateReferences sale).run (Session.handle pg cat clock) session =
      (referencesVerdict pg cat sale, session) := by
  unfold validateReferences referencesVerdict
  rw [Prog.run_bind, run_read rfl]
  simp only [effect]
  cases saleReferences pg cat sale.body.customerId 0 with
  | error e => rfl
  | ok references =>
      cases references with
      | none => rfl
      | some references =>
          simp only [Except.map, Except.mapError, Option.map_some]
          split_ifs
          · rfl
          · rw [Prog.run_bind, run_read rfl]
            simp only [effect, Except.mapError]
            unfold refuse
            cases checkProducts _ 0 sale.lines with
            | error e => rfl
            | ok _ => rfl

theorem lookup_products (ids : List ℤ) {id : ℤ} (hid : id ∈ ids) :
    (ids.filterMap fun id => (cat.productIsActive id).map (Prod.mk id)).lookup id = cat.productIsActive id := by
  induction ids with
  | nil => cases hid
  | cons other ids ih =>
      by_cases heq : id = other
      · subst heq
        cases hactive : cat.productIsActive id with
        | some active => simp [hactive]
        | none =>
            rw [List.filterMap_cons, hactive]
            by_cases hmem : id ∈ ids
            · exact (ih hmem).trans hactive
            · rw [Option.map_none]
              refine List.lookup_eq_none_iff.mpr fun p hp => ?_
              obtain ⟨other, hother, hsome⟩ := List.mem_filterMap.mp hp
              obtain ⟨active, -, rfl⟩ := Option.map_eq_some_iff.mp hsome
              exact bne_iff_ne.mpr fun h => hmem (h ▸ hother)
      · rw [List.filterMap_cons]
        have hrest := ih ((List.mem_cons.mp hid).resolve_left heq)
        cases cat.productIsActive other with
        | none => exact hrest
        | some active =>
            rw [Option.map_some, List.lookup_cons, beq_eq_false_iff_ne.mpr heq]
            exact hrest

theorem checkProducts_ok {states : List (ℤ × Bool)} {index : ℕ} {lines : List SaleLine} :
    checkProducts states index lines = .ok () ↔ ∀ line ∈ lines, states.lookup line.productId = some true := by
  induction lines generalizing index with
  | nil => simp [checkProducts]
  | cons line rest ih =>
      rw [checkProducts, List.forall_mem_cons]
      cases states.lookup line.productId with
      | none => simp
      | some active =>
          cases active with
          | false => simp
          | true => simpa using ih

/-- The customer is known, had registered by the day of the sale, and every product is active. -/
def ReferencesInOrder (pg : Postgres) (cat : Catalog) (sale : ValidSale) : Prop :=
  ∃ references, saleReferences pg cat sale.body.customerId 0 = .ok (some references) ∧
    references.registeredOn ≤ sale.occurredAt.date ∧ ∀ line ∈ sale.lines,
      cat.productIsActive line.productId = some true

theorem referencesVerdict_ok {sale : ValidSale} :
    referencesVerdict pg cat sale = .ok () ↔ ReferencesInOrder pg cat sale := by
  unfold referencesVerdict ReferencesInOrder
  cases saleReferences pg cat sale.body.customerId 0 with
  | error e => simp
  | ok references =>
      cases references with
      | none => simp
      | some references =>
          simp only [Except.ok.injEq, Option.some.injEq, exists_eq_left']
          split_ifs with hdate
          · exact ⟨nofun, fun h => absurd h.1 (Int.not_le.mpr hdate)⟩
          · have hproducts : ∀ {r : Except ApiError Unit}, r.mapError Exc.api = .ok () ↔ r = .ok () := by
              rintro (e | _) <;> simp [Except.mapError]
            rw [hproducts, checkProducts_ok]
            simp only [Int.not_lt.mp hdate, true_and]
            refine forall₂_congr fun line hline => ?_
            rw [lookup_products _ (List.mem_map_of_mem hline)]

/-- An answer, or a refusal that the service words. -/
def IsAnswer (result : Except Exc α) : Prop := ∀ e, result = .error e → ∃ answer, e = .api answer

theorem referencesVerdict_answered {sale : ValidSale} :
    IsAnswer (referencesVerdict pg cat sale) ↔
      ∀ e, saleReferences pg cat sale.body.customerId 0 ≠ .error e := by
  unfold referencesVerdict IsAnswer
  cases saleReferences pg cat sale.body.customerId 0 with
  | error e => simp
  | ok references =>
      refine ⟨fun _ _ => nofun, fun _ => ?_⟩
      cases references with
      | none => rintro e h; exact ⟨_, (Except.error.inj h).symm⟩
      | some references =>
          dsimp only
          split_ifs
          · rintro e h
            exact ⟨_, (Except.error.inj h).symm⟩
          · cases checkProducts _ 0 sale.lines with
            | error e => rintro e' h; exact ⟨_, (Except.error.inj h).symm⟩
            | ok _ => nofun

/-! ### Lines -/

/-- A normalized line that its columns and keys take. -/
def Insertable (cat : Catalog) (source : String) (line : SaleLine) : Prop :=
  lineRefusal .svcSales (line.toLine source) = none ∧ (cat.productIsActive line.productId).isSome = true

theorem run_insertSaleLines {source : String} (lines : List SaleLine) {session : Session}
    (hheader : (session.current.header source).isSome = true) (hlines : ∀ line ∈ lines, Insertable cat source line)
    (hnodup : (lines.map SaleLine.productId).Nodup)
    (hnew : ∀ line ∈ lines, ∀ other ∈ linesOf source session.current.lines, other.productId ≠ line.productId) :
    ∃ touched, (insertSaleLines source lines).run (Session.handle pg cat clock) session =
        (.ok (), ⟨session.committed,
          { session.current with lines := session.current.lines ++ lines.map (SaleLine.toLine source) }, touched⟩) ∧
      ∀ sale ∈ touched, sale ∈ session.touched ∨ sale = source := by
  induction lines generalizing session with
  | nil =>
      refine ⟨session.touched, ?_, fun sale hsale => .inl hsale⟩
      rw [List.map_nil, List.append_nil]
      rfl
  | cons line lines ih =>
      obtain ⟨⟨hrefusal, hproduct⟩, hrest⟩ := List.forall_mem_cons.mp hlines
      obtain ⟨hnot, hnodup⟩ := List.nodup_cons.mp hnodup
      have hfree : ((linesOf (line.toLine source).sourceTransactionId session.current.lines).any fun other =>
          decide (other.productId = (line.toLine source).productId)) = false := by
        rw [List.any_eq_false]
        intro other hother
        exact of_decide_eq_false (decide_eq_false (hnew line List.mem_cons_self other hother)) ∘ of_decide_eq_true
      have heffect : effect pg cat clock (.insertTransactionLine .svcSales (line.toLine source)) session.current =
          (.ok (), [.lockHeader source, .addLine (line.toLine source)]) := by
        have hsome : (session.current.header source).isNone = false := by
          rw [← Option.not_isSome, hheader]
          rfl
        have hsome' : (cat.productIsActive line.productId).isNone = false := by
          rw [← Option.not_isSome, hproduct]
          rfl
        simp only [effect, hrefusal]
        rw [if_neg (Bool.eq_false_iff.mp hfree)]
        simp only [SaleLine.toLine, hsome, hsome', Bool.false_eq_true, if_false]
      rw [insertSaleLines, Prog.run_bind, run_execute, heffect]
      simp only [Except.mapError]
      obtain ⟨touched, hrun, htouched⟩ := @ih
        ⟨session.committed, { session.current with lines := session.current.lines ++ [line.toLine source] },
          session.touched ++ [source]⟩ hheader hrest hnodup (fun other hother => by
            intro found hfound
            obtain ⟨hmem, hsource⟩ := List.mem_filter.mp hfound
            rcases List.mem_append.mp hmem with hmem | hmem
            · exact hnew other (List.mem_cons_of_mem _ hother) found (List.mem_filter.mpr ⟨hmem, hsource⟩)
            · rw [List.mem_singleton.mp hmem]
              exact fun heq => hnot (List.mem_map.mpr ⟨other, hother, heq.symm⟩))
      refine ⟨touched, ?_, fun sale hsale => ?_⟩
      · rw [List.append_assoc] at hrun
        exact hrun
      · rcases htouched sale hsale with hbefore | hown
        · rcases List.mem_append.mp hbefore with hbefore | hown
          · exact .inl hbefore
          · exact .inr (List.mem_singleton.mp hown)
        · exact .inr hown

/-! ### Stock -/

def Serves (stock : StockKey → Option ℤ) (storeId : ℤ) (line : SaleLine) : Prop :=
  ∃ onHand, stock (storeId, line.productId) = some onHand ∧ line.quantity ≤ onHand

theorem run_consume {storeId productId quantity : ℤ} (hpositive : 0 < quantity) (session : Session) :
    (∃ onHand, session.current.stock (storeId, productId) = some onHand ∧ quantity ≤ onHand ∧
      (consume storeId productId quantity).run (Session.handle pg cat clock) session =
        (.ok (), ⟨session.committed, session.current.write (.putStock (storeId, productId) (onHand - quantity)),
          session.touched⟩)) ∨
    (∃ found, session.current.stock (storeId, productId) = found ∧
      (∀ onHand, found = some onHand → onHand < quantity) ∧
      (consume storeId productId quantity).run (Session.handle pg cat clock) session =
        (.error (.database (.checkViolation (refusedConstraint found))), session)) := by
  unfold consume
  rw [if_neg (Int.not_le.mpr hpositive), Prog.run_bind, run_execute]
  cases hstock : session.current.stock (storeId, productId) with
  | none =>
      refine .inr ⟨none, rfl, nofun, ?_⟩
      simp only [effect, hstock, Except.mapError]
      rw [Prog.run_bind, run_execute]
      simp only [effect, Ledger.writes, List.foldl_nil, hstock, List.filterMap_nil, List.append_nil]
      rfl
  | some onHand =>
      by_cases henough : quantity ≤ onHand
      · refine .inl ⟨onHand, rfl, henough, ?_⟩
        simp only [effect, hstock, henough, if_true, Except.mapError]
        simp [Ledger.writes, Write.sale]
      · refine .inr ⟨some onHand, rfl, fun n hn => ?_, ?_⟩
        · obtain rfl := Option.some.inj hn
          exact Int.not_le.mp henough
        · simp only [effect, hstock, henough, if_false, Except.mapError]
          rw [Prog.run_bind, run_execute]
          simp only [effect, Ledger.writes, List.foldl_nil, hstock, List.filterMap_nil, List.append_nil]
          have hsame : (⟨session.committed, session.current, session.touched ++ []⟩ : Session) = session := by
            rw [List.append_nil]
          exact congrArg (Prod.mk _) hsame

theorem run_consumeLines {storeId : ℤ} (lines : List (ℕ × SaleLine)) {session : Session}
    (hpositive : ∀ e ∈ lines, 0 < e.2.quantity) (hnodup : (lines.map fun e => e.2.productId).Nodup) :
    ((∀ e ∈ lines, Serves session.current.stock storeId e.2) ∧ ∃ stock,
      (consumeLines storeId lines).run (Session.handle pg cat clock) session =
        (.ok (), ⟨session.committed, { session.current with stock := stock }, session.touched⟩)) ∨
    ((∃ e ∈ lines, ¬ Serves session.current.stock storeId e.2) ∧ ∃ index found after,
      (consumeLines storeId lines).run (Session.handle pg cat clock) session =
        (.error (.stockRefusal index (.checkViolation (refusedConstraint found))), after) ∧
      after.committed = session.committed) := by
  induction lines generalizing session with
  | nil => exact .inl ⟨nofun, session.current.stock, rfl⟩
  | cons e lines ih =>
      obtain ⟨index, line⟩ := e
      obtain ⟨hfirst, hpositive⟩ := List.forall_mem_cons.mp hpositive
      obtain ⟨hnot, hnodup⟩ := List.nodup_cons.mp hnodup
      rw [consumeLines, Prog.run_bind, Prog.run_tryCatch]
      rcases @run_consume pg cat clock storeId line.productId line.quantity hfirst session with
        ⟨onHand, hstock, henough, hrun⟩ | ⟨found, hstock, hlittle, hrun⟩
      · rw [hrun]
        dsimp only
        -- the other lines are of other products
        have hothers : ∀ other ∈ lines, Serves
            (session.current.write (.putStock (storeId, line.productId) (onHand - line.quantity))).stock storeId other.2 ↔
            Serves session.current.stock storeId other.2 := by
          intro other hother
          have hne : (storeId, other.2.productId) ≠ (storeId, line.productId) := fun h =>
            hnot (List.mem_map.mpr ⟨other, hother, (Prod.mk.inj h).2⟩)
          have hsame : (session.current.write (.putStock (storeId, line.productId) (onHand - line.quantity))).stock
              (storeId, other.2.productId) = session.current.stock (storeId, other.2.productId) :=
            Function.update_of_ne hne _ _
          unfold Serves
          rw [hsame]
        rcases @ih ⟨session.committed, session.current.write (.putStock (storeId, line.productId)
            (onHand - line.quantity)), session.touched⟩ hpositive hnodup with
          ⟨hall, stock, hrest⟩ | ⟨⟨other, hother, hshort⟩, refused⟩
        · refine .inl ⟨List.forall_mem_cons.mpr ⟨⟨onHand, hstock, henough⟩, fun other hother => ?_⟩, stock, hrest⟩
          exact (hothers other hother).mp (hall other hother)
        · refine .inr ⟨⟨other, List.mem_cons_of_mem _ hother, fun h => ?_⟩, refused⟩
          exact hshort ((hothers other hother).mpr h)
      · rw [hrun]
        refine .inr ⟨⟨_, List.mem_cons_self, ?_⟩, index, found, session, rfl, rfl⟩
        rintro ⟨onHand, honHand, henough⟩
        exact absurd henough (Int.not_le.mpr (hlittle onHand (hstock.symm.trans honHand)))

/-! ### The transaction -/

theorem run_atomic (p : SalesProg Unit) (session : Session) :
    (atomic p).run (Session.handle pg cat clock) session = match p.run (Session.handle pg cat clock) session with
      | (.error e, after) => (.error e, Session.idle after.committed)
      | (.ok (), after) => if after.touched.all (totalMatchesLines after.current) then
          (.ok (), Session.idle after.current)
        else (.error (.database totalMismatch), Session.idle after.committed) := by
  unfold atomic
  rw [Prog.run_tryCatch, Prog.run_bind]
  generalize p.run (Session.handle pg cat clock) session = result
  obtain ⟨answer | _, after⟩ := result
  · rfl
  · simp only [commit, call, Prog.run_call, Session.handle]
    split_ifs
    · rfl
    · rfl

/-- What the tables hold besides: lines and captures are of recorded sales, products and users of their columns. -/
structure Ledger.Referenced (ledger : Ledger) : Prop where
  lines : ∀ line ∈ ledger.lines, (ledger.header line.sourceTransactionId).isSome = true
  captures : ∀ source, (ledger.capture source).isSome = true → (ledger.header source).isSome = true

/-- What a valid sale brings to its transaction. -/
structure ValidSale.Normalized (sale : ValidSale) : Prop where
  source : inNamespace sale.source = true ∧ sale.source.length ≤ 64 ∧ hasNul sale.source = false
  products : (sale.lines.map SaleLine.productId).Nodup
  lines : ∀ line ∈ sale.lines, 0 < line.quantity ∧ line.quantity ≤ maxQuantity ∧ 0 < line.unitPrice ∧
    line.unitPrice < 10 ^ 10
  total : saleTotal sale.lines < 10 ^ 12

theorem saleTotal_nonneg {lines : List SaleLine} (hlines : ∀ line ∈ lines, 0 < line.quantity ∧
    0 < line.unitPrice) :
    0 ≤ saleTotal lines := by
  refine List.sum_nonneg fun amount hamount => ?_
  obtain ⟨line, hline, rfl⟩ := List.mem_map.mp hamount
  obtain ⟨hquantity, hprice⟩ := hlines line hline
  exact Int.mul_nonneg hprice.le hquantity.le

namespace ValidSale.Normalized

variable {sale : ValidSale}

theorem positive (h : sale.Normalized) : ∀ line ∈ sale.lines, 0 < line.quantity ∧ 0 < line.unitPrice :=
  fun line hline =>
  ⟨(h.lines line hline).1, (h.lines line hline).2.2.1⟩

theorem insertable (h : sale.Normalized) {line : SaleLine} (hline : line ∈ sale.lines)
    (hproduct : cat.productIsActive line.productId = some true) (hint : isInt line.productId = true) :
    Insertable cat sale.source line := by
  obtain ⟨hquantity, hmost, hprice, hless⟩ := h.lines line hline
  refine ⟨?_, by rw [hproduct]; rfl⟩
  unfold lineRefusal
  have hfits : (!(isInt (line.toLine sale.source).productId && isInt (line.toLine sale.source).quantity &&
      fitsPrice (line.toLine sale.source).unitPrice)) = false := by
    have hquantity' : isInt line.quantity = true := by
      unfold isInt maxQuantity at *
      simp only [Bool.and_eq_true, decide_eq_true_eq]
      omega
    have hprice' : fitsPrice line.unitPrice = true := by
      unfold fitsPrice
      simp only [Bool.and_eq_true, decide_eq_true_eq]
      omega
    simp only [SaleLine.toLine, hint, hquantity', hprice', Bool.and_self, Bool.not_true]
  rw [hfits, if_neg Bool.false_ne_true, if_neg fun h => h.1 rfl]
  exact (if_neg (Int.not_le.mpr hquantity)).trans (if_neg (Int.not_le.mpr hprice))

theorem fitsTotal (h : sale.Normalized) : Sales.fitsTotal (saleTotal sale.lines) = true := by
  have hnonneg := saleTotal_nonneg h.positive
  have htotal := h.total
  unfold Sales.fitsTotal
  simp only [Bool.and_eq_true, decide_eq_true_eq]
  omega

end ValidSale.Normalized

/-- The columns of `transaction` take the sale. -/
structure Storable (pg : Postgres) (clock : Instant) (sale : ValidSale) : Prop where
  time : pg.takesTimestamp sale.occurredAt = true
  store : isSmallint sale.body.storeId = true
  channel : isSmallint sale.body.channelId = true
  past : sale.occurredAt.instant ≤ clock

theorem headerRow_sale {sale : ValidSale} (hsale : sale.Normalized) {customer : String}
    (hnul : hasNul sale.body.customerId = false) (hcustomer : pg.uuidIn sale.body.customerId = some customer) :
    (Storable pg clock sale → headerRow pg clock .svcSales sale.newHeader = .ok ⟨customer, sale.body.storeId,
      sale.body.channelId, sale.occurredAt.instant, saleTotal sale.lines, .observed⟩) ∧
    (¬ Storable pg clock sale → (∃ kind, headerRow pg clock .svcSales sale.newHeader = .error (.dataError kind)) ∨
      headerRow pg clock .svcSales sale.newHeader = .error (.checkViolation "transaction_not_future")) := by
  have hnonneg := saleTotal_nonneg hsale.positive
  obtain ⟨hnamespace, hlength, hsource⟩ := hsale.source
  unfold headerRow ValidSale.newHeader
  simp only [hsource, hnul, Bool.or_self, Bool.false_eq_true, if_false, hcustomer, hsale.fitsTotal, Bool.and_true,
    hnamespace, if_neg (Nat.not_lt.mpr hlength), if_neg (Int.not_lt.mpr hnonneg)]
  constructor
  · intro hstorable
    simp [hstorable.time, hstorable.store, hstorable.channel, Int.not_lt.mpr hstorable.past]
  · intro hnot
    split_ifs with htime hint hspace hseeded hclock
    · exact .inl ⟨_, rfl⟩
    · exact .inl ⟨_, rfl⟩
    · exact .inl ⟨_, rfl⟩
    · exact .inl ⟨_, rfl⟩
    · exact .inr rfl
    · refine absurd ⟨?_, ?_, ?_, Int.not_lt.mp hclock⟩ hnot <;> simp_all

/-- The tables take the sale: its header is new, its columns take it and, where everything else is in order,
its caller is a user. -/
structure Recordable (pg : Postgres) (cat : Catalog) (clock : Instant) (ledger : Ledger)
    (sale : ValidSale) : Prop where
  columns : Storable pg clock sale
  fresh : ledger.header sale.source = none
  caller : cat.hasStore sale.body.storeId = true → cat.hasChannel sale.body.channelId = true →
    (∀ line ∈ sale.lines, Serves ledger.stock sale.body.storeId line) →
    ∃ user, pg.uuidIn sale.sub = some user ∧ cat.hasUser user = true

/-- An exception of the transaction that the service answers with a refusal of its own. -/
inductive Worded : Exc → Prop where
  | stock (index : ℕ) (found : Option ℤ) : Worded (.stockRefusal index (.checkViolation (refusedConstraint found)))
  | store : Worded (.database (.foreignKeyViolation "transaction_store_id_fkey"))
  | channel : Worded (.database (.foreignKeyViolation "transaction_channel_id_fkey"))

/-- One that it does not. -/
inductive Unworded : Exc → Prop where
  | data (kind : DataErrorKind) : Unworded (.database (.dataError kind))
  | future : Unworded (.database (.checkViolation "transaction_not_future"))
  | key : Unworded (.database (.uniqueViolation "transaction_source_transaction_id_key"))
  | caller : Unworded (.database (.foreignKeyViolation "sale_capture_recorded_by_fkey"))

/-- The references and stock of a sale as its statements find them. -/
structure AsReferenced (pg : Postgres) (cat : Catalog) (ledger : Ledger) (sale : ValidSale)
    (customer : String) : Prop where
  normalized : sale.Normalized
  referenced : ledger.Referenced
  nul : hasNul sale.body.customerId = false
  known : pg.uuidIn sale.body.customerId = some customer
  registered : (cat.registeredOn customer).isSome = true
  products : ∀ line ∈ sale.lines, cat.productIsActive line.productId = some true ∧ isInt line.productId = true

theorem run_refused {s : Statement} {session : Session} {e : DbError} {writes : List Write}
    (heffect : effect pg cat clock s session.current = (.error e, writes)) :
    ∃ after, (execute s).run (Session.handle pg cat clock) session = (.error (.database e), after) ∧
      after.committed = session.committed := by
  rw [run_execute, heffect]
  exact ⟨_, rfl, rfl⟩

theorem run_done {s : Statement} {session : Session} {v : Result s} {writes : List Write}
    (heffect : effect pg cat clock s session.current = (.ok v, writes)) :
    (execute s).run (Session.handle pg cat clock) session = (.ok v, ⟨session.committed,
      session.current.writes writes, session.touched ++ writes.filterMap Write.sale⟩) := by
  rw [run_execute, heffect]
  rfl

def ValidSale.header (sale : ValidSale) (customer : String) : Header :=
  ⟨customer, sale.body.storeId, sale.body.channelId, sale.occurredAt.instant, saleTotal sale.lines, .observed⟩

theorem effect_insertTransaction {sale : ValidSale} {ledger : Ledger} {customer : String}
    (hfound : AsReferenced pg cat ledger sale customer) :
    (Storable pg clock sale ∧ ledger.header sale.source = none ∧
      ((cat.hasStore sale.body.storeId = true ∧ cat.hasChannel sale.body.channelId = true ∧
        effect pg cat clock (.insertTransaction .svcSales sale.newHeader) ledger =
          (.ok (), [.putHeader sale.source (sale.header customer)])) ∨
      (¬ (cat.hasStore sale.body.storeId = true ∧ cat.hasChannel sale.body.channelId = true) ∧ ∃ e writes,
        Worded (.database e) ∧
        effect pg cat clock (.insertTransaction .svcSales sale.newHeader) ledger = (.error e, writes)))) ∨
    (¬ (Storable pg clock sale ∧ ledger.header sale.source = none) ∧ ∃ e writes, Unworded (.database e) ∧
      effect pg cat clock (.insertTransaction .svcSales sale.newHeader) ledger = (.error e, writes)) := by
  obtain ⟨htakes, hrefuses⟩ := @headerRow_sale pg clock sale hfound.normalized customer hfound.nul hfound.known
  have hcustomer : (cat.registeredOn customer).isNone = false := by
    rw [← Option.not_isSome, hfound.registered]
    rfl
  simp only [effect]
  by_cases hstorable : Storable pg clock sale
  · rw [htakes hstorable]
    dsimp only
    cases hheader : ledger.header sale.source with
    | some header =>
        refine .inr ⟨fun h => (by cases h.2), _, [], .key, ?_⟩
        simp only [ValidSale.newHeader, hheader, Option.isSome_some, if_true]
    | none =>
        refine .inl ⟨hstorable, rfl, ?_⟩
        simp only [ValidSale.newHeader, hheader, Option.isSome_none, Bool.false_eq_true, if_false, headerReference,
          hcustomer]
        cases hstore : cat.hasStore sale.body.storeId with
        | false => exact .inr ⟨fun h => (by cases h.1), _, _, .store, rfl⟩
        | true =>
            cases hchannel : cat.hasChannel sale.body.channelId with
            | false => exact .inr ⟨fun h => (by cases h.2), _, _, .channel, rfl⟩
            | true => exact .inl ⟨rfl, rfl, rfl⟩
  · refine .inr ⟨fun h => hstorable h.1, ?_⟩
    rcases hrefuses hstorable with ⟨kind, hrow⟩ | hrow
    · rw [hrow]
      exact ⟨_, _, .data kind, rfl⟩
    · rw [hrow]
      exact ⟨_, _, .future, rfl⟩

theorem mem_indexed {lines : List SaleLine} {line : SaleLine} :
    line ∈ lines ↔ ∃ e ∈ indexedByProduct lines, e.2 = line := by
  have hperm : (indexedByProduct lines).Perm (lines.zipIdx.map Prod.swap) := List.perm_insertionSort _ _
  constructor
  · intro hline
    obtain ⟨i, hi⟩ := List.mem_iff_getElem?.mp hline
    exact ⟨(i, line), hperm.mem_iff.mpr (List.mem_map.mpr ⟨(line, i), List.mem_zipIdx_iff_getElem?.mpr hi, rfl⟩), rfl⟩
  · rintro ⟨e, he, rfl⟩
    obtain ⟨⟨line, i⟩, hline, rfl⟩ := List.mem_map.mp (hperm.mem_iff.mp he)
    exact List.mem_of_getElem? (List.mem_zipIdx_iff_getElem?.mp hline)

theorem linesTotal_sale {source : String} {lines : List Line} {added : List SaleLine}
    (hnone : linesOf source lines = []) :
    linesTotal source (lines ++ added.map (SaleLine.toLine source)) = saleTotal added := by
  have hown : linesOf source (added.map (SaleLine.toLine source)) = added.map (SaleLine.toLine source) := by
    refine List.filter_eq_self.mpr fun line hline => ?_
    obtain ⟨other, -, rfl⟩ := List.mem_map.mp hline
    exact decide_eq_true rfl
  unfold linesTotal saleTotal
  rw [linesOf, List.filter_append, ← linesOf, ← linesOf, hnone, hown, List.nil_append, List.map_map]
  exact congrArg List.sum (List.map_congr_left fun line _ => Int.mul_comm line.quantity line.unitPrice)

theorem nodup_indexed {lines : List SaleLine} (hnodup : (lines.map SaleLine.productId).Nodup) :
    ((indexedByProduct lines).map fun e => e.2.productId).Nodup := by
  have hperm : (indexedByProduct lines).Perm (lines.zipIdx.map Prod.swap) := List.perm_insertionSort _ _
  refine ((hperm.map _).nodup_iff).mpr ?_
  rw [List.map_map]
  rwa [← List.zipIdx_map_fst 0 lines, List.map_map] at hnodup

theorem effect_insertCapture {sale : ValidSale} {ledger : Ledger}
    (hheader : (ledger.header sale.source).isSome = true) (hcapture : ledger.capture sale.source = none) :
    ((∃ user, pg.uuidIn sale.sub = some user ∧ cat.hasUser user = true) ∧
      effect pg cat clock (.insertCapture sale.source sale.digest sale.sub) ledger =
        (.ok (), [.putCapture sale.source sale.digest])) ∨
    ((¬ ∃ user, pg.uuidIn sale.sub = some user ∧ cat.hasUser user = true) ∧ ∃ e writes, Unworded (.database e) ∧
      effect pg cat clock (.insertCapture sale.source sale.digest sale.sub) ledger = (.error e, writes)) := by
  have hheader' : (ledger.header sale.source).isNone = false := by
    rw [← Option.not_isSome, hheader]
    rfl
  simp only [effect, hcapture, hheader', Option.isSome_none, Bool.false_eq_true, if_false]
  cases huser : pg.uuidIn sale.sub with
  | none =>
      refine .inr ⟨?_, _, _, .data _, rfl⟩
      rintro ⟨other, hother, -⟩
      cases hother
  | some user =>
      cases hknown : cat.hasUser user with
      | false =>
          refine .inr ⟨?_, _, _, .caller, by simp only [hknown, Bool.not_false, if_true]; rfl⟩
          rintro ⟨other, hother, hknown'⟩
          obtain rfl := Option.some.inj hother
          rw [hknown] at hknown'
          cases hknown'
      | true => exact .inl ⟨⟨user, rfl, hknown⟩, by simp only [hknown, Bool.not_true, Bool.false_eq_true, if_false]⟩

def ValidSale.CallerKnown (pg : Postgres) (cat : Catalog) (sale : ValidSale) : Prop :=
  ∃ user, pg.uuidIn sale.sub = some user ∧ cat.hasUser user = true

theorem run_closing {sale : ValidSale} {ledger lined : Ledger} {touched : List String} (hsale : sale.Normalized)
    (hheader : (lined.header sale.source).isSome = true) (hcapture : lined.capture sale.source = none) :
    let closing := consumeLines sale.body.storeId (indexedByProduct sale.lines) >>= fun _ =>
      execute (.insertCapture sale.source sale.digest sale.sub)
    ((∀ line ∈ sale.lines, Serves lined.stock sale.body.storeId line) ∧ sale.CallerKnown pg cat ∧ ∃ stock,
      closing.run (Session.handle pg cat clock) ⟨ledger, lined, touched⟩ =
        (.ok (), ⟨ledger, ⟨lined.header, lined.lines, stock,
          Function.update lined.capture sale.source (some sale.digest)⟩, touched⟩)) ∨
    ((¬ ∀ line ∈ sale.lines, Serves lined.stock sale.body.storeId line) ∧ ∃ e after, Worded e ∧
      closing.run (Session.handle pg cat clock) ⟨ledger, lined, touched⟩ = (.error e, after) ∧
        after.committed = ledger) ∨
    ((∀ line ∈ sale.lines, Serves lined.stock sale.body.storeId line) ∧ ¬ sale.CallerKnown pg cat ∧ ∃ e after,
      Unworded e ∧
      closing.run (Session.handle pg cat clock) ⟨ledger, lined, touched⟩ = (.error e, after) ∧
        after.committed = ledger) := by
  intro closing
  have hpositive : ∀ e ∈ indexedByProduct sale.lines, 0 < e.2.quantity := fun e he =>
    (hsale.lines e.2 (mem_indexed.mpr ⟨e, he, rfl⟩)).1
  rcases @run_consumeLines pg cat clock sale.body.storeId (indexedByProduct sale.lines) ⟨ledger, lined,
    touched⟩ hpositive
    (nodup_indexed hsale.products) with ⟨hall, stock, hrun⟩ | ⟨⟨e, he, hshort⟩, index, found, after, hrun,
      hcommitted⟩
  · have hserved : ∀ line ∈ sale.lines, Serves lined.stock sale.body.storeId line := by
      intro line hline
      obtain ⟨e, he, rfl⟩ := mem_indexed.mp hline
      exact hall e he
    rcases @effect_insertCapture pg cat clock sale { lined with stock := stock } hheader hcapture with
      ⟨huser, heffect⟩ | ⟨hnot, e, writes, hunworded, heffect⟩
    · refine .inl ⟨hserved, huser, stock, ?_⟩
      rw [Prog.run_bind, hrun]
      refine (run_done heffect).trans ?_
      simp only [List.filterMap_cons, List.filterMap_nil, Write.sale, List.append_nil]
      rfl
    · obtain ⟨after, hrefused, hcommitted⟩ := @run_refused pg cat clock _ ⟨ledger, { lined with stock := stock }, touched⟩
        e writes heffect
      refine .inr (.inr ⟨hserved, hnot, _, after, hunworded, ?_, hcommitted⟩)
      rw [Prog.run_bind, hrun]
      exact hrefused
  · refine .inr (.inl ⟨fun h => hshort (h e.2 (mem_indexed.mpr ⟨e, he, rfl⟩)), _, after, .stock index found, ?_,
      hcommitted⟩)
    rw [Prog.run_bind, hrun]

theorem run_insertSale {sale : ValidSale} {ledger : Ledger} {customer : String}
    (hfound : AsReferenced pg cat ledger sale customer) :
    (Recordable pg cat clock ledger sale ∧
      ((∃ after, (insertSale sale).run (Session.handle pg cat clock) (Session.idle ledger) = (.ok (), after) ∧
          (after.current.header sale.source).isSome = true ∧
          after.touched.all (totalMatchesLines after.current) = true) ∨
        ∃ e after, Worded e ∧ (insertSale sale).run (Session.handle pg cat clock) (Session.idle ledger) =
          (.error e, after) ∧ after.committed = ledger)) ∨
    (¬ Recordable pg cat clock ledger sale ∧ ∃ e after, Unworded e ∧
      (insertSale sale).run (Session.handle pg cat clock) (Session.idle ledger) = (.error e, after) ∧
        after.committed = ledger) := by
  rcases @effect_insertTransaction pg cat clock sale ledger customer hfound with
    ⟨hcolumns, hfresh, ⟨hstore, hchannel, heffect⟩ | ⟨hunknown, e, writes, hworded, heffect⟩⟩ |
    ⟨hnot, e, writes, hunworded, heffect⟩
  rotate_left
  · obtain ⟨after, hrun, hcommitted⟩ := @run_refused pg cat clock _ (Session.idle ledger) e writes heffect
    refine .inl ⟨⟨hcolumns, hfresh, fun hstore hchannel => absurd ⟨hstore, hchannel⟩ hunknown⟩,
      .inr ⟨_, after, hworded,
      ?_, hcommitted⟩⟩
    rw [insertSale, Prog.run_bind, hrun]
  · obtain ⟨after, hrun, hcommitted⟩ := @run_refused pg cat clock _ (Session.idle ledger) e writes heffect
    refine .inr ⟨fun h => hnot ⟨h.columns, h.fresh⟩, _, after, hunworded, ?_, hcommitted⟩
    rw [insertSale, Prog.run_bind, hrun]
  have hnone : linesOf sale.source ledger.lines = [] := by
    refine List.filter_eq_nil_iff.mpr fun line hline hsource => ?_
    have hsome := hfound.referenced.lines line hline
    rw [of_decide_eq_true hsource, hfresh] at hsome
    cases hsome
  have hcapture : ledger.capture sale.source = none := by
    refine Option.not_isSome_iff_eq_none.mp fun hsome => ?_
    have hheader := hfound.referenced.captures sale.source hsome
    rw [hfresh] at hheader
    cases hheader
  obtain ⟨touched, hlined, htouched⟩ := @run_insertSaleLines pg cat clock sale.source sale.lines
    ⟨ledger, ledger.write (.putHeader sale.source (sale.header customer)), [sale.source]⟩
    (Option.isSome_iff_exists.mpr ⟨_, Ledger.header_write_putHeader _ _ _⟩)
    (fun line hline => hfound.normalized.insertable hline (hfound.products line hline).1 (hfound.products line hline).2)
    hfound.normalized.products (fun line _ other hother => by
      rw [show linesOf sale.source (ledger.write (.putHeader sale.source (sale.header customer))).lines = [] from hnone]
        at hother
      cases hother)
  obtain ⟨lined, hlines, hheader, hstock, hcaptures, hlined⟩ : ∃ lined : Ledger,
      lined.lines = ledger.lines ++ sale.lines.map (SaleLine.toLine sale.source) ∧
      lined.header sale.source = some (sale.header customer) ∧ lined.stock = ledger.stock ∧
      lined.capture = ledger.capture ∧
      (insertSaleLines sale.source sale.lines).run (Session.handle pg cat clock) ⟨ledger,
        ledger.write (.putHeader sale.source (sale.header customer)), [sale.source]⟩ = (.ok (),
          ⟨ledger, lined, touched⟩) :=
    ⟨{ ledger.write (.putHeader sale.source (sale.header customer)) with
      lines := ledger.lines ++ sale.lines.map (SaleLine.toLine sale.source) }, rfl,
      Ledger.header_write_putHeader _ _ _, rfl, rfl, hlined⟩
  have hrun : (insertSale sale).run (Session.handle pg cat clock) (Session.idle ledger) =
      (consumeLines sale.body.storeId (indexedByProduct sale.lines) >>= fun _ =>
        execute (.insertCapture sale.source sale.digest sale.sub)).run (Session.handle pg cat clock)
        ⟨ledger, lined, touched⟩ := by
    exact (run_then (@run_done pg cat clock _ (Session.idle ledger) _ _ heffect)).trans (run_then hlined)
  rw [hrun]
  have hcapture' : lined.capture sale.source = none := by rw [hcaptures, hcapture]
  rcases @run_closing pg cat clock sale ledger lined touched hfound.normalized
    (Option.isSome_iff_exists.mpr ⟨_, hheader⟩) hcapture' with
    ⟨hserved, huser, stock, hclosed⟩ | ⟨hshort, e, after, hworded, hclosed, hcommitted⟩ |
    ⟨hserved, hnot, e, after, hunworded, hclosed, hcommitted⟩
  · refine .inl ⟨⟨hcolumns, hfresh, fun _ _ _ => huser⟩,
      .inl ⟨_, hclosed, Option.isSome_iff_exists.mpr ⟨_, hheader⟩, ?_⟩⟩
    refine List.all_eq_true.mpr fun source hsource => ?_
    obtain rfl : source = sale.source := by simpa using htouched source hsource
    have htotal : linesTotal sale.source lined.lines = saleTotal sale.lines := by rw [hlines,
      linesTotal_sale hnone]
    unfold totalMatchesLines
    dsimp only
    rw [hheader, htotal]
    exact beq_self_eq_true _
  · rw [hstock] at hshort
    exact .inl ⟨⟨hcolumns, hfresh, fun _ _ hserved => absurd hserved hshort⟩,
      .inr ⟨e, after, hworded, hclosed, hcommitted⟩⟩
  · rw [hstock] at hserved
    exact .inr ⟨fun h => hnot (h.caller hstore hchannel hserved), e, after, hunworded, hclosed, hcommitted⟩

/-! ### The service's exceptions -/

theorem recordFailure_worded {sale : ValidSale} {again : Option (SalesProg Representation)} {e : Exc}
    (he : Worded e) :
    ∃ answer, recordFailure sale again e = .raise (.api answer) := by
  cases he with
  | stock index found => cases found <;> exact ⟨_, rfl⟩
  | store => exact ⟨_, rfl⟩
  | channel => exact ⟨_, rfl⟩

theorem run_readSale {source : String} {ledger : Ledger} (hheader : (ledger.header source).isSome = true) :
    ∃ sale, (readSale source).run (Session.handle pg cat clock) (Session.idle ledger) =
      (.ok (some sale), Session.idle ledger) := by
  obtain ⟨header, hheader⟩ := Option.isSome_iff_exists.mp hheader
  have hget : (execute (.getSale source)).run (Session.handle pg cat clock) (Session.idle ledger) =
      (.ok (some header), Session.idle ledger) :=
    (run_read rfl).trans (by simp only [effect, Session.idle, hheader]; rfl)
  have hlines : (execute (.getSaleLines source)).run (Session.handle pg cat clock) (Session.idle ledger) =
      (.ok ((linesOf source ledger.lines).insertionSort fun a b => a.productId ≤ b.productId),
        Session.idle ledger) := run_read rfl
  unfold readSale
  rw [run_then hget]
  exact ⟨_, run_then hlines⟩

/-- What `find_capture` finds. -/
def Ledger.captured (ledger : Ledger) (source : String) : Option Digest :=
  (ledger.header source).bind fun _ => ledger.capture source

theorem run_findCapture (source : String) (ledger : Ledger) :
    (execute (.findCapture source)).run (Session.handle pg cat clock) (Session.idle ledger) =
      (.ok (ledger.captured source), Session.idle ledger) := run_read rfl

theorem run_replay_none {source : String} (digest : Digest) {ledger : Ledger}
    (hcaptured : ledger.captured source = none) :
    (replay source digest).run (Session.handle pg cat clock) (Session.idle ledger) = (.ok none,
      Session.idle ledger) := by
  unfold replay
  rw [run_then (run_findCapture source ledger), hcaptured]
  rfl

theorem run_replay_some {source : String} (digest : Digest) {ledger : Ledger}
    (hcaptured : ledger.captured source ≠ none) :
    (∃ answer, (replay source digest).run (Session.handle pg cat clock) (Session.idle ledger) =
      (.ok (some answer), Session.idle ledger)) ∨
    (replay source digest).run (Session.handle pg cat clock) (Session.idle ledger) =
      (.error (.api keyReused), Session.idle ledger) := by
  obtain ⟨original, horiginal⟩ := Option.ne_none_iff_exists'.mp hcaptured
  obtain ⟨header, hheader, -⟩ := Option.bind_eq_some_iff.mp horiginal
  obtain ⟨sale, hsale⟩ := @run_readSale pg cat clock source ledger (Option.isSome_iff_exists.mpr ⟨header, hheader⟩)
  unfold replay
  rw [run_then (run_findCapture source ledger), horiginal]
  dsimp only
  rw [run_then hsale]
  dsimp only
  split_ifs
  · exact .inr rfl
  · exact .inl ⟨_, rfl⟩

theorem run_unworded {sale : ValidSale} {again : Option (SalesProg Representation)} {e : Exc} {ledger : Ledger}
    (he : Unworded e) (hcaptured : ledger.captured sale.source = none) :
    (recordFailure sale again e).run (Session.handle pg cat clock) (Session.idle ledger) =
      (.error e, Session.idle ledger) := by
  cases he with
  | data kind => rfl
  | future => rfl
  | caller => rfl
  | key =>
      exact run_then (run_replay_none sale.digest hcaptured)

/-! ### Attempts -/

/-- What a sale needs of the tables once its key is found unused. -/
def Settles (pg : Postgres) (cat : Catalog) (clock : Instant) (ledger : Ledger) (sale : ValidSale) : Prop :=
  (∀ e, saleReferences pg cat sale.body.customerId 0 ≠ .error e) ∧
    (ReferencesInOrder pg cat sale → Recordable pg cat clock ledger sale)

theorem run_recordAttempt_error {sale : ValidSale} {ledger : Ledger} {e : Exc}
    (hrun : (atomic (validateReferences sale >>= fun _ => insertSale sale)).run (Session.handle pg cat clock)
      (Session.idle ledger) = (.error e, Session.idle ledger)) :
    (recordAttempts sale 2).run (Session.handle pg cat clock) (Session.idle ledger) =
      (recordFailure sale (some (recordAttempts sale 1)) e).run (Session.handle pg cat clock) (Session.idle ledger) := by
  have hattempt : (recordAttempt sale).run (Session.handle pg cat clock) (Session.idle ledger) =
      (.error e, Session.idle ledger) := by
    unfold recordAttempt
    rw [Prog.run_bind, hrun]
  rw [recordAttempts, Prog.run_tryCatch, hattempt]

theorem answered_api (answer : ApiError) : IsAnswer (Except.error (.api answer) : Except Exc α) := fun _ h =>
  ⟨answer, (Except.error.inj h).symm⟩

theorem not_answered {e : Exc} (he : Unworded e) : ¬ IsAnswer (Except.error e : Except Exc α) := by
  intro h
  obtain ⟨answer, rfl⟩ := h e rfl
  cases he

theorem referencesVerdict_error {sale : ValidSale} {e : Exc}
    (hverdict : referencesVerdict pg cat sale = .error e) :
    (∃ answer, e = .api answer) ∨ ∃ kind, e = .database (.dataError kind) := by
  unfold referencesVerdict at hverdict
  cases hreferences : saleReferences pg cat sale.body.customerId 0 with
  | error e' =>
      rw [hreferences] at hverdict
      obtain ⟨kind, rfl⟩ := saleReferences_error pg cat hreferences
      exact .inr ⟨kind, (Except.error.inj hverdict).symm⟩
  | ok references =>
      have hworded := referencesVerdict_answered.mpr fun e' h => by
        rw [hreferences] at h
        cases h
      exact .inl (hworded e hverdict)

theorem asReferenced {sale : ValidSale} {ledger : Ledger} (hsale : sale.Normalized)
    (hreferenced : ledger.Referenced)
    (hproducts : ∀ id active, cat.productIsActive id = some active → isInt id = true)
    (horder : ReferencesInOrder pg cat sale) : ∃ customer, AsReferenced pg cat ledger sale customer := by
  obtain ⟨references, hread, -, hactive⟩ := horder
  unfold saleReferences at hread
  split_ifs at hread with hnul
  cases hcustomer : pg.uuidIn sale.body.customerId with
  | none =>
      rw [hcustomer] at hread
      cases hread
  | some customer =>
      rw [hcustomer] at hread
      dsimp only at hread
      refine ⟨customer, hsale, hreferenced, Bool.eq_false_iff.mpr hnul, hcustomer, ?_, fun line hline =>
        ⟨hactive line hline, hproducts _ _ (hactive line hline)⟩⟩
      cases hregistered : cat.registeredOn customer with
      | none =>
          rw [hregistered] at hread
          cases hread
      | some day => rfl

/-- The attempts of a sale whose key is unused are answered exactly where the tables let it settle. -/
theorem recordAttempts_answered_iff {sale : ValidSale} {ledger : Ledger} (hsale : sale.Normalized)
    (hreferenced : ledger.Referenced)
    (hproducts : ∀ id active, cat.productIsActive id = some active → isInt id = true)
    (hcaptured : ledger.captured sale.source = none) :
    IsAnswer ((recordAttempts sale 2).run (Session.handle pg cat clock) (Session.idle ledger)).1 ↔
      Settles pg cat clock ledger sale := by
  have hreferences : (validateReferences sale).run (Session.handle pg cat clock) (Session.idle ledger) =
      (referencesVerdict pg cat sale, Session.idle ledger) := run_validateReferences sale _
  unfold Settles
  rw [← referencesVerdict_answered, ← referencesVerdict_ok]
  cases hverdict : referencesVerdict pg cat sale with
  | error e =>
      have hrun : (atomic (validateReferences sale >>= fun _ => insertSale sale)).run (Session.handle pg cat clock)
          (Session.idle ledger) = (.error e, Session.idle ledger) := by
        rw [run_atomic, Prog.run_bind, hreferences, hverdict]
        rfl
      rw [run_recordAttempt_error hrun]
      rcases referencesVerdict_error hverdict with ⟨answer, rfl⟩ | ⟨kind, rfl⟩
      · exact ⟨fun _ => ⟨answered_api answer, nofun⟩, fun _ => answered_api answer⟩
      · exact ⟨fun h => absurd h (not_answered (.data kind)), fun h => absurd h.1 (not_answered (.data kind))⟩
  | ok _ =>
      rw [hverdict] at hreferences
      obtain ⟨customer, hfound⟩ := asReferenced hsale hreferenced hproducts (referencesVerdict_ok.mp hverdict)
      have hatomic : ∀ {answer : Except Exc Unit} {after : Session},
          (insertSale sale).run (Session.handle pg cat clock) (Session.idle ledger) = (answer, after) →
          (validateReferences sale >>= fun _ => insertSale sale).run (Session.handle pg cat clock)
            (Session.idle ledger) = (answer, after) := fun h => (run_then hreferences).trans h
      have hdone : IsAnswer (Except.ok () : Except Exc Unit) := nofun
      simp only [hdone, true_and, forall_const]
      rcases @run_insertSale pg cat clock sale ledger customer hfound with
        ⟨hrecordable, ⟨after, hrun, hheader, hmatches⟩ | ⟨e, after, hworded, hrun, hcommitted⟩⟩ |
        ⟨hnot, e, after, hunworded, hrun, hcommitted⟩
      · refine iff_of_true ?_ hrecordable
        have hrun' : (atomic (validateReferences sale >>= fun _ => insertSale sale)).run (Session.handle pg cat clock)
            (Session.idle ledger) = (.ok (), Session.idle after.current) := by
          rw [run_atomic, hatomic hrun]
          exact if_pos hmatches
        obtain ⟨view, hview⟩ := @run_readSale pg cat clock sale.source after.current hheader
        have hattempt : (recordAttempt sale).run (Session.handle pg cat clock) (Session.idle ledger) =
            (.ok ⟨201, false, view⟩, Session.idle after.current) := by
          unfold recordAttempt
          rw [run_then hrun', run_then hview]
          rfl
        rw [recordAttempts, Prog.run_tryCatch, hattempt]
        exact nofun
      · refine iff_of_true ?_ hrecordable
        have hrun' : (atomic (validateReferences sale >>= fun _ => insertSale sale)).run (Session.handle pg cat clock)
            (Session.idle ledger) = (.error e, Session.idle ledger) := by
          rw [run_atomic, hatomic hrun]
          exact congrArg (Prod.mk _) (congrArg Session.idle hcommitted)
        obtain ⟨answer, hanswer⟩ := @recordFailure_worded sale (some (recordAttempts sale 1)) e hworded
        rw [run_recordAttempt_error hrun', hanswer]
        exact answered_api answer
      · refine iff_of_false ?_ hnot
        have hrun' : (atomic (validateReferences sale >>= fun _ => insertSale sale)).run (Session.handle pg cat clock)
            (Session.idle ledger) = (.error e, Session.idle ledger) := by
          rw [run_atomic, hatomic hrun]
          exact congrArg (Prod.mk _) (congrArg Session.idle hcommitted)
        rw [run_recordAttempt_error hrun', run_unworded hunworded hcaptured]
        exact not_answered hunworded

end Statements

end RetailSegmentation.Sales
