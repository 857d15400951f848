import RetailSegmentation.SalesLedger
import RetailSegmentation.SalesReplay

/-! `recordSale` under one Idempotency-Key: the program of a request followed by itself, and from it every
interleaving of them. -/

namespace RetailSegmentation.Sales

open Program

section Programs

variable {T : Type} [DecidableEq T] {pg : Postgres} {cat : Catalog} {sha256 : CanonicalSale → Digest}
  {requests : T → SaleRequest} {source : String} {start : Ledger} {t : T} {stage : Stage} {α : Type}
  {sale : ValidSale} {digest : Digest}

abbrev ReplaySafe (pg : Postgres) (cat : Catalog) (sha256 : CanonicalSale → Digest)
    (requests : T → SaleRequest) (source : String) (start : Ledger) (t : T) (p : SalesProg α) (stage : Stage)
    (P : α → Stage → Prop) (F : Exc → Stage → Prop) : Prop :=
  (replayContract pg sha256 requests source start).Safe (salesMachine pg cat) t p stage (Contract.Ends P F)

/-- The codes with which the database's answers refuse a sale. -/
def refusalCodes : List String :=
  ["unknown_customer", "before_registration", "unknown_product", "inactive_product", "no_stock_record",
    "stock_unavailable", "unknown_store", "unknown_channel"]

/-- How a transaction fails: the key is taken and the sale that took it is recorded, or it is aborted, or
refused. -/
def FailsIn : Exc → Stage → Prop
  | .database e, stage => (e = keyTaken ∧ ∃ sale header, stage = .seen sale header) ∨ e ≠ keyTaken
  | .api e, _ => e.code ∈ refusalCodes
  | .stockRefusal _ e, _ => ∃ constraint, e = .checkViolation constraint
  | _, _ => False

/-- How an attempt fails, after the rollback. -/
def Fails : Exc → Stage → Prop
  | .database e, stage => (e = keyTaken ∧ ∃ sale header, stage = .found sale header) ∨
      (e ≠ keyTaken ∧ stage.Resting)
  | .api e, stage => e.code ∈ refusalCodes ∧ stage.Resting
  | .stockRefusal _ e, stage => (∃ constraint, e = .checkViolation constraint) ∧ stage.Resting
  | _, _ => False

theorem FailsIn.rolledBack {e : Exc} (hfails : FailsIn e stage) : Fails e stage.rolledBack := by
  have hresting := stage.rolledBack_resting
  cases e with
  | database e =>
      rcases hfails with ⟨rfl, sale, header, rfl⟩ | hne
      · exact .inl ⟨rfl, sale, header, rfl⟩
      · exact .inr ⟨hne, hresting⟩
  | api e => exact ⟨hfails, hresting⟩
  | stockRefusal index e => exact ⟨hfails, hresting⟩
  | _ => exact hfails.elim

theorem failsIn_of_not_keyTaken {e : DbError} (he : e ≠ keyTaken) : FailsIn (.database e) stage := .inr he

theorem replaySafe_read {s : Statement} {P : Result s → Stage → Prop} {F : Exc → Stage → Prop}
    (hresting : stage.Resting) (hreads : ∀ clock ledger, (effect pg cat clock s ledger).2 = [])
    (hok : ∀ clock ledger v stage', Reads pg sha256 requests source start stage stage' ledger →
      (effect pg cat clock s ledger).1 = .ok v → P v stage')
    (herror : ∀ e stage', stage'.Resting →
      (∃ clock ledger, (effect pg cat clock s ledger).1 = .error e) ∨ IsAbort e →
      F (.database e) stage') :
    ReplaySafe pg cat sha256 requests source start t (execute s) stage P F := by
  refine (spec_read_resting hresting hreads).mono ?_
  rintro (e | v) stage' h
  · exact herror e stage' h.1 h.2
  · obtain ⟨clock, ledger, hread, hv⟩ := h
    exact hok clock ledger v stage' hread hv

theorem replaySafe_write {s : Statement} {ledger : Ledger} {P : Result s → Stage → Prop}
    (hinsert : ∀ session new, s ≠ .insertTransaction session new)
    (hok : ∀ clock v, (effect pg cat clock s ledger).1 = .ok v →
      P v (.writing (ledger.writes (effect pg cat clock s ledger).2))) :
    ReplaySafe pg cat sha256 requests source start t (execute s) (.writing ledger) P FailsIn := by
  refine (spec_execute_writing hinsert).mono ?_
  rintro (e | v) stage' h
  · exact failsIn_of_not_keyTaken h.1
  · obtain ⟨clock, hv, rfl⟩ := h
    exact hok clock v hv

theorem replaySafe_insertSaleLines (lines : List SaleLine) {ledger : Ledger} {name : String} :
    ReplaySafe pg cat sha256 requests source start t (insertSaleLines name lines) (.writing ledger)
      (fun _ stage => stage = .writing { ledger with lines := ledger.lines ++ lines.map (SaleLine.toLine name) })
      FailsIn := by
  induction lines generalizing ledger with
  | nil =>
      change Stage.writing ledger = _
      rw [List.map_nil, List.append_nil]
  | cons line lines ih =>
      refine Contract.safe_seq (replaySafe_write (fun _ _ => nofun)
        (P := fun _ stage => stage = .writing (ledger.write (.addLine (line.toLine name))))
        fun clock v hv => ?_) ?_
      · simp only [effect] at hv ⊢
        split at hv
        · cases hv
        split_ifs at hv ⊢
        rfl
      · rintro _ _ rfl
        have htail := @ih (ledger.write (.addLine (line.toLine name)))
        simp only [Ledger.write, List.append_assoc] at htail
        exact htail

theorem replaySafe_consume {storeId productId quantity : ℤ} {ledger : Ledger} :
    ReplaySafe pg cat sha256 requests source start t (consume storeId productId quantity) (.writing ledger)
      (fun _ stage => stage = .writing (ledger.take storeId [(productId, quantity)])) FailsIn := by
  unfold consume
  split_ifs
  · exact failsIn_of_not_keyTaken (by simp [keyTaken])
  refine Contract.safe_seq (replaySafe_write (fun _ _ => by simp) (P := fun (updated : Option ℤ) stage =>
    stage = .writing (if updated.isSome then ledger.take storeId [(productId, quantity)] else ledger))
    fun clock v hv => ?_) ?_
  · simp only [effect] at hv ⊢
    split at hv
    · rename_i hnone
      obtain rfl := Except.ok.inj hv
      rfl
    · rename_i onHand hstock
      by_cases hle : quantity ≤ onHand
      · rw [if_pos hle] at hv ⊢
        obtain rfl := Except.ok.inj hv
        exact congrArg Stage.writing (Ledger.take_singleton hstock)
      · rw [if_neg hle] at hv ⊢
        obtain rfl := Except.ok.inj hv
        rfl
  · rintro (_ | remaining) _ rfl
    · refine Contract.safe_seq (replaySafe_write (fun _ _ => by simp) (P := fun _ _ => True)
        fun _ _ _ => trivial) ?_
      rintro (_ | onHand) stage' -
      · exact failsIn_of_not_keyTaken (by simp [keyTaken])
      · exact failsIn_of_not_keyTaken (by simp [keyTaken])
    · rfl

theorem replaySafe_consumeLines {storeId : ℤ} (lines : List (ℕ × SaleLine)) {ledger : Ledger} :
    ReplaySafe pg cat sha256 requests source start t (consumeLines storeId lines) (.writing ledger)
      (fun _ stage => stage =
        .writing (ledger.take storeId (lines.map fun e => (e.2.productId, e.2.quantity)))) FailsIn := by
  induction lines generalizing ledger with
  | nil =>
      change Stage.writing ledger = _
      rw [List.map_nil, Ledger.take_nil]
  | cons e lines ih =>
      obtain ⟨index, line⟩ := e
      refine Contract.safe_seq (Contract.safe_handle replaySafe_consume fun e stage' he => ?_) ?_
      · split
        · exact ⟨_, rfl⟩
        · exact he
      · rintro _ _ rfl
        have htail := @ih (ledger.take storeId [(line.productId, line.quantity)])
        rwa [Ledger.take_take] at htail

theorem replaySafe_insertSale (hfresh : start.header source = none) (hresting : stage.Resting)
    (hprepared : prepare sha256 (requests t) = .ok sale) (hnamed : sale.source = source) :
    ReplaySafe pg cat sha256 requests source start t (insertSale sale) stage
      (fun _ stage' => ∃ header, Recorded pg sha256 requests source t sale header ∧
        stage' = .writing (start.sold sale header)) FailsIn := by
  refine Contract.safe_seq (P := fun _ stage' => ∃ header, Recorded pg sha256 requests source t sale header ∧
    stage' = .writing (start.write (.putHeader source header))) ?_ ?_
  · refine (spec_insertTransaction_resting hfresh hresting hprepared hnamed).mono ?_
    rintro (e | v) stage' h
    · exact h.imp id And.left
    · exact h
  rintro _ _ ⟨header, hrecorded, rfl⟩
  refine Contract.safe_seq (replaySafe_insertSaleLines sale.lines) ?_
  rintro _ _ rfl
  refine Contract.safe_seq (replaySafe_consumeLines (indexedByProduct sale.lines)) ?_
  rintro _ _ rfl
  refine replaySafe_write (fun _ _ => nofun) fun clock v hv => ⟨header, hrecorded, ?_⟩
  simp only [effect] at hv ⊢
  split at hv
  · cases hv
  split_ifs at hv ⊢
  rw [Ledger.take_perm (indexedByProduct_quantities sale.lines)]
  subst hnamed
  rfl

theorem replaySafe_validateReferences (hresting : stage.Resting) :
    ReplaySafe pg cat sha256 requests source start t (validateReferences sale) stage
      (fun _ stage' => stage'.Resting) FailsIn := by
  have hrests : ∀ {stage stage' : Stage} {ledger : Ledger},
      Reads pg sha256 requests source start stage stage' ledger → stage'.Resting := by
    rintro _ _ _ (_ | ⟨-, -⟩)
    · exact .inl rfl
    · exact .inr ⟨_, _, rfl⟩
  have herror : ∀ {s : Statement} (e : DbError) (stage' : Stage),
    (∀ session new, s ≠ .insertTransaction session new) →
      ((∃ clock ledger, (effect pg cat clock s ledger).1 = .error e) ∨ IsAbort e) →
      FailsIn (.database e) stage' := by
    rintro s e stage' hinsert (⟨clock, ledger, h⟩ | habort)
    · exact failsIn_of_not_keyTaken (effect_not_keyTaken hinsert h)
    · exact failsIn_of_not_keyTaken (keyTaken_not_abort habort)
  refine Contract.safe_seq (replaySafe_read hresting (fun _ _ => rfl) (P := fun _ stage' => stage'.Resting)
    (fun _ _ _ _ hread _ => hrests hread) fun e stage' _ h =>
      herror (s := .customerRegistration _) e stage' (fun _ _ => nofun) h) ?_
  rintro (_ | day) stage' hresting'
  · exact (by decide : "unknown_customer" ∈ refusalCodes)
  dsimp only
  split_ifs
  · exact (by decide : "before_registration" ∈ refusalCodes)
  refine Contract.safe_seq (replaySafe_read hresting' (fun _ _ => rfl) (P := fun _ stage' => stage'.Resting)
    (fun _ _ _ _ hread _ => hrests hread) fun e stage' _ h =>
      herror (s := .products _) e stage' (fun _ _ => nofun) h) ?_
  intro states stage'' hresting''
  unfold refuse
  split
  · exact hresting''
  · rename_i e hcheck
    change e.code ∈ refusalCodes
    rcases checkProducts_error hcheck with hcode | hcode <;> (rw [hcode]; decide)

theorem replaySafe_atomic {body : SalesProg Unit} (hfresh : start.header source = none)
    (hbody : ReplaySafe pg cat sha256 requests source start t body stage
      (fun _ stage' => ∃ header, Recorded pg sha256 requests source t sale header ∧
        stage' = .writing (start.sold sale header)) FailsIn) :
    ReplaySafe pg cat sha256 requests source start t (atomic body) stage
      (fun _ stage' => ∃ header, stage' = .found sale header) Fails := by
  refine Contract.safe_handle (F := FailsIn) (Contract.safe_seq hbody ?_) fun e stage' he => ?_
  · rintro _ _ ⟨header, hrecorded, rfl⟩
    refine (spec_commit_writing hfresh hrecorded).mono ?_
    rintro (e | _) stage' h
    · exact failsIn_of_not_keyTaken h
    · exact ⟨header, h⟩
  · refine spec_rollback_any.mono ?_
    rintro (e' | _) stage'' ⟨rfl, hne⟩
    · exact .inr ⟨hne e' rfl, stage'.rolledBack_resting⟩
    · exact he.rolledBack

def Aborted (e : Exc) : Prop := ∃ e', e = .database e' ∧ IsAbort e'

theorem replaySafe_readSale {header : Header} (hlines : linesOf source start.lines = []) :
    ReplaySafe pg cat sha256 requests source start t (readSale source) (.found sale header)
      (fun v stage' => v = some (sale.view header) ∧ stage' = .found sale header)
      (fun e stage' => Aborted e ∧ stage'.Resting) := by
  have hresting : (Stage.found sale header).Resting := .inr ⟨sale, header, rfl⟩
  refine Contract.safe_seq (replaySafe_read hresting (fun _ _ => rfl)
    (P := fun found stage' => found = some header ∧ sale.source = source ∧ stage' = .found sale header) ?_ ?_) ?_
  · intro clock ledger v stage' hread hv
    cases hread with
    | @sold _ u _ _ hrecorded hstage =>
        rcases hstage with h | h
        · cases h
        obtain ⟨rfl, rfl⟩ := Stage.found.inj h
        obtain rfl := hrecorded.named
        rw [Ledger.sold_getSale] at hv
        exact ⟨(Except.ok.inj hv).symm, rfl, rfl⟩
  · rintro e stage' hrest (⟨_, _, h⟩ | habort)
    · cases h
    · exact ⟨⟨e, rfl, habort⟩, hrest⟩
  rintro _ _ ⟨rfl, rfl, rfl⟩
  refine Contract.safe_seq (replaySafe_read hresting (fun _ _ => rfl)
    (P := fun lines stage' => lines = (sale.view header).lines ∧ stage' = .found sale header) ?_ ?_) ?_
  · intro clock ledger v stage' hread hv
    cases hread with
    | @sold _ u _ _ hrecorded hstage =>
        rcases hstage with h | h
        · cases h
        obtain ⟨rfl, rfl⟩ := Stage.found.inj h
        rw [Ledger.sold_getSaleLines hlines] at hv
        exact ⟨(Except.ok.inj hv).symm, rfl⟩
  · rintro e stage' hrest (⟨_, _, h⟩ | habort)
    · cases h
    · exact ⟨⟨e, rfl, habort⟩, hrest⟩
  rintro _ _ ⟨rfl, rfl⟩
  exact ⟨rfl, rfl⟩

/-- The request now knows of a sale, the one it knew of if it did. -/
def Finds (stage stage' : Stage) (sale : ValidSale) (header : Header) : Prop :=
  (stage = .idle ∨ stage = .found sale header) ∧ stage' = .found sale header

/-- What a replay finds: nothing recorded, or a sale of the same digest. -/
def Replayed (stage : Stage) (digest : Digest) : Option Representation → Stage → Prop
  | none, stage' => stage = .idle ∧ stage' = .idle
  | some answer, stage' => ∃ sale header, Finds stage stage' sale header ∧ sale.digest = digest ∧
      answer = ⟨200, true, sale.view header⟩

/-- A replay fails: the sale it finds has another digest, or it is aborted. -/
def Unreplayed (stage : Stage) (digest : Digest) (e : Exc) (stage' : Stage) : Prop :=
  (e = .api keyReused ∧ ∃ sale header, Finds stage stage' sale header ∧ sale.digest ≠ digest) ∨
    (Aborted e ∧ stage'.Resting)

theorem replaySafe_replay (hfresh : start.header source = none) (hlines : linesOf source start.lines = [])
    (hresting : stage.Resting) :
    ReplaySafe pg cat sha256 requests source start t (replay source digest) stage (Replayed stage digest)
      (Unreplayed stage digest) := by
  refine Contract.safe_seq (replaySafe_read hresting (fun _ _ => rfl)
    (P := fun (found : Option Digest) stage' => (found = none ∧ stage = .idle ∧ stage' = .idle) ∨
      ∃ sale header, found = some sale.digest ∧ Finds stage stage' sale header) ?_ ?_) ?_
  · intro clock ledger v stage' hread hv
    cases hread with
    | start =>
        simp only [effect, hfresh] at hv
        exact .inl ⟨(Except.ok.inj hv).symm, rfl, rfl⟩
    | sold hrecorded hstage =>
        obtain rfl := hrecorded.named
        rw [Ledger.sold_findCapture] at hv
        exact .inr ⟨_, _, (Except.ok.inj hv).symm, hstage, rfl⟩
  · rintro e stage' hrest (⟨_, _, h⟩ | habort)
    · cases h
    · exact .inr ⟨⟨e, rfl, habort⟩, hrest⟩
  rintro _ _ (⟨rfl, rfl, rfl⟩ | ⟨sale, header, rfl, hstage, rfl⟩)
  · exact ⟨rfl, rfl⟩
  refine Contract.safe_seq ((replaySafe_readSale hlines).failing fun _ _ h => .inr h) ?_
  rintro _ _ ⟨rfl, rfl⟩
  dsimp only
  split_ifs with hdigest
  · exact .inl ⟨rfl, sale, header, ⟨hstage, rfl⟩, hdigest⟩
  · exact ⟨sale, header, ⟨hstage, rfl⟩, not_not.mp hdigest, rfl⟩

/-- A request that is served: with the sale it recorded, or that another recorded. -/
def Served (digest : Digest) (answer : Representation) (stage : Stage) : Prop :=
  ∃ sale header, stage = .found sale header ∧ sale.digest = digest ∧
    (answer = ⟨201, false, sale.view header⟩ ∨ answer = ⟨200, true, sale.view header⟩)

/-- An answer of the database refuses the request, or a failure of it ends the request. -/
def Refused : Exc → Prop
  | .api e => e.code ∈ refusalCodes
  | .database e => e ≠ keyTaken
  | _ => False

/-- A request that is not served: the recorded sale has another digest, or it is refused. -/
def Unserved (digest : Digest) (e : Exc) (stage : Stage) : Prop :=
  (e = .api keyReused ∧ ∃ sale header, stage = .found sale header ∧ sale.digest ≠ digest) ∨
    (Refused e ∧ stage.Resting)

theorem Unreplayed.unserved {stage' : Stage} {e : Exc} (h : Unreplayed stage digest e stage') :
    Unserved digest e stage' := by
  rcases h with ⟨rfl, sale, header, ⟨-, rfl⟩, hdigest⟩ | ⟨⟨e', rfl, habort⟩, hresting⟩
  · exact .inl ⟨rfl, sale, header, rfl, hdigest⟩
  · exact .inr ⟨keyTaken_not_abort habort, hresting⟩

theorem refused_databaseRefusal (index : ℕ) {e : DbError} (he : e ≠ keyTaken) :
    Refused (databaseRefusal index e) := by
  rcases databaseRefusal_eq index e with h | ⟨answer, h, hcode⟩
  · rw [h]
    exact he
  · rw [h]
    exact List.mem_append_right
      ["unknown_customer", "before_registration", "unknown_product", "inactive_product"] hcode

theorem replaySafe_recordAttempt (hfresh : start.header source = none)
    (hlines : linesOf source start.lines = []) (hresting : stage.Resting)
    (hprepared : prepare sha256 (requests t) = .ok sale) (hnamed : sale.source = source) :
    ReplaySafe pg cat sha256 requests source start t (recordAttempt sale) stage
      (fun answer stage' => ∃ header, stage' = .found sale header ∧
        answer = ⟨201, false, sale.view header⟩) Fails := by
  refine Contract.safe_seq (replaySafe_atomic hfresh
    (Contract.safe_seq (replaySafe_validateReferences hresting)
      fun _ stage' hrest => replaySafe_insertSale hfresh hrest hprepared hnamed)) ?_
  rintro _ _ ⟨header, rfl⟩
  rw [hnamed]
  refine Contract.safe_seq ((replaySafe_readSale hlines).failing ?_) ?_
  · rintro e stage' ⟨⟨e', rfl, habort⟩, hrest⟩
    exact .inr ⟨keyTaken_not_abort habort, hrest⟩
  rintro _ _ ⟨rfl, rfl⟩
  exact ⟨header, rfl, rfl⟩

theorem replaySafe_recordFailure {again : Option (SalesProg Representation)} {e : Exc}
    (hfresh : start.header source = none) (hlines : linesOf source start.lines = [])
    (hnamed : sale.source = source) (hfails : Fails e stage)
    (hagain : ∀ p, again = some p → ∀ stage : Stage, stage.Resting →
      ReplaySafe pg cat sha256 requests source start t p stage (Served sale.digest)
        (Unserved sale.digest)) :
    ReplaySafe pg cat sha256 requests source start t (recordFailure sale again e) stage
      (Served sale.digest) (Unserved sale.digest) := by
  have hretry : ∀ e : DbError, e ≠ keyTaken → stage.Resting →
      ReplaySafe pg cat sha256 requests source start t (again.getD (.raise (.database e))) stage
        (Served sale.digest) (Unserved sale.digest) := by
    intro e he hresting
    cases again with
    | none => exact .inr ⟨he, hresting⟩
    | some p => exact hagain p rfl stage hresting
  have hrest : ∀ e : DbError, e ≠ keyTaken → Fails (.database e) stage → stage.Resting := by
    rintro e he (⟨rfl, -⟩ | ⟨-, hresting⟩)
    · exact absurd rfl he
    · exact hresting
  unfold recordFailure
  split
  · exact hretry .deadlockDetected nofun (hrest .deadlockDetected nofun hfails)
  · exact hretry .serializationFailure nofun (hrest .serializationFailure nofun hfails)
  · rename_i constraint
    split_ifs with hother
    · have hne : DbError.uniqueViolation constraint ≠ keyTaken := fun h =>
        hother (DbError.uniqueViolation.inj h)
      exact .inr ⟨hne, hrest _ hne hfails⟩
    · -- The key is taken: the sale that took it is there to be replayed.
      obtain rfl := not_not.mp hother
      rcases hfails with ⟨-, other, header, rfl⟩ | ⟨hne, -⟩
      · rw [hnamed]
        refine Contract.safe_seq ((replaySafe_replay hfresh hlines (.inr ⟨_, _, rfl⟩)).failing
          fun e stage' h => h.unserved) ?_
        rintro (_ | answer) stage' h
        · cases h.1
        · obtain ⟨found, foundHeader, ⟨-, rfl⟩, hdigest, rfl⟩ := h
          exact ⟨found, foundHeader, rfl, hdigest, .inr rfl⟩
      · exact absurd rfl hne
  · obtain ⟨⟨constraint, rfl⟩, hresting⟩ := hfails
    exact .inr ⟨refused_databaseRefusal _ nofun, hresting⟩
  · rename_i constraint
    exact .inr ⟨refused_databaseRefusal _ nofun, hrest (.checkViolation constraint) nofun hfails⟩
  · rename_i constraint
    exact .inr ⟨refused_databaseRefusal _ nofun, hrest (.foreignKeyViolation constraint) nofun hfails⟩
  · rename_i hunique hstock _ _
    cases e with
    | api e => exact .inr hfails
    | database e =>
        have hne : e ≠ keyTaken := by
          rintro rfl
          exact hunique _ rfl
        exact .inr ⟨hne, hrest e hne hfails⟩
    | stockRefusal index e => exact absurd rfl (hstock index e)
    | _ => exact hfails.elim

theorem replaySafe_recordAttempts (hfresh : start.header source = none)
    (hlines : linesOf source start.lines = []) (hprepared : prepare sha256 (requests t) = .ok sale)
    (hnamed : sale.source = source) (retries : ℕ) (hresting : stage.Resting) :
    ReplaySafe pg cat sha256 requests source start t (recordAttempts sale retries) stage
      (Served sale.digest) (Unserved sale.digest) := by
  have hattempt : ∀ (stage : Stage), stage.Resting →
      ReplaySafe pg cat sha256 requests source start t (recordAttempt sale) stage (Served sale.digest) Fails := by
    intro stage hresting
    refine (replaySafe_recordAttempt hfresh hlines hresting hprepared hnamed).mono ?_
    rintro (e | answer) stage' h
    · exact h
    · obtain ⟨header, rfl, rfl⟩ := h
      exact ⟨sale, header, rfl, rfl, .inl rfl⟩
  induction retries generalizing stage with
  | zero =>
      exact Contract.safe_handle (hattempt stage hresting) fun e stage' he =>
        replaySafe_recordFailure hfresh hlines hnamed he fun _ h => by cases h
  | succ retries ih =>
      refine Contract.safe_handle (hattempt stage hresting) fun e stage' he =>
        replaySafe_recordFailure hfresh hlines hnamed he fun p hp stage hresting => ?_
      obtain rfl := Option.some.inj hp
      exact ih hresting

/-- What a request ends with: served, or not prepared at all, or not served. -/
def Answered (sha256 : CanonicalSale → Digest) (request : SaleRequest) :
    Except Exc Representation → Stage → Prop
  | .ok answer, stage => ∃ sale, prepare sha256 request = .ok sale ∧ Served sale.digest answer stage
  | .error e, stage => prepare sha256 request = .error e ∨
      ∃ sale, prepare sha256 request = .ok sale ∧ Unserved sale.digest e stage

theorem prepare_source {request : SaleRequest} {key : String} (hkey : request.key = some key)
    (hprepared : prepare sha256 request = .ok sale) : sale.source = namespacePrefix ++ key := by
  unfold prepare at hprepared
  rw [hkey] at hprepared
  dsimp only at hprepared
  split at hprepared
  · cases hprepared
  split at hprepared
  · cases hprepared
  obtain rfl := Except.ok.inj hprepared
  rfl

theorem safe_recordSale_idle (hfresh : start.header source = none)
    (hlines : linesOf source start.lines = [])
    (hsource : ∀ sale, prepare sha256 (requests t) = .ok sale → sale.source = source) :
    (replayContract pg sha256 requests source start).Safe (salesMachine pg cat) t
      (recordSale sha256 (requests t)) .idle (Answered sha256 (requests t)) := by
  unfold recordSale
  cases hprepared : prepare sha256 (requests t) with
  | error e => exact .inl hprepared
  | ok sale =>
      have hnamed := hsource sale hprepared
      refine Contract.Safe.mono (Q := Contract.Ends (Served sale.digest) (Unserved sale.digest)) ?_ ?_
      · refine Contract.safe_seq (P := Replayed .idle sale.digest) ?_ ?_
        · rw [hnamed]
          exact (replaySafe_replay hfresh hlines (.inl rfl)).failing fun e stage' h => h.unserved
        · rintro (_ | answer) stage' h
          · exact replaySafe_recordAttempts hfresh hlines hprepared hnamed 2 (.inl h.2)
          · obtain ⟨other, header, ⟨-, rfl⟩, hdigest, rfl⟩ := h
            exact ⟨other, header, rfl, hdigest, .inr rfl⟩
      · rintro (e | answer) stage' h
        · exact .inr ⟨sale, hprepared, h⟩
        · exact ⟨sale, hprepared, h⟩

theorem safe_recordSale_found {header : Header} {own : ValidSale} (hfresh : start.header source = none)
    (hlines : linesOf source start.lines = []) (hnamed : own.source = source)
    (hprepared : prepare sha256 (requests t) = .ok own) :
    (replayContract pg sha256 requests source start).Safe (salesMachine pg cat) t
      (recordSale sha256 (requests t)) (.found sale header) (Contract.Ends
        (fun answer stage => stage = .found sale header ∧ sale.digest = own.digest ∧
          answer = ⟨200, true, sale.view header⟩)
        fun e stage => (e = .api keyReused ∧ stage = .found sale header ∧ sale.digest ≠ own.digest) ∨
          Aborted e) := by
  have hfinds : ∀ {stage' : Stage} {other : ValidSale} {otherHeader : Header},
      Finds (.found sale header) stage' other otherHeader →
        other = sale ∧ otherHeader = header ∧ stage' = .found sale header := by
    rintro stage' other otherHeader ⟨h | h, rfl⟩
    · cases h
    · obtain ⟨rfl, rfl⟩ := Stage.found.inj h
      exact ⟨rfl, rfl, rfl⟩
  unfold recordSale
  rw [hprepared]
  refine Contract.safe_seq (P := Replayed (.found sale header) own.digest) ?_ ?_
  · rw [hnamed]
    refine (replaySafe_replay hfresh hlines (.inr ⟨_, _, rfl⟩)).failing ?_
    rintro e stage' (⟨rfl, other, otherHeader, hfound, hdigest⟩ | ⟨habort, -⟩)
    · obtain ⟨rfl, rfl, rfl⟩ := hfinds hfound
      exact .inl ⟨rfl, rfl, hdigest⟩
    · exact .inr habort
  · rintro (_ | answer) stage' h
    · cases h.1
    · obtain ⟨other, otherHeader, hfound, hdigest, rfl⟩ := h
      obtain ⟨rfl, rfl, rfl⟩ := hfinds hfound
      exact ⟨rfl, hdigest, rfl⟩

end Programs

/-! ### Every interleaving -/

section Runs

variable {T : Type} [DecidableEq T]

/-- The sale of one of the requests is what has been added to the committed tables of the start. -/
def SoldBy (pg : Postgres) (sha256 : CanonicalSale → Digest) (requests : T → SaleRequest) (source : String)
    (start : Ledger) (sale : ValidSale) (header : Header) (db : SalesDb T) : Prop :=
  (∃ u, Recorded pg sha256 requests source u sale header) ∧ db.committed = start.sold sale header

theorem idle_of_waits {pg : Postgres} {cat : Catalog} {t : T}
    {start cfg : Config T Command Reply Exc Representation (SalesDb T)} (hidle : ∀ t, start.state.Idle t)
    (hwaits : ((salesMachine pg cat).guard fun u _ _ => u ≠ t).Reaches start cfg) : cfg.state.Idle t := by
  induction hwaits with
  | refl => exact hidle t
  | @tail cfg _ _ hstep ih =>
      cases hstep with
      | command _ hstep => exact (SalesDb.step_around hstep.1.symm hstep.2).idle ih
      | env henv => exact henv.elim
      | @halt u db' hhalt =>
          obtain rfl : db' = cfg.state.rollback u := hhalt
          by_cases hut : t = u
          · subst hut
            exact SalesDb.rollback_idle t _
          · exact (SalesDb.Around.rollback hut _).idle ih

/-- **Exactly once.** Any number of requests carry one fresh Idempotency-Key. However their statements
interleave and wherever they are aborted, the committed tables are those of the start, or those with the
sale of one request recorded, its stock taken once. An answer describes that sale and goes to requests of
its digest; a request of another digest is refused, aborted or told that the key is reused, and none
changes the tables but by recording its own sale where there is none. A request that only begins once the
sale is recorded is always answered from it, unless the database aborts it. -/
theorem recordSale_exactly_once (pg : Postgres) (cat : Catalog) (sha256 : CanonicalSale → Digest)
    (requests : T → SaleRequest) (key : String) (hkey : ∀ t, (requests t).key = some key)
    {db : SalesDb T} (hidle : ∀ t, db.Idle t)
    (hfresh : db.committed.header (namespacePrefix ++ key) = none)
    (hlines : linesOf (namespacePrefix ++ key) db.committed.lines = [])
    {cfg : Config T Command Reply Exc Representation (SalesDb T)}
    (hrun : (salesMachine pg cat).Reaches (Config.initial (fun t => recordSale sha256 (requests t)) db) cfg) :
    Once pg sha256 requests (namespacePrefix ++ key) db.committed cfg.state ∧
    (∀ t answer, cfg.threads t = some (.ret answer) → ∃ own sale header,
      prepare sha256 (requests t) = .ok own ∧ sale.digest = own.digest ∧
      SoldBy pg sha256 requests (namespacePrefix ++ key) db.committed sale header cfg.state ∧
      (answer = ⟨201, false, sale.view header⟩ ∨ answer = ⟨200, true, sale.view header⟩)) ∧
    (∀ t e, cfg.threads t = some (.raise e) → prepare sha256 (requests t) = .error e ∨ Refused e ∨
      ∃ own sale header, prepare sha256 (requests t) = .ok own ∧ sale.digest ≠ own.digest ∧
        SoldBy pg sha256 requests (namespacePrefix ++ key) db.committed sale header cfg.state ∧
        e = .api keyReused) ∧
    (∀ t c k r db', cfg.threads t = some (.call c k) → salesStep pg cat t c cfg.state r db' →
      Records pg sha256 requests (namespacePrefix ++ key) db.committed t cfg.state db') ∧
    (∀ t own sale header, ((salesMachine pg cat).guard fun u _ _ => u ≠ t).Reaches
        (Config.initial (fun t => recordSale sha256 (requests t)) db) cfg →
      prepare sha256 (requests t) = .ok own →
      SoldBy pg sha256 requests (namespacePrefix ++ key) db.committed sale header cfg.state →
      ∀ later, (salesMachine pg cat).Reaches cfg later →
        (∀ answer, later.threads t = some (.ret answer) →
          sale.digest = own.digest ∧ answer = ⟨200, true, sale.view header⟩) ∧
        ∀ e, later.threads t = some (.raise e) →
          (sale.digest ≠ own.digest ∧ e = .api keyReused) ∨ Aborted e) := by
  have hsource : ∀ t sale, prepare sha256 (requests t) = .ok sale → sale.source = namespacePrefix ++ key :=
    fun t sale hprepared => prepare_source (hkey t) hprepared
  have hgood : (replayContract pg sha256 requests (namespacePrefix ++ key) db.committed).Good
      (salesMachine pg cat) (fun t => Answered sha256 (requests t)) cfg := by
    refine Contract.Good.reaches replayContract_closed (Contract.Good.initial (.inl rfl) fun t => ?_) hrun
    exact ⟨.idle, hidle t, safe_recordSale_idle hfresh hlines (hsource t)⟩
  refine ⟨hgood.inv, fun t answer hthread => ?_, fun t e hthread => ?_, fun t c k r db' hthread hstep =>
    hgood.guar hthread hstep, fun t own sale header hwaits hprepared hsold later hlater => ?_⟩
  · obtain ⟨stage, hat, own, hprepared, sale, header, rfl, hdigest, hanswer⟩ := hgood.ended hthread
    exact ⟨own, sale, header, hprepared, hdigest, hat.2, hanswer⟩
  · obtain ⟨stage, hat, hanswered⟩ := hgood.raised hthread
    rcases hanswered with hprepared | ⟨own, hprepared, ⟨rfl, sale, header, rfl, hdigest⟩ | ⟨hrefused, -⟩⟩
    · exact .inl hprepared
    · exact .inr (.inr ⟨own, sale, header, hprepared, hdigest, hat.2, rfl⟩)
    · exact .inr (.inl hrefused)
  · rcases Machine.waits hwaits with hthread | hdead
    · have hat : (Stage.found sale header).At pg sha256 requests (namespacePrefix ++ key) db.committed t
          cfg.state := ⟨idle_of_waits hidle hwaits, hsold⟩
      have hlate := Contract.Good.reaches replayContract_closed (hgood.follow (ℓ := Stage.found sale header) hthread hat
        (safe_recordSale_found hfresh hlines (hsource t own hprepared) hprepared)) hlater
      refine ⟨fun answer hlast => ?_, fun e hlast => ?_⟩
      · obtain ⟨stage, -, hended⟩ := hlate.ended hlast
        rw [Function.update_self] at hended
        exact hended.2
      · obtain ⟨stage, -, hended⟩ := hlate.raised hlast
        rw [Function.update_self] at hended
        exact hended.imp (fun h => ⟨h.2.2, h.1⟩) id
    · have hnone := Machine.dead hdead hlater
      constructor
      · intro answer hlast
        cases hnone.symm.trans hlast
      · intro e hlast
        cases hnone.symm.trans hlast

end Runs

/-! ### Two sales of a corner shop with one key -/

def cornerKey : String := "7c9e6679-7425-40de-944b-e07fc1f90ae7"

def cornerSale (quantity : ℤ) : SaleRequest where
  key := some cornerKey
  sub := cornerCustomer
  body := ⟨cornerCustomer, 1, 1, some ⟨738000 * microsecondsPerDay, some 0⟩,
    [⟨7, some quantity, some (.finite false 250 (-2))⟩]⟩
  now := 739000 * microsecondsPerDay

def cornerRequests : Bool → SaleRequest
  | true => cornerSale 2
  | false => cornerSale 3

/-- Enough of a digest to tell the two requests apart. -/
def cornerSha256 (sale : CanonicalSale) : Digest := BitVec.ofInt 256 (saleTotal sale.lines)

def cornerReplay : Config Bool Command Reply Exc Representation (SalesDb Bool) :=
  .initial (fun t => recordSale cornerSha256 (cornerRequests t)) cornerDb

/-- Both requests look for the key before either sale is inserted. -/
def replayTurns : List Bool :=
  [true, false, true, false, true, false, true, true, true, true, true, true, true, false, false, false, false,
    false]

/-- The second request finds the key taken by a sale of another digest. -/
theorem recordSale_exactly_once_corner :
    ∃ cfg, (salesMachine cornerPostgres cornerCatalog).Reaches cornerReplay cfg ∧
      Once cornerPostgres cornerSha256 cornerRequests (namespacePrefix ++ cornerKey) cornerDb.committed
        cfg.state ∧
      ∃ own sale header, prepare cornerSha256 (cornerRequests false) = .ok own ∧ sale.digest ≠ own.digest ∧
        SoldBy cornerPostgres cornerSha256 cornerRequests (namespacePrefix ++ cornerKey) cornerDb.committed
          sale header cfg.state := by
  have hrun : (schedule (SalesDb.answer cornerPostgres cornerCatalog (739000 * microsecondsPerDay))
      replayTurns cornerReplay).bind (fun cfg => cfg.threads false) = some (.raise (.api keyReused)) := rfl
  obtain ⟨cfg, hcfg, hreused⟩ := Option.bind_eq_some_iff.mp hrun
  have hreaches : (salesMachine cornerPostgres cornerCatalog).Reaches cornerReplay cfg :=
    Machine.reaches_of_schedule (salesMachine cornerPostgres cornerCatalog)
      (fun _ _ _ _ after h => .inl ⟨_, after, h, .inl rfl⟩) replayTurns hcfg
  obtain ⟨honce, -, hraised, -⟩ := recordSale_exactly_once cornerPostgres cornerCatalog cornerSha256
    cornerRequests cornerKey (fun t => by cases t <;> rfl) (fun t => SalesDb.ofRows_idle _ _ _ _ t) rfl rfl
    hreaches
  refine ⟨cfg, hreaches, honce, ?_⟩
  rcases hraised false _ hreused with hprepare | hrefused | ⟨own, sale, header, hprepared, hdigest, hsold, -⟩
  · have hok : (prepare cornerSha256 (cornerRequests false)).isOk = true := rfl
    rw [hprepare] at hok
    cases hok
  · exact absurd hrefused (by decide : keyReused.code ∉ refusalCodes)
  · exact ⟨own, sale, header, hprepared, hdigest, hsold⟩

end RetailSegmentation.Sales
