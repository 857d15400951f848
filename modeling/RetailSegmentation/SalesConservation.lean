import RetailSegmentation.SalesLedger
import RetailSegmentation.SalesStockRuns

/-! Stock conservation over whole runs of both writers: what every interleaving leaves in the committed
tables, and when a request may end with a refusal for stock. -/

namespace RetailSegmentation.Sales

open Program

section Contract

variable {T : Type} [DecidableEq T] {pg : Postgres} {cat : Catalog}

/-- The request of `t` was refused for stock: in a state some interleaving leads to, its locking read found
`found`, too little for the line it names, and since then it has only rolled back. -/
def RefusedFor (pg : Postgres) (cat : Catalog) (job : Job) (t : T) (e : Exc) (found : Found)
    (start cfg : Config T Command Reply Exc (Option Representation) (SalesDb T)) : Prop :=
  job.Refuses found e ∧ ∃ (before : Config T Command Reply Exc (Option Representation) (SalesDb T))
    (k : Reply (.execute (.lockInventory found.storeId found.productId)) →
      SalesProg (Option Representation)) (after : SalesDb T),
    (salesMachine pg cat).Reaches start before ∧ before.threads t = some (.call _ k) ∧
    salesStep pg cat t (.execute (.lockInventory found.storeId found.productId)) before.state
      (.ok found.onHand) after ∧
    FoundTooLittle job t before.state found.storeId found.productId found.onHand after ∧
    ((salesMachine pg cat).guard fun u c _ => u = t → c = .rollback).Reaches
      ⟨Function.update before.threads t (some (k (.ok found.onHand))), after⟩ cfg

theorem refusedFor_of_shown {jobs : T → Job} {first : Ledger} {job : Job} {t : T} {e : Exc} {found : Found}
    {start cfg : Config T Command Reply Exc (Option Representation) (SalesDb T)}
    {Q : T → Except Exc (Option Representation) → Held → Prop} (hjob : jobs t = job)
    (hgood : ∀ before, (salesMachine pg cat).Reaches start before →
      (stockContract jobs first).Good (salesMachine pg cat) Q before)
    (hshown : (salesMachine pg cat).Shown stockCauses start t found cfg) (hrefuses : job.Refuses found e) :
    RefusedFor pg cat job t e found start cfg := by
  obtain ⟨before, c, k, r, after, hbefore, hthread, hstep, hshows, hquiet⟩ := hshown
  refine ⟨hrefuses, ?_⟩
  have hguar := (hgood before hbefore).guar hthread hstep
  rcases c with s | _ | _
  · cases s with
    | lockInventory storeId productId =>
        cases r with
        | ok onHand =>
            obtain rfl : found = ⟨storeId, productId, onHand⟩ := hshows
            exact ⟨before, k, after, hbefore, hthread, hstep, hjob ▸ hguar, hquiet⟩
        | error e => exact absurd hshows id
    | _ => exact absurd hshows id
  · exact absurd hshows id
  · exact absurd hshows id

end Contract

/-- **Stock under both writers.** Whatever the interleaving of CSV rows and phone sales, wherever they are
aborted, committed stock is what was there less the committed lines added since, it is never negative,
and a line is refused for stock only where the row it had locked held less than it asks, or was not
there. -/
theorem stock_conserved {T : Type} [DecidableEq T] (pg : Postgres) (cat : Catalog)
    (sha256 : CanonicalSale → Digest) (jobs : T → Job) {db : SalesDb T} (hidle : ∀ t, db.Idle t)
    (hstock : ∀ key onHand, db.committed.stock key = some onHand → 0 ≤ onHand)
    {cfg : Config T Command Reply Exc (Option Representation) (SalesDb T)}
    (hrun : (salesMachine pg cat).Reaches (Config.initial (fun t => (jobs t).program sha256) db) cfg) :
    Conserved db.committed cfg.state ∧
    ∀ t e, cfg.threads t = some (.raise e) → StockRefused e → ∃ found,
      RefusedFor pg cat (jobs t) t e found (Config.initial (fun t => (jobs t).program sha256) db) cfg := by
  have hconserved : Conserved db.committed db :=
    ⟨⟨[], (List.append_nil _).symm, nofun, fun key => by simp [soldAt]⟩, hstock⟩
  have hgood : ∀ cfg, (salesMachine pg cat).Reaches (Config.initial (fun t => (jobs t).program sha256) db) cfg →
      (stockContract jobs db.committed).Good (salesMachine pg cat) (fun _ => BetweenTransactions) cfg := by
    intro cfg hrun
    refine Contract.Good.reaches stockContract_closed (Contract.Good.initial hconserved fun t => ?_) hrun
    exact ⟨.reset, .of_idle (hidle t) hconserved, safe_program⟩
  refine ⟨(hgood cfg hrun).inv, fun t e hthread hrefused => ?_⟩
  obtain ⟨x, hjustified, hshown⟩ := (salesMachine pg cat).shown_of_justified stockCauses
    (fun t => (jobs t).Refuses) (fun _ _ _ _ _ => possible_of_step)
    (fun t p hp => by
      obtain rfl := Option.some.inj hp
      exact justified_program sha256 (jobs t)) hrun t _ hthread
  obtain ⟨found, rfl, hrefuses⟩ := hjustified hrefused
  exact ⟨found, refusedFor_of_shown rfl hgood (hshown found rfl) hrefuses⟩

/-! ### A corner shop with two tills -/

/-- Two units and four, of the five there are. -/
def cornerJobs : Bool → Job
  | true => .row (739000 * microsecondsPerDay) (cornerRow "A1")
  | false => .row (739000 * microsecondsPerDay) { cornerRow "B1" with quantity := 4 }

def cornerStart : Config Bool Command Reply Exc (Option Representation) (SalesDb Bool) :=
  .initial (fun t => (cornerJobs t).program fun _ => 0) cornerDb

/-- The statements of the two tills, in the order they are answered. -/
def cornerTurns : List Bool :=
  [true, false, true, false, true, false, true, false, true, true, true, false, false, false]

/-- The till that asks for four finds three left, and is refused. -/
theorem stock_conserved_corner :
    ∃ cfg, (salesMachine cornerPostgres cornerCatalog).Reaches cornerStart cfg ∧
      Conserved cornerDb.committed cfg.state ∧ ∃ found, RefusedFor cornerPostgres cornerCatalog
        (cornerJobs false) false (.rowRejected (.insufficientStock 1 7 3)) found cornerStart cfg := by
  have hrun : (schedule (SalesDb.answer cornerPostgres cornerCatalog (739000 * microsecondsPerDay))
      cornerTurns cornerStart).bind (fun cfg => cfg.threads false) =
      some (.raise (.rowRejected (.insufficientStock 1 7 3))) := rfl
  obtain ⟨cfg, hcfg, hrefused⟩ := Option.bind_eq_some_iff.mp hrun
  have hreaches : (salesMachine cornerPostgres cornerCatalog).Reaches cornerStart cfg :=
    Machine.reaches_of_schedule (salesMachine cornerPostgres cornerCatalog) (fun _ _ _ _ after h => .inl ⟨_, after, h, .inl rfl⟩) cornerTurns hcfg
  obtain ⟨hconserved, hrefusals⟩ := stock_conserved cornerPostgres cornerCatalog (fun _ => 0) cornerJobs
    (fun t => SalesDb.ofRows_idle _ _ _ _ t) (fun _ _ => cornerDb_stock) hreaches
  exact ⟨cfg, hreaches, hconserved, hrefusals false _ hrefused trivial⟩

end RetailSegmentation.Sales
