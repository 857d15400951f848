import RetailSegmentation.SegmentMigration

/-! The two runs a migration is computed between (`web/services/segment_migration.py`, `web/db/segments.py`):
which of them is the earlier one. -/

namespace RetailSegmentation.SegmentMigration

open Grouping

structure RunRow where
  runId : ℤ
  runAt : ℤ
  deriving DecidableEq, Repr

structure AssignmentRow (K : Type) where
  customerId : K
  runId : ℤ
  labelCode : Option String
  deriving DecidableEq, Repr

structure Database (K : Type) where
  runs : List RunRow
  history : List (AssignmentRow K)
  labels : Dict String ℤ

/-- What `compute_migration` raises. -/
inductive Refused where
  | unknownRun (message : String)
  | raised (error : Raised)
  deriving DecidableEq, Repr

section Reads

variable {K : Type} (db : Database K)

def getRunAt (runId : ℤ) : Option ℤ := (db.runs.find? fun run => run.runId = runId).map RunRow.runAt

def listRunLabels [DecidableEq K] (runId : ℤ) : Dict K (Option String) :=
  (db.history.filter fun row => row.runId = runId).foldl (fun labels row => labels.put row.customerId row.labelCode) []

def getLabelOrdinals : Dict String ℤ := db.labels.foldl (fun ordinals row => ordinals.put row.1 row.2) []

/-- The two runs, the earlier first, by their own `run_at`. -/
def orderRuns (runIdA runIdB : ℤ) : Except Refused (ℤ × ℤ) :=
  match getRunAt db runIdA, getRunAt db runIdB with
  | none, _ => throw (.unknownRun s!"Run {runIdA} does not exist.")
  | some _, none => throw (.unknownRun s!"Run {runIdB} does not exist.")
  | some runAtA, some runAtB => return if runAtA ≤ runAtB then (runIdA, runIdB) else (runIdB, runIdA)

/-- Read both runs and classify every customer between them. -/
def computeMigration [DecidableEq K] (str : K → String) (runIdA runIdB : ℤ) :
    Except Refused (List (CustomerMigration K)) := do
  let (earlier, later) ← orderRuns db runIdA runIdB
  match classifyMigration str (listRunLabels db earlier) (listRunLabels db later) (getLabelOrdinals db) with
  | .error error => throw (.raised error)
  | .ok migrations => return migrations

end Reads

/-! ### The order of the two ids -/

section Order

variable {K : Type} [DecidableEq K] {str : K → String} {labelsA labelsB labelsA' labelsB' : Dict K (Option String)}
  {ordinals : Dict String ℤ} {db : Database K}

theorem mem_keys_iff {labels : Dict K (Option String)} {c : K} : c ∈ labels.keys ↔ labels.lookup c ≠ none := by
  constructor
  · intro hc
    obtain ⟨label, hlabel⟩ := exists_lookup hc
    rw [hlabel]
    exact Option.some_ne_none _
  · intro hne
    by_contra hc
    exact hne (lookup_eq_none hc)

theorem classifyMigration_congr (hstr : Function.Injective str) (hA : ∀ c, labelsA.lookup c = labelsA'.lookup c)
    (hB : ∀ c, labelsB.lookup c = labelsB'.lookup c) :
    classifyMigration str labelsA labelsB ordinals = classifyMigration str labelsA' labelsB' ordinals := by
  have hkeysA : ∀ c, c ∈ labelsA.keys ↔ c ∈ labelsA'.keys := fun c => by rw [mem_keys_iff, mem_keys_iff, hA]
  have hkeysB : ∀ c, c ∈ labelsB.keys ↔ c ∈ labelsB'.keys := fun c => by rw [mem_keys_iff, mem_keys_iff, hB]
  have hcustomer : classifyCustomer labelsA labelsB ordinals = classifyCustomer labelsA' labelsB' ordinals := by
    funext c
    unfold classifyCustomer Dict.at
    simp only [hA, hB, hkeysA, hkeysB]
  have hsorted : sortBy str (allCustomers labelsA labelsB) = sortBy str (allCustomers labelsA' labelsB') := by
    refine sortBy_perm (fun _ _ _ _ h => hstr h) ?_
    refine (List.perm_ext_iff_of_nodup (List.nodup_dedup _) (List.nodup_dedup _)).mpr fun c => ?_
    rw [← allCustomers, ← allCustomers, mem_allCustomers, mem_allCustomers, hkeysA, hkeysB]
  unfold classifyMigration
  rw [hcustomer, hsorted]

/-- Two runs classified one way and the other give the same only where they gave every customer the same. -/
theorem classifyMigration_comm_iff (hstr : Function.Injective str) (hA : Labelled labelsA ordinals)
    (hB : Labelled labelsB ordinals) :
    classifyMigration str labelsA labelsB ordinals = classifyMigration str labelsB labelsA ordinals ↔
      ∀ c, labelsA.lookup c = labelsB.lookup c := by
  constructor
  · intro hcomm c
    obtain ⟨migrations, hok, hids, hclassified⟩ := @classifyMigration_ok K _ str labelsA labelsB ordinals hA hB
    obtain ⟨migrations', hok', -, hclassified'⟩ := @classifyMigration_ok K _ str labelsB labelsA ordinals hB hA
    obtain rfl : migrations = migrations' := Except.ok.inj (hok.symm.trans (hcomm.trans hok'))
    by_cases hc : c ∈ labelsA.keys ∨ c ∈ labelsB.keys
    · have hmem : c ∈ migrations.map CustomerMigration.customerId := by
        rw [hids, (perm_sortBy str _).mem_iff]
        exact mem_allCustomers.mpr hc
      obtain ⟨m, hm, rfl⟩ := List.mem_map.mp hmem
      have hboth : m.customerId ∉ labelsA.keys ↔ m.customerId ∉ labelsB.keys :=
        (hclassified m hm).earlier.symm.trans (hclassified' m hm).earlier
      have hat : labelsA.at m.customerId none = labelsB.at m.customerId none :=
        (hclassified m hm).before.symm.trans (hclassified' m hm).before
      have hinA : m.customerId ∈ labelsA.keys := hc.elim id fun hb => not_not.mp fun ha => hboth.mp ha hb
      have hinB : m.customerId ∈ labelsB.keys := not_not.mp fun hb => hboth.mpr hb hinA
      obtain ⟨label, hlabel⟩ := exists_lookup hinA
      obtain ⟨label', hlabel'⟩ := exists_lookup hinB
      unfold Dict.at at hat
      rw [hlabel, hlabel'] at hat
      rw [hlabel, hlabel', show label = label' from hat]
    · rw [lookup_eq_none fun ha => hc (.inl ha), lookup_eq_none fun hb => hc (.inr hb)]
  · exact fun hsame => classifyMigration_congr hstr hsame fun c => (hsame c).symm

/-! ### What the reads answer -/

/-- Every label the history holds is in the vocabulary, which it references. -/
def Database.Referenced (db : Database K) : Prop :=
  ∀ row ∈ db.history, ∀ label, row.labelCode = some label → label ∈ db.labels.keys

theorem listRunLabels_labelled (h : db.Referenced) (runId : ℤ) :
    Labelled (listRunLabels db runId) (getLabelOrdinals db) := by
  intro e he label hlabel
  obtain hnil | ⟨row, hrow, rfl⟩ := mem_foldl_put he
  · exact absurd hnil List.not_mem_nil
  · refine mem_keys_foldl_put (.inr ?_)
    exact List.mem_map.mp (h row (List.mem_of_mem_filter hrow) label hlabel)

theorem computeMigration_ordered {runIdA runIdB runAtA runAtB : ℤ} (hA : getRunAt db runIdA = some runAtA)
    (hB : getRunAt db runIdB = some runAtB) (h : Labelled (listRunLabels db runIdA) (getLabelOrdinals db))
    (h' : Labelled (listRunLabels db runIdB) (getLabelOrdinals db)) : computeMigration db str runIdA runIdB =
      (if runAtA ≤ runAtB then
        classifyMigration str (listRunLabels db runIdA) (listRunLabels db runIdB) (getLabelOrdinals db)
      else classifyMigration str (listRunLabels db runIdB) (listRunLabels db runIdA) (getLabelOrdinals db)).mapError
        .raised := by
  obtain ⟨migrations, hok, -⟩ := @classifyMigration_ok K _ str _ _ _ h h'
  obtain ⟨migrations', hok', -⟩ := @classifyMigration_ok K _ str _ _ _ h' h
  unfold computeMigration orderRuns
  simp only [hA, hB, bind, Except.bind]
  split_ifs with hle
  · simp only [pure, Except.pure, hok]
    rfl
  · simp only [pure, Except.pure, hok']
    rfl

/-- Two runs of one instant, which label a customer differently. -/
def tiedRuns : Database String :=
  ⟨[⟨1, 100⟩, ⟨2, 100⟩], [⟨"c7", 1, some "gold"⟩, ⟨"c7", 2, some "tin"⟩], [("gold", 1), ("tin", 2)]⟩

end Order
end RetailSegmentation.SegmentMigration
