import Mathlib.Data.Rat.Sqrt
import Mathlib.Tactic.Linarith
import RetailSegmentation.ExperimentUplift

/-! What an experiment measures over a whole history: an edit leaves the window of an assigned experiment
alone, so what has been recorded keeps qualifying, and exposures are no part of what the arms are compared on.
-/

namespace RetailSegmentation.ExperimentResults

open Grouping Experiments

/-! ### The writers -/

inductive SetupError where
  | experimentNotFound (experimentId : ℤ)
  | experimentRefused (field message : String)
  deriving DecidableEq, Repr

def fixedAfterAssignment (experimentId : ℤ) (count : ℕ) (what : String) : String :=
  let noun := if count = 1 then "assignment" else "assignments"
  s!"The {what} is fixed: experiment {experimentId} already has {count} {noun} (ADR-0019)."

/-- `UPDATE experiment SET ... WHERE experiment_id = ...`, of the two measurement rules. -/
def ExperimentRow.edited (experimentId : ℤ) (targetMetric : String) (conversionWindowDays : ℤ)
    (e : ExperimentRow) :
    ExperimentRow :=
  if e.experimentId = experimentId then { e with targetMetric, conversionWindowDays } else e

/-- The edit of the two measurement rules. -/
def updateExperiment (db : Db) (experimentId : ℤ) (targetMetric : String) (conversionWindowDays : ℤ) :
    Except SetupError Db :=
  match getExperiment db experimentId with
  | none => throw (.experimentNotFound experimentId)
  | some current =>
    if current.assignments ≠ 0 ∧ conversionWindowDays ≠ current.conversionWindowDays then
      throw (.experimentRefused "conversion_window_days"
        (fixedAfterAssignment experimentId current.assignments "conversion window"))
    else if current.assignments ≠ 0 ∧ targetMetric ≠ current.targetMetric then
      throw (.experimentRefused "target_metric"
        (fixedAfterAssignment experimentId current.assignments "target metric"))
    else return { db with
      experiments := db.experiments.map (ExperimentRow.edited experimentId targetMetric conversionWindowDays) }

inductive ConversionError where
  | experimentNotFound (experimentId : ℤ)
  | conversionRefused (message : String)
  deriving DecidableEq, Repr

/-- Attribute every qualifying sale of the experiment's assigned customers. -/
def evaluate (plusDays : Instant → ℤ → Instant) (db : Db) (experimentId : ℤ) : Except ConversionError (Db × ℕ) :=
  match getExperiment db experimentId with
  | none => throw (.experimentNotFound experimentId)
  | some experiment =>
    if experiment.assignments = 0 then
      throw (.conversionRefused (s!"Experiment {experimentId} has no assignments, so there is nothing " ++
        "to evaluate. Conversion is judged from an assignment."))
    else return evaluateConversions plusDays db experimentId

section Runs

variable (plusDays : Instant → ℤ → Instant)

/-- What the application does to the tables. -/
inductive Step : Db → Db → Prop where
  | sold (db : Db) (t : SaleRow) (hnew : t.transactionId ∉ db.sales.map SaleRow.transactionId) :
      Step db { db with sales := db.sales ++ [t] }
  | created (db : Db) (e : ExperimentRow) (groups : List GroupRow)
      (hnew : e.experimentId ∉ db.experiments.map ExperimentRow.experimentId)
      (hgroups : ∀ g ∈ groups, g.experimentId = e.experimentId)
      (hids : ((db.groups ++ groups).map GroupRow.groupId).Nodup) :
      Step db { db with experiments := db.experiments ++ [e], groups := db.groups ++ groups }
  | updated (db db' : Db) (experimentId : ℤ) (targetMetric : String) (conversionWindowDays : ℤ)
      (h : updateExperiment db experimentId targetMetric conversionWindowDays = .ok db') : Step db db'
  | assigned (db : Db) (experimentId : ℤ) (rows : List AssignmentRow)
      (hexperiment : experimentId ∈ db.experiments.map ExperimentRow.experimentId)
      (hfirst : ∀ a ∈ db.assignments, a.experimentId ≠ experimentId)
      (hrows : ∀ a ∈ rows, a.experimentId = experimentId)
      (hids : ((db.assignments ++ rows).map AssignmentRow.assignmentId).Nodup) :
      Step db { db with assignments := db.assignments ++ rows }
  | exposed (db : Db) (x : ExposureRow)
      (hassigned : ∃ a ∈ db.assignments, a.assignmentId = x.assignmentId ∧
        ∀ g ∈ db.groups, g.groupId = a.groupId → g.kind = .treatment) :
      Step db { db with exposures := db.exposures ++ [x] }
  | evaluated (db db' : Db) (experimentId : ℤ) (added : ℕ)
      (h : evaluate plusDays db experimentId = .ok (db', added)) : Step db db'

/-- The states a history from nothing leads to. -/
inductive Reachable : Db → Prop where
  | empty : Reachable {}
  | step {db db' : Db} (hdb : Reachable db) (h : Step plusDays db db') : Reachable db'

/-- Every recorded conversion qualifies for some experiment. -/
structure Db.Attributed (db : Db) : Prop where
  keyed : db.Keyed
  recorded : ∀ link ∈ db.conversions, ∃ experimentId, link ∈ qualifying plusDays db experimentId

end Runs

section Steps

variable {plusDays : Instant → ℤ → Instant} {db db' : Db}

theorem qualifying_stays {experimentId : ℤ} (hassigned : ∀ r ∈ assigned db experimentId,
      ∃ e, (r.1, e) ∈ assigned db' experimentId ∧ e.conversionWindowDays = r.2.conversionWindowDays)
    (hsales : ∀ t ∈ db.sales, t ∈ db'.sales) {link : Link} (h : link ∈ qualifying plusDays db experimentId) :
    link ∈ qualifying plusDays db' experimentId := by
  obtain ⟨r, hr, t, ht, hq, rfl⟩ := mem_qualifying.mp h
  obtain ⟨e, he, hwindow⟩ := hassigned r hr
  refine mem_qualifying.mpr ⟨(r.1, e), he, t, hsales t ht, ?_, rfl⟩
  unfold qualifies at hq ⊢
  rwa [hwindow]

theorem assigned_grows (hassignments : ∀ a ∈ db.assignments, a ∈ db'.assignments)
    (hexperiments : ∀ e ∈ db.experiments, e ∈ db'.experiments) (experimentId : ℤ) :
    ∀ r ∈ assigned db experimentId,
      ∃ e, (r.1, e) ∈ assigned db' experimentId ∧ e.conversionWindowDays = r.2.conversionWindowDays := by
  intro r hr
  obtain ⟨ha, he, href, hid⟩ := mem_assigned.mp hr
  exact ⟨r.2, mem_assigned.mpr ⟨hassignments _ ha, hexperiments _ he, href, hid⟩, rfl⟩

theorem recorded_grows (h : db.Attributed plusDays) (hassignments : ∀ a ∈ db.assignments, a ∈ db'.assignments)
    (hexperiments : ∀ e ∈ db.experiments, e ∈ db'.experiments) (hsales : ∀ t ∈ db.sales, t ∈ db'.sales)
    (hconversions : db'.conversions = db.conversions) :
    ∀ link ∈ db'.conversions, ∃ experimentId, link ∈ qualifying plusDays db' experimentId := by
  intro link hlink
  obtain ⟨experimentId, hq⟩ := h.recorded link (hconversions ▸ hlink)
  exact ⟨experimentId, qualifying_stays (assigned_grows hassignments hexperiments experimentId) hsales hq⟩

theorem getExperiment_eq (hkeyed : db.Keyed) {e : ExperimentRow} (he : e ∈ db.experiments) {current : Experiment}
    (h : getExperiment db e.experimentId = some current) :
    current.conversionWindowDays = e.conversionWindowDays ∧
      current.assignments = (db.assignments.filter fun a => a.experimentId = e.experimentId).length := by
  unfold getExperiment at h
  rw [find_key hkeyed.experiments he, Option.map_some] at h
  obtain rfl := Option.some.inj h
  exact ⟨rfl, rfl⟩

theorem updateExperiment_ok {experimentId conversionWindowDays : ℤ} {targetMetric : String}
    (h : updateExperiment db experimentId targetMetric conversionWindowDays = .ok db') :
    ∃ current, getExperiment db experimentId = some current ∧
      (current.assignments ≠ 0 → conversionWindowDays = current.conversionWindowDays) ∧
      db' = { db with
        experiments := db.experiments.map (ExperimentRow.edited experimentId targetMetric conversionWindowDays) } := by
  unfold updateExperiment at h
  cases hcurrent : getExperiment db experimentId with
  | none =>
      rw [hcurrent] at h
      cases h
  | some current =>
      rw [hcurrent] at h
      simp only at h
      split_ifs at h with hwindow hmetric
      cases h
      refine ⟨current, rfl, fun hassigned => ?_, rfl⟩
      by_contra hne
      exact hwindow ⟨hassigned, hne⟩

theorem attributed_updated (h : db.Attributed plusDays) {experimentId conversionWindowDays : ℤ}
    {targetMetric : String}
    (hupdate : updateExperiment db experimentId targetMetric conversionWindowDays = .ok db') :
    db'.Attributed plusDays := by
  obtain ⟨current, hcurrent, hfixed, rfl⟩ := updateExperiment_ok hupdate
  have hid : ∀ e, (ExperimentRow.edited experimentId targetMetric conversionWindowDays e).experimentId =
      e.experimentId := by
    intro e
    unfold ExperimentRow.edited
    split_ifs <;> rfl
  have hids : (db.experiments.map (ExperimentRow.edited experimentId targetMetric conversionWindowDays)).map
      ExperimentRow.experimentId = db.experiments.map ExperimentRow.experimentId := by
    rw [List.map_map]
    exact List.map_congr_left fun e _ => hid e
  refine ⟨⟨hids ▸ h.keyed.experiments, h.keyed.groups, h.keyed.assignments, fun a ha => ?_⟩, fun link hlink => ?_⟩
  · rw [hids]
    exact h.keyed.assignmentExperiments a ha
  · obtain ⟨other, hq⟩ := h.recorded link hlink
    refine ⟨other, qualifying_stays ?_ ?_ hq⟩
    rotate_left
    · exact fun t ht => ht
    intro r hr
    obtain ⟨ha, he, href, hown⟩ := mem_assigned.mp hr
    refine ⟨ExperimentRow.edited experimentId targetMetric conversionWindowDays r.2,
      mem_assigned.mpr ⟨ha, List.mem_map_of_mem he, (hid r.2).trans href, hown⟩, ?_⟩
    unfold ExperimentRow.edited
    split_ifs with hsame
    · subst hsame
      obtain ⟨hwindow, hcount⟩ := getExperiment_eq h.keyed he hcurrent
      -- the assignment the window is asked for is one of those that fix it
      have hassigned : current.assignments ≠ 0 := by
        rw [hcount]
        exact List.length_pos_iff.mpr (List.ne_nil_of_mem (List.mem_filter.mpr ⟨ha, decide_eq_true href.symm⟩)) |>.ne'
      exact (hfixed hassigned).trans hwindow
    · rfl

theorem attributed_evaluated (h : db.Attributed plusDays) {experimentId : ℤ} {added : ℕ}
    (hevaluate : evaluate plusDays db experimentId = .ok (db', added)) : db'.Attributed plusDays := by
  have hdb' : db' = (evaluateConversions plusDays db experimentId).1 := by
    unfold evaluate at hevaluate
    split at hevaluate
    · cases hevaluate
    · split_ifs at hevaluate
      cases hevaluate
      rfl
  subst hdb'
  refine ⟨⟨h.keyed.experiments, h.keyed.groups, h.keyed.assignments, h.keyed.assignmentExperiments⟩,
    fun link hlink => ?_⟩
  obtain hold | hnew := mem_evaluateConversions.mp hlink
  · exact h.recorded link hold
  · exact ⟨experimentId, hnew⟩

theorem attributed_step (h : db.Attributed plusDays) (hstep : Step plusDays db db') : db'.Attributed plusDays := by
  cases hstep with
  | sold t hnew =>
      refine ⟨⟨h.keyed.experiments, h.keyed.groups, h.keyed.assignments, h.keyed.assignmentExperiments⟩, ?_⟩
      exact recorded_grows h (fun _ ha => ha) (fun _ he => he) (fun _ ht => List.mem_append_left _ ht) rfl
  | created e groups hnew hgroups hids =>
      refine ⟨⟨?_, hids, h.keyed.assignments, fun a ha => ?_⟩, ?_⟩
      · rw [List.map_append]
        exact List.nodup_append.mpr ⟨h.keyed.experiments, List.nodup_singleton _, fun k hk k' hk' => by
          obtain rfl := List.mem_singleton.mp hk'
          rintro rfl
          exact hnew hk⟩
      · rw [List.map_append]
        exact List.mem_append_left _ (h.keyed.assignmentExperiments a ha)
      · exact recorded_grows h (fun _ ha => ha) (fun _ he => List.mem_append_left _ he) (fun _ ht => ht) rfl
  | updated _ experimentId targetMetric conversionWindowDays hupdate => exact attributed_updated h hupdate
  | assigned experimentId rows hexperiment hfirst hrows hids =>
      refine ⟨⟨h.keyed.experiments, h.keyed.groups, hids, fun a ha => ?_⟩, ?_⟩
      · obtain hold | hnew := List.mem_append.mp ha
        · exact h.keyed.assignmentExperiments a hold
        · exact hrows a hnew ▸ hexperiment
      · exact recorded_grows h (fun _ ha => List.mem_append_left _ ha) (fun _ he => he) (fun _ ht => ht) rfl
  | exposed x hassigned =>
      refine ⟨⟨h.keyed.experiments, h.keyed.groups, h.keyed.assignments, h.keyed.assignmentExperiments⟩, ?_⟩
      exact recorded_grows h (fun _ ha => ha) (fun _ he => he) (fun _ ht => ht) rfl
  | evaluated _ experimentId added hevaluate => exact attributed_evaluated h hevaluate

theorem attributed_reachable (h : Reachable plusDays db) : db.Attributed plusDays := by
  induction h with
  | empty =>
      refine ⟨⟨List.nodup_nil, List.nodup_nil, List.nodup_nil, fun a ha => ?_⟩, fun link hlink => ?_⟩
      · cases ha
      · cases hlink
  | step hdb hstep ih => exact attributed_step ih hstep

/-- The links that an experiment's assignments have recorded. -/
def Db.RecordedFor (db : Db) (experimentId : ℤ) (link : Link) : Prop :=
  link ∈ db.conversions ∧ ∃ a ∈ db.assignments, a.assignmentId = link.assignmentId ∧ a.experimentId = experimentId

theorem recordedFor_evaluated (h : db.Attributed plusDays) (experimentId : ℤ) (link : Link) :
    (evaluateConversions plusDays db experimentId).1.RecordedFor experimentId link ↔
      link ∈ qualifying plusDays db experimentId := by
  constructor
  · rintro ⟨hlink, a, ha, haid, hexperiment⟩
    obtain hold | hnew := mem_evaluateConversions.mp hlink
    · obtain ⟨other, hq⟩ := h.recorded link hold
      obtain ⟨r, hr, t, ht, hqualifies, rfl⟩ := mem_qualifying.mp hq
      obtain ⟨hr1, hr2, href, -⟩ := mem_assigned.mp hr
      -- the link's assignment is the one that qualified
      obtain rfl := eq_of_key h.keyed.assignments hr1 ha haid
      exact mem_qualifying.mpr ⟨r, mem_assigned.mpr ⟨hr1, hr2, href, hexperiment⟩, t, ht, hqualifies, rfl⟩
    · exact hnew
  · intro hlink
    refine ⟨mem_evaluateConversions.mpr (.inr hlink), ?_⟩
    obtain ⟨r, hr, t, -, -, rfl⟩ := mem_qualifying.mp hlink
    obtain ⟨hr1, -, -, hid⟩ := mem_assigned.mp hr
    exact ⟨r.1, hr1, rfl, hid⟩

end Steps

/-! ### Intent to treat -/

section IntentToTreat

variable {F : Type} (arith : FloatArithmetic F) (plusDays : Instant → ℤ → Instant)

/-- The arms of a measurement: everything but the secondary measure, which is counted from the exposures. -/
def MeasuredUplift.intentToTreat (measured : MeasuredUplift F) : MeasuredUplift F := { measured with exposed := [] }

theorem intentToTreat_exposures (clock : Instant) (db : Db) (exposures : List ExposureRow) (experimentId : ℤ)
    (now : Option Instant) :
    (measureUplift arith plusDays clock { db with exposures } experimentId now).map MeasuredUplift.intentToTreat =
      (measureUplift arith plusDays clock db experimentId now).map MeasuredUplift.intentToTreat := by
  have hexperiment : getExperiment { db with exposures } experimentId = getExperiment db experimentId := rfl
  have hgroups : ∀ moment, listGroupConversion plusDays { db with exposures } experimentId moment =
      listGroupConversion plusDays db experimentId moment := fun _ => rfl
  unfold measureUplift
  rw [hexperiment]
  cases getExperiment db experimentId with
  | none => rfl
  | some experiment =>
      simp only [hgroups]
      cases refusalBeforeCounts experimentId experiment.controlGroups experiment.targetMetric experiment.assignments with
      | some reason => rfl
      | none =>
          simp only
          cases compareArms arith experimentId (listGroupConversion plusDays db experimentId (now.getD clock)) with
          | error error => rfl
          | ok compared => rfl

/-- Every arm splits its assigned customers into the converted, the pending and the rest, and the converted
are those with a recorded conversion; an evaluation records the sales inside each assigned customer's window,
and again nothing; exposures change nothing the arms are compared on; and the counts listed are always fit to
compare. -/
theorem measurement_claims {nonneg : F → Prop} (hlawful : arith.Lawful nonneg) :
    (∀ (db : Db) experimentId now, ∀ g ∈ listGroupConversion plusDays db experimentId now,
      g.assigned = g.converted + g.pending + g.notConverted ∧
      (db.Keyed → g.assigned = (db.assignmentsOf experimentId g.groupId).length ∧
        g.converted = ((db.assignmentsOf experimentId g.groupId).filter (recordedFor db)).length)) ∧
    (∀ (db : Db) experimentId, evaluateConversions plusDays (evaluateConversions plusDays db experimentId).1 experimentId =
      ((evaluateConversions plusDays db experimentId).1, 0) ∧
      ∀ link, link ∈ (evaluateConversions plusDays db experimentId).1.conversions ↔
        link ∈ db.conversions ∨ link ∈ qualifying plusDays db experimentId) ∧
    (∀ db, Reachable plusDays db → ∀ experimentId link,
      (evaluateConversions plusDays db experimentId).1.RecordedFor experimentId link ↔
        ∃ a ∈ db.assignments, ∃ e ∈ db.experiments, ∃ t ∈ db.sales,
          a.experimentId = experimentId ∧ e.experimentId = experimentId ∧ t.customerId = a.customerId ∧
          a.assignedAt ≤ t.occurredAt ∧ t.occurredAt < plusDays a.assignedAt e.conversionWindowDays ∧
          link = ⟨a.assignmentId, t.transactionId⟩) ∧
    (∀ clock (db : Db) exposures experimentId now,
      (measureUplift arith plusDays clock { db with exposures } experimentId now).map MeasuredUplift.intentToTreat =
        (measureUplift arith plusDays clock db experimentId now).map MeasuredUplift.intentToTreat) ∧
    (∀ db experimentId now message,
      compareArms arith experimentId (listGroupConversion plusDays db experimentId now) ≠ .error (.valueError message)) := by
  refine ⟨fun db experimentId now g hg => ⟨partition_of_mem hg, fun hkeyed => counts_of_mem hkeyed hg⟩,
    fun db experimentId => ⟨evaluateConversions_again, fun link => mem_evaluateConversions⟩,
      fun db hdb experimentId link => ?_,
    fun clock db exposures experimentId now => intentToTreat_exposures arith plusDays clock db exposures experimentId now,
    fun db experimentId now message => compareArms_bounded hlawful experimentId (fun g hg => converted_le_assigned hg) message⟩
  rw [recordedFor_evaluated (attributed_reachable hdb) experimentId link, mem_qualifying]
  constructor
  · rintro ⟨r, hr, t, ht, hq, rfl⟩
    obtain ⟨ha, he, href, hid⟩ := mem_assigned.mp hr
    obtain ⟨hcustomer, hfrom, hbefore⟩ := of_decide_eq_true hq
    exact ⟨r.1, ha, r.2, he, t, ht, hid, href.trans hid, hcustomer, hfrom, hbefore, rfl⟩
  · rintro ⟨a, ha, e, he, t, ht, hid, heid, hcustomer, hfrom, hbefore, rfl⟩
    exact ⟨(a, e), mem_assigned.mpr ⟨ha, he, heid.trans hid.symm, hid⟩, t, ht,
      decide_eq_true ⟨hcustomer, hfrom, hbefore⟩, rfl⟩

end IntentToTreat

/-- Fractions, with roots to sixteen places and the error function's complement at the root of two. -/
def fractions : FloatArithmetic ℚ where
  ofInt n := n
  quotient part whole := part / whole
  add x y := x + y
  sub x y := x - y
  mul x y := x * y
  div x y := x / y
  abs x := |x|
  erfc _ := 455 / 10000
  less x y := x < y
  sqrt x := if x < 0 then .error "math domain error" else .ok (Rat.sqrt (x * 10 ^ 32) / 10 ^ 16)
  zCritical := 1959963984540054 / 1000000000000000
  alpha := 5 / 100

theorem fractions_lawful : fractions.Lawful fun x => 0 ≤ x where
  ofInt _ hn := Int.cast_nonneg hn
  proportion part whole hpart hle hwhole := by
    have hpos : (0 : ℚ) < whole := Int.cast_pos.mpr hwhole
    have hrate : (part : ℚ) / whole ≤ 1 := (div_le_one hpos).mpr (Int.cast_le.mpr hle)
    refine ⟨div_nonneg (Int.cast_nonneg hpart) hpos.le, ?_⟩
    change (0 : ℚ) ≤ ((1 : ℤ) : ℚ) - part / whole
    rw [Int.cast_one]
    linarith only [hrate]
  add _ _ hx hy := add_nonneg hx hy
  mul _ _ hx hy := mul_nonneg hx hy
  div _ _ hx hn := div_nonneg hx (Int.cast_pos.mpr hn).le
  sqrt x hx := ⟨Rat.sqrt (x * 10 ^ 32) / 10 ^ 16, if_neg (not_lt.mpr hx)⟩

/-- Two customers held out and two offered; the offered ones buy within the week, one of the others at its
very end. -/
def trial : Db where
  experiments := [⟨1, "CONVERSION", 7, .observed⟩]
  groups := [⟨1, 1, .control, "Holdout", "No treatment delivered."⟩, ⟨2, 1, .treatment, "Offer", "Free delivery."⟩]
  assignments := [⟨1, 1, 1, "ana", 10⟩, ⟨2, 1, 1, "bea", 10⟩, ⟨3, 1, 2, "cyd", 10⟩, ⟨4, 1, 2, "dan", 10⟩]
  sales := [⟨1, "cyd", 10, false⟩, ⟨2, "dan", 16, false⟩, ⟨3, "ana", 17, false⟩]

theorem trial_reachable : Reachable (fun at_ days => at_ + days) trial := by
  refine .step (.step (.step (.step (.step .empty (.created _ ⟨1, "CONVERSION", 7, .observed⟩ trial.groups ?_ ?_ ?_))
    (.assigned _ 1 trial.assignments ?_ ?_ ?_ ?_)) (.sold _ ⟨1, "cyd", 10, false⟩ ?_)) (.sold _ ⟨2, "dan", 16,
      false⟩ ?_))
    (.sold _ ⟨3, "ana", 17, false⟩ ?_)
  all_goals decide

theorem measurement_claims_trial :
    (evaluateConversions (fun at_ days => at_ + days) trial 1).1.RecordedFor 1 ⟨3, 1⟩ ∧
    ¬ (evaluateConversions (fun at_ days => at_ + days) trial 1).1.RecordedFor 1 ⟨1, 3⟩ ∧
    compareArms fractions 1 (listGroupConversion (fun at_ days => at_ + days)
      (evaluateConversions (fun at_ days => at_ + days) trial 1).1 1 20) ≠ .error (.valueError "math domain error") := by
  obtain ⟨-, -, hrecorded, -, hbounded⟩ := measurement_claims fractions (fun at_ days => at_ + days) fractions_lawful
  refine ⟨(hrecorded trial trial_reachable 1 ⟨3, 1⟩).mpr ?_, fun h => ?_, hbounded _ 1 20 _⟩
  · decide
  · exact absurd ((hrecorded trial trial_reachable 1 ⟨1, 3⟩).mp h) (by decide)

end RetailSegmentation.ExperimentResults
