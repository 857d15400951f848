import RetailSegmentation.IntentToTreat

/-! The pages of an experiment: the report (`web/db/experiment_report.py`) and the dashboard
(`web/db/experiment_dashboard.py`, `web/services/experiment_dashboard.py`) beside the counts and the uplift. -/

namespace RetailSegmentation.ExperimentResults

open Grouping Experiments

/-! ### The report -/

/-- One arm's counts as the report shows them. -/
structure ReportGroup where
  experimentId : ℤ
  groupId : ℤ
  kind : Kind
  assigned : ℕ
  exposed : ℕ
  converted : ℕ
  pending : ℕ
  unrecorded : ℕ
  name : String
  treatmentDescription : String
  exposedConverted : ℕ
  deriving DecidableEq, Repr

def ReportGroup.notConverted (g : ReportGroup) : ℤ := g.assigned - g.converted - g.pending

/-- A row of `flags`. -/
structure Flags where
  groupId : ℤ
  exposed : Bool
  converted : Bool
  open_ : Bool
  qualifies : Bool
  exposedConverted : Bool

section Statements

variable (plusDays : Instant → ℤ → Instant) (db : Db)

/-- The assignments of the experiments, with their experiment. -/
def assignedTo (experimentIds : List ℤ) : List (AssignmentRow × ExperimentRow) :=
  (join db.assignments db.experiments fun a e => e.experimentId = a.experimentId).filter fun r =>
    r.1.experimentId ∈ experimentIds

def exposedTo (a : AssignmentRow) : Bool := db.exposures.any fun x => x.assignmentId = a.assignmentId

def flagsOf (now : Instant) (r : AssignmentRow × ExperimentRow) : Flags where
  groupId := r.1.groupId
  exposed := exposedTo db r.1
  converted := recordedFor db r.1
  open_ := now < plusDays r.1.assignedAt r.2.conversionWindowDays
  qualifies := db.sales.any fun t => ExperimentResults.qualifies plusDays r.1 r.2 t
  exposedConverted := ExperimentResults.exposedConverted plusDays db r

def countFlags (p : Flags → Bool) (rows : List (GroupRow × Option Flags)) : ℕ :=
  (rows.filter fun r => r.2.any p).length

def reportGroup (key : ℤ × ℤ × Kind × String × String) (rows : List (GroupRow × Option Flags)) : ReportGroup where
  experimentId := key.1
  groupId := key.2.1
  kind := key.2.2.1
  assigned := countFlags (fun _ => true) rows
  exposed := countFlags (fun f => f.exposed) rows
  converted := countFlags (fun f => f.converted) rows
  pending := countFlags (fun f => !f.converted && f.open_) rows
  unrecorded := countFlags (fun f => !f.converted && f.qualifies) rows
  name := key.2.2.2.1
  treatmentDescription := key.2.2.2.2
  exposedConverted := countFlags (fun f => f.exposedConverted) rows

/-- The newest experiment first, then the control, then by id. -/
def reportRank (g : ReportGroup) : ℤ ×ₗ Bool ×ₗ ℤ :=
  toLex (-g.experimentId, toLex (decide (g.kind ≠ .control), g.groupId))

def listReportGroups (experimentIds : List ℤ) (now : Instant) : List ReportGroup :=
  if experimentIds = [] then []
  else
    let flags := (assignedTo db experimentIds).map (flagsOf plusDays db now)
    let rows := leftJoin (db.groups.filter fun g => g.experimentId ∈ experimentIds) flags fun g f =>
      f.groupId = g.groupId
    sortBy reportRank
      (groupBy (fun r => (r.1.experimentId, r.1.groupId, r.1.kind, r.1.name, r.1.treatmentDescription)) reportGroup rows)

end Statements

/-! ### The dashboard -/

/-- Microseconds. -/
def day : ℤ := 86400 * 1000000

/-- How many of an arm's assigned customers first converted so many days after their own assignment. -/
structure ConversionDay where
  groupId : ℤ
  day : ℤ
  customers : ℕ
  deriving DecidableEq, Repr

/-- When a customer's attributed sales were made. -/
def attributedSales (db : Db) (a : AssignmentRow) : List Instant :=
  ((join db.conversions db.sales fun c t => t.transactionId = c.transactionId).filter fun r =>
    r.1.assignmentId = a.assignmentId).map fun r => r.2.occurredAt

/-- The earliest of them. -/
def firstSale (db : Db) (a : AssignmentRow) : Option Instant := (attributedSales db a).min?

/-- The group and the day of a customer's first conversion, where it is inside the window. -/
def conversionDay (plusDays : Instant → ℤ → Instant) (db : Db) (r : AssignmentRow × ExperimentRow) :
    Option (ℤ × ℤ) :=
  ((firstSale db r.1).filter fun firstAt =>
    r.1.assignedAt ≤ firstAt ∧ firstAt < plusDays r.1.assignedAt r.2.conversionWindowDays).map fun firstAt =>
      (r.1.groupId, (firstAt - r.1.assignedAt) / day)

/-- Per arm, the customers who first converted on each day since their assignment. -/
def listConversionDays (plusDays : Instant → ℤ → Instant) (db : Db) (experimentId : ℤ) : List ConversionDay :=
  sortBy (fun d => toLex (d.groupId, d.day))
    (groupBy id (fun key rows => ⟨key.1, key.2, rows.length⟩)
      ((assigned db experimentId).filterMap (conversionDay plusDays db)))

def maxChartDays : ℤ := 366

/-- What the dashboard shows of an arm. -/
structure ArmRates where
  groupId : ℤ
  kind : Kind
  name : String
  assigned : ℕ
  exposed : ℕ
  converted : ℕ
  exposedConverted : ℕ
  deriving DecidableEq, Repr

/-- `name or default`. -/
def orElse (name default : String) : String := if name = "" then default else name

def armRates (groups : List GroupConversion) (exposed : List ExposedConversion) : List ArmRates :=
  let byGroup : Dict ℤ ExposedConversion := exposed.foldl (fun d e => d.put e.groupId e) []
  groups.map fun g =>
    { groupId := g.groupId
      kind := g.kind
      name := orElse g.name g.kind.title
      assigned := g.assigned
      exposed := (byGroup.lookup g.groupId).elim 0 ExposedConversion.exposed
      converted := g.converted
      exposedConverted := (byGroup.lookup g.groupId).elim 0 ExposedConversion.converted }

section Shares

variable {F : Type} (arith : FloatArithmetic F)

/-- The loop over the days drawn, with the customers so far. -/
def runningShares (first : Dict ℤ ℕ) (assigned : ℕ) : ℕ → List ℤ → List F
  | _, [] => []
  | running, day :: days =>
    arith.quotient ↑(running + first.at day 0) assigned ::
      runningShares first assigned (running + first.at day 0) days

/-- `{d.day: d.customers for d in days if d.group_id == group_id}`. -/
def firstByDay (days : List ConversionDay) (groupId : ℤ) : Dict ℤ ℕ :=
  (days.filter fun d => d.groupId = groupId).foldl (fun d row => d.put row.day row.customers) []

/-- The share of an arm's assigned customers who had first converted by the end of each of the first days. -/
def cumulativeShare (days : List ConversionDay) (groupId : ℤ) (assigned : ℕ) (drawn : ℤ) : List F :=
  if assigned ≤ 0 then (List.range drawn.toNat).map fun _ => arith.ofInt 0
  else runningShares arith (firstByDay days groupId) assigned 0 ((List.range drawn.toNat).map Int.ofNat)

/-- The chart over time, a line per arm. -/
def overTime (experiment : Experiment) (arms : List ArmRates) (days : List ConversionDay) :
    List (ArmRates × List F) :=
  let drawn := min experiment.conversionWindowDays maxChartDays
  arms.map fun arm => (arm, cumulativeShare arith days arm.groupId arm.assigned drawn)

end Shares

structure Baseline where
  kind : String
  groupId : ℤ
  name : String
  deriving DecidableEq, Repr

/-- One treatment arm against the baseline arm. -/
structure Difference (F : Type) where
  groupId : ℤ
  name : String
  comparison : Comparison F

/-- What `_differences` returns: the baseline and the differences from it, or why there are none. -/
structure Differences (F : Type) where
  baseline : Option Baseline
  differences : List (Difference F)
  refusal : Option String

def Differences.refused {F : Type} (message : String) : Differences F := ⟨none, [], some message⟩

def referenceUnrecorded (experimentId : ℤ) (unrecorded : ℕ) : String :=
  let noun := if unrecorded = 1 then "customer" else "customers"
  s!"Experiment {experimentId} has {unrecorded} assigned {noun} with a qualifying " ++
    "sale that has not been recorded yet. Evaluate conversion before " ++ "measuring the difference."

section Differences

variable {F : Type} (arith : FloatArithmetic F)

/-- Without a control, the treatment arm defined first is the reference. -/
def againstReferenceArm (experimentId : ℤ) (groups : List GroupConversion) : Except UpliftError (Differences F) :=
  let unrecorded := (groups.map GroupConversion.unrecorded).sum
  if unrecorded ≠ 0 then return .refused (referenceUnrecorded experimentId unrecorded)
  else
    let arms := sortBy GroupConversion.groupId (treatmentsOf groups)
    match arms with
    | reference :: others =>
      if others = [] ∨ (arms.filter fun g => g.assigned = 0) ≠ [] then
        return .refused (s!"Experiment {experimentId} needs two treatment arms that each have " ++
          "assigned customers to compare them.")
      else do
        let differences ← others.mapM fun g => do
          let comparison ← compareProportions arith reference.assigned reference.converted g.assigned g.converted
          return ⟨g.groupId, orElse g.name "Arm", comparison⟩
        return ⟨some ⟨"reference", reference.groupId, orElse reference.name "Arm"⟩, differences, none⟩
    | [] => return .refused (s!"Experiment {experimentId} needs two treatment arms that each have " ++
        "assigned customers to compare them.")

/-- `except uplift.UpliftRefused`, which `ConversionNotEvaluated` is one of. -/
def Differences.ofCompared : Except UpliftError (GroupConversion × List (ArmResult F)) →
    Except UpliftError (Differences F)
  | .ok (control, arms) => return ⟨some ⟨"control", control.groupId, orElse control.name "Control"⟩,
      arms.map fun a => ⟨a.groupId, a.name, a.comparison⟩, none⟩
  | .error (.upliftRefused message) => return .refused message
  | .error (.conversionNotEvaluated message) => return .refused message
  | .error error => throw error

/-- The baseline and each treatment arm's difference from it, or why there is none. -/
def differences (experiment : Experiment) (groups : List GroupConversion) : Except UpliftError (Differences F) :=
  if experiment.targetMetric ≠ "CONVERSION" then
    return .refused (s!"Experiment {experiment.experimentId} is measured on {experiment.targetMetric}. " ++
      "Only the conversion rate is measured (ADR-0053).")
  else if experiment.assignments = 0 then
    return .refused (s!"Experiment {experiment.experimentId} has no assignments, so there " ++ "is nothing to compare.")
  else if 1 ≤ experiment.controlGroups then Differences.ofCompared (compareArms arith experiment.experimentId groups)
  else againstReferenceArm arith experiment.experimentId groups

end Differences

/-! ### One order of the arms -/

/-- The control first, then by id, as every list of arms is sorted. -/
def armRank (g : GroupRow) : Bool ×ₗ ℤ := toLex (decide (g.kind ≠ .control), g.groupId)

def Db.arms (db : Db) (experimentId : ℤ) : List GroupRow :=
  sortBy armRank (db.groups.filter fun g => g.experimentId = experimentId)

/-- What the schema promises besides the keys: a sale's key, the group of an assignment in its own experiment,
and windows of some days. -/
structure Db.Consistent (db : Db) : Prop where
  keyed : db.Keyed
  sales : (db.sales.map SaleRow.transactionId).Nodup
  assignmentGroups : ∀ a ∈ db.assignments, ∃ g ∈ db.groups, g.groupId = a.groupId ∧ g.experimentId = a.experimentId
  windows : ∀ e ∈ db.experiments, 0 < e.conversionWindowDays

/-- How many of a group's assignments a condition holds of. -/
def Db.countAssigned (db : Db) (group : GroupRow) (p : AssignmentRow × ExperimentRow → Bool) : ℕ :=
  (((assigned db group.experimentId).filter fun r => r.1.groupId = group.groupId).filter p).length

section Arms

variable {plusDays : Instant → ℤ → Instant} {db : Db} {experimentId : ℤ} {now : Instant}

theorem mem_arms {g : GroupRow} : g ∈ db.arms experimentId ↔ g ∈ db.groups ∧ g.experimentId = experimentId := by
  unfold Db.arms
  rw [mem_sortBy, List.mem_filter, decide_eq_true_eq]

theorem nodup_groupIds (hdb : db.Consistent) (p : GroupRow → Bool) :
    ((db.groups.filter p).map GroupRow.groupId).Nodup :=
  List.Nodup.sublist (List.filter_sublist.map _) hdb.keyed.groups

theorem sortBy_arms (hdb : db.Consistent) {γ : Type} {rank : γ → Bool ×ₗ ℤ} {f : GroupRow → γ} {rows : List γ}
    (hrank : ∀ g, rank (f g) = armRank g)
    (hrows : rows.Perm ((db.groups.filter fun g => g.experimentId = experimentId).map f)) :
    sortBy rank rows = (db.arms experimentId).map f := by
  have hkey : ∀ a ∈ rows, ∀ b ∈ rows, rank a = rank b → a = b := by
    intro a ha b hb hab
    obtain ⟨g, hg, rfl⟩ := List.mem_map.mp (hrows.mem_iff.mp ha)
    obtain ⟨g', hg', rfl⟩ := List.mem_map.mp (hrows.mem_iff.mp hb)
    rw [hrank, hrank] at hab
    have hid : g.groupId = g'.groupId := congrArg (fun k => (ofLex k).2) hab
    rw [eq_of_key (nodup_groupIds hdb _) hg hg' hid.symm]
  rw [sortBy_perm hkey hrows]
  unfold Db.arms
  rw [map_sortBy fun g _ => hrank g]

theorem length_joined {β : Type} {rows : List (AssignmentRow × ExperimentRow)}
    (f : AssignmentRow × ExperimentRow → β)
    (column : β → ℤ) (hcolumn : ∀ r, column (f r) = r.1.groupId) {p : β → Bool} (group : GroupRow)
    (hrows : (rows.filter fun r => r.1.groupId = group.groupId) =
      (assigned db group.experimentId).filter fun r => r.1.groupId = group.groupId) :
    (((rows.map f).filter fun b => column b = group.groupId).filter p).length =
      db.countAssigned group fun r => p (f r) := by
  unfold Db.countAssigned
  rw [← hrows, List.filter_filter, List.filter_map, List.length_map, List.filter_filter]
  congr 1
  refine List.filter_congr fun r _ => ?_
  rw [Function.comp_apply, hcolumn]

theorem listGroupConversion_eq (hdb : db.Consistent) : listGroupConversion plusDays db experimentId now =
    (db.arms experimentId).map fun g => groupConversion (g.groupId, g.kind, g.name, g.treatmentDescription)
      (outer g (((assigned db experimentId).map (outcomeOf plusDays db now)).filter fun o => o.groupId = g.groupId)) := by
  have hkeys : ((db.groups.filter fun g => g.experimentId = experimentId).map fun g =>
      (g.groupId, g.kind, g.name, g.treatmentDescription)).Nodup :=
    List.Nodup.of_map Prod.fst (by rw [List.map_map]; exact nodup_groupIds hdb _)
  exact sortBy_arms hdb (fun _ => rfl) (groupBy_leftJoin_perm hkeys)

theorem listExposedConversion_eq (hdb : db.Consistent) : listExposedConversion plusDays db experimentId =
    (db.arms experimentId).map fun g => exposedConversion (g.groupId, g.kind)
      (outer g (((assigned db experimentId).map fun r => (r.1.groupId, exposedTo db r.1,
        exposedConverted plusDays db r)).filter fun f => f.1 = g.groupId)) := by
  have hkeys : ((db.groups.filter fun g => g.experimentId = experimentId).map fun g => (g.groupId, g.kind)).Nodup :=
    List.Nodup.of_map Prod.fst (by rw [List.map_map]; exact nodup_groupIds hdb _)
  exact sortBy_arms hdb (fun _ => rfl) (groupBy_leftJoin_perm hkeys)

theorem filter_assignedTo (hdb : db.Consistent) {experimentIds : List ℤ} {group : GroupRow}
    (hgroup : group ∈ db.groups) (hids : group.experimentId ∈ experimentIds) :
    ((assignedTo db experimentIds).filter fun r => r.1.groupId = group.groupId) =
      (assigned db group.experimentId).filter fun r => r.1.groupId = group.groupId := by
  unfold assignedTo assigned
  rw [List.filter_filter, List.filter_filter]
  refine List.filter_congr fun r hr => ?_
  obtain ⟨g, hg, hgid, hown⟩ := hdb.assignmentGroups r.1 (mem_join.mp hr).1
  by_cases hid : r.1.groupId = group.groupId
  · obtain rfl := eq_of_key hdb.keyed.groups hgroup hg (hgid.trans hid)
    simp [hid, ← hown, hids]
  · simp [hid]

/-- The order of the report within one experiment. -/
def outcomeRank (g : ReportGroup) : Bool ×ₗ ℤ := toLex (decide (g.kind ≠ .control), g.groupId)

def armReport (plusDays : Instant → ℤ → Instant) (db : Db) (experimentIds : List ℤ) (now : Instant)
    (g : GroupRow) :
    ReportGroup :=
  reportGroup (g.experimentId, g.groupId, g.kind, g.name, g.treatmentDescription)
    (outer g (((assignedTo db experimentIds).map (flagsOf plusDays db now)).filter fun f => f.groupId = g.groupId))

theorem listReportGroups_eq (hdb : db.Consistent) {experimentIds : List ℤ} (hids : experimentId ∈ experimentIds) :
    (listReportGroups plusDays db experimentIds now).filter (fun g => g.experimentId = experimentId) =
      (db.arms experimentId).map (armReport plusDays db experimentIds now) := by
  have hkeys : ((db.groups.filter fun g => g.experimentId ∈ experimentIds).map fun g =>
      (g.experimentId, g.groupId, g.kind, g.name, g.treatmentDescription)).Nodup :=
    List.Nodup.of_map (fun k => k.2.1) (by rw [List.map_map]; exact nodup_groupIds hdb _)
  have hperm : (groupBy (fun r => (r.1.experimentId, r.1.groupId, r.1.kind, r.1.name, r.1.treatmentDescription))
      reportGroup (leftJoin (db.groups.filter fun g => g.experimentId ∈ experimentIds)
        ((assignedTo db experimentIds).map (flagsOf plusDays db now)) fun g f => f.groupId = g.groupId)).Perm
      ((db.groups.filter fun g => g.experimentId ∈ experimentIds).map (armReport plusDays db experimentIds now)) :=
    groupBy_leftJoin_perm hkeys
  have hown : ((db.groups.filter fun g => g.experimentId ∈ experimentIds).map
      (armReport plusDays db experimentIds now)).filter (fun g => g.experimentId = experimentId) =
      (db.groups.filter fun g => g.experimentId = experimentId).map (armReport plusDays db experimentIds now) := by
    rw [List.filter_map, List.filter_filter]
    congr 1
    refine List.filter_congr fun g _ => ?_
    by_cases hid : g.experimentId = experimentId
    · simp [armReport, reportGroup, hid, hids]
    · simp [armReport, reportGroup, hid]
  have hrows := hperm.filter fun g => g.experimentId = experimentId
  rw [hown] at hrows
  have hsame : ∀ a b : ReportGroup, decide (a.experimentId = experimentId) = true →
      decide (b.experimentId = experimentId) = true → reportRank a ≤ reportRank b →
        outcomeRank a ≤ outcomeRank b := by
    intro a b ha hb hab
    obtain rfl := of_decide_eq_true ha
    unfold reportRank at hab
    rw [of_decide_eq_true hb, Prod.Lex.toLex_le_toLex] at hab
    exact hab.elim (fun hlt => absurd hlt (lt_irrefl _)) fun h => h.2
  unfold listReportGroups
  rw [if_neg (List.ne_nil_of_mem hids)]
  refine (filter_sortBy hsame fun a ha b hb hab => ?_).trans (sortBy_arms hdb (fun _ => rfl) hrows)
  obtain ⟨g, hg, rfl⟩ := List.mem_map.mp (hrows.mem_iff.mp ha)
  obtain ⟨g', hg', rfl⟩ := List.mem_map.mp (hrows.mem_iff.mp hb)
  have hid : g.groupId = g'.groupId := congrArg (fun k => (ofLex k).2) hab
  rw [eq_of_key (nodup_groupIds hdb _) hg hg' hid.symm]

theorem countFlags_arm (hdb : db.Consistent) {experimentIds : List ℤ} {group : GroupRow}
    (hgroup : group ∈ db.groups)
    (hids : group.experimentId ∈ experimentIds) (p : Flags → Bool) :
    countFlags p (outer group
      (((assignedTo db experimentIds).map (flagsOf plusDays db now)).filter fun f => f.groupId = group.groupId)) =
      db.countAssigned group fun r => p (flagsOf plusDays db now r) :=
  (length_filter_outer group _ p).trans
    (length_joined (flagsOf plusDays db now) Flags.groupId (fun _ => rfl) group (filter_assignedTo hdb hgroup hids))

theorem countWhere_arm (group : GroupRow) (p : Outcome → Bool) :
    countWhere p (outer group (((assigned db group.experimentId).map (outcomeOf plusDays db now)).filter fun o =>
      o.groupId = group.groupId)) = db.countAssigned group fun r => p (outcomeOf plusDays db now r) :=
  (length_filter_outer group _ p).trans (length_joined (outcomeOf plusDays db now) Outcome.groupId (fun _ => rfl) group rfl)

theorem exposedTo_of_exposedConverted {r : AssignmentRow × ExperimentRow}
    (h : exposedConverted plusDays db r = true) : exposedTo db r.1 = true := by
  obtain ⟨firstAt, hfirst, -⟩ := Option.any_eq_true _ _ |>.mp h
  obtain ⟨x, hx, -⟩ := List.mem_map.mp (List.min?_mem hfirst)
  obtain ⟨hmem, hown⟩ := List.mem_filter.mp hx
  exact List.any_eq_true.mpr ⟨x, hmem, hown⟩

end Arms

/-! ### The report and the counts -/

/-- An arm's counts, as either page shows them. -/
structure ArmCounts where
  groupId : ℤ
  kind : Kind
  assigned : ℕ
  converted : ℕ
  pending : ℕ
  notConverted : ℤ
  unrecorded : ℕ

def GroupConversion.counts (g : GroupConversion) : ArmCounts :=
  ⟨g.groupId, g.kind, g.assigned, g.converted, g.pending, g.notConverted, g.unrecorded⟩

def ReportGroup.counts (g : ReportGroup) : ArmCounts :=
  ⟨g.groupId, g.kind, g.assigned, g.converted, g.pending, g.notConverted, g.unrecorded⟩

def ReportGroup.exposures (g : ReportGroup) : ExposedConversion :=
  ⟨g.groupId, g.kind, g.exposed, g.exposedConverted⟩

/-- The report of an experiment says what its own lists of counts and of exposures say. -/
structure CountsAgree (plusDays : Instant → ℤ → Instant) (db : Db) (experimentIds : List ℤ) (experimentId : ℤ)
    (now : Instant) : Prop where
  counts : ((listReportGroups plusDays db experimentIds now).filter fun g => g.experimentId = experimentId).map
    ReportGroup.counts = (listGroupConversion plusDays db experimentId now).map GroupConversion.counts
  exposures : ((listReportGroups plusDays db experimentIds now).filter fun g => g.experimentId = experimentId).map
    ReportGroup.exposures = listExposedConversion plusDays db experimentId
  bounded : ∀ g ∈ listReportGroups plusDays db experimentIds now, g.exposedConverted ≤ g.exposed

section Report

variable {plusDays : Instant → ℤ → Instant} {db : Db} {experimentId : ℤ} {now : Instant}

theorem exposedConverted_le {experimentIds : List ℤ} {g : ReportGroup}
    (hg : g ∈ listReportGroups plusDays db experimentIds now) : g.exposedConverted ≤ g.exposed := by
  unfold listReportGroups at hg
  split_ifs at hg with hnone
  · cases hg
  obtain ⟨row, -, rfl⟩ := mem_groupBy.mp (mem_sortBy.mp hg)
  change countFlags _ _ ≤ countFlags _ _
  unfold countFlags
  rw [← List.countP_eq_length_filter, ← List.countP_eq_length_filter]
  refine List.countP_mono_left fun joined hjoined h => ?_
  obtain ⟨group, _ | flags⟩ := joined
  · cases h
  obtain ⟨-, hflags, -⟩ := mem_leftJoin_some.mp (List.mem_of_mem_filter hjoined)
  obtain ⟨r, -, rfl⟩ := List.mem_map.mp hflags
  exact exposedTo_of_exposedConverted h

theorem counts_agree (hdb : db.Consistent) {experimentIds : List ℤ} (hids : experimentId ∈ experimentIds) :
    CountsAgree plusDays db experimentIds experimentId now := by
  refine ⟨?_, ?_, fun g hg => exposedConverted_le hg⟩
  · rw [listReportGroups_eq hdb hids, listGroupConversion_eq hdb, List.map_map, List.map_map]
    refine List.map_congr_left fun g hg => ?_
    obtain ⟨hgroup, rfl⟩ := mem_arms.mp hg
    -- each count is of the same assignments under the same condition
    have hcount : ∀ (p : Flags → Bool) (q : Outcome → Bool),
        (∀ r, p (flagsOf plusDays db now r) = q (outcomeOf plusDays db now r)) → _ = _ :=
      fun p q hpq => (countFlags_arm hdb hgroup hids p).trans
        ((congrArg (db.countAssigned g) (funext hpq)).trans (countWhere_arm g q).symm)
    have hassigned := hcount (fun _ => true) (fun _ => true) fun _ => rfl
    have hconverted := hcount (fun f => f.converted) (fun o => o.converted) fun _ => rfl
    have hpending := hcount (fun f => !f.converted && f.open_) (fun o => !o.converted && o.open_) fun _ => rfl
    have hunrecorded := hcount (fun f => !f.converted && f.qualifies) (fun o => !o.converted && o.qualifies) fun _ => rfl
    have hpartition := countWhere_partition (outer g
      (((assigned db g.experimentId).map (outcomeOf plusDays db now)).filter fun o => o.groupId = g.groupId))
    simp only [Function.comp_apply, ReportGroup.counts, GroupConversion.counts,
      ReportGroup.notConverted, armReport,
      reportGroup, groupConversion, ArmCounts.mk.injEq, hassigned, hconverted, hpending, hunrecorded,
        true_and, and_true]
    omega
  · rw [listReportGroups_eq hdb hids, listExposedConversion_eq hdb, List.map_map]
    refine List.map_congr_left fun g hg => ?_
    obtain ⟨hgroup, rfl⟩ := mem_arms.mp hg
    have hcount : ∀ (p : Flags → Bool) (q : ℤ × Bool × Bool → Bool), (∀ r, p (flagsOf plusDays db now r) =
        q (r.1.groupId, exposedTo db r.1, exposedConverted plusDays db r)) → _ = _ :=
      fun p q hpq => (countFlags_arm hdb hgroup hids p).trans ((congrArg (db.countAssigned g) (funext hpq)).trans
        ((length_filter_outer g _ q).trans (length_joined (fun r : AssignmentRow × ExperimentRow =>
          (r.1.groupId, exposedTo db r.1, exposedConverted plusDays db r)) Prod.fst (fun _ => rfl) g rfl)).symm)
    have hexposed := hcount (fun f => f.exposed) (fun f => f.2.1) fun _ => rfl
    have hconverted := hcount (fun f => f.exposedConverted) (fun f => f.2.2) fun _ => rfl
    simp only [Function.comp_apply, ReportGroup.exposures, armReport, reportGroup, exposedConversion, hexposed,
      hconverted]

end Report

/-! ### The differences and the uplift -/

/-- The page of the uplift and the dashboard compare the same arms alike, or refuse in the same words. -/
inductive Agree {F : Type} : Except UpliftError (MeasuredUplift F) →
    Except UpliftError (Differences F) → Prop where
  | compared (measured : MeasuredUplift F) (baseline : Baseline) (differences : List (Difference F))
      (hbaseline : baseline.kind = "control" ∧ baseline.groupId = measured.control.groupId)
      (hdifferences : differences.map (fun d => (d.groupId, d.comparison)) =
        measured.arms.map fun a => (a.groupId, a.comparison)) :
      Agree (.ok measured) (.ok ⟨some baseline, differences, none⟩)
  | refused (message : String) : Agree (.error (.upliftRefused message)) (.ok (.refused message))
  | notEvaluated (message : String) : Agree (.error (.conversionNotEvaluated message)) (.ok (.refused message))

section Comparisons

variable {F : Type} {arith : FloatArithmetic F} {nonneg : F → Prop} {plusDays : Instant → ℤ → Instant} {db : Db}

theorem experimentId_of_getExperiment {experimentId : ℤ} {experiment : Experiment}
    (h : getExperiment db experimentId = some experiment) : experiment.experimentId = experimentId := by
  unfold getExperiment at h
  obtain ⟨e, hfind, rfl⟩ := Option.map_eq_some_iff.mp h
  have hid := List.find?_some hfind
  exact of_decide_eq_true hid

theorem noAssignments_message (experimentId : ℤ) :
    s!"Experiment {experimentId} has no assignments, so there is nothing " ++ "to compare." =
      s!"Experiment {experimentId} has no assignments, so there " ++ "is nothing to compare." := by
  simp only [String.append_assoc]
  rfl

theorem comparisons_agree (hlawful : arith.Lawful nonneg) {experimentId : ℤ} {experiment : Experiment}
    (hexperiment : getExperiment db experimentId = some experiment) (hcontrol : 1 ≤ experiment.controlGroups)
    (clock now : Instant) :
    Agree (measureUplift arith plusDays clock db experimentId (some now))
      (differences arith experiment (listGroupConversion plusDays db experimentId now)) := by
  have hsettled := compareArms_settled hlawful experimentId
    fun g (hg : g ∈ listGroupConversion plusDays db experimentId now) => converted_le_assigned hg
  unfold measureUplift differences refusalBeforeCounts
  rw [hexperiment, experimentId_of_getExperiment hexperiment]
  simp only [if_neg (not_lt.mpr hcontrol), if_pos hcontrol]
  by_cases hmetric : experiment.targetMetric ≠ "CONVERSION"
  · simp only [if_pos hmetric]
    exact .refused _
  simp only [if_neg hmetric]
  by_cases hnone : experiment.assignments = 0
  · simp only [if_pos hnone]
    rw [noAssignments_message]
    exact .refused _
  simp only [if_neg hnone, Option.getD_some]
  obtain ⟨⟨control, arms⟩, hok⟩ | ⟨message, hrefused | hrefused⟩ := hsettled
  · rw [hok]
    refine .compared _ _ _ ⟨rfl, rfl⟩ ?_
    rw [List.map_map]
    rfl
  · rw [hrefused]
    exact .refused message
  · rw [hrefused]
    exact .notEvaluated message

end Comparisons

/-! ### The shares over time -/

/-- What the shares rely on: integers keep their order, quotients of counts by a count keep it and do not
exceed one, and where the count is at most `2 ^ 53` no two of them are equal. -/
structure FloatArithmetic.Ordered {F : Type} (arith : FloatArithmetic F) : Prop where
  ofInt : ∀ m n, m ≤ n → arith.less (arith.ofInt n) (arith.ofInt m) = false
  quotient : ∀ part part' whole, 0 ≤ part → part ≤ part' → part' ≤ whole → 0 < whole →
    arith.less (arith.quotient part' whole) (arith.quotient part whole) = false
  proper : ∀ part whole, 0 ≤ part → part ≤ whole → 0 < whole →
    arith.less (arith.ofInt 1) (arith.quotient part whole) = false
  distinct : ∀ part part' whole, 0 ≤ part → part ≤ whole → 0 ≤ part' → part' ≤ whole → 0 < whole →
    whole ≤ 2 ^ 53 → arith.quotient part whole = arith.quotient part' whole → part = part'

section Running

variable {F : Type} {arith : FloatArithmetic F} {first : Dict ℤ ℕ} {assigned : ℕ}

theorem mem_runningShares {running : ℕ} {days : List ℤ} {share : F}
    (h : share ∈ runningShares arith first assigned running days) :
    ∃ n : ℕ, running ≤ n ∧ n ≤ running + (days.map fun day => first.at day 0).sum ∧
      share = arith.quotient n assigned := by
  induction days generalizing running with
  | nil => cases h
  | cons day days ih =>
      rw [List.map_cons, List.sum_cons]
      obtain rfl | hlater := List.mem_cons.mp h
      · exact ⟨running + first.at day 0, by omega, by omega, rfl⟩
      · obtain ⟨n, hfrom, hto, rfl⟩ := ih hlater
        exact ⟨n, by omega, by omega, rfl⟩

theorem runningShares_rise (hordered : arith.Ordered) {running : ℕ} {days : List ℤ} (hassigned : 0 < assigned)
    (htotal : running + (days.map fun day => first.at day 0).sum ≤ assigned) :
    (runningShares arith first assigned running days).Pairwise fun earlier later =>
      arith.less later earlier = false := by
  induction days generalizing running with
  | nil => exact .nil
  | cons day days ih =>
      rw [List.map_cons, List.sum_cons] at htotal
      refine List.pairwise_cons.mpr ⟨fun later hlater => ?_, ih (by omega)⟩
      obtain ⟨n, hfrom, hto, rfl⟩ := mem_runningShares hlater
      exact hordered.quotient _ _ _ (by omega) (by omega) (by omega) (by omega)

theorem runningShares_proper (hordered : arith.Ordered) {running : ℕ} {days : List ℤ} (hassigned : 0 < assigned)
    (htotal : running + (days.map fun day => first.at day 0).sum ≤ assigned) :
    ∀ share ∈ runningShares arith first assigned running days, arith.less (arith.ofInt 1) share = false := by
  intro share hshare
  obtain ⟨n, -, hto, rfl⟩ := mem_runningShares hshare
  exact hordered.proper _ _ (by omega) (by omega) (by omega)

theorem getLast_runningShares {running : ℕ} {days : List ℤ} (hdays : days ≠ []) :
    (runningShares arith first assigned running days).getLast? =
      some (arith.quotient ↑(running + (days.map fun day => first.at day 0).sum) assigned) := by
  induction days generalizing running with
  | nil => exact absurd rfl hdays
  | cons day days ih =>
      cases days with
      | nil => rfl
      | cons next days =>
          have hlast : (runningShares arith first assigned (running + first.at day 0) (next :: days)).getLast? = _ :=
            ih (List.cons_ne_nil next days)
          rw [List.map_cons, List.sum_cons, ← Nat.add_assoc, ← hlast]
          rfl

end Running

section Drawn

variable {plusDays : Instant → ℤ → Instant} {db : Db} {experimentId : ℤ}

theorem at_firstByDay (groupId k : ℤ) :
    (firstByDay (listConversionDays plusDays db experimentId) groupId).at k 0 =
      (((assigned db experimentId).filterMap (conversionDay plusDays db)).filter fun r => r = (groupId, k)).length := by
  have hkeys : ((listConversionDays plusDays db experimentId).map fun d => (d.groupId, d.day)).Nodup := by
    refine ((perm_sortBy _ _).map _).nodup_iff.mpr ?_
    exact nodup_groupBy (q := id) (fun _ _ => rfl) fun _ _ _ _ h => h
  have hdays : (((listConversionDays plusDays db experimentId).filter fun d => d.groupId = groupId).map
      ConversionDay.day).Nodup := by
    refine List.Nodup.of_map (fun k => (groupId, k)) ?_
    have hsame : (((listConversionDays plusDays db experimentId).filter fun d => d.groupId = groupId).map
        ConversionDay.day).map (fun k => (groupId, k)) =
        ((listConversionDays plusDays db experimentId).filter fun d => d.groupId = groupId).map
          fun d => (d.groupId, d.day) := by
      rw [List.map_map]
      refine List.map_congr_left fun d hd => ?_
      have hgroup : d.groupId = groupId := of_decide_eq_true (List.mem_filter.mp hd).2
      rw [hgroup, Function.comp_apply]
    rw [hsame]
    exact List.Nodup.sublist (List.filter_sublist.map _) hkeys
  unfold Dict.at firstByDay
  by_cases hrow : (groupId, k) ∈ (assigned db experimentId).filterMap (conversionDay plusDays db)
  · have hmem : (⟨groupId, k, _⟩ : ConversionDay) ∈ listConversionDays plusDays db experimentId :=
      mem_sortBy.mpr (mem_groupBy.mpr ⟨_, hrow, rfl⟩)
    rw [lookup_filled hdays ConversionDay.customers [] (List.mem_filter.mpr ⟨hmem, decide_eq_true rfl⟩)]
    rfl
  · have hnone : k ∉ ((listConversionDays plusDays db experimentId).filter fun d => d.groupId = groupId).map
        ConversionDay.day := by
      intro hk
      obtain ⟨d, hd, rfl⟩ := List.mem_map.mp hk
      obtain ⟨hd, hgroup⟩ := List.mem_filter.mp hd
      obtain ⟨row, hmem, rfl⟩ := mem_groupBy.mp (mem_sortBy.mp hd)
      obtain rfl := of_decide_eq_true hgroup
      exact hrow hmem
    have hzero : ((assigned db experimentId).filterMap (conversionDay plusDays db)).filter
        (fun r => r = (groupId, k)) = [] :=
      List.filter_eq_nil_iff.mpr fun r hr heq => hrow (of_decide_eq_true heq ▸ hr)
    rw [lookup_filled_other _ _ hnone, hzero]
    rfl

def charted (plusDays : Instant → ℤ → Instant) (db : Db) (drawn : ℤ) (r : AssignmentRow × ExperimentRow) : Bool :=
  (conversionDay plusDays db r).any fun d => d.2 < drawn

theorem conversionDay_eq_some {r : AssignmentRow × ExperimentRow} {d : ℤ × ℤ} :
    conversionDay plusDays db r = some d ↔ ∃ firstAt, firstSale db r.1 = some firstAt ∧ r.1.assignedAt ≤ firstAt ∧
      firstAt < plusDays r.1.assignedAt r.2.conversionWindowDays ∧
      d = (r.1.groupId, (firstAt - r.1.assignedAt) / day) := by
  unfold conversionDay
  rw [Option.map_eq_some_iff]
  constructor
  · rintro ⟨firstAt, hfirst, rfl⟩
    obtain ⟨hfirst, hinside⟩ := Option.filter_eq_some_iff.mp hfirst
    obtain ⟨hfrom, hbefore⟩ := of_decide_eq_true hinside
    exact ⟨firstAt, hfirst, hfrom, hbefore, rfl⟩
  · rintro ⟨firstAt, hfirst, hfrom, hbefore, rfl⟩
    exact ⟨firstAt, Option.filter_eq_some_iff.mpr ⟨hfirst, decide_eq_true ⟨hfrom, hbefore⟩⟩, rfl⟩

theorem day_pos : 0 < day := by decide

theorem drawn_day {r : AssignmentRow × ExperimentRow} {groupId drawn : ℤ} :
    ((conversionDay plusDays db r).any fun d => d.1 = groupId ∧ d.2 ∈ (List.range drawn.toNat).map Int.ofNat) =
      (charted plusDays db drawn r && decide (r.1.groupId = groupId)) := by
  unfold charted
  cases hday : conversionDay plusDays db r with
  | none => rfl
  | some d =>
      obtain ⟨firstAt, -, hfrom, -, rfl⟩ := conversionDay_eq_some.mp hday
      have hnonneg : 0 ≤ (firstAt - r.1.assignedAt) / day := Int.ediv_nonneg (Int.sub_nonneg.mpr hfrom) day_pos.le
      have hrange : (firstAt - r.1.assignedAt) / day ∈ (List.range drawn.toNat).map Int.ofNat ↔
          (firstAt - r.1.assignedAt) / day < drawn := by
        rw [List.mem_map]
        constructor
        · rintro ⟨n, hn, heq⟩
          have hlt := List.mem_range.mp hn
          rw [← heq]
          exact Int.lt_toNat.mp hlt
        · intro hlt
          have hdrawn : 0 < drawn := lt_of_le_of_lt hnonneg hlt
          exact ⟨_, List.mem_range.mpr ((Int.toNat_lt_toNat hdrawn).mpr hlt), Int.toNat_of_nonneg hnonneg⟩
      rw [Option.any_some, Option.any_some, Bool.decide_and, Bool.and_comm]
      congr 1
      exact decide_eq_decide.mpr hrange

theorem sum_firstByDay (group : GroupRow) (drawn : ℤ) :
    (((List.range drawn.toNat).map Int.ofNat).map fun k =>
      (firstByDay (listConversionDays plusDays db group.experimentId) group.groupId).at k 0).sum =
      db.countAssigned group (charted plusDays db drawn) := by
  have hdays : ((List.range drawn.toNat).map Int.ofNat).Nodup :=
    List.Nodup.map (fun _ _ => Int.ofNat.inj) List.nodup_range
  let rows := (assigned db group.experimentId).filterMap (conversionDay plusDays db)
  let own := rows.filter fun d => d.1 = group.groupId ∧ d.2 ∈ (List.range drawn.toNat).map Int.ofNat
  have hsum : (((List.range drawn.toNat).map Int.ofNat).map fun k => (own.filter fun d => d.2 = k).length).sum =
      own.length := sum_filter_key hdays fun d hd => (of_decide_eq_true (List.mem_filter.mp hd).2).2
  have hterm : ∀ k ∈ (List.range drawn.toNat).map Int.ofNat,
      (firstByDay (listConversionDays plusDays db group.experimentId) group.groupId).at k 0 =
        (own.filter fun d => d.2 = k).length := by
    intro k hk
    rw [at_firstByDay, List.filter_filter]
    congr 1
    refine List.filter_congr fun d _ => ?_
    rw [← Bool.decide_and]
    refine decide_eq_decide.mpr ⟨?_, ?_⟩
    · rintro rfl
      exact ⟨rfl, rfl, hk⟩
    · rintro ⟨rfl, hgroup, -⟩
      exact Prod.ext hgroup rfl
  calc (((List.range drawn.toNat).map Int.ofNat).map fun k =>
        (firstByDay (listConversionDays plusDays db group.experimentId) group.groupId).at k 0).sum
      = own.length := by rw [List.map_congr_left hterm, hsum]
    _ = ((assigned db group.experimentId).filter fun r =>
          charted plusDays db drawn r && decide (r.1.groupId = group.groupId)).length := by
        rw [length_filter_filterMap]
        simp only [drawn_day]
    _ = db.countAssigned group (charted plusDays db drawn) := by
        unfold Db.countAssigned
        rw [List.filter_filter]

theorem mem_attributedSales {a : AssignmentRow} {at_ : Instant} : at_ ∈ attributedSales db a ↔
    ∃ c ∈ db.conversions, c.assignmentId = a.assignmentId ∧
      ∃ t ∈ db.sales, t.transactionId = c.transactionId ∧ t.occurredAt = at_ := by
  unfold attributedSales
  rw [List.mem_map]
  constructor
  · rintro ⟨r, hr, rfl⟩
    obtain ⟨hjoined, hown⟩ := List.mem_filter.mp hr
    obtain ⟨hc, ht, hon⟩ := mem_join.mp hjoined
    exact ⟨r.1, hc, of_decide_eq_true hown, r.2, ht, of_decide_eq_true hon, rfl⟩
  · rintro ⟨c, hc, hown, t, ht, hon, rfl⟩
    exact ⟨(c, t), List.mem_filter.mpr ⟨mem_join.mpr ⟨hc, ht, decide_eq_true hon⟩, decide_eq_true hown⟩, rfl⟩

theorem attributed_inside (hdb : db.Consistent) (hattributed : db.Attributed plusDays)
    {r : AssignmentRow × ExperimentRow} (hr : r ∈ assigned db experimentId) {at_ : Instant}
    (hat : at_ ∈ attributedSales db r.1) :
    r.1.assignedAt ≤ at_ ∧ at_ < plusDays r.1.assignedAt r.2.conversionWindowDays := by
  obtain ⟨c, hc, hown, t, ht, hsale, rfl⟩ := mem_attributedSales.mp hat
  obtain ⟨hassignment, hexperiment, href, -⟩ := mem_assigned.mp hr
  obtain ⟨other, hqualifying⟩ := hattributed.recorded c hc
  obtain ⟨r', hr', t', ht', hqualifies, rfl⟩ := mem_qualifying.mp hqualifying
  obtain ⟨hassignment', hexperiment', href', -⟩ := mem_assigned.mp hr'
  -- the keys make them the same rows
  obtain rfl := eq_of_key hdb.sales ht ht' hsale.symm
  have hfirst : r.1 = r'.1 := eq_of_key hdb.keyed.assignments hassignment' hassignment hown.symm
  have hsecond : r.2 = r'.2 := eq_of_key hdb.keyed.experiments hexperiment' hexperiment (by rw [href, href', hfirst])
  obtain ⟨-, hfrom, hbefore⟩ := of_decide_eq_true hqualifies
  rw [hfirst, hsecond]
  exact ⟨hfrom, hbefore⟩

theorem recordedFor_iff (hattributed : db.Attributed plusDays) {a : AssignmentRow} :
    recordedFor db a = true ↔ attributedSales db a ≠ [] := by
  constructor
  · intro hrecorded
    obtain ⟨c, hc, hown⟩ := List.any_eq_true.mp hrecorded
    obtain ⟨other, hqualifying⟩ := hattributed.recorded c hc
    obtain ⟨r, -, t, ht, -, rfl⟩ := mem_qualifying.mp hqualifying
    exact List.ne_nil_of_mem (mem_attributedSales.mpr ⟨_, hc, of_decide_eq_true hown, t, ht, rfl, rfl⟩)
  · intro hsales
    obtain ⟨at_, hat⟩ := List.exists_mem_of_ne_nil _ hsales
    obtain ⟨c, hc, hown, -⟩ := mem_attributedSales.mp hat
    exact List.any_eq_true.mpr ⟨c, hc, decide_eq_true hown⟩

theorem recordedFor_of_charted {drawn : ℤ} {r : AssignmentRow × ExperimentRow}
    (h : charted plusDays db drawn r = true) : recordedFor db r.1 = true := by
  obtain ⟨d, hday, -⟩ := Option.any_eq_true _ _ |>.mp h
  obtain ⟨firstAt, hfirst, -⟩ := conversionDay_eq_some.mp hday
  obtain ⟨c, hc, hown, -⟩ := mem_attributedSales.mp (List.min?_mem hfirst)
  exact List.any_eq_true.mpr ⟨c, hc, decide_eq_true hown⟩

theorem charted_iff (hdb : db.Consistent) (hattributed : db.Attributed plusDays)
    {r : AssignmentRow × ExperimentRow}
    (hr : r ∈ assigned db experimentId) (drawn : ℤ) :
    charted plusDays db drawn r = true ↔ ∃ at_ ∈ attributedSales db r.1, at_ < r.1.assignedAt + drawn * day := by
  unfold charted
  rw [Option.any_eq_true]
  constructor
  · rintro ⟨d, hday, hdrawn⟩
    obtain ⟨firstAt, hfirst, -, -, rfl⟩ := conversionDay_eq_some.mp hday
    have hlt := (Int.ediv_lt_iff_lt_mul day_pos).mp (of_decide_eq_true hdrawn)
    exact ⟨firstAt, List.min?_mem hfirst, Int.lt_add_of_sub_left_lt hlt⟩
  · rintro ⟨at_, hat, hlt⟩
    obtain ⟨firstAt, hfirst⟩ := Option.isSome_iff_exists.mp (List.isSome_min?_of_mem hat)
    obtain ⟨hmem, hleast⟩ := List.min?_eq_some_iff.mp hfirst
    obtain ⟨hfrom, hbefore⟩ := attributed_inside hdb hattributed hr hmem
    refine ⟨_, conversionDay_eq_some.mpr ⟨firstAt, hfirst, hfrom, hbefore, rfl⟩, decide_eq_true ?_⟩
    exact (Int.ediv_lt_iff_lt_mul day_pos).mpr (Int.sub_left_lt_of_lt_add (lt_of_le_of_lt (hleast at_ hat) hlt))

theorem countAssigned_mono {group : GroupRow} {p q : AssignmentRow × ExperimentRow → Bool}
    (h : ∀ r, p r = true → q r = true) : db.countAssigned group p ≤ db.countAssigned group q :=
  (List.monotone_filter_right _ h).length_le

/-- Where what is counted more narrowly is counted as often, the conditions hold of the same assignments. -/
theorem countAssigned_eq_iff {group : GroupRow} {p q : AssignmentRow × ExperimentRow → Bool}
    (h : ∀ r, p r = true → q r = true) : db.countAssigned group p = db.countAssigned group q ↔
      ∀ r ∈ assigned db group.experimentId, r.1.groupId = group.groupId → q r = true → p r = true := by
  unfold Db.countAssigned
  constructor
  · intro hcount r hr hgroup hq
    have heq := (List.monotone_filter_right _ h).eq_of_length hcount
    have hown : r ∈ (assigned db group.experimentId).filter fun r => r.1.groupId = group.groupId :=
      List.mem_filter.mpr ⟨hr, decide_eq_true hgroup⟩
    have hmem := List.mem_filter.mpr ⟨hown, hq⟩
    rw [← heq] at hmem
    exact (List.mem_filter.mp hmem).2
  · intro hall
    congr 1
    refine List.filter_congr fun r hr => Bool.eq_iff_iff.mpr ⟨h r, fun hq => ?_⟩
    obtain ⟨hr, hgroup⟩ := List.mem_filter.mp hr
    exact hall r hr (of_decide_eq_true hgroup) hq

end Drawn

/-- The chart over time as the dashboard builds it. -/
def chart {F : Type} (arith : FloatArithmetic F) (plusDays : Instant → ℤ → Instant) (db : Db)
    (experiment : Experiment)
    (now : Instant) : List (ArmRates × List F) :=
  overTime arith experiment (armRates (listGroupConversion plusDays db experiment.experimentId now)
    (listExposedConversion plusDays db experiment.experimentId)) (listConversionDays plusDays db experiment.experimentId)

/-- An arm's line never falls, never exceeds one, and ends at the rate of its assigned customers unless its
window is longer than the chart. -/
structure LineAgrees {F : Type} (arith : FloatArithmetic F) (conversionWindowDays : ℤ) (arm : ArmRates)
    (shares : List F) : Prop where
  rises : shares.Pairwise fun earlier later => arith.less later earlier = false
  proper : ∀ share ∈ shares, arith.less (arith.ofInt 1) share = false
  last : conversionWindowDays ≤ maxChartDays → arm.assigned ≠ 0 →
    shares.getLast? = some (arith.quotient arm.converted arm.assigned)

/-- The pages of an experiment agree. -/
structure PagesAgree {F : Type} (arith : FloatArithmetic F) (plusDays : Instant → ℤ → Instant) (db : Db)
    (experiment : Experiment) (experimentIds : List ℤ) (now : Instant) : Prop where
  counts : CountsAgree plusDays db experimentIds experiment.experimentId now
  comparisons : 1 ≤ experiment.controlGroups → ∀ clock,
    Agree (measureUplift arith plusDays clock db experiment.experimentId (some now))
      (differences arith experiment (listGroupConversion plusDays db experiment.experimentId now))
  shares : db.Attributed plusDays → ∀ line ∈ chart arith plusDays db experiment now,
    LineAgrees arith experiment.conversionWindowDays line.1 line.2

/-- Every converted customer of the experiment bought within the window's days of 86400 seconds. -/
def FirstSalesDrawn (db : Db) (experiment : Experiment) : Prop :=
  ∀ a ∈ db.assignments, a.experimentId = experiment.experimentId → attributedSales db a ≠ [] →
    ∃ at_ ∈ attributedSales db a, at_ < a.assignedAt + experiment.conversionWindowDays * day

section Pages

variable {F : Type} {arith : FloatArithmetic F} {plusDays : Instant → ℤ → Instant} {db : Db}
    {experiment : Experiment}
  {now : Instant} {nonneg : F → Prop}

/-- A group's line in the chart. -/
structure IsLine (arith : FloatArithmetic F) (plusDays : Instant → ℤ → Instant) (db : Db) (experiment : Experiment)
    (group : GroupRow) (line : ArmRates × List F) : Prop where
  assigned : line.1.assigned = db.countAssigned group fun _ => true
  converted : line.1.converted = db.countAssigned group fun r => recordedFor db r.1
  shares : line.2 = cumulativeShare arith (listConversionDays plusDays db experiment.experimentId) group.groupId
    line.1.assigned (min experiment.conversionWindowDays maxChartDays)

theorem chart_lines (hdb : db.Consistent) : ∃ f, chart arith plusDays db experiment now =
    (db.arms experiment.experimentId).map f ∧
      ∀ group ∈ db.arms experiment.experimentId, IsLine arith plusDays db experiment group (f group) := by
  unfold chart overTime armRates
  rw [listGroupConversion_eq hdb, List.map_map, List.map_map]
  refine ⟨_, rfl, fun group hgroup => ?_⟩
  obtain ⟨-, hexperiment⟩ := mem_arms.mp hgroup
  have hassigned := @countWhere_arm plusDays db now group fun _ => true
  have hconverted := @countWhere_arm plusDays db now group fun o => o.converted
  rw [hexperiment] at hassigned hconverted
  exact ⟨hassigned, hconverted, rfl⟩

theorem line_bounded (hordered : arith.Ordered) {group : GroupRow}
    (hgroup : group.experimentId = experiment.experimentId)
    {line : ArmRates × List F} (hline : IsLine arith plusDays db experiment group line) :
    (line.2.Pairwise fun earlier later => arith.less later earlier = false) ∧
      ∀ share ∈ line.2, arith.less (arith.ofInt 1) share = false := by
  rw [hline.shares, ← hgroup]
  unfold cumulativeShare
  split_ifs with hnone
  · refine ⟨?_, fun share hshare => ?_⟩
    · exact List.pairwise_map.mpr (List.pairwise_of_forall fun _ _ => hordered.ofInt 0 0 le_rfl)
    · obtain ⟨-, -, rfl⟩ := List.mem_map.mp hshare
      exact hordered.ofInt 0 1 (by decide)
  · have htotal : db.countAssigned group (charted plusDays db (min experiment.conversionWindowDays maxChartDays)) ≤
        db.countAssigned group fun _ => true := countAssigned_mono fun _ _ => rfl
    rw [← hline.assigned, ← sum_firstByDay, ← Nat.zero_add (List.sum _)] at htotal
    exact ⟨runningShares_rise hordered (by omega) htotal, runningShares_proper hordered (by omega) htotal⟩

theorem line_last (hwindow : 0 < experiment.conversionWindowDays)
    (hshort : experiment.conversionWindowDays ≤ maxChartDays)
    {group : GroupRow} (hgroup : group.experimentId = experiment.experimentId) {line : ArmRates × List F}
    (hline : IsLine arith plusDays db experiment group line) (hassigned : line.1.assigned ≠ 0) :
    line.2.getLast? = some (arith.quotient
      ↑(db.countAssigned group (charted plusDays db experiment.conversionWindowDays)) line.1.assigned) := by
  have hdays : (List.range experiment.conversionWindowDays.toNat).map Int.ofNat ≠ [] := by
    rw [Ne, List.map_eq_nil_iff, List.range_eq_nil]
    omega
  rw [hline.shares, ← hgroup, min_eq_left hshort]
  unfold cumulativeShare
  rw [if_neg (by omega), getLast_runningShares hdays, sum_firstByDay, Nat.zero_add]

theorem window_of_getExperiment (hdb : db.Consistent)
    (hexperiment : getExperiment db experiment.experimentId = some experiment) :
    ∃ e ∈ db.experiments, e.experimentId = experiment.experimentId ∧ 0 < experiment.conversionWindowDays := by
  have hrow := hexperiment
  unfold getExperiment at hrow
  obtain ⟨e, hfind, hrow⟩ := Option.map_eq_some_iff.mp hrow
  have he := List.mem_of_find?_eq_some hfind
  have hid := List.find?_some hfind
  have hwindow := congrArg Experiment.conversionWindowDays hrow
  exact ⟨e, he, of_decide_eq_true hid, hwindow ▸ hdb.windows e he⟩

/-- A group's converted are all drawn exactly where each of them bought early enough. -/
theorem drawn_iff (hdb : db.Consistent) (hattributed : db.Attributed plusDays) (group : GroupRow) (drawn : ℤ) :
    db.countAssigned group (charted plusDays db drawn) = (db.countAssigned group fun r => recordedFor db r.1) ↔
      ∀ r ∈ assigned db group.experimentId, r.1.groupId = group.groupId → attributedSales db r.1 ≠ [] →
        ∃ at_ ∈ attributedSales db r.1, at_ < r.1.assignedAt + drawn * day := by
  rw [countAssigned_eq_iff fun _ => recordedFor_of_charted]
  refine forall₂_congr fun r hr => ?_
  rw [recordedFor_iff hattributed, charted_iff hdb hattributed hr]

theorem countAssigned_le_length (hdb : db.Consistent) (group : GroupRow)
    (p : AssignmentRow × ExperimentRow → Bool) :
    db.countAssigned group p ≤ db.assignments.length := by
  have hassigned : (assigned db group.experimentId).length ≤ db.assignments.length := by
    rw [← List.length_map Prod.fst, map_fst_assigned hdb.keyed]
    exact List.length_filter_le _ _
  exact (List.length_filter_le _ _).trans ((List.length_filter_le _ _).trans hassigned)

theorem countAssigned_pos {group : GroupRow} {r : AssignmentRow × ExperimentRow}
    (hr : r ∈ assigned db group.experimentId) (hgroup : r.1.groupId = group.groupId) :
    0 < db.countAssigned group fun _ => true := by
  have hown : r ∈ (assigned db group.experimentId).filter fun r => r.1.groupId = group.groupId :=
    List.mem_filter.mpr ⟨hr, decide_eq_true hgroup⟩
  exact List.length_pos_of_mem (List.mem_filter.mpr ⟨hown, rfl⟩)

theorem shares_agree (hordered : arith.Ordered) (hdb : db.Consistent) (hattributed : db.Attributed plusDays)
    (hwindow : 0 < experiment.conversionWindowDays)
    (hdrawn : experiment.conversionWindowDays ≤ maxChartDays → FirstSalesDrawn db experiment) :
    ∀ line ∈ chart arith plusDays db experiment now,
      LineAgrees arith experiment.conversionWindowDays line.1 line.2 := by
  obtain ⟨f, hchart, hlines⟩ := @chart_lines F arith plusDays db experiment now hdb
  rw [hchart]
  intro line hline
  obtain ⟨group, hgroup, rfl⟩ := List.mem_map.mp hline
  have hof := hlines group hgroup
  obtain ⟨-, hown⟩ := mem_arms.mp hgroup
  obtain ⟨hrises, hproper⟩ := line_bounded hordered hown hof
  refine ⟨hrises, hproper, fun hshort hassigned => ?_⟩
  have hall := (drawn_iff hdb hattributed group experiment.conversionWindowDays).mpr fun r hr _ hsales => by
    obtain ⟨ha, -, -, haid⟩ := mem_assigned.mp hr
    exact hdrawn hshort r.1 ha (haid.trans hown) hsales
  rw [line_last hwindow hshort hown hof hassigned, hall, hof.converted]

/-- Lines that end at the rate of the assigned customers leave no converted customer out. -/
theorem firstSalesDrawn_of_shares (hordered : arith.Ordered) (hdb : db.Consistent)
    (hattributed : db.Attributed plusDays) (hcount : db.assignments.length ≤ 2 ^ 53)
    {e : ExperimentRow} (he : e ∈ db.experiments) (heid : e.experimentId = experiment.experimentId)
    (hwindow : 0 < experiment.conversionWindowDays) (hshort : experiment.conversionWindowDays ≤ maxChartDays)
    (hagree : ∀ line ∈ chart arith plusDays db experiment now,
      LineAgrees arith experiment.conversionWindowDays line.1 line.2) : FirstSalesDrawn db experiment := by
  obtain ⟨f, hchart, hlines⟩ := @chart_lines F arith plusDays db experiment now hdb
  intro a ha haid hsales
  obtain ⟨group, hgroup, hgid, hown⟩ := hdb.assignmentGroups a ha
  have hr : (a, e) ∈ assigned db group.experimentId := mem_assigned.mpr ⟨ha, he, heid.trans haid.symm, hown.symm⟩
  have hmem : group ∈ db.arms experiment.experimentId := mem_arms.mpr ⟨hgroup, hown.trans haid⟩
  have hof := hlines group hmem
  have hline := hagree (f group) (hchart ▸ List.mem_map_of_mem hmem)
  have hpos : 0 < (f group).1.assigned := hof.assigned ▸ countAssigned_pos hr hgid.symm
  have hlast := (line_last hwindow hshort (hown.trans haid) hof hpos.ne').symm.trans (hline.last hshort hpos.ne')
  -- a converted customer is an assigned one, and a drawn one a converted one
  have hconverted : (f group).1.converted ≤ (f group).1.assigned := by
    rw [hof.converted, hof.assigned]
    exact countAssigned_mono fun _ _ => rfl
  have hdrawn : db.countAssigned group (charted plusDays db experiment.conversionWindowDays) ≤ (f group).1.assigned := by
    rw [hof.assigned]
    exact countAssigned_mono fun _ _ => rfl
  have hassigned : (f group).1.assigned ≤ 2 ^ 53 := by
    rw [hof.assigned]
    exact (countAssigned_le_length hdb group _).trans hcount
  have hequal := hordered.distinct _ _ _ (Int.natCast_nonneg _) (by exact_mod_cast hdrawn) (Int.natCast_nonneg _)
    (by exact_mod_cast hconverted) (by exact_mod_cast hpos) (by exact_mod_cast hassigned) (Option.some.inj hlast)
  rw [hof.converted] at hequal
  exact (drawn_iff hdb hattributed group _).mp (Int.ofNat.inj hequal) (a, e) hr hgid.symm hsales

/-- The pages of an experiment agree exactly where its window is longer than the chart or every converted customer
bought within that many days of 86400 seconds. -/
theorem pages_agree_iff (hlawful : arith.Lawful nonneg) (hordered : arith.Ordered) (hdb : db.Consistent)
    (hexperiment : getExperiment db experiment.experimentId = some experiment) {experimentIds : List ℤ}
    (hids : experiment.experimentId ∈ experimentIds) :
    ((db.Attributed plusDays → experiment.conversionWindowDays ≤ maxChartDays → FirstSalesDrawn db experiment) →
      PagesAgree arith plusDays db experiment experimentIds now) ∧
    (db.assignments.length ≤ 2 ^ 53 → PagesAgree arith plusDays db experiment experimentIds now →
      db.Attributed plusDays → experiment.conversionWindowDays ≤ maxChartDays →
        FirstSalesDrawn db experiment) := by
  obtain ⟨e, he, heid, hwindow⟩ := window_of_getExperiment hdb hexperiment
  refine ⟨fun hdrawn => ⟨counts_agree hdb hids, fun hcontrol clock => ?_, fun hattributed => ?_⟩,
    fun hcount hagree hattributed hshort => ?_⟩
  · exact comparisons_agree hlawful hexperiment hcontrol clock now
  · exact shares_agree hordered hdb hattributed hwindow (hdrawn hattributed)
  · exact firstSalesDrawn_of_shares hordered hdb hattributed hcount he heid hwindow hshort (hagree.shares hattributed)

/-- In a zone where no window is longer than its days of 86400 seconds, everyone recorded is drawn. -/
theorem firstSalesDrawn_of_steady (hsteady : ∀ at_ n, plusDays at_ n ≤ at_ + n * day) (hdb : db.Consistent)
    (hattributed : db.Attributed plusDays) (hexperiment : getExperiment db experiment.experimentId = some experiment) :
    FirstSalesDrawn db experiment := by
  intro a ha haid hsales
  obtain ⟨e, he, heid⟩ := List.mem_map.mp (hdb.keyed.assignmentExperiments a ha)
  have hr : (a, e) ∈ assigned db a.experimentId := mem_assigned.mpr ⟨ha, he, heid, rfl⟩
  obtain ⟨at_, hat⟩ := List.exists_mem_of_ne_nil _ hsales
  have hbefore := (attributed_inside hdb hattributed hr hat).2
  have hwindow : experiment.conversionWindowDays = e.conversionWindowDays :=
    (getExperiment_eq hdb.keyed he (by rw [heid, haid]; exact hexperiment)).1
  refine ⟨at_, hat, ?_⟩
  rw [hwindow]
  exact lt_of_lt_of_le hbefore (hsteady _ _)

end Pages

theorem fractions_ordered : fractions.Ordered where
  ofInt m n hle := decide_eq_false (not_lt.mpr (Int.cast_le.mpr hle))
  quotient part part' whole _ hle _ hwhole :=
    decide_eq_false (not_lt.mpr (div_le_div_of_nonneg_right (Int.cast_le.mpr hle) (Int.cast_nonneg hwhole.le)))
  proper part whole _ hle hwhole := by
    have hone : (part : ℚ) / whole ≤ ((1 : ℤ) : ℚ) := by
      rw [Int.cast_one, div_le_one (Int.cast_pos.mpr hwhole)]
      exact Int.cast_le.mpr hle
    exact decide_eq_false (not_lt.mpr hone)
  distinct part part' whole _ _ _ _ hwhole _ heq := by
    have hne : (whole : ℚ) ≠ 0 := Int.cast_ne_zero.mpr hwhole.ne'
    exact Int.cast_injective ((div_left_inj' hne).mp heq)

def evaluatedTrial : Db := (evaluateConversions (fun at_ days => at_ + days) trial 1).1

theorem evaluatedTrial_consistent : evaluatedTrial.Consistent := by
  refine ⟨⟨?_, ?_, ?_, ?_⟩, ?_, ?_, ?_⟩
  all_goals decide

theorem pages_agree_trial : PagesAgree fractions (fun at_ days => at_ + days) evaluatedTrial
    ⟨1, "CONVERSION", 7, .observed, 1, 1, 4, false⟩ [1] 20 := by
  refine (pages_agree_iff fractions_lawful fractions_ordered evaluatedTrial_consistent rfl ?_).1 fun _ _ => ?_
  · exact List.mem_singleton_self 1
  · unfold FirstSalesDrawn
    decide

/-- `timestamptz + make_interval(days => ...)`: the date moves in the session's time zone and the local time
stays. -/
def moveDate (toLocal : Instant → ℤ) (toInstant : ℤ → Instant) (at_ : Instant) (n : ℤ) : Instant :=
  toInstant (toLocal at_ + n * day)

def hour : ℤ := 3600 * 1000000

/-- When the clocks go back, on the first of November 2026 at six. -/
def clocksBack : Instant := 1793512800 * 1000000

/-- Four hours behind before the clocks go back and five after, an hour that comes twice read as its second
time. -/
def newYork : Instant → ℤ → Instant :=
  moveDate (fun at_ => if at_ < clocksBack then at_ - 4 * hour else at_ - 5 * hour)
    (fun clock => if clock < clocksBack - 5 * hour then clock + 4 * hour else clock + 5 * hour)

/-- A customer assigned three days before the clocks go back, who buys in the hour they add to the week. -/
def autumn : Db where
  experiments := [⟨1, "CONVERSION", 7, .observed⟩]
  groups := [⟨1, 1, .control, "Holdout", "No treatment delivered."⟩, ⟨2, 1, .treatment, "Offer", "Free delivery."⟩]
  assignments := [⟨1, 1, 2, "ana", clocksBack - 3 * day⟩]
  conversions := [⟨1, 1⟩]
  sales := [⟨1, "ana", clocksBack + 4 * day + hour / 2, false⟩]

theorem autumn_reachable : Reachable newYork autumn := by
  refine .step (.step (.step (.step .empty (.created _ ⟨1, "CONVERSION", 7, .observed⟩ autumn.groups ?_ ?_ ?_))
    (.assigned _ 1 autumn.assignments ?_ ?_ ?_ ?_)) (.sold _ ⟨1, "ana", clocksBack + 4 * day + hour / 2,
      false⟩ ?_))
    (.evaluated _ _ 1 1 ?_)
  all_goals first | decide | rfl

theorem autumn_consistent : autumn.Consistent := by
  refine ⟨⟨?_, ?_, ?_, ?_⟩, ?_, ?_, ?_⟩
  all_goals decide

theorem autumn_disagrees : Reachable newYork autumn ∧ autumn.Consistent ∧
    getExperiment autumn 1 = some ⟨1, "CONVERSION", 7, .observed, 1, 1, 1, false⟩ ∧
    ¬ PagesAgree fractions newYork autumn ⟨1, "CONVERSION", 7, .observed, 1, 1, 1, false⟩ [1] 0 := by
  refine ⟨autumn_reachable, autumn_consistent, rfl, fun hagree => ?_⟩
  have hattributed := attributed_reachable autumn_reachable
  have hdrawn := firstSalesDrawn_of_shares fractions_ordered autumn_consistent hattributed (by decide)
    (List.mem_singleton_self _) rfl (by decide) (by decide) (hagree.shares hattributed)
  unfold FirstSalesDrawn at hdrawn
  revert hdrawn
  decide

end RetailSegmentation.ExperimentResults
