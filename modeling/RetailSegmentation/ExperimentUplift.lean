import RetailSegmentation.ExperimentConversions

/-! Intent-to-treat uplift (`web/services/experiment_uplift.py`): every treatment arm's conversion rate against the
control's, over all their assigned customers. The arithmetic of floats is a parameter. -/

namespace RetailSegmentation.ExperimentResults

open Grouping Experiments

/-! ### Two proportions -/

/-- The arithmetic of floats: `ofInt` is the conversion of an integer operand, `quotient` the division of two
integers, and `sqrt` refuses what has no root. -/
structure FloatArithmetic (F : Type) where
  ofInt : ℤ → F
  quotient : ℤ → ℤ → F
  add : F → F → F
  sub : F → F → F
  mul : F → F → F
  div : F → F → F
  abs : F → F
  erfc : F → F
  less : F → F → Bool
  sqrt : F → Except String F
  zCritical : F
  alpha : F

/-- What the measurement relies on: a proportion and what it leaves of one are not negative, what is not
negative stays so under sums, products and division by a count, and has a root. -/
structure FloatArithmetic.Lawful {F : Type} (arith : FloatArithmetic F) (nonneg : F → Prop) : Prop where
  ofInt : ∀ n, 0 ≤ n → nonneg (arith.ofInt n)
  proportion : ∀ part whole, 0 ≤ part → part ≤ whole → 0 < whole →
    nonneg (arith.quotient part whole) ∧ nonneg (arith.sub (arith.ofInt 1) (arith.quotient part whole))
  add : ∀ x y, nonneg x → nonneg y → nonneg (arith.add x y)
  mul : ∀ x y, nonneg x → nonneg y → nonneg (arith.mul x y)
  div : ∀ x n, nonneg x → 0 < n → nonneg (arith.div x (arith.ofInt n))
  sqrt : ∀ x, nonneg x → ∃ root, arith.sqrt x = .ok root

inductive UpliftError where
  | experimentNotFound (experimentId : ℤ)
  | upliftRefused (message : String)
  | conversionNotEvaluated (message : String)
  | valueError (message : String)
  deriving DecidableEq, Repr

/-- A treatment proportion against a control proportion. -/
structure Comparison (F : Type) where
  controlN : ℤ
  controlConverted : ℤ
  treatmentN : ℤ
  treatmentConverted : ℤ
  controlRate : F
  treatmentRate : F
  uplift : F
  ciLow : F
  ciHigh : F
  z : F
  pValue : F
  deriving DecidableEq, Repr

/-- `if condition: raise error`. -/
def raiseIf (condition : Prop) [Decidable condition] (error : UpliftError) : Except UpliftError Unit :=
  if condition then throw error else return ()

section Arms

variable {F : Type} (arith : FloatArithmetic F)

def Comparison.significant (c : Comparison F) : Bool := arith.less c.pValue arith.alpha

def Comparison.excludesZero (c : Comparison F) : Bool :=
  arith.less (arith.ofInt 0) c.ciLow || arith.less c.ciHigh (arith.ofInt 0)

/-- `math.sqrt`. -/
def root (x : F) : Except UpliftError F := (arith.sqrt x).mapError .valueError

/-- The difference, its interval from the unpooled standard error, and the two-sided test from the pooled one. -/
def compareProportions (controlN controlConverted treatmentN treatmentConverted : ℤ) :
    Except UpliftError (Comparison F) := do
  raiseIf (controlN ≤ 0 ∨ treatmentN ≤ 0) (.valueError "both arms need at least one customer")
  raiseIf (¬ (0 ≤ controlConverted ∧ controlConverted ≤ controlN))
    (.valueError "control conversions exceed its customers")
  raiseIf (¬ (0 ≤ treatmentConverted ∧ treatmentConverted ≤ treatmentN))
    (.valueError "treatment conversions exceed its customers")
  let one := arith.ofInt 1
  let pControl := arith.quotient controlConverted controlN
  let pTreatment := arith.quotient treatmentConverted treatmentN
  let uplift := arith.sub pTreatment pControl
  let se ← root arith (arith.add
    (arith.div (arith.mul pControl (arith.sub one pControl)) (arith.ofInt controlN))
    (arith.div (arith.mul pTreatment (arith.sub one pTreatment)) (arith.ofInt treatmentN)))
  let pooled := arith.quotient (controlConverted + treatmentConverted) (controlN + treatmentN)
  let pooledSe ← root arith (arith.mul (arith.mul pooled (arith.sub one pooled))
    (arith.add (arith.quotient 1 controlN) (arith.quotient 1 treatmentN)))
  let z := if arith.less (arith.ofInt 0) pooledSe then arith.div uplift pooledSe else arith.ofInt 0
  let rootTwo ← root arith (arith.ofInt 2)
  return {
    controlN, controlConverted, treatmentN, treatmentConverted
    controlRate := pControl
    treatmentRate := pTreatment
    uplift
    ciLow := arith.sub uplift (arith.mul arith.zCritical se)
    ciHigh := arith.add uplift (arith.mul arith.zCritical se)
    z
    pValue := arith.erfc (arith.div (arith.abs z) rootTwo) }

/-! ### Arms -/

structure ArmResult (F : Type) where
  groupId : ℤ
  comparison : Comparison F
  name : String
  treatmentDescription : String
  deriving DecidableEq, Repr

def armResult (control g : GroupConversion) : Except UpliftError (ArmResult F) := do
  let comparison ← compareProportions arith control.assigned control.converted g.assigned g.converted
  return { groupId := g.groupId, comparison, name := g.name, treatmentDescription := g.treatmentDescription }

def treatmentsOf (groups : List GroupConversion) : List GroupConversion :=
  groups.filter fun g => g.kind = .treatment

def controlOf (groups : List GroupConversion) : Option GroupConversion :=
  (groups.find? fun g => g.kind = .control).filter fun g => g.assigned ≠ 0

def unrecordedMessage (experimentId : ℤ) (unrecorded : ℕ) : String :=
  let noun := if unrecorded = 1 then "customer" else "customers"
  s!"Experiment {experimentId} has {unrecorded} assigned {noun} with a qualifying " ++
    "sale that has not been recorded yet. Evaluate conversion before measuring uplift."

def emptyTreatmentsMessage (experimentId : ℤ) (emptyTreatments : List ℤ) : String :=
  let groupWord := if emptyTreatments.length = 1 then "group" else "groups"
  let groupIds := ", ".intercalate (emptyTreatments.map toString)
  let verb := if emptyTreatments.length = 1 then "has" else "have"
  s!"Experiment {experimentId}'s treatment {groupWord} {groupIds} {verb} no assigned customers."

/-- Every treatment arm against the control, over all assigned customers. -/
def compareArms (experimentId : ℤ) (groups : List GroupConversion) :
    Except UpliftError (GroupConversion × List (ArmResult F)) := do
  let unrecorded := (groups.map GroupConversion.unrecorded).sum
  raiseIf (unrecorded ≠ 0) (.conversionNotEvaluated (unrecordedMessage experimentId unrecorded))
  let treatments := treatmentsOf groups
  match controlOf groups with
  | none => throw (.upliftRefused s!"Experiment {experimentId}'s control group has no assigned customers.")
  | some control =>
    let emptyTreatments := (treatments.filter fun g => g.assigned = 0).map GroupConversion.groupId
    raiseIf (emptyTreatments ≠ []) (.upliftRefused (emptyTreatmentsMessage experimentId emptyTreatments))
    let arms ← treatments.mapM (armResult arith control)
    raiseIf (arms.length = 0) (.upliftRefused s!"Experiment {experimentId} has no assigned treatment customers.")
    return (control, arms)

/-! ### Measuring -/

/-- What a measurement reads of the experiment. -/
structure Experiment where
  experimentId : ℤ
  targetMetric : String
  conversionWindowDays : ℤ
  dataOrigin : ExperimentOrigin
  controlGroups : ℕ
  treatmentGroups : ℕ
  assignments : ℕ
  seededConversion : Bool
  deriving DecidableEq, Repr

def seededConversion (db : Db) (experimentId : ℤ) : Bool :=
  db.assignments.any fun a => a.experimentId = experimentId && db.conversions.any fun c =>
    c.assignmentId = a.assignmentId && db.sales.any fun t => t.transactionId = c.transactionId && t.seeded

def getExperiment (db : Db) (experimentId : ℤ) : Option Experiment :=
  (db.experiments.find? fun e => e.experimentId = experimentId).map fun e =>
    { experimentId := e.experimentId
      targetMetric := e.targetMetric
      conversionWindowDays := e.conversionWindowDays
      dataOrigin := e.dataOrigin
      controlGroups := (db.groups.filter fun g => g.experimentId = experimentId ∧ g.kind = .control).length
      treatmentGroups := (db.groups.filter fun g => g.experimentId = experimentId ∧ g.kind = .treatment).length
      assignments := (db.assignments.filter fun a => a.experimentId = experimentId).length
      seededConversion := seededConversion db experimentId }

structure MeasuredUplift (F : Type) where
  experiment : Experiment
  control : GroupConversion
  treatments : List GroupConversion
  arms : List (ArmResult F)
  measuredAt : Instant
  exposed : List ExposedConversion := []
  deriving DecidableEq, Repr

def isSynthetic (experiment : Experiment) : Bool :=
  experiment.dataOrigin ≠ .observed || experiment.seededConversion

def MeasuredUplift.label (measured : MeasuredUplift F) : Option String :=
  if isSynthetic measured.experiment then some "Synthetic" else none

def MeasuredUplift.pending (measured : MeasuredUplift F) : ℕ :=
  measured.control.pending + (measured.treatments.map GroupConversion.pending).sum

/-- Why uplift cannot be measured from the experiment's setup alone. -/
def refusalBeforeCounts (experimentId : ℤ) (controlGroups : ℕ) (targetMetric : String) (assignments : ℕ) :
    Option String :=
  if controlGroups < 1 then
    some (s!"Experiment {experimentId} has no control group. Control-relative " ++
      "uplift cannot be computed; never against everyone else.")
  else if targetMetric ≠ "CONVERSION" then
    some (s!"Experiment {experimentId} is measured on {targetMetric}. " ++
      "Only the conversion rate is measured (ADR-0053).")
  else if assignments = 0 then
    some (s!"Experiment {experimentId} has no assignments, so there is nothing " ++ "to compare.")
  else none

/-- Measure every treatment arm against the control. -/
def measureUplift (plusDays : Instant → ℤ → Instant) (clock : Instant) (db : Db) (experimentId : ℤ)
    (now : Option Instant) : Except UpliftError (MeasuredUplift F) := do
  match getExperiment db experimentId with
  | none => throw (.experimentNotFound experimentId)
  | some experiment =>
    match refusalBeforeCounts experimentId experiment.controlGroups experiment.targetMetric experiment.assignments with
    | some reason => throw (.upliftRefused reason)
    | none =>
      let moment := now.getD clock
      let groups := listGroupConversion plusDays db experimentId moment
      let compared ← compareArms arith experimentId groups
      let exposed := (listExposedConversion plusDays db experimentId).filter fun e => e.kind = .treatment
      return { experiment, control := compared.1, treatments := treatmentsOf groups, arms := compared.2,
               measuredAt := moment, exposed }

end Arms

/-! ### No count that is listed is out of bounds -/

section Bounds

variable {F : Type} {arith : FloatArithmetic F} {nonneg : F → Prop} (hlawful : arith.Lawful nonneg)

theorem raiseIf_ok {condition : Prop} [Decidable condition] {error : UpliftError} (h : ¬ condition) :
    raiseIf condition error = .ok () :=
  if_neg h

theorem raiseIf_error {condition : Prop} [Decidable condition] {error : UpliftError} (h : condition) :
    raiseIf condition error = .error error :=
  if_pos h

include hlawful

theorem root_ok {x : F} (hx : nonneg x) : ∃ r, root arith x = .ok r := by
  obtain ⟨r, hr⟩ := hlawful.sqrt x hx
  refine ⟨r, ?_⟩
  unfold root
  rw [hr]
  rfl

theorem variance_nonneg (part whole : ℤ) (hpart : 0 ≤ part) (hle : part ≤ whole) (hwhole : 0 < whole) :
    nonneg (arith.mul (arith.quotient part whole) (arith.sub (arith.ofInt 1) (arith.quotient part whole))) := by
  obtain ⟨hrate, hrest⟩ := hlawful.proportion part whole hpart hle hwhole
  exact hlawful.mul _ _ hrate hrest

theorem compareProportions_ok {controlN controlConverted treatmentN treatmentConverted : ℤ}
    (hcontrol : 0 < controlN)
    (htreatment : 0 < treatmentN) (hc : 0 ≤ controlConverted ∧ controlConverted ≤ controlN)
    (ht : 0 ≤ treatmentConverted ∧ treatmentConverted ≤ treatmentN) :
    ∃ c, compareProportions arith controlN controlConverted treatmentN treatmentConverted = .ok c := by
  have hvc := hlawful.div _ controlN (variance_nonneg hlawful _ _ hc.1 hc.2 hcontrol) hcontrol
  have hvt := hlawful.div _ treatmentN (variance_nonneg hlawful _ _ ht.1 ht.2 htreatment) htreatment
  have hpooled := variance_nonneg hlawful (controlConverted + treatmentConverted)
    (controlN + treatmentN) (by omega)
    (by omega) (by omega)
  have hic := (hlawful.proportion 1 controlN (by omega) (by omega) hcontrol).1
  have hit := (hlawful.proportion 1 treatmentN (by omega) (by omega) htreatment).1
  obtain ⟨se, hse⟩ := root_ok hlawful (hlawful.add _ _ hvc hvt)
  obtain ⟨pooledSe, hpooledSe⟩ := root_ok hlawful (hlawful.mul _ _ hpooled (hlawful.add _ _ hic hit))
  obtain ⟨rootTwo, hrootTwo⟩ := root_ok hlawful (hlawful.ofInt 2 (by omega))
  unfold compareProportions
  simp only [raiseIf_ok (show ¬ (controlN ≤ 0 ∨ treatmentN ≤ 0) by omega), raiseIf_ok (not_not.mpr hc),
    raiseIf_ok (not_not.mpr ht), hse, hpooledSe, hrootTwo, bind, Except.bind]
  exact ⟨_, rfl⟩

omit hlawful in
theorem converted_le_assigned {plusDays : Instant → ℤ → Instant} {db : Db} {experimentId : ℤ} {now : Instant}
    {g : GroupConversion} (hg : g ∈ listGroupConversion plusDays db experimentId now) :
      g.converted ≤ g.assigned := by
  have hpart := partition_of_mem hg
  omega

theorem armResult_ok {control g : GroupConversion} (hcontrol : control.assigned ≠ 0) (hg : g.assigned ≠ 0)
    (hc : control.converted ≤ control.assigned) (ht : g.converted ≤ g.assigned) :
    ∃ arm, armResult arith control g = .ok arm := by
  have hcontrol' : 0 < (control.assigned : ℤ) := by omega
  have hg' : 0 < (g.assigned : ℤ) := by omega
  have hc' : 0 ≤ (control.converted : ℤ) ∧ (control.converted : ℤ) ≤ control.assigned := by omega
  have ht' : 0 ≤ (g.converted : ℤ) ∧ (g.converted : ℤ) ≤ g.assigned := by omega
  obtain ⟨c, hcompared⟩ := compareProportions_ok hlawful hcontrol' hg' hc' ht'
  unfold armResult
  rw [hcompared]
  exact ⟨_, rfl⟩

/-- Counts whose converted are among the assigned are compared or refused, never out of bounds. -/
theorem compareArms_settled (experimentId : ℤ) {groups : List GroupConversion}
    (hgroups : ∀ g ∈ groups, g.converted ≤ g.assigned) :
    (∃ compared, compareArms arith experimentId groups = .ok compared) ∨
      ∃ message, compareArms arith experimentId groups = .error (.upliftRefused message) ∨
        compareArms arith experimentId groups = .error (.conversionNotEvaluated message) := by
  unfold compareArms
  by_cases hunrecorded : (groups.map GroupConversion.unrecorded).sum ≠ 0
  · simp only [raiseIf_error hunrecorded, bind, Except.bind]
    exact .inr ⟨_, .inr rfl⟩
  simp only [raiseIf_ok hunrecorded, bind, Except.bind]
  cases hcontrol : controlOf groups with
  | none => exact .inr ⟨_, .inl rfl⟩
  | some control =>
      obtain ⟨hfound, hassigned⟩ := Option.filter_eq_some_iff.mp hcontrol
      have hbound := hgroups control (List.mem_of_find?_eq_some hfound)
      by_cases hempty : ((treatmentsOf groups).filter fun g => g.assigned = 0).map GroupConversion.groupId ≠ []
      · simp only [raiseIf_error hempty]
        exact .inr ⟨_, .inl rfl⟩
      have hall : ∀ g ∈ treatmentsOf groups, ∃ arm, armResult arith control g = .ok arm := by
        intro g hg
        have hne : g.assigned ≠ 0 := fun hzero => hempty (List.ne_nil_of_mem
          (List.mem_map_of_mem (List.mem_filter.mpr ⟨hg, decide_eq_true hzero⟩)))
        exact armResult_ok hlawful (by simpa using hassigned) hne hbound (hgroups g (List.mem_of_mem_filter hg))
      obtain ⟨arms, harms, -⟩ := exists_mapM hall
      simp only [raiseIf_ok hempty, harms]
      by_cases hnone : arms.length = 0
      · simp only [raiseIf_error hnone]
        exact .inr ⟨_, .inl rfl⟩
      · simp only [raiseIf_ok hnone]
        exact .inl ⟨_, rfl⟩

theorem compareArms_bounded (experimentId : ℤ) {groups : List GroupConversion}
    (hgroups : ∀ g ∈ groups, g.converted ≤ g.assigned) (message : String) :
    compareArms arith experimentId groups ≠ .error (.valueError message) := by
  intro herror
  obtain ⟨compared, hok⟩ | ⟨reason, hrefused | hrefused⟩ := compareArms_settled hlawful experimentId hgroups
  · cases hok.symm.trans herror
  · cases hrefused.symm.trans herror
  · cases hrefused.symm.trans herror

end Bounds

end RetailSegmentation.ExperimentResults
