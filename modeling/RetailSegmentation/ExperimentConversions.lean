import Mathlib.Data.Prod.Lex
import Mathlib.Order.BooleanAlgebra.Basic
import RetailSegmentation.ExperimentAssignment

/-! Conversions (`web/db/experiment_conversions.py`): which sales of an assigned customer count, how they are
recorded, and what each arm's outcome is. -/

namespace RetailSegmentation.ExperimentResults

open Grouping Experiments

/-- Microseconds. -/
abbrev Instant := ℤ

inductive ExperimentOrigin where
  | observed | seeded | injected
  deriving DecidableEq, Repr

structure ExperimentRow where
  experimentId : ℤ
  targetMetric : String
  conversionWindowDays : ℤ
  dataOrigin : ExperimentOrigin
  deriving DecidableEq, Repr

structure GroupRow where
  groupId : ℤ
  experimentId : ℤ
  kind : Kind
  name : String
  treatmentDescription : String
  deriving DecidableEq, Repr

structure AssignmentRow where
  assignmentId : ℤ
  experimentId : ℤ
  groupId : ℤ
  customerId : String
  assignedAt : Instant
  deriving DecidableEq, Repr

structure ExposureRow where
  assignmentId : ℤ
  exposedAt : Instant
  deriving DecidableEq, Repr

/-- A recorded conversion: an assignment and the sale that qualified. -/
structure Link where
  assignmentId : ℤ
  transactionId : ℤ
  deriving DecidableEq, Repr

structure SaleRow where
  transactionId : ℤ
  customerId : String
  occurredAt : Instant
  seeded : Bool
  deriving DecidableEq, Repr

structure Db where
  experiments : List ExperimentRow := []
  groups : List GroupRow := []
  assignments : List AssignmentRow := []
  exposures : List ExposureRow := []
  conversions : List Link := []
  sales : List SaleRow := []

/-- The primary keys, and an assignment's reference to its experiment. -/
structure Db.Keyed (db : Db) : Prop where
  experiments : (db.experiments.map ExperimentRow.experimentId).Nodup
  groups : (db.groups.map GroupRow.groupId).Nodup
  assignments : (db.assignments.map AssignmentRow.assignmentId).Nodup
  assignmentExperiments : ∀ a ∈ db.assignments, a.experimentId ∈ db.experiments.map ExperimentRow.experimentId

section Statements

-- `timestamptz + make_interval(days => ...)`, in the session's time zone.
variable (plusDays : Instant → ℤ → Instant)

/-- The sale is the assigned customer's own, from the assignment on and before their window ends. -/
def qualifies (a : AssignmentRow) (e : ExperimentRow) (t : SaleRow) : Bool :=
  t.customerId = a.customerId ∧ a.assignedAt ≤ t.occurredAt ∧
    t.occurredAt < plusDays a.assignedAt e.conversionWindowDays

variable (db : Db) (experimentId : ℤ)

def assigned : List (AssignmentRow × ExperimentRow) :=
  (join db.assignments db.experiments fun a e => e.experimentId = a.experimentId).filter fun r =>
    r.1.experimentId = experimentId

def qualifying : List Link :=
  (join (assigned db experimentId) db.sales fun r t => qualifies plusDays r.1 r.2 t).map fun r =>
    ⟨r.1.1.assignmentId, r.2.transactionId⟩

/-- `ON CONFLICT (assignment_id, transaction_id) DO NOTHING`. -/
def insertLink (conversions : List Link) (link : Link) : List Link :=
  if link ∈ conversions then conversions else conversions ++ [link]

/-- Attribute every qualifying sale not yet attributed; how many rows were added. -/
def evaluateConversions : Db × ℕ :=
  let conversions := (qualifying plusDays db experimentId).foldl insertLink db.conversions
  ({ db with conversions }, conversions.length - db.conversions.length)

/-- One arm's outcome counts. -/
structure GroupConversion where
  groupId : ℤ
  kind : Kind
  assigned : ℕ
  converted : ℕ
  pending : ℕ
  notConverted : ℕ
  unrecorded : ℕ
  name : String
  treatmentDescription : String
  deriving DecidableEq, Repr

/-- What has become of one assignment. -/
structure Outcome where
  groupId : ℤ
  converted : Bool
  open_ : Bool
  qualifies : Bool
  deriving DecidableEq, Repr

def recordedFor (a : AssignmentRow) : Bool := db.conversions.any fun c => c.assignmentId = a.assignmentId

def outcomeOf (now : Instant) (r : AssignmentRow × ExperimentRow) : Outcome where
  groupId := r.1.groupId
  converted := recordedFor db r.1
  open_ := now < plusDays r.1.assignedAt r.2.conversionWindowDays
  qualifies := db.sales.any fun t => ExperimentResults.qualifies plusDays r.1 r.2 t

/-- `count(*) FILTER (WHERE ...)`: a group without an assignment has one row, which no condition holds of. -/
def countWhere (p : Outcome → Bool) (rows : List (GroupRow × Option Outcome)) : ℕ :=
  (rows.filter fun r => r.2.any p).length

def groupConversion (key : ℤ × Kind × String × String) (rows : List (GroupRow × Option Outcome)) :
    GroupConversion where
  groupId := key.1
  kind := key.2.1
  assigned := countWhere (fun _ => true) rows
  converted := countWhere (fun o => o.converted) rows
  pending := countWhere (fun o => !o.converted && o.open_) rows
  notConverted := countWhere (fun o => !o.converted && !o.open_) rows
  unrecorded := countWhere (fun o => !o.converted && o.qualifies) rows
  name := key.2.2.1
  treatmentDescription := key.2.2.2

def groupRank (g : GroupConversion) : Bool ×ₗ ℤ := toLex (decide (g.kind ≠ .control), g.groupId)

def listGroupConversion (now : Instant) : List GroupConversion :=
  let outcomes := (assigned db experimentId).map (outcomeOf plusDays db now)
  let rows := leftJoin (db.groups.filter fun g => g.experimentId = experimentId) outcomes fun g o =>
    o.groupId = g.groupId
  sortBy groupRank
    (groupBy (fun r => (r.1.groupId, r.1.kind, r.1.name, r.1.treatmentDescription)) groupConversion rows)

/-! ### Exposures -/

/-- One arm's customers exposed, and how many of them bought within the window counted from their first
exposure. -/
structure ExposedConversion where
  groupId : ℤ
  kind : Kind
  exposed : ℕ
  converted : ℕ
  deriving DecidableEq, Repr

def firstExposure (a : AssignmentRow) : Option Instant :=
  ((db.exposures.filter fun x => x.assignmentId = a.assignmentId).map ExposureRow.exposedAt).min?

def exposedConverted (r : AssignmentRow × ExperimentRow) : Bool :=
  (firstExposure db r.1).any fun firstAt => db.sales.any fun t =>
    t.customerId = r.1.customerId ∧ firstAt ≤ t.occurredAt ∧
      t.occurredAt < plusDays firstAt r.2.conversionWindowDays

def exposedConversion (key : ℤ × Kind) (rows : List (GroupRow × Option (ℤ × Bool × Bool))) :
    ExposedConversion where
  groupId := key.1
  kind := key.2
  exposed := (rows.filter fun r => r.2.any fun flags => flags.2.1).length
  converted := (rows.filter fun r => r.2.any fun flags => flags.2.2).length

def listExposedConversion : List ExposedConversion :=
  let flags := (assigned db experimentId).map fun r =>
    (r.1.groupId, db.exposures.any fun x => x.assignmentId = r.1.assignmentId, exposedConverted plusDays db r)
  let rows := leftJoin (db.groups.filter fun g => g.experimentId = experimentId) flags fun g f => f.1 = g.groupId
  sortBy (fun g => toLex (decide (g.kind ≠ .control), g.groupId))
    (groupBy (fun r => (r.1.groupId, r.1.kind)) exposedConversion rows)

end Statements

/-! ### What is recorded -/

theorem mem_insertLink {conversions : List Link} {link link' : Link} :
    link' ∈ insertLink conversions link ↔ link' ∈ conversions ∨ link' = link := by
  unfold insertLink
  split_ifs with hmem
  · exact ⟨Or.inl, fun h => h.elim id fun heq => heq ▸ hmem⟩
  · rw [List.mem_append, List.mem_singleton]

theorem mem_foldl_insertLink {links conversions : List Link} {link : Link} :
    link ∈ links.foldl insertLink conversions ↔ link ∈ conversions ∨ link ∈ links := by
  induction links generalizing conversions with
  | nil => simp
  | cons first links ih => rw [List.foldl_cons, ih, mem_insertLink, List.mem_cons, or_assoc]

theorem foldl_insertLink_recorded {links conversions : List Link} (h : ∀ link ∈ links, link ∈ conversions) :
    links.foldl insertLink conversions = conversions := by
  induction links with
  | nil => rfl
  | cons first links ih =>
      have hfirst : insertLink conversions first = conversions := if_pos (h first List.mem_cons_self)
      rw [List.foldl_cons, hfirst]
      exact ih fun link hlink => h link (List.mem_cons_of_mem first hlink)

section Recorded

variable {plusDays : Instant → ℤ → Instant} {db : Db} {experimentId : ℤ}

theorem mem_assigned {r : AssignmentRow × ExperimentRow} : r ∈ assigned db experimentId ↔
    r.1 ∈ db.assignments ∧ r.2 ∈ db.experiments ∧ r.2.experimentId = r.1.experimentId ∧
      r.1.experimentId = experimentId := by
  unfold assigned
  rw [List.mem_filter, mem_join, decide_eq_true_eq, decide_eq_true_eq]
  tauto

theorem mem_qualifying {link : Link} : link ∈ qualifying plusDays db experimentId ↔
    ∃ r ∈ assigned db experimentId, ∃ t ∈ db.sales,
      qualifies plusDays r.1 r.2 t = true ∧ link = ⟨r.1.assignmentId, t.transactionId⟩ := by
  unfold qualifying
  rw [List.mem_map]
  constructor
  · rintro ⟨⟨r, t⟩, hrow, rfl⟩
    obtain ⟨hr, ht, hq⟩ := mem_join.mp hrow
    exact ⟨r, hr, t, ht, hq, rfl⟩
  · rintro ⟨r, hr, t, ht, hq, rfl⟩
    exact ⟨(r, t), mem_join.mpr ⟨hr, ht, hq⟩, rfl⟩

theorem mem_evaluateConversions {link : Link} : link ∈ (evaluateConversions plusDays db experimentId).1.conversions ↔
    link ∈ db.conversions ∨ link ∈ qualifying plusDays db experimentId :=
  mem_foldl_insertLink

theorem evaluateConversions_again :
    evaluateConversions plusDays (evaluateConversions plusDays db experimentId).1 experimentId =
      ((evaluateConversions plusDays db experimentId).1, 0) := by
  have hlinks : ∀ link ∈ qualifying plusDays (evaluateConversions plusDays db experimentId).1 experimentId,
      link ∈ (evaluateConversions plusDays db experimentId).1.conversions :=
    fun link hlink => mem_evaluateConversions.mpr (.inr hlink)
  have hsame := foldl_insertLink_recorded hlinks
  simp only [evaluateConversions] at hsame ⊢
  rw [hsame, Nat.sub_self]

end Recorded

/-! ### What is counted -/

section Counted

variable {plusDays : Instant → ℤ → Instant} {db : Db} {experimentId : ℤ} {now : Instant}

theorem countWhere_outer (p : Outcome → Bool) (group : GroupRow) (outcomes : List Outcome) :
    countWhere p (outer group outcomes) = (outcomes.filter p).length :=
  length_filter_outer group outcomes p

theorem countWhere_partition (rows : List (GroupRow × Option Outcome)) :
    countWhere (fun _ => true) rows = countWhere (fun o => o.converted) rows +
      countWhere (fun o => !o.converted && o.open_) rows + countWhere (fun o => !o.converted && !o.open_) rows := by
  unfold countWhere
  induction rows with
  | nil => rfl
  | cons row rows ih =>
      obtain ⟨group, _ | ⟨groupId, converted, open_, qualifies⟩⟩ := row
      · exact ih
      · cases converted
        · cases open_
          · simp only [List.filter_cons, Option.any_some, Bool.not_false, Bool.and_self, Bool.and_false, if_true,
              List.length_cons, Bool.false_eq_true, if_false, ih]
            omega
          · simp only [List.filter_cons, Option.any_some, Bool.not_false, Bool.not_true, Bool.and_true,
              Bool.and_false,
              if_true, List.length_cons, Bool.false_eq_true, if_false, ih]
            omega
        · simp only [List.filter_cons, Option.any_some, Bool.not_true, Bool.false_and, if_true, List.length_cons,
            Bool.false_eq_true, if_false, ih]
          omega

theorem exists_of_mem_listGroupConversion {g : GroupConversion}
    (hg : g ∈ listGroupConversion plusDays db experimentId now) : ∃ key rows, g = groupConversion key rows := by
  obtain ⟨row, -, rfl⟩ := mem_groupBy.mp (mem_sortBy.mp hg)
  exact ⟨_, _, rfl⟩

theorem partition_of_mem {g : GroupConversion} (hg : g ∈ listGroupConversion plusDays db experimentId now) :
    g.assigned = g.converted + g.pending + g.notConverted := by
  obtain ⟨key, rows, rfl⟩ := exists_of_mem_listGroupConversion hg
  exact countWhere_partition rows

theorem map_fst_assigned (hkeyed : db.Keyed) :
    (assigned db experimentId).map Prod.fst = db.assignments.filter fun a => a.experimentId = experimentId := by
  unfold assigned
  rw [filter_join fun a : AssignmentRow => decide (a.experimentId = experimentId)]
  exact map_fst_join hkeyed.experiments fun a ha => hkeyed.assignmentExperiments a (List.mem_of_mem_filter ha)

/-- An arm's own assignments. -/
def Db.assignmentsOf (db : Db) (experimentId groupId : ℤ) : List AssignmentRow :=
  db.assignments.filter fun a => a.experimentId = experimentId ∧ a.groupId = groupId

theorem count_outcomes (hkeyed : db.Keyed) (groupId : ℤ) {p : Outcome → Bool} {q : AssignmentRow → Bool}
    (hpq : ∀ r, p (outcomeOf plusDays db now r) = q r.1) :
    ((((assigned db experimentId).map (outcomeOf plusDays db now)).filter fun o => o.groupId = groupId).filter p).length =
      ((db.assignmentsOf experimentId groupId).filter q).length := by
  have hfst : (((assigned db experimentId).filter fun r => q r.1 && decide (r.1.groupId = groupId)).map Prod.fst).length =
      ((db.assignmentsOf experimentId groupId).filter q).length := by
    rw [map_fst_filter (q := fun a => q a && decide (a.groupId = groupId)) fun _ _ => rfl, map_fst_assigned hkeyed,
      Db.assignmentsOf, List.filter_filter, List.filter_filter]
    congr 1
    refine List.filter_congr fun a _ => ?_
    rw [Bool.decide_and, Bool.and_assoc, Bool.and_comm (decide (a.experimentId = experimentId))]
  rw [← hfst, List.length_map, List.filter_filter, List.filter_map, List.length_map]
  congr 1
  refine List.filter_congr fun r _ => ?_
  rw [Function.comp_apply, hpq]
  rfl

/-- Each arm's customers and the converted among them are counted by its own assignments. -/
theorem counts_of_mem (hkeyed : db.Keyed) {g : GroupConversion}
    (hg : g ∈ listGroupConversion plusDays db experimentId now) :
    g.assigned = (db.assignmentsOf experimentId g.groupId).length ∧
      g.converted = ((db.assignmentsOf experimentId g.groupId).filter (recordedFor db)).length := by
  obtain ⟨⟨group, met⟩, hrow, rfl⟩ := mem_groupBy.mp (mem_sortBy.mp hg)
  have hgroup : group ∈ db.groups.filter fun g => g.experimentId = experimentId := by
    cases met with
    | none => exact (mem_leftJoin_none.mp hrow).1
    | some o => exact (mem_leftJoin_some.mp hrow).1
  have hkeys : ((db.groups.filter fun g => g.experimentId = experimentId).map fun g =>
      (g.groupId, g.kind, g.name, g.treatmentDescription)).Nodup := by
    have hids := (List.filter_sublist (p := fun g => decide (g.experimentId = experimentId)) (l := db.groups)).map
      GroupRow.groupId |>.nodup hkeyed.groups
    refine List.Nodup.of_map Prod.fst ?_
    rwa [List.map_map]
  rw [filter_leftJoin_key hkeys hgroup]
  refine ⟨?_, ?_⟩
  · refine (countWhere_outer _ _ _).trans ((count_outcomes hkeyed group.groupId (q := fun _ => true) fun _ => rfl).trans ?_)
    rw [List.filter_true]
    rfl
  · exact (countWhere_outer _ _ _).trans (count_outcomes hkeyed group.groupId fun _ => rfl)

end Counted

end RetailSegmentation.ExperimentResults
