import Mathlib.Data.String.Basic
import RetailSegmentation.IndexedTables
import RetailSegmentation.RoundRobin

/-! Group assignment (`web/services/experiments.py`): the campaign's population is shuffled by a generator
seeded on the experiment and dealt into its groups. -/

namespace RetailSegmentation.Experiments

open Grouping Indexed RoundRobin

inductive Kind where
  | control | treatment
  deriving DecidableEq, Repr

def Kind.title : Kind → String
  | .control => "Control"
  | .treatment => "Treatment"

structure Arm where
  groupId : ℤ
  kind : Kind
  customers : List String
  name : String := ""
  treatmentDescription : String := ""
  deriving DecidableEq, Repr

inductive Raised where
  | experimentNotFound (experimentId : ℤ)
  | assignmentRefused (message : String)
  | zeroDivision
  | keyError (groupId : ℤ)
  deriving DecidableEq, Repr

/-- What the generator seeded on an experiment draws for each place of a list of some length. -/
abbrev Generator := (experimentId : ℤ) → (length : ℕ) → (i : ℕ) → Fin (i + 1)

def itemOf (dealt : Dict ℤ (List String)) (groupId : ℤ) : Except Raised (List String) :=
  (dealt.item groupId).mapError .keyError

def dealOne (groups : List (ℤ × Kind)) (dealt : Dict ℤ (List String)) (card : String × ℕ) :
    Except Raised (Dict ℤ (List String)) := do
  match groups[card.2 % groups.length]? with
  | none => throw .zeroDivision
  | some group =>
    let customers ← itemOf dealt group.1
    return dealt.put group.1 (customers ++ [card.1])

/-- Deal the population into the groups, in their order. -/
def split (generator : Generator) (experimentId : ℤ) (customers : List String) (groups : List (ℤ × Kind)) :
    Except Raised (List Arm) := do
  let order := shuffle (generator experimentId customers.length) (sortBy id customers)
  let dealt ← order.zipIdx.foldlM (dealOne groups) (Dict.of (groups.map Prod.fst) fun _ => [])
  groups.mapM fun group => do
    let customers ← itemOf dealt group.1
    return { groupId := group.1, kind := group.2, customers }

/-! ### Planning -/

/-- What a plan reads of the experiment. -/
structure Experiment where
  experimentId : ℤ
  campaignId : Option ℤ
  controlGroups : ℕ
  treatmentGroups : ℕ
  assignments : ℕ
  deriving DecidableEq, Repr

inductive CampaignStatus where
  | draft | active | finished | cancelled
  deriving DecidableEq, Repr

def CampaignStatus.lower : CampaignStatus → String
  | .draft => "draft"
  | .active => "active"
  | .finished => "finished"
  | .cancelled => "cancelled"

/-- What a plan reads of the campaign. -/
structure Campaign where
  labelCode : String
  status : CampaignStatus
  deriving DecidableEq, Repr

structure GroupDefinition where
  groupId : ℤ
  name : String
  treatmentDescription : String
  deriving DecidableEq, Repr

structure AssignmentPlan where
  experiment : Experiment
  labelCode : String
  arms : List Arm
  deriving DecidableEq, Repr

/-- The statements behind a plan. -/
structure Reads where
  getExperiment : ℤ → Option Experiment
  getCampaign : ℤ → Option Campaign
  readTargetPopulation : String → List String
  listGroups : ℤ → List (ℤ × Kind)
  listGroupDefinitions : ℤ → List GroupDefinition

def refuse {α : Type} (message : String) : Except Raised α := throw (.assignmentRefused message)

def refuseIf (condition : Prop) [Decidable condition] (message : String) : Except Raised Unit :=
  if condition then refuse message else return ()

def require {α : Type} (found : Option α) (error : Raised) : Except Raised α :=
  match found with
  | some value => return value
  | none => throw error

/-- An arm with its group's name and description; the last definition of a group counts. -/
def Arm.described (definitions : List GroupDefinition) (arm : Arm) : Arm :=
  match definitions.reverse.find? fun definition => definition.groupId = arm.groupId with
  | some definition => { arm with name := definition.name, treatmentDescription := definition.treatmentDescription }
  | none => { arm with name := arm.kind.title, treatmentDescription := "" }

def plan (reads : Reads) (generator : Generator) (experimentId : ℤ) : Except Raised AssignmentPlan := do
  let experiment ← require (reads.getExperiment experimentId) (.experimentNotFound experimentId)
  refuseIf (experiment.assignments ≠ 0)
    (s!"Experiment {experimentId} already has {experiment.assignments} " ++
      "assignments. Its arms were fixed when they were written (ADR-0019).")
  let campaignId ← require experiment.campaignId (.assignmentRefused
    (s!"Experiment {experimentId} has no campaign, so there is no population " ++
      "to assign. Attach it to a campaign first."))
  let campaign ← require (reads.getCampaign campaignId) (.assignmentRefused
    (s!"Campaign {campaignId} is gone. Customers are assigned " ++
      "once it is active, when its target label can no longer change."))
  refuseIf (campaign.status ≠ .active)
    (s!"Campaign {campaignId} is {campaign.status.lower}. Customers are assigned " ++
      "once it is active, when its target label can no longer change.")
  refuseIf (experiment.controlGroups = 0 ∧ experiment.treatmentGroups ≠ 2)
    (s!"Experiment {experimentId} has no control group and must have " ++ "exactly two treatment groups.")
  refuseIf (experiment.treatmentGroups < 1) s!"Experiment {experimentId} has no treatment group to assign into."
  let customers := reads.readTargetPopulation campaign.labelCode
  refuseIf (customers = [])
    (s!"No customer currently holds the label {campaign.labelCode}, so there " ++ "is nobody to assign.")
  let groups := reads.listGroups experimentId
  refuseIf (customers.length < groups.length)
    (s!"Experiment {experimentId} needs at least {groups.length} customers " ++
      s!"to fill its {groups.length} groups evenly; only {customers.length} " ++
      "customer population is available. Nothing was written.")
  let arms ← split generator experimentId customers groups
  return ⟨experiment, campaign.labelCode, arms.map (Arm.described (reads.listGroupDefinitions experimentId))⟩

/-! ### Dealing -/

def handsOf (groups : List (ℤ × Kind)) (order : List String) : List Arm :=
  groups.zipIdx.map fun entry =>
    { groupId := entry.1.1, kind := entry.1.2, customers := hand groups.length entry.2 order }

section Deal

variable {groups : List (ℤ × Kind)} (hids : (groups.map Prod.fst).Nodup)

def turn (groups : List (ℤ × Kind)) (position : ℕ) : Option ℤ := (groups[position % groups.length]?).map Prod.fst

include hids

theorem dealOne_ok (hgroups : groups ≠ []) (hands : ℤ → List String) (card : String × ℕ) :
    ∃ groupId ∈ groups.map Prod.fst,
    turn groups card.2 = some groupId ∧ dealOne groups (Dict.of (groups.map Prod.fst) hands) card =
      .ok (Dict.of (groups.map Prod.fst) (Function.update hands groupId (hands groupId ++ [card.1]))) := by
  have hlt : card.2 % groups.length < groups.length := Nat.mod_lt _ (List.length_pos_iff.mpr hgroups)
  have hturn := List.getElem?_eq_getElem hlt
  have hmem : groups[card.2 % groups.length].1 ∈ groups.map Prod.fst := List.mem_map_of_mem (List.getElem_mem hlt)
  refine ⟨_, hmem, ?_, ?_⟩
  · unfold turn
    rw [hturn]
    rfl
  · simp only [dealOne, hturn, itemOf, item_of hids hmem, Except.mapError, bind, Except.bind]
    rw [put_of hids hmem]
    rfl

theorem deal_ok (hgroups : groups ≠ []) (cards : List (String × ℕ)) (hands : ℤ → List String) :
    cards.foldlM (dealOne groups) (Dict.of (groups.map Prod.fst) hands) = .ok (Dict.of (groups.map Prod.fst) fun groupId =>
      hands groupId ++ (cards.filter fun card => turn groups card.2 = some groupId).map Prod.fst) := by
  induction cards generalizing hands with
  | nil => simp only [List.filter_nil, List.map_nil, List.append_nil]; rfl
  | cons card cards ih =>
      obtain ⟨groupId, -, hturn, hdealt⟩ := dealOne_ok hids hgroups hands card
      rw [List.foldlM_cons, hdealt]
      change List.foldlM _ _ _ = _
      rw [ih]
      congr 2
      funext other
      by_cases hother : other = groupId
      · subst hother
        simp [hturn]
      · have hnot : ¬ turn groups card.2 = some other := fun h => hother (Option.some.inj (h.symm.trans hturn))
        simp [Function.update_of_ne hother, hnot]

theorem turn_iff {g : ℕ} {group : ℤ × Kind} (hgroup : groups[g]? = some group) (position : ℕ) :
    turn groups position = some group.1 ↔ position % groups.length = g := by
  obtain ⟨hg, rfl⟩ := List.getElem?_eq_some_iff.mp hgroup
  have hlt : position % groups.length < groups.length := Nat.mod_lt _ (Nat.zero_lt_of_lt hg)
  unfold turn
  rw [List.getElem?_eq_getElem hlt, Option.map_some, Option.some_inj]
  have hinj := @List.Nodup.getElem_inj_iff _ _ hids (position % groups.length) (by rwa [List.length_map]) g
    (by rwa [List.length_map])
  rwa [List.getElem_map, List.getElem_map] at hinj

theorem split_ok (hgroups : groups ≠ []) (generator : Generator) (experimentId : ℤ) (customers : List String) :
    split generator experimentId customers groups = .ok (handsOf groups
      (shuffle (generator experimentId customers.length) (sortBy id customers))) := by
  unfold split
  generalize shuffle (generator experimentId customers.length) (sortBy id customers) = order
  have harm : ∀ group ∈ groups, (do
      let customers ← itemOf (Dict.of (groups.map Prod.fst) fun groupId => [] ++
        (order.zipIdx.filter fun card => turn groups card.2 = some groupId).map Prod.fst) group.1
      return ({ groupId := group.1, kind := group.2, customers } : Arm)) = Except.ok
        { groupId := group.1
          kind := group.2
          customers := (order.zipIdx.filter fun card => turn groups card.2 = some group.1).map Prod.fst } :=
    fun group hgroup => by
      simp only [itemOf, item_of hids (List.mem_map_of_mem hgroup), Except.mapError, bind, Except.bind,
        List.nil_append]
      rfl
  change (order.zipIdx.foldlM (dealOne groups) (Dict.of (groups.map Prod.fst) fun _ => []) >>= fun dealt =>
    groups.mapM _) = _
  rw [deal_ok hids hgroups]
  change groups.mapM _ = _
  rw [mapM_ok harm]
  congr 1
  refine (congrArg (List.map _) (List.zipIdx_map_fst 0 groups).symm).trans ?_
  rw [List.map_map]
  refine List.map_congr_left fun entry hentry => ?_
  have hgroup : groups[entry.2]? = some entry.1 := List.mem_zipIdx_iff_getElem?.mp hentry
  simp only [Function.comp_apply, turn_iff hids hgroup]
  rfl

end Deal

/-- Each customer in exactly one arm and nobody else, in arms of about the same size, the first ones never
smaller. -/
structure Fair (customers : List String) (groups : List (ℤ × Kind)) (arms : List Arm) : Prop where
  groups : arms.map (fun arm => (arm.groupId, arm.kind)) = groups
  all : (arms.flatMap Arm.customers).Perm customers
  once : ∀ c ∈ customers, ∃! arm, arm ∈ arms ∧ c ∈ arm.customers
  even : arms.Pairwise fun arm later => later.customers.length ≤ arm.customers.length ∧
    arm.customers.length ≤ later.customers.length + 1

section Hands

variable {groups : List (ℤ × Kind)} {order customers : List String}

theorem handsOf_all (hgroups : groups ≠ []) (hperm : order.Perm customers) :
    ((handsOf groups order).flatMap Arm.customers).Perm customers := by
  have hrange : groups.zipIdx.map Prod.snd = List.range groups.length := by
    rw [List.zipIdx_map_snd, List.range_eq_range']
  have hhands := (hands_perm (List.length_pos_iff.mpr hgroups) order).trans hperm
  rw [← hrange, List.flatMap_map] at hhands
  unfold handsOf
  rw [List.flatMap_map]
  exact hhands

theorem handsOf_even : (handsOf groups order).Pairwise fun arm later =>
    later.customers.length ≤ arm.customers.length ∧ arm.customers.length ≤ later.customers.length + 1 := by
  unfold handsOf
  rw [List.pairwise_map, List.pairwise_iff_getElem]
  intro g h hg hh hlt
  rw [List.length_zipIdx] at hg hh
  rw [List.getElem_zipIdx, List.getElem_zipIdx, zero_add, zero_add]
  change (hand groups.length h order).length ≤ (hand groups.length g order).length ∧
    (hand groups.length g order).length ≤ (hand groups.length h order).length + 1
  rw [length_hand hg, length_hand hh]
  split_ifs <;> omega

theorem once_of_all {arms : List Arm} (hall : (arms.flatMap Arm.customers).Perm customers)
    (hcustomers : customers.Nodup)
    {c : String} (hc : c ∈ customers) : ∃! arm, arm ∈ arms ∧ c ∈ arm.customers := by
  have hdisjoint := (List.nodup_flatMap.mp (hall.nodup_iff.mpr hcustomers)).2
  have hsymm : Std.Symm (Function.onFun List.Disjoint Arm.customers) := ⟨fun _ _ h => h.symm⟩
  obtain ⟨arm, harm, hmem⟩ := List.mem_flatMap.mp (hall.mem_iff.mpr hc)
  refine ⟨arm, ⟨harm, hmem⟩, fun arm' h' => ?_⟩
  by_contra hne
  exact hdisjoint.forall h'.1 harm hne h'.2 hmem

theorem handsOf_fair (hgroups : groups ≠ []) (hcustomers : customers.Nodup) (hperm : order.Perm customers) :
    Fair customers groups (handsOf groups order) where
  groups := by
    unfold handsOf
    rw [List.map_map]
    exact List.zipIdx_map_fst 0 groups
  all := handsOf_all hgroups hperm
  once := fun _ hc => once_of_all (handsOf_all hgroups hperm) hcustomers hc
  even := handsOf_even

theorem handsOf_nonempty (hmany : groups.length ≤ order.length) : ∀ arm ∈ handsOf groups order,
    arm.customers ≠ [] := by
  intro arm harm
  obtain ⟨entry, hentry, rfl⟩ := List.mem_map.mp harm
  have hlt : entry.2 < groups.length := (List.getElem?_eq_some_iff.mp (List.mem_zipIdx_iff_getElem?.mp hentry)).1
  refine List.length_pos_iff.mp ?_
  change 0 < (hand groups.length entry.2 order).length
  rw [length_hand hlt]
  exact Nat.add_pos_left (Nat.div_pos hmany (Nat.zero_lt_of_lt hlt)) _

end Hands

/-- **Assignment.** -/
theorem split_fair (generator : Generator) (experimentId : ℤ) {customers : List String}
    (hcustomers : customers.Nodup)
    {groups : List (ℤ × Kind)} (hgroups : groups ≠ []) (hids : (groups.map Prod.fst).Nodup) :
    ∃ arms, split generator experimentId customers groups = .ok arms ∧ Fair customers groups arms ∧
      ∀ customers', customers.Perm customers' → split generator experimentId customers' groups = .ok arms := by
  have hperm := (shuffle_perm (generator experimentId customers.length) (sortBy id customers)).trans
    (perm_sortBy id customers)
  refine ⟨_, split_ok hids hgroups generator experimentId customers, handsOf_fair hgroups hcustomers hperm,
    fun customers' hperm' => ?_⟩
  have hsorted : sortBy id customers' = sortBy id customers := (sortBy_perm (fun _ _ _ _ h => h) hperm').symm
  rw [split_ok hids hgroups, hsorted, hperm'.length_eq]

theorem split_fair_three : ∃ arms,
    split (fun _ _ _ => 0) 1 ["carol", "ada", "bob"] [(4, .control), (5, .treatment)] = .ok arms ∧
      Fair ["carol", "ada", "bob"] [(4, .control), (5, .treatment)] arms ∧
        split (fun _ _ _ => 0) 1 ["ada", "bob", "carol"] [(4, .control), (5, .treatment)] = .ok arms := by
  obtain ⟨arms, hsplit, hfair, horder⟩ := @split_fair (fun _ _ _ => 0) 1 ["carol", "ada", "bob"] (by decide)
    [(4, .control), (5, .treatment)] (by decide) (by decide)
  exact ⟨arms, hsplit, hfair, horder _ (by decide)⟩

theorem described_customers (definitions : List GroupDefinition) (arm : Arm) :
    (arm.described definitions).groupId = arm.groupId ∧ (arm.described definitions).kind = arm.kind ∧
      (arm.described definitions).customers = arm.customers := by
  unfold Arm.described
  cases definitions.reverse.find? fun definition => definition.groupId = arm.groupId with
  | none => exact ⟨rfl, rfl, rfl⟩
  | some definition => exact ⟨rfl, rfl, rfl⟩

theorem of_refuseIf {condition : Prop} [Decidable condition] {message : String} {found : Unit}
    (h : refuseIf condition message = .ok found) : ¬ condition := by
  unfold refuseIf refuse at h
  split_ifs at h with hcondition
  exact hcondition

theorem plan_cases {reads : Reads} {generator : Generator} {experimentId : ℤ} {planned : AssignmentPlan}
    (h : plan reads generator experimentId = .ok planned) : ∃ arms,
      reads.readTargetPopulation planned.labelCode ≠ [] ∧
      (reads.listGroups experimentId).length ≤ (reads.readTargetPopulation planned.labelCode).length ∧
      split generator experimentId (reads.readTargetPopulation planned.labelCode) (reads.listGroups experimentId) =
        .ok arms ∧
      planned.arms = arms.map (Arm.described (reads.listGroupDefinitions experimentId)) := by
  unfold plan at h
  obtain ⟨experiment, -, h⟩ := exists_of_bind h
  obtain ⟨_, -, h⟩ := exists_of_bind h
  obtain ⟨campaignId, -, h⟩ := exists_of_bind h
  obtain ⟨campaign, -, h⟩ := exists_of_bind h
  obtain ⟨_, -, h⟩ := exists_of_bind h
  obtain ⟨_, -, h⟩ := exists_of_bind h
  obtain ⟨_, -, h⟩ := exists_of_bind h
  obtain ⟨_, hsome, h⟩ := exists_of_bind h
  obtain ⟨_, hmany, h⟩ := exists_of_bind h
  obtain ⟨arms, hsplit, h⟩ := exists_of_bind h
  obtain rfl := Except.ok.inj h
  exact ⟨arms, of_refuseIf hsome, not_lt.mp (of_refuseIf hmany), hsplit, rfl⟩

theorem split_nil (generator : Generator) (experimentId : ℤ) {customers : List String} (h : customers ≠ []) :
    split generator experimentId customers [] = .error .zeroDivision := by
  have hperm := (shuffle_perm (generator experimentId customers.length) (sortBy id customers)).trans
    (perm_sortBy id customers)
  unfold split
  generalize shuffle (generator experimentId customers.length) (sortBy id customers) = order at hperm ⊢
  cases order with
  | nil => exact absurd hperm.nil_eq.symm h
  | cons c order => rfl

theorem Fair.described {customers : List String} {groups : List (ℤ × Kind)} {arms : List Arm}
    (h : Fair customers groups arms) (hcustomers : customers.Nodup) (definitions : List GroupDefinition) :
    Fair customers groups (arms.map (Arm.described definitions)) := by
  have hcustomersOf : ∀ arm : Arm, (arm.described definitions).customers = arm.customers := fun arm =>
    (described_customers definitions arm).2.2
  have hall : ((arms.map (Arm.described definitions)).flatMap Arm.customers).Perm customers := by
    rw [List.flatMap_map]
    simp only [hcustomersOf]
    exact h.all
  refine ⟨?_, hall, fun c hc => once_of_all hall hcustomers hc, ?_⟩
  · rw [← h.groups, List.map_map]
    refine List.map_congr_left fun arm _ => ?_
    obtain ⟨hid, hkind, -⟩ := described_customers definitions arm
    exact Prod.ext hid hkind
  · rw [List.pairwise_map]
    simp only [hcustomersOf]
    exact h.even

theorem plan_fair {reads : Reads} {generator : Generator} {experimentId : ℤ} {planned : AssignmentPlan}
    (hpopulation : (reads.readTargetPopulation planned.labelCode).Nodup)
    (hids : ((reads.listGroups experimentId).map Prod.fst).Nodup)
    (h : plan reads generator experimentId = .ok planned) :
    Fair (reads.readTargetPopulation planned.labelCode) (reads.listGroups experimentId) planned.arms ∧
      ∀ arm ∈ planned.arms, arm.customers ≠ [] := by
  obtain ⟨arms, hsome, hmany, hsplit, harms⟩ := plan_cases h
  have hgroups : reads.listGroups experimentId ≠ [] := by
    intro hnil
    rw [hnil, split_nil generator experimentId hsome] at hsplit
    cases hsplit
  have hperm := (shuffle_perm (generator experimentId (reads.readTargetPopulation planned.labelCode).length)
    (sortBy id (reads.readTargetPopulation planned.labelCode))).trans (perm_sortBy _ _)
  rw [split_ok hids hgroups] at hsplit
  obtain rfl := Except.ok.inj hsplit
  rw [harms]
  refine ⟨(handsOf_fair hgroups hpopulation hperm).described hpopulation _, fun arm harm => ?_⟩
  obtain ⟨dealt, hdealt, rfl⟩ := List.mem_map.mp harm
  rw [(described_customers _ dealt).2.2]
  exact handsOf_nonempty (hmany.trans hperm.length_eq.ge) dealt hdealt

end RetailSegmentation.Experiments
