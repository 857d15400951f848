import Mathlib.Algebra.Order.Field.Rat
import Mathlib.Tactic.NormNum
import RetailSegmentation.SegmentScoring
import RetailSegmentation.TextCodes

/-! Why a customer moved between two runs, in plain language (`web/services/segment_migration.py`), over the
values and the scores that the runs recorded. -/

namespace RetailSegmentation.MigrationExplanations

open SegmentScoring TextCodes Tiling

/-! ### The explanation -/

/-- What an explanation reads of a run's result; money in cents. -/
structure RunAssignment where
  labelCode : Option String
  rScore : Option ℕ
  fScore : Option ℕ
  mScore : Option ℕ
  recencyLastPurchaseAt : Option ℤ
  frequencyCount : Option ℤ
  monetaryTotal : Option ℤ
  deriving DecidableEq, Repr

structure ComponentDelta where
  name : String
  rawBefore : Option ℤ
  rawAfter : Option ℤ
  scoreBefore : Option ℕ
  scoreAfter : Option ℕ
  deriving DecidableEq, Repr

def ComponentDelta.scoreDelta (component : ComponentDelta) : Option ℤ :=
  component.scoreBefore.bind fun before => component.scoreAfter.map fun after : ℕ => (after : ℤ) - before

structure MigrationExplanation where
  recency : ComponentDelta
  frequency : ComponentDelta
  monetary : ComponentDelta
  labelBefore : Option String
  labelAfter : Option String
  labelChanged : Bool
  inEarlier : Bool
  inLater : Bool
  deriving DecidableEq, Repr

def component (before after : Option RunAssignment) (name : String) (raw : RunAssignment → Option ℤ)
    (score : RunAssignment → Option ℕ) : ComponentDelta :=
  ⟨name, before.bind raw, after.bind raw, before.bind score, after.bind score⟩

def explainMigration (before after : Option RunAssignment) : MigrationExplanation where
  recency := component before after "Recency" RunAssignment.recencyLastPurchaseAt RunAssignment.rScore
  frequency := component before after "Frequency" RunAssignment.frequencyCount RunAssignment.fScore
  monetary := component before after "Monetary" RunAssignment.monetaryTotal RunAssignment.mScore
  labelBefore := before.bind RunAssignment.labelCode
  labelAfter := after.bind RunAssignment.labelCode
  labelChanged := before.bind RunAssignment.labelCode ≠ after.bind RunAssignment.labelCode
  inEarlier := before.isSome
  inLater := after.isSome

/-! ### The sentences -/

def recencyStableDays : ℤ := 7

def frequencyStablePurchases : ℤ := 0

def monetaryStableRatio : ℚ := 1 / 10

def rankOnlyText : String := "other customers moved the quintile cut points, not this customer's behaviour"

inductive Judgement where
  | changed | stable | notMeasured
  deriving DecidableEq, Repr

structure MeasureSentence where
  name : String
  judgement : Judgement
  text : String
  phrase : String
  rankOnly : Bool
  deriving DecidableEq, Repr

structure MigrationNarrative where
  sentences : List MeasureSentence
  isNew : Bool
  left : Bool
  movedByRankOnly : Bool
  recencyDaysBefore : Option ℤ
  recencyDaysAfter : Option ℤ
  deriving DecidableEq, Repr

inductive Raised where
  | zeroDivision
  deriving DecidableEq, Repr

/-- `(run_at - last_purchase_at).days`. -/
def days (lastPurchaseAt runAt : ℤ) : ℤ := (runAt - lastPurchaseAt) / 86400000000

def recencyDays (lastPurchaseAt : Option ℤ) (runAt : ℤ) : Option ℤ :=
  lastPurchaseAt.map fun last => days last runAt

def plural (count : ℤ) (singular : String) : String :=
  toString count ++ " " ++ if count = 1 then singular else singular ++ "s"

/-- A comma after every three digits, counted from the last. -/
def commas : List Char → List Char
  | a :: b :: c :: d :: rest => a :: b :: c :: ',' :: commas (d :: rest)
  | short => short

/-- `f"{value:,.2f}"`. -/
def money (cents : ℤ) : String :=
  (if cents < 0 then "-" else "") ++ String.ofList ((commas (natText (cents.natAbs / 100)).reverse).reverse) ++ "." ++
    String.ofList (padText 10 2 (cents.natAbs % 100))

/-- `abs(after - before) / before`; a total has twelve digits at most, so that the quotient's 28 decide a
tenth exactly. -/
def ratio (before after : ℤ) : Except Raised ℚ :=
  if before = 0 then throw .zeroDivision else return |(after : ℚ) - before| / before

/-- The sentence for a measure that one of the runs holds no value for. -/
def missing (component : ComponentDelta) (explanation : MigrationExplanation) : MeasureSentence :=
  let earlier :=
    if component.rawBefore = none then
      [if explanation.inEarlier = false then "the customer was not part of the earlier run"
        else "the earlier run found no purchase in its window"]
    else []
  let later :=
    if component.rawAfter = none then
      [if explanation.inLater = false then "the customer is not part of the later run"
        else "the later run found no purchase in its window"]
    else []
  { name := component.name
    judgement := .notMeasured
    text := component.name ++ " cannot be compared: " ++ " and ".intercalate (earlier ++ later) ++ "."
    phrase := component.name.toLower ++ " not compared"
    rankOnly := false }

/-- `bool(component.score_delta)`. -/
def ComponentDelta.moved (component : ComponentDelta) : Bool := component.scoreDelta.any (· ≠ 0)

def shown : Option ℕ → String
  | some score => toString score
  | none => "None"

def scoreNote (component : ComponentDelta) (rankOnly : Bool) : String :=
  if component.moved = false then ""
  else if rankOnly then
    " Its score still went from " ++ shown component.scoreBefore ++ " to " ++ shown component.scoreAfter ++ ": " ++
      rankOnlyText ++ "."
  else " Its score went from " ++ shown component.scoreBefore ++ " to " ++ shown component.scoreAfter ++ "."

/-- `_recency`, of a measure that both runs hold a value for. -/
def recencySentence (component : ComponentDelta) (rawBefore rawAfter runAtBefore runAtAfter : ℤ) :
    MeasureSentence :=
  let before := days rawBefore runAtBefore
  let after := days rawAfter runAtAfter
  let stable : Bool := |after - before| ≤ recencyStableDays
  let samePurchase : Bool := rawBefore = rawAfter
  let rankOnly := stable && samePurchase && component.moved
  let text :=
    if before = after then "Recency stayed at " ++ plural after "day" ++ " — stable."
    else if stable then
      "Recency went from " ++ toString before ++ " to " ++ plural after "day" ++ " — stable (within " ++
        toString recencyStableDays ++ " days)."
    else
      "Recency went from " ++ toString before ++ " to " ++ plural after "day" ++ " — changed: " ++
        (if before < after then "longer since the last purchase" else "a more recent purchase") ++ "."
  { name := component.name
    judgement := if stable then .stable else .changed
    text := text ++ if stable then scoreNote component rankOnly else ""
    phrase :=
      if stable then "recency stable" else "recency went from " ++ toString before ++ " to " ++ plural after "day"
    rankOnly }

/-- `_frequency`, likewise. -/
def frequencySentence (component : ComponentDelta) (before after : ℤ) : MeasureSentence :=
  let stable : Bool := |after - before| ≤ frequencyStablePurchases
  let same : Bool := before = after
  let rankOnly := same && component.moved
  let verb := if before < after then "rose" else "dropped"
  let text :=
    if before = after then "Frequency stayed at " ++ plural after "purchase" ++ " — stable."
    else if stable then
      "Frequency went from " ++ toString before ++ " to " ++ plural after "purchase" ++ " — stable."
    else
      "Frequency " ++ verb ++ " from " ++ toString before ++ " to " ++ plural after "purchase" ++ " — changed."
  { name := component.name
    judgement := if stable then .stable else .changed
    text := text ++ if stable then scoreNote component rankOnly else ""
    phrase :=
      if stable then "frequency stable"
      else "frequency " ++ verb ++ " from " ++ toString before ++ " to " ++ toString after
    rankOnly }

/-- `_monetary`, likewise. -/
def monetarySentence (component : ComponentDelta) (before after : ℤ) : Except Raised MeasureSentence := do
  let stable : Bool ←
    if before = 0 then pure (decide (after = 0))
    else (ratio before after).map fun quotient => decide (quotient ≤ monetaryStableRatio)
  let same : Bool := before = after
  let rankOnly := same && component.moved
  let verb := if before < after then "rose" else "fell"
  let text :=
    if before = after then "Monetary stayed at " ++ money after ++ " MXN — stable."
    else if stable then
      "Monetary went from " ++ money before ++ " to " ++ money after ++ " MXN — stable (within 10%)."
    else "Monetary " ++ verb ++ " from " ++ money before ++ " to " ++ money after ++ " MXN — changed (more than 10%)."
  return {
    name := component.name
    judgement := if stable then .stable else .changed
    text := text ++ if stable then scoreNote component rankOnly else ""
    phrase :=
      if stable then "monetary stable" else "monetary " ++ verb ++ " from " ++ money before ++ " to " ++ money after ++ " MXN"
    rankOnly }

def recency (component : ComponentDelta) (explanation : MigrationExplanation) (runAtBefore runAtAfter : ℤ) :
    MeasureSentence :=
  match component.rawBefore, component.rawAfter with
  | some before, some after => recencySentence component before after runAtBefore runAtAfter
  | _, _ => missing component explanation

def frequency (component : ComponentDelta) (explanation : MigrationExplanation) : MeasureSentence :=
  match component.rawBefore, component.rawAfter with
  | some before, some after => frequencySentence component before after
  | _, _ => missing component explanation

def monetary (component : ComponentDelta) (explanation : MigrationExplanation) : Except Raised MeasureSentence :=
  match component.rawBefore, component.rawAfter with
  | some before, some after => monetarySentence component before after
  | _, _ => return missing component explanation

def describeMigration (explanation : MigrationExplanation) (runAtBefore runAtAfter : ℤ) :
    Except Raised MigrationNarrative := do
  let sentences := [recency explanation.recency explanation runAtBefore runAtAfter,
    frequency explanation.frequency explanation, ← monetary explanation.monetary explanation]
  return {
    sentences
    movedByRankOnly := explanation.labelChanged && sentences.all (fun s => s.judgement = .stable) &&
      sentences.any MeasureSentence.rankOnly
    isNew := !explanation.inEarlier
    left := !explanation.inLater
    recencyDaysBefore := recencyDays explanation.recency.rawBefore runAtBefore
    recencyDaysAfter := recencyDays explanation.recency.rawAfter runAtAfter }

/-! ### Runs -/

/-- A run of RFM_RULES: what it read, and when it was recorded. -/
structure Run (K : Type) where
  tables : Tables K
  since : ℤ
  now : ℤ
  today : ℤ
  runAt : ℤ

section Runs

variable {K : Type}

def recorded (row : ScoredCustomer K) : RunAssignment :=
  ⟨row.labelCode, row.rScore, row.fScore, row.mScore, row.lastPurchaseAt, row.frequency, row.monetary⟩

variable [LinearOrder K]

def Run.rows (run : Run K) : List (ScoredCustomer K) := scoreRfmRules run.tables run.since run.now run.today

/-- What the run recorded of a customer, where they were part of it. -/
def Run.assignment (run : Run K) (c : K) : Option RunAssignment :=
  (run.rows.find? fun row => row.customerId = c).map recorded

def Run.others (run : Run K) (measure : Measure) (c : K) : Set ℤ :=
  { v | ∃ row ∈ run.rows, row.customerId ≠ c ∧ measure.value row = some v }

end Runs

def rawOf (measure : Measure) (assignment : Option RunAssignment) : Option ℤ :=
  assignment.bind fun a => match measure with
    | .recency => a.recencyLastPurchaseAt
    | .frequency => a.frequencyCount
    | .monetary => a.monetaryTotal

def scoreOf (measure : Measure) (assignment : Option RunAssignment) : Option ℕ :=
  assignment.bind fun a => match measure with
    | .recency => a.rScore
    | .frequency => a.fScore
    | .monetary => a.mScore

def labelOf (assignment : Option RunAssignment) : Option String := assignment.bind RunAssignment.labelCode

/-- The values of a measure within which it counts as the same: recency up to seven days, the same number of
purchases, and spend up to a tenth of the earlier. -/
def Within (runAtBefore runAtAfter : ℤ) : Measure → ℤ → ℤ → Prop
  | .recency => fun before after => |days after runAtAfter - days before runAtBefore| ≤ 7
  | .frequency => fun before after => before = after
  | .monetary => fun before after =>
    (before = 0 ∧ after = 0) ∨ (before ≠ 0 ∧ |(after : ℚ) - before| / before ≤ 1 / 10)

/-! ### What a sentence says -/

/-- A sentence about a measure: whether it is measured, whether it is stable, and whether only its rank moved. -/
structure Judged (component : ComponentDelta) (within : ℤ → ℤ → Prop) (sentence : MeasureSentence) : Prop where
  notMeasured : sentence.judgement = .notMeasured ↔ component.rawBefore = none ∨ component.rawAfter = none
  stable : sentence.judgement = .stable ↔
    ∃ before ∈ component.rawBefore, ∃ after ∈ component.rawAfter, within before after
  rankOnly : sentence.rankOnly = true ↔
    sentence.judgement = .stable ∧ component.rawBefore = component.rawAfter ∧ component.moved = true

section Sentences

variable {delta : ComponentDelta} {explanation : MigrationExplanation} {within : ℤ → ℤ → Prop} {before after : ℤ}

theorem missing_judged (h : delta.rawBefore = none ∨ delta.rawAfter = none) :
    Judged delta within (missing delta explanation) where
  notMeasured := ⟨fun _ => h, fun _ => rfl⟩
  stable := by
    constructor
    · intro hstable
      cases hstable
    · rintro ⟨before, hbefore, after, hafter, -⟩
      obtain hnone | hnone := h
      · cases hbefore.symm.trans hnone
      · cases hafter.symm.trans hnone
  rankOnly := by
    constructor
    · intro hrank
      cases hrank
    · rintro ⟨hstable, -⟩
      cases hstable

/-- A sentence about two values is judged by whether they are within the threshold. -/
theorem measured_judged {sentence : MeasureSentence} (stable : Bool) (hbefore : delta.rawBefore = some before)
    (hafter : delta.rawAfter = some after) (hwithin : stable = true ↔ within before after)
    (hjudgement : sentence.judgement = if stable then .stable else .changed)
    (hrank : sentence.rankOnly = true ↔ stable = true ∧ before = after ∧ delta.moved = true) :
    Judged delta within sentence := by
  have hstable : sentence.judgement = .stable ↔ stable = true := by
    rw [hjudgement]
    cases stable <;> simp
  refine ⟨?_, ?_, ?_⟩
  · rw [hjudgement, hbefore, hafter]
    cases stable <;> simp
  · rw [hstable, hwithin, hbefore, hafter]
    simp
  · rw [hrank, hstable, hbefore, hafter, Option.some.injEq]

theorem recency_judged (delta : ComponentDelta) (explanation : MigrationExplanation) (runAtBefore runAtAfter : ℤ) :
    Judged delta (Within runAtBefore runAtAfter .recency) (recency delta explanation runAtBefore runAtAfter) := by
  unfold recency
  cases hbefore : delta.rawBefore with
  | none => exact missing_judged (.inl hbefore)
  | some before =>
      cases hafter : delta.rawAfter with
      | none => exact missing_judged (.inr hafter)
      | some after =>
          refine measured_judged (decide (|days after runAtAfter - days before runAtBefore| ≤
            recencyStableDays)) hbefore hafter decide_eq_true_iff rfl ?_
          unfold recencySentence
          simp only [Bool.and_eq_true, decide_eq_true_eq, and_assoc]

theorem frequency_judged (delta : ComponentDelta) (explanation : MigrationExplanation)
    (runAtBefore runAtAfter : ℤ) :
    Judged delta (Within runAtBefore runAtAfter .frequency) (frequency delta explanation) := by
  unfold frequency
  cases hbefore : delta.rawBefore with
  | none => exact missing_judged (.inl hbefore)
  | some before =>
      cases hafter : delta.rawAfter with
      | none => exact missing_judged (.inr hafter)
      | some after =>
          have hsame : |after - before| ≤ frequencyStablePurchases ↔ before = after := by
            unfold frequencyStablePurchases
            rw [abs_nonpos_iff, sub_eq_zero, eq_comm]
          refine measured_judged (decide (|after - before| ≤ frequencyStablePurchases)) hbefore hafter
            (decide_eq_true_iff.trans hsame) rfl ?_
          unfold frequencySentence
          simp only [Bool.and_eq_true, decide_eq_true_eq, hsame]
          tauto

theorem monetary_judged (delta : ComponentDelta) (explanation : MigrationExplanation)
    (runAtBefore runAtAfter : ℤ) :
    ∃ sentence, monetary delta explanation = .ok sentence ∧
      Judged delta (Within runAtBefore runAtAfter .monetary) sentence := by
  unfold monetary
  cases hbefore : delta.rawBefore with
  | none => exact ⟨_, rfl, missing_judged (.inl hbefore)⟩
  | some before =>
      cases hafter : delta.rawAfter with
      | none => exact ⟨_, rfl, missing_judged (.inr hafter)⟩
      | some after =>
          dsimp only
          unfold monetarySentence ratio
          by_cases hzero : before = 0
          · rw [if_pos hzero]
            refine ⟨_, rfl, measured_judged (decide (after = 0)) hbefore hafter ?_ rfl ?_⟩
            · simp [Within, hzero]
            · simp only [Bool.and_eq_true, decide_eq_true_eq]
              constructor
              · rintro ⟨rfl, hmoved⟩
                exact ⟨hzero, rfl, hmoved⟩
              · exact fun h => h.2
          · rw [if_neg hzero, if_neg hzero]
            refine ⟨_, rfl, measured_judged (decide (|(after : ℚ) - before| / before ≤
              monetaryStableRatio)) hbefore hafter ?_ rfl ?_⟩
            · simp [Within, hzero, monetaryStableRatio]
            · simp only [Bool.and_eq_true, decide_eq_true_eq]
              constructor
              · rintro ⟨rfl, hmoved⟩
                refine ⟨?_, rfl, hmoved⟩
                rw [sub_self, abs_zero, zero_div]
                unfold monetaryStableRatio
                norm_num
              · exact fun h => h.2

end Sentences

/-! ### What a narrative says -/

section Narratives

def deltaOf (explanation : MigrationExplanation) : Measure → ComponentDelta
  | .recency => explanation.recency
  | .frequency => explanation.frequency
  | .monetary => explanation.monetary

theorem deltaOf_explained (before after : Option RunAssignment) (measure : Measure) :
    (deltaOf (explainMigration before after) measure).rawBefore = rawOf measure before ∧
      (deltaOf (explainMigration before after) measure).rawAfter = rawOf measure after ∧
      (deltaOf (explainMigration before after) measure).scoreBefore = scoreOf measure before ∧
      (deltaOf (explainMigration before after) measure).scoreAfter = scoreOf measure after := by
  cases measure <;> exact ⟨rfl, rfl, rfl, rfl⟩

theorem moved_iff {delta : ComponentDelta} : delta.moved = true ↔
    ∃ before ∈ delta.scoreBefore, ∃ after ∈ delta.scoreAfter, before ≠ after := by
  unfold ComponentDelta.moved ComponentDelta.scoreDelta
  cases delta.scoreBefore with
  | none => simp
  | some before =>
      cases delta.scoreAfter with
      | none => simp
      | some after =>
          simp only [Option.bind_some, Option.map_some, Option.any_some, decide_eq_true_eq, Option.mem_some_iff,
            exists_eq_left']
          omega

theorem describeMigration_ok (explanation : MigrationExplanation) (runAtBefore runAtAfter : ℤ) :
    ∃ narrative, ∃ sentence : Measure → MeasureSentence,
      describeMigration explanation runAtBefore runAtAfter = .ok narrative ∧
      narrative.sentences = [sentence .recency, sentence .frequency, sentence .monetary] ∧
      (narrative.movedByRankOnly = true ↔ explanation.labelChanged = true ∧
        (∀ measure, (sentence measure).judgement = .stable) ∧ ∃ measure, (sentence measure).rankOnly = true) ∧
      ∀ measure, Judged (deltaOf explanation measure) (Within runAtBefore runAtAfter measure) (sentence measure) := by
  obtain ⟨spend, hspend, hjudged⟩ := monetary_judged explanation.monetary explanation runAtBefore runAtAfter
  let sentence : Measure → MeasureSentence
    | .recency => recency explanation.recency explanation runAtBefore runAtAfter
    | .frequency => frequency explanation.frequency explanation
    | .monetary => spend
  unfold describeMigration
  rw [hspend]
  refine ⟨_, sentence, rfl, rfl, ?_, ?_⟩
  · have hforall : ∀ p : Measure → Prop, (∀ measure, p measure) ↔ p .recency ∧ p .frequency ∧ p .monetary :=
      fun p => ⟨fun h => ⟨h _, h _, h _⟩, fun ⟨hr, hf, hm⟩ measure => by cases measure <;> assumption⟩
    have hexists : ∀ p : Measure → Prop, (∃ measure, p measure) ↔ p .recency ∨ p .frequency ∨ p .monetary := by
      refine fun p => ⟨fun ⟨measure, h⟩ => by cases measure <;> simp [h], ?_⟩
      rintro (h | h | h)
      exacts [⟨_, h⟩, ⟨_, h⟩, ⟨_, h⟩]
    rw [hforall, hexists]
    simp only [List.all_cons, List.all_nil, List.any_cons, List.any_nil, Bool.and_true, Bool.or_false,
      Bool.and_eq_true, Bool.or_eq_true, decide_eq_true_eq, and_assoc, sentence]
  · intro measure
    cases measure with
    | recency => exact recency_judged _ _ _ _
    | frequency => exact frequency_judged _ _ _ _
    | monetary => exact hjudged

end Narratives

/-! ### What the runs recorded -/

section Recorded

variable {K : Type} [LinearOrder K] {run earlier later : Run K} {c : K} {measure : Measure} {v : ℤ}

theorem row_of_raw (h : rawOf measure (run.assignment c) = some v) : ∃ row ∈ run.rows, row.customerId = c ∧
    measure.value row = some v ∧ scoreOf measure (run.assignment c) = measure.score row := by
  unfold Run.assignment at h ⊢
  cases hfind : run.rows.find? fun row => row.customerId = c with
  | none =>
      rw [hfind] at h
      cases h
  | some row =>
      rw [hfind] at h
      refine ⟨row, List.mem_of_find?_eq_some hfind, of_decide_eq_true (List.find?_some hfind :), ?_, ?_⟩
      · cases measure <;> exact h
      · cases measure <;> rfl

theorem mem_values (hvalid : run.tables.Valid) (h : rawOf measure (run.assignment c) = some v) (x : ℤ) :
    x ∈ (windowSales run.tables run.since run.now).map measure.of ↔ x = v ∨ x ∈ run.others measure c := by
  obtain ⟨row, hrow, rfl, hvalue, -⟩ := row_of_raw h
  obtain ⟨c, -, rfl⟩ := mem_rows.mp hrow
  constructor
  · intro hx
    obtain ⟨w, hw, rfl⟩ := List.mem_map.mp hx
    obtain ⟨c', hc'⟩ := mem_windowSales.mp hw
    obtain ⟨t, ht, rfl⟩ := transaction_of_salesIn hc'
    have hvalue' : measure.value (rowOf run.tables run.since run.now run.today t.customerId) =
        some (measure.of w) := by
      rw [value_rowOf, hc', Option.map_some]
    by_cases hsame : t.customerId = c
    · rw [hsame, hvalue] at hvalue'
      exact .inl (Option.some_inj.mp hvalue').symm
    · exact .inr ⟨_, mem_rows.mpr ⟨_, hvalid.transactionCustomers t ht, rfl⟩, hsame, hvalue'⟩
  · rintro (rfl | ⟨row', hrow', -, hvalue'⟩)
    · exact (score_of_value hvalue).1
    · obtain ⟨c', -, rfl⟩ := mem_rows.mp hrow'
      exact (score_of_value hvalue').1

theorem score_of_raw (h : rawOf measure (run.assignment c) = some v) : scoreOf measure (run.assignment c) =
    some (score quintiles ((windowSales run.tables run.since run.now).map measure.of) v) := by
  obtain ⟨row, hrow, -, hvalue, hscore⟩ := row_of_raw h
  obtain ⟨c', -, rfl⟩ := mem_rows.mp hrow
  rw [hscore, (score_of_value hvalue).2]

theorem score_of_others (hearlier : earlier.tables.Valid) (hlater : later.tables.Valid)
    (hbefore : rawOf measure (earlier.assignment c) = some v) (hafter : rawOf measure (later.assignment c) = some v)
    (hothers : earlier.others measure c = later.others measure c) :
    scoreOf measure (earlier.assignment c) = scoreOf measure (later.assignment c) := by
  rw [score_of_raw hbefore, score_of_raw hafter]
  refine congrArg some (score_congr fun x => ?_)
  rw [mem_values hearlier hbefore, mem_values hlater hafter, hothers]

end Recorded

/-- What a narrative says of a customer's two assignments. -/
structure Blames {K : Type} [LinearOrder K] (earlier later : Run K) (c : K) (narrative : MigrationNarrative)
    (sentence : Measure → MeasureSentence) : Prop where
  sentences : narrative.sentences = [sentence .recency, sentence .frequency, sentence .monetary]
  notMeasured : ∀ measure, (sentence measure).judgement = .notMeasured ↔
    rawOf measure (earlier.assignment c) = none ∨ rawOf measure (later.assignment c) = none
  stable : ∀ measure, (sentence measure).judgement = .stable ↔
    ∃ before ∈ rawOf measure (earlier.assignment c), ∃ after ∈ rawOf measure (later.assignment c),
      Within earlier.runAt later.runAt measure before after
  rankOnly : ∀ measure, (sentence measure).rankOnly = true →
    ∃ v, rawOf measure (earlier.assignment c) = some v ∧ rawOf measure (later.assignment c) = some v ∧
      scoreOf measure (earlier.assignment c) ≠ scoreOf measure (later.assignment c) ∧
      earlier.others measure c ≠ later.others measure c
  movedByRankOnly : narrative.movedByRankOnly = true ↔
    labelOf (earlier.assignment c) ≠ labelOf (later.assignment c) ∧
    (∀ measure, (sentence measure).judgement = .stable) ∧
    ∃ measure, rawOf measure (earlier.assignment c) = rawOf measure (later.assignment c) ∧
      scoreOf measure (earlier.assignment c) ≠ scoreOf measure (later.assignment c)

def day : ℤ := 86400000000

/-- The second customer buys more and later than the first, and then only the first comes back. -/
def shopTables : Tables ℕ where
  customers := [1, 2]
  transactions := [⟨1, 0, 100⟩, ⟨2, day, 100⟩, ⟨2, 2 * day, 100⟩, ⟨1, 5 * day, 100⟩]
  segments := [⟨1, "gold", 1, 0, none⟩, ⟨2, "tin", 2, 0, none⟩]
  rules := [⟨1, 5, 5, 5, 5, 5, 5⟩, ⟨2, 4, 4, 4, 4, 4, 4⟩]
  labels := [⟨"gold", 1⟩, ⟨"tin", 2⟩]

theorem shopTables_valid : shopTables.Valid :=
  ⟨by decide, by decide, by decide, by decide, by decide, by decide, by decide⟩

def firstRun : Run ℕ := ⟨shopTables, 0, 3 * day, 3, 3 * day⟩

def secondRun : Run ℕ := ⟨shopTables, 4 * day, 5 * day, 5, 5 * day⟩

end RetailSegmentation.MigrationExplanations
