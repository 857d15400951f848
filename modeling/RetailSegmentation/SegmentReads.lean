import Mathlib.Data.Int.Notation
import RetailSegmentation.KitErrors
import RetailSegmentation.ProgramInterference

/-! The reads of segments-service (`services/segments/src/lib.rs`): a process tracks the run whose copies in
Redis it asks for, and requests and the events of the stream move it. -/

namespace RetailSegmentation.SegmentReads

open Program

/-! ### Records -/

structure SegmentItem where
  labelCode : String
  name : String
  description : Option String
  ordinalPosition : ℤ
  size : ℤ
  deriving DecidableEq, Repr

/-- Times are microseconds. -/
structure SegmentList where
  runId : Option ℤ
  runAt : Option ℤ
  unassignedCount : ℤ
  segments : List SegmentItem
  deriving DecidableEq, Repr

structure CurrentAssignment where
  customerId : String
  state : String
  labelCode : Option String
  rScore : Option ℤ
  fScore : Option ℤ
  mScore : Option ℤ
  since : Option ℤ
  runId : Option ℤ
  deriving DecidableEq, Repr

/-- The run tracker when no run exists yet. -/
def noRun : ℤ := 0

def SegmentList.run (list : SegmentList) : ℤ := list.runId.getD noRun

/-! ### `Reader` -/

/-- The tracker is an atomic of the process, `none` before PostgreSQL has been asked. -/
inductive Command where
  | load
  | store (run : ℤ)
  | advance (run : ℤ)
  | selectRun
  | readList
  | readCurrent (customer : String)
  | getList (run : ℤ)
  | putList (run : ℤ) (list : SegmentList)
  | getCurrent (run : ℤ) (customer : String)
  | putCurrent (run : ℤ) (customer : String) (assignment : CurrentAssignment)

/-- A failure of Redis is a miss, or nothing. -/
abbrev Reply : Command → Type
  | .load => Option ℤ
  | .store _ => Unit
  | .advance _ => Unit
  | .selectRun => Except ApiError ℤ
  | .readList => Except ApiError SegmentList
  | .readCurrent _ => Except ApiError CurrentAssignment
  | .getList _ => Option SegmentList
  | .putList _ _ => Unit
  | .getCurrent _ _ => Option CurrentAssignment
  | .putCurrent _ _ _ => Unit

abbrev SegmentsProg (α : Type) := Prog Command Reply ApiError α

/-- `?`. -/
def orReturn {α : Type} : Except ApiError α → SegmentsProg α
  | .ok a => .ret a
  | .error e => .raise e

def refreshRun : SegmentsProg ℤ := do
  let run ← orReturn (← Prog.send Command.selectRun)
  Prog.send (Command.store run)
  return run

/-- `Reader::run`. -/
def askedRun : SegmentsProg ℤ := do
  match ← Prog.send Command.load with
  | some run => return run
  | none => refreshRun

/-- `Reader::list`, of a process with a cache or without. -/
def list (cache : Bool) : SegmentsProg SegmentList :=
  if cache then do
    let run ← askedRun
    match ← Prog.send (Command.getList run) with
    | some hit => return hit
    | none =>
      let fresh ← orReturn (← Prog.send Command.readList)
      let actual := fresh.run
      Prog.send (Command.advance actual)
      Prog.send (Command.putList actual fresh)
      return fresh
  else do
    orReturn (← Prog.send Command.readList)

/-- `Reader::current`. -/
def current (cache : Bool) (customer : String) : SegmentsProg CurrentAssignment :=
  if cache then do
    let run ← askedRun
    match ← Prog.send (Command.getCurrent run customer) with
    | some hit => return hit
    | none =>
      let fresh ← orReturn (← Prog.send (Command.readCurrent customer))
      Prog.send (Command.putCurrent run customer fresh)
      return fresh
  else do
    orReturn (← Prog.send (Command.readCurrent customer))

/-- A request, or an event of the stream. -/
inductive Task where
  | list
  | current (customer : String)
  | event
  deriving DecidableEq, Repr

inductive Answer where
  | list (list : SegmentList)
  | current (assignment : CurrentAssignment)
  | refreshed (run : ℤ)
  deriving DecidableEq, Repr

def Task.prog (cache : Bool) : Task → SegmentsProg Answer
  | .list => do return .list (← SegmentReads.list cache)
  | .current customer => do return .current (← SegmentReads.current cache customer)
  | .event => do return .refreshed (← refreshRun)

def Answer.run : Answer → Option ℤ
  | .list fresh => fresh.runId
  | .current assignment => assignment.runId
  | .refreshed _ => none

/-! ### PostgreSQL, Redis and the process -/

/-- The latest run that is committed, the tracker, the copies; and of the past: what the tracker has been
moved to, and how often it had been when each task asked for the latest run. -/
structure World (T : Type) where
  latest : ℤ
  tracker : Option ℤ
  lists : ℤ → Option SegmentList
  currents : ℤ × String → Option CurrentAssignment
  moves : List ℤ
  asked : T → ℕ

/-- The tracked run, or `NO_RUN`. -/
def World.tracked {T : Type} (w : World T) : ℤ := w.tracker.getD noRun

def World.move {T : Type} (w : World T) (run : ℤ) : World T :=
  { w with tracker := some run, moves := w.moves ++ [run] }

/-- What is read is of the latest run, which assigned every customer, or of none. -/
def World.Reads {T : Type} (w : World T) (read : Option ℤ) : Prop := ∀ run, read = some run → run = w.latest

section Machine

variable {T : Type} [DecidableEq T]

/-- What a command may be answered with. Redis may fail at every command, and PostgreSQL refuse every statement. -/
inductive Answers (t : T) : (c : Command) → World T → Reply c → World T → Prop where
  | load {w : World T} : Answers t .load w w.tracker w
  | store {w : World T} {run : ℤ} : Answers t (.store run) w () (w.move run)
  | advanced {w : World T} {run : ℤ} (hnew : ∀ held, w.tracker = some held → held < run) :
      Answers t (.advance run) w () (w.move run)
  | ahead {w : World T} {run held : ℤ} (hheld : w.tracker = some held) (hold : run ≤ held) :
      Answers t (.advance run) w () w
  | selectRun {w : World T} : Answers t .selectRun w (.ok w.latest)
      { w with asked := Function.update w.asked t w.moves.length }
  | selectRefused {w : World T} {e : ApiError} : Answers t .selectRun w (.error e) w
  | readList {w : World T} {list : SegmentList} (hlist : w.Reads list.runId) : Answers t .readList w (.ok list) w
  | readListRefused {w : World T} {e : ApiError} : Answers t .readList w (.error e) w
  | readCurrent {w : World T} {customer : String} {assignment : CurrentAssignment}
      (hcurrent : w.Reads assignment.runId) :
      Answers t (.readCurrent customer) w (.ok assignment) w
  | readCurrentRefused {w : World T} {customer : String} {e : ApiError} :
      Answers t (.readCurrent customer) w (.error e) w
  | getList {w : World T} {run : ℤ} : Answers t (.getList run) w (w.lists run) w
  | getListFailed {w : World T} {run : ℤ} : Answers t (.getList run) w none w
  | putList {w : World T} {run : ℤ} {list : SegmentList} : Answers t (.putList run list) w ()
      { w with lists := Function.update w.lists run (some list) }
  | putListFailed {w : World T} {run : ℤ} {list : SegmentList} : Answers t (.putList run list) w () w
  | getCurrent {w : World T} {run : ℤ} {customer : String} :
      Answers t (.getCurrent run customer) w (w.currents (run, customer)) w
  | getCurrentFailed {w : World T} {run : ℤ} {customer : String} : Answers t (.getCurrent run customer) w none w
  | putCurrent {w : World T} {run : ℤ} {customer : String} {assignment : CurrentAssignment} :
      Answers t (.putCurrent run customer assignment) w ()
        { w with currents := Function.update w.currents (run, customer) (some assignment) }
  | putCurrentFailed {w : World T} {run : ℤ} {customer : String} {assignment : CurrentAssignment} :
      Answers t (.putCurrent run customer assignment) w () w

/-- Meanwhile a new run is committed, a copy expires, or another process stores a copy under the run it is of. -/
inductive Meanwhile : World T → World T → Prop where
  | recorded {w : World T} {run : ℤ} (hnew : w.latest < run) : Meanwhile w { w with latest := run }
  | listExpired {w : World T} (run : ℤ) : Meanwhile w { w with lists := Function.update w.lists run none }
  | currentExpired {w : World T} (key : ℤ × String) :
      Meanwhile w { w with currents := Function.update w.currents key none }
  | listStored {w : World T} {list : SegmentList} : Meanwhile w
      { w with lists := Function.update w.lists list.run (some list) }
  | currentStored {w : World T} {key : ℤ × String} {assignment : CurrentAssignment}
      (hfiled : ∀ run, assignment.runId = some run → run = key.1) :
      Meanwhile w { w with currents := Function.update w.currents key (some assignment) }

def machine : Machine T Command Reply (World T) where
  step := Answers
  env := Meanwhile
  halt _ w w' := w' = w

/-- Every task at its start, and a process that has not asked yet. -/
def initial (cache : Bool) (task : T → Task) (latest : ℤ) : Config T Command Reply ApiError Answer (World T) :=
  .initial (fun t => (task t).prog cache) ⟨latest, none, fun _ => none, fun _ => none, [], fun _ => 0⟩

/-- The tracker has not been moved to a newer run than the one that is about to be stored since that was read;
and the tracker is at the latest run when an assignment is read that will be cached. -/
def Ordered (cache : Bool) (t : T) (c : Command) (w : World T) : Prop :=
  (∀ run, c = .store run → ∀ run' ∈ w.moves.drop (w.asked t), run' ≤ run) ∧
    ∀ customer, c = .readCurrent customer → cache = true → w.latest ≤ w.tracked

end Machine

/-! ### What the tasks keep -/

section Contract

variable {T : Type} [DecidableEq T] {cache : Bool}

/-- Where a task is since a run was known: at its start, having asked for the latest run, with the run whose
copies it asks for, with a list or an assignment that it has read, or with an answer. -/
inductive Point where
  | any
  | since (known : ℤ)
  | asked (known run : ℤ)
  | keyed (known run : ℤ)
  | listed (known : ℤ) (read : Option ℤ)
  | fetched (known run : ℤ) (read : Option ℤ)
  | answered (known : ℤ) (run : Option ℤ)

/-- The process can no longer answer from an older run. -/
def Known (cache : Bool) (run : ℤ) (w : World T) : Prop := run ≤ w.latest ∧ (cache = true → run ≤ w.tracked)

/-- Copies are under the run they are of, or under an older one that the tracker has left. -/
structure Sound (w : World T) : Prop where
  tracked : noRun ≤ w.tracked ∧ w.tracked ≤ w.latest
  lists : ∀ run list run', w.lists run = some list → list.runId = some run' → run' = run
  currents : ∀ key assignment run, w.currents key = some assignment → assignment.runId = some run →
    key.1 ≤ run ∧ (run = key.1 ∨ run ≤ w.tracked)

def At (cache : Bool) (t : T) : Point → World T → Prop
  | .any, _ => True
  | .since known, w => Known cache known w
  | .asked known run, w => Known cache known w ∧ known ≤ run ∧ run ≤ w.latest ∧ w.asked t ≤ w.moves.length ∧
      ((∀ run' ∈ w.moves.drop (w.asked t), run' ≤ run) → w.tracked ≤ run)
  | .keyed known run, w => Known cache known w ∧ known ≤ run ∧ run ≤ w.tracked
  | .listed known read, w => Known cache known w ∧ noRun ≤ read.getD noRun ∧ read.getD noRun ≤ w.latest ∧
      ∀ run', read = some run' → known ≤ run'
  | .fetched known run read, w => Known cache known w ∧
      ∀ run', read = some run' → known ≤ run' ∧ run ≤ run' ∧ run' ≤ w.tracked
  | .answered known run, w => Known cache known w ∧ ∀ run', run = some run' → known ≤ run' ∧ Known cache run' w

/-- The tracked run does not decrease. -/
def Forward (w w' : World T) : Prop := ∀ held, w.tracker = some held → ∃ held',
    w'.tracker = some held' ∧ held ≤ held'

def contract (T : Type) (cache : Bool) : Contract T Command Reply (World T) Point where
  inv := Sound
  at_ := At cache
  guar _ _ w _ w' := Forward w w'

/-- As far as one task is concerned, the world has only moved on. -/
structure Extends (t : T) (w w' : World T) : Prop where
  asked : w'.asked t = w.asked t
  latest : w.latest ≤ w'.latest
  tracked : w.tracked ≤ w'.tracked
  moves : ∃ later, w'.moves = w.moves ++ later ∧ (w'.tracked = w.tracked ∨ w'.tracked ∈ later)

variable {t : T} {w w' : World T}

omit [DecidableEq T] in
theorem Forward.refl (w : World T) : Forward w w := fun held hheld => ⟨held, hheld, Int.le_refl held⟩

omit [DecidableEq T] in
theorem Forward.trans {w'' : World T} (h : Forward w w') (h' : Forward w' w'') : Forward w w'' := by
  intro held hheld
  obtain ⟨held', hheld', hle⟩ := h held hheld
  obtain ⟨held'', hheld'', hle'⟩ := h' held' hheld'
  exact ⟨held'', hheld'', Int.le_trans hle hle'⟩

omit [DecidableEq T] in
theorem Forward.of_tracker (h : w'.tracker = w.tracker) : Forward w w' := fun held hheld =>
  ⟨held, h.trans hheld, Int.le_refl held⟩

omit [DecidableEq T] in
theorem Known.extend {run : ℤ} (hknown : Known cache run w) (h : Extends t w w') : Known cache run w' :=
  ⟨Int.le_trans hknown.1 h.latest, fun hcache => Int.le_trans (hknown.2 hcache) h.tracked⟩

omit [DecidableEq T] in
theorem Extends.of_tracker (hasked : w'.asked t = w.asked t) (hlatest : w.latest ≤ w'.latest)
    (htracker : w'.tracker = w.tracker) (hmoves : w'.moves = w.moves) : Extends t w w' := by
  have htracked : w'.tracked = w.tracked := congrArg (Option.getD · noRun) htracker
  exact ⟨hasked, hlatest, Int.le_of_eq htracked.symm, [], hmoves.trans (List.append_nil _).symm, .inl htracked⟩

omit [DecidableEq T] in
theorem Extends.at_ (h : Extends t w w') {point : Point} (hat : At cache t point w) : At cache t point w' := by
  cases point with
  | any => trivial
  | since known => exact Known.extend hat h
  | asked known run =>
      obtain ⟨hknown, hle, hlatest, hasked, htracked⟩ := hat
      obtain ⟨later, hlater, hmoved⟩ := h.moves
      refine ⟨hknown.extend h, hle, Int.le_trans hlatest h.latest, ?_, ?_⟩
      · rw [h.asked, hlater, List.length_append]
        exact Nat.le_add_right_of_le hasked
      · rw [h.asked, hlater, List.drop_append_of_le_length hasked]
        intro hmoves
        rcases hmoved with heq | hmem
        · rw [heq]
          exact htracked fun run' hmem => hmoves run' (List.mem_append_left _ hmem)
        · exact hmoves _ (List.mem_append_right _ hmem)
  | keyed known run =>
      obtain ⟨hknown, hle, htracked⟩ := hat
      exact ⟨hknown.extend h, hle, Int.le_trans htracked h.tracked⟩
  | listed known read =>
      obtain ⟨hknown, hrun, hlatest, hle⟩ := hat
      exact ⟨hknown.extend h, hrun, Int.le_trans hlatest h.latest, hle⟩
  | fetched known run read =>
      refine ⟨hat.1.extend h, fun run' hrun' => ?_⟩
      obtain ⟨hle, hkey, htracked⟩ := hat.2 run' hrun'
      exact ⟨hle, hkey, Int.le_trans htracked h.tracked⟩
  | answered known run =>
      exact ⟨hat.1.extend h, fun run' hrun' => ⟨(hat.2 run' hrun').1, (hat.2 run' hrun').2.extend h⟩⟩

/-! ### What moves -/

omit [DecidableEq T] in
theorem tracked_of_tracker {held : ℤ} (h : w.tracker = some held) : w.tracked = held := by
  unfold World.tracked
  rw [h]
  rfl

omit [DecidableEq T] in
theorem Extends.move {run : ℤ} (hle : w.tracked ≤ run) : Extends t w (w.move run) :=
  ⟨rfl, Int.le_refl _, hle, [run], rfl, .inr (List.mem_singleton_self run)⟩

omit [DecidableEq T] in
theorem Forward.move {run : ℤ} (hle : w.tracked ≤ run) : Forward w (w.move run) := fun _ hheld =>
  ⟨run, rfl, Int.le_trans (Int.le_of_eq (tracked_of_tracker hheld).symm) hle⟩

omit [DecidableEq T] in
theorem Sound.move (hinv : Sound w) {run : ℤ} (hle : w.tracked ≤ run) (hlatest : run ≤ w.latest) :
    Sound (w.move run) := by
  refine ⟨⟨Int.le_trans hinv.tracked.1 hle, hlatest⟩, hinv.lists, fun key assignment run' hcopy hrun' => ?_⟩
  obtain ⟨hkey, hmoved⟩ := hinv.currents key assignment run' hcopy hrun'
  exact ⟨hkey, hmoved.imp_right fun h => Int.le_trans h hle⟩

omit [DecidableEq T] in
theorem keeps_self (hinv : Sound w) : (contract T cache).Keeps t w w := ⟨hinv, fun _ _ _ hat => hat⟩

omit [DecidableEq T] in
theorem move_keeps (hinv : Sound w) {run : ℤ} (hle : w.tracked ≤ run) (hlatest : run ≤ w.latest) :
    (contract T cache).Keeps t w (w.move run) :=
  ⟨hinv.move hle hlatest, fun _ _ _ hat => (Extends.move hle).at_ hat⟩

omit [DecidableEq T] in
theorem Sound.setList (hinv : Sound w) {run : ℤ} {copy : Option SegmentList}
    (hcopy : ∀ list run', copy = some list → list.runId = some run' → run' = run) :
    Sound { w with lists := Function.update w.lists run copy } := by
  refine ⟨hinv.tracked, fun key list run' hlist hrun' => ?_, hinv.currents⟩
  by_cases hkey : key = run
  · subst hkey
    exact hcopy list run' ((Function.update_self key copy w.lists).symm.trans hlist) hrun'
  · exact hinv.lists key list run' ((Function.update_of_ne hkey copy w.lists).symm.trans hlist) hrun'

theorem SegmentList.run_of_runId {list : SegmentList} {run : ℤ} (hrun : list.runId = some run) : list.run = run :=
  congrArg (Option.getD · noRun) hrun

omit [DecidableEq T] in
theorem Sound.setCurrent (hinv : Sound w) {key : ℤ × String} {copy : Option CurrentAssignment}
    (hcopy : ∀ assignment run, copy = some assignment → assignment.runId = some run →
      key.1 ≤ run ∧ (run = key.1 ∨ run ≤ w.tracked)) :
    Sound { w with currents := Function.update w.currents key copy } := by
  refine ⟨hinv.tracked, hinv.lists, fun key' assignment run hassignment hrun => ?_⟩
  by_cases hkey : key' = key
  · subst hkey
    exact hcopy assignment run ((Function.update_self key' copy w.currents).symm.trans hassignment) hrun
  · exact hinv.currents key' assignment run ((Function.update_of_ne hkey copy w.currents).symm.trans hassignment) hrun

/-! ### Commands -/

abbrev ordered (T : Type) [DecidableEq T] (cache : Bool) : Machine T Command Reply (World T) :=
  machine.guard (Ordered cache)

variable {known run : ℤ}

/-- A label of a task that knows of a run. -/
def Knows (t : T) (cache : Bool) (known : ℤ) (ℓ : Point) : Prop := ∀ w : World T,
    At cache t ℓ w → Known cache known w

theorem load_spec (hcache : cache = true) : (contract T cache).CmdSpec (ordered T cache) t .load (.since known)
    fun r point => r.elim (point = .since known) fun run => point = .keyed known run := by
  intro w r w' hinv hat hstep
  obtain ⟨-, hstep⟩ := hstep
  change Answers t .load w r w' at hstep
  cases hstep with
  | load =>
      refine ⟨.refl w, keeps_self hinv, ?_⟩
      cases htracker : w.tracker with
      | none => exact ⟨.since known, hat, rfl⟩
      | some held =>
          have htracked := tracked_of_tracker htracker
          exact ⟨.keyed known held, ⟨hat, htracked ▸ hat.2 hcache, Int.le_of_eq htracked.symm⟩, rfl⟩

theorem selectRun_spec (known : ℤ) : (contract T cache).CmdSpec (ordered T cache) t .selectRun (.since known)
    fun r point => ∀ run, r = .ok run → point = .asked known run := by
  intro w r w' hinv hat hstep
  obtain ⟨-, hstep⟩ := hstep
  change Answers t .selectRun w r w' at hstep
  cases hstep with
  | selectRun =>
      have hasked : Function.update w.asked t w.moves.length t = w.moves.length := Function.update_self _ _ _
      have hothers : ∀ u, u ≠ t → Extends u w { w with asked := Function.update w.asked t w.moves.length } :=
        fun u hu => .of_tracker (Function.update_of_ne hu _ _) (Int.le_refl _) rfl rfl
      refine ⟨.of_tracker rfl, ⟨⟨hinv.tracked, hinv.lists, hinv.currents⟩, fun u hu _ hat => (hothers u hu).at_ hat⟩,
        .asked known w.latest, ⟨hat, hat.1, Int.le_refl _, Nat.le_of_eq hasked, fun _ => hinv.tracked.2⟩,
          fun run hr => ?_⟩
      rw [Except.ok.inj hr]
  | selectRefused => exact ⟨.refl w, keeps_self hinv, .any, trivial, nofun⟩

theorem store_spec (known run : ℤ) : (contract T cache).CmdSpec (ordered T cache) t (.store run) (.asked known run)
    fun _ point => point = .keyed known run := by
  intro w r w' hinv hat hstep
  obtain ⟨hordered, hstep⟩ := hstep
  change Answers t (.store run) w r w' at hstep
  obtain ⟨hknown, hle, hlatest, -, htracked⟩ := hat
  have hmove : w.tracked ≤ run := htracked (hordered.1 run rfl)
  cases hstep with
  | store =>
      exact ⟨.move hmove, move_keeps hinv hmove hlatest, .keyed known run,
        ⟨hknown.extend (t := t) (.move hmove), hle, Int.le_refl run⟩, rfl⟩

theorem getList_spec (known run : ℤ) : (contract T cache).CmdSpec (ordered T cache) t (.getList run)
    (.keyed known run)
    fun r point => r.elim (point = .keyed known run) fun list => point = .answered known list.runId := by
  intro w r w' hinv hat hstep
  obtain ⟨-, hstep⟩ := hstep
  change Answers t (.getList run) w r w' at hstep
  cases hstep with
  | getList =>
      refine ⟨.refl w, keeps_self hinv, ?_⟩
      cases hlist : w.lists run with
      | none => exact ⟨.keyed known run, hat, rfl⟩
      | some list =>
          obtain ⟨hknown, hle, htracked⟩ := hat
          refine ⟨.answered known list.runId, ⟨hknown, fun run' hrun' => ?_⟩, rfl⟩
          rw [hinv.lists run list run' hlist hrun']
          exact ⟨hle, Int.le_trans htracked hinv.tracked.2, fun _ => htracked⟩
  | getListFailed => exact ⟨.refl w, keeps_self hinv, .keyed known run, hat, rfl⟩

theorem readList_spec {ℓ : Point} (hℓ : Knows t cache known ℓ) :
    (contract T cache).CmdSpec (ordered T cache) t .readList ℓ
      fun r point => ∀ list, r = .ok list → point = .listed known list.runId := by
  intro w r w' hinv hat hstep
  obtain ⟨-, hstep⟩ := hstep
  change Answers t .readList w r w' at hstep
  cases hstep with
  | @readList _ list hlist =>
      have hknown := hℓ w hat
      refine ⟨.refl w, keeps_self hinv, .listed known list.runId, ⟨hknown, ?_⟩, fun list' hr => ?_⟩
      · have hnone : noRun ≤ w.latest := Int.le_trans hinv.tracked.1 hinv.tracked.2
        refine and_assoc.mp ⟨?_, fun run' hrun' => (hlist run' hrun').symm ▸ hknown.1⟩
        cases hrun : list.runId with
        | none => exact ⟨Int.le_refl noRun, hnone⟩
        | some run =>
            obtain rfl := hlist run hrun
            exact ⟨hnone, Int.le_refl _⟩
      · rw [Except.ok.inj hr]
  | readListRefused => exact ⟨.refl w, keeps_self hinv, .any, trivial, nofun⟩

theorem advance_spec (known : ℤ) (list : SegmentList) :
    (contract T cache).CmdSpec (ordered T cache) t (.advance list.run) (.listed known list.runId)
      fun _ point => point = .answered known list.runId := by
  intro w r w' hinv hat hstep
  obtain ⟨-, hstep⟩ := hstep
  change Answers t (.advance list.run) w r w' at hstep
  obtain ⟨hknown, hrun, hlatest, hle⟩ := hat
  cases hstep with
  | advanced hnew =>
      have hmove : w.tracked ≤ list.run := by
        cases htracker : w.tracker with
        | none =>
            unfold World.tracked
            rw [htracker]
            exact hrun
        | some held => exact (tracked_of_tracker htracker).symm ▸ Int.le_of_lt (hnew held htracker)
      refine ⟨.move hmove, move_keeps hinv hmove hlatest, .answered known list.runId,
        ⟨hknown.extend (t := t) (.move hmove), fun run' hrun' => ?_⟩, rfl⟩
      obtain rfl := SegmentList.run_of_runId hrun'
      exact ⟨hle _ hrun', hlatest, fun _ => Int.le_refl _⟩
  | ahead hheld hold =>
      refine ⟨.refl w, keeps_self hinv, .answered known list.runId, ⟨hknown, fun run' hrun' => ?_⟩, rfl⟩
      obtain rfl := SegmentList.run_of_runId hrun'
      exact ⟨hle _ hrun', hlatest, fun _ => (tracked_of_tracker hheld).symm ▸ hold⟩

theorem putList_spec (known : ℤ) (list : SegmentList) :
    (contract T cache).CmdSpec (ordered T cache) t (.putList list.run list) (.answered known list.runId)
      fun _ point => point = .answered known list.runId := by
  intro w r w' hinv hat hstep
  obtain ⟨-, hstep⟩ := hstep
  change Answers t (.putList list.run list) w r w' at hstep
  cases hstep with
  | putList =>
      refine ⟨.of_tracker rfl, ⟨hinv.setList fun list' run' hlist' hrun' => ?_, fun u _ _ hat => Extends.at_ ?_ hat⟩, _, hat, rfl⟩
      · obtain rfl := Option.some.inj hlist'
        exact (SegmentList.run_of_runId hrun').symm
      · exact .of_tracker rfl (Int.le_refl _) rfl rfl
  | putListFailed => exact ⟨.refl w, keeps_self hinv, _, hat, rfl⟩

theorem getCurrent_spec (known run : ℤ) (customer : String) :
    (contract T cache).CmdSpec (ordered T cache) t (.getCurrent run customer) (.keyed known run)
      fun r point => r.elim (point = .keyed known run) fun assignment =>
        point = .answered known assignment.runId := by
  intro w r w' hinv hat hstep
  obtain ⟨-, hstep⟩ := hstep
  change Answers t (.getCurrent run customer) w r w' at hstep
  cases hstep with
  | getCurrent =>
      refine ⟨.refl w, keeps_self hinv, ?_⟩
      cases hcopy : w.currents (run, customer) with
      | none => exact ⟨.keyed known run, hat, rfl⟩
      | some assignment =>
          obtain ⟨hknown, hle, htracked⟩ := hat
          refine ⟨.answered known assignment.runId, ⟨hknown, fun run' hrun' => ?_⟩, rfl⟩
          obtain ⟨hkey, hmoved⟩ := hinv.currents _ _ run' hcopy hrun'
          have hreached : run' ≤ w.tracked := hmoved.elim (fun h => Int.le_trans (Int.le_of_eq h) htracked) id
          exact ⟨Int.le_trans hle hkey, Int.le_trans hreached hinv.tracked.2, fun _ => hreached⟩
  | getCurrentFailed => exact ⟨.refl w, keeps_self hinv, .keyed known run, hat, rfl⟩

theorem readList_uncached (hcache : cache = false) (known : ℤ) :
    (contract T cache).CmdSpec (ordered T cache) t .readList (.since known)
      fun r point => ∀ list, r = .ok list → point = .answered known list.runId := by
  intro w r w' hinv hat hstep
  obtain ⟨-, hstep⟩ := hstep
  change Answers t .readList w r w' at hstep
  cases hstep with
  | @readList _ list hlist =>
      refine ⟨.refl w, keeps_self hinv, .answered known list.runId, ⟨hat, fun run' hrun' => ?_⟩,
        fun list' hr => ?_⟩
      · rw [hlist run' hrun']
        exact ⟨hat.1, Int.le_refl _, fun h => absurd (hcache.symm.trans h) nofun⟩
      · rw [Except.ok.inj hr]
  | readListRefused => exact ⟨.refl w, keeps_self hinv, .any, trivial, nofun⟩

theorem readCurrent_spec (hcache : cache = true) (known run : ℤ) (customer : String) :
    (contract T cache).CmdSpec (ordered T cache) t (.readCurrent customer) (.keyed known run)
      fun r point => ∀ assignment, r = .ok assignment → point = .fetched known run assignment.runId := by
  intro w r w' hinv hat hstep
  obtain ⟨hordered, hstep⟩ := hstep
  change Answers t (.readCurrent customer) w r w' at hstep
  cases hstep with
  | @readCurrent _ _ assignment hcurrent =>
      obtain ⟨hknown, -, htracked⟩ := hat
      refine ⟨.refl w, keeps_self hinv, .fetched known run assignment.runId, ⟨hknown, fun run' hrun' => ?_⟩,
        fun a hr => ?_⟩
      · rw [hcurrent run' hrun']
        exact ⟨hknown.1, Int.le_trans htracked hinv.tracked.2, hordered.2 customer rfl hcache⟩
      · rw [Except.ok.inj hr]
  | readCurrentRefused => exact ⟨.refl w, keeps_self hinv, .any, trivial, nofun⟩

theorem readCurrent_uncached (hcache : cache = false) (known : ℤ) (customer : String) :
    (contract T cache).CmdSpec (ordered T cache) t (.readCurrent customer) (.since known)
      fun r point => ∀ assignment, r = .ok assignment → point = .answered known assignment.runId := by
  intro w r w' hinv hat hstep
  obtain ⟨-, hstep⟩ := hstep
  change Answers t (.readCurrent customer) w r w' at hstep
  cases hstep with
  | @readCurrent _ _ assignment hcurrent =>
      refine ⟨.refl w, keeps_self hinv, .answered known assignment.runId, ⟨hat, fun run' hrun' => ?_⟩,
        fun a hr => ?_⟩
      · rw [hcurrent run' hrun']
        exact ⟨hat.1, Int.le_refl _, fun h => absurd (hcache.symm.trans h) nofun⟩
      · rw [Except.ok.inj hr]
  | readCurrentRefused => exact ⟨.refl w, keeps_self hinv, .any, trivial, nofun⟩

theorem putCurrent_spec (known run : ℤ) (customer : String) (assignment : CurrentAssignment) :
    (contract T cache).CmdSpec (ordered T cache) t (.putCurrent run customer assignment)
      (.fetched known run assignment.runId) fun _ point => point = .answered known assignment.runId := by
  intro w r w' hinv hat hstep
  obtain ⟨-, hstep⟩ := hstep
  change Answers t (.putCurrent run customer assignment) w r w' at hstep
  obtain ⟨hknown, hassigned⟩ := hat
  have hanswered : ∀ run', assignment.runId = some run' → known ≤ run' ∧ Known cache run' w := fun run' hrun' => by
    obtain ⟨hle, -, htracked⟩ := hassigned run' hrun'
    exact ⟨hle, Int.le_trans htracked hinv.tracked.2, fun _ => htracked⟩
  cases hstep with
  | putCurrent =>
      refine ⟨.of_tracker rfl, ⟨hinv.setCurrent fun a run' ha hrun' => ?_, fun u _ _ hat => Extends.at_ ?_ hat⟩,
        .answered known assignment.runId, ⟨hknown, hanswered⟩, rfl⟩
      · obtain rfl := Option.some.inj ha
        exact ⟨(hassigned run' hrun').2.1, .inr (hassigned run' hrun').2.2⟩
      · exact .of_tracker rfl (Int.le_refl _) rfl rfl
  | putCurrentFailed => exact ⟨.refl w, keeps_self hinv, .answered known assignment.runId, ⟨hknown, hanswered⟩, rfl⟩

/-! ### Programs -/

theorem orReturn_safe {α : Type} {ℓ : Point} {Q : α → Point → Prop} (r : Except ApiError α)
    (hr : ∀ a, r = .ok a → Q a ℓ) :
    (contract T cache).Safe (ordered T cache) t (orReturn r) ℓ (Contract.Ends Q fun _ _ => True) := by
  cases r with
  | ok a => exact hr a rfl
  | error e => trivial

theorem refreshRun_safe (known : ℤ) : (contract T cache).Safe (ordered T cache) t refreshRun (.since known)
    (Contract.Ends (fun run point => point = .keyed known run) fun _ _ => True) := by
  simp only [refreshRun, Prog.send_bind]
  refine (selectRun_spec known).mono fun r point hr => Contract.safe_seq
    (orReturn_safe (Q := fun run point => point = .asked known run) r hr) ?_
  rintro run point rfl
  exact (store_spec known run).mono fun _ _ hpoint => hpoint

theorem askedRun_safe (hcache : cache = true) (known : ℤ) :
    (contract T cache).Safe (ordered T cache) t askedRun (.since known)
      (Contract.Ends (fun run point => point = .keyed known run) fun _ _ => True) := by
  refine (load_spec hcache).mono fun r point hpoint => ?_
  cases r with
  | some run => exact hpoint
  | none =>
      obtain rfl : point = .since known := hpoint
      exact refreshRun_safe known

/-- What is answered is of a run that no older one is answered from any more. -/
def Answered (known : ℤ) (run : Option ℤ) (point : Point) : Prop := run = none ∨ point = .answered known run

theorem list_safe (known : ℤ) : (contract T cache).Safe (ordered T cache) t (list cache) (.since known)
    (Contract.Ends (fun list point => Answered known list.runId point) fun _ _ => True) := by
  cases cache with
  | false =>
      refine (readList_uncached rfl known).mono fun r point hr => ?_
      exact orReturn_safe r fun list hlist => .inr (hr list hlist)
  | true =>
      refine Contract.safe_seq (askedRun_safe rfl known) ?_
      rintro run point rfl
      refine (getList_spec known run).mono fun copy point hpoint => ?_
      cases copy with
      | some hit => exact .inr hpoint
      | none =>
          obtain rfl : point = .keyed known run := hpoint
          simp only [Prog.send_bind]
          have hknows : Knows t true known (.keyed known run) := fun w hat => hat.1
          refine (readList_spec hknows).mono fun r point hr => Contract.safe_seq
            (orReturn_safe (Q := fun list point => point = .listed known list.runId) r hr) ?_
          rintro fresh point rfl
          refine (advance_spec known fresh).mono ?_
          rintro - point rfl
          exact (putList_spec known fresh).mono fun _ _ hpoint => .inr hpoint

theorem current_safe (known : ℤ) (customer : String) :
    (contract T cache).Safe (ordered T cache) t (current cache customer) (.since known)
      (Contract.Ends (fun assignment point => Answered known assignment.runId point) fun _ _ => True) := by
  cases cache with
  | false =>
      refine (readCurrent_uncached rfl known customer).mono fun r point hr => ?_
      exact orReturn_safe r fun assignment hassignment => .inr (hr assignment hassignment)
  | true =>
      refine Contract.safe_seq (askedRun_safe rfl known) ?_
      rintro run point rfl
      refine (getCurrent_spec known run customer).mono fun copy point hpoint => ?_
      cases copy with
      | some hit => exact .inr hpoint
      | none =>
          obtain rfl : point = .keyed known run := hpoint
          simp only [Prog.send_bind]
          refine (readCurrent_spec rfl known run customer).mono fun r point hr => Contract.safe_seq
            (orReturn_safe (Q := fun fresh point => point = .fetched known run fresh.runId) r hr) ?_
          rintro fresh point rfl
          exact (putCurrent_spec known run customer fresh).mono fun _ _ hpoint => .inr hpoint

theorem Task.prog_safe (task : Task) (known : ℤ) :
    (contract T cache).Safe (ordered T cache) t (task.prog cache) (.since known)
      (Contract.Ends (fun answer point => Answered known answer.run point) fun _ _ => True) := by
  cases task with
  | list => exact Contract.safe_seq (list_safe known) fun _ _ hanswered => hanswered
  | current customer => exact Contract.safe_seq (current_safe known customer) fun _ _ hanswered => hanswered
  | event => exact Contract.safe_seq (refreshRun_safe known) fun _ _ _ => .inl rfl

omit [DecidableEq T] in
theorem Meanwhile.forward (h : Meanwhile w w') : Forward w w' := by
  cases h <;> exact .of_tracker rfl

omit [DecidableEq T] in
theorem Meanwhile.keeps (hinv : Sound w) (h : Meanwhile w w') : Sound w' ∧ ∀ t, Extends t w w' := by
  cases h with
  | recorded hnew =>
      have hlatest := Int.le_of_lt hnew
      exact ⟨⟨⟨hinv.tracked.1, Int.le_trans hinv.tracked.2 hlatest⟩, hinv.lists, hinv.currents⟩,
        fun t => .of_tracker rfl hlatest rfl rfl⟩
  | listExpired run => exact ⟨hinv.setList nofun, fun t => .of_tracker rfl (Int.le_refl _) rfl rfl⟩
  | currentExpired key => exact ⟨hinv.setCurrent nofun, fun t => .of_tracker rfl (Int.le_refl _) rfl rfl⟩
  | listStored =>
      refine ⟨hinv.setList fun list run hlist hrun => ?_, fun t => .of_tracker rfl (Int.le_refl _) rfl rfl⟩
      obtain rfl := Option.some.inj hlist
      exact (SegmentList.run_of_runId hrun).symm
  | currentStored hfiled =>
      refine ⟨hinv.setCurrent fun assignment run ha hrun => ?_,
        fun t => .of_tracker rfl (Int.le_refl _) rfl rfl⟩
      obtain rfl := Option.some.inj ha
      exact ⟨Int.le_of_eq (hfiled run hrun).symm, .inl (hfiled run hrun)⟩

theorem closed : (contract T cache).Closed (ordered T cache) where
  env w w' hinv henv := by
    obtain ⟨hsound, hextends⟩ := Meanwhile.keeps hinv henv
    exact ⟨hsound, fun t _ hat => (hextends t).at_ hat⟩
  halt t w w' hinv hhalt := by
    obtain rfl : w' = w := hhalt
    exact keeps_self hinv

end Contract

/-! ### Every run -/

section Runs

variable {T : Type} [DecidableEq T] {cache : Bool}

abbrev SegmentsConfig (T : Type) := Config T Command Reply ApiError Answer (World T)

omit [DecidableEq T] in
theorem sound_initial {latest : ℤ} (hlatest : noRun ≤ latest) :
    Sound (⟨latest, none, fun _ => none, fun _ => none, [], fun _ => 0⟩ : World T) :=
  ⟨⟨Int.le_refl _, hlatest⟩, nofun, nofun⟩

theorem good_of_reaches (task : T → Task) {latest : ℤ} (hlatest : noRun ≤ latest) {cfg : SegmentsConfig T}
    (hrun : (ordered T cache).Reaches (initial cache task latest) cfg) :
    (contract T cache).Good (ordered T cache)
      (fun _ => Contract.Ends (fun answer point => Answered noRun answer.run point) fun _ _ => True) cfg := by
  refine Contract.Good.reaches closed (Contract.Good.initial (sound_initial hlatest) fun t => ?_) hrun
  exact ⟨.since noRun, ⟨hlatest, fun _ => Int.le_refl _⟩, (task t).prog_safe noRun⟩

/-- **Reads of segments.** If the latest run is only stored where the tracker has not been moved to a newer
one since it was read, and an assignment that will be cached is read where the tracker is at the latest run,
the tracked run does not decrease, and a task that starts when another has been answered from a run is not
answered from an older one. -/
theorem reads_forward (cache : Bool) (task : T → Task) {latest : ℤ} (hlatest : noRun ≤ latest)
    {cfg cfg' : SegmentsConfig T}
    (hrun : (ordered T cache).Reaches (initial cache task latest) cfg) (hlater : (ordered T cache).Reaches cfg cfg') :
    Forward cfg.state cfg'.state ∧ ∀ u answer run, cfg.threads u = some (.ret answer) → answer.run = some run →
      ∀ t, cfg.threads t = some ((task t).prog cache) → ∀ answer' run', cfg'.threads t = some (.ret answer') →
        answer'.run = some run' → run ≤ run' := by
  have hgood := good_of_reaches task hlatest hrun
  refine ⟨?_, fun u answer run hanswer hfrom t hstart answer' run' hanswer' hfrom' => ?_⟩
  · refine hgood.advances closed Forward.refl (fun _ _ _ => Forward.trans) (fun _ _ _ _ _ h => h) ?_ ?_ hlater
    · exact fun _ _ => Meanwhile.forward
    · intro _ w w' hhalt
      obtain rfl : w' = w := hhalt
      exact .refl w'
  · obtain ⟨point, hat, hanswered⟩ := hgood.ended hanswer
    obtain rfl : point = .answered noRun (some run) := by
      rcases hanswered with hnone | hpoint
      · cases hfrom.symm.trans hnone
      · rw [hpoint, hfrom]
    have hknown : (contract T cache).at_ t (.since run) cfg.state := (hat.2 run rfl).2
    have hfollowed := (hgood.follow hstart hknown ((task t).prog_safe run)).reaches closed hlater
    obtain ⟨point', hat', hends⟩ := hfollowed.ended hanswer'
    rw [Function.update_self] at hends
    rcases hends with hnone | rfl
    · cases hfrom'.symm.trans hnone
    · exact (hat'.2 run' hfrom').1

end Runs

/-! ### Two runs -/

/-- Redis and PostgreSQL where nothing fails. -/
def answer {T : Type} [DecidableEq T] (t : T) : (c : Command) → World T → Option (Reply c × World T)
  | .load, w => some (w.tracker, w)
  | .store run, w => some ((), w.move run)
  | .advance run, w => some ((), if w.tracker.all (· < run) then w.move run else w)
  | .selectRun, w => some (.ok w.latest, { w with asked := Function.update w.asked t w.moves.length })
  | .readList, w => some (.ok ⟨some w.latest, none, 0, []⟩, w)
  | .readCurrent customer, w => some (.ok ⟨customer, "assigned", none, none, none, none, none, some w.latest⟩, w)
  | .getList run, w => some (w.lists run, w)
  | .putList run list, w => some ((), { w with lists := Function.update w.lists run (some list) })
  | .getCurrent run customer, w => some (w.currents (run, customer), w)
  | .putCurrent run customer assignment, w =>
      some ((), { w with currents := Function.update w.currents (run, customer) (some assignment) })

theorem step_of_answer {T : Type} [DecidableEq T] {t : T} {c : Command} {r : Reply c} {w w' : World T}
    (h : answer t c w = some (r, w')) : machine.step t c w r w' := by
  cases c with
  | load =>
      obtain ⟨rfl, rfl⟩ := Prod.mk.inj (Option.some.inj h)
      exact .load
  | store run =>
      obtain ⟨rfl, rfl⟩ := Prod.mk.inj (Option.some.inj h)
      exact .store
  | advance run =>
      obtain ⟨rfl, rfl⟩ := Prod.mk.inj (Option.some.inj h)
      cases htracker : w.tracker with
      | none => exact .advanced fun held hheld => nomatch htracker.symm.trans hheld
      | some held =>
          by_cases hnew : held < run
          · simp only [Option.all_some, hnew, decide_true, if_true]
            refine .advanced fun held' hheld' => ?_
            rwa [← Option.some.inj (htracker.symm.trans hheld')]
          · simp only [Option.all_some, hnew, decide_false, Bool.false_eq_true, if_false]
            exact .ahead htracker (Int.not_lt.mp hnew)
  | selectRun =>
      obtain ⟨rfl, rfl⟩ := Prod.mk.inj (Option.some.inj h)
      exact .selectRun
  | readList =>
      obtain ⟨rfl, rfl⟩ := Prod.mk.inj (Option.some.inj h)
      exact .readList fun run hrun => (Option.some.inj hrun).symm
  | readCurrent customer =>
      obtain ⟨rfl, rfl⟩ := Prod.mk.inj (Option.some.inj h)
      exact .readCurrent fun run hrun => (Option.some.inj hrun).symm
  | getList run =>
      obtain ⟨rfl, rfl⟩ := Prod.mk.inj (Option.some.inj h)
      exact .getList
  | putList run list =>
      obtain ⟨rfl, rfl⟩ := Prod.mk.inj (Option.some.inj h)
      exact .putList
  | getCurrent run customer =>
      obtain ⟨rfl, rfl⟩ := Prod.mk.inj (Option.some.inj h)
      exact .getCurrent
  | putCurrent run customer assignment =>
      obtain ⟨rfl, rfl⟩ := Prod.mk.inj (Option.some.inj h)
      exact .putCurrent

/-- Whether a command may be given where a cached process keeps its reads in order. -/
def mayIssue (t : Fin 3) (w : World (Fin 3)) : Command → Bool
  | .store run => (w.moves.drop (w.asked t)).all (· ≤ run)
  | .readCurrent _ => w.latest ≤ w.tracked
  | _ => true

def orderedAnswer (t : Fin 3) (c : Command) (w : World (Fin 3)) : Option (Reply c × World (Fin 3)) :=
  if mayIssue t w c then answer t c w else none

theorem step_of_orderedAnswer {t : Fin 3} {c : Command} {r : Reply c} {w w' : World (Fin 3)}
    (h : orderedAnswer t c w = some (r, w')) : (ordered (Fin 3) true).step t c w r w' := by
  unfold orderedAnswer at h
  split_ifs at h with hmay
  refine ⟨⟨fun run hc run' hrun' => ?_, fun customer hc _ => ?_⟩, step_of_answer h⟩
  · subst hc
    exact of_decide_eq_true (List.all_eq_true.mp hmay run' hrun')
  · subst hc
    exact of_decide_eq_true hmay

def World.record {T : Type} (w : World T) (run : ℤ) : World T := { w with latest := run }

/-- A new run is committed. -/
def recording (run : ℤ) (cfg : SegmentsConfig (Fin 3)) : SegmentsConfig (Fin 3) :=
  ⟨cfg.threads, cfg.state.record run⟩

theorem reaches_recording {M : Machine (Fin 3) Command Reply (World (Fin 3))} (hM : M.env = Meanwhile) {run : ℤ}
    {cfg : SegmentsConfig (Fin 3)} (hnew : cfg.state.latest < run) : M.Reaches cfg (recording run cfg) := by
  refine .single (.env ?_)
  rw [hM]
  exact .recorded hnew

def listing (t : Fin 3) : Task := if t.val = 1 then .event else .list

/-- The event of a new run moves the tracker, and the list that is asked for afterwards is of that run. -/
theorem reads_forward_event : ∃ cfg cfg' : SegmentsConfig (Fin 3), ∃ list list' : SegmentList,
    (ordered (Fin 3) true).Reaches (initial true listing 1) cfg ∧ cfg.threads 0 = some (.ret (.list list)) ∧
    list.runId = some 1 ∧ (ordered (Fin 3) true).Reaches cfg cfg' ∧ cfg'.threads 2 = some (.ret (.list list')) ∧
    list'.runId = some 2 ∧ Forward cfg.state cfg'.state ∧ (1 : ℤ) ≤ 2 := by
  have hrun : ((schedule orderedAnswer [0, 0, 0, 0, 0, 0, 0] (initial true listing 1)).any fun cfg =>
      cfg.state.latest < 2 ∧ outcome (cfg.threads 0) = some (.ok (.list ⟨some 1, none, 0, []⟩)) ∧
      (schedule orderedAnswer [1, 1, 2, 2, 2, 2, 2] (recording 2 cfg)).any fun cfg' =>
        outcome (cfg'.threads 2) = some (.ok (.list ⟨some 2, none, 0, []⟩))) = true := by
    decide +kernel
  obtain ⟨cfg, hcfg, hmid⟩ := (Option.any_eq_true _ _).mp hrun
  obtain ⟨hnew, hlist, hlast⟩ := of_decide_eq_true hmid
  obtain ⟨cfg', hcfg', hended⟩ := (Option.any_eq_true _ _).mp hlast
  have hturn : ∀ t c (w : World (Fin 3)) r w', orderedAnswer t c w = some (r, w') →
      (ordered (Fin 3) true).step t c w r w' := fun _ _ _ _ _ h => step_of_orderedAnswer h
  have hreaches := Machine.reaches_of_schedule _ hturn _ hcfg
  have hlater := (reaches_recording rfl hnew).trans (Machine.reaches_of_schedule _ hturn _ hcfg')
  have hstart : cfg.threads 2 = some ((listing 2).prog true) := threads_of_schedule _ (by decide) hcfg
  have hread := ret_of_outcome hlist
  have hread' := ret_of_outcome (of_decide_eq_true hended)
  obtain ⟨hforward, hreads⟩ := reads_forward true listing (by decide) hreaches hlater
  exact ⟨cfg, cfg', _, _, hreaches, hread, rfl, hlater, hread', rfl, hforward,
    hreads 0 _ 1 hread rfl 2 hstart _ 2 hread' rfl⟩

/-- Two events and nothing else. -/
def refreshing (_ : Fin 3) : Task := .event

def assigning (t : Fin 3) : Task := if t.val = 1 then .current "c" else .list

/-- The first event has read the run before and stores it when the second one has stored the new run. And an
assignment that is read when a new run has been committed is answered while the tracker is at the run before:
a list that is asked for afterwards is a copy of that. -/
theorem reads_backward :
    (∃ cfg cfg' : SegmentsConfig (Fin 3), machine.Reaches (initial true refreshing 1) cfg ∧
      machine.Reaches cfg cfg' ∧
      cfg.state.tracker = some 2 ∧ cfg'.state.tracker = some 1) ∧
    ∃ cfg cfg' : SegmentsConfig (Fin 3), ∃ assignment list, machine.Reaches (initial true assigning 1) cfg ∧
      cfg.threads 1 = some (.ret (.current assignment)) ∧ assignment.runId = some 2 ∧
      cfg.threads 2 = some ((assigning 2).prog true) ∧ machine.Reaches cfg cfg' ∧
      cfg'.threads 2 = some (.ret (.list list)) ∧ list.runId = some 1 := by
  have hturn : ∀ t c (w : World (Fin 3)) r w', answer t c w = some (r, w') → machine.step t c w r w' :=
    fun _ _ _ _ _ h => step_of_answer h
  constructor
  · have hrun : ((schedule answer [0] (initial true refreshing 1)).any fun start =>
        start.state.latest < 2 ∧ (schedule answer [1, 1] (recording 2 start)).any fun cfg =>
          cfg.state.tracker = some 2 ∧ (schedule answer [0] cfg).any fun cfg' =>
            cfg'.state.tracker = some 1) = true := by
      decide +kernel
    obtain ⟨start, hstart, hmid⟩ := (Option.any_eq_true _ _).mp hrun
    obtain ⟨hnew, hmid⟩ := of_decide_eq_true hmid
    obtain ⟨cfg, hcfg, hlast⟩ := (Option.any_eq_true _ _).mp hmid
    obtain ⟨htracker, hlast⟩ := of_decide_eq_true hlast
    obtain ⟨cfg', hcfg', htracker'⟩ := (Option.any_eq_true _ _).mp hlast
    have hreaches := (Machine.reaches_of_schedule _ hturn _ hstart).trans
      ((reaches_recording rfl hnew).trans (Machine.reaches_of_schedule _ hturn _ hcfg))
    exact ⟨cfg, cfg', hreaches, Machine.reaches_of_schedule _ hturn _ hcfg', htracker, of_decide_eq_true htracker'⟩
  · have hrun : ((schedule answer [0, 0, 0, 0, 0, 0, 0] (initial true assigning 1)).any fun start =>
        start.state.latest < 2 ∧ (schedule answer [1, 1, 1, 1] (recording 2 start)).any fun cfg =>
          outcome (cfg.threads 1) = some (.ok (.current ⟨"c", "assigned", none, none, none, none, none, some 2⟩)) ∧
          (schedule answer [2, 2] cfg).any fun cfg' =>
            outcome (cfg'.threads 2) = some (.ok (.list ⟨some 1, none, 0, []⟩))) = true := by
      decide +kernel
    obtain ⟨start, hstart, hmid⟩ := (Option.any_eq_true _ _).mp hrun
    obtain ⟨hnew, hmid⟩ := of_decide_eq_true hmid
    obtain ⟨cfg, hcfg, hlast⟩ := (Option.any_eq_true _ _).mp hmid
    obtain ⟨hcurrent, hlast⟩ := of_decide_eq_true hlast
    obtain ⟨cfg', hcfg', hlist⟩ := (Option.any_eq_true _ _).mp hlast
    have hreaches := (Machine.reaches_of_schedule _ hturn _ hstart).trans
      ((reaches_recording rfl hnew).trans (Machine.reaches_of_schedule _ hturn _ hcfg))
    have hthird : cfg.threads 2 = some ((assigning 2).prog true) := (threads_of_schedule _ (by decide) hcfg).trans
      (threads_of_schedule _ (by decide) hstart)
    exact ⟨cfg, cfg', _, _, hreaches, ret_of_outcome hcurrent, rfl, hthird,
      Machine.reaches_of_schedule _ hturn _ hcfg',
      ret_of_outcome (of_decide_eq_true hlist), rfl⟩

end RetailSegmentation.SegmentReads
