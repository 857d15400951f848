import RetailSegmentation.CheckInRuns

/-! A check-in is recorded once, and its request is recognised again exactly where its moment has whole
microseconds: `same_request` compares the moment as it was stored with the moment as it was parsed. -/

namespace RetailSegmentation.CheckIns

open Program Transactions

/-! ### Programs -/

/-- What a call asks for, where its token and its body can be read. -/
def Call.Reads (crates : Crates) (call : Call) (s : Submission) : Prop :=
  crates.uuid call.sub = some s.userId ∧ parseCheckIn crates call.body = .ok s.request

def Call.submission (crates : Crates) (call : Call) : Submission :=
  match crates.uuid call.sub, parseCheckIn crates call.body with
  | some userId, .ok request => ⟨userId, request⟩
  | _, _ => ⟨0, ⟨0, 0, ⟨0, 0⟩, none⟩⟩

theorem Call.Reads.submission {crates : Crates} {call : Call} {s : Submission} (h : call.Reads crates s) :
    call.submission crates = s := by
  rw [Call.submission, h.1, h.2]

/-- The refusals of a request that found no check-in. -/
inductive Judged (s : Submission) : Failure → Prop where
  | future : Judged s (.api occurredInFuture)
  | store : Judged s (.api (unknownStore s.request.storeId))
  | schema (e : DbError) : Judged s (writeError s.request.storeId e)

/-- Why a request fails: an abort, a recorded check-in that differs, or what it was judged by where none
was recorded before it began. -/
inductive Refused (s : Submission) (known : Option Row) : Failure → Stage → Prop where
  | aborted {e : DbError} (he : IsAbort e) (stage : Stage) : Refused s known (.database e) stage
  | conflict {row : Row} {verified : Bool}
      (hdiffers : ¬ (CheckIn.fromRow s.id row verified).SameRequest s.userId s.request) :
      Refused s known (.api conflict) (.found row)
  | judged {e : Failure} (he : Judged s e) (hknown : known = none) (stage : Stage) : Refused s known e stage

theorem Refused.undone {s : Submission} {known : Option Row} {e : Failure} {stage : Stage}
    (h : Refused s known e stage) : Refused s known e stage.undone := by
  cases h with
  | aborted he => exact .aborted he _
  | conflict hdiffers => exact .conflict hdiffers
  | judged he hknown => exact .judged he hknown _

/-- How a request is answered: with the row it recorded, or with the recorded one it equals. -/
def Answered (s : Submission) (known : Option Row) (answer : CheckIn × Outcome) (stage : Stage) : Prop :=
  ∃ row verified, answer.1 = .fromRow s.id row verified ∧ match answer.2 with
    | .created => known = none ∧ stage = .recorded row
    | .replayed => answer.1.SameRequest s.userId s.request ∧ stage = .found row

/-- What the body of the transaction leaves to commit or to drop. -/
def Prepared (s : Submission) (known : Option Row) (result : (CheckIn × Outcome) × Bool) (stage : Stage) :
    Prop :=
  (result.2 = true ∧ ∃ row verified, known = none ∧ result.1 = (.fromRow s.id row verified, .created) ∧
      stage = .inserted row) ∨
    (∃ row verified, result.1 = (.fromRow s.id row verified, .replayed) ∧ stage = .found row ∧
      (CheckIn.fromRow s.id row verified).SameRequest s.userId s.request)

section Programs

variable {crates : Crates} {s : Submission} {known : Option Row}

theorem follows_replay {row : Row} {verified commit : Bool} :
    (replay (.fromRow s.id row verified) s.userId s.request >>= fun answer =>
      (.ret (answer, commit) : CheckInProg _)).Follows (recording True s).protocol (.found row)
      (Contract.Ends (Prepared s known) (Refused s known)) := by
  unfold replay
  split_ifs with hsame
  · exact .inr ⟨row, verified, rfl, rfl, hsame⟩
  · exact .conflict hsame

theorem follows_recordBody (sub : String) (now : Moment) :
    (recordBody crates sub s.userId s.request now).Follows (recording True s).protocol (.idle known)
      (Contract.Ends (Prepared s known) (Refused s known)) := by
  have haborted : ∀ (stage : Stage) (e : DbError), False ∨ IsAbort e →
      Refused s known (.database e) stage := fun stage e he => .aborted (he.resolve_left id) stage
  apply Workflow.follows_step
  · trivial
  · rintro - stage rfl
    apply Workflow.follows_step
    · exact rfl
    · rintro v stage (⟨rfl, rfl, rfl⟩ | ⟨row, verified, rfl, rfl⟩)
      · dsimp only
        split_ifs
        · exact .judged .future rfl _
        · split
          · exact .judged .store rfl _
          · rename_i storeId hstore
            have hstoreId : storeId = s.request.storeId := by
              unfold asI16 at hstore
              split_ifs at hstore
              exact (Option.some.inj hstore).symm
            apply Workflow.follows_step
            · trivial
            · rintro store stage rfl
              split
              · exact .judged .store rfl _
              · apply Workflow.follows_step
                · exact ⟨⟨rfl, rfl, hstoreId, rfl, rfl, rfl, rfl⟩, trivial⟩
                · rintro v stage (⟨row, rfl, rfl⟩ | ⟨row, verified, rfl, rfl⟩)
                  · apply Workflow.follows_step
                    · exact rfl
                    · rintro winner stage ⟨verified, rfl, rfl⟩
                      exact follows_replay
                    · exact haborted _
                  · exact .inl ⟨rfl, row, verified, rfl, rfl, rfl⟩
                · exact fun e _ => .judged (.schema e) rfl _
            · exact haborted _
      · exact follows_replay
    · exact haborted _
  · exact haborted _

theorem follows_recordCheckIn {sub : String} (hsub : crates.uuid sub = some s.userId) (now : Moment) :
    (recordCheckIn crates sub s.request now).Follows (recording True s).protocol (.idle known)
      (Contract.Ends (Answered s known) (Refused s known)) := by
  rw [recordCheckIn, hsub]
  apply Prog.Follows.bind (P := Prepared s known)
  · apply Prog.Follows.tryCatch (F := Refused s known)
    · exact follows_recordBody sub now
    · intro e stage he
      refine ⟨trivial, fun r stage' h => ?_⟩
      obtain rfl : stage' = stage.undone := by
        cases r with
        | ok _ => exact h
        | error e' => exact h.2
      exact he.undone
  · rintro ⟨answer, commit⟩ stage hprepared
    have hmay : (recording True s).commits stage := by
      rcases hprepared with ⟨-, row, verified, -, -, rfl⟩ | ⟨row, verified, -, rfl, -⟩ <;> trivial
    have hafter : Answered s known answer stage.after := by
      rcases hprepared with ⟨-, row, verified, rfl, rfl, rfl⟩ | ⟨row, verified, rfl, rfl, hsame⟩
      · exact ⟨row, verified, rfl, rfl, rfl⟩
      · exact ⟨row, verified, rfl, hsame, rfl⟩
    cases commit with
    | true =>
        refine ⟨hmay, fun r stage' h => ?_⟩
        cases r with
        | ok _ =>
            obtain rfl : stage' = stage.after := h
            exact hafter
        | error e => exact .aborted h.1 stage'
    | false =>
        rcases hprepared with ⟨hcommit, -⟩ | ⟨row, verified, rfl, rfl, hsame⟩
        · cases hcommit
        · refine ⟨trivial, fun r stage' h => ?_⟩
          obtain rfl : stage' = .found row := by
            cases r with
            | ok _ => exact h
            | error e => exact h.2
          exact ⟨row, verified, rfl, hsame, rfl⟩

def Ending (crates : Crates) (call : Call) (known : Option Row) (o : Except Failure (CheckIn × Outcome))
    (stage : Stage) : Prop :=
  ∀ s, call.Reads crates s → Contract.Ends (Answered s known) (Refused s known) o stage

theorem follows_program (crates : Crates) (call : Call) (known : Option Row) :
    (call.program crates).Follows
      (recording (∃ s, call.Reads crates s) (call.submission crates)).protocol (.idle known)
      (Ending crates call known) := by
  rw [Call.program]
  split
  · rename_i e herror
    rintro s ⟨-, hparse⟩
    exact absurd (herror.symm.trans hparse) nofun
  · rename_i request hparse
    cases hsub : crates.uuid call.sub with
    | none =>
        rw [recordCheckIn, hsub]
        rintro s ⟨huser, -⟩
        exact absurd (hsub.symm.trans huser) nofun
    | some userId =>
        have hreads : call.Reads crates ⟨userId, request⟩ := ⟨hsub, hparse⟩
        have hreadable : (∃ s, call.Reads crates s) = True := eq_true ⟨_, hreads⟩
        rw [hreads.submission, hreadable]
        refine (follows_recordCheckIn (s := ⟨userId, request⟩) hsub call.now).mono fun o stage h s hs => ?_
        rw [← hs.submission, hreads.submission]
        exact h

end Programs

section Runs

variable {T : Type} [DecidableEq T]

abbrev CheckInConfig (T : Type) : Type :=
  Config T (Request Statement) (Reply Result DbError) Failure (CheckIn × Outcome) (CheckInDb T)

def initial (crates : Crates) (calls : T → Call) (start : AList fun _ : Uuid => Row)
    (around : Surroundings) : CheckInConfig T :=
  Config.initial (fun t => (calls t).program crates) (.ofRows start around)

variable {crates : Crates} {calls : T → Call} {start before : AList fun _ : Uuid => Row}
  {around : Surroundings} {mid cfg : CheckInConfig T}

variable (crates calls start before) in
/-- The contract of the calls `calls`. -/
def callContract : Contract T (Request Statement) (Reply Result DbError) (CheckInDb T) Stage :=
  checkInContract (fun t => (calls t).submission crates) (fun t => ∃ s, (calls t).Reads crates s) start
    before

variable (crates calls) in
def callProtocol (t : T) : Protocol (Request Statement) (Reply Result DbError) Stage :=
  (recording (∃ s, (calls t).Reads crates s) ((calls t).submission crates)).protocol

theorem callContract_implements :
    (callContract crates calls start before).Implements (checkInMachine T) (callProtocol crates calls) :=
  implements_workflow (fun _ _ _ _ _ h => ⟨trivial, h⟩) checkIn_answers checkIn_refuses checkIn_commits
    checkIn_rollsBack

theorem callContract_closed :
    (callContract crates calls start before).Closed (checkInMachine T) where
  env db db' hinv henv := by
    obtain ⟨around, rfl⟩ := henv
    exact ⟨⟨hinv.origin, hinv.persists, hinv.pending, hinv.authored, hinv.reads⟩, fun u _ hat =>
      At.leaves hat ⟨rfl, fun _ => Iff.rfl, fun _ _ h => h, fun _ => Iff.rfl⟩⟩
  halt t db db' hinv hhalt := by
    obtain rfl : db' = db.rollback t := hhalt
    exact keeps_of_leaves (rollback_consistent hinv t) fun u hu => rollback_leaves hinv hu

/-- Every call ends as it should, whatever was recorded before it began. -/
abbrev Obeying (crates : Crates) (calls : T → Call) (start before : AList fun _ : Uuid => Row)
    (known : T → Option Row) (cfg : CheckInConfig T) : Prop :=
  (callContract crates calls start before).Obeys (callProtocol crates calls)
    (fun t => Ending crates (calls t) (known t)) cfg

theorem obeying_initial (hrun : (checkInMachine T).Reaches (initial crates calls start around) cfg) :
    Obeying crates calls start start (fun _ => none) cfg := by
  apply Contract.Obeys.reaches callContract_implements callContract_closed _ hrun
  apply Contract.Obeys.initial
  · exact ⟨fun k row hrow => .inl hrow, fun _ _ h => h, fun _ k hk => absurd hk (AList.notMem_empty k),
      fun _ _ h => (Option.some_ne_none _ h.symm).elim, fun _ _ h => (Option.some_ne_none _ h.symm).elim⟩
  · intro t
    have hclean : Clean t (CheckInDb.ofRows start around : CheckInDb T) := ⟨rfl, fun _ => nofun⟩
    exact ⟨.idle none, At.unknown ⟨hclean, fun h => Option.some_ne_none t h.symm⟩,
      follows_program crates (calls t) none⟩

theorem Call.Reads.begins {call : Call} {s : Submission} (h : call.Reads crates s) :
    ∃ k, call.program crates = .call (.execute (.setConfig call.sub)) k := by
  rw [Call.program, h.2]
  dsimp only
  rw [recordCheckIn, h.1]
  exact ⟨_, rfl⟩

omit [DecidableEq T] in
theorem Call.Reads.at_iff {t : T} {s : Submission} (h : (calls t).Reads crates s) {stage : Stage}
    {db : CheckInDb T} : (callContract crates calls start before).at_ t stage db ↔ At s t db stage := by
  rw [← h.submission]
  rfl

/-- From any point of a run on its rows stay, and a call that has not begun there knows what is recorded. -/
theorem obeying_from (hmid : (checkInMachine T).Reaches (initial crates calls start around) mid)
    (hrun : (checkInMachine T).Reaches mid cfg) {t : T} {s : Submission} (hreads : (calls t).Reads crates s)
    (hbegun : mid.threads t = some ((calls t).program crates)) :
    Obeying crates calls start mid.state.rows.rows
      (Function.update (fun _ => none) t (mid.state.rows.rows.lookup s.id)) cfg := by
  have hobeys := obeying_initial hmid
  have hmoved : Obeying crates calls start mid.state.rows.rows (fun _ => none) mid :=
    ⟨⟨hobeys.inv.origin, fun _ _ h => h, hobeys.inv.pending, hobeys.inv.authored, hobeys.inv.reads⟩,
      hobeys.follows⟩
  apply Contract.Obeys.reaches callContract_implements callContract_closed _ hrun
  obtain ⟨k, hk⟩ := hreads.begins
  obtain ⟨stage, hat, hmay⟩ := hobeys.issues (hbegun.trans (congrArg some hk))
  have hidle : Clean t mid.state ∧ mid.state.author s.id ≠ some t := by
    cases stage with
    | idle known => exact (hreads.at_iff.mp hat).1
    | _ => exact hmay.elim
  have hknown : (callContract crates calls start mid.state.rows.rows).at_ t
      (.idle (mid.state.rows.rows.lookup s.id)) mid.state :=
    hreads.at_iff.mpr ⟨hidle, fun _ h => h⟩
  have hfollow := hmoved.follow hbegun hknown
    (follows_program crates (calls t) (mid.state.rows.rows.lookup s.id))
  have hends : Function.update (fun u => Ending crates (calls u) none) t
      (Ending crates (calls t) (mid.state.rows.rows.lookup s.id)) =
      fun u => Ending crates (calls u)
        (Function.update (fun _ => none) t (mid.state.rows.rows.lookup s.id) u) := by
    funext u
    by_cases hut : u = t
    · rw [hut, Function.update_self, Function.update_self]
    · rw [Function.update_of_ne hut, Function.update_of_ne hut]
  rw [hends] at hfollow
  exact hfollow

/-- What call `t` with `known` recorded before it began has come to. -/
structure Outcomes (t : T) (s : Submission) (known : Option Row) (cfg : CheckInConfig T) : Prop where
  created : ∀ c, cfg.threads t = some (.ret (c, .created)) → known = none ∧ ∃ row verified,
    cfg.state.rows.rows.lookup s.id = some row ∧ cfg.state.author s.id = some t ∧
    c = .fromRow s.id row verified
  replayed : ∀ c, cfg.threads t = some (.ret (c, .replayed)) → c.SameRequest s.userId s.request ∧
    (cfg.state.rows.pending t = ∅ ∧ cfg.state.author s.id ≠ some t) ∧ ∃ row verified,
    cfg.state.rows.rows.lookup s.id = some row ∧ c = .fromRow s.id row verified
  refused : ∀ e, cfg.threads t = some (.raise e) →
    (e = .api conflict ∧ ∃ row, cfg.state.rows.rows.lookup s.id = some row ∧
      ∀ verified, ¬ (CheckIn.fromRow s.id row verified).SameRequest s.userId s.request) ∨
    (∃ e', e = .database e' ∧ IsAbort e') ∨ known = none ∧ Judged s e

omit [DecidableEq T] in
theorem outcomes_of_obeying {known : T → Option Row} (hobeys : Obeying crates calls start before known cfg)
    {t : T} {s : Submission} (hreads : (calls t).Reads crates s) : Outcomes t s (known t) cfg := by
  refine ⟨fun c hthread => ?_, fun c hthread => ?_, fun e hthread => ?_⟩
  · obtain ⟨stage, hat, hended⟩ := hobeys.ended hthread
    obtain ⟨row, verified, hc, hnone, rfl⟩ := hended s hreads
    obtain ⟨-, hrow, hauthor⟩ := hreads.at_iff.mp hat
    exact ⟨hnone, row, verified, hrow, hauthor, hc⟩
  · obtain ⟨stage, hat, hended⟩ := hobeys.ended hthread
    obtain ⟨row, verified, hc, hsame, rfl⟩ := hended s hreads
    obtain ⟨⟨hclean, hauthor⟩, hrow⟩ := hreads.at_iff.mp hat
    exact ⟨hsame, ⟨hclean.pending, hauthor⟩, row, verified, hrow, hc⟩
  · obtain ⟨stage, hat, hended⟩ := hobeys.raised hthread
    have hrefused : Refused s (known t) e stage := hended s hreads
    cases hrefused with
    | aborted he => exact .inr (.inl ⟨_, rfl, he⟩)
    | @conflict row verified hdiffers =>
        exact .inl ⟨rfl, row, (hreads.at_iff.mp hat).2, fun verified' => hdiffers⟩
    | judged he hknown => exact .inr (.inr ⟨hknown, he⟩)

/-- **A check-in is recorded once, and recognised where its moment is whole.** In every run, while stores,
users and reviews change as they like: a recorded check-in stays; it carries the one request that inserted
it, and takes exactly the same requests for it if and only if that request's moment has whole
microseconds. A request is answered with the row it inserted, or, writing nothing, with the recorded one
it is taken for; otherwise it is a conflict with the recorded one it is not taken for, an abort, or judged
by itself, which no request is that began when its id was recorded. -/
theorem check_in_recorded_once (crates : Crates) (calls : T → Call) (start : AList fun _ : Uuid => Row)
    (around : Surroundings) {mid cfg : CheckInConfig T}
    (hmid : (checkInMachine T).Reaches (initial crates calls start around) mid)
    (hrun : (checkInMachine T).Reaches mid cfg) :
    (∀ id row, mid.state.rows.rows.lookup id = some row → cfg.state.rows.rows.lookup id = some row) ∧
    (∀ id row, cfg.state.rows.rows.lookup id = some row → start.lookup id = some row ∨
      ∃ t s, cfg.state.author id = some t ∧ (calls t).Reads crates s ∧ s.id = id ∧ Recorded s row ∧
        ∀ verified, (∀ s' : Submission, (CheckIn.fromRow id row verified).SameRequest s'.userId s'.request ↔
          s.Same s') ↔ s.request.occurredAt.Exact) ∧
    (∀ t s, (calls t).Reads crates s → Outcomes t s none cfg ∧
      (mid.threads t = some ((calls t).program crates) →
        Outcomes t s (mid.state.rows.rows.lookup s.id) cfg)) := by
  have hobeys : Obeying crates calls start start (fun _ => none) cfg := obeying_initial (hmid.trans hrun)
  have hkeeps : Obeying crates calls start mid.state.rows.rows (fun _ => none) cfg := by
    have hbefore := obeying_initial hmid
    exact Contract.Obeys.reaches callContract_implements callContract_closed ⟨⟨hbefore.inv.origin,
      fun _ _ h => h, hbefore.inv.pending, hbefore.inv.authored, hbefore.inv.reads⟩, hbefore.follows⟩ hrun
  refine ⟨hkeeps.inv.persists, fun id row hrow => ?_, fun t s hreads => ⟨?_, fun hbegun => ?_⟩⟩
  · refine (hobeys.inv.origin id row hrow).imp_right fun ⟨t, hauthor, hid, hrecorded⟩ => ?_
    obtain ⟨s, hreads⟩ := hobeys.inv.reads t id hauthor
    rw [hreads.submission] at hid hrecorded
    exact ⟨t, s, hauthor, hreads, hid, hrecorded, hrecorded.recognises_iff id⟩
  · exact outcomes_of_obeying hobeys hreads
  · have houtcomes := outcomes_of_obeying (obeying_from hmid hrun hreads hbegun) hreads
    rw [Function.update_self] at houtcomes
    exact houtcomes

end Runs

/-! ### A phone that retries -/

def phoneId : String := "0e6d5c4b-3a29-4817-96f5-a4b3c2d1e0f2"

def phoneUuid : Uuid := 0x0e6d5c4b3a29481796f5a4b3c2d1e0f2

/-- The readers on `phoneId` and on one moment of 2026-10-15 14:02:00. -/
def phoneCrates (nanos : ℕ) : Crates where
  uuid _ := some phoneUuid
  rfc3339 _ := some ⟨845388120, nanos⟩
  decimal _ := none
  haversineM _ _ := 0

def phoneBody (occurredAt : String) : Body
  | "client_check_in_id" => .string phoneId
  | "store_id" => .number "3" (some 3)
  | "occurred_at" => .string occurredAt
  | _ => .null

def phoneCall (occurredAt : String) : Call := ⟨phoneId, phoneBody occurredAt, ⟨845388130, 0⟩⟩

def phoneSurroundings : Surroundings :=
  ⟨fun n => if n = 3 then some ⟨true, none, none, none⟩ else none, fun _ => true, fun _ => none⟩

def phoneStart (nanos : ℕ) (occurredAt : String) : CheckInConfig Bool :=
  initial (phoneCrates nanos) (fun _ => phoneCall occurredAt) ∅ phoneSurroundings

def phoneRun (turns : List Bool) (cfg : CheckInConfig Bool) : Option (CheckInConfig Bool) :=
  schedule ((checkInServer Bool).respond (CheckInDb.answer ⟨7, 845388130000000⟩) fun _ _ _ => none) turns cfg

theorem reaches_of_phoneRun {turns : List Bool} {cfg cfg' : CheckInConfig Bool}
    (hrun : phoneRun turns cfg = some cfg') : (checkInMachine Bool).Reaches cfg cfg' := by
  have hanswer : ∀ t s db v db', CheckInDb.answer ⟨7, 845388130000000⟩ t s db = some (v, db') →
      (checkInServer Bool).answers t s db v db' := fun _ _ _ _ _ h => ⟨_, h⟩
  exact Machine.reaches_of_schedule (checkInMachine Bool) (fun _ _ _ _ _ h =>
    Server.step_of_respond hanswer (fun _ _ _ _ h => by cases h) h) turns hrun

/-- The first request to its end. -/
def firstTurns : List Bool := [true, true, true, true, true]

/-- Then the same request again. -/
def retryTurns : List Bool := [false, false, false]

def isConflict : Except Failure (CheckIn × Outcome) → Bool
  | .error e => e = .api conflict
  | .ok _ => false

theorem isConflict_eq {o : Except Failure (CheckIn × Outcome)} (h : isConflict o = true) :
    o = .error (.api conflict) := by
  cases o with
  | error e => exact congrArg Except.error (of_decide_eq_true h)
  | ok _ => cases h

def isReplay : Except Failure (CheckIn × Outcome) → Bool
  | .ok (_, .replayed) => true
  | _ => false

theorem isReplay_eq {o : Except Failure (CheckIn × Outcome)} (h : isReplay o = true) :
    ∃ c, o = .ok (c, .replayed) := by
  unfold isReplay at h
  split at h
  · exact ⟨_, rfl⟩
  · cases h

/-- A check-in whose moment is finer than a microsecond is recorded, and its own retry is a conflict. -/
theorem retry_refused : ∃ mid cfg,
    (checkInMachine Bool).Reaches (phoneStart 123456700 "2026-10-15T14:02:00.1234567Z") mid ∧
    (checkInMachine Bool).Reaches mid cfg ∧
    (mid.state.rows.rows.lookup phoneUuid).isSome ∧
    mid.threads false = some ((phoneCall "2026-10-15T14:02:00.1234567Z").program (phoneCrates 123456700)) ∧
    cfg.threads false = some (.raise (.api conflict)) := by
  have hrun : ((phoneRun firstTurns (phoneStart 123456700 "2026-10-15T14:02:00.1234567Z")).any fun mid =>
      (mid.state.rows.rows.lookup phoneUuid).isSome && (phoneRun retryTurns mid).any fun cfg =>
        (outcome (cfg.threads false)).any isConflict) = true := by
    decide +kernel
  obtain ⟨mid, hmid, hrest⟩ := (Option.any_eq_true _ _).mp hrun
  obtain ⟨hrow, hretry⟩ := Bool.and_eq_true_iff.mp hrest
  obtain ⟨cfg, hcfg, hraised⟩ := (Option.any_eq_true _ _).mp hretry
  obtain ⟨o, hended, hconflict⟩ := (Option.any_eq_true _ _).mp hraised
  obtain rfl := isConflict_eq hconflict
  exact ⟨mid, cfg, reaches_of_phoneRun hmid, reaches_of_phoneRun hcfg, hrow,
    threads_of_schedule firstTurns (by decide) hmid, raise_of_outcome hended⟩

/-- One of whole microseconds is answered with what is recorded. -/
theorem check_in_recorded_once_corner : ∃ mid cfg,
    (checkInMachine Bool).Reaches (phoneStart 123456000 "2026-10-15T14:02:00.123456Z") mid ∧
    (checkInMachine Bool).Reaches mid cfg ∧
    ∃ c, cfg.threads false = some (.ret (c, .replayed)) ∧
      c.SameRequest phoneUuid ⟨phoneUuid, 3, ⟨845388120, 123456000⟩, none⟩ := by
  have hrun : ((phoneRun firstTurns (phoneStart 123456000 "2026-10-15T14:02:00.123456Z")).any fun mid =>
      (phoneRun retryTurns mid).any fun cfg => (outcome (cfg.threads false)).any isReplay) = true := by
    decide +kernel
  obtain ⟨mid, hmid, hrest⟩ := (Option.any_eq_true _ _).mp hrun
  obtain ⟨cfg, hcfg, hanswered⟩ := (Option.any_eq_true _ _).mp hrest
  obtain ⟨o, hended, hreplay⟩ := (Option.any_eq_true _ _).mp hanswered
  obtain ⟨c, rfl⟩ := isReplay_eq hreplay
  have hmid := reaches_of_phoneRun hmid
  have hcfg := reaches_of_phoneRun hcfg
  obtain ⟨-, -, houtcomes⟩ := check_in_recorded_once (phoneCrates 123456000)
    (fun _ => phoneCall "2026-10-15T14:02:00.123456Z") ∅ phoneSurroundings hmid hcfg
  have hreads : (phoneCall "2026-10-15T14:02:00.123456Z").Reads (phoneCrates 123456000)
      ⟨phoneUuid, ⟨phoneUuid, 3, ⟨845388120, 123456000⟩, none⟩⟩ := ⟨rfl, rfl⟩
  have hthread := ret_of_outcome hended
  exact ⟨mid, cfg, hmid, hcfg, c, hthread, ((houtcomes false _ hreads).1.replayed c hthread).1⟩

end RetailSegmentation.CheckIns
