import RetailSegmentation.CampaignRuns

/-! The lifecycle both writers keep, whatever the interleaving. -/

namespace RetailSegmentation.Campaigns

open Program Transactions

/-! ### Messages -/

namespace Web

theorem prefixed_ne_changed (id : ℤ) {p : String} (hlength : p.toList.length = 4) (hne : p ≠ " cha")
    (x : String) : prefixed id (p ++ x) ≠ changedMeanwhile id := by
  intro heq
  have hlist := congrArg String.toList heq
  have hchanged : changedMeanwhile id =
      prefixed id (" cha" ++ "nged while you were working; reload to see its current state.") := rfl
  rw [hchanged] at hlist
  simp only [prefixed, String.toList_append, List.append_assoc] at hlist
  have hrest := List.append_cancel_left (List.append_cancel_left hlist)
  exact hne (String.toList_inj.mp (List.append_inj hrest hlength).1)

theorem refuseMove_ne (id : ℤ) (status target : Status) :
    refuseMove id status target ≠ .invalidTransition (changedMeanwhile id) := by
  intro heq
  injection heq with h
  revert h
  split_ifs
  · simp only [String.append_assoc]
    exact prefixed_ne_changed id rfl (by decide) _
  · simp only [String.append_assoc]
    exact prefixed_ne_changed id rfl (by decide) _

theorem prefixed_append (id : ℤ) (m m' : String) : prefixed id m ++ m' = prefixed id (m ++ m') :=
  String.append_assoc

theorem activationRefusal_ne (id : ℤ) (counts : List GroupCounts) {message : String}
    (h : activationRefusal id counts = some message) : message ≠ changedMeanwhile id := by
  have hnamed : " cannot be activated: experiment " = " can" ++ "not be activated: experiment " := rfl
  induction counts with
  | nil => cases h
  | cons counts rest ih =>
      rw [activationRefusal] at h
      split_ifs at h
      · obtain rfl := Option.some.inj h
        rw [prefixed_append, hnamed]
        simp only [String.append_assoc]
        exact prefixed_ne_changed id rfl (by decide) _
      · obtain rfl := Option.some.inj h
        rw [prefixed_append, hnamed]
        simp only [String.append_assoc]
        exact prefixed_ne_changed id rfl (by decide) _
      · exact ih h

end Web

/-! ### How calls end -/

section Programs

variable {T : Type} {α : Type} {D : α → Event → Prop} {F F' : CampaignFailure → Stage T → Prop}

/-- The event is the one the call asks for, and the answer tells it. -/
def Did : Call → Done → Event → Prop
  | .serviceCreate _ body, answer, e => ∃ id details, body.name = some details.name ∧
      body.labelCode = details.labelCode ∧ body.startsOn = some details.startsOn ∧
      body.endsOn = some details.endsOn ∧ e = .created id details ∧
      answer = .represented (Service.representation id ⟨details, .draft⟩)
  | .serviceUpdate _ id _, answer, e => ∃ details, e = .edited id details ∧
      answer = .represented (Service.representation id ⟨details, .draft⟩)
  | .serviceTransition _ id target expectedStatus, answer, e => e = .moved id expectedStatus target ∧
      ∃ c, c.status = target ∧ answer = .represented (Service.representation id c)
  | .webCreate details, answer, e => ∃ id, e = .created id details ∧ answer = .created id
  | .webUpdate id details, answer, e => e = .edited id details ∧ answer = .edited
  | .webTransition id action _, answer, e => ∃ source, e = .moved id source action.target ∧
      answer = .moved action.target

/-- What the refusal of a move for a changed status stands for: another move from that status, or a status
that is not the expected one. -/
def Overtaken : Call → CampaignFailure → Stage T → Prop
  | .serviceTransition _ id _ expectedStatus, e, stage => e = .api Service.statusChanged →
      stage = .lost id expectedStatus ∨ ∃ status, status ≠ expectedStatus ∧ stage = .saw id status
  | .webTransition id _ _, e, stage => e = .invalidTransition (Web.changedMeanwhile id) →
      ∃ status, stage = .lost id status
  | _, _, _ => True

def Failed (call : Call) (e : CampaignFailure) (stage : Stage T) : Prop :=
  (∀ e', stage.undone ≠ .done e') ∧ Overtaken call e stage

theorem kitFailure_abort {e : DbError} (he : IsAbort e) : Service.kitFailure e =
    .api (Service.unavailable "The service database is unavailable.") := by
  rcases he with rfl | rfl | rfl <;> rfl

/-- `with refusals(), kit.db.transaction()`: what was written is committed, or the failure is translated. -/
theorem follows_inTransaction {sub : String} {body : CampaignProg α}
    (hbody : body.Follows (writing T).protocol .idle
      (Contract.Ends (fun a stage => ∃ e, stage = .wrote e ∧ D a e) F))
    (habort : F (.api (Service.unavailable "The service database is unavailable.")) .idle)
    (hover : ∀ e stage, F e stage → F' (Service.translate e) stage.undone) :
    (Service.inTransaction sub body).Follows (writing T).protocol .idle
      (Contract.Ends (fun a stage => ∃ e, stage = .done e ∧ D a e) F') := by
  unfold Service.inTransaction
  apply Prog.Follows.tryCatch (F := fun e stage => F' (Service.translate e) stage)
  · apply Workflow.follows_transaction (F := F) (P := fun a stage => ∃ e, stage = .wrote e ∧ D a e)
    · apply Workflow.follows_step
      · trivial
      · rintro - stage rfl
        exact hbody
      · rintro e (h | he)
        · exact h.elim
        · rw [kitFailure_abort he]
          exact habort
    · rintro a stage ⟨e, rfl, hdid⟩
      refine ⟨trivial, ⟨e, rfl, hdid⟩, fun e' he => ⟨?_, fun h => h.elim⟩⟩
      rw [kitFailure_abort he]
      exact habort
    · exact fun e stage h => hover e stage h
  · exact fun e stage h => h

theorem follows_create {raise : DbError → CampaignFailure} {refusal : CampaignFailure} {details : Details}
    {k : ℤ × Campaign → CampaignProg α} {P : α → Stage T → Prop}
    (hk : ∀ id, (k (id, ⟨details, .draft⟩)).Follows (writing T).protocol (.wrote (.created id details))
      (Contract.Ends P F)) (hfails : ∀ e (stage : Stage T), stage.undone = .idle → F e stage) :
    (Transactions.execute raise .lockCreate >>= fun _ =>
      Transactions.execute raise (.duplicateDraft details) >>= fun duplicate =>
        if duplicate then .raise refusal
        else Transactions.execute raise (.insert details) >>= k).Follows (writing T).protocol .idle
      (Contract.Ends P F) := by
  apply Workflow.follows_step
  · trivial
  · rintro - stage rfl
    apply Workflow.follows_step
    · trivial
    · rintro duplicate stage (⟨rfl, rfl⟩ | ⟨rfl, before, rfl⟩)
      · exact hfails _ _ rfl
      · apply Workflow.follows_step
        · exact rfl
        · rintro ⟨id, c⟩ stage ⟨rfl, rfl⟩
          exact hk id
        · exact fun e _ => hfails _ _ rfl
    · exact fun e _ => hfails _ _ rfl
  · exact fun e _ => hfails _ _ rfl

namespace Service

theorem follows_attempt (sub : String) (details : Details) (n : ℕ) :
    (attempt sub details n).Follows (writing T).protocol .idle (Contract.Ends
      (fun a stage => ∃ e, stage = .done e ∧ ∃ id, e = .created id details ∧
        a = representation id ⟨details, .draft⟩) fun _ stage => stage = .idle) := by
  induction n with
  | zero => exact rfl
  | succ n ih =>
      rw [attempt]
      apply Prog.Follows.tryCatch (F := fun _ stage => stage = .idle)
      · apply follows_inTransaction (F := fun _ stage => stage.undone = .idle)
          (D := fun a e => ∃ id, e = .created id details ∧ a = representation id ⟨details, .draft⟩)
        · rw [createCampaignOnce]
          split_ifs
          · exact rfl
          · exact follows_create (fun id => ⟨_, rfl, id, rfl, rfl⟩) fun _ _ h => h
        · rfl
        · exact fun _ _ h => h
      · rintro e stage rfl
        split_ifs
        · exact ih
        · exact rfl

theorem follows_createCampaign (sub : String) (body : CreateBody) :
    (createCampaign sub body >>= fun c => .ret (Done.represented c)).Follows (writing T).protocol .idle
      (Contract.Ends (fun a stage => ∃ e, stage = .done e ∧ Did (.serviceCreate sub body) a e)
        (Failed (.serviceCreate sub body))) := by
  have hidle : ∀ e, Failed (.serviceCreate sub body) e (.idle : Stage T) := fun e => ⟨nofun, trivial⟩
  obtain ⟨name, labelCode, startsOn, endsOn⟩ := body
  cases name with
  | none => exact hidle _
  | some name =>
    cases startsOn with
    | none => exact hidle _
    | some startsOn =>
      cases endsOn with
      | none => exact hidle _
      | some endsOn =>
          apply Prog.Follows.bind ((follows_attempt sub ⟨name, labelCode, startsOn, endsOn⟩ _).weaken
            (fun _ _ h => h) fun e stage h => h ▸ hidle e)
          rintro a stage ⟨e, rfl, id, rfl, rfl⟩
          exact ⟨_, rfl, id, _, rfl, rfl, rfl, rfl, rfl, rfl⟩

theorem follows_apply (changes : Changes) (details : Details) {stage : Stage T}
    (hfails : ∀ e, F e stage) :
    (changes.apply details).Follows (writing T).protocol stage (Contract.Ends (fun _ s => s = stage) F) := by
  obtain ⟨name, labelCode, startsOn, endsOn⟩ := changes
  rcases name with _ | _ | name <;> rcases startsOn with _ | _ | startsOn <;>
    rcases endsOn with _ | _ | endsOn <;> first | exact rfl | exact hfails _

theorem follows_updateDraft (sub : String) (id : ℤ) (changes : Changes) :
    (inTransaction sub (updateDraft id changes) >>= fun c => .ret (Done.represented c)).Follows
      (writing T).protocol .idle
      (Contract.Ends (fun a stage => ∃ e, stage = .done e ∧ Did (.serviceUpdate sub id changes) a e)
        (Failed (.serviceUpdate sub id changes))) := by
  apply Prog.Follows.bind (P := fun a stage => ∃ e, stage = .done e ∧ ∃ details, e = .edited id details ∧
    a = representation id ⟨details, .draft⟩)
  · apply follows_inTransaction (F := fun _ stage => stage.undone = .idle)
    · apply Workflow.follows_step
      · trivial
      · rintro c stage (⟨rfl, rfl⟩ | ⟨c, rfl, rfl⟩)
        · exact rfl
        · dsimp only
          split_ifs with hdraft
          · exact rfl
          · apply Prog.Follows.bind (P := fun _ stage => stage = .held id c)
            · exact follows_apply changes c.details fun _ => rfl
            · rintro details stage rfl
              split_ifs
              · exact rfl
              · apply Workflow.follows_step
                · exact ⟨rfl, not_not.mp hdraft⟩
                · rintro row stage ⟨rfl, rfl⟩
                  exact ⟨_, rfl, details, rfl, rfl⟩
                · exact fun _ _ => rfl
      · exact fun _ _ => rfl
    · rfl
    · exact fun e stage h => ⟨by rw [h]; exact nofun, trivial⟩
  · rintro a stage ⟨e, rfl, hdid⟩
    obtain ⟨details, rfl, rfl⟩ := hdid
    exact ⟨_, rfl, details, rfl, rfl⟩

theorem translate_changed {e : CampaignFailure} (h : translate e = .api statusChanged) :
    e = .api statusChanged := by
  unfold translate at h
  split at h
  · exact absurd h (by decide)
  · exact absurd h (by decide)
  · exact absurd h (by decide)
  · exact h

theorem kitFailure_changed (e : DbError) : kitFailure e ≠ .api statusChanged := by
  cases e <;> exact nofun

theorem follows_transition (sub : String) (id : ℤ) (target expectedStatus : Status) :
    (inTransaction sub (transition id target expectedStatus) >>= fun c => .ret (Done.represented c)).Follows
      (writing T).protocol .idle (Contract.Ends
        (fun a stage => ∃ e, stage = .done e ∧ Did (.serviceTransition sub id target expectedStatus) a e)
        (Failed (.serviceTransition sub id target expectedStatus))) := by
  have hother : ∀ (e : CampaignFailure) (stage : Stage T), (∀ e', stage.undone ≠ .done e') →
      e ≠ .api statusChanged → Failed (.serviceTransition sub id target expectedStatus) e stage :=
    fun e stage hdone hne => ⟨hdone, fun h => absurd h hne⟩
  have herror : ∀ (e : DbError) (stage : Stage T), (∀ e', stage.undone ≠ .done e') →
      Failed (.serviceTransition sub id target expectedStatus) (kitFailure e) stage :=
    fun e stage hdone => hother _ _ hdone (kitFailure_changed e)
  apply Prog.Follows.bind (P := fun a stage => ∃ e, stage = .done e ∧ e = .moved id expectedStatus target ∧
    ∃ c, c.status = target ∧ a = representation id c)
  · apply follows_inTransaction (F := Failed (.serviceTransition sub id target expectedStatus))
    · apply Workflow.follows_step
      · trivial
      · rintro found stage (⟨rfl, rfl⟩ | ⟨status, ended, rfl, rfl⟩)
        · exact hother _ _ nofun (by decide)
        · dsimp only
          split_ifs with hexpected hedge hended
          · exact ⟨nofun, fun _ => .inr ⟨status, hexpected, rfl⟩⟩
          · exact hother _ _ nofun (by decide)
          · obtain rfl := not_not.mp hexpected
            apply Workflow.follows_step
            · exact ⟨rfl, rfl, hedge⟩
            · rintro row stage (⟨rfl, rfl⟩ | ⟨c, rfl, hc, rfl⟩)
              · exact ⟨nofun, fun _ => .inl rfl⟩
              · exact ⟨_, rfl, rfl, c, hc, rfl⟩
            · exact fun e _ => herror e _ nofun
          · refine hother _ _ nofun fun h => ?_
            injection h with h
            injection h with _ hcode
            exact absurd hcode (by decide)
      · exact fun e _ => herror e _ nofun
    · exact hother _ _ nofun (by decide)
    · rintro e stage ⟨hdone, hovertaken⟩
      refine ⟨fun e' h => hdone e' ?_, fun h => ?_⟩
      · rw [← h]
        cases stage <;> rfl
      · rcases hovertaken (translate_changed h) with rfl | ⟨status, hne, rfl⟩
        · exact .inl rfl
        · exact .inr ⟨status, hne, rfl⟩
  · rintro a stage ⟨e, rfl, hdid⟩
    obtain ⟨rfl, c, hc, rfl⟩ := hdid
    exact ⟨_, rfl, rfl, c, hc, rfl⟩

end Service

namespace Web

theorem follows_unit {body : CampaignProg α} (hbody : body.Follows (writing T).protocol .idle
      (Contract.Ends (fun a stage => ∃ e, stage = .wrote e ∧ D a e) F))
    (habort : ∀ e, IsAbort e → F (.database e) .idle)
    (hover : ∀ e stage, F e stage → F e stage.undone ∧ ∀ e', IsAbort e' → F (.database e') stage.undone) :
    (atomic .database body).Follows (writing T).protocol .idle
      (Contract.Ends (fun a stage => ∃ e, stage = .done e ∧ D a e) F) := by
  apply Workflow.follows_atomic (F := F) (P := fun a stage => ∃ e, stage = .wrote e ∧ D a e) hbody
  · rintro a stage ⟨e, rfl, hdid⟩
    exact ⟨trivial, ⟨e, rfl, hdid⟩, fun e' he => ⟨habort e' he, fun h => h.elim⟩⟩
  · exact fun e stage h => hover e stage h

theorem undone_undone (stage : Stage T) : stage.undone.undone = stage.undone := by
  cases stage <;> rfl

theorem follows_createCampaign (details : Details) :
    (createCampaign details >>= fun id => .ret (Done.created id)).Follows (writing T).protocol .idle
      (Contract.Ends (fun a stage => ∃ e, stage = .done e ∧ Did (.webCreate details) a e)
        (Failed (.webCreate details))) := by
  apply Prog.Follows.bind (P := fun id stage => stage = .done (.created id details))
  · apply Prog.Follows.tryCatch (F := fun _ stage => stage.undone = .idle)
    · apply (follows_unit (F := fun _ stage => stage.undone = .idle)
        (D := fun id e => e = .created id details) _ (fun _ _ => rfl) _).weaken
      · rintro id stage ⟨e, rfl, rfl⟩
        rfl
      · exact fun _ _ h => h
      · exact follows_create (fun id => ⟨_, rfl, rfl⟩) fun _ _ h => h
      · intro e stage h
        have htwice : stage.undone.undone = .idle := (undone_undone stage).trans h
        exact ⟨htwice, fun _ _ => htwice⟩
    · exact fun e stage h => ⟨by rw [h]; exact nofun, trivial⟩
  · rintro id stage rfl
    exact ⟨_, rfl, id, rfl, rfl⟩

theorem follows_updateDraft (id : ℤ) (details : Details) :
    (updateDraft id details >>= fun _ => .ret Done.edited).Follows (writing T).protocol .idle
      (Contract.Ends (fun a stage => ∃ e, stage = .done e ∧ Did (.webUpdate id details) a e)
        (Failed (.webUpdate id details))) := by
  apply Prog.Follows.bind (P := fun _ stage => stage = .done (.edited id details))
  · apply Prog.Follows.tryCatch (F := fun _ stage => ∀ e', stage.undone ≠ .done e')
    · apply (follows_unit (F := fun _ stage => ∀ e', stage.undone ≠ .done e')
        (D := fun _ e => e = .edited id details) _ (fun _ _ => nofun) _).weaken
      · rintro a stage ⟨e, rfl, rfl⟩
        rfl
      · exact fun _ _ h => h
      · apply Workflow.follows_step
        · trivial
        · rintro c stage (⟨rfl, rfl⟩ | ⟨c, rfl, rfl⟩)
          · exact nofun
          · dsimp only
            split_ifs with hdraft
            · exact nofun
            · apply Workflow.follows_step
              · exact ⟨rfl, not_not.mp hdraft⟩
              · rintro row stage (⟨rfl, rfl⟩ | ⟨rfl, rfl⟩)
                · exact nofun
                · exact ⟨_, rfl, rfl⟩
              · exact fun _ _ => nofun
        · exact fun _ _ => nofun
      · intro e stage h
        rw [undone_undone]
        exact ⟨h, fun _ _ => h⟩
    · exact fun e stage h => ⟨h, trivial⟩
  · rintro a stage rfl
    exact ⟨_, rfl, rfl, rfl⟩

theorem follows_checksOn (id : ℤ) (current : Campaign) {status : Status} (date : Date)
    (hfails : ∀ e, e ≠ .invalidTransition (changedMeanwhile id) → F e (.saw id status)) :
    ((if current.details.endsOn.Before date then
      .raise (.invalidTransition (prefixed id (" ended on " ++ current.details.endsOn.isoformat ++
        ", so it cannot be activated; edit the draft's dates first.")))
    else do
      match activationRefusal id (← execute (.groupCounts id)) with
      | some message => .raise (.invalidTransition message)
      | none => .ret ()) : CampaignProg Unit).Follows (writing T).protocol (.saw id status)
        (Contract.Ends (fun _ stage => stage = .saw id status) F) := by
  split_ifs
  · apply hfails
    intro h
    injection h with h
    have hended : " ended on " = " end" ++ "ed on " := rfl
    revert h
    rw [hended]
    simp only [String.append_assoc]
    exact prefixed_ne_changed id rfl (by decide) _
  · apply Workflow.follows_step
    · trivial
    · rintro counts stage rfl
      split
      · rename_i message hmessage
        apply hfails
        intro h
        injection h with h
        exact activationRefusal_ne id counts hmessage h
      · exact rfl
    · exact fun e _ => hfails _ (by simp)

theorem follows_activationChecks (id : ℤ) (current : Campaign) (today : Option Date) {status : Status}
    (hfails : ∀ e, e ≠ .invalidTransition (changedMeanwhile id) → F e (.saw id status)) :
    (activationChecks id current today).Follows (writing T).protocol (.saw id status)
      (Contract.Ends (fun _ stage => stage = .saw id status) F) := by
  cases today with
  | some date => exact follows_checksOn id current date hfails
  | none =>
      apply Workflow.follows_step
      · trivial
      · rintro date stage rfl
        exact follows_checksOn id current date hfails
      · exact fun e _ => hfails _ (by simp)

/-- The conditional UPDATE moves the campaign from the status that was read, or another move has. -/
theorem follows_change {id : ℤ} {status target : Status} {k : Option Campaign → CampaignProg Status}
    (hedge : target ∈ status.transitions)
    (hnone : k none = .raise (.invalidTransition (changedMeanwhile id)))
    (hsome : ∀ c, k (some c) = .ret target) (hlost : ∀ e, F e (.lost id status))
    (hfails : ∀ e : DbError, F (.database e) (.saw id status)) :
    (execute (.changeStatus .web id status target) >>= k).Follows (writing T).protocol (.saw id status)
      (Contract.Ends (fun a stage => ∃ e, stage = .wrote e ∧ ∃ source, e = .moved id source target ∧
        a = target) F) := by
  apply Workflow.follows_step
  · exact ⟨rfl, rfl, hedge⟩
  · rintro row stage (⟨rfl, rfl⟩ | ⟨c, rfl, -, rfl⟩)
    · rw [hnone]
      exact hlost _
    · rw [hsome]
      exact ⟨_, rfl, status, rfl, rfl⟩
  · exact fun e _ => hfails e

theorem follows_transition (id : ℤ) (action : Action) (today : Option Date) :
    (transition id action today >>= fun target => .ret (Done.moved target)).Follows (writing T).protocol .idle
      (Contract.Ends (fun a stage => ∃ e, stage = .done e ∧ Did (.webTransition id action today) a e)
        (Failed (.webTransition id action today))) := by
  have hother : ∀ (e : CampaignFailure) (stage : Stage T), (∀ e', stage.undone ≠ .done e') →
      e ≠ .invalidTransition (changedMeanwhile id) → Failed (.webTransition id action today) e stage :=
    fun e stage hdone hne => ⟨hdone, fun h => absurd h hne⟩
  have hlost : ∀ (e : CampaignFailure) status,
      Failed (T := T) (.webTransition id action today) e (.lost id status) :=
    fun e status => ⟨nofun, fun _ => ⟨status, rfl⟩⟩
  apply Prog.Follows.bind (P := fun target stage => ∃ e, stage = .done e ∧
    ∃ source, e = .moved id source action.target ∧ target = action.target)
  · apply follows_unit (F := Failed (.webTransition id action today))
    · apply Workflow.follows_step
      · trivial
      · rintro c stage (⟨rfl, rfl⟩ | ⟨current, rfl, rfl⟩)
        · exact hother _ _ nofun nofun
        · dsimp only
          split_ifs with hedge hactive
          · apply Prog.Follows.bind (P := fun _ stage => stage = .saw id current.status)
            · exact follows_activationChecks id current today fun e he => hother e _ nofun he
            · rintro - stage rfl
              exact follows_change hedge rfl (fun _ => rfl) (hlost · _) fun e => hother _ _ nofun nofun
          · rw [Prog.ret_bind]
            exact follows_change hedge rfl (fun _ => rfl) (hlost · _) fun e => hother _ _ nofun nofun
          · exact hother _ _ nofun (refuseMove_ne id _ _)
      · exact fun e _ => hother _ _ nofun nofun
    · exact fun e _ => hother _ _ nofun nofun
    · rintro e stage ⟨hdone, hovertaken⟩
      have htwice : ∀ e', stage.undone.undone ≠ .done e' := by
        rw [undone_undone]
        exact hdone
      refine ⟨⟨htwice, fun h => ?_⟩, fun e' _ => hother _ _ htwice nofun⟩
      obtain ⟨status, rfl⟩ := hovertaken h
      exact ⟨status, rfl⟩
  · rintro a stage ⟨e, rfl, source, rfl, rfl⟩
    exact ⟨_, rfl, source, rfl, rfl⟩

end Web

theorem follows_program (call : Call) : call.program.Follows (writing T).protocol .idle
    (Contract.Ends (fun a stage => ∃ e, stage = .done e ∧ Did call a e) (Failed call)) := by
  cases call with
  | serviceCreate sub body => exact Service.follows_createCampaign sub body
  | serviceUpdate sub id changes => exact Service.follows_updateDraft sub id changes
  | serviceTransition sub id target expectedStatus =>
      exact Service.follows_transition sub id target expectedStatus
  | webCreate details => exact Web.follows_createCampaign details
  | webUpdate id details => exact Web.follows_updateDraft id details
  | webTransition id action today => exact Web.follows_transition id action today

end Programs

section Runs

variable {T : Type} [DecidableEq T]

abbrev CampaignConfig (T : Type) : Type :=
  Config T (Request Statement) (Reply Result DbError) CampaignFailure Done (CampaignDb T)

def initial (calls : T → Call) (rows : AList fun _ : ℤ => Campaign) : CampaignConfig T :=
  Config.initial (fun t => (calls t).program) (.ofRows rows)

variable {vocabulary : Vocabulary} {start : Book} {base : List (T × Event)}

theorem campaignContract_implements : (campaignContract start base).Implements
    (campaignServer T vocabulary).machine fun _ => (writing T).protocol :=
  implements_workflow (fun _ _ _ _ _ h => ⟨trivial, h⟩) (campaign_answers vocabulary)
    (campaign_refuses vocabulary) (campaign_commits vocabulary) (campaign_rollsBack vocabulary)

theorem campaignContract_closed :
    (campaignContract start base).Closed (campaignServer T vocabulary).machine := by
  apply closed_of_rollsBack _ (fun _ _ _ h => h) fun _ _ h => h
  exact fun t db hinv => keeps_of_leaves (hinv.of_same rfl rfl) fun u hu => rollback_leaves hu db

omit [DecidableEq T] in
theorem initial_consistent (rows : AList fun _ : ℤ => Campaign) :
    Consistent (bookOf rows) [] (CampaignDb.ofRows rows : CampaignDb T) where
  rows _ := rfl
  legal := legalHistory_nil
  once := List.nodup_nil
  checked earlier _ _ _ _ heq := by cases earlier <;> cases heq
  grows := List.prefix_rfl

omit [DecidableEq T] in
theorem initial_outlying (rows : AList fun _ : ℤ => Campaign) (t : T) :
    Outlying t (CampaignDb.ofRows rows : CampaignDb T) :=
  ⟨⟨rfl, fun _ h => Option.some_ne_none t h.symm⟩, fun h => Option.some_ne_none t h.symm, rfl⟩

omit [DecidableEq T] in
theorem fresh_of_failed {t : T} {db : CampaignDb T} {stage : Stage T} {call : Call} {e : CampaignFailure}
    (hat : At start t db stage) (hfailed : Failed call e stage) : Fresh t db := by
  cases stage with
  | idle => exact hat.2
  | saw id status => exact hat.1.2
  | held id c => exact hat.2.1
  | locked => exact hat.2
  | checked details before => exact hat.2.1
  | wrote e =>
      have hwrote : Wrote start e t db := hat
      exact hwrote.fresh
  | lost id status => exact hat.1.2
  | done e' => exact absurd rfl (hfailed.1 e')

/-- What holds of a run that came from `mid` to `cfg`, the campaigns being `start` at its beginning. -/
structure LifecycleKept (start : Book) (calls : T → Call) (mid cfg : CampaignConfig T) : Prop where
  /-- Nothing committed is undone. -/
  grows : mid.state.history <+: cfg.state.history
  legal : LegalHistory start cfg.state.history
  rows : ∀ id, cfg.state.rows.rows.lookup id = play start cfg.state.history id
  ordered : ∀ id c, cfg.state.rows.rows.lookup id = some c → c.details.Ordered
  succeeded : ∀ t answer, cfg.threads t = some (.ret answer) →
    ∃ e, (t, e) ∈ cfg.state.history ∧ Did (calls t) answer e
  failed : ∀ t e, cfg.threads t = some (.raise e) → ∀ e', (t, e') ∉ cfg.state.history
  /-- A campaign is moved from each status at most once. -/
  movedOnce : ∀ t u id source target target', (t, .moved id source target) ∈ cfg.state.history →
    (u, .moved id source target') ∈ cfg.state.history → t = u ∧ target = target'
  /-- A refused move has lost to another from the same status, or expected a status that was not there. -/
  serviceOvertaken : ∀ t sub id target expectedStatus,
    calls t = .serviceTransition sub id target expectedStatus →
    cfg.threads t = some (.raise (.api Service.statusChanged)) →
    (∃ u target', (u, .moved id expectedStatus target') ∈ cfg.state.history) ∨
      ∃ status, status ≠ expectedStatus ∧ Seen start cfg.state.history id status
  webOvertaken : ∀ t id action today, calls t = .webTransition id action today →
    cfg.threads t = some (.raise (.invalidTransition (Web.changedMeanwhile id))) →
    ∃ u source target, (u, .moved id source target) ∈ cfg.state.history
  /-- An identical draft beside a new one was made by an edit, after all other creations. -/
  creations : ∀ earlier t id details later,
    cfg.state.history = earlier ++ (t, .created id details) :: later →
    ∃ before since, earlier = before ++ since ∧ (∀ u id' details', (u, .created id' details') ∉ since) ∧
      (∀ id', play start before id' ≠ some ⟨details, .draft⟩) ∧
      ∀ id', play start earlier id' = some ⟨details, .draft⟩ → ∃ u, (u, .edited id' details) ∈ since

end Runs

/-! ### A create beside an edit -/

def springVocabulary : Vocabulary := ⟨fun _ => true⟩

def springDetails : Details := ⟨"Spring", "CHAMPIONS", ⟨2027, 3, 1⟩, ⟨2027, 3, 31⟩⟩

def winterDetails : Details := ⟨"Winter", "CHAMPIONS", ⟨2027, 1, 1⟩, ⟨2027, 1, 31⟩⟩

def springRows : AList fun _ : ℤ => Campaign := AList.singleton 1 ⟨winterDetails, .draft⟩

/-- `true` creates a campaign, and `false` edits another one into the same. -/
def springCalls : Bool → Call
  | true => .webCreate springDetails
  | false => .webUpdate 1 springDetails

def springTurn : (t : Bool) → (r : Request Statement) → CampaignDb Bool →
    Option (Reply Result DbError r × CampaignDb Bool) :=
  (campaignServer Bool springVocabulary).respond
    (CampaignDb.answer springVocabulary ⟨⟨2026, 10, 1⟩, fun _ => []⟩) fun _ _ _ => none

def springRun (turns : List Bool) (cfg : CampaignConfig Bool) : Option (CampaignConfig Bool) :=
  schedule springTurn turns cfg

theorem step_of_springTurn (t : Bool) (r : Request Statement) (db : CampaignDb Bool) (v : Reply Result DbError r)
    (db' : CampaignDb Bool) (h : springTurn t r db = some (v, db')) :
    (campaignServer Bool springVocabulary).machine.step t r db v db' := by
  have hanswer : ∀ t s db v db',
      CampaignDb.answer springVocabulary ⟨⟨2026, 10, 1⟩, fun _ => []⟩ t s db = some (v, db') →
      (campaignServer Bool springVocabulary).answers t s db v db' := fun _ _ _ _ _ h => ⟨_, h⟩
  have hrefuse : ∀ (t : Bool) s db e, (none : Option DbError) = some e →
      (campaignServer Bool springVocabulary).refuses t s db e := fun _ _ _ _ h => by cases h
  exact Server.step_of_respond hanswer hrefuse h

theorem reaches_of_springRun {turns : List Bool} {cfg cfg' : CampaignConfig Bool}
    (hrun : springRun turns cfg = some cfg') :
    (campaignServer Bool springVocabulary).machine.Reaches cfg cfg' :=
  Machine.reaches_of_schedule _ step_of_springTurn turns hrun

/-- The create looks for a duplicate, the edit is committed, and the create inserts. -/
def springTurns : List Bool := [true, true, false, false, false, true]

end RetailSegmentation.Campaigns
