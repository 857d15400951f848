import Mathlib.Data.List.Induction
import RetailSegmentation.PreferenceRuns

/-! What calls answer, and the whole picture of their interleavings: sets are replaced whole. -/

namespace RetailSegmentation.Preferences

open Program Transactions

section Programs

variable {refs : References} {s : Submission}

def AllKnown (refs : References) (set : PreferenceSet) (ids : List (Option ℤ)) : Prop :=
  ∀ item ∈ ids, ∃ id, item = some id ∧ refs.hasReference set id

/-- A `PUT` that fails holds nothing its rollback does not give back. -/
def Failing (refs : References) (s : Submission) (body : Option (List (Option JsonNumber))) (e : Failure)
    (stage : Stage) : Prop :=
  Refused refs s.set body e ∧ stage.undone = .idle

theorem follows_insertAll {body : Option (List (Option JsonNumber))} {current inserted : List ℤ}
    {earlier rest : List (Option ℤ)} (hbody : submittedIds s.set body = .ok s.ids)
    (hids : earlier ++ rest = s.ids) (hcurrent : ∀ id ∈ current, refs.hasReference s.set id)
    (hearlier : ∀ item ∈ earlier, ∃ id, item = some id ∧ refs.hasReference s.set id ∧
      (id ∈ current ∨ id ∈ inserted))
    (hinserted : ∀ id ∈ inserted, some id ∈ earlier) :
    (insertAll s.set current earlier.length rest).Follows (replacing refs s).protocol
      (.working current inserted) (Contract.Ends
        (fun _ stage => ∃ inserted', stage = .working current inserted' ∧ AllKnown refs s.set s.ids ∧
          ∀ id, some id ∈ s.ids → id ∈ current ∨ id ∈ inserted')
        (Failing refs s body)) := by
  induction rest generalizing earlier inserted with
  | nil =>
      rw [List.append_nil] at hids
      subst hids
      refine ⟨inserted, rfl, fun item hitem => ?_, fun id hid => ?_⟩
      · obtain ⟨id, rfl, hreference, -⟩ := hearlier item hitem
        exact ⟨id, rfl, hreference⟩
      · obtain ⟨id', heq, -, hin⟩ := hearlier _ hid
        obtain rfl := Option.some.inj heq
        exact hin
  | cons item rest ih =>
      have hnext : (earlier ++ [item]) ++ rest = s.ids := by rw [List.append_assoc]; exact hids
      have hlength : (earlier ++ [item]).length = earlier.length + 1 := List.length_append
      -- The ids before this one are known, so this is the first unknown one if it is unknown.
      have hfirst : (∀ id, item = some id → ¬ refs.hasReference s.set id) →
          FirstUnknown refs s.set s.ids earlier.length := by
        intro hunknown
        refine ⟨fun i hi => ?_, item, ?_, hunknown⟩
        · obtain ⟨id, heq, hreference, -⟩ := hearlier _ (List.getElem_mem hi)
          refine ⟨id, ?_, hreference⟩
          rw [← hids, List.getElem?_append_left hi, List.getElem?_eq_getElem hi, heq]
        · rw [← hids, List.getElem?_append_right le_rfl]
          simp
      cases item with
      | none => exact ⟨.unknown hbody (hfirst nofun), rfl⟩
      | some id =>
          rw [insertAll]
          split_ifs with hin
          · rw [← hlength]
            apply ih hnext
            · intro item hitem
              rcases List.mem_append.mp hitem with h | h
              · exact hearlier item h
              · obtain rfl := List.mem_singleton.mp h
                exact ⟨id, rfl, hcurrent id hin, .inl hin⟩
            · exact fun id' hid' => List.mem_append_left _ (hinserted id' hid')
          · apply Prog.Follows.bind (P := fun _ stage => refs.hasReference s.set id ∧
              stage = .working current (id :: inserted))
            · refine ⟨⟨rfl, hids ▸ List.mem_append_right _ List.mem_cons_self, hin⟩, fun r stage h => ?_⟩
              cases r with
              | ok _ => exact h
              | error e =>
                  obtain ⟨hfail | habort, rfl⟩ := h
                  · rcases hfail with ⟨rfl, hrepeat⟩ | ⟨rfl, hnot⟩ | ⟨rfl, hnot⟩
                    · refine ⟨.repeated hbody fun hnodup => ?_, rfl⟩
                      have hmem : id ∈ earlier.reduceOption := by
                        rw [List.reduceOption_mem_iff]
                        exact hinserted id hrepeat
                      rw [← hids, List.reduceOption_append] at hnodup
                      exact (List.nodup_append.mp hnodup).2.2 id hmem id
                        (List.reduceOption_mem_iff.mpr List.mem_cons_self) rfl
                    · have herror : insertError s.set earlier.length
                          (.database (.foreignKeyViolation s.set.referenceKey)) =
                          .api (s.set.unknown earlier.length) := if_pos rfl
                      change Failing refs s body (insertError s.set earlier.length _) _
                      rw [herror]
                      refine ⟨.unknown hbody (hfirst fun id' heq => ?_), rfl⟩
                      obtain rfl := Option.some.inj heq
                      exact hnot
                    · have herror : insertError s.set earlier.length
                          (.database (.foreignKeyViolation s.set.customerKey)) = .api customerNotFound := by
                        cases s.set <;> rfl
                      change Failing refs s body (insertError s.set earlier.length _) _
                      rw [herror]
                      exact ⟨.customer hnot, rfl⟩
                  · have herror : insertError s.set earlier.length (.database e) = .database e := by
                      rcases habort with rfl | rfl | rfl <;> rfl
                    change Failing refs s body (insertError s.set earlier.length _) _
                    rw [herror]
                    exact ⟨.aborted habort, rfl⟩
            · rintro - stage ⟨hreference, rfl⟩
              rw [← hlength]
              apply ih hnext
              · intro item hitem
                rcases List.mem_append.mp hitem with h | h
                · obtain ⟨id', heq, hknown, hin'⟩ := hearlier item h
                  exact ⟨id', heq, hknown, hin'.imp (fun h => h) (List.mem_cons_of_mem id)⟩
                · obtain rfl := List.mem_singleton.mp h
                  exact ⟨id, rfl, hreference, .inr List.mem_cons_self⟩
              · intro id' hid'
                rcases List.mem_cons.mp hid' with rfl | hid'
                · exact List.mem_append_right _ (List.mem_singleton_self _)
                · exact List.mem_append_left _ (hinserted id' hid')

theorem follows_replace {body : Option (List (Option JsonNumber))}
    (hbody : submittedIds s.set body = .ok s.ids) :
    (replace s.actor s.set s.ids).Follows (replacing refs s).protocol .idle (Contract.Ends
      (fun profile stage => stage = .done profile ∧ AllKnown refs s.set s.ids)
      fun e stage => Refused refs s.set body e ∧ stage = .idle) := by
  have habort : ∀ (stage : Stage) (e : DbError), stage.undone = .idle → IsAbort e →
      Failing refs s body (.database e) stage := fun stage e hover he => ⟨.aborted he, hover⟩
  apply Workflow.follows_transaction (F := Failing refs s body)
    (P := fun profile stage => stage = .replaced profile ∧ AllKnown refs s.set s.ids)
  · apply Workflow.follows_step
    · rfl
    · rintro - stage rfl
      apply Workflow.follows_step
      · trivial
      · rintro found stage ⟨rfl, rfl⟩
        split_ifs with hcustomer
        · exact ⟨.customer (by simpa using hcustomer), rfl⟩
        · apply Workflow.follows_step
          · trivial
          · rintro - stage rfl
            apply Workflow.follows_step
            · rfl
            · rintro current stage ⟨rfl, hcurrent⟩
              apply Workflow.follows_step
              · exact ⟨rfl, rfl⟩
              · rintro - stage rfl
                apply Prog.Follows.bind
                · exact follows_insertAll hbody (List.nil_append s.ids) hcurrent nofun nofun
                · rintro - stage ⟨inserted, rfl, hknown, hall⟩
                  apply Workflow.follows_step
                  · exact hall
                  · rintro ⟨profile, actor⟩ stage ⟨rfl, rfl⟩
                    simp only [ne_eq, not_true_eq_false, if_false]
                    exact ⟨rfl, hknown⟩
                  · exact fun e he => habort _ e rfl (he.resolve_left id)
              · exact fun e he => habort _ e rfl (he.resolve_left id)
            · exact fun e he => habort _ e rfl (he.resolve_left id)
          · exact fun e he => habort _ e rfl (he.resolve_left id)
      · exact fun e he => habort _ e rfl (he.resolve_left id)
    · exact fun e he => habort _ e rfl (he.resolve_left id)
  · rintro profile stage ⟨rfl, hknown⟩
    exact ⟨trivial, ⟨rfl, hknown⟩, fun e he => ⟨habort _ e rfl he, fun h => h.elim⟩⟩
  · rintro e stage ⟨hrefused, hover⟩
    exact ⟨hrefused, hover⟩

def Ending (refs : References) (call : Call) : Except Failure (Option Profile) → Stage → Prop :=
  match call with
  | .put _ set body => Contract.Ends
      (fun answer stage => ∃ profile, answer = some profile ∧ stage = .done profile ∧
        ∀ ids, submittedIds set body = .ok ids → AllKnown refs set ids)
      (fun e stage => Refused refs set body e ∧ stage = .idle)
  | .read => Contract.Ends (fun answer stage => stage = .served answer)
      (fun e stage => (∃ e', e = .database e' ∧ IsAbort e') ∧ stage = .idle)

theorem follows_program (refs : References) (call : Call) :
    call.program.Follows (workflow refs call).protocol .idle (Ending refs call) := by
  cases call with
  | read =>
      refine ⟨⟨rfl, rfl⟩, fun r stage h => ?_⟩
      cases r with
      | ok answer => exact h
      | error e =>
          obtain ⟨he, rfl⟩ := h
          exact ⟨⟨e, rfl, he.resolve_left id⟩, rfl⟩
  | put actor set body =>
      rw [Call.program]
      split
      · rename_i e herror
        exact ⟨.body herror, rfl⟩
      · rename_i ids hids
        have hworkflow : workflow refs (.put actor set body) = replacing refs ⟨actor, set, ids⟩ := by
          simp only [workflow, Call.submission, hids]
        rw [hworkflow]
        apply Prog.Follows.bind (P := fun profile stage => stage = .done profile ∧ AllKnown refs set ids)
        · exact follows_replace (s := ⟨actor, set, ids⟩) hids
        · rintro profile stage ⟨rfl, hknown⟩
          refine ⟨profile, rfl, rfl, fun ids' hids' => ?_⟩
          obtain rfl : ids = ids' := Except.ok.inj (hids.symm.trans hids')
          exact hknown

end Programs

section Runs

variable {T : Type}

def Call.submitted (call : Call) (set : PreferenceSet) : Option (List ℤ) :=
  match call.submission with
  | some s => if s.set = set then some (submittedSet s.ids) else none
  | none => none

theorem ids_profileAfter (calls : T → Call) (start : Profile) (commits : List T) (set : PreferenceSet) :
    (profileAfter calls start commits).ids set =
      ((commits.filterMap fun t => (calls t).submitted set).getLast?).getD (start.ids set) := by
  induction commits using List.reverseRecOn with
  | nil => rfl
  | append_singleton commits t ih =>
      rw [profileAfter_append, List.filterMap_append, List.filterMap_cons, List.filterMap_nil]
      cases hs : (calls t).submission with
      | none =>
          have happly : (calls t).apply (profileAfter calls start commits) =
              profileAfter calls start commits := by
            cases hcall : calls t with
            | read => rfl
            | put actor set body =>
                rw [hcall, Call.submission] at hs
                rw [Call.apply]
                split at hs
                · cases hs
                · rfl
          rw [happly, ih, Call.submitted, hs]
          simp
      | some s =>
          rw [Call.apply_eq hs, Profile.ids_replace, Call.submitted, hs]
          by_cases hset : set = s.set
          · subst hset
            simp
          · simp [hset, Ne.symm hset, ih]

variable [DecidableEq T]

omit [DecidableEq T] in
theorem ofRows_idle (refs : References) (calls : T → Call) (start : Profile)
    (rows : AList fun _ : Key => Unit) (t : T) :
    At refs calls start t (PreferenceDb.ofRows rows) .idle :=
  ⟨⟨⟨rfl, fun _ => nofun⟩, nofun⟩, List.not_mem_nil⟩

end Runs

/-! ### A replace and a read of one customer -/

def cornerReferences : References := ⟨true, fun _ id => 1 ≤ id && id ≤ 5⟩

def cornerNumber (n : ℤ) : Option JsonNumber := some ⟨some n, none, none⟩

def cornerCalls : Bool → Call
  | true => .put "ana" .preferredChannels (some [cornerNumber 3, cornerNumber 1])
  | false => .read

def cornerRows : AList fun _ : Key => Unit := AList.singleton (.preferredChannels, 2) ()

/-- The read comes after the commit. -/
def cornerTurns : List Bool := [true, true, true, true, true, true, true, true, true, false]

end RetailSegmentation.Preferences
