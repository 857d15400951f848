import RetailSegmentation.CategoryTree

/-! Reads through the cache of categories: what a copy under a number of the counter has seen, and what a read
that starts after an invalidation returns. -/

namespace RetailSegmentation.Categories

open Program

/-! ### What the tasks keep -/

section Contract

variable {T : Type} [DecidableEq T]

/-- A value that was read from a tree, or (a page) from two, the total first. -/
def Value.Of : (name : Name) → Value name → Tree → Tree → Prop
  | .page query page size, value, tree, tree' => value.total = (query.rows tree).length ∧
      value.items = pageRows (query.rows tree') size ((page - 1) * size)
  | .one id, row, tree, _ => tree.find? (fun row => row.categoryId = id) = some row

/-- A value read from trees that have seen the first `m` changes. -/
def Reading (h : History Tree) (m : ℕ) (name : Name) (value : Value name) : Prop :=
  ∃ tree tree', h.Since m tree ∧ h.Since m tree' ∧ Value.Of name value tree tree'

/-- Where a task is: not reading, or reading since an invalidation, with the number that its copy would be
under, the total of its page, or a value that it has read itself or been given. -/
inductive Point where
  | any
  | reading (change : ℕ)
  | keyed (change version : ℕ)
  | counted (change : ℕ) (query : Query) (total : ℕ)
  | queried (change : ℕ) (name : Name) (value : Value name)
  | answered (change : ℕ) (name : Name) (value : Value name)

/-- Every copy has seen what its number stands for, and no number stands for more than what has been committed. -/
structure Sound (w : World T) : Prop where
  copies : ∀ key value, w.copies key = some value →
    key.1 ≤ w.current ∧ Reading w.history (w.floor key.1) key.2 value
  follows : ∀ t, w.follows t ≤ w.history.count
  invalidated : w.invalidated ≤ w.history.count

/-- What a task relies on at each point. -/
def At (t : T) : Point → World T → Prop
  | .any, _ => True
  | .reading change, w => change ≤ w.invalidated
  | .keyed change version, w => change ≤ w.invalidated ∧ (version ≤ w.current → change ≤ w.floor version)
  | .counted change query total, w => change ≤ w.invalidated ∧ change ≤ w.seen t ∧
      ∃ tree, w.history.content (w.seen t) = some tree ∧ total = (query.rows tree).length
  | .queried change name value, w => change ≤ w.invalidated ∧ change ≤ w.seen t ∧ Reading w.history (w.seen t) name value
  | .answered change name value, w => change ≤ w.invalidated ∧ Reading w.history change name value

def contract (T : Type) : Contract T Command Reply (World T) Point where
  inv := Sound
  at_ := At
  guar _ _ _ _ _ := True

/-- As far as one task is concerned, the world has only moved on: a number of the counter stands for what it
did, or for all that has been invalidated. -/
structure Extends (t : T) (w w' : World T) : Prop where
  seen : w'.seen t = w.seen t
  content : ∀ n tree, w.history.content n = some tree → w'.history.content n = some tree
  invalidated : w.invalidated ≤ w'.invalidated
  floor : ∀ version, version ≤ w'.current →
    version ≤ w.current ∧ w'.floor version = w.floor version ∨ w.invalidated ≤ w'.floor version

variable {t : T} {w w' : World T}

omit [DecidableEq T] in
theorem Reading.extend {h h' : History Tree} {m : ℕ} {name : Name} {value : Value name}
    (hvalue : Reading h m name value)
    (hextend : ∀ n tree, h.content n = some tree → h'.content n = some tree) : Reading h' m name value := by
  obtain ⟨tree, tree', htree, htree', hof⟩ := hvalue
  exact ⟨tree, tree', htree.extend hextend, htree'.extend hextend, hof⟩

omit [DecidableEq T] in
theorem Reading.mono {h : History Tree} {m n : ℕ} {name : Name} {value : Value name}
    (hvalue : Reading h n name value)
    (hle : m ≤ n) : Reading h m name value := by
  obtain ⟨tree, tree', htree, htree', hof⟩ := hvalue
  exact ⟨tree, tree', htree.mono hle, htree'.mono hle, hof⟩

omit [DecidableEq T] in
theorem Extends.of_counter (hseen : w'.seen t = w.seen t)
    (hcontent : ∀ n tree, w.history.content n = some tree → w'.history.content n = some tree)
    (hversion : w'.version = w.version) (hfloor : w'.floor = w.floor) : Extends t w w' := by
  have hcurrent : w'.current = w.current := congrArg (Option.getD · 0) hversion
  refine ⟨hseen, hcontent, ?_, fun version hle => .inl ⟨hcurrent ▸ hle, by rw [hfloor]⟩⟩
  unfold World.invalidated
  rw [hcurrent, hfloor]

omit [DecidableEq T] in
theorem Extends.at_ (h : Extends t w w') {point : Point} (hat : At t point w) : At t point w' := by
  cases point with
  | any => trivial
  | reading change => exact Nat.le_trans hat h.invalidated
  | keyed change version =>
      refine ⟨Nat.le_trans hat.1 h.invalidated, fun hversion => ?_⟩
      rcases h.floor version hversion with ⟨hle, heq⟩ | hle
      · rw [heq]
        exact hat.2 hle
      · exact Nat.le_trans hat.1 hle
  | counted change query total =>
      obtain ⟨hle, hseen, tree, htree, htotal⟩ := hat
      refine ⟨Nat.le_trans hle h.invalidated, ?_, tree, ?_, htotal⟩
      · rwa [h.seen]
      · rw [h.seen]
        exact h.content _ _ htree
  | queried change name value =>
      obtain ⟨hle, hseen, hvalue⟩ := hat
      rw [← h.seen] at hseen hvalue
      exact ⟨Nat.le_trans hle h.invalidated, hseen, hvalue.extend h.content⟩
  | answered change name value => exact ⟨Nat.le_trans hat.1 h.invalidated, hat.2.extend h.content⟩

/-! ### The counter -/

omit [DecidableEq T] in
theorem incr_invalidated (change : ℕ) : (w.incr change).invalidated = change := Function.update_self _ _ _

omit [DecidableEq T] in
theorem incr_floor {version : ℕ} (hle : version ≤ w.current) (change : ℕ) :
    (w.incr change).floor version = w.floor version :=
  Function.update_of_ne (Nat.ne_of_lt (Nat.lt_succ_of_le hle)) _ _

omit [DecidableEq T] in
theorem evict_invalidated : w.evict.invalidated = w.invalidated := by
  change Function.update w.floor 0 w.invalidated 0 = w.invalidated
  exact Function.update_self _ _ _

omit [DecidableEq T] in
theorem Extends.incr {change : ℕ} (hchange : w.invalidated ≤ change) : Extends t w (w.incr change) := by
  refine ⟨rfl, fun _ _ h => h, ?_, fun version hle => ?_⟩
  · rwa [incr_invalidated]
  · by_cases hnew : version = w.current + 1
    · subst hnew
      exact .inr (hchange.trans (incr_invalidated change).ge)
    · have hold : version ≤ w.current := Nat.lt_succ_iff.mp (lt_of_le_of_ne hle hnew)
      exact .inl ⟨hold, incr_floor hold change⟩

omit [DecidableEq T] in
theorem Sound.incr (hinv : Sound w) {change : ℕ} (hchange : change ≤ w.history.count) : Sound (w.incr change) := by
  refine ⟨fun key value hcopy => ?_, hinv.follows, ?_⟩
  · obtain ⟨hle, hvalue⟩ := hinv.copies key value hcopy
    refine ⟨Nat.le_succ_of_le hle, ?_⟩
    rw [incr_floor hle]
    exact hvalue
  · rw [incr_invalidated]
    exact hchange

omit [DecidableEq T] in
theorem Extends.evict : Extends t w w.evict := by
  refine ⟨rfl, fun _ _ h => h, evict_invalidated.ge, fun version hle => .inr ?_⟩
  obtain rfl : version = 0 := Nat.le_zero.mp hle
  exact evict_invalidated.ge

omit [DecidableEq T] in
theorem Sound.evict (hinv : Sound w) (hnone : NoCopies w) : Sound w.evict := by
  refine ⟨fun key value hcopy => ?_, hinv.follows, ?_⟩
  · exact absurd (hcopy.symm.trans (hnone key)) nofun
  · rw [evict_invalidated]
    exact hinv.invalidated

/-! ### Commands -/

omit [DecidableEq T] in
theorem Sound.update (hinv : Sound w) (key : Key) (copy : Option (Value key.2))
    (hcopy : ∀ value, copy = some value → key.1 ≤ w.current ∧ Reading w.history (w.floor key.1) key.2 value) :
    Sound { w with copies := Function.update w.copies key copy } := by
  refine ⟨fun key' value hvalue => ?_, hinv.follows, hinv.invalidated⟩
  by_cases hkey : key' = key
  · subst hkey
    refine hcopy value ?_
    rwa [← Function.update_self key' copy w.copies]
  · refine hinv.copies key' value ?_
    rwa [← Function.update_of_ne hkey copy w.copies]

omit [DecidableEq T] in
theorem Sound.committed (hinv : Sound w) (tree : Tree) : Sound { w with history := w.history.commit tree } := by
  refine ⟨fun key value hcopy => ?_, fun t => ?_, ?_⟩
  · obtain ⟨hle, hvalue⟩ := hinv.copies key value hcopy
    exact ⟨hle, hvalue.extend fun _ _ h => History.content_commit h _⟩
  · rw [History.count_commit]
    exact Nat.le_succ_of_le (hinv.follows t)
  · rw [History.count_commit]
    exact Nat.le_succ_of_le hinv.invalidated

omit [DecidableEq T] in
theorem Sound.following (hinv : Sound w) [DecidableEq T] {change : ℕ} (hchange : change ≤ w.history.count) :
    Sound { w with follows := Function.update w.follows t change } := by
  refine ⟨hinv.copies, fun u => ?_, hinv.invalidated⟩
  by_cases hut : u = t
  · subst hut
    exact (Function.update_self u _ _).le.trans hchange
  · exact (Function.update_of_ne hut _ _).le.trans (hinv.follows u)

theorem keeps {c : Command} {r : Reply c} (hinv : Sound w)
    (hstep : ((machine NoCopies).guard Timely).step t c w r w')
    (hput : ∀ key value, c = .setCopy key value → Reading w.history (w.seen t) key.2 value) :
    (contract T).Keeps t w w' := by
  obtain ⟨htimely, hstep⟩ := hstep
  change Answers t c w r w' at hstep
  have hothers : ∀ w', (∀ u, u ≠ t → Extends u w w') → Sound w' → (contract T).Keeps t w w' :=
    fun w' hextends hsound =>
    ⟨hsound, fun u hu _ hat => (hextends u hu).at_ hat⟩
  have hsame : (contract T).Keeps t w w :=
    hothers w (fun u _ => .of_counter rfl (fun _ _ h => h) rfl rfl) hinv
  have hset : ∀ key (value : Value key.2), c = .setCopy key value →
      (contract T).Keeps t w { w with copies := Function.update w.copies key (some value) } := by
    intro key value hc
    refine hothers _ (fun u _ => .of_counter rfl (fun _ _ h => h) rfl rfl) (hinv.update key _ ?_)
    intro value' hvalue
    obtain rfl := Option.some.inj hvalue
    obtain ⟨hle, hseen⟩ := htimely key _ hc
    exact ⟨hle, (hput key _ hc).mono hseen⟩
  have hreads : ∀ n, (contract T).Keeps t w { w with seen := Function.update w.seen t n } := fun n =>
    hothers _ (fun u hu => .of_counter (Function.update_of_ne hu _ _) (fun _ _ h => h) rfl rfl)
      ⟨hinv.copies, hinv.follows, hinv.invalidated⟩
  cases hstep with
  | getVersion => exact hsame
  | getVersionFailed => exact hsame
  | getCopy => exact hsame
  | getCopyFailed => exact hsame
  | setCopy => exact hset _ _ rfl
  | setCopyUnanswered => exact hset _ _ rfl
  | setCopyFailed => exact hsame
  | incrVersion =>
      exact hothers _ (fun u _ => .incr (Nat.le_max_left _ _)) (hinv.incr (Nat.max_le.mpr ⟨hinv.invalidated, hinv.follows t⟩))
  | incrVersionUnanswered => exact hothers _ (fun u _ => .incr (Nat.le_refl _)) (hinv.incr hinv.invalidated)
  | incrVersionFailed => exact hsame
  | count => exact hreads _
  | select => exact hsame
  | selectOne => exact hreads _
  | execute =>
      exact hothers _ (fun u _ => .of_counter rfl (fun _ _ h => h) rfl rfl) ⟨hinv.copies, hinv.follows,
        hinv.invalidated⟩
  | commit =>
      refine hothers _ (fun u _ => .of_counter rfl (fun _ _ h => History.content_commit h _) rfl rfl) ?_
      exact (hinv.committed _).following (History.count_commit _ _).ge
  | countRefused => exact hsame
  | selectRefused => exact hsame
  | selectOneRefused => exact hsame
  | executeRefused => exact hsame
  | commitRefused => exact hsame
  | nextEvent hchange =>
      exact hothers _ (fun u _ => .of_counter rfl (fun _ _ h => h) rfl rfl) (hinv.following hchange)

variable {ℓ : Point} {change : ℕ}

/-- A label of a task that has started after the invalidation of a change. -/
def Started (t : T) (change : ℕ) (ℓ : Point) : Prop := ∀ w : World T, At t ℓ w → change ≤ w.invalidated

omit [DecidableEq T] in
theorem Started.reading : Started t change (.reading change) := fun _ hat => hat

omit [DecidableEq T] in
theorem Started.keyed {version : ℕ} : Started t change (.keyed change version) := fun _ hat => hat.1

omit [DecidableEq T] in
theorem Started.queried {name : Name} {value : Value name} : Started t change (.queried change name value) :=
  fun _ hat => hat.1

omit [DecidableEq T] in
theorem Started.answered {name : Name} {value : Value name} : Started t change (.answered change name value) :=
  fun _ hat => hat.1

theorem seen_now : ({ w with seen := Function.update w.seen t w.history.count } : World T).seen t = w.history.count :=
  Function.update_self t _ _

theorem getVersion_spec (hℓ : Started t change ℓ) :
    (contract T).CmdSpec ((machine NoCopies).guard Timely) t .getVersion ℓ
      fun r point => r.elim (point = ℓ) fun version => point = .keyed change (version.getD 0) := by
  intro w r w' hinv hat hstep
  have hkeeps := keeps hinv hstep nofun
  obtain ⟨-, hstep⟩ := hstep
  change Answers t .getVersion w r w' at hstep
  cases hstep with
  | getVersion => exact ⟨trivial, hkeeps, .keyed change w.current, ⟨hℓ w hat, fun _ => hℓ w hat⟩, rfl⟩
  | getVersionFailed => exact ⟨trivial, hkeeps, ℓ, hat, rfl⟩

theorem getVersion_aside :
    (contract T).CmdSpec ((machine NoCopies).guard Timely) t .getVersion ℓ fun _ point => point = ℓ := by
  intro w r w' hinv hat hstep
  have hkeeps := keeps hinv hstep nofun
  obtain ⟨-, hstep⟩ := hstep
  change Answers t .getVersion w r w' at hstep
  cases hstep with
  | getVersion => exact ⟨trivial, hkeeps, ℓ, hat, rfl⟩
  | getVersionFailed => exact ⟨trivial, hkeeps, ℓ, hat, rfl⟩

theorem getCopy_spec (change version : ℕ) (name : Name) :
    (contract T).CmdSpec ((machine NoCopies).guard Timely) t (.getCopy (version, name)) (.keyed change version)
      fun r point => r.join.elim (point = .keyed change version) fun value =>
        point = .answered change name value := by
  intro w r w' hinv hat hstep
  have hkeeps := keeps hinv hstep nofun
  obtain ⟨-, hstep⟩ := hstep
  change Answers t (.getCopy (version, name)) w r w' at hstep
  cases hstep with
  | getCopy =>
      cases hcopy : w.copies (version, name) with
      | none => exact ⟨trivial, hkeeps, .keyed change version, hat, rfl⟩
      | some value =>
          obtain ⟨hle, hvalue⟩ := hinv.copies _ _ hcopy
          exact ⟨trivial, hkeeps, .answered change name value, ⟨hat.1, hvalue.mono (hat.2 hle)⟩, rfl⟩
  | getCopyFailed => exact ⟨trivial, hkeeps, .keyed change version, hat, rfl⟩

theorem count_spec (hℓ : Started t change ℓ) (query : Query) :
    (contract T).CmdSpec ((machine NoCopies).guard Timely) t (.count query) ℓ
      fun r point => ∀ total, r = .ok total → point = .counted change query total := by
  intro w r w' hinv hat hstep
  have hkeeps := keeps hinv hstep nofun
  obtain ⟨-, hstep⟩ := hstep
  change Answers t (.count query) w r w' at hstep
  cases hstep with
  | count =>
      refine ⟨trivial, hkeeps, .counted change query (query.rows w.history.last).length, ⟨hℓ w hat, ?_, ?_⟩, ?_⟩
      · exact ((hℓ w hat).trans hinv.invalidated).trans seen_now.ge
      · refine ⟨w.history.last, ?_, rfl⟩
        rw [seen_now]
        exact w.history.content_count
      · rintro total hr
        rw [Except.ok.inj hr]
  | countRefused => exact ⟨trivial, hkeeps, .any, trivial, nofun⟩

theorem select_spec (change : ℕ) (query : Query) (page size total : ℕ) :
    (contract T).CmdSpec ((machine NoCopies).guard Timely) t (.select query size ((page - 1) * size))
      (.counted change query total)
      fun r point => ∀ rows, r = .ok rows → point = .queried change (.page query page size) ⟨rows, total⟩ := by
  intro w r w' hinv hat hstep
  have hkeeps := keeps hinv hstep nofun
  obtain ⟨-, hstep⟩ := hstep
  change Answers t (.select query size ((page - 1) * size)) w r w' at hstep
  cases hstep with
  | select =>
      obtain ⟨hle, hseen, tree, htree, htotal⟩ := hat
      let rows := pageRows (query.rows w.history.last) size ((page - 1) * size)
      refine ⟨trivial, hkeeps, .queried change (.page query page size) ⟨rows, total⟩, ⟨hle, hseen, ?_⟩, ?_⟩
      · exact ⟨tree, w.history.last, ⟨_, Nat.le_refl _, htree⟩, History.since_last (History.le_count htree),
          htotal, rfl⟩
      · rintro rows' hr
        rw [← Except.ok.inj hr]
  | selectRefused => exact ⟨trivial, hkeeps, .any, trivial, nofun⟩

theorem selectOne_spec (hℓ : Started t change ℓ) (id : ℤ) :
    (contract T).CmdSpec ((machine NoCopies).guard Timely) t (.selectOne id) ℓ
      fun r point => ∀ row, r = .ok (some row) → point = .queried change (.one id) row := by
  intro w r w' hinv hat hstep
  have hkeeps := keeps hinv hstep nofun
  obtain ⟨-, hstep⟩ := hstep
  change Answers t (.selectOne id) w r w' at hstep
  cases hstep with
  | selectOne =>
      cases hfound : w.history.last.find? fun row => row.categoryId = id with
      | none => exact ⟨trivial, hkeeps, .any, trivial, nofun⟩
      | some row =>
          refine ⟨trivial, hkeeps, .queried change (.one id) row, ⟨hℓ w hat, ?_, ?_⟩, ?_⟩
          · exact ((hℓ w hat).trans hinv.invalidated).trans seen_now.ge
          · rw [seen_now]
            exact ⟨_, _, History.since_last (Nat.le_refl _), History.since_last (Nat.le_refl _), hfound⟩
          · rintro row' hr
            rw [Option.some.inj (Except.ok.inj hr)]
  | selectOneRefused => exact ⟨trivial, hkeeps, .any, trivial, nofun⟩

theorem setCopy_spec (change version : ℕ) (name : Name) (value : Value name) :
    (contract T).CmdSpec ((machine NoCopies).guard Timely) t (.setCopy (version, name) value) (.queried change name value)
      fun _ point => point = .queried change name value := by
  intro w r w' hinv hat hstep
  have hkeeps := keeps hinv hstep fun key value' hc => by
    cases hc
    exact hat.2.2
  obtain ⟨-, hstep⟩ := hstep
  change Answers t (.setCopy (version, name) value) w r w' at hstep
  refine ⟨trivial, hkeeps, .queried change name value, ?_, rfl⟩
  cases hstep with
  | setCopy => exact hat
  | setCopyUnanswered => exact hat
  | setCopyFailed => exact hat

/-! ### Reads -/

def Holds (change : ℕ) (name : Name) (value : Value name) (point : Point) : Prop :=
  point = .queried change name value ∨ point = .answered change name value

omit [DecidableEq T] in
theorem Started.holds {name : Name} {value : Value name} (hholds : Holds change name value ℓ) :
    Started t change ℓ := by
  rcases hholds with rfl | rfl
  · exact Started.queried
  · exact Started.answered

theorem get_safe (client : Bool) (name : Name) (hℓ : Started t change ℓ) :
    (contract T).Safe ((machine NoCopies).guard Timely) t (get client name) ℓ
      (Contract.Ends (fun copy point => copy.elim (Started t change point) fun value => point = .answered change name value)
        fun _ _ => True) := by
  cases client with
  | false => exact hℓ
  | true =>
      change (contract T).Safe _ t (cacheGet name) ℓ _
      unfold cacheGet
      simp only [Prog.send_bind]
      refine (getVersion_spec hℓ).mono fun version point hpoint => ?_
      cases version with
      | none =>
          obtain rfl : point = ℓ := hpoint
          exact hℓ
      | some version =>
          obtain rfl : point = .keyed change (version.getD 0) := hpoint
          refine (getCopy_spec change (version.getD 0) name).mono fun copy point hpoint => ?_
          cases hjoin : copy.join with
          | none =>
              rw [hjoin] at hpoint
              obtain rfl : point = .keyed change (version.getD 0) := hpoint
              simp only [hjoin]
              exact Started.keyed
          | some value =>
              rw [hjoin] at hpoint
              simp only [hjoin]
              exact hpoint

theorem put_safe (client : Bool) (name : Name) (value : Value name) :
    (contract T).Safe ((machine NoCopies).guard Timely) t (put client name value) (.queried change name value)
      (Contract.Ends (fun _ point => Holds change name value point) fun _ _ => True) := by
  cases client with
  | false => exact .inl rfl
  | true =>
      change (contract T).Safe _ t (cachePut name value) _ _
      unfold cachePut
      simp only [Prog.send_bind]
      refine getVersion_aside.mono fun version point hpoint => ?_
      subst hpoint
      cases version with
      | none => exact .inl rfl
      | some version => exact (setCopy_spec change (version.getD 0) name value).mono fun _ _ hpoint => .inl hpoint

theorem orRaise_safe {α : Type} {Q : α → Point → Prop} (r : Except DbError α) (hr : ∀ a, r = .ok a → Q a ℓ) :
    (contract T).Safe ((machine NoCopies).guard Timely) t (orRaise r) ℓ (Contract.Ends Q fun _ _ => True) := by
  cases r with
  | ok a => exact hr a rfl
  | error e => trivial

theorem pageOf_safe (client : Bool) (query : Query) (page size : ℕ) (hℓ : Started t change ℓ) :
    (contract T).Safe ((machine NoCopies).guard Timely) t (pageOf client query page size) ℓ
      (Contract.Ends (Holds change (.page query page size)) fun _ _ => True) := by
  refine Contract.safe_seq (get_safe client (.page query page size) hℓ) fun copy point hpoint => ?_
  cases copy with
  | some cached => exact .inr hpoint
  | none =>
      simp only [Prog.send_bind]
      refine (count_spec hpoint query).mono fun r point hr => Contract.safe_seq
        (orRaise_safe (Q := fun total point => point = .counted change query total) r hr) ?_
      rintro total point rfl
      refine (select_spec change query page size total).mono fun r point hr => Contract.safe_seq
        (orRaise_safe (Q := fun rows point => point = .queried change (.page query page size) ⟨rows, total⟩) r hr) ?_
      rintro rows point rfl
      exact Contract.safe_seq (put_safe client (.page query page size) ⟨rows, total⟩) fun _ _ hholds => hholds

theorem existing_safe (client : Bool) (id : ℤ) (hℓ : Started t change ℓ) :
    (contract T).Safe ((machine NoCopies).guard Timely) t (existing client id) ℓ
      (Contract.Ends (Holds change (.one id)) fun _ _ => True) := by
  refine Contract.safe_seq (get_safe client (.one id) hℓ) fun copy point hpoint => ?_
  cases copy with
  | some cached => exact .inr hpoint
  | none =>
      simp only [Prog.send_bind]
      refine (selectOne_spec hpoint id).mono fun r point hr => ?_
      refine Contract.safe_seq
        (orRaise_safe (Q := fun found point => ∀ row, found = some row → point = .queried change (.one id) row) r
          fun found hfound row hrow => hr row (hrow ▸ hfound)) ?_
      intro found point hfound
      cases found with
      | none => trivial
      | some row =>
          obtain rfl := hfound row rfl
          exact Contract.safe_seq (put_safe client (.one id) row) fun _ _ hholds => hholds

theorem listDescendants_safe (client : Bool) (id : ℤ) (page size : ℕ) (hℓ : Started t change ℓ) :
    (contract T).Safe ((machine NoCopies).guard Timely) t (listDescendants client id page size) ℓ
      (Contract.Ends (Holds change (.page (.descendants id) page size)) fun _ _ => True) :=
  Contract.safe_seq (existing_safe client id hℓ) fun _ _ hholds =>
    pageOf_safe client (.descendants id) page size (Started.holds hholds)

/-! ### Writes and events -/

def Quiet (c : Command) : Prop := ∀ key value, c ≠ .setCopy key value

theorem safe_of_quiet {α : Type} {p : CategoriesProg α} (hp : p.Issues Quiet) :
    (contract T).Safe ((machine NoCopies).guard Timely) t p .any fun _ _ => True := by
  induction p with
  | ret a => trivial
  | raise e => trivial
  | call c k ih =>
      intro w r w' hinv _ hstep
      exact ⟨trivial, keeps hinv hstep fun key value hc => absurd hc (hp.1 key value), .any, trivial,
        ih r (hp.2 r)⟩

theorem send_quiet {c : Command} (hc : Quiet c) : (Prog.send c : CategoriesProg (Reply c)).Issues Quiet :=
  ⟨hc, fun _ => trivial⟩

theorem orRaise_quiet {α : Type} (r : Except DbError α) : (orRaise r).Issues Quiet := by
  cases r <;> trivial

theorem write_quiet (change : Change) (deleting : Bool) : (write change deleting).Issues Quiet := by
  refine Prog.Issues.tryCatch ?_ fun e => ?_
  · refine (send_quiet (c := .execute change) nofun).bind fun r => (orRaise_quiet r).bind fun row => ?_
    exact (send_quiet (c := .commit) nofun).bind fun r => (orRaise_quiet r).bind fun _ => trivial
  · cases e <;> trivial

theorem invalidateQuietly_quiet (client : Bool) : (invalidateQuietly client).Issues Quiet := by
  cases client with
  | true => exact (send_quiet (c := .incrVersion) nofun).bind fun _ => trivial
  | false => trivial

theorem requireStorableParent_quiet (parent : Option ℤ) : (requireStorableParent parent).Issues Quiet := by
  cases parent with
  | none => trivial
  | some parent =>
      simp only [requireStorableParent]
      split_ifs <;> trivial

theorem createCategory_quiet (client : Bool) (row : Category) : (createCategory client row).Issues Quiet := by
  refine (requireStorableParent_quiet _).bind fun _ => Prog.Issues.bind ?_ fun created => ?_
  · exact (write_quiet _ _).tryCatch fun e => by cases e <;> trivial
  · exact (invalidateQuietly_quiet client).bind fun _ => trivial

theorem updateCategory_quiet (client : Bool) (id : ℤ) (name : Option String) (parent : Option (Option ℤ)) :
    (updateCategory client id name parent).Issues Quiet := by
  refine (requireStorableParent_quiet _).bind fun _ => (write_quiet _ _).bind fun row => ?_
  cases row with
  | none => trivial
  | some row => exact (invalidateQuietly_quiet client).bind fun _ => trivial

theorem deleteCategory_quiet (client : Bool) (id : ℤ) : (deleteCategory client id).Issues Quiet := by
  refine (write_quiet _ _).bind fun row => ?_
  cases row with
  | none => trivial
  | some row => exact (invalidateQuietly_quiet client).bind fun _ => trivial

theorem handleEvent_quiet (client : Bool) : (handleEvent client).Issues Quiet := by
  refine (send_quiet (c := .nextEvent) nofun).bind fun _ => ?_
  cases client with
  | true => exact (send_quiet (c := .incrVersion) nofun).bind fun _ => trivial
  | false => trivial

theorem Task.prog_safe (client : Bool) (task : Task) :
    ∃ point, At t point w ∧ (contract T).Safe ((machine NoCopies).guard Timely) t (task.prog client) point fun _ _ => True := by
  have hread : ∀ {α : Type} {p : CategoriesProg α} {Q : Except Failure α → Point → Prop} (f : α → Answer),
      (contract T).Safe ((machine NoCopies).guard Timely) t p (.reading 0) Q →
      (contract T).Safe ((machine NoCopies).guard Timely) t (p >>=
        fun a => .ret (f a)) (.reading 0) fun _ _ => True := by
    intro α p Q f hsafe
    refine Contract.safe_bind.mpr (hsafe.mono ?_)
    rintro (e | a) point - <;> trivial
  cases task with
  | list parent page size => exact ⟨.reading 0, Nat.zero_le _, hread _ (pageOf_safe client _ page size Started.reading)⟩
  | one id => exact ⟨.reading 0, Nat.zero_le _, hread _ (existing_safe client id Started.reading)⟩
  | descendants id page size =>
      exact ⟨.reading 0, Nat.zero_le _, hread _ (listDescendants_safe client id page size Started.reading)⟩
  | create row => exact ⟨.any, trivial, safe_of_quiet ((createCategory_quiet client row).bind fun _ => trivial)⟩
  | update id name parent =>
      exact ⟨.any, trivial, safe_of_quiet ((updateCategory_quiet client id name parent).bind fun _ => trivial)⟩
  | delete id => exact ⟨.any, trivial, safe_of_quiet ((deleteCategory_quiet client id).bind fun _ => trivial)⟩
  | event => exact ⟨.any, trivial, safe_of_quiet ((handleEvent_quiet client).bind fun _ => trivial)⟩

omit [DecidableEq T] in
theorem Meanwhile.sound (hinv : Sound w) (h : Meanwhile NoCopies w w') : Sound w' ∧ ∀ t, Extends t w w' := by
  cases h with
  | changed tree =>
      exact ⟨hinv.committed tree, fun t => .of_counter rfl (fun _ _ hn => History.content_commit hn _) rfl rfl⟩
  | expired key => exact ⟨hinv.update key none nofun, fun t => .of_counter rfl (fun _ _ hn => hn) rfl rfl⟩
  | evicted hevict => exact ⟨hinv.evict hevict, fun t => .evict⟩

theorem closed : (contract T).Closed ((machine NoCopies).guard Timely) where
  env w w' hinv henv := by
    obtain ⟨hsound, hextends⟩ := Meanwhile.sound hinv henv
    exact ⟨hsound, fun t _ hat => (hextends t).at_ hat⟩
  halt t w w' hinv hhalt := by
    obtain rfl : w' = w := hhalt
    exact ⟨hinv, fun _ _ _ hat => hat⟩

end Contract

/-! ### Every run -/

section Runs

variable {T : Type} [DecidableEq T]

abbrev CategoriesConfig (T : Type) := Config T Command Reply Failure Answer (World T)

omit [DecidableEq T] in
theorem sound_initial {tree : Tree} :
    Sound (⟨⟨tree, []⟩, none, fun _ => none, fun _ => id, fun _ => 0, fun _ => 0, fun _ => 0⟩ : World T) :=
  ⟨nofun, fun _ => Nat.le_refl 0, Nat.le_refl 0⟩

theorem Task.reads_safe {t : T} (client : Bool) {task : Task} {name : Name} (htask : task.reads = some name)
    (change : ℕ) :
    (contract T).Safe ((machine NoCopies).guard Timely) t (task.prog client) (.reading change)
      (Contract.Ends (fun answer point => ∃ value, answer = .of name value ∧ Holds change name value point)
        fun _ _ => True) := by
  cases task with
  | list parent page size =>
      obtain rfl := Option.some.inj htask
      exact Contract.safe_seq (pageOf_safe client _ page size Started.reading) fun value _ hholds =>
        ⟨value, rfl, hholds⟩
  | one id =>
      obtain rfl := Option.some.inj htask
      exact Contract.safe_seq (existing_safe client id Started.reading) fun row _ hholds => ⟨row, rfl, hholds⟩
  | descendants id page size =>
      obtain rfl := Option.some.inj htask
      exact Contract.safe_seq (listDescendants_safe client id page size Started.reading) fun value _ hholds =>
        ⟨value, rfl, hholds⟩
  | create row => cases htask
  | update id name parent => cases htask
  | delete id => cases htask
  | event => cases htask

/-- **Category reads.** If a copy is only stored under a number that the counter has reached, and has seen
every change that had been invalidated when the counter got to it, and the counter is evicted only while there
is no copy, a read that starts when an invalidation has been answered returns what has been read since the
change before it. -/
theorem categories_since (client : T → Bool) (task : T → Task) (start : Tree) {cfg cfg' : CategoriesConfig T}
    (hrun : ((machine NoCopies).guard Timely).Reaches (initial client task start) cfg) {t : T} {name : Name}
    (htask : (task t).reads = some name) (hstart : cfg.threads t = some ((task t).prog (client t)))
    (hlater : ((machine NoCopies).guard Timely).Reaches cfg cfg') {answer : Answer}
    (hread : cfg'.threads t = some (.ret answer)) :
    ∃ value, answer = .of name value ∧ Reading cfg'.state.history cfg.state.invalidated name value := by
  have hgood : (contract T).Good ((machine NoCopies).guard Timely) (fun _ _ _ => True) cfg :=
    Contract.Good.reaches closed (Contract.Good.initial sound_initial fun t => (task t).prog_safe (client t)) hrun
  have hat : (contract T).at_ t (.reading cfg.state.invalidated) cfg.state := Nat.le_refl cfg.state.invalidated
  have hsafe := Task.reads_safe (t := t) (client t) htask cfg.state.invalidated
  have hfollowed := (hgood.follow hstart hat hsafe).reaches closed hlater
  obtain ⟨point, hat, hends⟩ := hfollowed.ended hread
  rw [Function.update_self] at hends
  obtain ⟨value, hvalue, hholds⟩ := hends
  refine ⟨value, hvalue, ?_⟩
  rcases hholds with rfl | rfl
  · obtain ⟨-, hseen, hreading⟩ := hat
    exact hreading.mono hseen
  · exact hat.2

end Runs

/-! ### A slow read -/

/-- Redis and PostgreSQL where nothing fails. -/
def answer {T : Type} [DecidableEq T] (t : T) : (c : Command) → World T → Option (Reply c × World T)
  | .getVersion, w => some (some w.version, w)
  | .getCopy key, w => some (some (w.copies key), w)
  | .setCopy key value, w => some (some (), { w with copies := Function.update w.copies key (some value) })
  | .incrVersion, w => some (some (w.current + 1), w.incr (max w.invalidated (w.follows t)))
  | .selectOne id, w => some (.ok (w.history.last.find? fun row => row.categoryId = id),
      { w with seen := Function.update w.seen t w.history.count })
  | .execute change, w => some (.ok (change.returning w.history.last),
      { w with pending := Function.update w.pending t change.apply })
  | .commit, w => some (.ok (), { w with
      history := w.history.commit (w.pending t w.history.last)
      follows := Function.update w.follows t (w.history.count + 1) })
  | _, _ => none

theorem step_of_answer {T : Type} [DecidableEq T] {t : T} {c : Command} {r : Reply c} {w w' : World T}
    {mayEvict : World T → Prop} (h : answer t c w = some (r, w')) : (machine mayEvict).step t c w r w' := by
  cases c with
  | getVersion =>
      obtain ⟨rfl, rfl⟩ := Prod.mk.inj (Option.some.inj h)
      exact .getVersion
  | getCopy key =>
      obtain ⟨rfl, rfl⟩ := Prod.mk.inj (Option.some.inj h)
      exact .getCopy
  | setCopy key value =>
      obtain ⟨rfl, rfl⟩ := Prod.mk.inj (Option.some.inj h)
      exact .setCopy
  | incrVersion =>
      obtain ⟨rfl, rfl⟩ := Prod.mk.inj (Option.some.inj h)
      exact .incrVersion
  | selectOne id =>
      obtain ⟨rfl, rfl⟩ := Prod.mk.inj (Option.some.inj h)
      exact .selectOne
  | execute change =>
      obtain ⟨rfl, rfl⟩ := Prod.mk.inj (Option.some.inj h)
      exact .execute
  | commit =>
      obtain ⟨rfl, rfl⟩ := Prod.mk.inj (Option.some.inj h)
      exact .commit
  | count query => cases h
  | select query limit offset => cases h
  | nextEvent => cases h

def Command.fills : Command → Option ℕ
  | .setCopy key _ => some key.1
  | _ => none

/-- The same, where a copy is only stored in time. -/
def timelyAnswer (t : Fin 3) (c : Command) (w : World (Fin 3)) : Option (Reply c × World (Fin 3)) :=
  if c.fills.all fun version => version ≤ w.current ∧ w.floor version ≤ w.seen t then answer t c w else none

theorem step_of_timelyAnswer {t : Fin 3} {c : Command} {r : Reply c} {w w' : World (Fin 3)}
    {mayEvict : World (Fin 3) → Prop} (h : timelyAnswer t c w = some (r, w')) :
    ((machine mayEvict).guard Timely).step t c w r w' := by
  unfold timelyAnswer at h
  split_ifs at h with htimely
  refine ⟨fun key value hc => ?_, step_of_answer h⟩
  subst hc
  exact of_decide_eq_true htimely

/-- Two reads of a category, and a change of its name. -/
def tasks (t : Fin 3) : Task := if t = 1 then .update 1 (some "Calzado") none else .one 1

def shoes : Category := ⟨1, "Zapatos", none⟩

/-- The first read is over before the change; the second one, after it, sees it. -/
theorem categories_since_update : ∃ cfg cfg' : CategoriesConfig (Fin 3), ∃ value : Category,
    ((machine NoCopies).guard Timely).Reaches (initial (fun _ => true) tasks [shoes]) cfg ∧
      cfg.state.invalidated = 1 ∧
    ((machine NoCopies).guard Timely).Reaches cfg cfg' ∧ cfg'.threads 2 = some (.ret (.category value)) ∧
    Reading cfg'.state.history 1 (.one 1) value := by
  have hrun : ((schedule timelyAnswer [0, 0, 0, 0, 0, 1, 1, 1] (initial (fun _ => true) tasks [shoes])).any fun cfg =>
      cfg.state.invalidated = 1 ∧ (schedule timelyAnswer [2, 2, 2, 2, 2] cfg).any fun cfg' =>
        outcome (cfg'.threads 2) = some (.ok (.category ⟨1, "Calzado", none⟩))) = true := by
    decide +kernel
  obtain ⟨cfg, hcfg, hmid⟩ := (Option.any_eq_true _ _).mp hrun
  obtain ⟨hinvalidated, hlast⟩ := of_decide_eq_true hmid
  obtain ⟨cfg', hcfg', hended⟩ := (Option.any_eq_true _ _).mp hlast
  have hturn : ∀ t c (w : World (Fin 3)) r w', timelyAnswer t c w = some (r, w') →
      ((machine NoCopies).guard Timely).step t c w r w' := fun _ _ _ _ _ h => step_of_timelyAnswer h
  have hread := ret_of_outcome (of_decide_eq_true hended)
  have hreaches := Machine.reaches_of_schedule _ hturn _ hcfg
  have hlater := Machine.reaches_of_schedule _ hturn _ hcfg'
  refine ⟨cfg, cfg', _, hreaches, hinvalidated, hlater, hread, ?_⟩
  have hstart : cfg.threads 2 = some ((tasks 2).prog true) := threads_of_schedule _ (by decide) hcfg
  have hreads : (tasks 2).reads = some (.one 1) := rfl
  obtain ⟨value, hvalue, hreading⟩ := categories_since (fun _ => true) tasks [shoes] hreaches hreads hstart hlater hread
  obtain rfl := Answer.category.inj hvalue
  rwa [hinvalidated] at hreading

/-- The first read stores its category under the number that the invalidation has made, and the second one,
later still, returns it. -/
theorem categories_stale : ∃ cfg cfg' : CategoriesConfig (Fin 3), ∃ value : Category,
    (machine NoCopies).Reaches (initial (fun _ => true) tasks [shoes]) cfg ∧
    cfg.threads 2 = some ((tasks 2).prog true) ∧ (machine NoCopies).Reaches cfg cfg' ∧
    cfg'.threads 2 = some (.ret (.category value)) ∧
    ¬ Reading cfg'.state.history cfg.state.invalidated (.one 1) value := by
  have hrun : ((schedule answer [0, 0, 0, 1, 1, 1] (initial (fun _ => true) tasks [shoes])).any fun cfg =>
      cfg.state.invalidated = 1 ∧ (schedule answer [0, 0, 2, 2] cfg).any fun cfg' =>
        outcome (cfg'.threads 2) = some (.ok (.category shoes)) ∧
        cfg'.state.history = ⟨[shoes], [[⟨1, "Calzado", none⟩]]⟩) = true := by
    decide +kernel
  obtain ⟨cfg, hcfg, hmid⟩ := (Option.any_eq_true _ _).mp hrun
  obtain ⟨hinvalidated, hlast⟩ := of_decide_eq_true hmid
  obtain ⟨cfg', hcfg', hends⟩ := (Option.any_eq_true _ _).mp hlast
  obtain ⟨hended, hhistory⟩ := of_decide_eq_true hends
  have hturn : ∀ t c (w : World (Fin 3)) r w', answer t c w = some (r, w') → (machine NoCopies).step t c w r w' :=
    fun _ _ _ _ _ h => step_of_answer h
  refine ⟨cfg, cfg', shoes, Machine.reaches_of_schedule _ hturn _ hcfg, threads_of_schedule _ (by decide) hcfg,
    Machine.reaches_of_schedule _ hturn _ hcfg', ret_of_outcome hended, ?_⟩
  rw [hinvalidated, hhistory]
  rintro ⟨tree, tree', ⟨n, hle, hcontent⟩, -, hfound⟩
  obtain rfl : n = 1 := Nat.le_antisymm (History.le_count hcontent) hle
  obtain rfl := Option.some.inj hcontent
  have hname : some "Calzado" = some "Zapatos" := congrArg (Option.map Category.name) hfound
  exact absurd hname (by decide)

end RetailSegmentation.Categories
