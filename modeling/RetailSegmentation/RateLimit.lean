import Mathlib.Data.Finset.Card
import Mathlib.Order.Interval.Finset.Nat
import Mathlib.Tactic.Ring
import RetailSegmentation.KitErrors
import RetailSegmentation.ProgramInterference
import RetailSegmentation.RedisStore
import RetailSegmentation.TextCodes

/-! The request limit of both kits (`_rate_limit` of kit-py's `core.py`, `rate_limit` of kit-rs's `kit.rs`):
for every caller and window a counter in Redis, made with an expiry of two windows and incremented, in two
commands that those of other requests come between. -/

namespace RetailSegmentation.RateLimit

open Program TextCodes

abbrev Text := List Char

/-- `RATE_LIMIT_REQUESTS` and `RATE_LIMIT_WINDOW_SECONDS`, which the kits keep above zero. -/
structure Settings where
  suffix : Text
  enabled : Bool
  requests : ℕ
  window : ℕ
  one_le_requests : 1 ≤ requests
  one_le_window : 1 ≤ window

/-- Whom a request comes from: the token's subject, the header `X-Real-IP`, the peer. -/
structure Request where
  principal : Option Text
  realIp : Option Text
  remoteAddr : Option Text
  deriving DecidableEq, Repr

inductive Command where
  | now
  | setNx (key : Text) (value seconds : ℕ)
  | incr (key : Text)
  deriving DecidableEq, Repr

/-- What Redis replies; `none` is an error of its client. -/
abbrev Reply : Command → Type
  | .now => ℕ
  | .setNx _ _ _ => Option Bool
  | .incr _ => Option ℕ

structure Refusal where
  error : ApiError
  retryAfter : ℕ
  deriving DecidableEq, Repr

def rateLimited (retryAfter : ℕ) : Refusal :=
  ⟨⟨429, "rate_limited", "The request limit was exceeded.", []⟩, retryAfter⟩

abbrev LimitProg := Prog Command Reply Refusal Unit

section Kits

variable (settings : Settings)

def keyOf (caller : Text) (index : ℕ) : Text := settings.suffix ++ ":rl:".toList ++ caller ++ ':' :: natText index

namespace KitPy

/-- The subject, or `headers.get("X-Real-IP") or remote_addr or "unknown"`. -/
def caller (request : Request) : Text :=
  match request.principal with
  | some sub => sub
  | none => ((request.realIp.filter (· ≠ [])).or (request.remoteAddr.filter (· ≠ []))).getD "unknown".toList

def rateLimit (request : Request) : LimitProg :=
  if settings.enabled = false then .ret () else do
    let now ← Prog.send Command.now
    let key := keyOf settings (caller request) (now / settings.window)
    let created ← Prog.send (Command.setNx key 0 (2 * settings.window))
    let count ← Prog.send (Command.incr key)
    match created, count with
    | some _, some count =>
      if settings.requests < count then
        let retryAfter := settings.window - now % settings.window
        .raise (rateLimited (max 1 retryAfter))
      else .ret ()
    | _, _ => .ret ()

end KitPy

namespace KitRs

/-- `HeaderValue::to_str`. -/
def isVisible (c : Char) : Bool := c = '\t' || 32 ≤ c.toNat && c.toNat < 127

def clientAddress (request : Request) : Text :=
  ((request.realIp.filter fun value => value.all isVisible && value ≠ []).or request.remoteAddr).getD "-".toList

def caller (request : Request) : Text :=
  match request.principal with
  | some sub => sub
  | none => if clientAddress request = "-".toList then "unknown".toList else clientAddress request

def rateLimit (request : Request) : LimitProg :=
  if settings.enabled = false then .ret () else do
    let now ← Prog.send Command.now
    let window := settings.window
    let key := keyOf settings (caller request) (now / window)
    let created ← Prog.send (Command.setNx key 0 (2 * window))
    let count ← Prog.send (Command.incr key)
    match created, count with
    | some _, some count =>
      if settings.requests < count then .raise (rateLimited (max (window - now % window) 1)) else .ret ()
    | _, _ => .ret ()

end KitRs

/-- An instance of the service. -/
inductive Kit where
  | py
  | rs
  deriving DecidableEq, Repr

def Kit.caller : Kit → Request → Text
  | .py => KitPy.caller
  | .rs => KitRs.caller

def Kit.rateLimit : Kit → Request → LimitProg
  | .py => KitPy.rateLimit settings
  | .rs => KitRs.rateLimit settings

end Kits

/-! ### Instances and Redis -/

/-- Redis, whose clock is everybody's; and of every request, what its clock showed and what its counter was. -/
structure Server (T : Type) where
  store : Redis.Store T Text fun _ => ℕ
  clock : T → Option ℕ
  counted : T → Option (Text × ℕ)

section Machine

variable {T : Type} [DecidableEq T]

def answer (t : T) : (c : Command) → Server T → Option (Reply c × Server T)
  | .now, s => some (s.store.now / 1000, { s with clock := Function.update s.clock t (some (s.store.now / 1000)) })
  | .setNx key value seconds, s =>
    match s.store.keys key with
    | some _ => some (some false, s)
    | none => some (some true, { s with store := s.store.set key (some ⟨value, some (s.store.now + seconds * 1000)⟩) })
  | .incr key, s =>
    let count := (s.store.get key).getD 0 + 1
    some (some count, { s with
      store := s.store.write key count
      counted := Function.update s.counted t (some (key, count)) })

/-- Commands are answered one at a time, and time passes between them. -/
def machine : Machine T Command Reply (Server T) where
  step t c s r s' := answer t c s = some (r, s')
  env s s' := ∃ later, s.store.now ≤ later ∧ s' = { s with store := s.store.tick later }
  halt _ s s' := s' = s

/-- A counter is incremented by the end of the window after the one that the request has read off its clock. -/
def Prompt (settings : Settings) (t : T) (c : Command) (s : Server T) : Prop :=
  ∀ key, c = .incr key → ∀ now, s.clock t = some now →
    s.store.now ≤ (now / settings.window + 2) * (settings.window * 1000)

/-- The service has started no request yet, and Redis has no key. -/
def Server.empty (now : ℕ) : Server T := ⟨⟨now, fun _ => none, fun _ => [], fun _ => false⟩, fun _ => none,
    fun _ => none⟩

end Machine

/-! ### Keys -/

theorem keyOf_injective {settings : Settings} {caller caller' : Text} {index index' : ℕ}
    (h : keyOf settings caller index = keyOf settings caller' index') : caller = caller' ∧ index = index' := by
  unfold keyOf at h
  have hreverse := congrArg List.reverse h
  simp only [List.reverse_append, List.reverse_cons, List.append_assoc] at hreverse
  have hdigits : ∀ n : ℕ, ∀ c ∈ (natText n).reverse, c.isDigit = true := fun n c hc =>
    isDigit_of_mem_natText (List.mem_reverse.mp hc)
  obtain ⟨hindex, hrest⟩ := append_inj_of_stop (hdigits index) (hdigits index') (by simp) (by simp) hreverse
  refine ⟨?_, natText_injective (List.reverse_injective hindex)⟩
  simp only [List.singleton_append, List.cons.injEq, true_and] at hrest
  exact List.reverse_injective (List.append_cancel_right hrest)

/-! ### What the requests keep -/

section Contract

variable {T : Type} [DecidableEq T] (settings : Settings) (kit : T → Kit) (request : T → Request)

/-- How far a request has got: what its clock showed, and what its counter was. -/
inductive Point where
  | start
  | timed (now : ℕ)
  | created (now : ℕ)
  | counted (now count : ℕ)

/-- The key of a request that reads this time. -/
def requestKey (t : T) (now : ℕ) : Text := keyOf settings ((kit t).caller (request t)) (now / settings.window)

def Settings.nextEnd (index : ℕ) : ℕ := (index + 2) * (settings.window * 1000)

/-- What always holds. Every counter lasts to the end of the window after its own, and shows all that has been
counted in it; no two requests have been given one count. -/
structure Sound (s : Server T) : Prop where
  lasts : ∀ caller index e, s.store.keys (keyOf settings caller index) = some e →
    ∃ d, e.deadline = some d ∧ settings.nextEnd index ≤ d
  expires : ∀ key e, s.store.keys key = some e → e.deadline ≠ none
  shown : ∀ t caller index n, s.counted t = some (keyOf settings caller index, n) → 1 ≤ n ∧
    ((∃ e, s.store.keys (keyOf settings caller index) = some e ∧ n ≤ e.value) ∨
      settings.nextEnd index < s.store.now)
  unique : ∀ t u caller index n, s.counted t = some (keyOf settings caller index, n) →
    s.counted u = some (keyOf settings caller index, n) → t = u

/-- What holds of a request at each point. -/
def At (t : T) : Point → Server T → Prop
  | .start, _ => True
  | .timed now, s => s.clock t = some now ∧ now * 1000 ≤ s.store.now
  | .created now, s => s.clock t = some now ∧
      ((s.store.keys (requestKey settings kit request t now)).isSome ∨
        settings.nextEnd (now / settings.window) < s.store.now)
  | .counted now count, s => s.clock t = some now ∧ s.counted t = some (requestKey settings kit request t now, count)

def contract : Contract T Command Reply (Server T) Point where
  inv := Sound settings
  at_ := At settings kit request
  guar _ _ _ _ _ := True

/-- What another request does, and what time does, as far as a request is concerned. -/
structure Extends (t : T) (s s' : Server T) : Prop where
  clock : s'.clock t = s.clock t
  counted : s'.counted t = s.counted t
  later : s.store.now ≤ s'.store.now
  kept : ∀ caller index, (s.store.keys (keyOf settings caller index)).isSome →
    (s'.store.keys (keyOf settings caller index)).isSome ∨ settings.nextEnd index < s'.store.now

variable {settings kit request} {t : T} {s s' : Server T}

omit [DecidableEq T] in
theorem Extends.at_ (h : Extends settings t s s') {point : Point} (hat : At settings kit request t point s) :
    At settings kit request t point s' := by
  cases point with
  | start => trivial
  | timed now => exact ⟨h.clock.trans hat.1, hat.2.trans h.later⟩
  | created now =>
      refine ⟨h.clock.trans hat.1, ?_⟩
      rcases hat.2 with hkey | hover
      · exact h.kept _ _ hkey
      · exact .inr (hover.trans_le h.later)
  | counted now count => exact ⟨h.clock.trans hat.1, h.counted.trans hat.2⟩

omit [DecidableEq T] in
theorem Sound.tick (h : Sound settings s) {later : ℕ} (hlater : s.store.now ≤ later) :
    Sound settings { s with store := s.store.tick later } := by
  have hold : ∀ key e, s.store.survivor later key = some e → s.store.keys key = some e := fun key e he =>
    (Option.filter_eq_some_iff.mp he).1
  refine ⟨fun caller index e he => h.lasts caller index e (hold _ e he),
    fun key e he => h.expires key e (hold key e he),
    fun t caller index n hn => ⟨(h.shown t caller index n hn).1, ?_⟩, h.unique⟩
  rcases (h.shown t caller index n hn).2 with ⟨e, he, hle⟩ | hover
  · by_cases halive : e.Alive later
    · exact .inl ⟨e, Option.filter_eq_some_iff.mpr ⟨he, decide_eq_true halive⟩, hle⟩
    · obtain ⟨d, hd, hend⟩ := h.lasts caller index e he
      refine .inr (hend.trans_lt (not_le.mp fun hle => halive fun d' hd' => ?_))
      rwa [← Option.some.inj (hd.symm.trans hd')]
  · exact .inr (hover.trans_le hlater)

omit [DecidableEq T] in
theorem Extends.tick (h : Sound settings s) {later : ℕ} (hlater : s.store.now ≤ later) :
    Extends settings t s { s with store := s.store.tick later } := by
  refine ⟨rfl, rfl, hlater, fun caller index hkey => ?_⟩
  obtain ⟨e, he⟩ := Option.isSome_iff_exists.mp hkey
  by_cases halive : e.Alive later
  · exact .inl (Option.isSome_iff_exists.mpr ⟨e, Option.filter_eq_some_iff.mpr ⟨he, decide_eq_true halive⟩⟩)
  · obtain ⟨d, hd, hend⟩ := h.lasts caller index e he
    refine .inr (hend.trans_lt (not_le.mp fun hle => halive fun d' hd' => ?_))
    rwa [← Option.some.inj (hd.symm.trans hd')]

theorem Extends.of_keys {store : Redis.Store T Text fun _ => ℕ} {clock : Option ℕ}
    {counted : Option (Text × ℕ)} {u : T}
    (hu : u ≠ t) (hnow : store.now = s.store.now) (hkeys : ∀ key,
      (s.store.keys key).isSome → (store.keys key).isSome) :
    Extends settings u s ⟨store, Function.update s.clock t clock, Function.update s.counted t counted⟩ :=
  ⟨Function.update_of_ne hu _ _, Function.update_of_ne hu _ _, hnow.ge, fun _ _ hkey => .inl (hkeys _ hkey)⟩

theorem now_spec : (contract settings kit request).CmdSpec (machine.guard (Prompt settings)) t .now .start
    fun r point => point = .timed r := by
  rintro s r s' hinv - ⟨-, hstep⟩
  obtain ⟨rfl, rfl⟩ := Prod.mk.inj (Option.some.inj hstep)
  refine ⟨trivial, ⟨⟨hinv.lasts, hinv.expires, hinv.shown, hinv.unique⟩, fun u hu point hat => ?_⟩,
    .timed _, ?_, rfl⟩
  · refine Extends.at_ ?_ hat
    have h : Extends settings u s ⟨s.store, Function.update s.clock t (some (s.store.now / 1000)),
        Function.update s.counted t (s.counted t)⟩ := .of_keys hu rfl fun _ h => h
    rwa [Function.update_eq_self] at h
  · exact ⟨Function.update_self _ _ _, Nat.div_mul_le_self _ _⟩

theorem nextEnd_le {now ms : ℕ} (h : now * 1000 ≤ ms) :
    settings.nextEnd (now / settings.window) ≤ ms + 2 * settings.window * 1000 := by
  have hdiv := Nat.div_mul_le_self now settings.window
  calc settings.nextEnd (now / settings.window)
      = now / settings.window * settings.window * 1000 + 2 * settings.window * 1000 := by
        unfold Settings.nextEnd
        ring
    _ ≤ ms + 2 * settings.window * 1000 := Nat.add_le_add_right ((Nat.mul_le_mul_right 1000 hdiv).trans h) _

theorem setNx_spec (now : ℕ) : (contract settings kit request).CmdSpec (machine.guard (Prompt settings)) t
    (.setNx (requestKey settings kit request t now) 0 (2 * settings.window)) (.timed now)
    fun r point => r.isSome ∧ point = .created now := by
  rintro s r s' hinv ⟨hclock, htime⟩ ⟨-, hstep⟩
  have hend : settings.nextEnd (now / settings.window) ≤ s.store.now + 2 * settings.window * 1000 :=
    nextEnd_le htime
  unfold machine answer at hstep
  dsimp only at hstep
  split at hstep
  · rename_i e hkey
    obtain ⟨rfl, rfl⟩ := Prod.mk.inj (Option.some.inj hstep)
    exact ⟨trivial, ⟨hinv, fun _ _ _ h => h⟩, .created now, ⟨hclock, .inl (by rw [hkey]; rfl)⟩, rfl, rfl⟩
  · rename_i hkey
    obtain ⟨rfl, rfl⟩ := Prod.mk.inj (Option.some.inj hstep)
    have hkeys : ∀ key, (s.store.keys key).isSome →
        ((s.store.set (requestKey settings kit request t now) (some ⟨0, some (s.store.now + 2 * settings.window * 1000)⟩)).keys
          key).isSome := by
      intro key hsome
      by_cases heq : key = requestKey settings kit request t now
      · subst heq
        rw [hkey] at hsome
        cases hsome
      · rwa [Redis.Store.set_keys_of_ne _ heq]
    refine ⟨trivial, ⟨⟨?_, ?_, ?_, hinv.unique⟩, fun u hu point hat => ?_⟩, .created now,
      ⟨hclock, .inl ?_⟩, rfl, rfl⟩
    · intro caller index e he
      by_cases heq : keyOf settings caller index = requestKey settings kit request t now
      · obtain ⟨-, rfl⟩ := keyOf_injective heq
        rw [heq, Redis.Store.set_keys_self] at he
        obtain rfl := Option.some.inj he
        exact ⟨_, rfl, hend⟩
      · rw [Redis.Store.set_keys_of_ne _ heq] at he
        exact hinv.lasts caller index e he
    · intro key e he
      by_cases heq : key = requestKey settings kit request t now
      · subst heq
        rw [Redis.Store.set_keys_self] at he
        obtain rfl := Option.some.inj he
        exact nofun
      · rw [Redis.Store.set_keys_of_ne _ heq] at he
        exact hinv.expires key e he
    · intro u caller index n hn
      refine ⟨(hinv.shown u caller index n hn).1, ?_⟩
      rcases (hinv.shown u caller index n hn).2 with ⟨e, he, hle⟩ | hover
      · have hne : keyOf settings caller index ≠ requestKey settings kit request t now := by
          intro heq
          rw [heq, hkey] at he
          cases he
        exact .inl ⟨e, (Redis.Store.set_keys_of_ne _ hne).trans he, hle⟩
      · exact .inr hover
    · have h : Extends settings u s ⟨s.store.set (requestKey settings kit request t now)
          (some ⟨0, some (s.store.now + 2 * settings.window * 1000)⟩), Function.update s.clock t (s.clock t),
          Function.update s.counted t (s.counted t)⟩ := .of_keys hu rfl hkeys
      rw [Function.update_eq_self, Function.update_eq_self] at h
      exact h.at_ hat
    · rw [Redis.Store.set_keys_self]
      rfl

theorem counted_update {counted : T → Option (Text × ℕ)} {u : T} {key key' : Text} {count n : ℕ}
    (h : Function.update counted t (some (key, count)) u = some (key', n)) :
    u = t ∧ key' = key ∧ n = count ∨ u ≠ t ∧ counted u = some (key', n) := by
  by_cases hut : u = t
  · subst hut
    rw [Function.update_self] at h
    obtain ⟨rfl, rfl⟩ := Prod.mk.inj (Option.some.inj h)
    exact .inl ⟨rfl, rfl, rfl⟩
  · rw [Function.update_of_ne hut] at h
    exact .inr ⟨hut, h⟩

theorem incr_spec (now : ℕ) : (contract settings kit request).CmdSpec (machine.guard (Prompt settings)) t
    (.incr (requestKey settings kit request t now)) (.created now)
    fun r point => ∃ count, r = some count ∧ point = .counted now count := by
  rintro s r s' hinv ⟨hclock, hcreated⟩ ⟨hprompt, hstep⟩
  have hintime : s.store.now ≤ settings.nextEnd (now / settings.window) := hprompt _ rfl now hclock
  obtain ⟨e, hkey⟩ := Option.isSome_iff_exists.mp (hcreated.resolve_right (not_lt.mpr hintime))
  have hget : s.store.get (requestKey settings kit request t now) = some e.value := by
    unfold Redis.Store.get
    rw [hkey]
    rfl
  have hwrite : s.store.write (requestKey settings kit request t now) (e.value + 1) =
      s.store.set (requestKey settings kit request t now) (some ⟨e.value + 1, e.deadline⟩) := by
    unfold Redis.Store.write
    rw [hkey]
    rfl
  unfold machine answer at hstep
  simp only [hget, Option.getD_some, hwrite] at hstep
  obtain ⟨rfl, rfl⟩ := Prod.mk.inj (Option.some.inj hstep)
  have hkeys : ∀ key, (s.store.keys key).isSome →
      ((s.store.set (requestKey settings kit request t now) (some ⟨e.value + 1, e.deadline⟩)).keys key).isSome := by
    intro key hsome
    by_cases heq : key = requestKey settings kit request t now
    · subst heq
      rw [Redis.Store.set_keys_self]
      rfl
    · rwa [Redis.Store.set_keys_of_ne _ heq]
  -- before its window is over a counter is still there, so that what has been counted in it is below its value
  have hbelow : ∀ u caller index n, s.counted u = some (keyOf settings caller index, n) →
      keyOf settings caller index = requestKey settings kit request t now → n ≤ e.value := by
    intro u caller index n hn heq
    obtain ⟨-, rfl⟩ := keyOf_injective heq
    rcases (hinv.shown u caller _ n hn).2 with ⟨e', he', hle⟩ | hover
    · rw [heq, hkey] at he'
      rwa [Option.some.inj he']
    · exact absurd hover (not_lt.mpr hintime)
  refine ⟨trivial, ⟨⟨?_, ?_, ?_, ?_⟩, fun u hu point hat => ?_⟩, .counted now (e.value + 1),
    ⟨hclock, Function.update_self _ _ _⟩, _, rfl, rfl⟩
  · intro caller index e' he'
    by_cases heq : keyOf settings caller index = requestKey settings kit request t now
    · rw [heq, Redis.Store.set_keys_self] at he'
      obtain rfl := Option.some.inj he'
      exact hinv.lasts caller index e (heq ▸ hkey)
    · rw [Redis.Store.set_keys_of_ne _ heq] at he'
      exact hinv.lasts caller index e' he'
  · intro key e' he'
    by_cases heq : key = requestKey settings kit request t now
    · subst heq
      rw [Redis.Store.set_keys_self] at he'
      obtain rfl := Option.some.inj he'
      exact hinv.expires _ e hkey
    · rw [Redis.Store.set_keys_of_ne _ heq] at he'
      exact hinv.expires key e' he'
  · intro u caller index n hn
    rcases counted_update hn with ⟨-, heq, rfl⟩ | ⟨-, hn⟩
    · refine ⟨Nat.le_add_left 1 _, .inl ⟨⟨e.value + 1, e.deadline⟩, ?_, le_rfl⟩⟩
      rw [heq, Redis.Store.set_keys_self]
    · refine ⟨(hinv.shown u caller index n hn).1, ?_⟩
      by_cases heq : keyOf settings caller index = requestKey settings kit request t now
      · refine .inl ⟨⟨e.value + 1, e.deadline⟩, ?_, (hbelow u caller index n hn heq).trans (Nat.le_succ _)⟩
        rw [heq, Redis.Store.set_keys_self]
      · rcases (hinv.shown u caller index n hn).2 with ⟨e', he', hle⟩ | hover
        · exact .inl ⟨e', (Redis.Store.set_keys_of_ne _ heq).trans he', hle⟩
        · exact .inr hover
  · -- a new count is above all that have been given
    intro u v caller index n hu hv
    rcases counted_update hu with ⟨hut, heq, rfl⟩ | ⟨-, hu⟩
    · rcases counted_update hv with ⟨hvt, -, -⟩ | ⟨-, hv⟩
      · rw [hut, hvt]
      · exact absurd (hbelow v caller index _ hv heq) (Nat.not_succ_le_self _)
    · rcases counted_update hv with ⟨-, heq, rfl⟩ | ⟨-, hv⟩
      · exact absurd (hbelow u caller index _ hu heq) (Nat.not_succ_le_self _)
      · exact hinv.unique u v caller index n hu hv
  · have h : Extends settings u s ⟨s.store.set (requestKey settings kit request t now) (some ⟨e.value + 1, e.deadline⟩),
        Function.update s.clock t (s.clock t),
        Function.update s.counted t (some (requestKey settings kit request t now, e.value + 1))⟩ :=
          .of_keys hu rfl hkeys
    rw [Function.update_eq_self t s.clock] at h
    exact h.at_ hat

theorem closed : (contract settings kit request).Closed (machine.guard (Prompt settings)) where
  env s s' hinv henv := by
    obtain ⟨later, hlater, rfl⟩ := henv
    exact ⟨Sound.tick hinv hlater, fun t point hat => (Extends.tick hinv hlater).at_ hat⟩
  halt t s s' hinv hhalt := by
    obtain rfl : s' = s := hhalt
    exact ⟨hinv, fun _ _ _ hat => hat⟩

def Ended (settings : Settings) : Except Refusal Unit → Point → Prop
  | .ok (), point => ∃ now count, point = .counted now count ∧ count ≤ settings.requests
  | .error refusal, point => ∃ now count, point = .counted now count ∧
      refusal = rateLimited (max 1 (settings.window - now % settings.window))

theorem limit_safe {key : ℕ → Text} {k : ℕ → Option Bool → Option ℕ → LimitProg}
    (hkey : ∀ now, key now = requestKey settings kit request t now)
    (hk : ∀ now created count, (contract settings kit request).Safe (machine.guard (Prompt settings)) t
      (k now (some created) (some count)) (.counted now count) (Ended settings)) :
    (contract settings kit request).Safe (machine.guard (Prompt settings)) t
      (.call .now fun now =>
        .call (.setNx (key now) 0 (2 * settings.window)) fun created =>
          .call (.incr (key now)) fun count => k now created count) .start
      (Ended settings) := by
  obtain rfl : key = requestKey settings kit request t := funext hkey
  refine now_spec.mono fun now point hpoint => ?_
  subst hpoint
  refine (setNx_spec now).mono fun created point hpoint => ?_
  obtain ⟨hcreated, rfl⟩ := hpoint
  obtain ⟨created, rfl⟩ := Option.isSome_iff_exists.mp hcreated
  refine (incr_spec now).mono fun reply point hpoint => ?_
  obtain ⟨count, rfl, rfl⟩ := hpoint
  exact hk now created count

theorem rateLimit_safe (henabled : settings.enabled = true) (t : T) :
    (contract settings kit request).Safe (machine.guard (Prompt settings)) t ((kit t).rateLimit settings (request t)) .start
      (Ended settings) := by
  have hneg : ¬ settings.enabled = false := by simp [henabled]
  cases hkit : kit t with
  | py =>
      have hkey : ∀ now, keyOf settings (KitPy.caller (request t)) (now / settings.window) =
          requestKey settings kit request t now := fun now => by rw [requestKey, hkit, Kit.caller]
      unfold Kit.rateLimit KitPy.rateLimit
      simp only [if_neg hneg, Prog.send_bind]
      refine limit_safe hkey fun now created count => ?_
      dsimp only
      split_ifs with hover
      · exact ⟨now, count, rfl, rfl⟩
      · exact ⟨now, count, rfl, not_lt.mp hover⟩
  | rs =>
      have hkey : ∀ now, keyOf settings (KitRs.caller (request t)) (now / settings.window) =
          requestKey settings kit request t now := fun now => by rw [requestKey, hkit, Kit.caller]
      unfold Kit.rateLimit KitRs.rateLimit
      simp only [if_neg hneg, Prog.send_bind]
      refine limit_safe hkey fun now created count => ?_
      dsimp only
      split_ifs with hover
      · exact ⟨now, count, rfl, by rw [Nat.max_comm]⟩
      · exact ⟨now, count, rfl, not_lt.mp hover⟩

end Contract

/-! ### Every run -/

section Runs

variable {T : Type} [DecidableEq T] (settings : Settings) (kit : T → Kit) (request : T → Request)

abbrev LimitConfig (T : Type) := Config T Command Reply Refusal Unit (Server T)

/-- All requests at their start, at a time when Redis has no key. -/
def initial (now : ℕ) : LimitConfig T := .initial (fun t => (kit t).rateLimit settings (request t)) (.empty now)

/-- A request of a caller has been let through, in the window that its clock showed. -/
def Admitted (cfg : LimitConfig T) (caller : Text) (index : ℕ) (t : T) : Prop :=
  cfg.threads t = some (.ret ()) ∧ (kit t).caller (request t) = caller ∧
    ∃ now, cfg.state.clock t = some now ∧ now / settings.window = index

/-- What the limit is for. -/
structure Limited (cfg : LimitConfig T) : Prop where
  admitted : ∀ caller index (ts : Finset T), (∀ t ∈ ts, Admitted settings kit request cfg caller index t) →
    ts.card ≤ settings.requests
  retryAfter : ∀ t refusal, cfg.threads t = some (.raise refusal) → 1 ≤ refusal.retryAfter ∧
    ∃ now, cfg.state.clock t = some now ∧
      ∀ later, now + refusal.retryAfter ≤ later → now / settings.window < later / settings.window
  expires : ∀ key e, cfg.state.store.keys key = some e → e.deadline ≠ none
  lasts : ∀ caller index e d, cfg.state.store.keys (keyOf settings caller index) = some e → e.deadline = some d →
    (index + 1) * (settings.window * 1000) ≤ d

omit [DecidableEq T] in
theorem sound_empty (now : ℕ) : Sound settings (.empty now : Server T) where
  lasts _ _ _ he := nomatch he
  expires _ _ he := nomatch he
  shown _ _ _ _ hn := nomatch hn
  unique _ _ _ _ _ hn := nomatch hn

theorem window_over (now : ℕ) {later : ℕ} (h : now + max 1 (settings.window - now % settings.window) ≤ later) :
    now / settings.window < later / settings.window := by
  have hpos := settings.one_le_window
  have hsplit := Nat.div_add_mod now settings.window
  have hmod := Nat.mod_lt now hpos
  refine (Nat.le_div_iff_mul_le hpos).mpr ?_
  rw [Nat.succ_mul, Nat.mul_comm]
  omega

/-- **Rate limit.** If every counter is incremented by the end of the window after the one its request has
read off the clock, no window lets through more requests of a caller than the limit, every refusal says when
its window is over, and every counter has an expiry that is not before the end of its window. -/
theorem limit_counts (henabled : settings.enabled = true) (now : ℕ) {cfg : LimitConfig T}
    (hrun : (machine.guard (Prompt settings)).Reaches (initial settings kit request now) cfg) :
    Limited settings kit request cfg := by
  have hgood : (contract settings kit request).Good (machine.guard (Prompt settings))
    (fun _ => Ended settings) cfg :=
    (Contract.Good.initial (sound_empty settings now) fun t => ⟨.start, trivial, rateLimit_safe henabled t⟩).reaches
      closed hrun
  have hsound : Sound settings cfg.state := hgood.inv
  refine ⟨fun caller index ts hts => ?_, fun t refusal hraise => ?_, hsound.expires,
    fun caller index e d he hd => ?_⟩
  · -- the requests let through have counts of their own, up to the limit
    have hcount : ∀ t ∈ ts, ∃ n, cfg.state.counted t = some (keyOf settings caller index, n) ∧ 1 ≤ n ∧
      n ≤ settings.requests := by
      intro t ht
      obtain ⟨hret, hcaller, now, hclock, hindex⟩ := hts t ht
      obtain ⟨point, hat, now', n, rfl, hle⟩ := hgood.ended hret
      obtain ⟨hclock', hcounted⟩ : cfg.state.clock t = some now' ∧
        cfg.state.counted t = some (requestKey settings kit request t now', n) := hat
      obtain rfl := Option.some.inj (hclock.symm.trans hclock')
      rw [requestKey, hcaller, hindex] at hcounted
      exact ⟨n, hcounted, (hsound.shown t caller index n hcounted).1, hle⟩
    choose! count hcount using hcount
    have hinj : Set.InjOn count ts := fun t ht u hu heq =>
      hsound.unique t u caller index (count t) (hcount t ht).1 (heq ▸ (hcount u hu).1)
    calc ts.card
        = (ts.image count).card := (Finset.card_image_of_injOn hinj).symm
      _ ≤ (Finset.Icc 1 settings.requests).card := Finset.card_le_card fun n hn => by
          obtain ⟨t, ht, rfl⟩ := Finset.mem_image.mp hn
          exact Finset.mem_Icc.mpr (hcount t ht).2
      _ = settings.requests := by rw [Nat.card_Icc, Nat.add_sub_cancel]
  · obtain ⟨point, hat, now', n, rfl, rfl⟩ := hgood.raised hraise
    exact ⟨Nat.le_max_left _ _, now', hat.1, fun later hlater => window_over settings now' hlater⟩
  · obtain ⟨d', hd', hend⟩ := hsound.lasts caller index e he
    obtain rfl := Option.some.inj (hd.symm.trans hd')
    exact (Nat.mul_le_mul_right _ (Nat.le_succ _)).trans hend

end Runs

/-! ### Two requests, one a minute -/

def oneAMinute : Settings := ⟨"sales".toList, true, 1, 60, le_rfl, by decide⟩

/-- One request to an instance of each kit. -/
def kits (t : Bool) : Kit := if t then .rs else .py

def sameCaller (_ : Bool) : Request := ⟨some "ana".toList, none, none⟩

/-- Redis answers the commands of the requests that are in time. -/
def promptAnswer (t : Bool) : (c : Command) → Server Bool → Option (Reply c × Server Bool)
  | .incr key, s =>
    if (s.clock t).all fun now => s.store.now ≤ (now / 60 + 2) * 60000 then answer t (.incr key) s else none
  | .setNx key value seconds, s => answer t (.setNx key value seconds) s
  | .now, s => answer t .now s

theorem step_of_promptAnswer {t : Bool} {c : Command} {s s' : Server Bool} {r : Reply c}
    (h : promptAnswer t c s = some (r, s')) : (machine.guard (Prompt oneAMinute)).step t c s r s' := by
  cases c with
  | now => exact ⟨nofun, h⟩
  | setNx key value seconds => exact ⟨nofun, h⟩
  | incr key =>
      unfold promptAnswer at h
      dsimp only at h
      split_ifs at h with htime
      refine ⟨fun _ _ now hclock => ?_, h⟩
      rw [hclock] at htime
      exact of_decide_eq_true htime

/-- The second of two requests in one minute is refused. -/
theorem limit_counts_two : ∃ cfg : LimitConfig Bool,
    (machine.guard (Prompt oneAMinute)).Reaches (initial oneAMinute kits sameCaller 7000) cfg ∧
    outcome (cfg.threads true) = some (.error (rateLimited 53)) ∧ Limited oneAMinute kits sameCaller cfg := by
  have hrun : ((schedule promptAnswer [false, true, false, true, false, true] (initial oneAMinute kits sameCaller 7000)).any
      fun cfg => outcome (cfg.threads true) = some (.error (rateLimited 53))) = true := by
    decide +kernel
  obtain ⟨cfg, hcfg, hrefused⟩ := (Option.any_eq_true _ _).mp hrun
  have hreaches := Machine.reaches_of_schedule _ (fun _ _ _ _ _ h => step_of_promptAnswer h) _ hcfg
  exact ⟨cfg, hreaches, of_decide_eq_true hrefused, limit_counts oneAMinute kits sameCaller rfl 7000 hreaches⟩

/-- Time passes. -/
def tick (later : ℕ) (cfg : LimitConfig Bool) : Option (LimitConfig Bool) :=
  if cfg.state.store.now ≤ later then some ⟨cfg.threads, { cfg.state with store := cfg.state.store.tick later }⟩ else none

theorem step_of_tick {later : ℕ} {cfg cfg' : LimitConfig Bool} (h : tick later cfg = some cfg') :
    machine.Step cfg cfg' := by
  unfold tick at h
  split_ifs at h with hlater
  obtain rfl := Option.some.inj h
  exact .env ⟨later, hlater, rfl⟩

/-- The second request reads its clock in the first minute as well, and is held up: its `SET` comes just before the
counter expires, and its `INCR` just after. -/
def heldUp : Option (LimitConfig Bool) :=
  (schedule answer [false, false, false, true] (initial oneAMinute kits sameCaller 0)).bind fun cfg =>
    (tick 120000 cfg).bind fun cfg => (schedule answer [true] cfg).bind fun cfg =>
      (tick 120001 cfg).bind fun cfg => schedule answer [true] cfg

theorem reaches_heldUp {cfg : LimitConfig Bool} (h : heldUp = some cfg) :
    machine.Reaches (initial oneAMinute kits sameCaller 0) cfg := by
  have hanswer : ∀ t c (s : Server Bool) r s', answer t c s = some (r, s') → machine.step t c s r s' :=
    fun _ _ _ _ _ h => h
  unfold heldUp at h
  simp only [Option.bind_eq_some_iff] at h
  obtain ⟨first, hfirst, due, hdue, second, hsecond, overdue, hoverdue, hlast⟩ := h
  exact (((Machine.reaches_of_schedule machine hanswer _ hfirst).tail (step_of_tick hdue)).trans
    ((Machine.reaches_of_schedule machine hanswer _ hsecond).tail (step_of_tick hoverdue))).trans
      (Machine.reaches_of_schedule machine hanswer _ hlast)

/-- Both are let through, and the counter stays for ever. -/
theorem limit_lapses : ∃ cfg : LimitConfig Bool, machine.Reaches (initial oneAMinute kits sameCaller 0) cfg ∧
    (∃ ts : Finset Bool, (∀ t ∈ ts, Admitted oneAMinute kits sameCaller cfg "ana".toList 0 t) ∧
      ¬ ts.card ≤ oneAMinute.requests) ∧
    ∃ key e, cfg.state.store.keys key = some e ∧ e.deadline = none := by
  have hrun : (heldUp.any fun cfg => (∀ t : Bool, outcome (cfg.threads t) = some (.ok ()) ∧ cfg.state.clock t = some 0) ∧
      cfg.state.store.keys (keyOf oneAMinute "ana".toList 0) = some ⟨1, none⟩) = true := by
    decide +kernel
  obtain ⟨cfg, hcfg, hends⟩ := (Option.any_eq_true _ _).mp hrun
  obtain ⟨hthreads, hkey⟩ := of_decide_eq_true hends
  refine ⟨cfg, reaches_heldUp hcfg, ⟨Finset.univ, fun t _ => ⟨ret_of_outcome (hthreads t).1, ?_, 0, (hthreads t).2, rfl⟩,
    by decide⟩, _, _, hkey, rfl⟩
  cases t <;> rfl

end RetailSegmentation.RateLimit
