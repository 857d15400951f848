import Mathlib.Data.Int.Notation
import Mathlib.Data.List.Induction
import Mathlib.Data.List.Nodup
import Mathlib.Logic.Function.Basic
import Mathlib.Tactic.Common

/-! The lifecycle of campaigns, apart from any database: what may happen to a campaign, one event after
another, and what holds of every legal history. -/

namespace RetailSegmentation.Campaigns

inductive Status where
  | draft | active | finished | cancelled
  deriving DecidableEq, Repr

namespace Status

/-- `TRANSITIONS`: the moves each status allows, in the order the contract lists them. -/
def transitions : Status → List Status
  | draft => [active, cancelled]
  | active => [finished, cancelled]
  | finished => []
  | cancelled => []

/-- Every move leads further from the draft. -/
def rank : Status → ℕ
  | draft => 0
  | active => 1
  | finished => 2
  | cancelled => 2

theorem rank_lt {source target : Status} (h : target ∈ source.transitions) : source.rank < target.rank := by
  revert h
  cases source <;> cases target <;> decide

end Status

structure Date where
  year : ℕ
  month : ℕ
  day : ℕ
  deriving DecidableEq, Repr

/-- `self < other`. -/
def Date.Before (d d' : Date) : Prop :=
  d.year < d'.year ∨ d.year = d'.year ∧ (d.month < d'.month ∨ d.month = d'.month ∧ d.day < d'.day)

instance (d d' : Date) : Decidable (d.Before d') := inferInstanceAs (Decidable (_ ∨ _ ∧ (_ ∨ _ ∧ _)))

structure Details where
  name : String
  labelCode : String
  startsOn : Date
  endsOn : Date
  deriving DecidableEq, Repr

def Details.Ordered (d : Details) : Prop := ¬ d.endsOn.Before d.startsOn

instance (d : Details) : Decidable d.Ordered := inferInstanceAs (Decidable (¬ _))

structure Campaign where
  details : Details
  status : Status
  deriving DecidableEq, Repr

abbrev Book := ℤ → Option Campaign

inductive Event where
  | created (id : ℤ) (details : Details)
  | edited (id : ℤ) (details : Details)
  | moved (id : ℤ) (source target : Status)
  deriving DecidableEq, Repr

namespace Event

def id : Event → ℤ
  | created id _ => id
  | edited id _ => id
  | moved id _ _ => id

def row : Event → Option Campaign → Option Campaign
  | created _ details, _ => some ⟨details, .draft⟩
  | edited _ details, c => c.map fun c => { c with details }
  | moved _ _ target, c => c.map fun c => { c with status := target }

def apply (e : Event) (book : Book) : Book := Function.update book e.id (e.row (book e.id))

/-- A campaign is created once, as a draft, edited only while it is one, and moved along an edge. -/
def Legal (book : Book) : Event → Prop
  | created id details => book id = none ∧ details.Ordered
  | edited id details => (∃ c, book id = some c ∧ c.status = .draft) ∧ details.Ordered
  | moved id source target => (∃ c, book id = some c ∧ c.status = source) ∧ target ∈ source.transitions

theorem apply_self (e : Event) (book : Book) : e.apply book e.id = e.row (book e.id) :=
  Function.update_self _ _ _

theorem apply_of_ne {e : Event} {id : ℤ} (h : id ≠ e.id) (book : Book) : e.apply book id = book id :=
  Function.update_of_ne h _ _

theorem Legal.keeps_status {e : Event} {book : Book} (h : e.Legal book) {id : ℤ} {c : Campaign}
    (hc : book id = some c) : (∃ c', e.apply book id = some c' ∧ c'.status = c.status) ∨
      ∃ target, e = .moved id c.status target := by
  by_cases hid : id = e.id
  · subst hid
    rw [apply_self, hc]
    cases e with
    | created id details =>
        have hnone : book id = none := h.1
        exact absurd (hnone.symm.trans hc) nofun
    | edited id details => exact .inl ⟨_, rfl, rfl⟩
    | moved id source target =>
        obtain ⟨⟨c', hc', rfl⟩, -⟩ := h
        obtain rfl := Option.some.inj (hc'.symm.trans hc)
        exact .inr ⟨target, rfl⟩
  · left
    exact ⟨c, by rw [apply_of_ne hid, hc], rfl⟩

end Event

section History

variable {T : Type} {start : Book} {history : List (T × Event)} {t u : T} {e : Event} {id : ℤ}

def play (start : Book) (history : List (T × Event)) : Book :=
  history.foldl (fun book entry => entry.2.apply book) start

@[simp] theorem play_nil : play start ([] : List (T × Event)) = start := rfl

@[simp] theorem play_snoc : play start (history ++ [(t, e)]) = e.apply (play start history) := by
  rw [play, List.foldl_append]
  rfl

def LegalHistory (start : Book) (history : List (T × Event)) : Prop :=
  ∀ before t e after, history = before ++ (t, e) :: after → e.Legal (play start before)

theorem legalHistory_nil : LegalHistory start ([] : List (T × Event)) := by
  intro before t e after h
  cases before <;> cases h

theorem LegalHistory.of_append {later : List (T × Event)} (h : LegalHistory start (history ++ later)) :
    LegalHistory start history := by
  intro before t e after heq
  apply h before t e (after ++ later)
  rw [heq, List.append_assoc, List.cons_append]

theorem LegalHistory.last (h : LegalHistory start (history ++ [(t, e)])) : e.Legal (play start history) :=
  h history t e [] rfl

theorem LegalHistory.snoc (h : LegalHistory start history) (t : T) (he : e.Legal (play start history)) :
    LegalHistory start (history ++ [(t, e)]) := by
  intro before u e' after heq
  rcases List.eq_nil_or_concat after with rfl | ⟨after', last, rfl⟩
  · obtain ⟨rfl, hlast⟩ := List.append_inj' heq rfl
    obtain ⟨rfl, rfl⟩ := Prod.mk.inj (List.singleton_inj.mp hlast)
    exact he
  · rw [List.concat_eq_append, ← List.cons_append, ← List.append_assoc] at heq
    exact h before u e' after' (List.append_inj' heq rfl).1

/-! ### What holds of every legal history -/

theorem LegalHistory.ordered (h : LegalHistory start history)
    (hstart : ∀ id c, start id = some c → c.details.Ordered) {c : Campaign}
    (hc : play start history id = some c) : c.details.Ordered := by
  induction history using List.reverseRecOn generalizing id c with
  | nil => exact hstart id c hc
  | append_singleton history entry ih =>
      obtain ⟨t, e⟩ := entry
      rw [play_snoc] at hc
      by_cases hid : id = e.id
      · subst hid
        rw [Event.apply_self] at hc
        have hlegal := h.last
        cases e with
        | created id details =>
            obtain rfl := Option.some.inj hc
            exact hlegal.2
        | edited id details =>
            obtain ⟨c', hc', rfl⟩ := Option.map_eq_some_iff.mp hc
            exact hlegal.2
        | moved id source target =>
            obtain ⟨c', hc', rfl⟩ := Option.map_eq_some_iff.mp hc
            have hearlier : c'.details.Ordered := ih h.of_append hc'
            exact hearlier
      · rw [Event.apply_of_ne hid] at hc
        exact ih h.of_append hc

theorem LegalHistory.past (h : LegalHistory start history) {source target : Status}
    (hmoved : (t, .moved id source target) ∈ history) :
    ∃ c, play start history id = some c ∧ source.rank < c.status.rank := by
  induction history using List.reverseRecOn with
  | nil => exact absurd hmoved List.not_mem_nil
  | append_singleton history entry ih =>
      obtain ⟨u, e⟩ := entry
      have hlegal := h.last
      rw [play_snoc]
      rcases List.mem_append.mp hmoved with hold | hnew
      · obtain ⟨c, hc, hrank⟩ := ih h.of_append hold
        rcases hlegal.keeps_status hc with ⟨c', hc', hsame⟩ | ⟨target', rfl⟩
        · exact ⟨c', hc', by rw [hsame]; exact hrank⟩
        · refine ⟨{ c with status := target' }, ?_, ?_⟩
          · exact (Event.apply_self _ _).trans (congrArg (Option.map _) hc)
          · exact Nat.lt_trans hrank (Status.rank_lt hlegal.2)
      · obtain ⟨rfl, rfl⟩ := Prod.mk.inj (List.mem_singleton.mp hnew)
        obtain ⟨⟨c, hc, -⟩, hedge⟩ := hlegal
        refine ⟨{ c with status := target }, ?_, Status.rank_lt hedge⟩
        exact (Event.apply_self _ _).trans (congrArg (Option.map _) hc)

theorem LegalHistory.not_moved_again (h : LegalHistory start history) {source target target' : Status}
    (ht : (t, .moved id source target) ∈ history) :
    ¬ (Event.moved id source target').Legal (play start history) := by
  rintro ⟨⟨c, hc, rfl⟩, -⟩
  obtain ⟨c', hc', hrank⟩ := h.past ht
  obtain rfl := Option.some.inj (hc.symm.trans hc')
  exact Nat.lt_irrefl _ hrank

theorem LegalHistory.moved_once (h : LegalHistory start history) {source target target' : Status}
    (ht : (t, .moved id source target) ∈ history) (hu : (u, .moved id source target') ∈ history) :
    t = u ∧ target = target' := by
  induction history using List.reverseRecOn with
  | nil => exact absurd ht List.not_mem_nil
  | append_singleton history entry ih =>
      have hearlier := h.of_append
      rcases List.mem_append.mp ht with hold | hnew <;> rcases List.mem_append.mp hu with hold' | hnew'
      · exact ih hearlier hold hold'
      · obtain rfl := List.mem_singleton.mp hnew'
        exact absurd h.last (hearlier.not_moved_again hold)
      · obtain rfl := List.mem_singleton.mp hnew
        exact absurd h.last (hearlier.not_moved_again hold')
      · obtain rfl := List.mem_singleton.mp hnew
        obtain ⟨rfl, hsame⟩ := Prod.mk.inj (List.mem_singleton.mp hnew')
        injection hsame with _ _ htarget
        exact ⟨rfl, htarget.symm⟩

theorem edited_since {before rest : List (T × Event)} {details : Details}
    (hbefore : play start before id ≠ some ⟨details, .draft⟩) (hnone : ∀ u id details,
      (u, .created id details) ∉ rest)
    (hlegal : LegalHistory start (before ++ rest))
    (hafter : play start (before ++ rest) id = some ⟨details, .draft⟩) :
    ∃ u, (u, .edited id details) ∈ rest := by
  induction rest using List.reverseRecOn with
  | nil =>
      rw [List.append_nil] at hafter
      exact absurd hafter hbefore
  | append_singleton rest entry ih =>
      obtain ⟨v, e⟩ := entry
      rw [← List.append_assoc] at hlegal hafter
      by_cases hsame : play start (before ++ rest) id = some ⟨details, .draft⟩
      · obtain ⟨u, hu⟩ := ih (fun u id details h => hnone u id details (List.mem_append_left _ h))
          hlegal.of_append hsame
        exact ⟨u, List.mem_append_left _ hu⟩
      · rw [play_snoc] at hafter
        by_cases hid : id = e.id
        · subst hid
          rw [Event.apply_self] at hafter
          have hlast := hlegal.last
          cases e with
          | created id' details' =>
              exact absurd (List.mem_append_right _ (List.mem_singleton_self _)) (hnone v id' details')
          | edited id' details' =>
              obtain ⟨c, hc, heq⟩ := Option.map_eq_some_iff.mp hafter
              obtain ⟨rfl, -⟩ := Campaign.mk.inj heq
              exact ⟨v, List.mem_append_right _ (List.mem_singleton_self _)⟩
          | moved id' source target =>
              obtain ⟨c, hc, heq⟩ := Option.map_eq_some_iff.mp hafter
              obtain ⟨-, htarget⟩ := Campaign.mk.inj heq
              have hrank := Status.rank_lt hlast.2
              rw [htarget] at hrank
              exact absurd hrank (Nat.not_lt_zero _)
        · rw [Event.apply_of_ne hid] at hafter
          exact absurd hafter hsame

/-- A campaign that was in a status is still in it, or was moved from it. -/
def Seen (start : Book) (history : List (T × Event)) (id : ℤ) (status : Status) : Prop :=
  (∃ c, play start history id = some c ∧ c.status = status) ∨
    ∃ u target, (u, .moved id status target) ∈ history

theorem Seen.snoc {status : Status} (h : Seen start history id status) (t : T)
    (he : e.Legal (play start history)) : Seen start (history ++ [(t, e)]) id status := by
  rcases h with ⟨c, hc, rfl⟩ | ⟨u, target, hmem⟩
  · rcases he.keeps_status hc with hkept | ⟨target, rfl⟩
    · left
      rw [play_snoc]
      exact hkept
    · exact .inr ⟨t, target, List.mem_append_right _ (List.mem_singleton_self _)⟩
  · exact .inr ⟨u, target, List.mem_append_left _ hmem⟩

theorem Seen.moved {status : Status} (h : Seen start history id status)
    (hnot : ∀ c, play start history id = some c → c.status ≠ status) :
    ∃ u target, (u, .moved id status target) ∈ history := by
  rcases h with ⟨c, hc, hstatus⟩ | hmoved
  · exact absurd hstatus (hnot c hc)
  · exact hmoved

end History

end RetailSegmentation.Campaigns
