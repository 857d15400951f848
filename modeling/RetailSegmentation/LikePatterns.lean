import Mathlib.Data.List.Infix
import Mathlib.Tactic.Common

/-! Patterns of `LIKE`: a percent sign stands for any text, an underscore for any character, and an escape
character makes the one after it stand for itself. -/

namespace LikePatterns

inductive Token where
  | any
  | one
  | literal (c : Char)
  deriving DecidableEq

inductive PatternError where
  | endsInEscape
  deriving DecidableEq, Repr

/-- What a character stands for that is not escaped. -/
def Token.plain (c : Char) : Token := if c = '%' then .any else if c = '_' then .one else .literal c

/-- A pattern as its tokens; it must not end in an escape character. -/
def tokens (escape : Char) : List Char → Except PatternError (List Token)
  | [] => .ok []
  | [c] => if c = escape then .error .endsInEscape else .ok [.plain c]
  | c :: d :: rest =>
    if c = escape then (tokens escape rest).map (.literal d :: ·)
    else (tokens escape (d :: rest)).map (.plain c :: ·)

/-- A percent sign is tried with every rest of the text. -/
def accepts : List Token → List Char → Bool
  | [], text => text.isEmpty
  | .any :: rest, text => text.tails.any fun text => accepts rest text
  | .one :: rest, text => !text.isEmpty && accepts rest text.tail
  | .literal c :: rest, text => text.head? = some c && accepts rest text.tail

/-- `text LIKE pattern ESCAPE escape`. -/
def likeEscape (escape : Char) (text pattern : List Char) : Except PatternError Bool :=
  (tokens escape pattern).map fun tokens => accepts tokens text

/-- `text LIKE pattern`. -/
def like (text pattern : List Char) : Except PatternError Bool := likeEscape '\\' text pattern

/-- `ILIKE` folds the text and the pattern, character by character, and compares them as `LIKE` does. -/
def ilikeEscape (fold : Char → List Char) (escape : Char) (text pattern : List Char) : Except PatternError Bool :=
  likeEscape escape (text.flatMap fold) (pattern.flatMap fold)

def ilike (fold : Char → List Char) (text pattern : List Char) : Except PatternError Bool :=
  ilikeEscape fold '\\' text pattern

/-- The characters that a pattern does not read as themselves. -/
def Special (c : Char) : Prop := c = '\\' ∨ c = '%' ∨ c = '_'

instance (c : Char) : Decidable (Special c) := inferInstanceAs (Decidable (_ ∨ _))

/-- The pattern of a text that is to be found as it is. -/
def literally (text : List Char) : List Char := text.flatMap fun c => if Special c then ['\\', c] else [c]

/-! ### What a literal pattern accepts -/

section Literals

variable {text rest : List Char} {more : List Token}

theorem tokens_plain {escape c : Char} (h : c ≠ escape) (rest : List Char) :
    tokens escape (c :: rest) = (tokens escape rest).map (.plain c :: ·) := by
  cases rest with
  | nil => exact if_neg h
  | cons d rest => exact if_neg h

theorem tokens_escape (escape d : Char) (rest : List Char) :
    tokens escape (escape :: d :: rest) = (tokens escape rest).map (.literal d :: ·) := by
  rw [tokens, if_pos rfl]

theorem tokens_literally_append (rest : List Char) (text : List Char) :
    tokens '\\' (literally text ++ rest) = (tokens '\\' rest).map (text.map .literal ++ ·) := by
  induction text with
  | nil =>
      change tokens '\\' rest = _
      cases tokens '\\' rest <;> rfl
  | cons c text ih =>
      unfold literally at ih ⊢
      rw [List.flatMap_cons, List.append_assoc]
      by_cases hspecial : Special c
      · rw [if_pos hspecial, List.cons_append, List.singleton_append, tokens_escape, ih]
        cases tokens '\\' rest <;> rfl
      · obtain ⟨hescape, hany, hone⟩ : c ≠ '\\' ∧ c ≠ '%' ∧ c ≠ '_' := by
          unfold Special at hspecial
          tauto
        have hplain : Token.plain c = .literal c := by rw [Token.plain, if_neg hany, if_neg hone]
        rw [if_neg hspecial, List.singleton_append, tokens_plain hescape, hplain, ih]
        cases tokens '\\' rest <;> rfl

theorem accepts_literals : accepts (text.map .literal ++ more) rest = true ↔
    ∃ after, rest = text ++ after ∧ accepts more after = true := by
  induction text generalizing rest with
  | nil => simp
  | cons c text ih =>
      rw [List.map_cons, List.cons_append, accepts, Bool.and_eq_true, decide_eq_true_eq, ih]
      cases rest with
      | nil => simp
      | cons d rest =>
          simp only [List.head?_cons, Option.some.injEq, List.tail_cons, List.cons_append, List.cons.injEq]
          constructor
          · rintro ⟨rfl, after, rfl, hafter⟩
            exact ⟨after, ⟨rfl, rfl⟩, hafter⟩
          · rintro ⟨after, ⟨rfl, rfl⟩, hafter⟩
            exact ⟨rfl, after, rfl, hafter⟩

theorem accepts_any : accepts (.any :: more) text = true ↔ ∃ suffix,
    suffix <:+ text ∧ accepts more suffix = true := by
  rw [accepts, List.any_eq_true]
  simp only [List.mem_tails]

theorem accepts_any_nil (text : List Char) : accepts [.any] text = true :=
  accepts_any.mpr ⟨[], List.nil_suffix, rfl⟩

theorem accepts_contains (q text : List Char) :
    accepts (.any :: (q.map .literal ++ [.any])) text = true ↔ q <:+: text := by
  rw [accepts_any]
  constructor
  · rintro ⟨suffix, ⟨before, rfl⟩, h⟩
    obtain ⟨after, rfl, -⟩ := accepts_literals.mp h
    exact ⟨before, after, List.append_assoc _ _ _⟩
  · rintro ⟨before, after, rfl⟩
    refine ⟨q ++ after, ⟨before, (List.append_assoc _ _ _).symm⟩, ?_⟩
    exact accepts_literals.mpr ⟨after, rfl, accepts_any_nil after⟩

theorem like_contains (q text : List Char) :
    like text ('%' :: (literally q ++ ['%'])) = .ok (decide (q <:+: text)) := by
  have htokens : tokens '\\' ('%' :: (literally q ++ ['%'])) = .ok (.any :: (q.map .literal ++ [.any])) := by
    rw [tokens_plain (by decide), tokens_literally_append]
    rfl
  unfold like likeEscape
  rw [htokens]
  exact congrArg Except.ok (Bool.eq_iff_iff.mpr ((accepts_contains q text).trans decide_eq_true_iff.symm))

/-- A folding of characters that keeps the special ones apart from the others. -/
structure KeepsSpecial (fold : Char → List Char) : Prop where
  special : ∀ c, Special c → fold c = [c]
  other : ∀ c, ¬ Special c → ∀ d ∈ fold c, ¬ Special d

theorem fold_literally {fold : Char → List Char} (h : KeepsSpecial fold) (q : List Char) :
    (literally q).flatMap fold = literally (q.flatMap fold) := by
  unfold literally
  rw [List.flatMap_assoc, List.flatMap_assoc]
  refine List.flatMap_congr fun c _ => ?_
  by_cases hspecial : Special c
  · rw [if_pos hspecial, List.flatMap_cons, List.flatMap_singleton, h.special c hspecial,
      h.special '\\' (.inl rfl), List.flatMap_singleton, if_pos hspecial]
    rfl
  · rw [if_neg hspecial, List.flatMap_singleton]
    have hplain : (fold c).flatMap (fun d => if Special d then ['\\', d] else [d]) = (fold c).flatMap fun d => [d] :=
      List.flatMap_congr fun d hd => if_neg (h.other c hspecial d hd)
    rw [hplain, List.flatMap_singleton']

theorem ilike_contains {fold : Char → List Char} (h : KeepsSpecial fold) (q text : List Char) :
    ilike fold text ('%' :: (literally q ++ ['%'])) = .ok (decide (q.flatMap fold <:+: text.flatMap fold)) := by
  have hpattern : ('%' :: (literally q ++ ['%'])).flatMap fold = '%' :: (literally (q.flatMap fold) ++ ['%']) := by
    rw [List.flatMap_cons, List.flatMap_append, fold_literally h, List.flatMap_singleton,
      h.special '%' (.inr (.inl rfl))]
    rfl
  unfold ilike ilikeEscape
  rw [hpattern]
  exact like_contains _ _

end Literals

end LikePatterns
