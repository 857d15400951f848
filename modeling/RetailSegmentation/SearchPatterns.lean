import RetailSegmentation.LikePatterns

/-! The patterns that a search term becomes (`web/db/search.py`, `services/customers/app/service.py`), which
PostgreSQL matches. -/

namespace RetailSegmentation.SearchPatterns

open LikePatterns

/-- `text.replace(old, new)`, of one character. -/
def replace (text : List Char) (old : Char) (new : List Char) : List Char :=
  text.flatMap fun c => if c = old then new else [c]

/-- Wrap `search` for an `ILIKE`, matching it literally. -/
def ilikePattern (search : List Char) : List Char :=
  let escaped := replace (replace (replace search '\\' "\\\\".toList) '%' "\\%".toList) '_' "\\_".toList
  "%".toList ++ escaped ++ "%".toList

/-- A contains-pattern in which `%`, `_` and the escape character are literal. -/
def likePattern (text : List Char) : List Char :=
  let escaped := replace (replace (replace text '\\' "\\\\".toList) '%' "\\%".toList) '_' "\\_".toList
  "%".toList ++ escaped ++ "%".toList

example : ilikePattern "\\%".toList = "%\\\\\\%%".toList := by decide

/-! ### Three replacements and one -/

theorem replace_append (text text' : List Char) (old : Char) (new : List Char) :
    replace (text ++ text') old new = replace text old new ++ replace text' old new := List.flatMap_append

/-- What the replacements make of a character; the escape characters that one of them adds, the later ones keep. -/
theorem replace_singleton (c : Char) :
    replace (replace (replace [c] '\\' "\\\\".toList) '%' "\\%".toList) '_' "\\_".toList =
      if Special c then ['\\', c] else [c] := by
  by_cases hescape : c = '\\'
  · subst hescape
    decide
  · by_cases hany : c = '%'
    · subst hany
      decide
    · by_cases hone : c = '_'
      · subst hone
        decide
      · have hspecial : ¬ Special c := by
          unfold Special
          tauto
        simp [replace, hescape, hany, hone, hspecial]

theorem replace_eq_literally (text : List Char) :
    replace (replace (replace text '\\' "\\\\".toList) '%' "\\%".toList) '_' "\\_".toList = literally text := by
  induction text with
  | nil => rfl
  | cons c text ih =>
      calc replace (replace (replace (c :: text) '\\' "\\\\".toList) '%' "\\%".toList) '_' "\\_".toList
          = replace (replace (replace ([c] ++ text) '\\' "\\\\".toList) '%' "\\%".toList) '_' "\\_".toList := rfl
        _ = (if Special c then ['\\', c] else [c]) ++ literally text := by
            rw [replace_append, replace_append, replace_append, replace_singleton, ih]
        _ = literally (c :: text) := by rw [literally, literally, List.flatMap_cons]

theorem ilikePattern_eq (search : List Char) : ilikePattern search = '%' :: (literally search ++ ['%']) := by
  unfold ilikePattern
  dsimp only
  rw [replace_eq_literally, List.append_assoc]
  rfl

theorem likePattern_eq (text : List Char) : likePattern text = '%' :: (literally text ++ ['%']) :=
  ilikePattern_eq text

/-- **Search terms.** A term matches the texts that contain it, whatever it and they are made of, and up to
case where case is folded; its pattern is never one that is refused. -/
theorem search_literal (fold : Char → List Char) (hfold : KeepsSpecial fold) (q text : List Char) :
    like text (ilikePattern q) = .ok (decide (q <:+: text)) ∧
      likeEscape '\\' text (likePattern q) = .ok (decide (q <:+: text)) ∧
      ilike fold text (ilikePattern q) = .ok (decide (q.flatMap fold <:+: text.flatMap fold)) ∧
      ilikeEscape fold '\\' text (likePattern q) = .ok (decide (q.flatMap fold <:+: text.flatMap fold)) := by
  rw [ilikePattern_eq, likePattern_eq]
  exact ⟨like_contains q text, like_contains q text, ilike_contains hfold q text, ilike_contains hfold q text⟩

theorem toNat_toLower (c : Char) : c.toLower = c ∨ 97 ≤ c.toLower.toNat ∧ c.toLower.toNat ≤ 122 := by
  unfold Char.toLower
  split
  · rename_i hupper
    obtain ⟨hlow, hhigh⟩ := hupper
    have hlow := UInt32.le_iff_toNat_le.mp hlow
    have hhigh := UInt32.le_iff_toNat_le.mp hhigh
    refine .inr ?_
    change 97 ≤ (c.val + 32).toNat ∧ (c.val + 32).toNat ≤ 122
    rw [UInt32.toNat_add]
    change 65 ≤ c.val.toNat at hlow
    change c.val.toNat ≤ 90 at hhigh
    change 97 ≤ (c.val.toNat + 32) % 2 ^ 32 ∧ (c.val.toNat + 32) % 2 ^ 32 ≤ 122
    omega
  · exact .inl rfl

theorem keepsSpecial_toLower : KeepsSpecial fun c => [c.toLower] where
  special c hc := by
    obtain rfl | rfl | rfl := hc <;> decide
  other c hc d hd := by
    obtain rfl := List.mem_singleton.mp hd
    obtain hsame | ⟨hlow, hhigh⟩ := toNat_toLower c
    · rwa [hsame]
    · intro hlower
      obtain hlower | hlower | hlower := hlower <;>
      · rw [hlower] at hlow hhigh
        revert hlow hhigh
        decide

theorem search_literal_term :
    like "50%_off\\".toList (ilikePattern "%_".toList) = .ok (decide ("%_".toList <:+: "50%_off\\".toList)) ∧
      likeEscape '\\' "50%_off\\".toList (likePattern "%_".toList) =
        .ok (decide ("%_".toList <:+: "50%_off\\".toList)) ∧
      ilike (fun c => [c.toLower]) "50%_off\\".toList (ilikePattern "%_".toList) =
        .ok (decide ("%_".toList.flatMap (fun c => [c.toLower]) <:+: "50%_off\\".toList.flatMap fun c => [c.toLower])) ∧
      ilikeEscape (fun c => [c.toLower]) '\\' "50%_off\\".toList (likePattern "%_".toList) =
        .ok (decide ("%_".toList.flatMap (fun c => [c.toLower]) <:+: "50%_off\\".toList.flatMap fun c => [c.toLower])) :=
  search_literal _ keepsSpecial_toLower "%_".toList "50%_off\\".toList

end RetailSegmentation.SearchPatterns
