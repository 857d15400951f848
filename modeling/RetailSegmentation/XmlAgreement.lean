import RetailSegmentation.XmlNumbers

/-! When both kits read one value from an XML body: schemas are followed alike, and what is left are the
spellings of `xsi:nil`, of numbers and of line ends. -/

namespace RetailSegmentation.XmlBodies

/-! ### Schemas -/

mutual

theorem schemaType_eq : ∀ schema : Schema, KitRs.schemaType schema = KitPy.schemaType schema
  | ⟨.many kinds, _, _, _, _, _, _⟩ => by rw [KitRs.schemaType, KitPy.schemaType]
  | ⟨.one kind, _, _, _, _, _, _⟩ => by rw [KitRs.schemaType, KitPy.schemaType]
  | ⟨.absent, _, _, _, _, oneOf, anyOf⟩ => by
      rw [KitRs.schemaType, KitPy.schemaType, branchType_eq oneOf, branchType_eq anyOf]

theorem branchType_eq : ∀ branches : List Schema, KitRs.branchType branches = KitPy.branchType branches
  | [] => by rw [KitRs.branchType, KitPy.branchType]
  | branch :: rest => by
      rw [KitRs.branchType, KitPy.branchType, schemaType_eq branch, branchType_eq rest]
      cases KitPy.schemaType branch with
      | none => rfl
      | some kind => cases kind <;> rfl

end

mutual

theorem mergedProperties_eq : ∀ schema : Schema, KitRs.mergedProperties schema = KitPy.mergedProperties schema
  | ⟨_, properties, _, _, allOf, oneOf, anyOf⟩ => by
      rw [KitRs.mergedProperties, KitPy.mergedProperties, updateBranches_eq properties allOf,
        updateBranches_eq _ oneOf,
        updateBranches_eq _ anyOf]

theorem updateBranches_eq (properties : List (String × Schema)) :
    ∀ branches : List Schema, KitRs.extendBranches properties branches = KitPy.updateBranches properties branches
  | [] => by rw [KitRs.extendBranches, KitPy.updateBranches]
  | branch :: rest => by
      rw [KitRs.extendBranches, KitPy.updateBranches, mergedProperties_eq branch, updateBranches_eq _ rest]

end

mutual

theorem nullable_eq : ∀ schema : Schema, KitRs.nullable schema = KitPy.nullable schema
  | ⟨.absent, _, _, _, _, oneOf, anyOf⟩ => by
      rw [KitRs.nullable, KitPy.nullable, anyNullable_eq oneOf, anyNullable_eq anyOf, Bool.false_or]
  | ⟨.many kinds, _, _, _, _, oneOf, anyOf⟩ => by
      rw [KitRs.nullable, KitPy.nullable, anyNullable_eq oneOf, anyNullable_eq anyOf]
      have hnull : (kinds.any fun kind => decide (kind = .null)) = kinds.contains .null := by
        rw [List.contains_eq_any_beq]
        exact congrArg _ (funext fun kind => by cases kind <;> rfl)
      rw [hnull, Bool.or_assoc]
      cases kinds.contains .null <;> rfl
  | ⟨.one kind, _, _, _, _, oneOf, anyOf⟩ => by
      cases kind <;> rw [KitRs.nullable, KitPy.nullable]
      · rfl
      all_goals first
        | (rw [anyNullable_eq oneOf, anyNullable_eq anyOf]; rfl)
        | exact nofun

theorem anyNullable_eq : ∀ branches : List Schema, KitRs.anyNullable branches = KitPy.anyNullable branches
  | [] => by rw [KitRs.anyNullable, KitPy.anyNullable]
  | branch :: rest => by rw [KitRs.anyNullable, KitPy.anyNullable, nullable_eq branch, anyNullable_eq rest]

end

theorem mem_unionNames {name : String} {names : List String} (branches : List Schema) :
    name ∈ KitPy.unionNames names branches ↔ name ∈ names ∨ ∃ branch ∈ branches,
      name ∈ KitPy.requiredNames branch := by
  induction branches generalizing names with
  | nil => simp [KitPy.unionNames]
  | cons branch rest ih =>
      rw [KitPy.unionNames, ih, List.mem_union_iff, or_assoc]
      simp only [List.mem_cons, exists_eq_or_imp]

mutual

theorem mem_requiredNames {name : String} (names : List String) :
    ∀ schema : Schema, name ∈ KitRs.requiredNames names schema ↔ name ∈ names ∨ name ∈ KitPy.requiredNames schema
  | ⟨_, _, _, required, allOf, _, _⟩ => by
      rw [KitRs.requiredNames, KitPy.requiredNames, mem_requiredBranches _ allOf, mem_unionNames, List.mem_append,
        or_assoc]

theorem mem_requiredBranches {name : String} (names : List String) :
    ∀ branches : List Schema, name ∈ KitRs.requiredBranches names branches ↔
      name ∈ names ∨ ∃ branch ∈ branches, name ∈ KitPy.requiredNames branch
  | [] => by simp [KitRs.requiredBranches]
  | branch :: rest => by
      rw [KitRs.requiredBranches, mem_requiredBranches _ rest, mem_requiredNames names branch, or_assoc]
      simp only [List.mem_cons, exists_eq_or_imp]

end

theorem members_eq (schema : Schema) (values : List (String × JsonValue)) :
    KitRs.members schema values = KitPy.members schema values := by
  funext name
  have hrequired : name ∈ KitRs.requiredNames [] schema ↔ name ∈ KitPy.requiredNames schema := by
    rw [mem_requiredNames]
    simp
  unfold KitRs.members KitPy.members
  simp only [mergedProperties_eq, schemaType_eq, hrequired]
  unfold KitRs.propertySchema KitPy.propertySchema
  cases (values.filter fun value => decide (value.1 = name)).map Prod.snd with
  | cons first rest => rfl
  | nil =>
      dsimp only
      cases (KitPy.mergedProperties schema).lookup name with
      | some member => simp only [nullable_eq, Option.getD_some]
      | none =>
          have hnullable : KitPy.nullable Schema.empty = false := by
            rw [Schema.empty, KitPy.nullable, KitPy.anyNullable]
            rfl
          have htype : KitPy.schemaType Schema.empty = none := by
            rw [Schema.empty, KitPy.schemaType, KitPy.branchType]
            rfl
          simp [hnullable, htype]

/-! ### Texts -/

/-- A text as it is in the document, and with its line ends normalized. -/
inductive SameLines : List Char → List Char → Prop
  | nil : SameLines [] []
  | keep (c : Char) {raw text : List Char} (h : SameLines raw text) : SameLines (c :: raw) (c :: text)
  | carriage {raw text : List Char} (h : SameLines raw text) : SameLines ('\r' :: raw) ('\n' :: text)
  | both {raw text : List Char} (h : SameLines raw text) : SameLines ('\r' :: '\n' :: raw) ('\n' :: text)

namespace SameLines

theorem append {raw text raw' text' : List Char} (h : SameLines raw text) (h' : SameLines raw' text') :
    SameLines (raw ++ raw') (text ++ text') := by
  induction h with
  | nil => exact h'
  | keep c _ ih => exact .keep c ih
  | carriage _ ih => exact .carriage ih
  | both _ ih => exact .both ih

theorem normalizeLineEnds (raw : List Char) : SameLines raw (Xml.normalizeLineEnds raw) := by
  fun_induction Xml.normalizeLineEnds raw with
  | case1 => exact .nil
  | case2 rest ih => exact .both ih
  | case3 c rest _ ih =>
      split_ifs with hreturn
      · rw [hreturn]
        exact .carriage ih
      · exact .keep c ih

theorem of_pieces (pieces : List Piece) : SameLines (KitRs.text pieces) (KitPy.text pieces) := by
  induction pieces with
  | nil => exact .nil
  | cons piece pieces ih =>
      unfold KitRs.text KitPy.text at ih ⊢
      rw [List.flatMap_cons, List.flatMap_cons]
      refine SameLines.append ?_ ih
      cases piece with
      | characters raw => exact .normalizeLineEnds raw
      | reference c => exact .keep c .nil
      | markup => exact .nil

theorem spaces {before rest raw : List Char} (hbefore : ∀ c ∈ before, Xml.isSpace c = true)
    (h : SameLines raw (before ++ rest)) : ∃ before' rest', raw = before' ++ rest' ∧
      (∀ c ∈ before', Xml.isSpace c = true) ∧ SameLines rest' rest := by
  induction before generalizing raw with
  | nil => exact ⟨[], raw, rfl, nofun, h⟩
  | cons c before ih =>
      obtain ⟨hc, hlater⟩ := List.forall_mem_cons.mp hbefore
      cases h with
      | keep _ h =>
          obtain ⟨before', rest', rfl, hspaces, hrest⟩ := ih hlater h
          exact ⟨c :: before', rest', rfl, List.forall_mem_cons.mpr ⟨hc, hspaces⟩, hrest⟩
      | carriage h =>
          obtain ⟨before', rest', rfl, hspaces, hrest⟩ := ih hlater h
          exact ⟨'\r' :: before', rest', rfl, List.forall_mem_cons.mpr ⟨by decide, hspaces⟩, hrest⟩
      | both h =>
          obtain ⟨before', rest', rfl, hspaces, hrest⟩ := ih hlater h
          exact ⟨'\r' :: '\n' :: before', rest', rfl,
            List.forall_mem_cons.mpr ⟨by decide, List.forall_mem_cons.mpr ⟨by decide, hspaces⟩⟩, hrest⟩

theorem core {core rest raw : List Char} (hcore : '\n' ∉ core) (h : SameLines raw (core ++ rest)) :
    ∃ rest', raw = core ++ rest' ∧ SameLines rest' rest := by
  induction core generalizing raw with
  | nil => exact ⟨raw, rfl, h⟩
  | cons c core ih =>
      rw [List.mem_cons, not_or] at hcore
      cases h with
      | keep _ h =>
          obtain ⟨rest', rfl, hrest⟩ := ih hcore.2 h
          exact ⟨rest', rfl, hrest⟩
      | carriage h => exact absurd rfl hcore.1
      | both h => exact absurd rfl hcore.1

theorem spells {n : Numeral} {raw text : List Char} (h : SameLines raw text) (hspells : Spells n text) :
    Spells n raw := by
  obtain ⟨before, after, rfl, hbefore, hafter⟩ := hspells
  have hfeed : '\n' ∉ n.text := fun hmem => by
    have := n.not_space (p := (· = '\n')) (fun c hc => ?_) hmem
    · exact absurd this (by decide)
    · rcases hc with hdigit | hother
      · exact decide_eq_false fun heq => absurd (heq ▸ hdigit) (by decide)
      · simp only [List.mem_cons, List.not_mem_nil, or_false] at hother
        rcases hother with rfl | rfl | rfl <;> decide
  rw [List.append_assoc] at h
  obtain ⟨before', rest, rfl, hbefore', h⟩ := h.spaces hbefore
  obtain ⟨rest', rfl, h⟩ := h.core hfeed
  obtain ⟨after', last, rfl, hafter', h⟩ := (show SameLines rest' (after ++ []) by rwa [List.append_nil]).spaces hafter
  cases h
  exact ⟨before', after', by simp, hbefore', hafter'⟩

end SameLines

/-- A part of the text has a carriage return that is no reference. -/
def HasReturn (pieces : List Piece) : Prop := ∃ raw, Piece.characters raw ∈ pieces ∧ '\r' ∈ raw

theorem count_return (pieces : List Piece) : HasReturn pieces ∧
    (KitPy.text pieces).count '\r' < (KitRs.text pieces).count '\r' ∨
    ¬ HasReturn pieces ∧ KitPy.text pieces = KitRs.text pieces := by
  induction pieces with
  | nil => exact .inr ⟨nofun, rfl⟩
  | cons piece pieces ih =>
      have hcons : HasReturn (piece :: pieces) ↔ (∃ raw, piece = .characters raw ∧ '\r' ∈ raw) ∨
        HasReturn pieces := by
        unfold HasReturn
        simp only [List.mem_cons, or_and_right, exists_or]
        exact or_congr_left (exists_congr fun raw => and_congr_left fun _ => eq_comm)
      have hle : (KitPy.text pieces).count '\r' ≤ (KitRs.text pieces).count '\r' := by
        rcases ih with ⟨-, hlt⟩ | ⟨-, heq⟩
        · exact Nat.le_of_lt hlt
        · rw [heq]
      rw [hcons]
      unfold KitPy.text KitRs.text at ih hle ⊢
      simp only [List.flatMap_cons, List.count_append]
      cases piece with
      | characters raw =>
          by_cases hreturn : '\r' ∈ raw
          · refine .inl ⟨.inl ⟨raw, rfl, hreturn⟩, ?_⟩
            have hnone := List.count_eq_zero.mpr (Xml.return_notMem_normalizeLineEnds raw)
            have hsome := List.count_pos_iff.mpr hreturn
            dsimp only
            omega
          · have hsame := Xml.normalizeLineEnds_eq_self_iff.mpr hreturn
            simp only [hsame]
            rcases ih with ⟨hhas, hlt⟩ | ⟨hnot, heq⟩
            · exact .inl ⟨.inr hhas, by omega⟩
            · refine .inr ⟨?_, by rw [heq]⟩
              rintro (⟨raw', h, hmem⟩ | h)
              · obtain rfl := Piece.characters.inj h
                exact hreturn hmem
              · exact hnot h
      | reference c =>
          rcases ih with ⟨hhas, hlt⟩ | ⟨hnot, heq⟩
          · exact .inl ⟨.inr hhas, by dsimp only; omega⟩
          · refine .inr ⟨?_, by rw [heq]⟩
            rintro (⟨raw', h, -⟩ | h)
            · cases h
            · exact hnot h
      | markup =>
          rcases ih with ⟨hhas, hlt⟩ | ⟨hnot, heq⟩
          · exact .inl ⟨.inr hhas, by dsimp only; omega⟩
          · refine .inr ⟨?_, by rw [heq]⟩
            rintro (⟨raw', h, -⟩ | h)
            · cases h
            · exact hnot h

theorem text_eq_iff (pieces : List Piece) : KitPy.text pieces = KitRs.text pieces ↔ ¬ HasReturn pieces := by
  rcases count_return pieces with ⟨hhas, hlt⟩ | ⟨hnot, heq⟩
  · exact iff_of_false (fun h => absurd hlt (by rw [h]; exact Nat.lt_irrefl _)) (not_not.mpr hhas)
  · exact iff_of_true heq hnot

/-! ### Leaves -/

/-- The text of a leaf that the XSD accepts, by the type that the schema gives it. -/
def Lexical (kind : Option Kind) (pieces : List Piece) : Prop :=
  match kind with
  | some .integer => ∃ n : Numeral, n.fraction = none ∧ Spells n (KitPy.text pieces)
  | some .number => ∃ n : Numeral, Spells n (KitPy.text pieces)
  | some .boolean => ∃ before word after, KitPy.text pieces = before ++ word ++ after ∧
      (∀ c ∈ before, Xml.isSpace c = true) ∧ (∀ c ∈ after, Xml.isSpace c = true) ∧
      word ∈ ["true".toList, "false".toList, "1".toList, "0".toList]
  | _ => True

/-- Of the digits and the point in a text, the first is zero and the second a digit. -/
def leadingZero (text : List Char) : Bool :=
  match text.filter fun c => c.isDigit || c = '.' with
  | '0' :: c :: _ => c.isDigit
  | _ => false

/-- An integer has at most the digits that `int` takes, a number no zero before other digits, and any other text no
carriage return that is no reference. -/
def SpelledAlike (kind : Option Kind) (pieces : List Piece) : Prop :=
  match kind with
  | some .integer => (KitPy.text pieces).countP Char.isDigit ≤ 4300
  | some .number => leadingZero (KitPy.text pieces) = false
  | _ => ¬ HasReturn pieces

section Leaves

variable {n : Numeral} {text : List Char} {pieces : List Piece}

theorem filter_spells (h : Spells n text) : (text.filter fun c => c.isDigit || c = '.') = n.unsigned := by
  obtain ⟨before, after, rfl, hbefore, hafter⟩ := h
  have hspace : ∀ c, Xml.isSpace c = true → (c.isDigit || decide (c = '.')) = false := by
    intro c hc
    unfold Xml.isSpace at hc
    simp only [Bool.or_eq_true, decide_eq_true_eq] at hc
    rcases hc with ((rfl | rfl) | rfl) | rfl <;> decide
  have hnone : ∀ spaces : List Char, (∀ c ∈ spaces, Xml.isSpace c = true) →
      (spaces.filter fun c => c.isDigit || c = '.') = [] := fun spaces h =>
    List.filter_eq_nil_iff.mpr fun c hc => Bool.eq_false_iff.mp (hspace c (h c hc))
  have hsign : (n.sign.filter fun c => c.isDigit || c = '.') = [] := by
    have hsigned := n.signed
    simp only [List.mem_cons, List.not_mem_nil, or_false] at hsigned
    rcases hsigned with h | h | h <;> rw [h] <;> rfl
  have hunsigned : (n.unsigned.filter fun c => c.isDigit || c = '.') = n.unsigned :=
    List.filter_eq_self.mpr fun c hc => by simpa using n.mem_unsigned hc
  unfold Numeral.text
  rw [List.filter_append, List.filter_append, List.filter_append, hnone before hbefore, hnone after hafter, hsign,
    hunsigned, List.append_nil, List.nil_append, List.nil_append]

theorem leadingZero_spells (h : Spells n text) : leadingZero text = true ↔ n.LeadingZero := by
  unfold leadingZero
  rw [filter_spells h]
  obtain ⟨sign, whole, fraction, hsigned, hwhole, hfraction, hsome⟩ := n
  unfold Numeral.unsigned Numeral.LeadingZero
  dsimp only at hwhole ⊢
  cases whole with
  | nil =>
      cases fraction with
      | none => simp
      | some digits => simp
  | cons c rest =>
      cases rest with
      | nil =>
          refine iff_of_false ?_ (by simp)
          cases fraction with
          | none => simp
          | some digits =>
              simp only [Option.elim_some, List.cons_append, List.nil_append]
              split
              · rename_i heq
                obtain ⟨-, hpoint⟩ := List.cons.inj heq
                obtain ⟨rfl, -⟩ := List.cons.inj hpoint
                decide
              · exact Bool.false_ne_true
      | cons d rest =>
          simp only [List.cons_append, List.head?_cons, Option.some.injEq, List.length_cons]
          constructor
          · intro h
            split at h
            · rename_i heq
              exact ⟨(List.cons.inj heq).1, by omega⟩
            · cases h
          · rintro ⟨rfl, -⟩
            exact hwhole d (List.mem_cons_of_mem _ List.mem_cons_self)

theorem countP_spells (h : Spells n text) (hfraction : n.fraction = none) :
    text.countP Char.isDigit = n.whole.length := by
  have hunsigned := n.unsigned_whole hfraction
  have hfilter := congrArg (List.countP Char.isDigit) (filter_spells h)
  rw [List.countP_filter, hunsigned, List.countP_eq_length.mpr n.wholeDigits] at hfilter
  rw [← hfilter]
  refine List.countP_congr fun c _ => ?_
  cases c.isDigit <;> simp

theorem KitPy.leaf_text {kind : Option Kind} (hkind : kind ≠ some .integer ∧ kind ≠ some .number)
    (text : List Char) :
    KitPy.leaf kind text = .string text ∨ ∃ flag, KitPy.leaf kind text = .bool flag := by
  unfold KitPy.leaf
  split
  · exact absurd rfl hkind.1
  · exact absurd rfl hkind.2
  · split_ifs
    · exact .inr ⟨_, rfl⟩
    · exact .inr ⟨_, rfl⟩
    · exact .inl rfl
  · exact .inl rfl

theorem leaf_same {kind : Option Kind} (hkind : kind ≠ some .integer ∧ kind ≠ some .number) (text : List Char) :
    KitRs.leaf kind text = KitPy.leaf kind text := by
  unfold KitRs.leaf KitPy.leaf
  split
  · exact absurd rfl hkind.1
  · exact absurd rfl hkind.2
  · simp
  · rfl

theorem leaf_return {kind : Option Kind} (hkind : kind ≠ some .integer ∧ kind ≠ some .number) (h : '\r' ∈ text) :
    KitRs.leaf kind text = .string text := by
  have hword : ∀ word ∈ ["true".toList, "1".toList, "false".toList, "0".toList], text ≠ word := by
    intro word hword heq
    have hplain := (by decide : ∀ word ∈ ["true".toList, "1".toList, "false".toList, "0".toList],
      '\r' ∉ word) word hword
    exact hplain (heq ▸ h)
  unfold KitRs.leaf
  split
  · exact absurd rfl hkind.1
  · exact absurd rfl hkind.2
  · rw [if_neg (not_or.mpr ⟨hword _ (by simp), hword _ (by simp)⟩),
      if_neg (not_or.mpr ⟨hword _ (by simp), hword _ (by simp)⟩)]
  · rfl

theorem leaf_eq_iff (kind : Option Kind) (h : Lexical kind pieces) :
    KitPy.leaf kind (KitPy.text pieces) = KitRs.leaf kind (KitRs.text pieces) ↔ SpelledAlike kind pieces := by
  by_cases hinteger : kind = some .integer
  · subst hinteger
    obtain ⟨n, hfraction, hspells⟩ := h
    unfold SpelledAlike KitPy.leaf KitRs.leaf
    dsimp only
    rw [KitPy.int_spells hspells hfraction, countP_spells hspells hfraction,
      KitRs.exactNumber_integer ((SameLines.of_pieces pieces).spells hspells) hfraction]
    by_cases hlength : n.whole.length ≤ 4300
    · rw [if_pos hlength]
      exact iff_of_true rfl hlength
    · rw [if_neg hlength]
      exact iff_of_false nofun hlength
  by_cases hnumber : kind = some .number
  · subst hnumber
    obtain ⟨n, hspells⟩ := h
    unfold SpelledAlike KitPy.leaf KitRs.leaf
    dsimp only
    rw [KitPy.decimal_spells hspells, KitRs.exactNumber_number ((SameLines.of_pieces pieces).spells hspells),
      ← Bool.not_eq_true, leadingZero_spells hspells]
    by_cases hzero : n.LeadingZero
    · rw [if_pos hzero]
      exact iff_of_false nofun (not_not.mpr hzero)
    · rw [if_neg hzero]
      exact iff_of_true rfl hzero
  have hkind : kind ≠ some .integer ∧ kind ≠ some .number := ⟨hinteger, hnumber⟩
  have hspelled : SpelledAlike kind pieces ↔ ¬ HasReturn pieces := by
    unfold SpelledAlike
    split
    · exact absurd rfl hinteger
    · exact absurd rfl hnumber
    · exact Iff.rfl
  rw [hspelled, ← text_eq_iff]
  constructor
  · intro heq
    by_contra hne
    obtain ⟨raw, hpiece, hreturn⟩ := not_not.mp ((text_eq_iff pieces).not.mp hne)
    have hmem : '\r' ∈ KitRs.text pieces := List.mem_flatMap.mpr ⟨_, hpiece, hreturn⟩
    rw [leaf_return hkind hmem] at heq
    rcases KitPy.leaf_text hkind (KitPy.text pieces) with hstring | ⟨flag, hbool⟩
    · exact hne (JsonValue.string.inj (hstring.symm.trans heq))
    · exact absurd (hbool.symm.trans heq) nofun
  · intro heq
    rw [leaf_same hkind, heq]

theorem leaf_numbers {kind : Option Kind} (h : Lexical kind pieces) (hspelled : SpelledAlike kind pieces)
    (hkind : kind = some .integer ∨ kind = some .number) :
      (∃ value, KitPy.leaf kind (KitPy.text pieces) = .number value) ∧
      ∃ value, KitRs.leaf kind (KitRs.text pieces) = .number value := by
  rw [← (leaf_eq_iff kind h).mpr hspelled, and_self_iff]
  rcases hkind with rfl | rfl
  · obtain ⟨n, hfraction, hspells⟩ := h
    unfold SpelledAlike at hspelled
    dsimp only at hspelled
    rw [countP_spells hspells hfraction] at hspelled
    unfold KitPy.leaf
    dsimp only
    rw [KitPy.int_spells hspells hfraction, if_pos hspelled]
    exact ⟨_, rfl⟩
  · obtain ⟨n, hspells⟩ := h
    unfold KitPy.leaf
    dsimp only
    rw [KitPy.decimal_spells hspells]
    exact ⟨_, rfl⟩

end Leaves

/-! ### Elements -/

mutual

/-- What is so of every element that is read: of its `xsi:nil`, and of its type and text if it is a leaf. -/
def Everywhere (N : Option (List Piece) → Prop) (P : Option Kind → List Piece → Prop) : Element → Schema → Prop
  | ⟨_, nil, pieces, children⟩, schema =>
    N nil ∧ (KitPy.isNil nil = false →
      if KitPy.schemaType schema = some .object ∨ children ≠ [] then
        EverywhereWithin N P (KitPy.mergedProperties schema) [] children
      else P (KitPy.schemaType schema) pieces)

def EverywhereWithin (N : Option (List Piece) → Prop) (P : Option Kind → List Piece → Prop)
    (properties : List (String × Schema)) (seen : List String) : List Element → Prop
  | [] => True
  | child :: rest =>
    let childSchema := KitPy.propertySchema properties child.name
    if KitPy.schemaType childSchema = some .array then
      Everywhere N P child (childSchema.items.getD .empty) ∧ EverywhereWithin N P properties seen rest
    else if child.name ∈ seen then EverywhereWithin N P properties seen rest
    else Everywhere N P child childSchema ∧ EverywhereWithin N P properties (child.name :: seen) rest

end

mutual

theorem Everywhere.imp {N N' : Option (List Piece) → Prop} {P Q R : Option Kind → List Piece → Prop}
    (hN : ∀ nil, N nil → N' nil) (hP : ∀ kind pieces, P kind pieces → Q kind pieces → R kind pieces) :
    ∀ (element : Element) (schema : Schema), Everywhere (fun _ => True) P element schema →
      Everywhere N Q element schema →
      Everywhere N' R element schema
  | ⟨_, nil, pieces, children⟩, schema, h, h' => by
      rw [Everywhere] at h h' ⊢
      refine ⟨hN nil h'.1, fun hnil => ?_⟩
      have hbody := h.2 hnil
      have hbody' := h'.2 hnil
      split_ifs at hbody hbody' ⊢
      · exact EverywhereWithin.imp hN hP _ _ children hbody hbody'
      · exact hP _ _ hbody hbody'

theorem EverywhereWithin.imp {N N' : Option (List Piece) → Prop} {P Q R : Option Kind → List Piece → Prop}
    (hN : ∀ nil, N nil → N' nil) (hP : ∀ kind pieces, P kind pieces → Q kind pieces → R kind pieces)
    (properties : List (String × Schema)) (seen : List String) : ∀ children : List Element,
      EverywhereWithin (fun _ => True) P properties seen children → EverywhereWithin N Q properties seen children →
        EverywhereWithin N' R properties seen children
  | [], _, _ => by rw [EverywhereWithin]; trivial
  | child :: rest, h, h' => by
      rw [EverywhereWithin] at h h' ⊢
      split_ifs at h h' ⊢
      · exact ⟨Everywhere.imp hN hP child _ h.1 h'.1, EverywhereWithin.imp hN hP properties seen rest h.2 h'.2⟩
      · exact EverywhereWithin.imp hN hP properties seen rest h h'
      · exact ⟨Everywhere.imp hN hP child _ h.1 h'.1, EverywhereWithin.imp hN hP properties _ rest h.2 h'.2⟩

end

theorem isNil_of_rs {nil : Option (List Piece)} (h : KitRs.isNil nil = true) : KitPy.isNil nil = true := by
  cases nil with
  | none => cases h
  | some value =>
      simp only [KitRs.isNil, Option.any_some, Bool.and_eq_true, decide_eq_true_eq] at h
      have hreturn : ¬ HasReturn value := by
        rintro ⟨raw, hpiece, hreturn⟩
        have hmem : '\r' ∈ KitRs.text value := List.mem_flatMap.mpr ⟨_, hpiece, hreturn⟩
        exact (by decide : ∀ word ∈ ["true".toList, "1".toList], '\r' ∉ word) _ h.2 hmem
      simp only [KitPy.isNil, Option.any_some, decide_eq_true_eq]
      rw [(text_eq_iff value).mpr hreturn]
      exact h.2

/-- An `xsi:nil` that is true is written without a reference. -/
def NilAlike (nil : Option (List Piece)) : Prop := KitPy.isNil nil = true → KitRs.isNil nil = true

/-! ### Objects -/

theorem eq_of_filters {values values' : List (String × JsonValue)}
    (hnames : values.map Prod.fst = values'.map Prod.fst)
    (h : ∀ name, (values.filter (·.1 = name)).map Prod.snd = (values'.filter (·.1 = name)).map Prod.snd) :
    values = values' := by
  induction values generalizing values' with
  | nil => exact (List.map_eq_nil_iff.mp hnames.symm).symm
  | cons value values ih =>
      cases values' with
      | nil => cases hnames
      | cons value' values' =>
          obtain ⟨name, value⟩ := value
          obtain ⟨name', value'⟩ := value'
          obtain ⟨hname, hlater⟩ := List.cons.inj hnames
          obtain rfl : name = name' := hname
          have hself := h name
          simp only [List.filter_cons, decide_true, if_true, List.map_cons, List.cons.injEq] at hself
          obtain ⟨rfl, -⟩ := hself
          refine congrArg _ (ih hlater fun other => ?_)
          have hother := h other
          simp only [List.filter_cons] at hother
          split_ifs at hother
          · exact (List.cons.inj hother).2
          · exact hother

def Grouped (properties : List (String × Schema)) (values : List (String × JsonValue)) : Prop :=
  ∀ name, KitPy.schemaType (KitPy.propertySchema properties name) ≠ some .array →
    (values.filter (·.1 = name)).length ≤ 1

theorem members_injective {schema : Schema} {values values' : List (String × JsonValue)}
    (hgrouped : Grouped (KitPy.mergedProperties schema) values) (hgrouped' : Grouped (KitPy.mergedProperties schema) values')
    (hnames : values.map Prod.fst = values'.map Prod.fst)
    (h : KitPy.members schema values = KitPy.members schema values') : values = values' := by
  refine eq_of_filters hnames fun name => ?_
  have hname := congrFun h name
  have hlength : ((values.filter (·.1 = name)).map Prod.snd).length = ((values'.filter (·.1 = name)).map Prod.snd).length := by
    have hcount : ∀ values : List (String × JsonValue),
        ((values.filter (·.1 = name)).map Prod.snd).length = (values.map Prod.fst).count name := by
      intro values
      rw [List.length_map, ← List.countP_eq_length_filter, List.count, List.countP_map]
      exact List.countP_congr fun value _ => by simp
    rw [hcount, hcount, hnames]
  unfold KitPy.members at hname
  dsimp only at hname
  have hone := fun harray => hgrouped name harray
  have hone' := fun harray => hgrouped' name harray
  rw [← List.length_map (f := Prod.snd)] at hone hone'
  generalize (values.filter (·.1 = name)).map Prod.snd = group at hname hlength hone
  generalize (values'.filter (·.1 = name)).map Prod.snd = group' at hname hlength hone'
  cases group with
  | nil => exact (List.length_eq_zero_iff.mp hlength.symm).symm
  | cons first rest =>
      cases group' with
      | nil => cases hlength
      | cons first' rest' =>
          dsimp only at hname
          by_cases harray : KitPy.schemaType (KitPy.propertySchema (KitPy.mergedProperties schema) name) = some .array
          · rw [if_pos harray, if_pos harray] at hname
            exact JsonValue.array.inj (Option.some.inj hname)
          · rw [if_neg harray, if_neg harray] at hname
            have hrest : rest = [] := List.length_eq_zero_iff.mp (by simpa using hone harray)
            have hrest' : rest' = [] := List.length_eq_zero_iff.mp (by simpa using hone' harray)
            rw [Option.some.inj hname, hrest, hrest']

/-! ### Values -/

theorem propertySchema_eq : KitRs.propertySchema = KitPy.propertySchema := rfl

section Children

variable (properties : List (String × Schema))

theorem childValues_names (seen : List String) (children : List Element) :
    (KitPy.childValues properties seen children).map Prod.fst = (KitRs.childValues properties seen children).map Prod.fst := by
  induction children generalizing seen with
  | nil => rw [KitPy.childValues, KitRs.childValues]
  | cons child rest ih =>
      rw [KitPy.childValues, KitRs.childValues, propertySchema_eq]
      simp only [schemaType_eq]
      split_ifs
      · rw [List.map_cons, List.map_cons, ih]
      · exact ih seen
      · rw [List.map_cons, List.map_cons, ih]

theorem childValues_grouped (seen : List String) (children : List Element) :
    Grouped properties (KitPy.childValues properties seen children) ∧ ∀ name ∈ seen,
      KitPy.schemaType (KitPy.propertySchema properties name) ≠ some .array →
        (KitPy.childValues properties seen children).filter (·.1 = name) = [] := by
  induction children generalizing seen with
  | nil =>
      rw [KitPy.childValues]
      exact ⟨fun _ _ => Nat.zero_le _, fun _ _ _ => rfl⟩
  | cons child rest ih =>
      rw [KitPy.childValues]
      split_ifs with harray hseen
      · obtain ⟨hgrouped, hnone⟩ := ih seen
        have hother : ∀ name, KitPy.schemaType (KitPy.propertySchema properties name) ≠ some .array →
          child.name ≠ name := by
          rintro name hname rfl
          exact hname harray
        refine ⟨fun name hname => ?_, fun name hmem hname => ?_⟩
        · rw [List.filter_cons_of_neg (by simpa using hother name hname)]
          exact hgrouped name hname
        · rw [List.filter_cons_of_neg (by simpa using hother name hname)]
          exact hnone name hmem hname
      · exact ih seen
      · obtain ⟨hgrouped, hnone⟩ := ih (child.name :: seen)
        refine ⟨fun name hname => ?_, fun name hmem hname => ?_⟩
        · by_cases heq : child.name = name
          · rw [List.filter_cons_of_pos (by simpa using heq), hnone name (heq ▸ List.mem_cons_self) hname]
            exact Nat.le_refl 1
          · rw [List.filter_cons_of_neg (by simpa using heq)]
            exact hgrouped name hname
        · have heq : child.name ≠ name := fun heq => hseen (heq ▸ hmem)
          rw [List.filter_cons_of_neg (by simpa using heq)]
          exact hnone name (List.mem_cons_of_mem _ hmem) hname

end Children

theorem Grouped.of_names {properties : List (String × Schema)} {values values' : List (String × JsonValue)}
    (h : Grouped properties values) (hnames : values.map Prod.fst = values'.map Prod.fst) :
      Grouped properties values' := by
  intro name hname
  have hcount : ∀ values : List (String × JsonValue),
      (values.filter (·.1 = name)).length = (values.map Prod.fst).count name := by
    intro values
    rw [← List.countP_eq_length_filter, List.count, List.countP_map]
    exact List.countP_congr fun value _ => by simp
  have hone := h name hname
  rw [hcount] at hone ⊢
  rwa [← hnames]

theorem KitRs.elementToValue_ne_null {name : String} {nil : Option (List Piece)} {pieces : List Piece}
    {children : List Element} {schema : Schema} (hnil : KitRs.isNil nil = false) :
    KitRs.elementToValue ⟨name, nil, pieces, children⟩ schema ≠ .null := by
  rw [KitRs.elementToValue, if_neg (Bool.eq_false_iff.mp hnil)]
  split_ifs
  · exact nofun
  · unfold KitRs.leaf
    split
    · cases KitRs.exactNumber (KitRs.text pieces) true <;> exact nofun
    · cases KitRs.exactNumber (KitRs.text pieces) false <;> exact nofun
    · split_ifs <;> exact nofun
    · exact nofun

mutual

theorem elementToValue_eq_iff : ∀ (element : Element) (schema : Schema),
    Everywhere (fun _ => True) Lexical element schema →
      (KitPy.elementToValue element schema = KitRs.elementToValue element schema ↔
        Everywhere NilAlike SpelledAlike element schema)
  | ⟨name, nil, pieces, children⟩, schema, h => by
      rw [Everywhere] at h ⊢
      cases hnil : KitPy.isNil nil with
      | true =>
          rw [KitPy.elementToValue, if_pos hnil]
          cases hnil' : KitRs.isNil nil with
          | true =>
              rw [KitRs.elementToValue, if_pos hnil']
              exact iff_of_true rfl ⟨fun _ => hnil', nofun⟩
          | false =>
              refine iff_of_false (Ne.symm (KitRs.elementToValue_ne_null hnil')) fun hspelled => ?_
              have := hspelled.1 hnil
              rw [hnil'] at this
              cases this
      | false =>
          have hnil' : KitRs.isNil nil = false := by
            rw [Bool.eq_false_iff]
            intro htrue
            rw [isNil_of_rs htrue] at hnil
            cases hnil
          have hbody := h.2 hnil
          have halike : NilAlike nil := fun htrue => by
            rw [hnil] at htrue
            cases htrue
          rw [KitPy.elementToValue, KitRs.elementToValue, if_neg (Bool.eq_false_iff.mp hnil),
            if_neg (Bool.eq_false_iff.mp hnil'), schemaType_eq, members_eq, mergedProperties_eq,
              and_iff_right halike,
            forall_prop_of_true rfl]
          by_cases hobject : KitPy.schemaType schema = some .object ∨ children ≠ []
          · rw [if_pos hobject] at hbody
            rw [if_pos hobject, if_pos hobject, if_pos hobject,
              ← childValues_eq_iff (KitPy.mergedProperties schema) [] children hbody]
            have hnames := childValues_names (KitPy.mergedProperties schema) [] children
            have hgrouped := (childValues_grouped (KitPy.mergedProperties schema) [] children).1
            refine ⟨fun heq => ?_, fun heq => by rw [heq]⟩
            exact members_injective hgrouped (hgrouped.of_names hnames) hnames (JsonValue.object.inj heq)
          · rw [if_neg hobject] at hbody
            rw [if_neg hobject, if_neg hobject, if_neg hobject]
            exact leaf_eq_iff _ hbody

theorem childValues_eq_iff (properties : List (String × Schema)) (seen : List String) : ∀ children : List Element,
    EverywhereWithin (fun _ => True) Lexical properties seen children →
      (KitPy.childValues properties seen children = KitRs.childValues properties seen children ↔
        EverywhereWithin NilAlike SpelledAlike properties seen children)
  | [], _ => by
      rw [KitPy.childValues, KitRs.childValues, EverywhereWithin]
      exact iff_of_true rfl trivial
  | child :: rest, h => by
      rw [EverywhereWithin] at h ⊢
      rw [KitPy.childValues, KitRs.childValues, propertySchema_eq]
      simp only [schemaType_eq]
      split_ifs at h ⊢ with harray hseen
      · rw [List.cons.injEq, Prod.mk.injEq, and_iff_right rfl, elementToValue_eq_iff child _ h.1,
          childValues_eq_iff properties seen rest h.2]
      · exact childValues_eq_iff properties seen rest h
      · rw [List.cons.injEq, Prod.mk.injEq, and_iff_right rfl, elementToValue_eq_iff child _ h.1,
          childValues_eq_iff properties _ rest h.2]

end

/-- Both kits read a leaf with the type of a number as a number. -/
def NumbersRead (kind : Option Kind) (pieces : List Piece) : Prop :=
  kind = some .integer ∨ kind = some .number → (∃ value, KitPy.leaf kind (KitPy.text pieces) = .number value) ∧
    ∃ value, KitRs.leaf kind (KitRs.text pieces) = .number value

/-- **XML bodies.** Of an element tree with the texts that the XSD accepts, both kits make one value, with
numbers as numbers, exactly when each `xsi:nil` that is true is written without a reference, each integer that
is read has at most 4300 digits, each number no zero before other digits, and each other text no carriage
return but by reference. -/
theorem bodies_agree_iff (element : Element) (schema : Schema)
    (hvalid : Everywhere (fun _ => True) Lexical element schema) :
    (KitPy.elementToValue element schema = KitRs.elementToValue element schema ∧
        Everywhere (fun _ => True) NumbersRead element schema) ↔
          Everywhere NilAlike SpelledAlike element schema := by
  rw [elementToValue_eq_iff element schema hvalid]
  refine and_iff_left_of_imp fun hspelled => ?_
  exact Everywhere.imp (fun _ _ => trivial) (fun _ _ => leaf_numbers) element schema hvalid hspelled

/-! ### A price -/

def priceSchema : Schema :=
  ⟨.one .object, [("price", ⟨.one .number, [], none, [], [], [], []⟩), ("note", ⟨.one .string, [], none, [], [], [], []⟩)],
    none, ["price"], [], [], []⟩

/-- `<offer><price>…</price><note>…</note></offer>`. -/
def offer (price note : List Char) : Element :=
  ⟨"offer", none, [], [⟨"price", none, [.characters price], []⟩, ⟨"note", none, [.characters note], []⟩]⟩

theorem offer_everywhere {N : Option (List Piece) → Prop} {P : Option Kind → List Piece → Prop}
    {price note : List Char} :
    Everywhere N P (offer price note) priceSchema ↔
      N none ∧ P (some .number) [.characters price] ∧ P (some .string) [.characters note] := by
  have htype : ∀ kind, KitPy.schemaType ⟨.one kind, [], none, [], [], [], []⟩ = some kind := fun kind => by
    rw [KitPy.schemaType]
  have hobject : KitPy.schemaType priceSchema = some .object := by rw [priceSchema, KitPy.schemaType]
  have hmerged : KitPy.mergedProperties priceSchema = [("price", ⟨.one .number, [], none, [], [], [], []⟩),
      ("note", ⟨.one .string, [], none, [], [], [], []⟩)] := by
    rw [priceSchema, KitPy.mergedProperties, KitPy.updateBranches, KitPy.updateBranches, KitPy.updateBranches]
  have hprice : KitPy.propertySchema (KitPy.mergedProperties priceSchema) "price" =
      ⟨.one .number, [], none, [], [], [], []⟩ := by
    rw [hmerged]
    rfl
  have hnote : KitPy.propertySchema (KitPy.mergedProperties priceSchema) "note" =
      ⟨.one .string, [], none, [], [], [], []⟩ := by
    rw [hmerged]
    rfl
  have hnil : KitPy.isNil none = false := rfl
  simp only [offer, Everywhere, EverywhereWithin, Element.name, hobject, hprice, hnote, htype, hnil,
    true_or, if_true,
    forall_const, List.not_mem_nil, if_false, List.mem_singleton, and_true, reduceCtorEq, ne_eq,
      not_true, or_false,
    (by decide : ¬ "note" = "price"), Option.some.injEq]
  constructor
  · rintro ⟨hN, ⟨-, hP⟩, -, hQ⟩
    exact ⟨hN, hP, hQ⟩
  · rintro ⟨hN, hP, hQ⟩
    exact ⟨hN, ⟨hN, hP⟩, hN, hQ⟩

theorem offer_lexical (whole fraction note : List Char) (hwhole : ∀ c ∈ whole, c.isDigit = true)
    (hfraction : ∀ c ∈ fraction, c.isDigit = true) (hne : whole ≠ []) :
    Everywhere (fun _ => True) Lexical (offer (whole ++ '.' :: fraction) note) priceSchema := by
  refine offer_everywhere.mpr ⟨trivial, ⟨⟨[], whole, some fraction, by simp, hwhole, ?_, .inl hne⟩, [], [], ?_, nofun, nofun⟩,
    trivial⟩
  · intro digits hdigits
    obtain rfl := Option.some.inj hdigits
    exact hfraction
  · have hreturn : '\r' ∉ whole ++ '.' :: fraction := by
      rw [List.mem_append, List.mem_cons]
      rintro (h | h | h)
      · exact absurd (hwhole _ h) (by decide)
      · exact absurd h (by decide)
      · exact absurd (hfraction _ h) (by decide)
    have htext : KitPy.text [.characters (whole ++ '.' :: fraction)] = whole ++ '.' :: fraction := by
      unfold KitPy.text
      rw [List.flatMap_singleton]
      exact Xml.normalizeLineEnds_eq_self_iff.mpr hreturn
    rw [htext, List.nil_append, List.append_nil]
    rfl

/-- The body of a price of 7.5 is one value to both kits. -/
theorem offer_agrees :
    KitPy.elementToValue (offer "7.5".toList "new".toList) priceSchema =
        KitRs.elementToValue (offer "7.5".toList "new".toList) priceSchema ∧
      Everywhere (fun _ => True) NumbersRead (offer "7.5".toList "new".toList) priceSchema := by
  refine (bodies_agree_iff _ _ (offer_lexical ['7'] ['5'] "new".toList (by simp) (by simp) (by decide))).mpr ?_
  refine offer_everywhere.mpr ⟨nofun, (by decide : leadingZero (KitPy.text [.characters ['7', '.', '5']]) = false), ?_⟩
  rintro ⟨raw, hmem, hreturn⟩
  obtain rfl := Piece.characters.inj (List.mem_singleton.mp hmem)
  exact absurd hreturn (by decide)

/-- A price with zeros before its digits is left a string by kit-rs; a carriage return is a line feed to
kit-py alone. -/
theorem offers_apart :
    KitPy.elementToValue (offer "007.5".toList "new".toList) priceSchema ≠
      KitRs.elementToValue (offer "007.5".toList "new".toList) priceSchema ∧
    KitRs.leaf (some .number) "007.5".toList = .string "007.5".toList ∧
    KitPy.elementToValue (offer "7.5".toList "a\r\nb".toList) priceSchema ≠
      KitRs.elementToValue (offer "7.5".toList "a\r\nb".toList) priceSchema := by
  refine ⟨?_, ?_, ?_⟩
  · have hvalid := offer_lexical ['0', '0', '7'] ['5'] "new".toList (by simp) (by simp) (by decide)
    refine (elementToValue_eq_iff _ _ hvalid).not.mpr ?_
    rw [offer_everywhere]
    rintro ⟨-, hprice, -⟩
    exact absurd hprice (by decide : leadingZero (KitPy.text [.characters ['0', '0', '7', '.', '5']]) ≠ false)
  · have hspells : Spells ⟨[], ['0', '0', '7'], some ['5'], by simp, by simp, by simp, .inl nofun⟩
        "007.5".toList := ⟨[], [], by decide, nofun, nofun⟩
    unfold KitRs.leaf
    dsimp only
    rw [KitRs.exactNumber_number hspells, if_pos ⟨rfl, by decide⟩]
    rfl
  · have hvalid := offer_lexical ['7'] ['5'] "a\r\nb".toList (by simp) (by simp) (by decide)
    refine (elementToValue_eq_iff _ _ hvalid).not.mpr ?_
    rw [offer_everywhere]
    rintro ⟨-, -, hnote⟩
    exact hnote ⟨_, List.mem_singleton_self _, by decide⟩

end RetailSegmentation.XmlBodies
