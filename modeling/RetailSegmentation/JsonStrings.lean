import RetailSegmentation.TextCodes

/-! JSON strings as `json.dumps` writes them: every character beyond printable ASCII as an escape of its
UTF-16 units. -/

namespace JsonStrings

open TextCodes

def units (c : Char) : List ℕ :=
  if c.toNat < 0x10000 then [c.toNat]
  else [0xd800 + (c.toNat - 0x10000) / 1024, 0xdc00 + (c.toNat - 0x10000) % 1024]

/-- The letter that a unit has an escape of its own with. -/
def shortEscape : ℕ → Option Char
  | 8 => some 'b'
  | 9 => some 't'
  | 10 => some 'n'
  | 12 => some 'f'
  | 13 => some 'r'
  | 34 => some '"'
  | 92 => some '\\'
  | _ => none

def escapeUnit (u : ℕ) : List Char :=
  match shortEscape u with
  | some letter => ['\\', letter]
  | none => if 32 ≤ u ∧ u ≤ 126 then [Char.ofNat u] else '\\' :: 'u' :: padText 16 4 u

/-- `json.dumps` of a string. -/
def jsonString (text : String) : List Char :=
  '"' :: ((text.toList.flatMap units).flatMap escapeUnit ++ ['"'])

/-! ### Units -/

theorem char_bounds (c : Char) : c.toNat < 0x110000 ∧ (c.toNat < 0xd800 ∨ 0xe000 ≤ c.toNat) := by
  have hvalid := c.valid
  unfold UInt32.isValidChar Nat.isValidChar at hvalid
  have heq : c.val.toNat = c.toNat := rfl
  omega

theorem units_lt {c : Char} {u : ℕ} (hu : u ∈ units c) : u < 16 ^ 4 := by
  have hbounds := char_bounds c
  unfold units at hu
  split_ifs at hu
  · rw [List.mem_singleton.mp hu]
    omega
  · simp only [List.mem_cons, List.not_mem_nil, or_false] at hu
    omega

theorem selfDelimiting_units : SelfDelimiting (fun _ => True) units := by
  intro a b s t _ _ h
  have ha := char_bounds a
  have hb := char_bounds b
  have hchar : a.toNat = b.toNat → a = b := Char.toNat_inj.mp
  unfold units at h
  split_ifs at h
  · obtain ⟨hunit, hrest⟩ := List.cons.inj h
    exact ⟨hchar hunit, hrest⟩
  -- a first unit of two is not a character
  · have := (List.cons.inj h).1
    omega
  · have := (List.cons.inj h).1
    omega
  · obtain ⟨hfirst, hrest⟩ := List.cons.inj h
    obtain ⟨hsecond, hrest⟩ := List.cons.inj hrest
    exact ⟨hchar (by omega), hrest⟩

/-! ### Escapes -/

theorem shortEscape_injective {u v : ℕ} {letter : Char} (hu : shortEscape u = some letter)
    (hv : shortEscape v = some letter) : u = v := by
  unfold shortEscape at hu hv
  split at hu <;> split at hv <;> cases hu
  all_goals first | rfl | exact absurd hv (by decide)

theorem shortEscape_ne_u {u : ℕ} : shortEscape u ≠ some 'u' := by
  unfold shortEscape
  split <;> simp

theorem ofNat_toNat_of_printable {u : ℕ} (hu : 32 ≤ u ∧ u ≤ 126) : (Char.ofNat u).toNat = u := by
  have hvalid : u.isValidChar := .inl (by omega)
  rw [Char.ofNat, dif_pos hvalid]
  rfl

theorem ofNat_ne_of_printable {u : ℕ} (hu : 32 ≤ u ∧ u ≤ 126) (hshort : shortEscape u = none) :
    Char.ofNat u ≠ '\\' ∧ Char.ofNat u ≠ '"' := by
  have hnat := ofNat_toNat_of_printable hu
  constructor
  · intro heq
    rw [heq] at hnat
    subst hnat
    cases hshort
  · intro heq
    rw [heq] at hnat
    subst hnat
    cases hshort

theorem selfDelimiting_escapeUnit : SelfDelimiting (fun u => u < 16 ^ 4) escapeUnit := by
  intro u v s t hu hv h
  unfold escapeUnit at h
  cases hshort : shortEscape u with
  | some letter =>
      rw [hshort] at h
      cases hshort' : shortEscape v with
      | some letter' =>
          rw [hshort'] at h
          obtain ⟨-, h⟩ := List.cons.inj h
          obtain ⟨rfl, hrest⟩ := List.cons.inj h
          exact ⟨shortEscape_injective hshort hshort', hrest⟩
      | none =>
          rw [hshort'] at h
          dsimp only at h
          split_ifs at h with hprintable
          · exact absurd (List.cons.inj h).1.symm (ofNat_ne_of_printable hprintable hshort').1
          · obtain ⟨-, h⟩ := List.cons.inj h
            rw [(List.cons.inj h).1] at hshort
            exact absurd hshort shortEscape_ne_u
  | none =>
      rw [hshort] at h
      dsimp only at h
      cases hshort' : shortEscape v with
      | some letter' =>
          rw [hshort'] at h
          dsimp only at h
          split_ifs at h with hprintable
          · exact absurd (List.cons.inj h).1 (ofNat_ne_of_printable hprintable hshort).1
          · obtain ⟨-, h⟩ := List.cons.inj h
            rw [← (List.cons.inj h).1] at hshort'
            exact absurd hshort' shortEscape_ne_u
      | none =>
          rw [hshort'] at h
          dsimp only at h
          split_ifs at h with hprintable hprintable' hprintable'
          · obtain ⟨hchar, hrest⟩ := List.cons.inj h
            have hnat := congrArg Char.toNat hchar
            rw [ofNat_toNat_of_printable hprintable, ofNat_toNat_of_printable hprintable'] at hnat
            exact ⟨hnat, hrest⟩
          · exact absurd (List.cons.inj h).1 (ofNat_ne_of_printable hprintable hshort).1
          · exact absurd (List.cons.inj h).1.symm (ofNat_ne_of_printable hprintable' hshort').1
          · obtain ⟨-, h⟩ := List.cons.inj h
            obtain ⟨-, h⟩ := List.cons.inj h
            exact selfDelimiting_padText (by decide) (by decide) 4 u v s t hu hv h

/-- No escape starts with the quote that ends a string. -/
theorem escapeUnit_ne_quote {u : ℕ} {s t : List Char} (h : t.head? = some '"') : escapeUnit u ++ s ≠ t := by
  rintro rfl
  unfold escapeUnit at h
  split at h
  · cases h
  · rename_i hshort
    split_ifs at h with hprintable
    · exact (ofNat_ne_of_printable hprintable hshort).2 (Option.some.inj h)
    · cases h

/-- A JSON string is told from any other, and from what follows it. -/
theorem selfDelimiting_jsonString : SelfDelimiting (fun _ => True) jsonString := by
  intro a b s t _ _ h
  have hlt : ∀ text : String, ∀ u ∈ text.toList.flatMap units, u < 16 ^ 4 := by
    intro text u hu
    obtain ⟨c, -, hc⟩ := List.mem_flatMap.mp hu
    exact units_lt hc
  unfold jsonString at h
  obtain ⟨-, h⟩ := List.cons.inj h
  have h' : (a.toList.flatMap units).flatMap escapeUnit ++ '"' :: s =
      (b.toList.flatMap units).flatMap escapeUnit ++ '"' :: t := by
    rw [List.append_cons, List.append_cons _ _ t]
    exact h
  obtain ⟨hunits, hrest⟩ := selfDelimiting_escapeUnit.flatMap (fun t => t.head? = some '"')
    (fun u s t _ ht => escapeUnit_ne_quote ht) (hlt a) (hlt b) rfl rfl h'
  have hnonempty : ∀ (c : Char) (s t : List ℕ), True → t = [] → units c ++ s ≠ t := by
    rintro c s t - rfl heq
    have hnil := (List.append_eq_nil_iff.mp heq).1
    unfold units at hnil
    split_ifs at hnil
  have hchars := selfDelimiting_units.flatMap (fun t => t = []) hnonempty (fun _ _ => trivial)
    (fun _ _ => trivial) rfl rfl
    (congrArg (· ++ []) hunits)
  exact ⟨String.toList_inj.mp hchars.1, (List.cons.inj hrest).2⟩

end JsonStrings
