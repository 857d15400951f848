import RetailSegmentation.UrlReferences

/-! Returning where a visitor was going (`web/middleware/authz.py`): which targets `safe_next` honours, and where a
browser that is sent to one ends up. -/

namespace RetailSegmentation.SafeReturns

open UrlReferences

variable (bracketed : List Char → Bool) (nfkc : List Char → List Char)

def safeNext (target : Option (List Char)) : Except ValueError (Option (List Char)) := do
  match target with
  | none => return none
  | some text =>
    if text = [] then return none
    if '\\' ∈ text ∨ '\r' ∈ text ∨ '\n' ∈ text then return none
    let parts ← urlsplit bracketed nfkc text
    if parts.scheme ≠ [] ∨ parts.netloc ≠ [] then return none
    if parts.path.head? ≠ some '/' ∨ parts.path.take 2 = ['/', '/'] then return none
    return some text

/-! ### What is promised -/

/-- One slash and none after it, of either kind, and no backslash, control character or space. -/
structure Plain (text : List Char) : Prop where
  slash : text.head? = some '/'
  path : ∀ c ∈ text.tail.head?, isSlash c = false
  characters : ∀ c ∈ text, c ≠ '\\' ∧ isControlOrSpace c = false

/-- What `safe_next` is for: it answers with the target or nothing, a browser that follows the answer from any page
stays at the page's address, and the plain paths are answered. -/
structure Returns {Host : Type} (parseHost : List Char → Option Host) (target : Option (List Char)) : Prop where
  answers : ∃ answer, safeNext bracketed nfkc target = .ok answer ∧ (answer = none ∨ answer = target)
  stays : ∀ text, safeNext bracketed nfkc target = .ok (some text) →
    ∀ page : Address Host, resolve parseHost page text = .page page
  plain : ∀ text, target = some text → Plain text → safeNext bracketed nfkc target = .ok target

/-- A target refused unread. -/
def Barred (text : List Char) : Prop := '\\' ∈ text ∨ '\r' ∈ text ∨ '\n' ∈ text

def OneSlash (url : List Char) : Prop := ∃ rest, url = '/' :: rest ∧ rest.head? ≠ some '/'

def ThreeSlashes (url : List Char) : Prop := ∃ rest, url = '/' :: '/' :: '/' :: rest ∧ rest.head? ≠ some '/'

/-! ### Which targets are honoured -/

section Honoured

variable {bracketed nfkc} {text : List Char}

theorem path_honoured {rest : List Char} :
    ¬ ((pathOf rest).head? ≠ some '/' ∨ (pathOf rest).take 2 = ['/', '/']) ↔ OneSlash rest := by
  rw [not_or, not_not, head_pathOf]
  constructor
  · rintro ⟨hhead, htwo⟩
    obtain ⟨tail, rfl⟩ := List.head?_eq_some_iff.mp hhead
    refine ⟨tail, rfl, fun htail => htwo ?_⟩
    obtain ⟨tail', htail'⟩ := List.head?_eq_some_iff.mp (head_pathOf.mpr htail)
    rw [pathOf_slash, htail']
    rfl
  · rintro ⟨tail, rfl, htail⟩
    refine ⟨rfl, fun htwo => htail (head_pathOf.mp ?_)⟩
    rw [pathOf_slash] at htwo
    cases hpath : pathOf tail with
    | nil =>
        rw [hpath] at htwo
        cases htwo
    | cons c path =>
        rw [hpath] at htwo
        simp only [List.take_succ_cons, List.take_zero, List.cons.injEq, and_true, true_and] at htwo
        rw [htwo, List.head?_cons]

/-- The parts that are honoured: a path of one slash, or of three, whose first two announce an empty netloc. -/
theorem parts_honoured (url : List Char) :
    ((splitScheme url).1 = [] ∧ (splitNetloc (splitScheme url).2).1 = [] ∧
      OneSlash (splitNetloc (splitScheme url).2).2) ↔ OneSlash url ∨ ThreeSlashes url := by
  have hslash : OneSlash url ∨ ThreeSlashes url → splitScheme url = ([], url) := by
    rintro (⟨rest, rfl, -⟩ | ⟨rest, rfl, -⟩) <;> exact splitScheme_slash _
  constructor
  · rintro ⟨hscheme, hnetloc, hpath⟩
    rw [splitScheme_none hscheme] at hnetloc hpath
    by_cases htwo : url.take 2 = ['/', '/']
    · have hurl : url = '/' :: '/' :: url.drop 2 := by
        rw [← List.take_append_drop 2 url, htwo]
        rfl
      unfold splitNetloc at hnetloc hpath
      rw [if_pos htwo] at hnetloc hpath
      have hkept : (url.drop 2).takeWhile (!endsNetloc ·) ++ (url.drop 2).dropWhile (!endsNetloc ·) = url.drop 2 :=
        List.takeWhile_append_dropWhile
      change (url.drop 2).takeWhile (!endsNetloc ·) = [] at hnetloc
      change OneSlash ((url.drop 2).dropWhile (!endsNetloc ·)) at hpath
      rw [hnetloc, List.nil_append] at hkept
      rw [hkept] at hpath
      obtain ⟨rest, hrest, hhead⟩ := hpath
      exact .inr ⟨rest, by rw [hurl, hrest], hhead⟩
    · unfold splitNetloc at hpath
      rw [if_neg htwo] at hpath
      exact .inl hpath
  · intro h
    rw [hslash h]
    obtain ⟨rest, rfl, hrest⟩ | ⟨rest, rfl, hrest⟩ := h
    · unfold splitNetloc
      rw [if_neg]
      · exact ⟨rfl, rfl, rest, rfl, hrest⟩
      · intro htwo
        cases rest with
        | nil => cases htwo
        | cons c rest =>
            simp only [List.take_succ_cons, List.take_zero, List.cons.injEq, and_true, true_and] at htwo
            exact hrest (by rw [htwo, List.head?_cons])
    · unfold splitNetloc
      rw [if_pos (by rfl)]
      dsimp only [List.drop]
      rw [List.takeWhile_cons_of_neg (by decide), List.dropWhile_cons_of_neg (by decide)]
      exact ⟨rfl, rfl, rest, rfl, hrest⟩

/-- A target that is read is honoured for its leading slashes, or answered with nothing. -/
theorem safeNext_read (hopen : ¬ Barred text) (hsound : Sound bracketed nfkc (netlocOf text)) :
    safeNext bracketed nfkc (some text) = .ok (some text) ∧ (OneSlash (lead text) ∨ ThreeSlashes (lead text)) ∨
      safeNext bracketed nfkc (some text) = .ok none ∧ ¬ (OneSlash (lead text) ∨ ThreeSlashes (lead text)) := by
  unfold safeNext
  by_cases hempty : text = []
  · subst hempty
    refine .inr ⟨rfl, ?_⟩
    rintro (⟨rest, h, -⟩ | ⟨rest, h, -⟩) <;> cases h
  obtain ⟨parts, hparts, hscheme, hnetloc, hpath⟩ := urlsplit_ok hsound
  have hopen' : ¬ ('\\' ∈ text ∨ '\r' ∈ text ∨ '\n' ∈ text) := hopen
  rw [← parts_honoured]
  simp only [hempty, hopen', if_false, hparts, bind, Except.bind, pure, Except.pure]
  by_cases houtside : parts.scheme ≠ [] ∨ parts.netloc ≠ []
  · rw [if_pos houtside]
    rw [hscheme, hnetloc] at houtside
    exact .inr ⟨rfl, fun h => houtside.elim (· h.1) (· h.2.1)⟩
  rw [if_neg houtside]
  rw [not_or, not_not, not_not, hscheme, hnetloc] at houtside
  by_cases hone : OneSlash (splitNetloc (splitScheme (lead text)).2).2
  · rw [hpath, if_neg (path_honoured.mpr hone)]
    exact .inl ⟨rfl, houtside.1, houtside.2, hone⟩
  · rw [hpath, if_pos (not_not.mp fun h => hone (path_honoured.mp h))]
    exact .inr ⟨rfl, fun h => hone h.2.2⟩

theorem safeNext_barred (h : Barred text) : safeNext bracketed nfkc (some text) = .ok none := by
  have h' : '\\' ∈ text ∨ '\r' ∈ text ∨ '\n' ∈ text := h
  simp [safeNext, h', pure, Except.pure]

theorem safeNext_unsound (hopen : ¬ Barred text) (h : ¬ Sound bracketed nfkc (netlocOf text)) :
    ∃ raised, safeNext bracketed nfkc (some text) = .error raised := by
  have hempty : text ≠ [] := by
    rintro rfl
    exact h sound_nil
  obtain ⟨raised, hraised⟩ := urlsplit_error h
  have hopen' : ¬ ('\\' ∈ text ∨ '\r' ∈ text ∨ '\n' ∈ text) := hopen
  exact ⟨raised, by simp [safeNext, hempty, hopen', hraised, bind, Except.bind]⟩

theorem Plain.oneSlash (h : Plain text) : OneSlash (lead text) := by
  obtain ⟨rest, rfl⟩ := List.head?_eq_some_iff.mp h.slash
  have hlead := lead_eq fun c hc => (h.characters c hc).2
  refine ⟨rest, hlead, fun hslash => ?_⟩
  have hpath := h.path '/' hslash
  cases hpath

theorem Plain.not_barred (h : Plain text) : ¬ Barred text := by
  rintro (hmem | hmem | hmem)
  · exact (h.characters _ hmem).1 rfl
  all_goals
    have hkept := (h.characters _ hmem).2
    cases hkept

end Honoured

/-! ### Which targets are returned as promised -/

section Promised

variable {bracketed nfkc} {Host : Type} {parseHost : List Char → Option Host} {text : List Char}

theorem resolve_oneSlash (hopen : ¬ Barred text) (h : OneSlash (lead text)) (page : Address Host) :
    resolve parseHost page text = .page page := by
  obtain ⟨rest, hlead, hrest⟩ := h
  refine resolve_path page hlead fun c hc => ?_
  have hslash : c ≠ '/' := by
    rintro rfl
    exact hrest hc
  have hbackslash : c ≠ '\\' := by
    rintro rfl
    have hmem : '\\' ∈ lead text := hlead ▸ List.mem_cons_of_mem _ (List.mem_of_mem_head? hc)
    exact hopen (.inl (mem_of_mem_lead hmem))
  simp [isSlash, hslash, hbackslash]

theorem returns_none {target : Option (List Char)} (hanswer : safeNext bracketed nfkc target = .ok none)
    (hplain : ∀ text, target = some text → ¬ Plain text) : Returns bracketed nfkc parseHost target where
  answers := ⟨none, hanswer, .inl rfl⟩
  stays text htext := by simp [hanswer] at htext
  plain text htarget h := absurd h (hplain text htarget)

theorem returns_target (hanswer : safeNext bracketed nfkc (some text) = .ok (some text))
    (hstays : ∀ page, resolve parseHost page text = .page page) :
      Returns bracketed nfkc parseHost (some text) where
  answers := ⟨some text, hanswer, .inr rfl⟩
  stays text' htext' := by
    obtain rfl : text = text' := by simpa [hanswer] using htext'
    exact hstays
  plain _ _ _ := hanswer

theorem returns_barred (h : Barred text) : Returns bracketed nfkc parseHost (some text) := by
  refine returns_none (safeNext_barred h) ?_
  rintro text' htext hplain
  cases htext
  exact hplain.not_barred h

theorem returns_read (hopen : ¬ Barred text) (hsound : Sound bracketed nfkc (netlocOf text))
    (hthree : ¬ ThreeSlashes (lead text)) : Returns bracketed nfkc parseHost (some text) := by
  obtain ⟨hanswer, hslashes⟩ | ⟨hanswer, hrefused⟩ := safeNext_read hopen hsound
  · exact returns_target hanswer (resolve_oneSlash hopen (hslashes.resolve_right hthree))
  · refine returns_none hanswer ?_
    rintro text' htext hplain
    cases htext
    exact hrefused (.inl hplain.oneSlash)

theorem not_returns_unsound (hopen : ¬ Barred text) (h : ¬ Sound bracketed nfkc (netlocOf text)) :
    ¬ Returns bracketed nfkc parseHost (some text) := by
  intro hreturns
  obtain ⟨raised, hraised⟩ := safeNext_unsound hopen h
  obtain ⟨answer, hanswer, -⟩ := hreturns.answers
  cases hanswer.symm.trans hraised

theorem not_returns_three [Inhabited Host] (hopen : ¬ Barred text) (hsound : Sound bracketed nfkc (netlocOf text))
    (h : ThreeSlashes (lead text)) : ¬ Returns bracketed nfkc parseHost (some text) := by
  intro hreturns
  obtain ⟨hanswer, -⟩ | ⟨-, hrefused⟩ := safeNext_read hopen hsound
  · obtain ⟨rest, hrest, -⟩ := h
    obtain ⟨page, hpage⟩ : ∃ page : Address Host, resolve parseHost page text ≠ .page page := resolve_leaves hrest
    exact hpage (hreturns.stays text hanswer page)
  · exact hrefused (.inr h)

end Promised

/-- **Returning after sign-in.** `safe_next` does what it is for exactly on the targets that it refuses
unread, and on those whose netloc can be read and that do not begin with three slashes. -/
theorem safeNext_returns_iff {Host : Type} [Inhabited Host] (parseHost : List Char → Option Host)
    (target : Option (List Char)) : Returns bracketed nfkc parseHost target ↔
      ∀ text, target = some text →
        Barred text ∨ Sound bracketed nfkc (netlocOf text) ∧ ¬ ThreeSlashes (lead text) := by
  constructor
  · rintro h text rfl
    by_cases hopen : Barred text
    · exact .inl hopen
    by_cases hsound : Sound bracketed nfkc (netlocOf text)
    · exact .inr ⟨hsound, fun hthree => not_returns_three hopen hsound hthree h⟩
    · exact absurd h (not_returns_unsound hopen hsound)
  · intro h
    cases target with
    | none => exact returns_none rfl fun _ htext => by cases htext
    | some text =>
        by_cases hopen : Barred text
        · exact returns_barred hopen
        · obtain ⟨hsound, hthree⟩ := (h text rfl).resolve_left hopen
          exact returns_read hopen hsound hthree

def shop : Address (List Char) := ⟨.https, "shop.example".toList, 443, by decide⟩

/-- A target of three slashes is answered, and from the shop it leads elsewhere; one that opens a bracket
raises. -/
theorem three_slashes_leave :
    safeNext (fun _ => false) id (some "///evil.example/x".toList) = .ok (some "///evil.example/x".toList) ∧
      resolve some shop "///evil.example/x".toList = .page ⟨.https, "evil.example".toList, 443, by decide⟩ ∧
      shop.host ≠ "evil.example".toList ∧
      safeNext (fun _ => false) id (some "//[".toList) = .error .invalidBrackets :=
  ⟨by decide, rfl, by decide, by decide⟩

end RetailSegmentation.SafeReturns
