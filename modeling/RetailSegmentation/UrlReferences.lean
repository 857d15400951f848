import Mathlib.Data.List.DropRight
import Mathlib.Data.Nat.Notation
import Mathlib.Tactic.Common

/-! Two readings of a URL: Python's `urlsplit`, which cuts it into parts, and the URL parser of a browser, which
resolves it against the address of a page. Of an address only the scheme, the host and the port are kept. -/

namespace UrlReferences

def isControlOrSpace (c : Char) : Bool := c.toNat ≤ 32

def isTabOrBreak (c : Char) : Bool := c = '\t' || c = '\r' || c = '\n'

/-- A text as Python reads it, which strips nothing at the end. -/
def lead (text : List Char) : List Char := (text.dropWhile isControlOrSpace).filter fun c => !isTabOrBreak c

/-- A text as a browser reads it. -/
def cleaned (text : List Char) : List Char :=
  ((text.dropWhile isControlOrSpace).rdropWhile isControlOrSpace).filter fun c => !isTabOrBreak c

def isSchemeChar (c : Char) : Bool := c.isAlphanum || c = '+' || c = '-' || c = '.'

/-- The scheme before the first colon, in lower case, and what follows it. -/
def splitScheme (url : List Char) : List Char × List Char :=
  let scheme := url.takeWhile (· ≠ ':')
  if ':' ∈ url ∧ scheme.head?.any Char.isAlpha = true ∧ scheme.all isSchemeChar = true then
    (scheme.map Char.toLower, (url.dropWhile (· ≠ ':')).tail)
  else ([], url)

/-! ### `urllib.parse.urlsplit` -/

inductive ValueError where
  | invalidBrackets | invalidHost | invalidCharacters
  deriving DecidableEq, Repr

structure SplitResult where
  scheme : List Char
  netloc : List Char
  path : List Char
  query : List Char
  fragment : List Char
  deriving DecidableEq, Repr

def cut (mark : Char) (text : List Char) : List Char × List Char :=
  (text.takeWhile (· ≠ mark), (text.dropWhile (· ≠ mark)).tail)

/-- The path of what follows a netloc. -/
def pathOf (rest : List Char) : List Char := (cut '?' (cut '#' rest).1).1

def endsNetloc (c : Char) : Bool := c = '/' || c = '?' || c = '#'

/-- The netloc that two slashes announce, and what follows it. -/
def splitNetloc (url : List Char) : List Char × List Char :=
  if url.take 2 = ['/', '/'] then
    ((url.drop 2).takeWhile (!endsNetloc ·), (url.drop 2).dropWhile (!endsNetloc ·))
  else ([], url)

section Python

variable (bracketed : List Char → Bool) (nfkc : List Char → List Char)

/-- `_checknetloc`: normalisation brings no delimiter into the netloc. -/
def checkNetloc (netloc : List Char) : Bool :=
  let n := netloc.filter fun c => !(c = '@' || c = ':' || c = '#' || c = '?')
  netloc.all (fun c => c.toNat < 128) || decide (n = nfkc n) ||
    (nfkc n).all fun c => !(c = '/' || c = '?' || c = '#' || c = '@' || c = ':')

/-- `bracketed` is the check of a netloc that holds brackets, for an IPv6 address or one of a later version. -/
def urlsplit (url : List Char) : Except ValueError SplitResult := do
  let scheme := (splitScheme (lead url)).1
  let netloc := (splitNetloc (splitScheme (lead url)).2).1
  let rest := (splitNetloc (splitScheme (lead url)).2).2
  if decide ('[' ∈ netloc) ≠ decide (']' ∈ netloc) then throw .invalidBrackets
  if '[' ∈ netloc ∧ bracketed netloc = false then throw .invalidHost
  if checkNetloc nfkc netloc = false then throw .invalidCharacters
  return {
    scheme
    netloc
    path := pathOf rest
    query := (cut '?' (cut '#' rest).1).2
    fragment := (cut '#' rest).2 }

/-- A netloc that `urlsplit` reads. -/
structure Sound (netloc : List Char) : Prop where
  brackets : '[' ∈ netloc ↔ ']' ∈ netloc
  host : '[' ∈ netloc → bracketed netloc = true
  characters : checkNetloc nfkc netloc = true

variable {bracketed nfkc}

theorem sound_nil : Sound bracketed nfkc [] where
  brackets := by simp
  host h := by cases h
  characters := by simp [checkNetloc]

/-- The netloc of a text, without the scheme before it. -/
def netlocOf (url : List Char) : List Char := (splitNetloc (splitScheme (lead url)).2).1

theorem urlsplit_ok {url : List Char} (h : Sound bracketed nfkc (netlocOf url)) :
    ∃ parts, urlsplit bracketed nfkc url = .ok parts ∧ parts.scheme = (splitScheme (lead url)).1 ∧
      parts.netloc = netlocOf url ∧ parts.path = pathOf (splitNetloc (splitScheme (lead url)).2).2 := by
  have hbrackets : ¬ decide ('[' ∈ netlocOf url) ≠ decide (']' ∈ netlocOf url) :=
    not_not.mpr (decide_eq_decide.mpr h.brackets)
  have hhost : ¬ ('[' ∈ netlocOf url ∧ bracketed (netlocOf url) = false) := fun hhost => by
    simp [h.host hhost.1] at hhost
  have hcharacters : ¬ checkNetloc nfkc (netlocOf url) = false := by simp [h.characters]
  unfold netlocOf at hbrackets hhost hcharacters
  unfold urlsplit
  rw [if_neg hbrackets, if_neg hhost, if_neg hcharacters]
  exact ⟨_, rfl, rfl, rfl, rfl⟩

theorem urlsplit_error {url : List Char} (h : ¬ Sound bracketed nfkc (netlocOf url)) :
    ∃ raised, urlsplit bracketed nfkc url = .error raised := by
  unfold netlocOf at h
  unfold urlsplit
  by_cases hbrackets : decide ('[' ∈ (splitNetloc (splitScheme (lead url)).2).1) ≠
      decide (']' ∈ (splitNetloc (splitScheme (lead url)).2).1)
  · rw [if_pos hbrackets]
    exact ⟨_, rfl⟩
  rw [if_neg hbrackets]
  by_cases hhost : '[' ∈ (splitNetloc (splitScheme (lead url)).2).1 ∧
      bracketed (splitNetloc (splitScheme (lead url)).2).1 = false
  · rw [if_pos hhost]
    exact ⟨_, rfl⟩
  rw [if_neg hhost]
  by_cases hcharacters : checkNetloc nfkc (splitNetloc (splitScheme (lead url)).2).1 = false
  · rw [if_pos hcharacters]
    exact ⟨_, rfl⟩
  · simp only [not_and, Bool.not_eq_false] at hhost hcharacters
    exact absurd ⟨decide_eq_decide.mp (not_not.mp hbrackets), hhost, hcharacters⟩ h

end Python

/-! ### The URL parser of a browser -/

inductive Scheme where
  | http | https
  deriving DecidableEq, Repr

def Scheme.text : Scheme → List Char
  | .http => "http".toList
  | .https => "https".toList

def Scheme.defaultPort : Scheme → ℕ
  | .http => 80
  | .https => 443

/-- Where a page is; the port is the scheme's own where the URL names none. -/
structure Address (Host : Type) where
  scheme : Scheme
  host : Host
  port : ℕ
  port_lt : port < 65536

/-- What a reference resolves to: nothing, what another scheme makes of it, or a page at an address. -/
inductive Reached (Host : Type) where
  | failure
  | elsewhere (scheme : List Char)
  | page (address : Address Host)

section Browser

variable {Host : Type} (parseHost : List Char → Option Host)

def isSlash (c : Char) : Bool := c = '/' || c = '\\'

def endsAuthority (c : Char) : Bool := isSlash c || c = '?' || c = '#'

/-- The host and what follows the first colon outside brackets. -/
def splitPort (inBrackets : Bool) : List Char → List Char × List Char
  | [] => ([], [])
  | c :: rest =>
    if c = ':' ∧ inBrackets = false then ([], rest)
    else
      let split := splitPort (if c = '[' then true else if c = ']' then false else inBrackets) rest
      (c :: split.1, split.2)

def parsePort (scheme : Scheme) (port : List Char) : Option ℕ :=
  if port = [] then some scheme.defaultPort
  else if port.all Char.isDigit = true then some (Nat.ofDigitChars 10 port 0) else none

/-- The address that an authority names, of what follows the slashes before it. -/
def authority (scheme : Scheme) (text : List Char) : Reached Host :=
  let written := (text.dropWhile isSlash).takeWhile (!endsAuthority ·)
  let split := splitPort false (written.rtakeWhile (· ≠ '@'))
  if split.1 = [] then .failure
  else
    match parseHost split.1, parsePort scheme split.2 with
    | some host, some port => if h : port < 65536 then .page ⟨scheme, host, port, h⟩ else .failure
    | _, _ => .failure

/-- A reference without a scheme: two slashes announce a host, of either kind. -/
def relative (page : Address Host) (text : List Char) : Reached Host :=
  if (text.take 2).length = 2 ∧ (text.take 2).all isSlash = true then authority parseHost page.scheme text
  else .page page

def absolute (page : Address Host) (scheme : Scheme) (text : List Char) : Reached Host :=
  if scheme = page.scheme ∧ text.take 2 ≠ ['/', '/'] then relative parseHost page text
  else authority parseHost scheme text

def resolve (page : Address Host) (reference : List Char) : Reached Host :=
  let split := splitScheme (cleaned reference)
  if split.1 = [] then relative parseHost page split.2
  else if split.1 = Scheme.http.text then absolute parseHost page .http split.2
  else if split.1 = Scheme.https.text then absolute parseHost page .https split.2
  else .elsewhere split.1

end Browser

/-! ### Leading slashes -/

theorem splitScheme_none {url : List Char} (h : (splitScheme url).1 = []) : splitScheme url = ([], url) := by
  unfold splitScheme at h ⊢
  dsimp only at h ⊢
  split at h
  · rename_i hscheme
    obtain ⟨-, halpha, -⟩ := hscheme
    rw [List.map_eq_nil_iff.mp h] at halpha
    cases halpha
  · rename_i hscheme
    rw [if_neg hscheme]

theorem splitScheme_slash (rest : List Char) : splitScheme ('/' :: rest) = ([], '/' :: rest) := by
  unfold splitScheme
  rw [if_neg]
  rintro ⟨-, halpha, -⟩
  rw [List.takeWhile_cons_of_pos (by decide)] at halpha
  cases halpha

theorem pathOf_slash (rest : List Char) : pathOf ('/' :: rest) = '/' :: pathOf rest := by
  unfold pathOf cut
  dsimp only
  rw [List.takeWhile_cons_of_pos (by decide), List.takeWhile_cons_of_pos (by decide)]

theorem head_pathOf {rest : List Char} : (pathOf rest).head? = some '/' ↔ rest.head? = some '/' := by
  cases rest with
  | nil => simp [pathOf, cut]
  | cons c rest =>
      by_cases hc : c = '/'
      · rw [hc, pathOf_slash, List.head?_cons, List.head?_cons]
      · have hother : (pathOf (c :: rest)).head? ≠ some '/' := by
          unfold pathOf cut
          dsimp only
          rw [List.takeWhile_cons]
          split
          · rw [List.takeWhile_cons]
            split
            · rw [List.head?_cons]
              simpa using hc
            · simp
          · simp
        rw [List.head?_cons, Option.some_inj]
        exact ⟨fun h => absurd h hother, fun h => absurd h hc⟩

theorem control_of_tabOrBreak {c : Char} (h : isTabOrBreak c = true) : isControlOrSpace c = true := by
  simp only [isTabOrBreak, Bool.or_eq_true, decide_eq_true_eq] at h
  obtain (rfl | rfl) | rfl := h <;> decide

theorem lead_eq {text : List Char} (h : ∀ c ∈ text, isControlOrSpace c = false) : lead text = text := by
  have hfirst : text.dropWhile isControlOrSpace = text := by
    cases text with
    | nil => rfl
    | cons c rest => exact List.dropWhile_cons_of_neg (by simp [h c])
  unfold lead
  rw [hfirst]
  refine List.filter_eq_self.mpr fun c hc => ?_
  cases htab : isTabOrBreak c with
  | false => rfl
  | true => cases (control_of_tabOrBreak htab).symm.trans (h c hc)

theorem mem_of_mem_lead {text : List Char} {c : Char} (h : c ∈ lead text) : c ∈ text :=
  (List.dropWhile_sublist _).subset (List.mem_filter.mp h).1

theorem cleaned_append (text : List Char) :
    ∃ tail, cleaned text ++ tail = lead text ∧ ∀ c ∈ tail, isControlOrSpace c = true := by
  refine ⟨((text.dropWhile isControlOrSpace).rtakeWhile isControlOrSpace).filter fun c => !isTabOrBreak c, ?_, ?_⟩
  · unfold cleaned lead
    rw [← List.filter_append, List.rdropWhile_append_rtakeWhile]
  · exact fun c hc => List.mem_rtakeWhile_imp (List.mem_filter.mp hc).1

theorem head_kept {text tail rest : List Char} {c : Char} (h : text ++ tail = c :: rest)
    (htail : ∀ d ∈ tail, isControlOrSpace d = true) (hc : isControlOrSpace c = false) :
    ∃ kept, text = c :: kept ∧ kept ++ tail = rest := by
  cases text with
  | nil =>
      rw [List.nil_append] at h
      rw [htail c (h ▸ List.mem_cons_self)] at hc
      cases hc
  | cons d kept =>
      obtain ⟨rfl, hrest⟩ := List.cons.inj h
      exact ⟨kept, rfl, hrest⟩

section Resolving

variable {Host : Type} {parseHost : List Char → Option Host} {text rest : List Char}

/-- One slash and no other of either kind: the reference stays at the page's address. -/
theorem resolve_path (page : Address Host) (h : lead text = '/' :: rest)
    (hrest : ∀ c ∈ rest.head?, isSlash c = false) :
    resolve parseHost page text = .page page := by
  obtain ⟨tail, happend, htail⟩ := cleaned_append text
  obtain ⟨kept, hkept, hsame⟩ := head_kept (happend.trans h) htail (by decide)
  unfold resolve
  rw [hkept, splitScheme_slash, if_pos rfl]
  unfold relative
  rw [if_neg]
  rintro ⟨hlength, hall⟩
  cases kept with
  | nil => cases hlength
  | cons d kept =>
      have hd : isSlash d = false := hrest d (hsame ▸ rfl)
      simp [hd] at hall

theorem resolve_host (h : lead text = '/' :: '/' :: rest) (scheme : Scheme) : ∃ reached : Reached Host,
    ∀ page : Address Host, page.scheme = scheme → resolve parseHost page text = reached := by
  obtain ⟨tail, happend, htail⟩ := cleaned_append text
  obtain ⟨kept, hkept, hsame⟩ := head_kept (happend.trans h) htail (by decide)
  obtain ⟨kept', rfl, -⟩ := head_kept hsame htail (by decide)
  refine ⟨authority parseHost scheme (cleaned text), ?_⟩
  rintro page rfl
  unfold resolve
  rw [hkept, splitScheme_slash, if_pos rfl]
  unfold relative
  exact if_pos ⟨rfl, rfl⟩

theorem resolve_leaves [Inhabited Host] (h : lead text = '/' :: '/' :: rest) :
    ∃ page : Address Host, resolve parseHost page text ≠ .page page := by
  obtain ⟨reached, hreached⟩ := @resolve_host Host parseHost text rest h .https
  by_contra hall
  push Not at hall
  have hone := hall ⟨.https, default, 443, by decide⟩
  have hother := hall ⟨.https, default, 8443, by decide⟩
  rw [hreached _ rfl] at hone hother
  cases hone.symm.trans hother

end Resolving

end UrlReferences
