import Mathlib.Data.List.TakeDrop
import Mathlib.Data.List.TakeWhile
import Mathlib.Data.Nat.Notation
import Mathlib.Tactic.Common

/-! A reader of XML 1.0 documents with namespaces. What it accepts is well formed; comments, processing
instructions, CDATA sections, document types, references in attributes and a `>` in text are not read. -/

namespace Xml

/-! ### Characters -/

/-- `Char` of the grammar. -/
def isChar (c : Char) : Bool :=
  c = '\t' || c = '\n' || c = '\r' || (0x20 ≤ c.toNat && c.toNat ≤ 0xfffd) || 0x10000 ≤ c.toNat

def isSpace (c : Char) : Bool := c = ' ' || c = '\t' || c = '\n' || c = '\r'

/-- `NameStartChar`, less the colon. -/
def nameStarts : List (ℕ × ℕ) :=
  [(0x41, 0x5a), (0x5f, 0x5f), (0x61, 0x7a), (0xc0, 0xd6), (0xd8, 0xf6), (0xf8, 0x2ff), (0x370, 0x37d),
    (0x37f, 0x1fff),
    (0x200c, 0x200d), (0x2070, 0x218f), (0x2c00, 0x2fef), (0x3001, 0xd7ff), (0xf900, 0xfdcf), (0xfdf0, 0xfffd),
    (0x10000, 0xeffff)]

def nameExtenders : List (ℕ × ℕ) := [(0x2d, 0x2e), (0x30, 0x39), (0xb7, 0xb7), (0x300, 0x36f), (0x203f, 0x2040)]

def isNameStart (c : Char) : Bool := nameStarts.any fun range => range.1 ≤ c.toNat && c.toNat ≤ range.2

def isNameChar (c : Char) : Bool :=
  isNameStart c || nameExtenders.any fun range => range.1 ≤ c.toNat && c.toNat ≤ range.2

/-- A name without a colon. -/
def isNcName : List Char → Bool
  | [] => false
  | c :: rest => isNameStart c && rest.all isNameChar

def isTagName : List Char → Bool
  | [] => false
  | c :: rest => isNameStart c && rest.all fun c => isNameChar c || c = ':'

/-- A character that is read in an attribute as it is written. -/
def isPlain (c : Char) : Bool := isChar c && !(['<', '>', '&', '"', '\'', '\t', '\n', '\r'].contains c)

def normalizeLineEnds : List Char → List Char
  | [] => []
  | '\r' :: '\n' :: rest => '\n' :: normalizeLineEnds rest
  | c :: rest => (if c = '\r' then '\n' else c) :: normalizeLineEnds rest

theorem normalizeLineEnds_cons {c : Char} (hc : c ≠ '\r') (rest : List Char) :
    normalizeLineEnds (c :: rest) = c :: normalizeLineEnds rest := by
  rw [normalizeLineEnds, if_neg hc]
  exact fun _ h => absurd h hc

theorem normalizeLineEnds_append {text : List Char} (htext : '\r' ∉ text) (rest : List Char) :
    normalizeLineEnds (text ++ rest) = text ++ normalizeLineEnds rest := by
  induction text with
  | nil => rfl
  | cons c text ih =>
      rw [List.mem_cons, not_or] at htext
      rw [List.cons_append, normalizeLineEnds_cons (Ne.symm htext.1), ih htext.2, List.cons_append]

theorem return_notMem_normalizeLineEnds (text : List Char) : '\r' ∉ normalizeLineEnds text := by
  fun_induction normalizeLineEnds text with
  | case1 => exact List.not_mem_nil
  | case2 rest ih => simpa using ih
  | case3 c rest _ ih =>
      rw [List.mem_cons, not_or]
      refine ⟨?_, ih⟩
      split_ifs with h
      · decide
      · exact Ne.symm h

theorem normalizeLineEnds_eq_self_iff {text : List Char} : normalizeLineEnds text = text ↔ '\r' ∉ text := by
  constructor
  · intro h
    rw [← h]
    exact return_notMem_normalizeLineEnds text
  · intro h
    have := normalizeLineEnds_append h []
    rwa [List.append_nil, normalizeLineEnds, List.append_nil] at this

def referenced (name : List Char) : Option Char :=
  if name = "lt".toList then some '<'
  else if name = "gt".toList then some '>'
  else if name = "amp".toList then some '&'
  else if name = "apos".toList then some '\''
  else if name = "quot".toList then some '"'
  else match name with
  | '#' :: digits =>
    let number := Nat.ofDigitChars 10 digits 0
    if digits ≠ [] ∧ digits.all Char.isDigit ∧ number.isValidChar ∧ isChar (Char.ofNat number) then
      some (Char.ofNat number)
    else none
  | _ => none

/-! ### Elements -/

/-- A namespace and a local name. -/
abbrev Expanded := List Char × List Char

inductive Node where
  | char (c : Char)
  | element (name : Expanded) (attributes : List (Expanded × List Char)) (children : List Node)

/-- A start tag as it is written. -/
structure Tag where
  name : List Char
  attributes : List (List Char × List Char)

/-- An element that is still open. -/
structure Frame where
  tag : List Char
  bindings : List (List Char × List Char)
  name : Expanded
  attributes : List (Expanded × List Char)
  content : List Node

def Frame.node (frame : Frame) : Node := .element frame.name frame.attributes frame.content

def Frame.append (frame : Frame) (nodes : List Node) : Frame := { frame with content := frame.content ++ nodes }

/-- The namespace of an attribute's value that declares a prefix, or none as the empty one. -/
def declares (attr : List Char × List Char) : Option (List Char × List Char) :=
  if attr.1 = "xmlns".toList then some ([], attr.2)
  else ("xmlns:".toList.isPrefixOf? attr.1).map (·, attr.2)

def resolve (bindings : List (List Char × List Char)) (unprefixed : List Char) (name : List Char) :
    Option Expanded :=
  match name.span (· ≠ ':') with
  | (_, []) => some (unprefixed, name)
  | (before, _ :: after) => if isNcName after then (bindings.lookup before).map (·, after) else none

/-! ### Reading -/

inductive Phase where
  | content
  | reference (name : List Char)
  | markup
  | tagName (name : List Char)
  | inTag (tag : Tag)
  | attributeName (tag : Tag) (name : List Char)
  | quote (tag : Tag) (name : List Char)
  | value (tag : Tag) (name : List Char) (quote : Char) (text : List Char)
  | afterValue (tag : Tag)
  | emptyTag (tag : Tag)
  | endTag (name : List Char)

structure Reader where
  frames : List Frame
  root : Option Node
  phase : Phase

namespace Reader

variable (r : Reader)

/-- A start tag opens an element, its names resolved. -/
def start (tag : Tag) : Option Reader :=
  let bindings := tag.attributes.filterMap declares ++ r.frames.head?.elim [] Frame.bindings
  let plain := tag.attributes.filter fun attr => (declares attr).isNone
  match resolve bindings ((bindings.lookup []).getD []) tag.name,
      plain.mapM fun attr => (resolve bindings [] attr.1).map (·, attr.2) with
  | some name, some attributes =>
    if (tag.attributes.map Prod.fst).Nodup ∧ (attributes.map Prod.fst).Nodup then
      some ⟨⟨tag.name, bindings, name, attributes, []⟩ :: r.frames, r.root, .content⟩
    else none
  | _, _ => none

/-- An end tag closes the element of that name. -/
def close (name : List Char) : Option Reader :=
  match r.frames with
  | [] => none
  | frame :: frames =>
    if frame.tag ≠ name then none
    else match frames with
    | [] => some ⟨[], some frame.node, .content⟩
    | parent :: frames => some ⟨parent.append [frame.node] :: frames, r.root, .content⟩

/-- What may follow a tag's name or an attribute. -/
def afterName (tag : Tag) (c : Char) : Option Reader :=
  if c = '>' then r.start tag
  else if c = '/' then some { r with phase := .emptyTag tag }
  else if isSpace c then some { r with phase := .inTag tag }
  else none

def step (c : Char) : Option Reader :=
  match r.phase with
  | .content =>
    if c = '<' then if r.root.isNone then some { r with phase := .markup } else none
    else match r.frames with
    | [] => if isSpace c then some r else none
    | frame :: frames =>
      if c = '&' then some { r with phase := .reference [] }
      else if c ≠ '>' ∧ isChar c then some { r with frames := frame.append [.char c] :: frames }
      else none
  | .reference name =>
    if c ≠ ';' then some { r with phase := .reference (name ++ [c]) }
    else match r.frames, referenced name with
    | frame :: frames, some c => some { r with frames := frame.append [.char c] :: frames, phase := .content }
    | _, _ => none
  | .markup =>
    if c = '/' then some { r with phase := .endTag [] }
    else if isNameStart c then some { r with phase := .tagName [c] }
    else none
  | .tagName name =>
    if isNameChar c || c = ':' then some { r with phase := .tagName (name ++ [c]) } else r.afterName ⟨name, []⟩ c
  | .inTag tag =>
    if isNameStart c then some { r with phase := .attributeName tag [c] } else r.afterName tag c
  | .attributeName tag name =>
    if isNameChar c || c = ':' then some { r with phase := .attributeName tag (name ++ [c]) }
    else if c = '=' then some { r with phase := .quote tag name }
    else none
  | .quote tag name =>
    if c = '"' || c = '\'' then some { r with phase := .value tag name c [] } else none
  | .value tag name quote text =>
    if c = quote then some { r with phase := .afterValue ⟨tag.name, tag.attributes ++ [(name, text)]⟩ }
    else if c = '<' || c = '&' || !isChar c then none
    else some { r with phase := .value tag name quote (text ++ [if isSpace c then ' ' else c]) }
  | .afterValue tag => r.afterName tag c
  | .emptyTag tag => if c = '>' then (r.start tag).bind (·.close tag.name) else none
  | .endTag name =>
    if c = '>' then r.close name
    else if isNameChar c || c = ':' then some { r with phase := .endTag (name ++ [c]) }
    else none

def run (text : List Char) : Option Reader := text.foldlM step r

end Reader

def declaration : List Char := "<?xml version='1.0' encoding='UTF-8'?>".toList

def read (document : List Char) : Option Node :=
  let text := normalizeLineEnds document
  match (Reader.mk [] none .content).run ((declaration.isPrefixOf? text).getD text) with
  | some ⟨[], some root, .content⟩ => some root
  | _ => none

/-! ### Runs -/

namespace Reader

theorem run_append (r : Reader) (a b : List Char) : r.run (a ++ b) = (r.run a).bind (·.run b) := List.foldlM_append

theorem run_cons (r : Reader) (c : Char) (rest : List Char) : r.run (c :: rest) = (r.step c).bind (·.run rest) :=
  List.foldlM_cons

/-- Within elements, between their parts. -/
abbrev inside (frames : List Frame) : Reader := ⟨frames, none, .content⟩

variable {frame : Frame} {frames : List Frame} {root : Option Node}

theorem step_char {c : Char} (hchar : isChar c = true) (hplain : c ∉ ['<', '>', '&']) :
    (inside (frame :: frames)).step c = some (inside (frame.append [.char c] :: frames)) := by
  simp only [List.mem_cons, List.not_mem_nil, or_false, not_or] at hplain
  obtain ⟨hless, hgreater, hand⟩ := hplain
  unfold step
  dsimp only
  rw [if_neg hless, if_neg hand, if_pos ⟨hgreater, hchar⟩]

theorem run_flatMap {escape : Char → List Char} {text : List Char}
    (hescape : ∀ c ∈ text, ∀ frame, (inside (frame :: frames)).run (escape c) =
      some (inside (frame.append [.char c] :: frames))) :
    (inside (frame :: frames)).run (text.flatMap escape) =
      some (inside (frame.append (text.map Node.char) :: frames)) := by
  induction text generalizing frame with
  | nil => simp [run, Frame.append]
  | cons c text ih =>
      obtain ⟨hfirst, hrest⟩ := List.forall_mem_cons.mp hescape
      rw [List.flatMap_cons, run_append, hfirst, Option.bind_some, ih hrest]
      simp [Frame.append]

/-! ### Tags -/

theorem run_names {phase : List Char → Phase} {name rest : List Char} (before : List Char)
    (hstep : ∀ before c, (isNameChar c || decide (c = ':')) = true →
      (Reader.mk frames root (phase before)).step c = some ⟨frames, root, phase (before ++ [c])⟩)
    (hname : rest.all fun c => isNameChar c || decide (c = ':')) :
    (Reader.mk frames root (phase before)).run (rest ++ name) =
      (Reader.mk frames root (phase (before ++ rest))).run name := by
  induction rest generalizing before with
  | nil => simp
  | cons c rest ih =>
      rw [List.all_cons, Bool.and_eq_true] at hname
      rw [List.cons_append, run_cons, hstep _ _ hname.1, Option.bind_some, ih _ hname.2, List.append_assoc]
      rfl

theorem run_tagName {name rest : List Char} (hname : isTagName name = true) :
    (inside frames).run ('<' :: (name ++ rest)) = (Reader.mk frames none (.tagName name)).run rest := by
  cases name with
  | nil => cases hname
  | cons c name =>
      rw [isTagName, Bool.and_eq_true] at hname
      have hslash : c ≠ '/' := fun h => absurd (h ▸ hname.1) (by decide)
      have hmarkup : (Reader.mk frames none .markup).step c = some ⟨frames, none, .tagName [c]⟩ := by
        unfold step
        dsimp only
        rw [if_neg hslash, if_pos hname.1]
      rw [run_cons]
      change (Reader.mk frames none .markup).run _ = _
      rw [List.cons_append, run_cons, hmarkup, Option.bind_some]
      refine run_names [c] (fun before c hc => ?_) hname.2
      unfold step
      dsimp only
      rw [if_pos hc]

theorem run_endTag {name : List Char} (hname : isTagName name = true) :
    (inside frames).run ('<' :: '/' :: (name ++ ['>'])) = (Reader.mk frames none (.endTag name)).close name := by
  have hall : name.all fun c => isNameChar c || decide (c = ':') := by
    cases name with
    | nil => rfl
    | cons c name =>
        rw [isTagName, Bool.and_eq_true] at hname
        rw [List.all_cons, Bool.and_eq_true]
        exact ⟨by rw [isNameChar, hname.1]; rfl, hname.2⟩
  change (Reader.mk frames none (.endTag [])).run _ = _
  refine (run_names [] (fun before c hc => ?_) hall).trans ?_
  · have hend : c ≠ '>' := fun h => absurd (h ▸ hc) (by decide)
    unfold step
    dsimp only
    rw [if_neg hend, if_pos hc]
  · rw [run_cons]
    change ((Reader.mk frames none (.endTag name)).close name).bind _ = _
    cases (Reader.mk frames none (.endTag name)).close name <;> rfl

theorem step_space_tagName {name : List Char} :
    (Reader.mk frames root (.tagName name)).step ' ' = some ⟨frames, root, .inTag ⟨name, []⟩⟩ := rfl

theorem step_space_afterValue {tag : Tag} :
    (Reader.mk frames root (.afterValue tag)).step ' ' = some ⟨frames, root, .inTag tag⟩ := rfl

theorem run_value {tag : Tag} {name value rest : List Char} (before : List Char)
    (hvalue : ∀ c ∈ value, isPlain c = true) :
    (Reader.mk frames root (.value tag name '"' before)).run (value ++ rest) =
      (Reader.mk frames root (.value tag name '"' (before ++ value))).run rest := by
  induction value generalizing before with
  | nil => rw [List.append_nil, List.nil_append]
  | cons c value ih =>
      obtain ⟨hplain, hvalue⟩ := List.forall_mem_cons.mp hvalue
      have hne : ∀ d, isPlain d = false → c ≠ d := by
        rintro d hd rfl
        rw [hplain] at hd
        cases hd
      have hstep : (Reader.mk frames root (.value tag name '"' before)).step c =
          some ⟨frames, root, .value tag name '"' (before ++ [c])⟩ := by
        have hchar : isChar c = true := (Bool.and_eq_true _ _ ▸ hplain).1
        have hspace : (if isSpace c then ' ' else c) = c := by
          by_cases hblank : c = ' '
          · rw [hblank]
            rfl
          · refine if_neg ?_
            simp [isSpace, hblank, hne '\t' (by decide), hne '\n' (by decide), hne '\r' (by decide)]
        unfold step
        dsimp only
        rw [if_neg (hne '"' (by decide)), if_neg, hspace]
        simp [hchar, hne '<' (by decide), hne '&' (by decide)]
      rw [List.cons_append, run_cons, hstep, Option.bind_some, ih _ hvalue, List.append_assoc]
      rfl

theorem run_attribute {phase : Phase} {tag : Tag} {name value rest : List Char}
    (hspace : (Reader.mk frames root phase).step ' ' = some ⟨frames, root, .inTag tag⟩) (hname : isTagName name = true)
    (hvalue : ∀ c ∈ value, isPlain c = true) :
    (Reader.mk frames root phase).run (' ' :: (name ++ '=' :: '"' :: (value ++ '"' :: rest))) =
      (Reader.mk frames root (.afterValue ⟨tag.name, tag.attributes ++ [(name, value)]⟩)).run rest := by
  cases name with
  | nil => cases hname
  | cons c name =>
      rw [isTagName, Bool.and_eq_true] at hname
      have hfirst : (Reader.mk frames root (.inTag tag)).step c = some ⟨frames, root, .attributeName tag [c]⟩ := by
        unfold step
        dsimp only
        rw [if_pos hname.1]
      rw [run_cons, hspace, Option.bind_some, List.cons_append, run_cons, hfirst, Option.bind_some]
      refine (run_names [c] (fun before c hc => ?_) hname.2).trans ?_
      · unfold step
        dsimp only
        rw [if_pos hc]
      · change (Reader.mk frames root (.value tag (c :: name) '"' [])).run _ = _
        rw [run_value [] hvalue]
        rfl

/-! ### Elements -/

theorem start_plain {phase : Phase} {name : List Char} {expanded : Expanded}
    (hresolve : resolve frame.bindings ((frame.bindings.lookup []).getD []) name = some expanded) :
    (Reader.mk (frame :: frames) none phase).start ⟨name, []⟩ =
      some (inside (⟨name, frame.bindings, expanded, [], []⟩ :: frame :: frames)) := by
  unfold start
  simp only [List.filterMap_nil, List.nil_append, List.head?_cons, Option.elim_some, hresolve, List.filter_nil]
  rfl

theorem afterName_close (r : Reader) (tag : Tag) : r.afterName tag '>' = r.start tag := if_pos rfl

theorem step_tagName {name : List Char} {c : Char} (hc : (isNameChar c || decide (c = ':')) = false) :
    (Reader.mk frames root (.tagName name)).step c = (Reader.mk frames root (.tagName name)).afterName ⟨name,
      []⟩ c := by
  unfold step
  dsimp only
  rw [if_neg (Bool.eq_false_iff.mp hc)]

theorem run_element {name body rest : List Char} {expanded : Expanded} {nodes : List Node}
    (hname : isTagName name = true)
    (hresolve : resolve frame.bindings ((frame.bindings.lookup []).getD []) name = some expanded)
    (hbody : (inside (⟨name, frame.bindings, expanded, [], []⟩ :: frame :: frames)).run body =
      some (inside (⟨name, frame.bindings, expanded, [], nodes⟩ :: frame :: frames))) :
    (inside (frame :: frames)).run ('<' :: (name ++ '>' :: (body ++ '<' :: '/' :: (name ++ '>' :: rest)))) =
      (inside (frame.append [.element expanded [] nodes] :: frames)).run rest := by
  rw [run_tagName hname, run_cons, step_tagName (by decide), afterName_close, start_plain hresolve,
    Option.bind_some,
    run_append, hbody, Option.bind_some]
  have hend : '<' :: '/' :: (name ++ '>' :: rest) = '<' :: '/' :: (name ++ ['>']) ++ rest := by simp
  rw [hend, run_append, run_endTag hname]
  unfold close
  dsimp only
  rw [if_neg (not_not.mpr rfl)]
  rfl

theorem run_emptyElement {name rest : List Char} {expanded : Expanded} (hname : isTagName name = true)
    (hresolve : resolve frame.bindings ((frame.bindings.lookup []).getD []) name = some expanded) :
    (inside (frame :: frames)).run ('<' :: (name ++ '/' :: '>' :: rest)) =
      (inside (frame.append [.element expanded [] []] :: frames)).run rest := by
  have hempty : (Reader.mk (frame :: frames) none (.emptyTag ⟨name, []⟩)).step '>' =
      some (inside (frame.append [.element expanded [] []] :: frames)) := by
    unfold step
    dsimp only
    rw [if_pos rfl, start_plain hresolve, Option.bind_some]
    unfold close
    dsimp only
    rw [if_neg (not_not.mpr rfl)]
    rfl
  rw [run_tagName hname, run_cons, step_tagName (by decide)]
  change (Reader.mk (frame :: frames) none (.emptyTag ⟨name, []⟩)).run _ = _
  rw [run_cons, hempty, Option.bind_some]

end Reader

/-! ### Names -/

theorem isTagName_of_isNcName {name : List Char} (h : isNcName name = true) : isTagName name = true := by
  cases name with
  | nil => cases h
  | cons c rest =>
      rw [isNcName, Bool.and_eq_true] at h
      rw [isTagName, Bool.and_eq_true]
      refine ⟨h.1, List.all_eq_true.mpr fun d hd => ?_⟩
      rw [List.all_eq_true.mp h.2 d hd, Bool.true_or]

theorem isNameChar_of_mem {name : List Char} (h : isNcName name = true) {c : Char} (hc : c ∈ name) :
    isNameChar c = true := by
  cases name with
  | nil => cases h
  | cons first rest =>
      rw [isNcName, Bool.and_eq_true] at h
      rcases List.mem_cons.mp hc with rfl | hc
      · rw [isNameChar, h.1, Bool.true_or]
      · exact List.all_eq_true.mp h.2 c hc

theorem isTagName_prefixed {before name : List Char} (hbefore : isNcName before = true)
    (h : isNcName name = true) :
    isTagName (before ++ ':' :: name) = true := by
  cases before with
  | nil => cases hbefore
  | cons c before =>
      have hall : ∀ {text : List Char}, isNcName text = true → ∀ d ∈ text,
        (isNameChar d || decide (d = ':')) = true :=
        fun htext d hd => by rw [isNameChar_of_mem htext hd, Bool.true_or]
      rw [List.cons_append, isTagName, Bool.and_eq_true]
      rw [isNcName, Bool.and_eq_true] at hbefore
      refine ⟨hbefore.1, List.all_eq_true.mpr fun d hd => ?_⟩
      rcases List.mem_append.mp hd with hd | hd
      · rw [List.all_eq_true.mp hbefore.2 d hd, Bool.true_or]
      · rcases List.mem_cons.mp hd with rfl | hd
        · decide
        · exact hall h d hd

theorem span_ncName {name : List Char} (h : isNcName name = true) (rest : List Char) :
    (name ++ ':' :: rest).span (· ≠ ':') = (name, ':' :: rest) ∧ name.span (· ≠ ':') = (name, []) := by
  have hcolon : ∀ c ∈ name, decide (c ≠ ':') = true := fun c hc =>
    decide_eq_true fun heq => absurd (heq ▸ isNameChar_of_mem h hc) (by decide)
  rw [List.span_eq_takeWhile_dropWhile, List.span_eq_takeWhile_dropWhile, List.takeWhile_append_of_pos hcolon,
    List.dropWhile_append_of_pos hcolon, List.takeWhile_eq_self_iff.mpr hcolon,
      List.dropWhile_eq_nil_iff.mpr hcolon]
  simp

theorem resolve_ncName {bindings : List (List Char × List Char)} {unprefixed name : List Char}
    (h : isNcName name = true) : resolve bindings unprefixed name = some (unprefixed, name) := by
  unfold resolve
  rw [(span_ncName h []).2]

theorem resolve_prefixed {bindings : List (List Char × List Char)} {unprefixed before name : List Char}
    (hbefore : isNcName before = true) (h : isNcName name = true) :
    resolve bindings unprefixed (before ++ ':' :: name) = (bindings.lookup before).map (·, name) := by
  unfold resolve
  rw [(span_ncName hbefore name).1]
  dsimp only
  rw [if_pos h]

end Xml
