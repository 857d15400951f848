import RetailSegmentation.XmlRendering

/-! When what both kits render is well formed, and one document: which member names and which strings can be
served. -/

namespace RetailSegmentation.Rendering

open TextCodes Xml Xml.Reader

/-! ### Elements -/

mutual

def nodes (shown : Scalar → List Char) (uri : List Char) (key : Text) : Value → List Node
  | .null => []
  | .list items => itemNodes shown uri key items
  | .object members => [.element (uri, chars key) [] (memberNodes shown uri members)]
  | .scalar scalar => [.element (uri, chars key) [] ((shown scalar).map Node.char)]

def itemNodes (shown : Scalar → List Char) (uri : List Char) (key : Text) : Items → List Node
  | .nil => []
  | .cons item rest => nodes shown uri key item ++ itemNodes shown uri key rest

def memberNodes (shown : Scalar → List Char) (uri : List Char) : Members → List Node
  | .nil => []
  | .cons key value rest => nodes shown uri key value ++ memberNodes shown uri rest

end

mutual

def Value.Written (P : Text → Prop) (Q : Scalar → Prop) (key : Text) : Value → Prop
  | .null => True
  | .list items => items.Written P Q key
  | .object members => P key ∧ members.Written P Q
  | .scalar scalar => P key ∧ Q scalar

def Items.Written (P : Text → Prop) (Q : Scalar → Prop) (key : Text) : Items → Prop
  | .nil => True
  | .cons item rest => item.Written P Q key ∧ rest.Written P Q key

def Members.Written (P : Text → Prop) (Q : Scalar → Prop) : Members → Prop
  | .nil => True
  | .cons key value rest => value.Written P Q key ∧ rest.Written P Q

end

def IsName (key : Text) : Prop := (key.all (CodePoint.char? · |>.isSome) = true) ∧ isNcName (chars key) = true

def IsXmlText (scalar : Scalar) : Prop := (KitPy.text scalar).all KitPy.isXmlChar = true

def NoReturn (scalar : Scalar) : Prop := CodePoint.char '\r' ∉ KitPy.text scalar

/-! ### Texts of elements -/

/-- What the names within an element are resolved by. -/
structure Scope (service : Service) (bindings : List (List Char × List Char)) : Prop where
  default : bindings.lookup [] = some service.uri
  common : bindings.lookup "common".toList = some commonNamespace

/-- Wherever the text stands in a document, it is read as these nodes. -/
def Shows (service : Service) (text : List Char) (nodes : List Node) : Prop :=
  ∃ lines, (∀ rest, normalizeLineEnds (text ++ rest) = lines ++ normalizeLineEnds rest) ∧
    ∀ frame frames, Scope service frame.bindings →
      (inside (frame :: frames)).run lines = some (inside (frame.append nodes :: frames))

def Names (service : Service) (tag : List Char) (name : Expanded) : Prop :=
  '\r' ∉ tag ∧ isTagName tag = true ∧ ∀ bindings, Scope service bindings →
    resolve bindings ((bindings.lookup []).getD []) tag = some name

section Shows

variable {service : Service} {tag : List Char} {name : Expanded}

theorem Shows.nil : Shows service [] [] := ⟨[], fun _ => rfl, fun frame _ _ => by simp [run, Frame.append]⟩

theorem Shows.append {a b : List Char} {as bs : List Node} (ha : Shows service a as) (hb : Shows service b bs) :
    Shows service (a ++ b) (as ++ bs) := by
  obtain ⟨lines, hlines, hread⟩ := ha
  obtain ⟨lines', hlines', hread'⟩ := hb
  refine ⟨lines ++ lines', fun rest => ?_, fun frame frames hscope => ?_⟩
  · rw [List.append_assoc, hlines, hlines', List.append_assoc]
  · rw [run_append, hread frame frames hscope, Option.bind_some]
    exact (hread' (frame.append as) frames hscope).trans (by simp [Frame.append])

theorem Shows.element {content lines : List Char} {nodes : List Node} (htag : Names service tag name)
    (hlines : ∀ rest, normalizeLineEnds (content ++ '<' :: rest) = lines ++ '<' :: normalizeLineEnds rest)
    (hread : ∀ frame frames, Scope service frame.bindings →
      (inside (frame :: frames)).run lines = some (inside (frame.append nodes :: frames))) :
    Shows service (Rendering.element tag content) [.element name [] nodes] := by
  obtain ⟨hreturn, hname, hresolve⟩ := htag
  refine ⟨Rendering.element tag lines, fun rest => ?_, fun frame frames hscope => ?_⟩
  · unfold Rendering.element
    simp only [List.cons_append, List.append_assoc, List.nil_append]
    rw [normalizeLineEnds_cons (by decide), normalizeLineEnds_append hreturn,
      normalizeLineEnds_cons (by decide), hlines,
      normalizeLineEnds_cons (by decide), normalizeLineEnds_append hreturn, normalizeLineEnds_cons (by decide)]
  · have hrun := @run_element frame frames tag lines [] name nodes hname (hresolve _ hscope)
      (hread ⟨tag, frame.bindings, name, [], []⟩ (frame :: frames) hscope)
    exact hrun

theorem Shows.element_of {content : List Char} {nodes : List Node} (htag : Names service tag name)
    (hcontent : Shows service content nodes) :
    Shows service (Rendering.element tag content) [.element name [] nodes] := by
  obtain ⟨lines, hlines, hread⟩ := hcontent
  exact Shows.element htag (fun rest => (hlines _).trans (by rw [normalizeLineEnds_cons (by decide)])) hread

theorem Shows.empty (htag : Names service tag name) :
    Shows service ('<' :: (tag ++ ['/', '>'])) [.element name [] []] := by
  obtain ⟨hreturn, hname, hresolve⟩ := htag
  refine ⟨'<' :: (tag ++ ['/', '>']), fun rest => ?_, fun frame frames hscope => ?_⟩
  · simp only [List.cons_append, List.append_assoc, List.nil_append]
    rw [normalizeLineEnds_cons (by decide), normalizeLineEnds_append hreturn, normalizeLineEnds_cons (by decide),
      normalizeLineEnds_cons (by decide)]
  · exact @run_emptyElement frame frames tag [] name hname (hresolve _ hscope)

theorem names_prefixed {uri local_ : List Char} (huri : uri = service.uri ∨ uri = commonNamespace)
    (hname : isNcName local_ = true) : Names service (KitPy.prefixed service uri local_) (uri, local_) := by
  have hreturn : '\r' ∉ local_ := fun h => absurd (isNameChar_of_mem hname h) (by decide)
  unfold KitPy.prefixed
  split_ifs with hown
  · refine ⟨hreturn, isTagName_of_isNcName hname, fun bindings hscope => ?_⟩
    rw [resolve_ncName hname, hscope.default, hown]
    rfl
  · obtain rfl := huri.resolve_left hown
    refine ⟨?_, isTagName_prefixed (by decide) hname, fun bindings hscope => ?_⟩
    · rw [List.mem_append, not_or, List.mem_cons, not_or]
      exact ⟨by decide, by decide, hreturn⟩
    · rw [resolve_prefixed (by decide) hname, hscope.common]
      rfl

theorem Shows.eq_nil {nodes : List Node} (h : Shows service [] nodes) : nodes = [] := by
  obtain ⟨lines, hlines, hread⟩ := h
  have hnone := hlines []
  rw [List.append_nil, normalizeLineEnds, List.append_nil] at hnone
  subst hnone
  have hrun := hread ⟨[], [([], service.uri), ("common".toList, commonNamespace)], ([], []), [], []⟩ [] ⟨rfl, rfl⟩
  exact (Frame.mk.inj (List.cons.inj (Reader.mk.inj (Option.some.inj hrun)).1).1).2.2.2.2.symm

theorem Shows.parent {children : List Char} {nodes : List Node} (htag : Names service tag name)
    (hchildren : Shows service children nodes) : Shows service (KitPy.parent tag children) [.element name [] nodes] := by
  unfold KitPy.parent
  split_ifs with hempty
  · subst hempty
    rw [hchildren.eq_nil]
    exact Shows.empty htag
  · exact Shows.element_of htag hchildren

/-! ### Characters -/

theorem KitPy.run_escape {c : Char} (hc : isChar c = true) (frame : Frame) (frames : List Frame) :
    (inside (frame :: frames)).run (KitPy.escape c) = some (inside (frame.append [.char c] :: frames)) := by
  unfold KitPy.escape
  split_ifs with hless hgreater hand hreturn
  · rw [hless]
    rfl
  · rw [hgreater]
    rfl
  · rw [hand]
    rfl
  · rw [hreturn]
    rfl
  · rw [run_cons, step_char hc (by simp [hless, hgreater, hand])]
    rfl

theorem KitRs.run_escape {c : Char} (hc : isChar c = true) (frame : Frame) (frames : List Frame) :
    (inside (frame :: frames)).run (KitRs.escape c) = some (inside (frame.append [.char c] :: frames)) := by
  unfold KitRs.escape
  split_ifs with hless hgreater hapos hand hquot
  · rw [hless]
    rfl
  · rw [hgreater]
    rfl
  · rw [hapos]
    rfl
  · rw [hand]
    rfl
  · rw [hquot]
    rfl
  · rw [run_cons, step_char hc (by simp [hless, hgreater, hand])]
    rfl

theorem KitPy.return_notMem_escape (c : Char) : '\r' ∉ KitPy.escape c := by
  unfold KitPy.escape
  split_ifs with hless hgreater hand hreturn
  · decide
  · decide
  · decide
  · decide
  · exact fun h => hreturn (List.mem_singleton.mp h).symm

theorem KitRs.head_escape {c : Char} (hc : c ≠ '\n') (rest rest' : List Char) :
    KitRs.escape c ++ rest ≠ '\n' :: rest' := by
  unfold KitRs.escape
  split_ifs <;> intro h
  all_goals exact absurd (List.cons.inj h).1 (by first | decide | exact hc)

theorem KitRs.normalizeLineEnds_escape (content rest : List Char) :
    normalizeLineEnds (content.flatMap KitRs.escape ++ '<' :: rest) =
      (normalizeLineEnds content).flatMap KitRs.escape ++ '<' :: normalizeLineEnds rest := by
  fun_induction normalizeLineEnds content with
  | case1 => exact normalizeLineEnds_cons (by decide) rest
  | case2 content ih =>
      change normalizeLineEnds ('\r' :: '\n' :: (content.flatMap KitRs.escape ++ '<' :: rest)) =
        '\n' :: ((normalizeLineEnds content).flatMap KitRs.escape ++ '<' :: normalizeLineEnds rest)
      rw [normalizeLineEnds, ih]
  | case3 c content hnot ih =>
      rw [List.flatMap_cons, List.flatMap_cons, List.append_assoc, List.append_assoc, ← ih]
      by_cases hreturn : c = '\r'
      · subst hreturn
        rw [if_pos rfl]
        change normalizeLineEnds ('\r' :: (content.flatMap KitRs.escape ++ '<' :: rest)) = '\n' :: normalizeLineEnds _
        rw [normalizeLineEnds, if_pos rfl]
        intro rest' _ h
        cases content with
        | nil => exact absurd (List.cons.inj h).1 (by decide)
        | cons d content =>
            rw [List.flatMap_cons, List.append_assoc] at h
            exact KitRs.head_escape (fun hfeed => hnot content rfl (by rw [hfeed])) _ _ h
      · rw [if_neg hreturn]
        refine normalizeLineEnds_append ?_ _
        unfold KitRs.escape
        split_ifs
        all_goals first
          | exact fun h => hreturn (List.mem_singleton.mp h).symm
          | decide

/-! ### Scalars -/

def KitPy.shown (scalar : Scalar) : List Char := chars (KitPy.text scalar)

def KitRs.shown (scalar : Scalar) : List Char := normalizeLineEnds (KitRs.xmlSafe (KitRs.text scalar))

theorem isChar_chars {text : Text} (h : text.all KitPy.isXmlChar = true) {c : Char} (hc : c ∈ chars text) :
    isChar c = true := by
  obtain ⟨point, hpoint, hchar⟩ := List.mem_filterMap.mp hc
  have hxml := List.all_eq_true.mp h point hpoint
  cases point with
  | char d =>
      obtain rfl := Option.some.inj hchar
      exact hxml
  | surrogate n => cases hchar

theorem KitPy.shows_scalar {scalar : Scalar} {content : List Char} (htag : Names service tag name)
    (hcontent : KitPy.assign (KitPy.text scalar) = some content) :
    Shows service (Rendering.element tag (content.flatMap KitPy.escape))
      [.element name [] ((KitPy.shown scalar).map Node.char)] := by
  unfold KitPy.assign at hcontent
  split_ifs at hcontent with hxml
  obtain rfl := Option.some.inj hcontent
  refine Shows.element htag (fun rest => ?_) fun frame frames _ =>
    run_flatMap fun c hc frame => KitPy.run_escape (isChar_chars hxml hc) frame frames
  have hreturn : '\r' ∉ (chars (KitPy.text scalar)).flatMap KitPy.escape := fun h => by
    obtain ⟨c, -, hc⟩ := List.mem_flatMap.mp h
    exact KitPy.return_notMem_escape c hc
  rw [normalizeLineEnds_append hreturn, normalizeLineEnds_cons (by decide)]
  rfl

theorem isChar_normalizeLineEnds {content : List Char} (h : ∀ c ∈ content, isChar c = true) :
    ∀ c ∈ normalizeLineEnds content, isChar c = true := by
  fun_induction normalizeLineEnds content with
  | case1 =>
      intro c hc
      cases hc
  | case2 content ih =>
      obtain ⟨-, h⟩ := List.forall_mem_cons.mp h
      obtain ⟨hfeed, h⟩ := List.forall_mem_cons.mp h
      exact List.forall_mem_cons.mpr ⟨hfeed, ih h⟩
  | case3 c content _ ih =>
      obtain ⟨hfirst, h⟩ := List.forall_mem_cons.mp h
      refine List.forall_mem_cons.mpr ⟨?_, ih h⟩
      split_ifs
      · decide
      · exact hfirst

theorem KitRs.isChar_xmlSafe {text : Text} : ∀ c ∈ KitRs.xmlSafe text, isChar c = true := by
  intro c hc
  obtain ⟨point, -, rfl⟩ := List.mem_map.mp hc
  cases point with
  | char d =>
      dsimp only
      split_ifs with hxml
      · exact hxml
      · decide
  | surrogate n => exact (by decide : isChar (Char.ofNat 0xfffd) = true)

theorem KitRs.shows_scalar (scalar : Scalar) (htag : Names service tag name) :
    Shows service (Rendering.element tag ((KitRs.xmlSafe (KitRs.text scalar)).flatMap KitRs.escape))
      [.element name [] ((KitRs.shown scalar).map Node.char)] :=
  Shows.element htag (fun rest => KitRs.normalizeLineEnds_escape _ rest) fun _ frames _ =>
    run_flatMap fun _ hc frame => KitRs.run_escape (isChar_normalizeLineEnds KitRs.isChar_xmlSafe _ hc) frame frames

/-! ### Values -/

theorem KitPy.qname_eq_some {key : Text} {local_ : List Char} :
    KitPy.qname key = some local_ ↔ IsName key ∧ local_ = chars key := by
  unfold KitPy.qname
  split_ifs with h
  · exact ⟨fun heq => ⟨h, (Option.some.inj heq).symm⟩, fun heq => congrArg some heq.2.symm⟩
  · exact ⟨nofun, fun heq => absurd heq.1 h⟩

theorem KitPy.assign_eq_some {scalar : Scalar} {content : List Char} :
    KitPy.assign (KitPy.text scalar) = some content ↔ IsXmlText scalar ∧ content = KitPy.shown scalar := by
  unfold KitPy.assign
  split_ifs with h
  · exact ⟨fun heq => ⟨h, (Option.some.inj heq).symm⟩, fun heq => congrArg some heq.2.symm⟩
  · exact ⟨nofun, fun heq => absurd heq.1 h⟩

mutual

theorem KitPy.append_shows {uri : List Char} (huri : uri = service.uri ∨ uri = commonNamespace) (key : Text) :
    ∀ (value : Value) {written : List Char}, KitPy.append service uri key value = some written →
      value.Written IsName IsXmlText key ∧ Shows service written (nodes KitPy.shown uri key value)
  | .null, written, h => by
      rw [KitPy.append] at h
      obtain rfl := Option.some.inj h
      exact ⟨trivial, Shows.nil⟩
  | .list items, written, h => by
      rw [KitPy.append] at h
      rw [Value.Written, nodes]
      exact KitPy.appendItems_shows huri key items h
  | .object members, written, h => by
      rw [KitPy.append] at h
      obtain ⟨name, hname, h⟩ := Option.bind_eq_some_iff.mp h
      obtain ⟨children, hchildren, h⟩ := Option.bind_eq_some_iff.mp h
      obtain rfl := Option.some.inj h
      obtain ⟨hkey, rfl⟩ := KitPy.qname_eq_some.mp hname
      obtain ⟨hmembers, hshows⟩ := KitPy.appendMembers_shows huri members hchildren
      rw [Value.Written, nodes]
      exact ⟨⟨hkey, hmembers⟩, Shows.parent (names_prefixed huri hkey.2) hshows⟩
  | .scalar scalar, written, h => by
      rw [KitPy.append] at h
      obtain ⟨name, hname, h⟩ := Option.bind_eq_some_iff.mp h
      obtain ⟨content, hcontent, h⟩ := Option.bind_eq_some_iff.mp h
      obtain rfl := Option.some.inj h
      obtain ⟨hkey, rfl⟩ := KitPy.qname_eq_some.mp hname
      rw [Value.Written, nodes]
      exact ⟨⟨hkey, (KitPy.assign_eq_some.mp hcontent).1⟩,
        KitPy.shows_scalar (names_prefixed huri hkey.2) hcontent⟩

theorem KitPy.appendItems_shows {uri : List Char} (huri : uri = service.uri ∨ uri = commonNamespace) (key : Text) :
    ∀ (items : Items) {written : List Char}, KitPy.appendItems service uri key items = some written →
      items.Written IsName IsXmlText key ∧ Shows service written (itemNodes KitPy.shown uri key items)
  | .nil, written, h => by
      rw [KitPy.appendItems] at h
      obtain rfl := Option.some.inj h
      exact ⟨trivial, Shows.nil⟩
  | .cons item rest, written, h => by
      rw [KitPy.appendItems] at h
      obtain ⟨first, hfirst, h⟩ := Option.bind_eq_some_iff.mp h
      obtain ⟨others, hothers, h⟩ := Option.bind_eq_some_iff.mp h
      obtain rfl := Option.some.inj h
      obtain ⟨hitem, hshows⟩ := KitPy.append_shows huri key item hfirst
      obtain ⟨hrest, hshows'⟩ := KitPy.appendItems_shows huri key rest hothers
      rw [Items.Written, itemNodes]
      exact ⟨⟨hitem, hrest⟩, hshows.append hshows'⟩

theorem KitPy.appendMembers_shows {uri : List Char} (huri : uri = service.uri ∨ uri = commonNamespace) :
    ∀ (members : Members) {written : List Char}, KitPy.appendMembers service uri members = some written →
      members.Written IsName IsXmlText ∧ Shows service written (memberNodes KitPy.shown uri members)
  | .nil, written, h => by
      rw [KitPy.appendMembers] at h
      obtain rfl := Option.some.inj h
      exact ⟨trivial, Shows.nil⟩
  | .cons key value rest, written, h => by
      rw [KitPy.appendMembers] at h
      obtain ⟨first, hfirst, h⟩ := Option.bind_eq_some_iff.mp h
      obtain ⟨others, hothers, h⟩ := Option.bind_eq_some_iff.mp h
      obtain rfl := Option.some.inj h
      obtain ⟨hvalue, hshows⟩ := KitPy.append_shows huri key value hfirst
      obtain ⟨hrest, hshows'⟩ := KitPy.appendMembers_shows huri rest hothers
      rw [Members.Written, memberNodes]
      exact ⟨⟨hvalue, hrest⟩, hshows.append hshows'⟩

end

mutual

theorem KitPy.append_isSome (uri : List Char) (key : Text) :
    ∀ value : Value, value.Written IsName IsXmlText key → ∃ written,
      KitPy.append service uri key value = some written
  | .null, _ => ⟨[], by rw [KitPy.append]⟩
  | .list items, h => by
      rw [Value.Written] at h
      rw [KitPy.append]
      exact KitPy.appendItems_isSome uri key items h
  | .object members, h => by
      rw [Value.Written] at h
      obtain ⟨children, hchildren⟩ := KitPy.appendMembers_isSome uri members h.2
      rw [KitPy.append, KitPy.qname_eq_some.mpr ⟨h.1, rfl⟩, hchildren]
      exact ⟨_, rfl⟩
  | .scalar scalar, h => by
      rw [Value.Written] at h
      rw [KitPy.append, KitPy.qname_eq_some.mpr ⟨h.1, rfl⟩, KitPy.assign_eq_some.mpr ⟨h.2, rfl⟩]
      exact ⟨_, rfl⟩

theorem KitPy.appendItems_isSome (uri : List Char) (key : Text) :
    ∀ items : Items, items.Written IsName IsXmlText key →
      ∃ written, KitPy.appendItems service uri key items = some written
  | .nil, _ => ⟨[], by rw [KitPy.appendItems]⟩
  | .cons item rest, h => by
      rw [Items.Written] at h
      obtain ⟨first, hfirst⟩ := KitPy.append_isSome uri key item h.1
      obtain ⟨others, hothers⟩ := KitPy.appendItems_isSome uri key rest h.2
      rw [KitPy.appendItems, hfirst, hothers]
      exact ⟨_, rfl⟩

theorem KitPy.appendMembers_isSome (uri : List Char) :
    ∀ members : Members, members.Written IsName IsXmlText →
      ∃ written, KitPy.appendMembers service uri members = some written
  | .nil, _ => ⟨[], by rw [KitPy.appendMembers]⟩
  | .cons key value rest, h => by
      rw [Members.Written] at h
      obtain ⟨first, hfirst⟩ := KitPy.append_isSome uri key value h.1
      obtain ⟨others, hothers⟩ := KitPy.appendMembers_isSome uri rest h.2
      rw [KitPy.appendMembers, hfirst, hothers]
      exact ⟨_, rfl⟩

end

mutual

theorem KitRs.append_shows {Q : Scalar → Prop} {uri : List Char} (huri : uri = service.uri ∨ uri = commonNamespace)
    (key : Text) : ∀ value : Value, value.Written IsName Q key →
      Shows service (KitRs.append service uri key value) (nodes KitRs.shown uri key value)
  | .null, _ => by
      rw [KitRs.append, nodes]
      exact Shows.nil
  | .list items, h => by
      rw [Value.Written] at h
      rw [KitRs.append, nodes]
      exact KitRs.appendItems_shows huri key items h
  | .object members, h => by
      rw [Value.Written] at h
      rw [KitRs.append, nodes]
      exact Shows.element_of (names_prefixed huri h.1.2) (KitRs.appendMembers_shows huri members h.2)
  | .scalar scalar, h => by
      rw [Value.Written] at h
      rw [KitRs.append, nodes]
      exact KitRs.shows_scalar scalar (names_prefixed huri h.1.2)

theorem KitRs.appendItems_shows {Q : Scalar → Prop} {uri : List Char}
    (huri : uri = service.uri ∨ uri = commonNamespace) (key : Text) : ∀ items : Items, items.Written IsName Q key →
      Shows service (KitRs.appendItems service uri key items) (itemNodes KitRs.shown uri key items)
  | .nil, _ => by
      rw [KitRs.appendItems, itemNodes]
      exact Shows.nil
  | .cons item rest, h => by
      rw [Items.Written] at h
      rw [KitRs.appendItems, itemNodes]
      exact (KitRs.append_shows huri key item h.1).append (KitRs.appendItems_shows huri key rest h.2)

theorem KitRs.appendMembers_shows {Q : Scalar → Prop} {uri : List Char}
    (huri : uri = service.uri ∨ uri = commonNamespace) : ∀ members : Members, members.Written IsName Q →
      Shows service (KitRs.appendMembers service uri members) (memberNodes KitRs.shown uri members)
  | .nil, _ => by
      rw [KitRs.appendMembers, memberNodes]
      exact Shows.nil
  | .cons key value rest, h => by
      rw [Members.Written] at h
      rw [KitRs.appendMembers, memberNodes]
      exact (KitRs.append_shows huri key value h.1).append (KitRs.appendMembers_shows huri rest h.2)

end

end Shows

/-! ### One document -/

section Nodes

variable (f g : Scalar → List Char)

mutual

theorem length_nodes (uri : List Char) (key : Text) :
    ∀ value : Value, (nodes f uri key value).length = (nodes g uri key value).length
  | .null => by rw [nodes, nodes]
  | .list items => by
      rw [nodes, nodes]
      exact length_itemNodes uri key items
  | .object members => by
      rw [nodes, nodes]
      rfl
  | .scalar scalar => by
      rw [nodes, nodes]
      rfl

theorem length_itemNodes (uri : List Char) (key : Text) :
    ∀ items : Items, (itemNodes f uri key items).length = (itemNodes g uri key items).length
  | .nil => by rw [itemNodes, itemNodes]
  | .cons item rest => by
      rw [itemNodes, itemNodes, List.length_append, List.length_append, length_nodes uri key item,
        length_itemNodes uri key rest]

end

variable {f g} {P : Text → Prop} {Q R : Scalar → Prop}

mutual

theorem nodes_eq_iff (hshown : ∀ scalar, Q scalar → (f scalar = g scalar ↔ R scalar)) (uri : List Char)
    (key : Text) :
    ∀ value : Value, value.Written P Q key →
      (nodes f uri key value = nodes g uri key value ↔ value.Written (fun _ => True) R key)
  | .null, _ => by
      rw [nodes, nodes, Value.Written]
      exact iff_of_true rfl trivial
  | .list items, h => by
      rw [Value.Written] at h
      rw [nodes, nodes, Value.Written]
      exact itemNodes_eq_iff hshown uri key items h
  | .object members, h => by
      rw [Value.Written] at h
      rw [nodes, nodes, Value.Written, true_and, ← memberNodes_eq_iff hshown uri members h.2]
      simp only [List.cons.injEq, Node.element.injEq, true_and, and_true]
  | .scalar scalar, h => by
      rw [Value.Written] at h
      rw [nodes, nodes, Value.Written, true_and, ← hshown scalar h.2]
      simp only [List.cons.injEq, Node.element.injEq, true_and, and_true]
      exact (List.map_injective_iff.mpr fun _ _ hchar => Node.char.inj hchar).eq_iff

theorem itemNodes_eq_iff (hshown : ∀ scalar, Q scalar → (f scalar = g scalar ↔ R scalar)) (uri : List Char)
    (key : Text) : ∀ items : Items, items.Written P Q key →
      (itemNodes f uri key items = itemNodes g uri key items ↔ items.Written (fun _ => True) R key)
  | .nil, _ => by
      rw [itemNodes, itemNodes, Items.Written]
      exact iff_of_true rfl trivial
  | .cons item rest, h => by
      rw [Items.Written] at h
      rw [itemNodes, itemNodes, Items.Written, ← nodes_eq_iff hshown uri key item h.1,
        ← itemNodes_eq_iff hshown uri key rest h.2]
      exact ⟨fun h => List.append_inj h (length_nodes f g uri key item),
        fun ⟨hitem, hrest⟩ => congrArg₂ _ hitem hrest⟩

theorem memberNodes_eq_iff (hshown : ∀ scalar, Q scalar → (f scalar = g scalar ↔ R scalar)) (uri : List Char) :
    ∀ members : Members, members.Written P Q →
      (memberNodes f uri members = memberNodes g uri members ↔ members.Written (fun _ => True) R)
  | .nil, _ => by
      rw [memberNodes, memberNodes, Members.Written]
      exact iff_of_true rfl trivial
  | .cons key value rest, h => by
      rw [Members.Written] at h
      rw [memberNodes, memberNodes, Members.Written, ← nodes_eq_iff hshown uri key value h.1,
        ← memberNodes_eq_iff hshown uri rest h.2]
      exact ⟨fun h => List.append_inj h (length_nodes f g uri key value),
        fun ⟨hvalue, hrest⟩ => congrArg₂ _ hvalue hrest⟩

end

end Nodes

/-! ### Roots -/

section Documents

variable {service : Service} {root : Name} {xsiType : Option PlainText}

def rootAttributes (xsiType : Option PlainText) : List (Expanded × List Char) :=
  xsiType.elim [] fun type => [((xsiNamespace, "type".toList), type.val)]

theorem run_attributes {frames : List Frame} {tag : Tag} {rest : List Char} (attrs : List (List Char × List Char))
    (hattrs : ∀ attr ∈ attrs, isTagName attr.1 = true ∧ ∀ c ∈ attr.2, isPlain c = true) :
    (Reader.mk frames none (.afterValue tag)).run (attrs.flatMap (fun attr => attributeText attr.1 attr.2) ++ rest) =
      (Reader.mk frames none (.afterValue ⟨tag.name, tag.attributes ++ attrs⟩)).run rest := by
  induction attrs generalizing tag with
  | nil => rw [List.append_nil, List.flatMap_nil, List.nil_append]
  | cons attr attrs ih =>
      obtain ⟨⟨hname, hvalue⟩, hattrs⟩ := List.forall_mem_cons.mp hattrs
      have hfirst := @run_attribute _ _ _ _ _ _ (attrs.flatMap (fun attr => attributeText attr.1 attr.2) ++ rest)
        (@step_space_afterValue frames none tag) hname hvalue
      rw [List.flatMap_cons]
      unfold attributeText at hfirst ih ⊢
      simp only [List.cons_append, List.append_assoc, List.nil_append] at hfirst ih ⊢
      rw [hfirst, ih hattrs]
      simp

theorem run_opening {attr : List Char × List Char} {rest : List Char} (attrs : List (List Char × List Char))
    (hattrs : ∀ a ∈ attr :: attrs, isTagName a.1 = true ∧ ∀ c ∈ a.2, isPlain c = true) :
    (inside []).run ('<' :: (root.val ++ ((attr :: attrs).flatMap (fun a => attributeText a.1 a.2) ++ rest))) =
      (Reader.mk [] none (.afterValue ⟨root.val, attr :: attrs⟩)).run rest := by
  obtain ⟨⟨hname, hvalue⟩, hattrs⟩ := List.forall_mem_cons.mp hattrs
  rw [run_tagName (isTagName_of_isNcName root.property), List.flatMap_cons]
  have hfirst := @run_attribute _ _ _ _ _ _ (attrs.flatMap (fun a => attributeText a.1 a.2) ++ rest)
    (@step_space_tagName [] none root.val) hname hvalue
  have hothers := @run_attributes [] ⟨root.val, [attr]⟩ rest attrs hattrs
  unfold attributeText at hfirst hothers ⊢
  simp only [List.cons_append, List.append_assoc, List.nil_append] at hfirst hothers ⊢
  rw [hfirst, hothers]

theorem run_closing {frame : Frame} {lines : List Char} {nodes : List Node} (htag : frame.tag = root.val)
    (hread : (inside [frame]).run lines = some (inside [frame.append nodes])) :
    (inside [frame]).run (lines ++ '<' :: '/' :: (root.val ++ ['>'])) =
      some ⟨[], some (frame.append nodes).node, .content⟩ := by
  rw [run_append, hread, Option.bind_some, run_endTag (isTagName_of_isNcName root.property)]
  unfold close
  dsimp only
  rw [if_neg]
  exact not_not.mpr htag

theorem start_root {attrs bindings : List (List Char × List Char)} {attributes : List (Expanded × List Char)}
    {phase : Phase}
    (hbindings : attrs.filterMap declares = bindings) (hscope : Scope service bindings)
    (hattributes : (attrs.filter fun attr => (declares attr).isNone).mapM
      (fun attr => (resolve bindings [] attr.1).map (·, attr.2)) = some attributes)
    (hnodup : (attrs.map Prod.fst).Nodup ∧ (attributes.map Prod.fst).Nodup) :
    (Reader.mk [] none phase).start ⟨root.val, attrs⟩ =
      some (inside [⟨root.val, bindings, (service.uri, root.val), attributes, []⟩]) := by
  unfold start
  dsimp only
  rw [List.head?_nil, Option.elim_none, List.append_nil, hbindings, hattributes, resolve_ncName root.property,
    hscope.default]
  exact if_pos hnodup

theorem isPrefixOf?_append (text rest : List Char) : text.isPrefixOf? (text ++ rest) = some rest := by
  induction text with
  | nil => rfl
  | cons c text ih =>
      rw [List.cons_append, List.isPrefixOf?, if_pos (beq_self_eq_true c)]
      exact ih

theorem return_notMem_tag {name : List Char} (h : isTagName name = true) : '\r' ∉ name := by
  cases name with
  | nil => exact List.not_mem_nil
  | cons c name =>
      rw [isTagName, Bool.and_eq_true] at h
      rw [List.mem_cons, not_or]
      refine ⟨fun hc => absurd (hc ▸ h.1) (by decide), fun hmem => ?_⟩
      exact absurd (List.all_eq_true.mp h.2 _ hmem) (by decide)

theorem return_notMem_attributes {attrs : List (List Char × List Char)}
    (hattrs : ∀ a ∈ attrs, isTagName a.1 = true ∧ ∀ c ∈ a.2, isPlain c = true) :
    '\r' ∉ attrs.flatMap fun a => attributeText a.1 a.2 := by
  intro h
  obtain ⟨attr, hattr, hmem⟩ := List.mem_flatMap.mp h
  obtain ⟨hname, hvalue⟩ := hattrs attr hattr
  unfold attributeText at hmem
  simp only [List.mem_cons, List.mem_append, List.not_mem_nil, or_false] at hmem
  rcases hmem with h | h | h | h | h | h
  · exact absurd h (by decide)
  · exact return_notMem_tag hname h
  · exact absurd h (by decide)
  · exact absurd h (by decide)
  · exact absurd (hvalue _ h) (by decide)
  · exact absurd h (by decide)

/-- What the root's start tag says, and that it says it well. -/
structure Opening (service : Service) (xsiType : Option PlainText)
    (attrs : List (List Char × List Char)) : Prop where
  read : ∀ a ∈ attrs, isTagName a.1 = true ∧ ∀ c ∈ a.2, isPlain c = true
  scope : Scope service (attrs.filterMap declares)
  attributes : (attrs.filter fun attr => (declares attr).isNone).mapM (fun attr =>
    (resolve (attrs.filterMap declares) [] attr.1).map (·, attr.2)) = some (rootAttributes xsiType)
  nodup : (attrs.map Prod.fst).Nodup

theorem Opening.start {attrs : List (List Char × List Char)} {phase : Phase} (h : Opening service xsiType attrs) :
    (Reader.mk [] none phase).start ⟨root.val, attrs⟩ = some (inside
      [⟨root.val, attrs.filterMap declares, (service.uri, root.val), rootAttributes xsiType, []⟩]) := by
  refine start_root rfl h.scope h.attributes ⟨h.nodup, ?_⟩
  cases xsiType with
  | none => exact List.nodup_nil
  | some type => exact List.pairwise_singleton _ _

variable {attr : List Char × List Char} {attrs : List (List Char × List Char)}

theorem read_document {children : List Char} {nodes : List Node}
    (hopening : Opening service xsiType (attr :: attrs))
    (hchildren : Shows service children nodes) :
    Xml.read (declaration ++ '\n' :: '<' :: (root.val ++ ((attr :: attrs).flatMap (fun a => attributeText a.1 a.2) ++
      '>' :: (children ++ '<' :: '/' :: (root.val ++ ['>']))))) =
      some (.element (service.uri, root.val) (rootAttributes xsiType) nodes) := by
  obtain ⟨lines, hlines, hread⟩ := hchildren
  have hroot := return_notMem_tag (isTagName_of_isNcName root.property)
  have hend : normalizeLineEnds ('<' :: '/' :: (root.val ++ ['>'])) = '<' :: '/' :: (root.val ++ ['>']) := by
    rw [normalizeLineEnds_cons (by decide), normalizeLineEnds_cons (by decide), normalizeLineEnds_append hroot]
    rfl
  unfold Xml.read
  rw [normalizeLineEnds_append (by decide), normalizeLineEnds_cons (by decide), normalizeLineEnds_cons (by decide),
    normalizeLineEnds_append hroot, normalizeLineEnds_append (return_notMem_attributes hopening.read),
    normalizeLineEnds_cons (by decide), hlines, hend]
  dsimp only
  rw [isPrefixOf?_append, Option.getD_some]
  have hblank : ∀ rest, (inside []).run ('\n' :: rest) = (inside []).run rest := fun _ => rfl
  rw [hblank, run_opening attrs hopening.read, run_cons]
  have hstep : (Reader.mk [] none (.afterValue ⟨root.val, attr :: attrs⟩)).step '>' = some (inside
      [⟨root.val, (attr :: attrs).filterMap declares, (service.uri, root.val), rootAttributes xsiType, []⟩]) :=
    hopening.start
  rw [hstep, Option.bind_some]
  rw [@run_closing root ⟨root.val, (attr :: attrs).filterMap declares, (service.uri, root.val), rootAttributes xsiType, []⟩
    lines nodes rfl (hread _ [] hopening.scope)]
  rfl

theorem read_emptyDocument (hopening : Opening service xsiType (attr :: attrs)) :
    Xml.read (declaration ++ '\n' :: '<' :: (root.val ++ ((attr :: attrs).flatMap (fun a => attributeText a.1 a.2) ++
      ['/', '>']))) = some (.element (service.uri, root.val) (rootAttributes xsiType) []) := by
  have hroot := return_notMem_tag (isTagName_of_isNcName root.property)
  unfold Xml.read
  rw [normalizeLineEnds_append (by decide), normalizeLineEnds_cons (by decide), normalizeLineEnds_cons (by decide),
    normalizeLineEnds_append hroot, normalizeLineEnds_append (return_notMem_attributes hopening.read)]
  dsimp only
  rw [isPrefixOf?_append, Option.getD_some]
  have hblank : ∀ rest, (inside []).run ('\n' :: rest) = (inside []).run rest := fun _ => rfl
  rw [hblank, run_opening attrs hopening.read]
  have hstep : (Reader.mk [] none (.emptyTag ⟨root.val, attr :: attrs⟩)).step '>' =
      some ⟨[], some (.element (service.uri, root.val) (rootAttributes xsiType) []), .content⟩ := by
    unfold Reader.step
    dsimp only
    rw [if_pos rfl, hopening.start, Option.bind_some]
    exact if_neg (not_not.mpr rfl)
  have hends : normalizeLineEnds ['/', '>'] = ['/', '>'] := by decide
  have hslash : (Reader.mk [] none (.afterValue ⟨root.val, attr :: attrs⟩)).step '/' =
      some (Reader.mk [] none (.emptyTag ⟨root.val, attr :: attrs⟩)) := rfl
  rw [hends, run_cons, hslash, Option.bind_some, run_cons, hstep]
  rfl

def KitPy.rootAttrs (service : Service) (xsiType : Option PlainText) : List (List Char × List Char) :=
  ("xmlns:common".toList, commonNamespace) :: ((xsiType.elim [] fun _ => [("xmlns:xsi".toList, xsiNamespace)]) ++
    ("xmlns".toList, service.uri) :: xsiType.elim [] fun type => [("xsi:type".toList, type.val)])

def KitRs.rootAttrs (service : Service) (xsiType : Option PlainText) : List (List Char × List Char) :=
  ("xmlns".toList, service.uri) :: ("xmlns:common".toList, commonNamespace) ::
    xsiType.elim [] fun type => [("xmlns:xsi".toList, xsiNamespace), ("xsi:type".toList, type.val)]

theorem isPlain_namespaces : (∀ c ∈ commonNamespace, isPlain c = true) ∧ ∀ c ∈ xsiNamespace, isPlain c = true :=
  ⟨List.all_eq_true.mp (by decide), List.all_eq_true.mp (by decide)⟩

theorem KitPy.opening : Opening service xsiType (KitPy.rootAttrs service xsiType) := by
  obtain ⟨hcommon, hxsi⟩ := isPlain_namespaces
  have hnodup : ((rootAttrs service xsiType).map Prod.fst).Nodup := by
    cases xsiType with
    | none => exact (by decide : ["xmlns:common".toList, "xmlns".toList].Nodup)
    | some type => exact (by decide : ["xmlns:common".toList, "xmlns:xsi".toList, "xmlns".toList, "xsi:type".toList].Nodup)
  cases xsiType with
  | none =>
      refine ⟨?_, ⟨rfl, rfl⟩, rfl, hnodup⟩
      simp only [rootAttrs, Option.elim_none, List.nil_append, List.forall_mem_cons]
      exact ⟨⟨by decide, hcommon⟩, ⟨by decide, service.plain⟩, nofun⟩
  | some type =>
      refine ⟨?_, ⟨rfl, rfl⟩, rfl, hnodup⟩
      simp only [rootAttrs, Option.elim_some, List.cons_append, List.nil_append, List.forall_mem_cons]
      exact ⟨⟨by decide, hcommon⟩, ⟨by decide, hxsi⟩, ⟨by decide, service.plain⟩,
        ⟨by decide, type.property⟩, nofun⟩

theorem KitRs.opening : Opening service xsiType (KitRs.rootAttrs service xsiType) := by
  obtain ⟨hcommon, hxsi⟩ := isPlain_namespaces
  have hnodup : ((rootAttrs service xsiType).map Prod.fst).Nodup := by
    cases xsiType with
    | none => exact (by decide : ["xmlns".toList, "xmlns:common".toList].Nodup)
    | some type => exact (by decide : ["xmlns".toList, "xmlns:common".toList, "xmlns:xsi".toList, "xsi:type".toList].Nodup)
  cases xsiType with
  | none =>
      refine ⟨?_, ⟨rfl, rfl⟩, rfl, hnodup⟩
      simp only [rootAttrs, Option.elim_none, List.forall_mem_cons]
      exact ⟨⟨by decide, service.plain⟩, ⟨by decide, hcommon⟩, nofun⟩
  | some type =>
      refine ⟨?_, ⟨rfl, rfl⟩, rfl, hnodup⟩
      simp only [rootAttrs, Option.elim_some, List.forall_mem_cons]
      exact ⟨⟨by decide, service.plain⟩, ⟨by decide, hcommon⟩, ⟨by decide, hxsi⟩,
        ⟨by decide, type.property⟩, nofun⟩

theorem KitPy.read_document {children : List Char} {nodes : List Node} (hchildren : Shows service children nodes) :
    Xml.read (KitPy.document service root xsiType children) =
      some (.element (service.uri, root.val) (rootAttributes xsiType) nodes) := by
  unfold KitPy.document
  dsimp only
  split_ifs with hempty
  · subst hempty
    rw [hchildren.eq_nil, ← @read_emptyDocument service root xsiType _ _ KitPy.opening]
    cases xsiType <;> simp
  · rw [← Rendering.read_document KitPy.opening hchildren]
    cases xsiType <;> simp

theorem KitRs.escape_plain {text : List Char} (htext : ∀ c ∈ text, isPlain c = true) :
    text.flatMap KitRs.escape = text := by
  induction text with
  | nil => rfl
  | cons c text ih =>
      obtain ⟨hplain, htext⟩ := List.forall_mem_cons.mp htext
      have hne : ∀ d, isPlain d = false → c ≠ d := by
        rintro d hd rfl
        rw [hplain] at hd
        cases hd
      have hsame : KitRs.escape c = [c] := by
        unfold KitRs.escape
        rw [if_neg (hne '<' (by decide)), if_neg (hne '>' (by decide)), if_neg (hne '\'' (by decide)),
          if_neg (hne '&' (by decide)), if_neg (hne '"' (by decide))]
      rw [List.flatMap_cons, hsame, ih htext]
      rfl

theorem KitRs.read_document {children : List Char} {nodes : List Node} (hchildren : Shows service children nodes) :
    Xml.read (KitRs.document service root xsiType children) =
      some (.element (service.uri, root.val) (rootAttributes xsiType) nodes) := by
  rw [← Rendering.read_document KitRs.opening hchildren]
  unfold KitRs.document
  rw [KitRs.escape_plain service.plain]
  cases xsiType with
  | none => simp
  | some type => simp [KitRs.escape_plain type.property]

end Documents

/-! ### Replies -/

mutual

/-- A Rust string can hold every string of the value. -/
def Value.Utf8 : Value → Prop
  | .null => True
  | .list items => items.Utf8
  | .object members => members.Utf8
  | .scalar scalar => ∀ point ∈ KitPy.text scalar, point.char?.isSome = true

def Items.Utf8 : Items → Prop
  | .nil => True
  | .cons item rest => item.Utf8 ∧ rest.Utf8

def Members.Utf8 : Members → Prop
  | .nil => True
  | .cons key value rest => (∀ point ∈ key, point.char?.isSome = true) ∧ value.Utf8 ∧ rest.Utf8

end

namespace Reply

def root : Reply → Name
  | .representation root _ _ | .collection root _ _ | .page root _ _ _ _ _ => root

def xsiType : Reply → Option PlainText
  | .representation _ xsiType _ => xsiType
  | _ => none

/-- What comes of the service's data. -/
def data : Reply → Members
  | .representation _ _ data => data
  | .collection _ item items | .page _ item items _ _ _ => itemMembers item items

def info (requestSize : ℤ) : Reply → Value
  | .page _ _ _ index total size => .object (pageInfo index total (size.getD requestSize))
  | _ => .null

end Reply

section Replies

variable {service : Service} {requestSize : ℤ}

theorem text_eq (scalar : Scalar) : KitRs.text scalar = KitPy.text scalar := by cases scalar <;> rfl

theorem mem_chars {text : Text} {c : Char} : c ∈ chars text ↔ CodePoint.char c ∈ text := by
  unfold chars
  rw [List.mem_filterMap]
  constructor
  · rintro ⟨point, hpoint, hc⟩
    cases point with
    | char d =>
        obtain rfl := Option.some.inj hc
        exact hpoint
    | surrogate n => cases hc
  · exact fun h => ⟨.char c, h, rfl⟩

theorem shown_eq_iff {scalar : Scalar} (h : IsXmlText scalar) :
    KitPy.shown scalar = KitRs.shown scalar ↔ NoReturn scalar := by
  have hsafe : ∀ text : Text, text.all KitPy.isXmlChar = true → KitRs.xmlSafe text = chars text := by
    intro text htext
    induction text with
    | nil => rfl
    | cons point text ih =>
        rw [List.all_cons, Bool.and_eq_true] at htext
        cases point with
        | char c =>
            have hc : isChar c = true := htext.1
            rw [KitRs.xmlSafe, List.map_cons, ← KitRs.xmlSafe, ih htext.2]
            simp only [hc, if_true]
            rfl
        | surrogate n => exact absurd htext.1 Bool.false_ne_true
  unfold KitPy.shown KitRs.shown NoReturn
  rw [text_eq, hsafe _ h, eq_comm, normalizeLineEnds_eq_self_iff, mem_chars]

theorem info_written (reply : Reply) : (reply.info requestSize).Written IsName IsXmlText (ascii "PageInfo") ∧
    (reply.info requestSize).Written (fun _ => True) NoReturn (ascii "PageInfo") := by
  have hint : ∀ n : ℤ, IsXmlText (.int n) ∧ NoReturn (.int n) := by
    intro n
    have hchars : ∀ c ∈ intText n, isChar c = true ∧ c ≠ '\r' := by
      intro c hc
      rcases isIntChar_of_mem hc with hdigit | rfl
      · unfold Char.isDigit at hdigit
        rw [Bool.and_eq_true, decide_eq_true_eq, decide_eq_true_eq] at hdigit
        have hlow : 48 ≤ c.toNat := hdigit.1
        have hhigh : c.toNat ≤ 57 := hdigit.2
        refine ⟨?_, ?_⟩
        · unfold isChar
          simp only [Bool.or_eq_true, Bool.and_eq_true, decide_eq_true_eq]
          exact .inl (.inr ⟨by omega, by omega⟩)
        · rintro rfl
          exact absurd hlow (by decide)
      · decide
    refine ⟨?_, ?_⟩
    · refine List.all_eq_true.mpr fun point hpoint => ?_
      obtain ⟨c, hc, rfl⟩ := List.mem_map.mp hpoint
      exact (hchars c hc).1
    · intro h
      obtain ⟨c, hc, heq⟩ := List.mem_map.mp h
      exact (hchars c hc).2 (CodePoint.char.inj heq)
  have hname : ∀ text ∈ ["PageInfo", "page", "size", "total"], IsName (ascii text) := by
    unfold IsName
    decide
  cases reply with
  | representation root xsiType data => exact ⟨trivial, trivial⟩
  | collection root item items => exact ⟨trivial, trivial⟩
  | page root item items page total size =>
      simp only [Reply.info, pageInfo, Value.Written, Members.Written]
      exact ⟨⟨hname _ (by decide), ⟨hname _ (by decide), (hint _).1⟩, ⟨hname _ (by decide), (hint _).1⟩,
        ⟨hname _ (by decide), (hint _).1⟩, trivial⟩, trivial, ⟨trivial, (hint _).2⟩, ⟨trivial, (hint _).2⟩,
        ⟨trivial, (hint _).2⟩, trivial⟩

theorem KitPy.render_shows (reply : Reply) {written : List Char}
    (h : KitPy.render service requestSize reply = some written) : reply.data.Written IsName IsXmlText ∧
      Xml.read written = some (.element (service.uri, reply.root.val) (rootAttributes reply.xsiType)
        (memberNodes KitPy.shown service.uri reply.data ++
          nodes KitPy.shown commonNamespace (ascii "PageInfo") (reply.info requestSize))) := by
  cases reply with
  | representation root xsiType data =>
      obtain ⟨children, hchildren, hdocument⟩ := Option.bind_eq_some_iff.mp h
      obtain rfl := Option.some.inj hdocument
      obtain ⟨hwritten, hshows⟩ := KitPy.appendMembers_shows (.inl rfl) data hchildren
      refine ⟨hwritten, (KitPy.read_document hshows).trans ?_⟩
      simp only [Reply.info, nodes, List.append_nil]
      rfl
  | collection root item items =>
      obtain ⟨children, hchildren, hdocument⟩ := Option.bind_eq_some_iff.mp h
      obtain rfl := Option.some.inj hdocument
      obtain ⟨hwritten, hshows⟩ := KitPy.appendMembers_shows (.inl rfl) (itemMembers item items) hchildren
      refine ⟨hwritten, (KitPy.read_document hshows).trans ?_⟩
      simp only [Reply.info, nodes, List.append_nil]
      rfl
  | page root item items page total size =>
      obtain ⟨children, hchildren, h⟩ := Option.bind_eq_some_iff.mp h
      obtain ⟨info, hinfo, hdocument⟩ := Option.bind_eq_some_iff.mp h
      obtain rfl := Option.some.inj hdocument
      obtain ⟨hwritten, hshows⟩ := KitPy.appendMembers_shows (.inl rfl) (itemMembers item items) hchildren
      obtain ⟨-, hshows'⟩ := KitPy.append_shows (.inr rfl) _ _ hinfo
      exact ⟨hwritten, KitPy.read_document (hshows.append hshows')⟩

theorem KitPy.render_isSome (reply : Reply) (h : reply.data.Written IsName IsXmlText) :
    ∃ written, KitPy.render service requestSize reply = some written := by
  obtain ⟨children, hchildren⟩ := @KitPy.appendMembers_isSome service service.uri reply.data h
  cases reply with
  | representation root xsiType data =>
      have hdata : KitPy.appendMembers service service.uri data = some children := hchildren
      rw [KitPy.render, hdata]
      exact ⟨_, rfl⟩
  | collection root item items =>
      have hdata : KitPy.appendMembers service service.uri (itemMembers item items) = some children := hchildren
      rw [KitPy.render, hdata]
      exact ⟨_, rfl⟩
  | page root item items page total size =>
      have hdata : KitPy.appendMembers service service.uri (itemMembers item items) = some children := hchildren
      obtain ⟨info, hinfo⟩ := @KitPy.append_isSome service commonNamespace (ascii "PageInfo") _
        (@info_written requestSize (.page root item items page total size)).1
      have hinfo' : KitPy.append service commonNamespace (ascii "PageInfo")
          (.object (pageInfo page total (size.getD requestSize))) = some info := hinfo
      rw [KitPy.render, hdata, hinfo']
      exact ⟨_, rfl⟩

theorem KitRs.render_shows {Q : Scalar → Prop} (reply : Reply) (h : reply.data.Written IsName Q) :
    Xml.read (KitRs.render service requestSize reply) =
      some (.element (service.uri, reply.root.val) (rootAttributes reply.xsiType)
        (memberNodes KitRs.shown service.uri reply.data ++
          nodes KitRs.shown commonNamespace (ascii "PageInfo") (reply.info requestSize))) := by
  have hshows := @KitRs.appendMembers_shows service Q service.uri (.inl rfl) reply.data h
  cases reply with
  | representation root xsiType data =>
      refine (KitRs.read_document hshows).trans ?_
      simp only [Reply.info, nodes, List.append_nil]
      rfl
  | collection root item items =>
      refine (KitRs.read_document hshows).trans ?_
      simp only [Reply.info, nodes, List.append_nil]
      rfl
  | page root item items page total size =>
      exact KitRs.read_document (hshows.append (KitRs.append_shows (.inr rfl) _ _
        (@info_written requestSize (.page root item items page total size)).1))

/-- **Replies that both kits serve.** kit-py renders a reply, and it and kit-rs, where Rust can hold the
reply, are read as one document, exactly when every member name that is written is a name in XML, every string
that is written has XML's characters alone and, where Rust can hold the reply, no carriage return. -/
theorem render_alike_iff (service : Service) (requestSize : ℤ) (reply : Reply) :
    (∃ written node, KitPy.render service requestSize reply = some written ∧ Xml.read written = some node ∧
        (reply.data.Utf8 → Xml.read (KitRs.render service requestSize reply) = some node)) ↔
      reply.data.Written IsName IsXmlText ∧ (reply.data.Utf8 → reply.data.Written (fun _ => True) NoReturn) := by
  have hinfo : nodes KitPy.shown commonNamespace (ascii "PageInfo") (reply.info requestSize) =
      nodes KitRs.shown commonNamespace (ascii "PageInfo") (reply.info requestSize) :=
    (nodes_eq_iff (fun _ => shown_eq_iff) _ _ _ (info_written reply).1).mpr (info_written reply).2
  constructor
  · rintro ⟨written, node, hrender, hread, hsame⟩
    obtain ⟨hwritten, hshows⟩ := KitPy.render_shows reply hrender
    refine ⟨hwritten, fun hutf8 => ?_⟩
    have hboth := (hsame hutf8).symm.trans (KitRs.render_shows reply hwritten)
    rw [← hread, hshows, hinfo] at hboth
    refine (memberNodes_eq_iff (fun _ => shown_eq_iff) service.uri _ hwritten).mp ?_
    exact List.append_cancel_right (Node.element.inj (Option.some.inj hboth)).2.2
  · rintro ⟨hwritten, hreturn⟩
    obtain ⟨written, hrender⟩ := @KitPy.render_isSome service requestSize reply hwritten
    refine ⟨written, _, hrender, (KitPy.render_shows reply hrender).2, fun hutf8 => ?_⟩
    rw [KitRs.render_shows reply hwritten, hinfo,
      (memberNodes_eq_iff (fun _ => shown_eq_iff) service.uri _ hwritten).mpr (hreturn hutf8)]

end Replies

/-! ### A note -/

def noteService : Service where
  uri := "urn:notes".toList
  plain := List.all_eq_true.mp (by decide)
  own := by decide

def note (c : Char) : Reply :=
  .representation ⟨"Note".toList, by decide⟩ none (.cons (ascii "text") (.scalar (.text [.char c])) .nil)

theorem note_written {c : Char} (hc : isChar c = true) : (note c).data.Written IsName IsXmlText := by
  simp only [note, Reply.data, Members.Written, Value.Written, IsXmlText, KitPy.text]
  refine ⟨⟨(by unfold IsName; decide : IsName (ascii "text")), ?_⟩, trivial⟩
  rw [List.all_cons, Bool.and_eq_true]
  exact ⟨hc, rfl⟩

/-- kit-py raises for a bell; a carriage return is read back from kit-py's document and a line feed from
kit-rs's. -/
theorem render_controls :
    KitPy.render noteService 20 (note (Char.ofNat 7)) = none ∧
    ∃ written node node', KitPy.render noteService 20 (note '\r') = some written ∧ Xml.read written = some node ∧
      Xml.read (KitRs.render noteService 20 (note '\r')) = some node' ∧ node ≠ node' := by
  refine ⟨by decide, ?_⟩
  have hwritten := note_written (c := '\r') (by decide)
  obtain ⟨written, hrender⟩ := @KitPy.render_isSome noteService 20 (note '\r') hwritten
  refine ⟨written, _, _, hrender, (KitPy.render_shows _ hrender).2, KitRs.render_shows _ hwritten, fun h => ?_⟩
  have hnodes := List.append_cancel_right (Node.element.inj h).2.2
  have hreturn := (memberNodes_eq_iff (fun _ => shown_eq_iff) _ _ hwritten).mp hnodes
  simp only [note, Reply.data, Members.Written, Value.Written, NoReturn, KitPy.text] at hreturn
  exact hreturn.1.2 List.mem_cons_self

end RetailSegmentation.Rendering
