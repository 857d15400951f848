import Mathlib.Tactic.Common

/-! Trees of arrays and of objects with named members, without the members of secret names. -/

inductive RedactedTree (K S : Type*) where
  | scalar (scalar : S)
  | array (items : List (RedactedTree K S))
  | object (members : List (K × RedactedTree K S))

namespace RedactedTree

variable {K S : Type*} (secret : K → Bool)

mutual

/-- The tree without its secret members, at any depth. -/
def strip : RedactedTree K S → RedactedTree K S
  | .scalar s => .scalar s
  | .array items => .array (stripItems items)
  | .object members => .object (stripMembers members)

def stripItems : List (RedactedTree K S) → List (RedactedTree K S)
  | [] => []
  | item :: rest => strip item :: stripItems rest

def stripMembers : List (K × RedactedTree K S) → List (K × RedactedTree K S)
  | [] => []
  | (key, value) :: rest => if secret key then stripMembers rest else (key, strip value) :: stripMembers rest

end

mutual

/-- The trees differ in the values of secret members, and in which of them there are, at most. -/
inductive SameElse : RedactedTree K S → RedactedTree K S → Prop
  | scalar (scalar : S) : SameElse (.scalar scalar) (.scalar scalar)
  | array {items items' : List (RedactedTree K S)} (h : SameItems items items') :
    SameElse (.array items) (.array items')
  | object {members members' : List (K × RedactedTree K S)} (h : SameMembers members members') :
    SameElse (.object members) (.object members')

inductive SameItems : List (RedactedTree K S) → List (RedactedTree K S) → Prop
  | nil : SameItems [] []
  | cons {item item' : RedactedTree K S} {rest rest' : List (RedactedTree K S)} (h : SameElse item item')
    (hrest : SameItems rest rest') : SameItems (item :: rest) (item' :: rest')

inductive SameMembers : List (K × RedactedTree K S) → List (K × RedactedTree K S) → Prop
  | nil : SameMembers [] []
  | kept (key : K) {value value' : RedactedTree K S} {rest rest' : List (K × RedactedTree K S)}
    (h : SameElse value value') (hrest : SameMembers rest rest') :
    SameMembers ((key, value) :: rest) ((key, value') :: rest')
  | left {key : K} (hkey : secret key = true) (value : RedactedTree K S)
    {rest members : List (K × RedactedTree K S)} (hrest : SameMembers rest members) :
    SameMembers ((key, value) :: rest) members
  | right {key : K} (hkey : secret key = true) (value : RedactedTree K S)
    {members rest : List (K × RedactedTree K S)} (hrest : SameMembers members rest) :
    SameMembers members ((key, value) :: rest)

end

mutual

/-- No member at any depth is secret. -/
inductive Open : RedactedTree K S → Prop
  | scalar (scalar : S) : Open (.scalar scalar)
  | array {items : List (RedactedTree K S)} (h : OpenItems items) : Open (.array items)
  | object {members : List (K × RedactedTree K S)} (h : OpenMembers members) : Open (.object members)

inductive OpenItems : List (RedactedTree K S) → Prop
  | nil : OpenItems []
  | cons {item : RedactedTree K S} {rest : List (RedactedTree K S)} (h : Open item) (hrest : OpenItems rest) :
    OpenItems (item :: rest)

inductive OpenMembers : List (K × RedactedTree K S) → Prop
  | nil : OpenMembers []
  | cons {key : K} {value : RedactedTree K S} {rest : List (K × RedactedTree K S)} (hkey : secret key = false)
    (h : Open value) (hrest : OpenMembers rest) : OpenMembers ((key, value) :: rest)

end

variable {secret}

/-! ### Stripping -/

theorem stripMembers_secret {key : K} (hkey : secret key = true) (value : RedactedTree K S)
    (rest : List (K × RedactedTree K S)) : stripMembers secret ((key, value) :: rest) = stripMembers secret rest := by
  rw [stripMembers, if_pos hkey]

theorem stripMembers_open {key : K} (hkey : secret key = false) (value : RedactedTree K S)
    (rest : List (K × RedactedTree K S)) :
    stripMembers secret ((key, value) :: rest) = (key, strip secret value) :: stripMembers secret rest := by
  rw [stripMembers, if_neg (by simp [hkey])]

mutual

theorem SameElse.strip_eq {tree tree' : RedactedTree K S} :
    SameElse secret tree tree' → strip secret tree = strip secret tree'
  | .scalar _ => rfl
  | .array h => by rw [strip, strip, h.stripItems_eq]
  | .object h => by rw [strip, strip, h.stripMembers_eq]

theorem SameItems.stripItems_eq {items items' : List (RedactedTree K S)} :
    SameItems secret items items' → stripItems secret items = stripItems secret items'
  | .nil => rfl
  | .cons h hrest => by rw [stripItems, stripItems, h.strip_eq, hrest.stripItems_eq]

theorem SameMembers.stripMembers_eq {members members' : List (K × RedactedTree K S)} :
    SameMembers secret members members' → stripMembers secret members = stripMembers secret members'
  | .nil => rfl
  | .kept key h hrest => by rw [stripMembers, stripMembers, h.strip_eq, hrest.stripMembers_eq]
  | .left hkey value hrest => by rw [stripMembers_secret hkey, hrest.stripMembers_eq]
  | .right hkey value hrest => by rw [stripMembers_secret hkey, hrest.stripMembers_eq]

end

/-! ### What is kept -/

mutual

theorem sameElse_strip : ∀ tree : RedactedTree K S, SameElse secret tree (strip secret tree)
  | .scalar s => .scalar s
  | .array items => .array (sameItems_strip items)
  | .object members => .object (sameMembers_strip members)

theorem sameItems_strip : ∀ items : List (RedactedTree K S), SameItems secret items (stripItems secret items)
  | [] => .nil
  | item :: rest => .cons (sameElse_strip item) (sameItems_strip rest)

theorem sameMembers_strip : ∀ members : List (K × RedactedTree K S),
    SameMembers secret members (stripMembers secret members)
  | [] => .nil
  | (key, value) :: rest => by
    cases hkey : secret key with
    | true =>
      rw [stripMembers_secret hkey]
      exact .left hkey value (sameMembers_strip rest)
    | false =>
      rw [stripMembers_open hkey]
      exact .kept key (sameElse_strip value) (sameMembers_strip rest)

end

mutual

theorem open_strip : ∀ tree : RedactedTree K S, Open secret (strip secret tree)
  | .scalar s => .scalar s
  | .array items => .array (openItems_strip items)
  | .object members => .object (openMembers_strip members)

theorem openItems_strip : ∀ items : List (RedactedTree K S), OpenItems secret (stripItems secret items)
  | [] => .nil
  | item :: rest => .cons (open_strip item) (openItems_strip rest)

theorem openMembers_strip : ∀ members : List (K × RedactedTree K S),
    OpenMembers secret (stripMembers secret members)
  | [] => .nil
  | (key, value) :: rest => by
    cases hkey : secret key with
    | true =>
      rw [stripMembers_secret hkey]
      exact openMembers_strip rest
    | false =>
      rw [stripMembers_open hkey]
      exact .cons hkey (open_strip value) (openMembers_strip rest)

end

end RedactedTree
