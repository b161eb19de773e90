import HookLabel.Labelling.Basic
import HookLabel.Proofs.Traversal

/-!
# Owned calls

The declarative counterpart of the labelling walk.  `Tree.ownedCalls` lists the calls by a bare
name that stand, under parentheses, where a node of the tree owns an expression, each with the
binding context of its value.  `Tree.wrapOwned` wraps each of them in helper calls with the labels
that a rule gives it.  Every choice is made on the tree as it is given: a node is made anew from
its rebuilt fields, but which of them are wrapped, and with which labels, is read off the fields
as they were.

Where a node owns an expression is laid down here, apart from the labeller: a variable declaration
owns the initialisers of its declarators, and for the other kinds `Kind.slot?` gives the field and
`slotContext` the binding context.  `ownedValue?_eq` says that the labeller chooses the same.

The lemmas say what wrapping makes of the call in a slot, and which field of a node is changed.
-/

namespace HookLabel

/-- A call by a bare name whose value a node binds: the name that is called, and the binding
context of the value. -/
structure OwnedCall where
  callee : Ident
  context : BindingContext
deriving DecidableEq, Repr

/-- The field in which a node of the kind owns a single expression: the value that is assigned, run
over or taken by default. -/
def Kind.slot? : Kind → Option String
  | assignmentExpression | forOfStatement | forInStatement | assignmentPattern => some "right"
  | assignmentPatternProperty => some "value"
  | _ => none

namespace Tree

/-! ### The calls that a tree owns -/

/-- The owned call that an expression is under its parentheses, if it stands in the given
binding context. -/
def ownedCall? (context : BindingContext) (t : Tree) : Option OwnedCall :=
  t.unparenthesized.callee?.map fun x => ⟨x, context⟩

/-- The owned calls among the initialisers of the declarators of one declaration. -/
def initCalls : List Tree → List OwnedCall
  | [] => []
  | d :: ds =>
    ((d.get "init").ownedCall? (.ofDeclarator d.declarator (ds.map declarator))).toList ++
      initCalls ds

/-- The binding context of what a node owns in its slot, read off what stands beside the slot. -/
def slotContext (kind : Kind) (fs : Fields) : BindingContext :=
  match kind with
  | .assignmentExpression => .ofAssignTarget (field "left" fs).pattern
  | .forOfStatement | .forInStatement => .ofForHead (field "left" fs).forHead
  | .assignmentPattern => .ofPattern (field "left" fs).pattern
  | .assignmentPatternProperty => .simple (Ident.ofFields (field "key" fs).fields).name
  | _ => .unbound

/-- The calls that a node itself owns. -/
def slotCalls (kind : Kind) (fs : Fields) : List OwnedCall :=
  match kind with
  | .variableDeclaration => initCalls (field "declarations" fs).items
  | kind =>
    match kind.slot? with
    | some name => ((field name fs).ownedCall? (slotContext kind fs)).toList
    | none => []

mutual

/-- The owned calls of a tree, a node's own before those below it. -/
def ownedCalls : Tree → List OwnedCall
  | node kind fs => slotCalls kind fs ++ ownedCallsOfFields fs
  | list ts => ownedCallsOfList ts
  | _ => []

/-- The owned calls of the trees of a list, from left to right. -/
def ownedCallsOfList : List Tree → List OwnedCall
  | [] => []
  | t :: ts => t.ownedCalls ++ ownedCallsOfList ts

/-- The owned calls of the fields of a node. -/
def ownedCallsOfFields : List (String × Tree) → List OwnedCall
  | [] => []
  | (_, t) :: fs => t.ownedCalls ++ ownedCallsOfFields fs

end

/-! ### Wrapping them -/

/-- Wraps the call by a bare name that an expression is under all parentheses, if it is one. -/
def wrapCall (wrapper label : String) : Tree → Tree :=
  mapUnparenthesized fun t => if t.callee?.isSome then wrapperCall wrapper label t else t

/-- Wraps a call once for each label, the first one innermost. -/
def wrapCalls (wrapper : String) (labels : List String) (t : Tree) : Tree :=
  labels.foldl (fun t label => t.wrapCall wrapper label) t

/-- Changes the items of a list. -/
def mapItems (f : List Tree → List Tree) : Tree → Tree
  | list ts => list (f ts)
  | t => t

/-- Changes the initialiser of a declarator. -/
def modifyInit (f : Tree → Tree) : Tree → Tree
  | node kind fs => node kind (modifyField "init" f fs)
  | t => t

section Rule

variable (wrapper : String) (rule : OwnedCall → List String)

/-- The labels that a rule gives an expression in the given binding context. -/
def labelsOf (context : BindingContext) (t : Tree) : List String :=
  ((t.ownedCall? context).map rule).getD []

/-- Wraps the initialisers of the declarators `es`, by what the declarators were before. -/
def wrapInits : (before es : List Tree) → List Tree
  | d :: ds, e :: es =>
    e.modifyInit (wrapCalls wrapper
        (labelsOf rule (.ofDeclarator d.declarator (ds.map declarator)) (d.get "init"))) ::
      wrapInits ds es
  | _, es => es

/-- The field of a node that holds what the node owns, and what a rule does to it. -/
def slotEdit (kind : Kind) (fs : Fields) : Option (String × (Tree → Tree)) :=
  match kind with
  | .variableDeclaration =>
    some ("declarations", mapItems (wrapInits wrapper rule (field "declarations" fs).items))
  | kind =>
    kind.slot?.map fun name =>
      (name, wrapCalls wrapper (labelsOf rule (slotContext kind fs) (field name fs)))

/-- Wraps what a node owns in what has become of its fields, by what they were before. -/
def wrapSlots (kind : Kind) (before fs : Fields) : Fields :=
  match slotEdit wrapper rule kind before with
  | some (name, edit) => modifyField name edit fs
  | none => fs

/-- Wraps every owned call of a tree with the labels that the rule gives it. -/
def wrapOwned : Tree → Tree :=
  rebuild fun kind before fs => node kind (wrapSlots wrapper rule kind before fs)

end Rule

/-! ### Wrapping a call -/

/-- What stands in parentheses is wrapped inside them. -/
lemma wrapCall_paren (wrapper label : String) (fs : Fields) :
    (node .parenthesisExpression fs).wrapCall wrapper label =
      node .parenthesisExpression (modifyField "expression" (wrapCall wrapper label) fs) := by
  rw [wrapCall, mapUnparenthesized]
  rfl

/-- Outside parentheses a call of a bare name is wrapped itself, and nothing else. -/
lemma wrapCall_of_ne_paren (wrapper label : String) {t : Tree}
    (h : ∀ fs, t ≠ node .parenthesisExpression fs) :
    t.wrapCall wrapper label = if t.callee?.isSome then wrapperCall wrapper label t else t := by
  rw [wrapCall, mapUnparenthesized]
  exact h

/-- Only a parenthesis has something under it. -/
lemma unparenthesized_of_ne_paren {t : Tree} (h : ∀ fs, t ≠ node .parenthesisExpression fs) :
    t.unparenthesized = t := by
  rw [unparenthesized]
  exact h

/-- An absent expression stays absent. -/
@[simp] lemma wrapCall_null (wrapper label : String) : null.wrapCall wrapper label = null :=
  wrapCall_of_ne_paren wrapper label nofun

/-- An absent part stays absent. -/
@[simp] lemma wrapCalls_null (wrapper : String) (labels : List String) :
    null.wrapCalls wrapper labels = null := by
  induction labels with
  | nil => rfl
  | cons label labels ih => rwa [wrapCalls, List.foldl_cons, wrapCall_null]

/-- Several labels are put around a call one after the other. -/
lemma wrapCalls_append (wrapper : String) (labels more : List String) (t : Tree) :
    t.wrapCalls wrapper (labels ++ more) = (t.wrapCalls wrapper labels).wrapCalls wrapper more :=
  List.foldl_append

/-- An absent part is no call. -/
lemma ownedCall?_null (context : BindingContext) : null.ownedCall? context = none := by
  have h : null.unparenthesized = null := unparenthesized_of_ne_paren nofun
  rw [ownedCall?, h]
  rfl

/-- Where there is a call by a bare name, wrapping it is what labelling does to an expression. -/
lemma wrapCall_eq_wrap (wrapper label : String) {t : Tree}
    (h : t.unparenthesized.callee?.isSome) : t.wrapCall wrapper label = t.wrap wrapper label := by
  unfold wrap
  fun_induction unparenthesized t with
  | case1 fs ih =>
    rw [wrapCall_paren, mapUnparenthesized, modifyField, ih h]
  | case2 t ht =>
    rw [wrapCall_of_ne_paren wrapper label ht, if_pos h, mapUnparenthesized]
    exact ht

/-- Under its parentheses a wrapped call is a helper call. -/
lemma unparenthesized_wrapCall (wrapper label : String) (t : Tree) :
    (t.wrapCall wrapper label).unparenthesized =
      if t.unparenthesized.callee?.isSome then wrapperCall wrapper label t.unparenthesized
      else t.unparenthesized := by
  fun_induction unparenthesized t with
  | case1 fs ih =>
    rw [wrapCall_paren, unparenthesized_paren, field_modifyField (wrapCall_null ..), ih]
  | case2 t ht =>
    rw [wrapCall_of_ne_paren wrapper label ht]
    split
    · exact unparenthesized_of_ne_paren nofun
    · exact unparenthesized_of_ne_paren ht

/-- A wrapped call calls the helper; what was no call by a bare name still is none. -/
lemma ownedCall?_wrapCall (context : BindingContext) (wrapper label : String) (t : Tree) :
    (t.wrapCall wrapper label).ownedCall? context =
      (t.ownedCall? context).map fun c => { c with callee := ⟨wrapper, 0⟩ } := by
  unfold ownedCall?
  rw [unparenthesized_wrapCall]
  cases h : t.unparenthesized.callee? with
  | none => simp [h]
  | some x => simp

/-- What the labels of a rule make of an owned call: if there are any, it calls the helper. -/
lemma ownedCall?_wrapCalls (context : BindingContext) (wrapper : String) (labels : List String)
    (t : Tree) :
    (t.wrapCalls wrapper labels).ownedCall? context =
      (t.ownedCall? context).map fun c =>
        if labels = [] then c else { c with callee := ⟨wrapper, 0⟩ } := by
  induction labels generalizing t with
  | nil => simp [wrapCalls]
  | cons label labels ih =>
    rw [wrapCalls, List.foldl_cons, ← wrapCalls, ih, ownedCall?_wrapCall, Option.map_map]
    refine Option.map_congr fun c _ => ?_
    by_cases h : labels = [] <;> simp [h]

/-! ### The slots of a node -/

/-- The labeller looks for the value that a node owns where the slot of its kind is, and in the
binding context of that slot. -/
theorem ownedValue?_eq (kind : Kind) (fs : Fields) :
    ownedValue? kind fs = kind.slot?.map fun name => (name, slotContext kind fs) := by
  cases kind <;> rfl

/-- Other owners than declarations are edited in one slot. -/
lemma slotEdit_of_ne_declaration (wrapper : String) (rule : OwnedCall → List String) {kind : Kind}
    (h : kind ≠ .variableDeclaration) (fs : Fields) :
    slotEdit wrapper rule kind fs =
      kind.slot?.map fun name =>
        (name, wrapCalls wrapper (labelsOf rule (slotContext kind fs) (field name fs))) := by
  rw [slotEdit]
  exact h

/-- Other owners than declarations own the call in one slot. -/
lemma slotCalls_of_ne_declaration {kind : Kind} (h : kind ≠ .variableDeclaration) (fs : Fields) :
    slotCalls kind fs =
      match kind.slot? with
      | some name => ((field name fs).ownedCall? (slotContext kind fs)).toList
      | none => [] := by
  rw [slotCalls]
  exact h

/-- An edit is that of a variable declaration, or that of the one slot of a node. -/
lemma slotEdit_cases {wrapper : String} {rule : OwnedCall → List String} {kind : Kind}
    {fs : Fields} {name : String} {edit : Tree → Tree}
    (h : slotEdit wrapper rule kind fs = some (name, edit)) :
    (kind = .variableDeclaration ∧ name = "declarations" ∧
      edit = mapItems (wrapInits wrapper rule (field "declarations" fs).items)) ∨
    kind.slot? = some name ∧
      edit = wrapCalls wrapper (labelsOf rule (slotContext kind fs) (field name fs)) := by
  unfold slotEdit at h
  split at h
  · simp only [Option.some.injEq, Prod.mk.injEq] at h
    exact .inl ⟨rfl, h.1.symm, h.2.symm⟩
  · obtain ⟨slot, hslot, he⟩ := Option.map_eq_some_iff.mp h
    simp only [Prod.mk.injEq] at he
    obtain ⟨rfl, rfl⟩ := he
    exact .inr ⟨hslot, rfl⟩

/-- A kind of node that owns no expression has no slot. -/
lemma slot?_eq_none {kind : Kind} (h : kind.isOwner = false) : kind.slot? = none := by
  cases kind <;> first | rfl | cases h

/-- A node that is no owner is not edited. -/
lemma slotEdit_eq_none {kind : Kind} (h : kind.isOwner = false) (wrapper : String)
    (rule : OwnedCall → List String) (fs : Fields) : slotEdit wrapper rule kind fs = none := by
  unfold slotEdit
  split
  · simp [Kind.isOwner] at h
  · rw [slot?_eq_none h, Option.map_none]

/-- A node that is no owner stays as it is. -/
lemma wrapSlots_of_not_isOwner {kind : Kind} (h : kind.isOwner = false) (wrapper : String)
    (rule : OwnedCall → List String) (before fs : Fields) :
    wrapSlots wrapper rule kind before fs = fs := by
  rw [wrapSlots, slotEdit_eq_none h]

/-- An edit leaves an absent field absent. -/
lemma slotEdit_null {wrapper : String} {rule : OwnedCall → List String} {kind : Kind}
    {fs : Fields} {name : String} {edit : Tree → Tree}
    (h : slotEdit wrapper rule kind fs = some (name, edit)) : edit null = null := by
  rcases slotEdit_cases h with ⟨-, -, rfl⟩ | ⟨-, rfl⟩
  · rfl
  · exact wrapCalls_null ..

/-- The names of the fields that hold what a node owns. -/
def slotNames : List String := ["declarations", "right", "value"]

/-- The slot of a kind is among the slots. -/
lemma slot?_mem_slotNames {kind : Kind} {name : String} (h : kind.slot? = some name) :
    name ∈ slotNames := by
  unfold Kind.slot? at h
  split at h <;> simp_all [slotNames]

/-- A node is edited in one of the slots. -/
lemma slotEdit_name_mem {wrapper : String} {rule : OwnedCall → List String} {kind : Kind}
    {fs : Fields} {name : String} {edit : Tree → Tree}
    (h : slotEdit wrapper rule kind fs = some (name, edit)) : name ∈ slotNames := by
  rcases slotEdit_cases h with ⟨-, rfl, -⟩ | ⟨hslot, -⟩
  · decide
  · exact slot?_mem_slotNames hslot

end Tree

end HookLabel
