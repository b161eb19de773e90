import HookLabel.Binding

/-!
# Owners of a value

Some nodes hold an expression whose value they bind: they own that expression. `ownedValue?` says
which field of a node is owned and in which binding context it stands; the initialisers of a
variable declaration are owned as well, but their contexts depend on the declarators beside them.
`Tree.owners` counts the owners of a tree.
-/

namespace HookLabel

/-- Whether nodes of a kind own an expression. -/
def Kind.isOwner : Kind → Bool
  | variableDeclaration | assignmentExpression | forOfStatement | forInStatement
  | assignmentPattern | assignmentPatternProperty => true
  | _ => false

/-- The owned field of a node that owns a single expression, with the binding context of its
value. -/
def ownedValue? (kind : Kind) (fs : Fields) : Option (String × BindingContext) :=
  match kind with
  | .assignmentExpression => some ("right", .ofAssignTarget (field "left" fs).pattern)
  | .forOfStatement => some ("right", .ofForHead (field "left" fs).forHead)
  | .forInStatement => some ("right", .ofForHead (field "left" fs).forHead)
  | .assignmentPattern => some ("right", .ofPattern (field "left" fs).pattern)
  | .assignmentPatternProperty =>
    some ("value", .simple (Ident.ofFields (field "key" fs).fields).name)
  | _ => none

/-- A node that is no owner owns no expression. -/
theorem ownedValue?_eq_none {kind : Kind} (h : kind.isOwner = false) (fs : Fields) :
    ownedValue? kind fs = none := by
  unfold ownedValue?
  split <;> first | rfl | simp [Kind.isOwner] at h

/-! ### Counting owners -/

namespace Tree

mutual

/-- The number of nodes of a tree that own an expression. -/
def owners : Tree → Nat
  | node kind fs => (if kind.isOwner then 1 else 0) + ownersOfFields fs
  | list ts => ownersOfList ts
  | _ => 0

/-- The number of owners in the trees of a list. -/
def ownersOfList : List Tree → Nat
  | [] => 0
  | t :: ts => t.owners + ownersOfList ts

/-- The number of owners in the fields of a node. -/
def ownersOfFields : List (String × Tree) → Nat
  | [] => 0
  | (_, t) :: fs => t.owners + ownersOfFields fs

end

/-- Replacing a field by a tree with as many owners changes no count. -/
theorem ownersOfFields_setField {name : String} {new : Tree} {fs : Fields}
    (h : new.owners = (field name fs).owners) :
    ownersOfFields (setField name new fs) = ownersOfFields fs := by
  induction fs with
  | nil => rfl
  | cons f fs ih =>
    obtain ⟨n, t⟩ := f
    by_cases hn : n = name
    · simp only [field, if_pos hn] at h
      simp only [setField, if_pos hn, ownersOfFields, h]
    · simp only [field, if_neg hn] at h
      simp only [setField, if_neg hn, ownersOfFields, ih h]

/-- What stands under parentheses may be replaced by a tree with as many owners. -/
theorem owners_mapUnparenthesized {f : Tree → Tree} (h : ∀ t, (f t).owners = t.owners) (t : Tree) :
    (t.mapUnparenthesized f).owners = t.owners := by
  fun_induction mapUnparenthesized f t with
  | case1 fs ih => simp only [owners, ownersOfFields_setField ih]
  | case2 t => exact h t

end Tree

end HookLabel
