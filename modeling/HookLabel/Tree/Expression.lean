import HookLabel.Tree.Basic

/-!
# Expressions

What labelling asks of an expression: what it is under its parentheses, which identifier it
assigns to, which name it calls, and whose element it reads.
-/

namespace HookLabel

namespace Kind

/-- The expressions around an identifier that leave it an assignment to that identifier:
parentheses and type annotations. -/
def isTransparent : Kind → Bool
  | parenthesisExpression | tsAsExpression | tsSatisfiesExpression | tsNonNullExpression
  | tsTypeAssertion => true
  | _ => false

end Kind

namespace Tree

/-! ### Parentheses -/

/-- The expression under all parentheses. -/
def unparenthesized : Tree → Tree
  | node .parenthesisExpression fs => (field "expression" fs).unparenthesized
  | t => t
termination_by t => t
decreasing_by exact sizeOf_field_lt ..

/-- Changes the expression under all parentheses and leaves the parentheses. -/
def mapUnparenthesized (f : Tree → Tree) : Tree → Tree
  | node .parenthesisExpression fs =>
    node .parenthesisExpression
      (setField "expression" ((field "expression" fs).mapUnparenthesized f) fs)
  | t => f t
termination_by t => t
decreasing_by exact sizeOf_field_lt ..

/-- Parentheses are looked through. -/
theorem unparenthesized_paren (fs : Fields) :
    (node .parenthesisExpression fs).unparenthesized = (field "expression" fs).unparenthesized := by
  rw [unparenthesized]

/-- Changing nothing under the parentheses changes nothing. -/
theorem mapUnparenthesized_id (t : Tree) : t.mapUnparenthesized id = t := by
  fun_induction mapUnparenthesized id t with
  | case1 fs ih => rw [ih, setField_field]
  | case2 t => rfl

/-! ### Assigned, called and read identifiers -/

/-- The identifier that an assignment to the expression assigns: `x`, `(x)`, `x as T` and `x!` all
assign to `x`. -/
def assigned? : Tree → Option Ident
  | node .identifier fs => some (.ofFields fs)
  | node kind fs => if kind.isTransparent then (field "expression" fs).assigned? else none
  | _ => none
termination_by t => t
decreasing_by exact sizeOf_field_lt ..

/-- The identifier that a call calls by its bare name. -/
def callee? : Tree → Option Ident
  | node .callExpression fs => (field "callee" fs).ident?
  | _ => none

/-- Whether a tree is a number written out. -/
def isNumericLiteral : Tree → Bool
  | node .numericLiteral _ => true
  | _ => false

/-- The identifier `x` of an expression `x[0]` that reads an element at a number written out. -/
def elementOf? : Tree → Option Ident
  | node .memberExpression fs =>
    match field "property" fs with
    | node .computed ps =>
      if (field "expression" ps).isNumericLiteral then (field "object" fs).ident? else none
    | _ => none
  | _ => none

end Tree

end HookLabel
