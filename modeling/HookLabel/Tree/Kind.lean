/-!
# Kinds of syntax nodes

A syntax tree names the type of each node. The kinds that labelling looks at have constructors of
their own, and every other type name is kept as it is, so that no node is ever refused.
-/

namespace HookLabel

/-- The kind of a syntax node. -/
inductive Kind where
  | identifier
  | importDeclaration
  | importSpecifier
  | importDefaultSpecifier
  | importNamespaceSpecifier
  | variableDeclaration
  | usingDeclaration
  | assignmentExpression
  | forOfStatement
  | forInStatement
  | assignmentPattern
  | assignmentPatternProperty
  | keyValuePatternProperty
  | arrayPattern
  | objectPattern
  | restElement
  | parenthesisExpression
  | tsAsExpression
  | tsSatisfiesExpression
  | tsNonNullExpression
  | tsTypeAssertion
  | callExpression
  | memberExpression
  | computed
  | numericLiteral
  | stringLiteral
  /-- A group of fields without a type name, such as an argument of a call. -/
  | record
  /-- Any other type of node, by its name. -/
  | other (name : String)
deriving DecidableEq, Repr, Inhabited

namespace Kind

/-- The kind with the given type name. -/
def ofName : String → Kind
  | "Identifier" => identifier
  | "ImportDeclaration" => importDeclaration
  | "ImportSpecifier" => importSpecifier
  | "ImportDefaultSpecifier" => importDefaultSpecifier
  | "ImportNamespaceSpecifier" => importNamespaceSpecifier
  | "VariableDeclaration" => variableDeclaration
  | "UsingDeclaration" => usingDeclaration
  | "AssignmentExpression" => assignmentExpression
  | "ForOfStatement" => forOfStatement
  | "ForInStatement" => forInStatement
  | "AssignmentPattern" => assignmentPattern
  | "AssignmentPatternProperty" => assignmentPatternProperty
  | "KeyValuePatternProperty" => keyValuePatternProperty
  | "ArrayPattern" => arrayPattern
  | "ObjectPattern" => objectPattern
  | "RestElement" => restElement
  | "ParenthesisExpression" => parenthesisExpression
  | "TsAsExpression" => tsAsExpression
  | "TsSatisfiesExpression" => tsSatisfiesExpression
  | "TsNonNullExpression" => tsNonNullExpression
  | "TsTypeAssertion" => tsTypeAssertion
  | "CallExpression" => callExpression
  | "MemberExpression" => memberExpression
  | "Computed" => computed
  | "NumericLiteral" => numericLiteral
  | "StringLiteral" => stringLiteral
  | name => other name

/-- The type name of a kind; a record has none. -/
def name? : Kind → Option String
  | identifier => some "Identifier"
  | importDeclaration => some "ImportDeclaration"
  | importSpecifier => some "ImportSpecifier"
  | importDefaultSpecifier => some "ImportDefaultSpecifier"
  | importNamespaceSpecifier => some "ImportNamespaceSpecifier"
  | variableDeclaration => some "VariableDeclaration"
  | usingDeclaration => some "UsingDeclaration"
  | assignmentExpression => some "AssignmentExpression"
  | forOfStatement => some "ForOfStatement"
  | forInStatement => some "ForInStatement"
  | assignmentPattern => some "AssignmentPattern"
  | assignmentPatternProperty => some "AssignmentPatternProperty"
  | keyValuePatternProperty => some "KeyValuePatternProperty"
  | arrayPattern => some "ArrayPattern"
  | objectPattern => some "ObjectPattern"
  | restElement => some "RestElement"
  | parenthesisExpression => some "ParenthesisExpression"
  | tsAsExpression => some "TsAsExpression"
  | tsSatisfiesExpression => some "TsSatisfiesExpression"
  | tsNonNullExpression => some "TsNonNullExpression"
  | tsTypeAssertion => some "TsTypeAssertion"
  | callExpression => some "CallExpression"
  | memberExpression => some "MemberExpression"
  | computed => some "Computed"
  | numericLiteral => some "NumericLiteral"
  | stringLiteral => some "StringLiteral"
  | record => none
  | other name => some name

/-- Writing the name back gives what was read, so no node changes its type on the way through. -/
@[simp] theorem name?_ofName (s : String) : (ofName s).name? = some s := by
  unfold ofName
  split <;> rfl

end Kind

end HookLabel
