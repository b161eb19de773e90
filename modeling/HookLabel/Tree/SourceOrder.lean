import HookLabel.Tree.Basic

/-!
# Source order

The fields of a node come by name. Where it matters which of two declarations comes first, the
children of a node are taken in a fixed order, which `Kind.fieldOrder` lists for the kinds whose
fields could otherwise stand in a different one. `Tree.ofFields` builds a node with its fields in
that order.
-/

namespace HookLabel

/-- The parts of a function, in the order in which they are walked. -/
def functionFields : List String :=
  ["params", "decorators", "body", "typeParameters", "returnType"]

/-- The parts of a class, in the order in which they are walked. -/
def classFields : List String :=
  ["decorators", "body", "superClass", "typeParams", "superTypeParams", "implements"]

/-- The parts of a class property, in the order in which they are walked. -/
def propertyFields : List String := ["key", "value", "typeAnnotation", "decorators"]

/-- The fields of each type of node whose order is fixed; further fields follow them. -/
def fieldOrder : String → List String
  | "FunctionDeclaration" | "FunctionExpression" => "identifier" :: functionFields
  | "ArrowFunctionExpression" => ["params", "body", "typeParameters", "returnType"]
  | "MethodProperty" => "key" :: functionFields
  | "GetterProperty" => ["key", "typeAnnotation", "body"]
  | "SetterProperty" => ["key", "thisParam", "param", "body"]
  | "Parameter" => ["decorators", "pat"]
  | "ClassDeclaration" | "ClassExpression" => "identifier" :: classFields
  | "ClassMethod" | "PrivateMethod" => ["key", "function"]
  | "ClassProperty" | "PrivateProperty" | "AutoAccessor" => propertyFields
  | "Constructor" => ["key", "params", "body"]
  | "KeyValueProperty" | "AssignmentProperty" => ["key", "value"]
  | "KeyValuePatternProperty" | "AssignmentPatternProperty" => ["key", "value"]
  | "ArrayPattern" => ["elements", "typeAnnotation"]
  | "ObjectPattern" => ["properties", "typeAnnotation"]
  | "RestElement" => ["argument", "typeAnnotation"]
  | "AssignmentPattern" => ["left", "right", "typeAnnotation"]
  | "AssignmentExpression" | "BinaryExpression" => ["left", "right"]
  | "MemberExpression" => ["object", "property"]
  | "SuperPropExpression" => ["obj", "property"]
  | "CallExpression" | "NewExpression" => ["callee", "arguments", "typeArguments"]
  | "TaggedTemplateExpression" => ["tag", "typeParameters", "template"]
  | "TemplateLiteral" => ["expressions", "types", "quasis"]
  | "ConditionalExpression" | "IfStatement" => ["test", "consequent", "alternate"]
  | "SwitchStatement" => ["discriminant", "cases"]
  | "SwitchCase" => ["test", "consequent"]
  | "TryStatement" => ["block", "handler", "finalizer"]
  | "CatchClause" => ["param", "body"]
  | "ForStatement" => ["init", "test", "update", "body"]
  | "ForInStatement" | "ForOfStatement" => ["left", "right", "body"]
  | "WhileStatement" | "DoWhileStatement" => ["test", "body"]
  | "WithStatement" => ["object", "body"]
  | "LabeledStatement" => ["label", "body"]
  | "VariableDeclarator" => ["id", "init"]
  | "ExportNamedDeclaration" => ["specifiers", "source", "with"]
  | "JSXElement" => ["opening", "children", "closing"]
  | "JSXFragment" => ["opening", "children", "closing"]
  | "JSXOpeningElement" => ["name", "attributes", "typeArguments"]
  | "JSXAttribute" => ["name", "value"]
  | "TsAsExpression" | "TsSatisfiesExpression" | "TsTypeAssertion" => ["expression", "typeAnnotation"]
  | "TsInstantiation" => ["expression", "typeArguments"]
  | "TsEnumDeclaration" => ["id", "members"]
  | "TsEnumMember" => ["id", "init"]
  | "TsModuleDeclaration" | "TsNamespaceDeclaration" => ["id", "body"]
  | "TsInterfaceDeclaration" => ["id", "typeParams", "extends", "body"]
  | "TsTypeAliasDeclaration" => ["id", "typeParams", "typeAnnotation"]
  | "TsParameterProperty" => ["decorators", "param"]
  | "TsFunctionType" | "TsConstructorType" => ["params", "typeParams", "typeAnnotation"]
  | "TsCallSignatureDeclaration" | "TsConstructSignatureDeclaration" =>
    ["params", "typeAnnotation", "typeParams"]
  | "TsMethodSignature" => ["key", "params", "typeAnn", "typeParams"]
  | "TsSetterSignature" => ["key", "param"]
  | "TsMappedType" => ["typeParam", "nameType", "typeAnnotation"]
  | "TsImportType" => ["argument", "qualifier", "typeArguments", "attributes"]
  | "TsTypeReference" => ["typeName", "typeParams"]
  | "TsTypeQuery" => ["exprName", "typeArguments"]
  | "TsTypePredicate" => ["paramName", "typeAnnotation"]
  | "TsTupleElement" => ["label", "ty"]
  | "TsExpressionWithTypeArguments" => ["expression", "typeArguments"]
  | "TsTypeParameter" => ["name", "constraint", "default"]
  | "TsPropertySignature" | "TsGetterSignature" => ["key", "typeAnnotation"]
  | "TsIndexSignature" => ["params", "typeAnnotation"]
  | "TsConditionalType" => ["checkType", "extendsType", "trueType", "falseType"]
  | "TsIndexedAccessType" => ["objectType", "indexType"]
  | _ => []

/-- The fixed order of the fields of a kind; the parts of a method are a record. -/
def Kind.fieldOrder (kind : Kind) : List String :=
  (kind.name?.map HookLabel.fieldOrder).getD functionFields

/-- Puts the fields that `order` names first, in its order, and lets the others follow. -/
def inOrder (order : List String) (fs : Fields) : Fields :=
  order.flatMap (fun name => fs.filter (fun f => f.1 == name)) ++
    fs.filter (fun f => !order.contains f.1)

/-- The node with the given type name and fields, in source order; a record has no type name. -/
def Tree.ofFields (type : Option String) (fs : Fields) : Tree :=
  let kind := (type.map Kind.ofName).getD .record
  .node kind (inOrder kind.fieldOrder fs)

end HookLabel
