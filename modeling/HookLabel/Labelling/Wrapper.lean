import HookLabel.Config.Basic
import HookLabel.Tree.Expression

/-!
# The labelling helper

The call that a labelled call is wrapped in, and the import that makes the helper available. Both
refer to the helper in the outermost syntax context.
-/

namespace HookLabel

namespace Tree

/-- An argument of a call that is not spread. -/
def argument (expression : Tree) : Tree :=
  node .record [("spread", null), ("expression", expression)]

/-- The call of the helper `wrapper` with a call and its label. -/
def wrapperCall (wrapper label : String) (call : Tree) : Tree :=
  node .callExpression
    [("ctxt", num 0 0), ("callee", reference wrapper),
      ("arguments", list [argument call, argument (stringLiteral label)]), ("typeArguments", null)]

/-- Wraps the call under all parentheses; the parentheses stay around the wrapped call. -/
def wrap (wrapper label : String) (t : Tree) : Tree :=
  t.mapUnparenthesized (wrapperCall wrapper label)

/-- The import of the helper `wrapper` from the module `source`. -/
def wrapperImport (wrapper source : String) : Tree :=
  node .importDeclaration
    [("specifiers", list [node .importSpecifier
        [("local", reference wrapper), ("imported", null), ("isTypeOnly", bool false)]]),
      ("source", stringLiteral source), ("typeOnly", bool false), ("with", null),
      ("phase", str "evaluation")]

/-- What is put around a call is a call of the helper. -/
@[simp] theorem callee?_wrapperCall (wrapper label : String) (call : Tree) :
    (wrapperCall wrapper label call).callee? = some ⟨wrapper, 0⟩ := by
  simp [wrapperCall, callee?, field]

end Tree

end HookLabel
