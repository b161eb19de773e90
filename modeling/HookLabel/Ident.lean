/-!
# Identifiers

Two references are the same variable when both their names and their scope numbers agree, so
shadowing never has to be resolved here: scope analysis has already told equal names apart.
-/

namespace HookLabel

/-- A resolved identifier: a name, and the number of the syntax context it was resolved in. -/
structure Ident where
  name : String
  ctxt : Nat
deriving DecidableEq, Hashable, Repr, Inhabited

end HookLabel
