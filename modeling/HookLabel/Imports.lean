import HookLabel.Tree.Basic
import Std.Data.HashMap

/-!
# Import bindings

`ImportBindings` tells which module an identifier is imported from. It is keyed by resolved
identifiers, so that a variable which shadows an import is not taken for it. Imports are collected
from the whole tree in source order; the later of two that bind the same identifier wins, and what
is imported for its type only binds nothing that could be called.
-/

namespace HookLabel

/-- Decides whether an identifier is bound by an import from one of the given modules. -/
abbrev Resolver := Ident → List String → Bool

/-- The module from which each imported identifier comes. -/
structure ImportBindings where
  sources : Std.HashMap Ident String

namespace Tree

/-- The identifier that an import specifier binds, unless it is imported for its type only. -/
def boundBySpecifier? : Tree → Option Ident
  | node .importSpecifier fs =>
    if (field "isTypeOnly" fs).isTrue then none else (field "local" fs).ident?
  | node .importDefaultSpecifier fs => (field "local" fs).ident?
  | node .importNamespaceSpecifier fs => (field "local" fs).ident?
  | _ => none

end Tree

/-- What an import declaration with the given fields binds, each identifier with its module. -/
def importedBindings (fs : Fields) : List (Ident × String) :=
  if (field "typeOnly" fs).isTrue then []
  else
    (field "specifiers" fs).items.filterMap fun s =>
      s.boundBySpecifier?.map fun x => (x, ((field "source" fs).get "value").text)

namespace ImportBindings

instance : EmptyCollection ImportBindings := ⟨⟨∅⟩⟩

instance : Inhabited ImportBindings := ⟨∅⟩

/-- Binds an identifier to a module, in place of an earlier binding. -/
def insert (b : ImportBindings) (x : Ident) (source : String) : ImportBindings :=
  ⟨b.sources.insert x source⟩

/-- Binds each identifier of a list to its module, from left to right. -/
def insertMany (b : ImportBindings) (l : List (Ident × String)) : ImportBindings :=
  l.foldl (fun b p => b.insert p.1 p.2) b

/-- The module from which an identifier is imported. -/
def source? (b : ImportBindings) (x : Ident) : Option String := b.sources[x]?

/-- Whether an identifier is imported from one of the given modules. -/
def resolves (b : ImportBindings) : Resolver := fun x origins =>
  match b.source? x with
  | some source => origins.contains source
  | none => false

mutual

/-- Adds the imports of a tree; an import declaration has nothing below it that could bind. -/
def addTree (b : ImportBindings) : Tree → ImportBindings
  | .node .importDeclaration fs => b.insertMany (importedBindings fs)
  | .node _ fs => b.addFields fs
  | .list ts => b.addTrees ts
  | _ => b

/-- Adds the imports of each tree of a list. -/
def addTrees (b : ImportBindings) : List Tree → ImportBindings
  | [] => b
  | t :: ts => (b.addTree t).addTrees ts

/-- Adds the imports of each field of a node. -/
def addFields (b : ImportBindings) : List (String × Tree) → ImportBindings
  | [] => b
  | (_, t) :: fs => (b.addTree t).addFields fs

end

/-- The imports of the items of a module. -/
def ofItems (items : List Tree) : ImportBindings := (∅ : ImportBindings).addTrees items

/-- Without bindings no identifier has a module. -/
@[simp] theorem source?_empty (x : Ident) : (∅ : ImportBindings).source? x = none := by
  show (∅ : Std.HashMap Ident String)[x]? = none
  simp

/-- A binding that is put in tells the module of its identifier and of no other. -/
theorem source?_insert (b : ImportBindings) (x y : Ident) (source : String) :
    (b.insert x source).source? y = if x = y then some source else b.source? y := by
  simp [insert, source?, Std.HashMap.getElem?_insert]

/-- An identifier resolves to some modules exactly if it is imported from one of them. -/
theorem resolves_eq_true_iff {b : ImportBindings} {x : Ident} {origins : List String} :
    b.resolves x origins = true ↔ ∃ source ∈ origins, b.source? x = some source := by
  unfold resolves
  cases h : b.source? x with
  | none => simp
  | some source => simp [eq_comm]

end ImportBindings

end HookLabel
