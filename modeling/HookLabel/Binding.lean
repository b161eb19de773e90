import HookLabel.Pattern.OfTree

/-!
# Binding contexts

The binding context of an expression is the form of binding that receives its value, and the
context's label is the name by which the value is known. There is one constructor for each place
that receives a value: a pattern, the target of an assignment, the head of a `for` loop, and a
declarator among its siblings.
-/

namespace HookLabel

/-- The form of binding that receives a value. -/
inductive BindingContext where
  /-- `const [a, b] = value` -/
  | tuple (names : List String)
  /-- `const { a, b } = value` -/
  | structured (names : List String)
  /-- `const a = value` -/
  | simple (name : String)
  /-- The value is discarded, or lands somewhere that is no binding. -/
  | unbound
deriving DecidableEq, Repr

/-- The left side of a `for` loop over the elements or the keys of a value. -/
inductive ForHead where
  /-- A declaration, with the pattern of its first declarator. -/
  | declaration (first : Option Pattern)
  | pattern (p : Pattern)

/-- A declarator, as far as labels depend on it. -/
structure Declarator where
  target : Pattern
  /-- The identifier of which the initialiser reads an element, as in `x = tmp[0]`. -/
  elementOf : Option Ident

namespace Tree

/-- The declarator that a tree is. -/
def declarator (t : Tree) : Declarator where
  target := (t.get "id").pattern
  elementOf := (t.get "init").elementOf?

/-- The head of a `for` loop that a tree is. -/
def forHead : Tree → ForHead
  | node .variableDeclaration fs =>
    .declaration ((field "declarations" fs).items.head?.map fun d => d.declarator.target)
  | node .usingDeclaration fs =>
    .declaration ((field "decls" fs).items.head?.map fun d => d.declarator.target)
  | t => .pattern t.pattern

end Tree

namespace BindingContext

/-- The name by which the bound value is known: the first one that is bound. -/
def label? : BindingContext → Option String
  | tuple names => names.head?
  | structured names => names.head?
  | simple name => some name
  | unbound => none

/-- The context of the value of a pattern. -/
def ofPattern : Pattern → BindingContext
  | .name x => simple x.name
  | .array ps => tuple (Pattern.array ps).bindingNames
  | .object qs => structured (Pattern.object qs).bindingNames
  | .withDefault p => ofPattern p
  | .rest _ => unbound
  | .expression _ => unbound

/-- The context of a value that is assigned to an identifier, if to any. -/
def ofAssigned (assigned : Option Ident) : BindingContext :=
  (assigned.map fun x => simple x.name).getD unbound

/-- The context of the right side of an assignment. -/
def ofAssignTarget : Pattern → BindingContext
  | .name x => simple x.name
  | .array ps => tuple (Pattern.array ps).bindingNames
  | .object qs => structured (Pattern.object qs).bindingNames
  | .expression assigned => ofAssigned assigned
  | .withDefault _ => unbound
  | .rest _ => unbound

/-- The context of the values that a `for` loop runs over. -/
def ofForHead : ForHead → BindingContext
  | .declaration first => (first.map ofPattern).getD unbound
  | .pattern (.expression assigned) => ofAssigned assigned
  | .pattern p => ofPattern p

/-- The names of those declarators that read an element of `tmp`, in order. -/
def elementNames (tmp : Ident) (ds : List Declarator) : List String :=
  ds.filterMap fun d =>
    match d.target with
    | .name x => if d.elementOf = some tmp then some x.name else none
    | _ => none

/-- The context of a declarator's value, given the declarators that follow it. An array pattern
that has been lowered to a temporary, as in `tmp = value, a = tmp[0], b = tmp[1]`, is recovered. -/
def ofDeclarator (d : Declarator) (later : List Declarator) : BindingContext :=
  match d.target with
  | .name tmp =>
    match elementNames tmp later with
    | [] => simple tmp.name
    | names => tuple names
  | p => ofPattern p

/-- The context of the declarator at an index; there is none beyond the last. -/
def ofDeclarators (ds : List Declarator) (index : Nat) : BindingContext :=
  match ds.drop index with
  | [] => unbound
  | d :: later => ofDeclarator d later

/-- A value without a name has no label. -/
@[simp] theorem label?_unbound : unbound.label? = none := rfl

/-- A name is its own label. -/
@[simp] theorem label?_simple (name : String) : (simple name).label? = some name := rfl

/-- The first declarator is read with a view to those behind it. -/
theorem ofDeclarators_zero (d : Declarator) (later : List Declarator) :
    ofDeclarators (d :: later) 0 = ofDeclarator d later := rfl

/-- A later declarator does not see those in front of it. -/
theorem ofDeclarators_succ (d : Declarator) (later : List Declarator) (index : Nat) :
    ofDeclarators (d :: later) (index + 1) = ofDeclarators later index := rfl

/-- Past the last declarator no value has a name. -/
theorem ofDeclarators_eq_unbound_of_length_le {ds : List Declarator} {index : Nat}
    (h : ds.length ≤ index) : ofDeclarators ds index = unbound := by
  simp [ofDeclarators, List.drop_eq_nil_of_le h]

end BindingContext

end HookLabel
