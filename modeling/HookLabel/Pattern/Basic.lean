import HookLabel.Ident

/-!
# Binding patterns

A pattern is the left side of a declaration, an assignment or a default. `Pattern.bindingNames`
lists the names that a pattern binds level by level, from left to right: `[{ a }, b]` yields `b`
before `a`, so the first name is the leftmost of the shallowest ones.
-/

namespace HookLabel

mutual

/-- A binding pattern. -/
inductive Pattern where
  | name (ident : Ident)
  | array (elements : List Pattern)
  | object (properties : List Property)
  /-- `...p` -/
  | rest (argument : Pattern)
  /-- `p = value` -/
  | withDefault (target : Pattern)
  /-- An expression or a hole, which binds no name; an expression may assign to an identifier. -/
  | expression (assigned : Option Ident)

/-- A property of an object pattern. -/
inductive Property where
  /-- `key: p` -/
  | keyed (value : Pattern)
  /-- `x`, or `x = value` if it has a default -/
  | shorthand (ident : Ident) (hasDefault : Bool)
  /-- `...p` -/
  | rest (argument : Pattern)

end

/-! ### The names of a pattern, level by level -/

/-- A place on the way down to the names of a pattern. -/
inductive Place where
  | pattern (p : Pattern)
  | property (q : Property)
  /-- A shorthand property with a default lies one step above its name. -/
  | defaulted (x : Ident)
  | name (x : Ident)

namespace Place

/-- The name bound at the place itself. -/
def names : Place → List String
  | pattern (.name x) => [x.name]
  | name x => [x.name]
  | _ => []

/-- The places one step further down, from left to right. -/
def children : Place → List Place
  | pattern (.name _) => []
  | pattern (.array ps) => ps.map pattern
  | pattern (.object qs) => qs.map property
  | pattern (.rest p) => [pattern p]
  | pattern (.withDefault p) => [pattern p]
  | pattern (.expression _) => []
  | property (.keyed p) => [pattern p]
  | property (.shorthand x true) => [defaulted x]
  | property (.shorthand x false) => [name x]
  | property (.rest p) => [pattern p]
  | defaulted x => [name x]
  | name _ => []

/-- A bound on the number of places at and below a place. -/
noncomputable def weight : Place → Nat
  | pattern p => 2 * sizeOf p
  | property q => 2 * sizeOf q + 1
  | defaulted _ => 2
  | name _ => 1

/-- A bound on the number of places that are waiting and below them. -/
noncomputable def weights : List Place → Nat
  | [] => 0
  | place :: places => place.weight + weights places

/-- The weight of a queue is that of its front and of the rest. -/
@[simp] theorem weights_cons (place : Place) (places : List Place) :
    weights (place :: places) = place.weight + weights places := rfl

/-- The weights of two queues add up. -/
@[simp] theorem weights_append (places more : List Place) :
    weights (places ++ more) = weights places + weights more := by
  induction places with
  | nil => exact (Nat.zero_add _).symm
  | cons place places ih => rw [List.cons_append, weights_cons, weights_cons, ih, Nat.add_assoc]

/-- The elements of an array pattern weigh less than the pattern has room for. -/
theorem weights_patterns_lt (ps : List Pattern) : weights (ps.map pattern) < 2 * sizeOf ps := by
  induction ps with
  | nil => simp [weights]
  | cons p ps ih =>
    simp only [List.map_cons, weights_cons, weight, List.cons.sizeOf_spec]
    omega

/-- The properties of an object pattern weigh less than the pattern has room for. -/
theorem weights_properties_lt (qs : List Property) : weights (qs.map property) < 2 * sizeOf qs := by
  induction qs with
  | nil => simp [weights]
  | cons q qs ih =>
    simp only [List.map_cons, weights_cons, weight, List.cons.sizeOf_spec]
    omega

/-- No place is without weight. -/
theorem weight_pos (place : Place) : 0 < place.weight := by
  cases place with
  | pattern p => cases p <;> simp only [weight, Pattern.name.sizeOf_spec, Pattern.array.sizeOf_spec,
      Pattern.object.sizeOf_spec, Pattern.rest.sizeOf_spec, Pattern.withDefault.sizeOf_spec,
      Pattern.expression.sizeOf_spec] <;> omega
  | property q => exact Nat.succ_pos _
  | defaulted x => exact Nat.succ_pos _
  | name x => exact Nat.succ_pos _

/-- A queue of one place weighs as much as the place. -/
@[simp] theorem weights_singleton (place : Place) : weights [place] = place.weight :=
  Nat.add_zero _

/-- Going down one step at any place leaves less to do, which is why the search ends. -/
theorem weights_children_lt (place : Place) : weights place.children < place.weight := by
  match place with
  | pattern (.name x) => exact weight_pos (pattern (.name x))
  | pattern (.array ps) =>
    have := weights_patterns_lt ps
    simp only [children, weight, Pattern.array.sizeOf_spec]
    omega
  | pattern (.object qs) =>
    have := weights_properties_lt qs
    simp only [children, weight, Pattern.object.sizeOf_spec]
    omega
  | pattern (.rest p) =>
    simp only [children, weights_singleton, weight, Pattern.rest.sizeOf_spec]
    omega
  | pattern (.withDefault p) =>
    simp only [children, weights_singleton, weight, Pattern.withDefault.sizeOf_spec]
    omega
  | pattern (.expression a) => exact weight_pos (pattern (.expression a))
  | property (.keyed p) =>
    simp only [children, weights_singleton, weight, Property.keyed.sizeOf_spec]
    omega
  | property (.shorthand x true) =>
    simp only [children, weights_singleton, weight, Property.shorthand.sizeOf_spec]
    omega
  | property (.shorthand x false) =>
    simp only [children, weights_singleton, weight, Property.shorthand.sizeOf_spec]
    omega
  | property (.rest p) =>
    simp only [children, weights_singleton, weight, Property.rest.sizeOf_spec]
    omega
  | defaulted x => exact Nat.lt_succ_self 1
  | name x => exact Nat.zero_lt_one

/-- The names at and below the waiting places: the first place is taken, and the places below it
wait behind all others. -/
def levelNames : List Place → List String
  | [] => []
  | place :: waiting => place.names ++ levelNames (waiting ++ place.children)
termination_by waiting => weights waiting
decreasing_by
  have := weights_children_lt place
  simp only [weights_append, weights_cons]
  omega

end Place

/-- The names that a pattern binds, the shallower first and from left to right within a level. -/
def Pattern.bindingNames (p : Pattern) : List String := Place.levelNames [.pattern p]

end HookLabel
