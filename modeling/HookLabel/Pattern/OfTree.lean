import HookLabel.Pattern.Basic
import HookLabel.Tree.Expression

/-!
# Patterns of a tree

`Tree.pattern` reads a tree as a binding pattern. Every tree has one: what is no pattern reads as
an expression, with the identifier that an assignment to it would assign.
-/

namespace HookLabel

namespace Tree

mutual

/-- The binding pattern that a tree is. -/
def pattern : Tree → Pattern
  | node .identifier fs => .name (.ofFields fs)
  | node .arrayPattern fs =>
    .array ((field "elements" fs).items.attach.map fun ⟨t, _⟩ => t.pattern)
  | node .objectPattern fs =>
    .object ((field "properties" fs).items.attach.map fun ⟨t, _⟩ => t.property)
  | node .restElement fs => .rest (field "argument" fs).pattern
  | node .assignmentPattern fs => .withDefault (field "left" fs).pattern
  | t => .expression t.assigned?
termination_by t => sizeOf t
decreasing_by
  · exact Nat.lt_trans (sizeOf_lt_of_mem_items ‹_›) (sizeOf_field_lt ..)
  · exact Nat.lt_trans (sizeOf_lt_of_mem_items ‹_›) (sizeOf_field_lt ..)
  · exact sizeOf_field_lt ..
  · exact sizeOf_field_lt ..

/-- The property of an object pattern that a tree is. -/
def property : Tree → Property
  | node .assignmentPatternProperty fs =>
    .shorthand (.ofFields (field "key" fs).fields) (!(field "value" fs).isNull)
  | node .restElement fs => .rest (field "argument" fs).pattern
  | node .keyValuePatternProperty fs => .keyed (field "value" fs).pattern
  | t => .keyed (.expression t.assigned?)
termination_by t => sizeOf t
decreasing_by
  · exact sizeOf_field_lt ..
  · exact sizeOf_field_lt ..

end

/-- The elements of an array pattern are read one by one. -/
theorem pattern_array (fs : Fields) :
    (node .arrayPattern fs).pattern = .array ((field "elements" fs).items.map pattern) := by
  rw [pattern, List.attach_map_val (f := pattern)]

/-- The properties of an object pattern are read one by one. -/
theorem pattern_object (fs : Fields) :
    (node .objectPattern fs).pattern = .object ((field "properties" fs).items.map property) := by
  rw [pattern, List.attach_map_val (f := property)]

end Tree

end HookLabel
