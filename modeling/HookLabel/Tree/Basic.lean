import HookLabel.Ident
import HookLabel.Tree.Kind

/-!
# Syntax trees

A syntax tree is kept open: a node is a kind with named fields, and whatever the fields of a node
are, they are carried along. Fields are read by `field` and replaced by `setField`, one lemma each
says how the two act on each other, and `sizeOf_field_lt` lets functions recurse into a field.
-/

namespace HookLabel

/-- A syntax tree. A number is `mantissa` with the decimal point moved `decimals` places to the
left, so that it is kept exactly. -/
inductive Tree where
  | null
  | bool (value : Bool)
  | num (mantissa : Int) (decimals : Nat)
  | str (value : String)
  | list (items : List Tree)
  | node (kind : Kind) (fields : List (String × Tree))
deriving Repr, Inhabited

/-- The fields of a node, in the order in which the program text has them. -/
abbrev Fields := List (String × Tree)

/-! ### Fields -/

/-- The field of the given name; an absent field reads as `null`. -/
def field (name : String) : Fields → Tree
  | [] => .null
  | (n, t) :: fs => if n = name then t else field name fs

/-- Replaces the field of the given name and leaves the rest; an absent field stays absent. -/
def setField (name : String) (new : Tree) : Fields → Fields
  | [] => []
  | (n, t) :: fs => if n = name then (n, new) :: fs else (n, t) :: setField name new fs

/-- Putting a field back changes nothing. -/
theorem setField_field (name : String) (fs : Fields) : setField name (field name fs) fs = fs := by
  induction fs with
  | nil => rfl
  | cons f fs ih =>
    obtain ⟨n, t⟩ := f
    by_cases h : n = name <;> simp [field, setField, h, ih]

/-- Replacing a field leaves the others. -/
theorem field_setField_of_ne {name other : String} (h : other ≠ name) (new : Tree) (fs : Fields) :
    field other (setField name new fs) = field other fs := by
  induction fs with
  | nil => rfl
  | cons f fs ih =>
    obtain ⟨n, t⟩ := f
    by_cases hn : n = name
    · have : ¬ n = other := fun ho => h (ho.symm.trans hn)
      simp only [setField, if_pos hn, field, if_neg this]
    · by_cases ho : n = other
      · simp [setField, field, ho, h]
      · simp [setField, field, hn, ho, ih]

/-- A field is no larger than all fields together. -/
theorem sizeOf_field_le (name : String) (fs : Fields) : sizeOf (field name fs) ≤ sizeOf fs := by
  induction fs with
  | nil => simp [field]
  | cons f fs ih =>
    obtain ⟨n, t⟩ := f
    simp only [field]
    split
    · simp only [List.cons.sizeOf_spec, Prod.mk.sizeOf_spec]; omega
    · simp only [List.cons.sizeOf_spec]; omega

/-- A field is smaller than its node. -/
theorem sizeOf_field_lt (name : String) (kind : Kind) (fs : Fields) :
    sizeOf (field name fs) < sizeOf (Tree.node kind fs) := by
  have := sizeOf_field_le name fs
  simp only [Tree.node.sizeOf_spec]
  omega

namespace Tree

/-- The fields of a node. -/
def fields : Tree → Fields
  | node _ fs => fs
  | _ => []

/-- The field of the given name of a node. -/
def get (name : String) (t : Tree) : Tree := field name t.fields

/-- The items of a list. -/
def items : Tree → List Tree
  | list ts => ts
  | _ => []

/-- An item is smaller than its list. -/
theorem sizeOf_lt_of_mem_items {t u : Tree} (h : u ∈ t.items) : sizeOf u < sizeOf t := by
  cases t with
  | list ts =>
    have := List.sizeOf_lt_of_mem (show u ∈ ts from h)
    simp only [list.sizeOf_spec]
    omega
  | _ => simp [items] at h

/-- Whether a tree stands for an absent part. -/
def isNull : Tree → Bool
  | null => true
  | _ => false

/-- Whether a flag is set. -/
def isTrue : Tree → Bool
  | bool b => b
  | _ => false

/-- The text of a string, and nothing for other trees. -/
def text : Tree → String
  | str s => s
  | _ => ""

/-- The value of a whole number that is not negative, and `0` for other trees. -/
def natural : Tree → Nat
  | num m 0 => m.toNat
  | _ => 0

end Tree

/-! ### Identifiers -/

/-- The identifier that the fields of an identifier node spell. -/
def Ident.ofFields (fs : Fields) : Ident where
  name := (field "value" fs).text
  ctxt := (field "ctxt" fs).natural

namespace Tree

/-- The identifier that a tree is, if it is a bare one. -/
def ident? : Tree → Option Ident
  | node .identifier fs => some (.ofFields fs)
  | _ => none

/-- A reference to `name` in the outermost syntax context. -/
def reference (name : String) : Tree :=
  node .identifier [("ctxt", num 0 0), ("value", str name), ("optional", bool false)]

/-- A string literal that was not spelled out in the program text. -/
def stringLiteral (value : String) : Tree :=
  node .stringLiteral [("value", str value), ("raw", null)]

/-- A reference is the identifier that it names. -/
@[simp] theorem ident?_reference (name : String) : (reference name).ident? = some ⟨name, 0⟩ := by
  simp [reference, ident?, Ident.ofFields, field, text, natural]

end Tree

end HookLabel
