import HookLabel.Json.Value
import HookLabel.Tree.Basic

/-!
# Numbers in syntax trees

The numbers of a syntax tree are floating-point numbers, and a tree holds of each the shortest
decimal that reads back. `Tree.ofNumber?` reads a number, and `Tree.isWrittenWhole` tells which
numbers are written without a point.
-/

namespace HookLabel.Tree

/-- The number below which every natural number is a floating-point number. -/
def exactBound : Nat := 0x20000000000000

/-- The integer of a magnitude and a sign. -/
def signed (negative : Bool) (magnitude : Nat) : Int :=
  if negative then -(magnitude : Int) else magnitude

/-- The tree of a decimal number. -/
def ofDecimal (d : Decimal) : Tree :=
  if 0 ≤ d.exponent then num (signed d.negative (d.digits * Nat.pow 10 d.exponent.toNat)) 0
  else num (signed d.negative d.digits) (-d.exponent).toNat

/-- The tree of an integer whose magnitude fits 64 bits: the floating-point number nearest to it. -/
def ofInteger (n : Int) : Tree :=
  if n.natAbs < exactBound then num n 0
  else
    let magnitude := Decimal.ofFloat (UInt64.ofNat n.natAbs).toFloat
    ofDecimal ⟨n < 0, magnitude.digits, magnitude.exponent⟩

/-- The tree of a number as it is spelled. There is none if the number is out of range, or if the
text spells no number. -/
def ofNumber? (spelling : String) : Option Tree :=
  match Json.readFound spelling.toList with
  | .ok (.integer n) => some (ofInteger n)
  | .ok (.decimal d) => some (ofDecimal d)
  | _ => none

/-- Whether a number is written without a point. A whole number is, as long as its magnitude is
below nine times the fifteenth power of ten. -/
def isWrittenWhole (mantissa : Int) (decimals : Nat) : Bool :=
  decimals = 0 && mantissa.natAbs < 9000000000000000

end HookLabel.Tree
