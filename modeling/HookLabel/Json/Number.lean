import HookLabel.Json.Error

/-!
# Numbers in JSON

A number without fraction and exponent is an integer as long as it fits 64 bits, and any other
number is a floating-point number. The first digits are gathered into a whole significand of 64
bits; those that do not fit any more are only counted, and the significand is then scaled by the
power of ten that is due.
-/

namespace HookLabel.Json

/-- The values of the digits at the start of a text. -/
def leadingDigits (s : List Char) : List Nat :=
  (s.takeWhile Char.isDigit).map fun c => c.toNat - '0'.toNat

/-- The text behind the digits at its start. -/
def afterDigits (s : List Char) : List Char := s.dropWhile Char.isDigit

/-- Appends decimal digits to a number for as long as it does not exceed the limit; also counts
the digits that were appended. -/
def appendDigits (limit : Nat) : Nat → List Nat → Nat × Nat
  | n, [] => (n, 0)
  | n, d :: ds =>
    if n * 10 + d ≤ limit then
      let (value, count) := appendDigits limit (n * 10 + d) ds
      (value, count + 1)
    else (n, 0)

/-- The greatest significand that is gathered. -/
def maxSignificand : Nat := 0xFFFFFFFFFFFFFFFF

/-- The greatest power of ten that is gathered. -/
def maxExponent : Nat := 0x7FFFFFFF

/-! ### Scaling -/

/-- A power of ten, rounded to the nearest floating-point number. -/
def powerOfTen (n : Nat) : Float := Float.ofScientific 1 false n

/-- A floating-point number times a power of ten, in steps of at most 308 places; there is none if
it becomes infinite. -/
def scale? (f : Float) (exponent : Int) : Option Float :=
  if exponent.natAbs ≤ 308 then
    if 0 ≤ exponent then
      let scaled := f * powerOfTen exponent.natAbs
      if scaled.isInf then none else some scaled
    else some (f / powerOfTen exponent.natAbs)
  else if f == 0 then some f
  else if 0 ≤ exponent then none
  else scale? (f / powerOfTen 308) (exponent + 308)
termination_by exponent.natAbs
decreasing_by omega

/-- The floating-point number `significand * 10 ^ exponent`, negated if `negative`. -/
def readFloat (negative : Bool) (significand : Nat) (exponent : Int) : Except ReadError Found :=
  match scale? (UInt64.ofNat significand).toFloat exponent with
  | some f => .ok (.decimal (Decimal.ofFloat (if negative then -f else f)))
  | none => .error .illFormed

/-! ### Parts of a number -/

/-- Reads the digits of an exponent; `down` tells that it is negative. -/
def readExponentDigits (negative : Bool) (significand : Nat) (exponent : Int) (down : Bool)
    (s : List Char) : Except ReadError Found :=
  match s, leadingDigits s with
  | [], _ => .error .endOfInput
  | _, [] => .error .illFormed
  | _, ds =>
    let (n, count) := appendDigits maxExponent 0 ds
    if count = ds.length then
      readFloat negative significand (if down then exponent - n else exponent + n)
    else if significand ≠ 0 ∧ !down then .error .illFormed
    else readFloat negative 0 0

/-- Reads what follows the mark of an exponent. -/
def readExponent (negative : Bool) (significand : Nat) (exponent : Int) :
    List Char → Except ReadError Found
  | '+' :: s => readExponentDigits negative significand exponent false s
  | '-' :: s => readExponentDigits negative significand exponent true s
  | s => readExponentDigits negative significand exponent false s

/-- Reads an exponent, if there is one. -/
def readScaled (negative : Bool) (significand : Nat) (exponent : Int) :
    List Char → Except ReadError Found
  | 'e' :: s => readExponent negative significand exponent s
  | 'E' :: s => readExponent negative significand exponent s
  | _ => readFloat negative significand exponent

/-- Reads what follows the point. -/
def readFraction (negative : Bool) (significand : Nat) (exponent : Int) (s : List Char) :
    Except ReadError Found :=
  match s, leadingDigits s with
  | [], _ => .error .endOfInput
  | _, [] => .error .illFormed
  | _, ds =>
    let (n, count) := appendDigits maxSignificand significand ds
    readScaled negative n (exponent - count) (afterDigits s)

/-- The greatest magnitude of a negative integer. -/
def maxNegative : Nat := 0x8000000000000000

/-- The number that ends after its whole part. Minus zero is a floating-point number, and so is
what does not fit 64 bits. -/
def readWhole (negative : Bool) (significand omitted : Nat) : Except ReadError Found :=
  if omitted ≠ 0 then readFloat negative significand omitted
  else if !negative then .ok (.integer significand)
  else if 0 < significand ∧ significand ≤ maxNegative then .ok (.integer (-significand))
  else readFloat negative significand 0

/-- Reads what follows the whole part, of which the last digits may have been omitted. -/
def readAfterWhole (negative : Bool) (significand omitted : Nat) :
    List Char → Except ReadError Found
  | '.' :: s => readFraction negative significand omitted s
  | 'e' :: s => readExponent negative significand omitted s
  | 'E' :: s => readExponent negative significand omitted s
  | _ => readWhole negative significand omitted

/-- Reads a number behind its sign. A zero at the front may not be followed by further digits. -/
def readNumber (negative : Bool) (s : List Char) : Except ReadError Found :=
  match s, leadingDigits s with
  | [], _ => .error .endOfInput
  | _, [] => .error .illFormed
  | _, [0] => readAfterWhole negative 0 0 (afterDigits s)
  | _, 0 :: _ => .error .illFormed
  | _, ds =>
    let (n, count) := appendDigits maxSignificand 0 ds
    readAfterWhole negative n (ds.length - count) (afterDigits s)

end HookLabel.Json
