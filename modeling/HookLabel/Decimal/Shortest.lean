/-!
# Shortest decimals

A finite binary floating-point number stands for all reals that round to it, and is written by the
shortest decimal among them. `Binary.shortest` tries grids of one, two, up to seventeen digits;
on the first grid that has a point among those reals it takes the point nearest to the number.
-/

namespace HookLabel

/-- A decimal number with a sign: `digits * 10 ^ exponent`, negated if `negative`. -/
structure Decimal where
  negative : Bool
  digits : Nat
  exponent : Int
deriving DecidableEq, Repr

/-- A finite binary floating-point number that is not negative: `m * 2 ^ q`. -/
structure Binary where
  m : Nat
  q : Int
  /-- The gap to the number below is half of the gap to the number above. -/
  narrowBelow : Bool
deriving DecidableEq, Repr

namespace Binary

/-- The magnitude of a finite number with 52 bits of fraction and 11 bits of exponent. -/
def ofBits (bits : UInt64) : Binary :=
  let exponent := ((bits >>> 52) &&& 0x7FF).toNat
  let fraction := (bits &&& 0xFFFFFFFFFFFFF).toNat
  if exponent = 0 then ⟨fraction, -1074, false⟩
  else ⟨0x10000000000000 + fraction, (exponent : Int) - 1075, fraction == 0 && exponent > 1⟩

/-- Compares `a * 10 ^ i` with `b * 2 ^ j`, without rounding. -/
def compareScaled (a : Nat) (i : Int) (b : Nat) (j : Int) : Ordering :=
  let left := a * Nat.pow 10 i.toNat * Nat.pow 2 (-j).toNat
  let right := b * Nat.pow 2 j.toNat * Nat.pow 10 (-i).toNat
  if left < right then .lt else if left = right then .eq else .gt

/-- Whether `digits * 10 ^ exponent` is among the reals that round to the number. They reach half
way to its neighbours, and include the ends when `m` is even. -/
def readsBack (x : Binary) (digits : Nat) (exponent : Int) : Bool :=
  let low := compareScaled digits exponent (4 * x.m - if x.narrowBelow then 1 else 2) (x.q - 2)
  let high := compareScaled digits exponent (4 * x.m + 2) (x.q - 2)
  if x.m % 2 = 0 then low != .lt && high != .gt else low == .gt && high == .lt

/-- The number of decimal digits of a natural number; zero has none. -/
def decimalLength (n : Nat) : Nat := if n = 0 then 0 else decimalLength (n / 10) + 1

/-- The least `k` for which the number, if it is not zero, is below `10 ^ k`. -/
def magnitude (x : Binary) : Int :=
  let numerator := x.m * Nat.pow 2 x.q.toNat
  let denominator := Nat.pow 2 (-x.q).toNat
  if denominator ≤ numerator then decimalLength (numerator / denominator)
  else 1 - (decimalLength ((denominator - 1) / numerator) : Int)

/-- The largest multiple of `10 ^ exponent` that is not above the number, in that unit. -/
def gridBelow (x : Binary) (exponent : Int) : Nat :=
  let numerator := x.m * Nat.pow 2 x.q.toNat * Nat.pow 10 (-exponent).toNat
  let denominator := Nat.pow 2 (-x.q).toNat * Nat.pow 10 exponent.toNat
  numerator / denominator

/-- The multiple of `10 ^ exponent` nearest to the number among those that read back, in that
unit; of two that are equally near the even one. -/
def nearestOnGrid? (x : Binary) (exponent : Int) : Option Nat :=
  let below := x.gridBelow exponent
  match x.readsBack below exponent, x.readsBack (below + 1) exponent with
  | true, true =>
    match compareScaled (2 * below + 1) exponent (2 * x.m) x.q with
    | .gt => some below
    | .lt => some (below + 1)
    | .eq => some (below + below % 2)
  | true, false => some below
  | false, true => some (below + 1)
  | false, false => none

/-- Moves trailing zeros of the digits into the exponent. -/
def dropZeros (digits : Nat) (exponent : Int) : Nat × Int :=
  if digits = 0 then (0, 0)
  else if digits % 10 = 0 then dropZeros (digits / 10) (exponent + 1)
  else (digits, exponent)

/-- The digits and the exponent of the shortest decimal that reads back. With 53 bits of
significand, one of seventeen grids has a point that does; the exact value is for other numbers. -/
def shortest (x : Binary) : Nat × Int :=
  let exact :=
    if 0 ≤ x.q then (x.m * Nat.pow 2 x.q.toNat, 0) else (x.m * Nat.pow 5 (-x.q).toNat, x.q)
  let found := (List.range' 1 17).findSome? fun (n : Nat) =>
    let exponent := x.magnitude - n
    (x.nearestOnGrid? exponent).map fun digits => (digits, exponent)
  let chosen := found.getD exact
  dropZeros chosen.1 chosen.2

end Binary

/-- The shortest decimal that reads back to a finite floating-point number. -/
def Decimal.ofFloat (f : Float) : Decimal :=
  let magnitude := (Binary.ofBits f.toBits).shortest
  { negative := f.toBits >>> 63 = 1, digits := magnitude.1, exponent := magnitude.2 }

end HookLabel
