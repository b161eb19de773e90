import HookLabel.Decimal.Shortest

/-!
# Decimal notation

A decimal number is written positionally from `0.00001` up to sixteen places before the point,
with at least one digit after the point, and otherwise with an exponent.
-/

namespace HookLabel.Decimal

/-- The digits of a decimal number with the point behind the first `places` of them. -/
def positional (ds : List Char) (places : Int) : List Char :=
  if places ≤ 0 then '0' :: '.' :: List.replicate (-places).toNat '0' ++ ds
  else if ds.length ≤ places.toNat then
    ds ++ List.replicate (places.toNat - ds.length) '0' ++ ['.', '0']
  else ds.take places.toNat ++ '.' :: ds.drop places.toNat

/-- The digits of a decimal number with the point behind the first of them, if others follow, and
the exponent of ten that makes up for it. -/
def scientific (ds : List Char) (places : Int) : List Char :=
  let mantissa := match ds with
    | d :: e :: rest => d :: '.' :: e :: rest
    | ds => ds
  mantissa ++ 'e' :: (toString (places - 1)).toList

/-- A decimal number as text. -/
def text (d : Decimal) : String :=
  let ds := Nat.toDigits 10 d.digits
  let places := ds.length + d.exponent
  let magnitude :=
    if d.digits = 0 then ['0', '.', '0']
    else if -5 < places ∧ places ≤ 16 then positional ds places
    else scientific ds places
  String.ofList (if d.negative then '-' :: magnitude else magnitude)

end HookLabel.Decimal
