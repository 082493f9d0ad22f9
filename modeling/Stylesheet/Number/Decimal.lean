/-! Decimal numbers and how they are laid out: digits with a point, never an exponent. -/
namespace Stylesheet

/-- The digits of a natural number in base ten, without leading zeros. -/
def decimalDigits (n : Nat) : List Char := Nat.toDigits 10 n

/-- The digits of an integer, after a minus sign when it is below zero. -/
def integerText (i : Int) : List Char :=
  if i < 0 then '-' :: decimalDigits i.natAbs else decimalDigits i.natAbs

/-- The decimal `digits * 10 ^ exponent`. -/
structure Decimal where
  digits : Nat
  exponent : Int

namespace Decimal

/-- The point stands after, inside or before the digits; zeros fill the gap. -/
def positional (d : Decimal) : List Char :=
  let ds := decimalDigits d.digits
  let places := (-d.exponent).toNat
  if places = 0 then ds ++ List.replicate d.exponent.toNat '0'
  else if places < ds.length then
    ds.take (ds.length - places) ++ '.' :: ds.drop (ds.length - places)
  else '0' :: '.' :: (List.replicate (places - ds.length) '0' ++ ds)

end Decimal
end Stylesheet
