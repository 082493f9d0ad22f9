import Stylesheet.Number.Rounding

/-! The 32-bit binary floating-point numbers, by their bits.

A finite number is a sign and a magnitude, which counts how many times the least
positive number `2 ^ -149` it holds. Infinity gets the magnitude that would come after
the largest finite one, so that one integer, `units`, orders all numbers but NaN.
Comparison follows the usual rules: NaN is unordered and differs from itself, and the
two zeros are equal. -/
namespace Stylesheet

attribute [local instance(2000)] instPowNat

structure Binary32 where
  bits : UInt32

namespace Binary32

def negative (x : Binary32) : Bool := decide (2 ^ (31 : Nat) ≤ x.bits.toNat)

def exponentField (x : Binary32) : Nat := x.bits.toNat / 2 ^ (23 : Nat) % 2 ^ (8 : Nat)

def fractionField (x : Binary32) : Nat := x.bits.toNat % 2 ^ (23 : Nat)

def isFinite (x : Binary32) : Bool := x.exponentField != 255

def isNaN (x : Binary32) : Bool := x.exponentField == 255 && x.fractionField != 0

/-- The fraction, under a leading one unless the number is subnormal. -/
def significand (x : Binary32) : Nat :=
  if x.exponentField = 0 then x.fractionField else 2 ^ (23 : Nat) + x.fractionField

/-- The binary exponent of the significand's last bit, counted from the least one. -/
def scale (x : Binary32) : Nat := x.exponentField - 1

def magnitude (x : Binary32) : Nat := x.significand * 2 ^ x.scale

def units (x : Binary32) : Int := if x.negative then -(x.magnitude : Int) else x.magnitude

/-- Equality of numbers, not of bits. -/
def eq (x y : Binary32) : Bool := !x.isNaN && !y.isNaN && x.units == y.units

instance : BEq Binary32 := ⟨eq⟩

def lt (x y : Binary32) : Bool := !x.isNaN && !y.isNaN && decide (x.units < y.units)

/-! ### Building numbers -/

/-- The magnitude of infinity. -/
def infinityMagnitude : Nat := 2 ^ (23 : Nat) * 2 ^ (254 : Nat)

/-- The number of a magnitude that fits the format; one past the largest finite
number gives infinity. -/
def ofMagnitude (negative : Bool) (n : Nat) : Binary32 :=
  let m := min n infinityMagnitude
  let spare := BinaryFormat.single.spareBits m
  ⟨.ofNat ((if negative then 2 ^ (31 : Nat) else 0) + spare * 2 ^ (23 : Nat) + m / 2 ^ spare)⟩

/-- The number nearest to `num / den`, a tie going to the even significand. -/
def ofRatio (negative : Bool) (num den : Nat) : Binary32 :=
  ofMagnitude negative (BinaryFormat.single.nearest num den)

def ofInt (i : Int) : Binary32 := ofRatio (decide (i < 0)) i.natAbs 1

instance (n : Nat) : OfNat Binary32 n := ⟨ofInt n⟩

def nan : Binary32 := ⟨0x7fc00000⟩

def infinity (negative : Bool) : Binary32 := ofMagnitude negative infinityMagnitude

/-! ### Sign and range -/

/-- Below zero: NaN and the negative zero are not. -/
def isNegative (x : Binary32) : Bool := x.lt 0

/-- The nearer end of `[lo, hi]` when `x` is outside, and `fallback` for NaN. -/
def clamp (x lo hi fallback : Binary32) : Binary32 :=
  if x.isNaN then fallback
  else if x.lt lo then lo
  else if hi.lt x then hi
  else x

end Binary32
end Stylesheet
