/-! Rounding a quotient to a binary floating-point format.

Every finite value of a format is a whole number of its least positive value, so a
value is held here as that number, its magnitude. Rounding to the format is then a
single division that rounds to the nearest whole number, a tie going to the even one. -/
namespace Stylesheet

-- `2 ^ n` is the core library's power, also where another library offers one.
attribute [local instance(2000)] instPowNat

/-- The whole number nearest to `num / den`; a tie goes to the even neighbour. -/
def roundDiv (num den : Nat) : Nat :=
  let whole := num / den
  let twice := 2 * (num % den)
  if twice < den then whole
  else if den < twice then whole + 1
  else whole + whole % 2

/-- A binary format: significands of `precision` bits, and `2 ^ -fineness` as the
least positive value. -/
structure BinaryFormat where
  precision : Nat
  fineness : Nat

namespace BinaryFormat

def single : BinaryFormat := ⟨24, 149⟩

def double : BinaryFormat := ⟨53, 1074⟩

/-- How many low bits of the magnitude `n` are zero because the significand has no
room for them. -/
def spareBits (f : BinaryFormat) (n : Nat) : Nat := n.log2 + 1 - f.precision

/-- The magnitude of the format nearest to `num / den`, without a bound above. -/
def nearest (f : BinaryFormat) (num den : Nat) : Nat :=
  let scaled := num * 2 ^ f.fineness
  let spare := f.spareBits (scaled / den)
  roundDiv scaled (den * 2 ^ spare) * 2 ^ spare

end BinaryFormat
end Stylesheet
