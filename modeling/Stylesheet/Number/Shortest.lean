import Stylesheet.Number.Binary32
import Stylesheet.Number.Decimal

/-! The shortest decimal that reads back.

The reals that round to a number form an interval around it, whose ends belong to it
exactly when the significand is even, and which is narrower below a power of two. The
decimal chosen is a point of the coarsest power-of-ten grid that has one in the
interval: of the number's two neighbours on that grid the nearer, and the upper one on
a tie. All of it is exact arithmetic on naturals, in the unit `2 ^ -151 * 10 ^ -46`. -/
namespace Stylesheet

attribute [local instance(2000)] instPowNat

/-- The reals that round to a positive number, with the number itself. -/
structure RoundingInterval where
  lower : Nat
  center : Nat
  upper : Nat
  closed : Bool

namespace RoundingInterval

def contains (v : RoundingInterval) (n : Nat) : Bool :=
  if v.closed then decide (v.lower ≤ n ∧ n ≤ v.upper) else decide (v.lower < n ∧ n < v.upper)

/-- The multiple of `step` to stand for the number, if a neighbour of the number on
that grid lies in the interval. -/
def multiple? (v : RoundingInterval) (step : Nat) : Option Nat :=
  let below := v.center / step
  match v.contains (below * step), v.contains ((below + 1) * step) with
  | true, true =>
    if 2 * v.center < (2 * below + 1) * step then some below else some (below + 1)
  | true, false => some below
  | false, true => some (below + 1)
  | false, false => none

/-- The finest grid that is tried is `10 ^ -46`. -/
def finestGrid : Nat := 46

/-- The decimal on the coarsest grid not above `10 ^ (grid - finestGrid)` that has one;
the number's lower neighbour on the finest grid if none has. -/
def coarsest (v : RoundingInterval) : Nat → Decimal
  | 0 => ⟨(v.multiple? (2 ^ (151 : Nat))).getD (v.center / 2 ^ (151 : Nat)), -finestGrid⟩
  | grid + 1 =>
    match v.multiple? (2 ^ (151 : Nat) * 10 ^ (grid + 1)) with
    | some digits => ⟨digits, (grid + 1 : Nat) - finestGrid⟩
    | none => v.coarsest grid

end RoundingInterval

namespace Binary32

/-- The interval of a finite number other than zero, its sign aside. -/
def interval (x : Binary32) : RoundingInterval :=
  let unit := 10 ^ RoundingInterval.finestGrid
  let half := 2 * 2 ^ x.scale
  let halfBelow := if x.significand = 2 ^ (23 : Nat) ∧ x.scale ≠ 0 then 2 ^ x.scale else half
  { lower := (4 * x.magnitude - halfBelow) * unit
    center := 4 * x.magnitude * unit
    upper := (4 * x.magnitude + half) * unit
    closed := x.significand % 2 == 0 }

/-- The shortest decimal for a finite number other than zero, its sign aside. No
32-bit number reaches `10 ^ 39`. -/
def shortest (x : Binary32) : Decimal := x.interval.coarsest (39 + RoundingInterval.finestGrid)

/-- The digits of a finite number: `0` for both zeros, otherwise the shortest decimal
that reads back, laid out without an exponent. -/
def digits (x : Binary32) : List Char :=
  if x.magnitude = 0 then ['0']
  else if x.negative then '-' :: x.shortest.positional
  else x.shortest.positional

/-- What NaN and the infinities are called, in formulas and messages. -/
def keyword (x : Binary32) : List Char :=
  if x.isNaN then "NaN".toList else if x.negative then "-infinity".toList else "infinity".toList

end Binary32
end Stylesheet
