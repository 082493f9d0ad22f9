import Stylesheet.Number.Range
import Stylesheet.Number.Shortest
import Stylesheet.Text.Css

/-! Numbers, integers and percentages.

A finite number is written as its shortest decimal. NaN and the infinities have no
literal and are written as a formula, with the unit as a factor when there is one. -/
namespace Stylesheet

/-- A number without a unit. -/
def numberText (x : Binary32) : List Char :=
  if x.isFinite then x.digits else call "calc" x.keyword

/-- A number and its unit. A formula takes the unit once, as a factor. -/
def dimensionText (x : Binary32) (unit : List Char) : List Char :=
  if x.isFinite then x.digits ++ unit else call "calc" (x.keyword ++ " * 1".toList ++ unit)

instance : ToCss Binary32 := ⟨numberText⟩

instance : ToCss Int := ⟨integerText⟩

instance : ToCss Nat := ⟨decimalDigits⟩

instance {r : Range} : ToCss (Clamped r) := ⟨fun x => css x.value⟩

/-- A share of a hundred, of any size and sign. -/
structure Percentage where
  value : Binary32
  deriving BEq

instance : ToCss Percentage := ⟨fun p => dimensionText p.value ['%']⟩

/-- A percentage from nought to a hundred. -/
structure ClampedPercentage where
  amount : Clamped percentRange
  deriving BEq

namespace ClampedPercentage

/-- A number below nought or above a hundred becomes the nearer of the two. -/
def of (x : Binary32) : ClampedPercentage := ⟨.of percentRange_valid x⟩

/-- The percentage as any other. -/
def percentage (p : ClampedPercentage) : Percentage := ⟨p.amount.value⟩

end ClampedPercentage

instance : ToCss ClampedPercentage := ⟨fun p => css p.percentage⟩

end Stylesheet
