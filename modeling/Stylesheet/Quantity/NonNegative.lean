import Stylesheet.Error
import Stylesheet.Quantity.Dimension

/-! Quantities that have to be at least zero.

The check is on the number a quantity holds, whatever its unit: NaN and the negative
zero pass it. -/
namespace Stylesheet

/-- Quantities with a sign. `kind` is what a message calls them. -/
class Signed (α : Type) where
  kind : String
  amount : α → Binary32

instance : Signed Binary32 := ⟨"Number", id⟩

/-- An integer is compared as the number nearest to it. -/
instance : Signed Int := ⟨"Integer", Binary32.ofInt⟩

instance : Signed Percentage := ⟨"Percentage", Percentage.value⟩

instance : Signed Length := ⟨"Length", Dimension.value⟩

instance : Signed Angle := ⟨"Angle", Dimension.value⟩

instance : Signed Time := ⟨"Time", Dimension.value⟩

instance : Signed Resolution := ⟨"Resolution", Dimension.value⟩

instance : Signed LengthPercentage := ⟨"LengthPercentage", LengthPercentage.value⟩

/-- A quantity that is known not to be negative. -/
structure NonNegative (α : Type) [Signed α] where
  value : α
  not_negative : (Signed.amount value).isNegative = false

namespace NonNegative
variable {α : Type} [Signed α]

/-- The message names the kind of quantity and shows the number that was refused. -/
def of (a : α) : Result (NonNegative α) :=
  if h : (Signed.amount a).isNegative = false then .ok ⟨a, h⟩
  else .error (.negative (Signed.kind α) (Signed.amount a))

instance [BEq α] : BEq (NonNegative α) := ⟨fun a b => a.value == b.value⟩

instance [ToCss α] : ToCss (NonNegative α) := ⟨fun a => css a.value⟩

end NonNegative
end Stylesheet
