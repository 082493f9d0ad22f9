import Stylesheet.Keyword
import Stylesheet.Quantity.NonNegative

/-! The room between boxes: gaps between tracks, and the spacing of borders. -/
namespace Stylesheet

/-- The room between two tracks, or what the layout takes by itself. -/
abbrev GapValue := OrNormal (NonNegative LengthPercentage)

/-- The gap between rows, and the one between columns when it differs. -/
structure Gaps where
  row : GapValue
  column : Option GapValue
  deriving BEq

namespace Gaps

/-- Both lengths are checked, the one for the rows first. -/
def rowColumn (row column : LengthPercentage) : Result Gaps :=
  return ⟨.value (← NonNegative.of row), some (.value (← NonNegative.of column))⟩

instance : ToCss Gaps := ⟨fun g => css g.row ++ clause " " g.column⟩

end Gaps

/-- The room between the borders of cells. -/
structure BorderSpacing where
  horizontal : NonNegative Length
  vertical : Option (NonNegative Length)
  deriving BEq

namespace BorderSpacing

/-- Both lengths are checked, a missing one passes. -/
def of (horizontal : Length) (vertical : Option Length) : Result BorderSpacing :=
  return ⟨← NonNegative.of horizontal, ← vertical.mapM NonNegative.of⟩

instance : ToCss BorderSpacing := ⟨fun s => css s.horizontal ++ clause " " s.vertical⟩

end BorderSpacing
end Stylesheet
