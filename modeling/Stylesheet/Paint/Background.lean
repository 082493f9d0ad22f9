import Stylesheet.Keyword
import Stylesheet.Quantity.NonNegative

/-! How large a background image is drawn. -/
namespace Stylesheet

/-- A length of the image, or the one that keeps its proportions. -/
abbrev BackgroundLength := OrAuto (NonNegative LengthPercentage)

/-- How large a background image is drawn. -/
inductive BackgroundSize where
  | cover
  | contain
  /-- A missing height is `auto`. -/
  | explicit (width : BackgroundLength) (height : Option BackgroundLength)
  deriving BEq

namespace BackgroundSize

/-- Both lengths are checked, the width first. -/
def dimensions (width height : LengthPercentage) : Result BackgroundSize :=
  return explicit (.value (← NonNegative.of width)) (some (.value (← NonNegative.of height)))

instance : ToCss BackgroundSize where
  css
    | cover => "cover".toList
    | contain => "contain".toList
    | explicit width height => css width ++ clause " " height

end BackgroundSize
end Stylesheet
