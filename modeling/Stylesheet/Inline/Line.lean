import Stylesheet.Keyword
import Stylesheet.Quantity.NonNegative

/-! The height of lines, the room between letters and words, and where inline boxes stand
on a line. -/
namespace Stylesheet

/-- A multiple of the font size, or a height of its own. -/
abbrev LineHeight := OrNormal (NonNegative Binary32 ⊕ NonNegative LengthPercentage)

/-- Room that is added between letters or words. It may be negative. -/
abbrev TextSpacing := OrNormal LengthPercentage

/-- Where a box stands on its line. -/
inductive VerticalAlignKeyword where
  | baseline | sub | super | textTop | textBottom | middle | top | bottom
  deriving DecidableEq

instance : Keyword VerticalAlignKeyword where
  all := [.baseline, .sub, .super, .textTop, .textBottom, .middle, .top, .bottom]
  keyword
    | .baseline => "baseline"
    | .sub => "sub"
    | .super => "super"
    | .textTop => "text-top"
    | .textBottom => "text-bottom"
    | .middle => "middle"
    | .top => "top"
    | .bottom => "bottom"

/-- A place on the line, or a distance above it. -/
abbrev VerticalAlign := VerticalAlignKeyword ⊕ LengthPercentage

end Stylesheet
