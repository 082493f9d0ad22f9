import Stylesheet.Keyword
import Stylesheet.Quantity.NonNegative

/-! How wide or high a box is. -/
namespace Stylesheet

/-- A width or a height, from a length or from the contents. -/
inductive Extent where
  | size (value : NonNegative LengthPercentage)
  | minContent
  | maxContent
  | fitContent
  /-- As `fitContent`, but with a limit of its own. -/
  | fitContentUpTo (limit : NonNegative LengthPercentage)
  deriving BEq

instance : ToCss Extent where
  css
    | .size value => css value
    | .minContent => "min-content".toList
    | .maxContent => "max-content".toList
    | .fitContent => "fit-content".toList
    | .fitContentUpTo limit => call "fit-content" (css limit)

/-- An extent, or one that follows from the layout. -/
abbrev Size := OrAuto Extent

/-- A limit, or none. -/
abbrev MaxSize := OrNone Extent

/-- The size along the main axis before the free space is shared out. -/
abbrev FlexBasis := OrKeyword "content" Size

end Stylesheet
