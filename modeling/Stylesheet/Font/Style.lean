import Stylesheet.Quantity.NonNegative

/-! The size, weight, slant and width of a font. -/
namespace Stylesheet

/-- A size from the table that the reader's system keeps. -/
inductive AbsoluteFontSize where
  | xxSmall | xSmall | small | medium | large | xLarge | xxLarge | xxxLarge
  deriving DecidableEq

instance : Keyword AbsoluteFontSize where
  all := [.xxSmall, .xSmall, .small, .medium, .large, .xLarge, .xxLarge, .xxxLarge]
  keyword
    | .xxSmall => "xx-small"
    | .xSmall => "x-small"
    | .small => "small"
    | .medium => "medium"
    | .large => "large"
    | .xLarge => "x-large"
    | .xxLarge => "xx-large"
    | .xxxLarge => "xxx-large"

/-- A size relative to that of the parent. -/
inductive RelativeFontSize where
  | larger | smaller
  deriving DecidableEq

instance : Keyword RelativeFontSize where
  all := [.larger, .smaller]
  keyword
    | .larger => "larger"
    | .smaller => "smaller"

/-- The height of a font. -/
inductive FontSize where
  | absolute (size : AbsoluteFontSize)
  | relative (size : RelativeFontSize)
  | size (value : NonNegative LengthPercentage)
  | math
  deriving BEq

instance : ToCss FontSize where
  css
    | .absolute size => css size
    | .relative size => css size
    | .size value => css value
    | .math => "math".toList

/-- From one to a thousand; 400 is the regular weight. -/
abbrev FontWeightNumber := Clamped weightRange

/-- How bold a font is. `bolder` and `lighter` are relative to the parent. -/
inductive FontWeight where
  | normal
  | bold
  | bolder
  | lighter
  | number (weight : FontWeightNumber)
  deriving BEq

namespace FontWeight

/-- A number outside the range becomes the nearer end of it. -/
def ofNumber (x : Binary32) : FontWeight := number (.of weightRange_valid x)

instance : ToCss FontWeight where
  css
    | normal => "normal".toList
    | bold => "bold".toList
    | bolder => "bolder".toList
    | lighter => "lighter".toList
    | number weight => css weight

end FontWeight

/-- Whether a font is slanted, and by what angle when that is known. -/
inductive FontStyle where
  | normal
  | italic
  | oblique (angle : Option Angle)
  deriving BEq

instance : ToCss FontStyle where
  css
    | .normal => "normal".toList
    | .italic => "italic".toList
    | .oblique angle => "oblique".toList ++ clause " " angle

/-- How wide the letters are, from the narrowest on. -/
inductive FontWidth where
  | ultraCondensed | extraCondensed | condensed | semiCondensed | normal | semiExpanded
  | expanded | extraExpanded | ultraExpanded
  deriving DecidableEq

instance : Keyword FontWidth where
  all := [.ultraCondensed, .extraCondensed, .condensed, .semiCondensed, .normal, .semiExpanded,
    .expanded, .extraExpanded, .ultraExpanded]
  keyword
    | .ultraCondensed => "ultra-condensed"
    | .extraCondensed => "extra-condensed"
    | .condensed => "condensed"
    | .semiCondensed => "semi-condensed"
    | .normal => "normal"
    | .semiExpanded => "semi-expanded"
    | .expanded => "expanded"
    | .extraExpanded => "extra-expanded"
    | .ultraExpanded => "ultra-expanded"

/-- A width by its name, or as a share of the normal one. -/
abbrev FontStretch := FontWidth ⊕ NonNegative Percentage

end Stylesheet
