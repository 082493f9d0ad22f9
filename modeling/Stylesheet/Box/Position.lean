import Stylesheet.Quantity.Dimension

/-! Where something lies inside a box. -/
namespace Stylesheet

/-- A place across the box. -/
inductive HorizontalKeyword where
  | left | center | right
  deriving DecidableEq

instance : Keyword HorizontalKeyword where
  all := [.left, .center, .right]
  keyword
    | .left => "left"
    | .center => "center"
    | .right => "right"

/-- A place down the box. -/
inductive VerticalKeyword where
  | top | center | bottom
  deriving DecidableEq

instance : Keyword VerticalKeyword where
  all := [.top, .center, .bottom]
  keyword
    | .top => "top"
    | .center => "center"
    | .bottom => "bottom"

/-- A side to measure from. The middle of a box is no side. -/
inductive HorizontalSide where
  | left | right
  deriving DecidableEq

instance : Keyword HorizontalSide where
  all := [.left, .right]
  keyword
    | .left => "left"
    | .right => "right"

/-- A side to measure from, above or below. -/
inductive VerticalSide where
  | top | bottom
  deriving DecidableEq

instance : Keyword VerticalSide where
  all := [.top, .bottom]
  keyword
    | .top => "top"
    | .bottom => "bottom"

/-- A point of a box: by keywords, by distances from the top left corner, or by distances from
sides of choice. -/
inductive Position where
  | keywords (x : HorizontalKeyword) (y : VerticalKeyword)
  | values (x y : LengthPercentage)
  /-- Distances from the sides that are named. -/
  | offsets (xSide : HorizontalSide) (x : LengthPercentage) (ySide : VerticalSide)
      (y : LengthPercentage)
  deriving BEq

namespace Position

/-- The middle of the box. -/
def center : Position := keywords .center .center

/-- Offsets are four words, two for each axis. -/
instance : ToCss Position where
  css
    | keywords x y => css x ++ ' ' :: css y
    | values x y => css x ++ ' ' :: css y
    | offsets xSide x ySide y => css xSide ++ ' ' :: css x ++ ' ' :: css ySide ++ ' ' :: css y

end Position
end Stylesheet
