import Stylesheet.Keyword
import Stylesheet.Quantity.Dimension

/-! Transformations of a box. -/
namespace Stylesheet

inductive TransformFunction where
  | translate (x : LengthPercentage) (y : Option LengthPercentage)
  | translateX (x : LengthPercentage)
  | translateY (y : LengthPercentage)
  | scale (x : Binary32) (y : Option Binary32)
  | scaleX (x : Binary32)
  | scaleY (y : Binary32)
  | rotate (angle : Angle)
  | skew (x : Angle) (y : Option Angle)
  | skewX (x : Angle)
  | skewY (y : Angle)
  | matrix (a b c d e f : Binary32)
  | perspective (distance : Length)
  deriving BEq

instance : ToCss TransformFunction where
  css
    | .translate x y => call "translate" (css x ++ clause ", " y)
    | .translateX x => call "translateX" (css x)
    | .translateY y => call "translateY" (css y)
    | .scale x y => call "scale" (css x ++ clause ", " y)
    | .scaleX x => call "scaleX" (css x)
    | .scaleY y => call "scaleY" (css y)
    | .rotate angle => call "rotate" (css angle)
    | .skew x y => call "skew" (css x ++ clause ", " y)
    | .skewX x => call "skewX" (css x)
    | .skewY y => call "skewY" (css y)
    | .matrix a b c d e f => call "matrix" (commaSeparated [a, b, c, d, e, f])
    | .perspective distance => call "perspective" (css distance)

/-- Applied from left to right. -/
abbrev TransformList := ListOrNone " " TransformFunction

end Stylesheet
