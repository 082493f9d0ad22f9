import Stylesheet.Name.Quoted
import Stylesheet.Paint.Color
import Stylesheet.Quantity.Dimension

/-! Images: addresses and linear gradients. -/
namespace Stylesheet

/-- A side or a corner that a gradient runs to. -/
inductive GradientSide where
  | toTop | toRight | toBottom | toLeft | toTopLeft | toTopRight | toBottomLeft | toBottomRight
  deriving DecidableEq

instance : Keyword GradientSide where
  all := [.toTop, .toRight, .toBottom, .toLeft, .toTopLeft, .toTopRight, .toBottomLeft,
    .toBottomRight]
  keyword
    | .toTop => "to top"
    | .toRight => "to right"
    | .toBottom => "to bottom"
    | .toLeft => "to left"
    | .toTopLeft => "to top left"
    | .toTopRight => "to top right"
    | .toBottomLeft => "to bottom left"
    | .toBottomRight => "to bottom right"

/-- An angle, or a side to run to. -/
abbrev GradientDirection := Angle ⊕ GradientSide

/-- A color of a gradient, and where it stands when that is fixed. -/
structure ColorStop where
  color : Color
  position : Option LengthPercentage
  deriving BEq

namespace ColorStop

/-- A stop whose place follows from its neighbours. -/
def of (color : Color) : ColorStop := ⟨color, none⟩

/-- The same stop at a place of its own. -/
def positioned (s : ColorStop) (position : LengthPercentage) : ColorStop :=
  {s with position := some position}

instance : ToCss ColorStop := ⟨fun s => css s.color ++ clause " " s.position⟩

end ColorStop

/-- Colors along a line. It takes two of them to make a gradient. -/
structure LinearGradient where
  repeating : Bool
  direction : Option GradientDirection
  stops : List ColorStop
  two_le_length : 2 ≤ stops.length

namespace LinearGradient

/-- The message for too few stops says how many there were. -/
def of (stops : List ColorStop) : Result LinearGradient :=
  if h : 2 ≤ stops.length then .ok ⟨false, none, stops, h⟩
  else .error (.tooSmall "linear-gradient() color stops" stops.length 2)

/-- The same gradient in another direction. -/
def toward (g : LinearGradient) (direction : GradientDirection) : LinearGradient :=
  {g with direction := some direction}

/-- The same gradient, starting again after its last stop. -/
def repeated (g : LinearGradient) : LinearGradient := {g with repeating := true}

instance : BEq LinearGradient where
  beq a b := a.repeating == b.repeating && a.direction == b.direction && a.stops == b.stops

instance : ToCss LinearGradient where
  css g :=
    call (if g.repeating then "repeating-linear-gradient" else "linear-gradient")
      (joined ", ".toList ((g.direction.map css).toList ++ g.stops.map css))

end LinearGradient

/-- What is painted where an image may stand. -/
inductive Image where
  | none
  | url (url : Url)
  | gradient (gradient : LinearGradient)
  deriving BEq

instance : ToCss Image where
  css
    | .none => "none".toList
    | .url u => css u
    | .gradient g => css g

end Stylesheet
