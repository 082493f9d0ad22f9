import Stylesheet.Error
import Stylesheet.Keyword
import Stylesheet.Quantity.Number

/-! How a transition or an animation progresses in time. -/
namespace Stylesheet

/-- Where the jumps of a staircase are. `start` and `end` are older names for `jump-start` and
`jump-end`. -/
inductive StepPosition where
  | jumpStart | jumpEnd | jumpNone | jumpBoth | start | finish
  deriving DecidableEq

instance : Keyword StepPosition where
  all := [.jumpStart, .jumpEnd, .jumpNone, .jumpBoth, .start, .finish]
  keyword
    | .jumpStart => "jump-start"
    | .jumpEnd => "jump-end"
    | .jumpNone => "jump-none"
    | .jumpBoth => "jump-both"
    | .start => "start"
    | .finish => "end"

/-- The two inner points of a curve; their first coordinates are times. -/
structure CubicBezier where
  x₁ : Clamped unitRange
  y₁ : Binary32
  x₂ : Clamped unitRange
  y₂ : Binary32
  deriving BEq

instance : ToCss CubicBezier where
  css c := call "cubic-bezier" (commaSeparated [c.x₁.value, c.y₁, c.x₂.value, c.y₂])

/-- Without a jump at either end, one step alone would never move. -/
def leastSteps (position : Option StepPosition) : Nat :=
  if position = some .jumpNone then 2 else 1

/-- A staircase with as many steps as its jumps need. -/
structure Steps where
  count : Nat
  position : Option StepPosition
  least_le : leastSteps position ≤ count
  deriving DecidableEq

instance : ToCss Steps := ⟨fun s => call "steps" (css s.count ++ clause ", " s.position)⟩

/-- How far a motion has come at a time of its course. -/
inductive Easing where
  | linear
  | ease
  | easeIn
  | easeOut
  | easeInOut
  | stepStart
  | stepEnd
  | cubicBezier (curve : CubicBezier)
  | steps (steps : Steps)
  deriving BEq

namespace Easing

/-- Times are clamped to the course of the motion. The heights may overshoot. -/
def ofCubicBezier (x₁ y₁ x₂ y₂ : Binary32) : Easing :=
  cubicBezier ⟨.of unitRange_valid x₁, y₁, .of unitRange_valid x₂, y₂⟩

/-- The message for too few steps says how many there have to be. -/
def ofSteps (count : Nat) (position : Option StepPosition) : Result Easing :=
  if h : leastSteps position ≤ count then .ok (steps ⟨count, position, h⟩)
  else .error (.tooSmall "steps() count" count (leastSteps position))

instance : ToCss Easing where
  css
    | linear => "linear".toList
    | ease => "ease".toList
    | easeIn => "ease-in".toList
    | easeOut => "ease-out".toList
    | easeInOut => "ease-in-out".toList
    | stepStart => "step-start".toList
    | stepEnd => "step-end".toList
    | cubicBezier c => css c
    | steps s => css s

end Easing
end Stylesheet
