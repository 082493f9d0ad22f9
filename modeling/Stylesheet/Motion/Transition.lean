import Stylesheet.Name.Identifier
import Stylesheet.Property.Name
import Stylesheet.Quantity.NonNegative

/-! What transitions, and which animation runs how often. -/
namespace Stylesheet

/-- What moves when its value changes. -/
inductive TransitionTarget where
  | all
  | property (name : PropertyName)
  /-- A property that the author defines. -/
  | custom (name : DashedIdent)
  deriving DecidableEq

instance : ToCss TransitionTarget where
  css
    | .all => "all".toList
    | .property name => css name
    | .custom name => css name

/-- The properties that transition. An empty list is `none`. -/
abbrev TransitionTargets := ListOrNone ", " TransitionTarget

/-- The animation that runs, if any. -/
abbrev AnimationName := OrNone CustomIdent

/-- How often an animation runs. The count need not be a whole number. -/
abbrev IterationCount := OrKeyword "infinite" (NonNegative Binary32)

end Stylesheet
