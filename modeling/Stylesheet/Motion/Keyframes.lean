import Stylesheet.Declaration.Descriptors

/-! Keyframes of an animation.

A keyframe is known by its list of offsets: one with the same list as an earlier one
takes its place. -/
namespace Stylesheet

/-- A moment of an animation. -/
inductive KeyframeOffset where
  | start
  | finish
  | percent (offset : ClampedPercentage)
  deriving BEq

namespace KeyframeOffset

/-- A moment outside the animation becomes its start or its end. -/
def ofPercent (x : Binary32) : KeyframeOffset := percent (.of x)

instance : ToCss KeyframeOffset where
  css
    | start => "from".toList
    | finish => "to".toList
    | percent offset => css offset

end KeyframeOffset

/-- Declarations that hold at some moments, of which there is at least one. -/
structure Keyframe where
  offsets : NonEmpty KeyframeOffset
  declarations : DeclarationBlock
  deriving BEq

namespace Keyframe

def of (offsets : List KeyframeOffset) (declarations : DeclarationBlock) : Result Keyframe :=
  return ⟨← NonEmpty.ofList "keyframe selector" offsets, declarations⟩

/-- A single moment needs no check. -/
def single (offset : KeyframeOffset) (declarations : DeclarationBlock) : Keyframe :=
  ⟨.single offset, declarations⟩

instance : ToCss Keyframe where
  css k := commaSeparated k.offsets.toList ++ ' ' :: css k.declarations

end Keyframe

/-- The name of an animation. `none` stands for no animation and cannot name one. -/
abbrev KeyframesName := IdentExcept ["none"]

/-- An animation: its name, and what holds when. -/
structure KeyframesRule where
  name : KeyframesName
  keyframes : List Keyframe
  deriving BEq

namespace KeyframesRule

/-- An animation starts without keyframes. -/
def of (name : CustomIdent) : Result KeyframesRule := return ⟨← IdentExcept.of name, []⟩

/-- A keyframe takes the place of one with the same offsets. -/
def withKeyframe (r : KeyframesRule) (k : Keyframe) : KeyframesRule :=
  {r with keyframes := replaceOrAppend (·.offsets == k.offsets) k r.keyframes}

/-- A keyframe at a single offset. -/
def withKeyframeAt (r : KeyframesRule) (offset : KeyframeOffset)
    (declarations : DeclarationBlock) : KeyframesRule :=
  r.withKeyframe (.single offset declarations)

instance : ToCss KeyframesRule where
  css r := "@keyframes ".toList ++ css r.name ++ ' ' :: blockText (r.keyframes.map css)

end KeyframesRule
end Stylesheet
