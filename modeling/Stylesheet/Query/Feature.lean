import Stylesheet.Error
import Stylesheet.Quantity.Dimension

/-! Tests of a feature, either by name and value or as a range. -/
namespace Stylesheet

/-- A width over a height. It is not reduced: `2/2` and `1/1` are different. -/
@[ext] structure Ratio where
  numerator : Nat
  denominator : Nat
  ne_zero : denominator ≠ 0

instance : DecidableEq Ratio := fun _ _ => decidable_of_iff' _ Ratio.ext_iff

/-- Only the height has to be something. -/
def Ratio.of (numerator denominator : Nat) : Result Ratio :=
  if h : denominator = 0 then .error (.tooSmall "ratio denominator" 0 1)
  else .ok ⟨numerator, denominator, h⟩

instance : ToCss Ratio := ⟨fun r => css r.numerator ++ '/' :: css r.denominator⟩

/-- Whether the page is higher than wide. -/
inductive Orientation where
  | portrait | landscape
  deriving DecidableEq

instance : Keyword Orientation where
  all := [.portrait, .landscape]
  keyword
    | .portrait => "portrait"
    | .landscape => "landscape"

/-! ### By name -/

/-- Which side of its value a feature may lie on. -/
inductive Bound where
  | exactly
  | atLeast
  | atMost
  deriving DecidableEq

/-- What a bound puts in front of the name. -/
def Bound.text : Bound → List Char
  | exactly => []
  | atLeast => "min-".toList
  | atMost => "max-".toList

/-- A feature without a value only has to be there. -/
structure NamedTest where
  name : List Char
  value : Option (List Char)
  deriving DecidableEq

namespace NamedTest

/-- A test of a value, with the bound in the name. -/
def bounded {α : Type} [ToCss α] (bound : Bound) (name : String) (value : α) : NamedTest :=
  ⟨bound.text ++ name.toList, some (css value)⟩

/-- A test of one value. -/
def exact {α : Type} [ToCss α] (name : String) (value : α) : NamedTest :=
  bounded .exactly name value

instance : ToCss NamedTest where
  css t := '(' :: t.name ++ (t.value.map (": ".toList ++ ·)).getD [] ++ [')']

end NamedTest

/-! ### As a range -/

/-- The features that have an order. -/
inductive RangeFeature where
  | width | height | inlineSize | blockSize | aspectRatio | resolution
  deriving DecidableEq

instance : Keyword RangeFeature where
  all := [.width, .height, .inlineSize, .blockSize, .aspectRatio, .resolution]
  keyword
    | .width => "width"
    | .height => "height"
    | .inlineSize => "inline-size"
    | .blockSize => "block-size"
    | .aspectRatio => "aspect-ratio"
    | .resolution => "resolution"

/-- How two values are compared. -/
inductive Comparison where
  | less | lessEqual | greater | greaterEqual | equal
  deriving DecidableEq

instance : Keyword Comparison where
  all := [.less, .lessEqual, .greater, .greaterEqual, .equal]
  keyword
    | .less => "<"
    | .lessEqual => "<="
    | .greater => ">"
    | .greaterEqual => ">="
    | .equal => "="

/-- What a feature may be compared with. -/
inductive RangeValue where
  | length (l : Length)
  | ratio (r : Ratio)
  | resolution (r : Resolution)
  deriving BEq

instance : ToCss RangeValue where
  css
    | .length l => css l
    | .ratio r => css r
    | .resolution r => css r

/-- A feature between bounds. There is one bound, or one on each side. -/
inductive RangeTest where
  | compare (feature : RangeFeature) (comparison : Comparison) (value : RangeValue)
  | interval (lower : RangeValue) (fromLower : Comparison) (feature : RangeFeature)
      (toUpper : Comparison) (upper : RangeValue)
  deriving BEq

namespace RangeTest

/-- Both ends belong to the range. -/
def between (lower : RangeValue) (feature : RangeFeature) (upper : RangeValue) : RangeTest :=
  interval lower .lessEqual feature .lessEqual upper

/-- The words of a test, which stand apart by single spaces. -/
def words : RangeTest → List (List Char)
  | compare feature comparison value => [css feature, css comparison, css value]
  | interval lower fromLower feature toUpper upper =>
    [css lower, css fromLower, css feature, css toUpper, css upper]

instance : ToCss RangeTest := ⟨fun t => '(' :: joined [' '] t.words ++ [')']⟩

end RangeTest
end Stylesheet
