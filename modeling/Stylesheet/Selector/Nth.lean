import Stylesheet.Number.Decimal
import Stylesheet.Text.Css

/-! Positions counted in steps, such as `2n+1`. -/
namespace Stylesheet

inductive Nth where
  | odd
  | even
  /-- Every `step`-th position from `offset` on. -/
  | steps (step offset : Int)
  deriving DecidableEq

namespace Nth

/-- The offset after a coefficient, always with a sign and missing when it is zero. -/
def offsetText (b : Int) : List Char :=
  if 0 < b then '+' :: integerText b else if b < 0 then integerText b else []

/-- A coefficient of one is only its sign. -/
def stepText (a : Int) : List Char :=
  if a = 1 then ['n'] else if a = -1 then ['-', 'n'] else integerText a ++ ['n']

instance : ToCss Nth where
  css
    | odd => "odd".toList
    | even => "even".toList
    | steps a b => if a = 0 then integerText b else stepText a ++ offsetText b

end Nth
end Stylesheet
