import Stylesheet.Name.Identifier

/-! The lines of a grid, between which items are placed. -/
namespace Stylesheet

/-- The number of a line; negative ones count from the end. -/
structure LineIndex where
  index : Int
  ne_zero : index ≠ 0
  deriving DecidableEq

/-- Lines count from one, in either direction, so that there is no line zero. -/
def LineIndex.of (index : Int) : Result LineIndex :=
  if h : index = 0 then .error .zeroLine else .ok ⟨index, h⟩

/-- How many tracks an item covers. -/
structure SpanCount where
  count : Nat
  ne_zero : count ≠ 0
  deriving DecidableEq

/-- An item covers at least one track. -/
def SpanCount.of (count : Nat) : Result SpanCount :=
  if h : count = 0 then .error (.tooSmall "span count" 0 1) else .ok ⟨count, h⟩

/-- Where an item starts or ends. -/
inductive GridLine where
  | auto
  | line (index : LineIndex)
  | named (name : CustomIdent)
  /-- As many tracks away from the opposite line. -/
  | span (count : SpanCount)
  deriving DecidableEq

namespace GridLine

/-- A line by its number. -/
def ofIndex (index : Int) : Result GridLine := return line (← LineIndex.of index)

/-- A distance from the opposite line. -/
def ofSpan (count : Nat) : Result GridLine := return span (← SpanCount.of count)

instance : ToCss GridLine where
  css
    | auto => "auto".toList
    | line i => integerText i.index
    | named name => css name
    | span n => "span ".toList ++ decimalDigits n.count

end GridLine

end Stylesheet
