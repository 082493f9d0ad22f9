import Stylesheet.Paint.Color
import Stylesheet.Quantity.NonNegative

/-! The lines around boxes. -/
namespace Stylesheet

/-- How a line is drawn. -/
inductive LineStyle where
  | none | hidden | dotted | dashed | solid | double | groove | ridge | inset | outset
  deriving DecidableEq

instance : Keyword LineStyle where
  all := [.none, .hidden, .dotted, .dashed, .solid, .double, .groove, .ridge, .inset, .outset]
  keyword
    | .none => "none"
    | .hidden => "hidden"
    | .dotted => "dotted"
    | .dashed => "dashed"
    | .solid => "solid"
    | .double => "double"
    | .groove => "groove"
    | .ridge => "ridge"
    | .inset => "inset"
    | .outset => "outset"

/-- How thick a line is. -/
inductive LineWidth where
  | thin
  | medium
  | thick
  | length (value : NonNegative Length)
  deriving BEq

namespace LineWidth

/-- A line may be of no width but not of a negative one. -/
def ofLength (l : Length) : Result LineWidth := return length (← NonNegative.of l)

instance : ToCss LineWidth where
  css
    | thin => "thin".toList
    | medium => "medium".toList
    | thick => "thick".toList
    | length value => css value

end LineWidth

/-- A border or an outline on one side. Parts that are missing have their initial
values, and a side without any part is no line at all. -/
structure BorderSide where
  width : Option LineWidth
  style : Option LineStyle
  color : Option Color
  deriving BEq

namespace BorderSide

/-- A side that says nothing. -/
def empty : BorderSide := ⟨none, none, none⟩

def withWidth (s : BorderSide) (width : LineWidth) : BorderSide := {s with width := some width}

/-- Setting a part again replaces it. -/
def withStyle (s : BorderSide) (style : LineStyle) : BorderSide := {s with style := some style}

def withColor (s : BorderSide) (color : Color) : BorderSide := {s with color := some color}

/-- A side that says of itself that it has no line. -/
def noLine : BorderSide := empty.withStyle .none

/-- The texts of the parts that are there. -/
def parts (s : BorderSide) : List (List Char) :=
  (s.width.map css).toList ++ (s.style.map css).toList ++ (s.color.map css).toList

instance : ToCss BorderSide where
  css s := if s.parts.isEmpty then css LineStyle.none else joined [' '] s.parts

end BorderSide
end Stylesheet
