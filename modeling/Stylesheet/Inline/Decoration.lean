import Stylesheet.Text.Css

/-! The lines that decorate text. -/
namespace Stylesheet

/-- The set of lines that a text is decorated with. -/
structure DecorationLines where
  underline : Bool
  overline : Bool
  lineThrough : Bool
  blink : Bool
  deriving DecidableEq

namespace DecorationLines

/-- No line at all, which is `none` as a text. -/
def empty : DecorationLines := ⟨false, false, false, false⟩

/-- A line below the text and no other. -/
def underlined : DecorationLines := {empty with underline := true}

/-- A line above the text and no other. -/
def overlined : DecorationLines := {empty with overline := true}

/-- A line through the text and no other. -/
def struckThrough : DecorationLines := {empty with lineThrough := true}

/-- The lines of either set. -/
def union (a b : DecorationLines) : DecorationLines :=
  ⟨a.underline || b.underline, a.overline || b.overline, a.lineThrough || b.lineThrough,
    a.blink || b.blink⟩

/-- The words of the lines that are set, in a fixed order. -/
def words (d : DecorationLines) : List (List Char) :=
  [(d.underline, "underline"), (d.overline, "overline"), (d.lineThrough, "line-through"),
    (d.blink, "blink")].filterMap fun p => if p.1 then some p.2.toList else none

instance : ToCss DecorationLines where
  css d := if d = empty then "none".toList else joined [' '] d.words

end DecorationLines
end Stylesheet
