import Stylesheet.Declaration.Descriptors
import Stylesheet.Query.Feature

/-! Pages and the boxes in their margins. -/
namespace Stylesheet

/-- Which pages of a document a selector is for. -/
inductive PagePseudo where
  | first | left | right | blank
  deriving DecidableEq

instance : Keyword PagePseudo where
  all := [.first, .left, .right, .blank]
  keyword
    | .first => "first"
    | .left => "left"
    | .right => "right"
    | .blank => "blank"

/-- The pages of a name, of some kinds, or both. -/
structure PageSelector where
  name : Option CustomIdent
  pseudos : List PagePseudo
  deriving DecidableEq

namespace PageSelector

/-- A selector for every page, which has no text. -/
def empty : PageSelector := ⟨none, []⟩

/-- The pages of a name. -/
def named (name : CustomIdent) : PageSelector := ⟨some name, []⟩

/-- The pages of a kind. -/
def ofPseudo (pseudo : PagePseudo) : PageSelector := ⟨none, [pseudo]⟩

/-- One more kind that a page has to be of. -/
def withPseudo (s : PageSelector) (pseudo : PagePseudo) : PageSelector :=
  {s with pseudos := s.pseudos ++ [pseudo]}

instance : ToCss PageSelector where
  css s := clause "" s.name ++ s.pseudos.flatMap fun p => ':' :: css p

end PageSelector

/-- Sheets with a name. -/
inductive PaperSize where
  | a5 | a4 | a3 | b5 | b4 | jisB5 | jisB4 | letter | legal | ledger
  deriving DecidableEq

instance : Keyword PaperSize where
  all := [.a5, .a4, .a3, .b5, .b4, .jisB5, .jisB4, .letter, .legal, .ledger]
  keyword
    | .a5 => "A5"
    | .a4 => "A4"
    | .a3 => "A3"
    | .b5 => "B5"
    | .b4 => "B4"
    | .jisB5 => "JIS-B5"
    | .jisB4 => "JIS-B4"
    | .letter => "letter"
    | .legal => "legal"
    | .ledger => "ledger"

/-- How large a page is. -/
inductive PageSize where
  | auto
  /-- Without a height the page is a square. -/
  | dimensions (width : NonNegative Length) (height : Option (NonNegative Length))
  | paper (size : PaperSize) (orientation : Option Orientation)
  | orientation (orientation : Orientation)
  deriving BEq

namespace PageSize

/-- Both lengths are checked, the width first. -/
def ofLengths (width height : Length) : Result PageSize :=
  return dimensions (← NonNegative.of width) (some (← NonNegative.of height))

instance : ToCss PageSize where
  css
    | auto => "auto".toList
    | dimensions width height => css width ++ clause " " height
    | paper size o => css size ++ clause " " o
    | orientation o => css o

end PageSize

/-- The sixteen boxes around a page. -/
inductive MarginBox where
  | topLeftCorner | topLeft | topCenter | topRight | topRightCorner | bottomLeftCorner
  | bottomLeft | bottomCenter | bottomRight | bottomRightCorner | leftTop | leftMiddle
  | leftBottom | rightTop | rightMiddle | rightBottom
  deriving DecidableEq

instance : Keyword MarginBox where
  all := [.topLeftCorner, .topLeft, .topCenter, .topRight, .topRightCorner, .bottomLeftCorner,
    .bottomLeft, .bottomCenter, .bottomRight, .bottomRightCorner, .leftTop, .leftMiddle,
    .leftBottom, .rightTop, .rightMiddle, .rightBottom]
  keyword
    | .topLeftCorner => "top-left-corner"
    | .topLeft => "top-left"
    | .topCenter => "top-center"
    | .topRight => "top-right"
    | .topRightCorner => "top-right-corner"
    | .bottomLeftCorner => "bottom-left-corner"
    | .bottomLeft => "bottom-left"
    | .bottomCenter => "bottom-center"
    | .bottomRight => "bottom-right"
    | .bottomRightCorner => "bottom-right-corner"
    | .leftTop => "left-top"
    | .leftMiddle => "left-middle"
    | .leftBottom => "left-bottom"
    | .rightTop => "right-top"
    | .rightMiddle => "right-middle"
    | .rightBottom => "right-bottom"

/-- What stands in one box of the margin. -/
structure MarginRule where
  box : MarginBox
  declarations : Descriptors
  deriving DecidableEq

namespace MarginRule

/-- A box without declarations yet. -/
def of (box : MarginBox) : MarginRule := ⟨box, .empty⟩

def declare (r : MarginRule) (p : Property) : MarginRule :=
  {r with declarations := r.declarations.declare p}

instance : ToCss MarginRule := ⟨fun r => '@' :: css r.box ++ ' ' :: css r.declarations⟩

end MarginRule

/-- Without a selector, a rule for every page. -/
structure PageRule where
  selectors : List PageSelector
  descriptors : Descriptors
  margins : List MarginRule
  deriving DecidableEq

namespace PageRule

def empty : PageRule := ⟨[], .empty, []⟩

/-- One more kind of page. Selectors are kept in order, with repetitions. -/
def withSelector (r : PageRule) (s : PageSelector) : PageRule :=
  {r with selectors := r.selectors ++ [s]}

/-- A page has one size. A later one takes the place of an earlier one. -/
def withSize (r : PageRule) (size : PageSize) : PageRule :=
  {r with descriptors := r.descriptors.set "size" size}

def declare (r : PageRule) (p : Property) : PageRule :=
  {r with descriptors := r.descriptors.declare p}

/-- A rule takes the place of one for the same box. -/
def withMargin (r : PageRule) (m : MarginRule) : PageRule :=
  {r with margins := replaceOrAppend (·.box == m.box) m r.margins}

/-- The selectors, and the space after them when there are any. -/
def selectorText : List PageSelector → List Char
  | [] => []
  | selectors => commaSeparated selectors ++ [' ']

instance : ToCss PageRule where
  css r :=
    "@page ".toList ++ selectorText r.selectors ++
      blockText (r.descriptors.parts ++ r.margins.map css)

end PageRule
end Stylesheet
