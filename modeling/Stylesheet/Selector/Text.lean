import Stylesheet.Selector.Basic

/-! The text of selectors. -/
namespace Stylesheet

/-- A combinator with the white space around it. -/
instance : ToCss Combinator where
  css c :=
    match c.symbol? with
    | some symbol => ' ' :: symbol.toList ++ [' ']
    | none => [' ']

instance : ToCss TypeSelector where
  css
    | .universal => ['*']
    | .element name => css name

mutual

/-- A filter begins with the sign that tells its kind. -/
def Filter.text : Filter → List Char
  | .id name => '#' :: css name
  | .class name => '.' :: css name
  | .attribute selector => css selector
  | .pseudo pseudo => pseudo.text

/-- Lists of selectors stand in parentheses, with commas between them. -/
def PseudoClass.text : PseudoClass → List Char
  | .keyword keyword => ':' :: css keyword
  | .not ⟨s, ss⟩ => call ":not" (joined ", ".toList (s.text :: Selector.texts ss))
  | .is ⟨s, ss⟩ => call ":is" (joined ", ".toList (s.text :: Selector.texts ss))
  | .whereAny ⟨s, ss⟩ => call ":where" (joined ", ".toList (s.text :: Selector.texts ss))
  | .has ⟨s, ss⟩ => call ":has" (joined ", ".toList (s.text :: RelativeSelector.texts ss))
  | .nthChild nth none => call ":nth-child" (css nth)
  | .nthChild nth (some ⟨s, ss⟩) =>
    call ":nth-child" (css nth ++ " of ".toList ++ joined ", ".toList (s.text :: Selector.texts ss))
  | .nthLastChild nth none => call ":nth-last-child" (css nth)
  | .nthLastChild nth (some ⟨s, ss⟩) =>
    call ":nth-last-child"
      (css nth ++ " of ".toList ++ joined ", ".toList (s.text :: Selector.texts ss))
  | .nthOfType nth => call ":nth-of-type" (css nth)
  | .nthLastOfType nth => call ":nth-last-of-type" (css nth)
  | .lang ranges => call ":lang" (commaSeparated ranges.toList)
  | .dir direction => call ":dir" (css direction)

/-- A compound of nothing is a star. Otherwise the parts follow each other without a space. -/
def Compound.text : Compound → List Char
  | .mk none [] none => ['*']
  | .mk type filters element =>
    clause "" type ++ (Filter.texts filters).flatten ++ clause "" element

/-- Compounds from left to right, each combinator between two of them. -/
def Selector.text : Selector → List Char
  | .compound c => c.text
  | .combined left combinator right => left.text ++ css combinator ++ right.text

/-- The descendant combinator is implied. -/
def RelativeSelector.text : RelativeSelector → List Char
  | .mk combinator selector =>
    (combinator.symbol?.map fun symbol => symbol.toList ++ [' ']).getD [] ++ selector.text

def Filter.texts : List Filter → List (List Char)
  | [] => []
  | f :: fs => f.text :: Filter.texts fs

def Selector.texts : List Selector → List (List Char)
  | [] => []
  | s :: ss => s.text :: Selector.texts ss

def RelativeSelector.texts : List RelativeSelector → List (List Char)
  | [] => []
  | s :: ss => s.text :: RelativeSelector.texts ss

end

instance : ToCss Filter := ⟨Filter.text⟩

instance : ToCss PseudoClass := ⟨PseudoClass.text⟩

instance : ToCss Compound := ⟨Compound.text⟩

instance : ToCss Selector := ⟨Selector.text⟩

instance : ToCss RelativeSelector := ⟨RelativeSelector.text⟩

instance : ToCss SelectorList := ⟨fun l => commaSeparated l.toList⟩

end Stylesheet
