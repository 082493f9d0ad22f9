import Stylesheet.Selector.Attribute
import Stylesheet.Selector.Nth
import Stylesheet.Selector.Pseudo

/-! Selectors.

A compound selector describes one element: its type, then filters in the order in which
they were added, then at most one pseudo-element. Compounds joined by combinators make a
selector, and pseudo-classes hold lists of selectors in turn. -/
namespace Stylesheet

inductive Combinator where
  | descendant
  | child
  | nextSibling
  | subsequentSibling
  | column
  deriving DecidableEq

/-- The token of a combinator; a descendant is told by white space alone. -/
def Combinator.symbol? : Combinator → Option String
  | descendant => none
  | child => some ">"
  | nextSibling => some "+"
  | subsequentSibling => some "~"
  | column => some "||"

inductive TypeSelector where
  | universal
  | element (name : Identifier)
  deriving DecidableEq

mutual

/-- Filters an element without naming its type. -/
inductive Filter where
  | id (name : Identifier)
  | class (name : Identifier)
  | attribute (selector : AttributeSelector)
  | pseudo (pseudo : PseudoClass)

inductive PseudoClass where
  | keyword (keyword : PseudoClassKeyword)
  | not (selectors : NonEmpty Selector)
  | is (selectors : NonEmpty Selector)
  | whereAny (selectors : NonEmpty Selector)
  | has (selectors : NonEmpty RelativeSelector)
  | nthChild (nth : Nth) (selectors : Option (NonEmpty Selector))
  | nthLastChild (nth : Nth) (selectors : Option (NonEmpty Selector))
  | nthOfType (nth : Nth)
  | nthLastOfType (nth : Nth)
  | lang (ranges : NonEmpty Identifier)
  | dir (direction : TextDirection)

/-- A compound with nothing in it matches every element. -/
inductive Compound where
  | mk (type : Option TypeSelector) (filters : List Filter) (element : Option PseudoElement)

inductive Selector where
  | compound (compound : Compound)
  | combined (left : Selector) (combinator : Combinator) (right : Compound)

/-- A selector that starts from an element which is already known. -/
inductive RelativeSelector where
  | mk (combinator : Combinator) (selector : Selector)

end

abbrev SelectorList := NonEmpty Selector

/-! ### Building -/

namespace Compound

def empty : Compound := mk none [] none

def universal : Compound := mk (some .universal) [] none

def element (name : String) : Result Compound :=
  return mk (some (.element (← Identifier.of name))) [] none

def filter : Compound → Filter → Compound
  | mk type filters element, f => mk type (filters ++ [f]) element

def withId (c : Compound) (name : String) : Result Compound :=
  return c.filter (.id (← Identifier.of name))

def withClass (c : Compound) (name : String) : Result Compound :=
  return c.filter (.class (← Identifier.of name))

/-- Takes the place of any pseudo-element before. -/
def withElement : Compound → PseudoElement → Compound
  | mk type filters _, element => mk type filters (some element)

def isEmpty : Compound → Bool
  | mk none [] none => true
  | _ => false

end Compound

def PseudoClass.ofRelative (selectors : List RelativeSelector) : Result PseudoClass :=
  return has (← NonEmpty.ofList ":has()" selectors)

/-- Each language range is checked before the list. -/
def PseudoClass.ofRanges (ranges : List String) : Result PseudoClass := do
  return lang (← NonEmpty.ofList ":lang()" (← ranges.mapM Identifier.of))

def SelectorList.of (selectors : List Selector) : Result SelectorList :=
  NonEmpty.ofList "selector list" selectors

end Stylesheet
