import Stylesheet.Selector.Text
import Stylesheet.Proofs.Selector.Part

/-! A reader of selectors.

It takes a text apart by the characters that open each part, and enters a pseudo-class that
holds selectors with one less to go. The text's own length is more than it can need. -/
namespace Stylesheet

/-! ### What a selector reads back as -/

/-- Null characters become replacement characters. -/
def TypeSelector.normal : TypeSelector → TypeSelector
  | .universal => .universal
  | .element name => .element name.normal

mutual

/-- A selector as it reads back, with the null characters of all its names and strings replaced. -/
def Filter.normal : Filter → Filter
  | .id name => .id name.normal
  | .class name => .class name.normal
  | .attribute selector => .attribute selector.normal
  | .pseudo pseudo => .pseudo pseudo.normal

def PseudoClass.normal : PseudoClass → PseudoClass
  | .keyword keyword => .keyword keyword
  | .not ⟨s, ss⟩ => .not ⟨s.normal, Selector.normals ss⟩
  | .is ⟨s, ss⟩ => .is ⟨s.normal, Selector.normals ss⟩
  | .whereAny ⟨s, ss⟩ => .whereAny ⟨s.normal, Selector.normals ss⟩
  | .has ⟨s, ss⟩ => .has ⟨s.normal, RelativeSelector.normals ss⟩
  | .nthChild nth none => .nthChild nth none
  | .nthChild nth (some ⟨s, ss⟩) => .nthChild nth (some ⟨s.normal, Selector.normals ss⟩)
  | .nthLastChild nth none => .nthLastChild nth none
  | .nthLastChild nth (some ⟨s, ss⟩) => .nthLastChild nth (some ⟨s.normal, Selector.normals ss⟩)
  | .nthOfType nth => .nthOfType nth
  | .nthLastOfType nth => .nthLastOfType nth
  | .lang ranges => .lang ⟨ranges.first.normal, ranges.rest.map .normal⟩
  | .dir direction => .dir direction

/-- A compound with nothing in it becomes the universal one. -/
def Compound.normal : Compound → Compound
  | .mk none [] none => .universal
  | .mk type filters element =>
    .mk (type.map .normal) (Filter.normals filters) (element.map .normal)

/-- A combinator has nothing in it to replace. -/
def Selector.normal : Selector → Selector
  | .compound c => .compound c.normal
  | .combined left combinator right => .combined left.normal combinator right.normal

def RelativeSelector.normal : RelativeSelector → RelativeSelector
  | .mk combinator selector => .mk combinator selector.normal

def Filter.normals : List Filter → List Filter
  | [] => []
  | f :: fs => f.normal :: Filter.normals fs

def Selector.normals : List Selector → List Selector
  | [] => []
  | s :: ss => s.normal :: Selector.normals ss

def RelativeSelector.normals : List RelativeSelector → List RelativeSelector
  | [] => []
  | s :: ss => s.normal :: RelativeSelector.normals ss

end

def SelectorList.normal (l : SelectorList) : SelectorList :=
  ⟨l.first.normal, Selector.normals l.rest⟩

/-! ### The reader -/

/-- The pseudo-element comes last, if there is one. -/
def Compound.ending (c : Compound) (element : Option PseudoElement) : Compound :=
  element.elim c c.withElement

/-- The pseudo-classes that take arguments. -/
inductive PseudoFunction where
  | not | is | whereAny | has | nthChild | nthLastChild | nthOfType | nthLastOfType | lang | dir

instance : Keyword PseudoFunction where
  all := [.not, .is, .whereAny, .has, .nthChild, .nthLastChild, .nthOfType, .nthLastOfType, .lang,
    .dir]
  keyword
    | .not => "not"
    | .is => "is"
    | .whereAny => "where"
    | .has => "has"
    | .nthChild => "nth-child"
    | .nthLastChild => "nth-last-child"
    | .nthOfType => "nth-of-type"
    | .nthLastOfType => "nth-last-of-type"
    | .lang => "lang"
    | .dir => "dir"

instance : LawfulKeyword PseudoFunction := ⟨by intro f; cases f <;> rfl⟩

/-- The characters that begin a filter. -/
def filterMarks : List Char := ['#', '.', '[', ':']

/-- A star, or whatever may begin a name. -/
def beginsType (c : Char) : Bool := c == '*' || !nameEnd c

/-- Two colons begin a pseudo-element. -/
def beginsFilter : List Char → Bool
  | ':' :: ':' :: _ => false
  | c :: _ => filterMarks.contains c
  | [] => false

def headIs (c : Char) (t : List Char) : Bool := t.head? == some c

namespace Reader

def typeSelector : Reader TypeSelector := fun
  | '*' :: t => some (.universal, t)
  | t => (TypeSelector.element <$> identifier) t

/-- A combinator's symbol with its space, and for want of one the descendant combinator. -/
def combinator : Reader Combinator := fun
  | '>' :: ' ' :: t => some (.child, t)
  | '+' :: ' ' :: t => some (.nextSibling, t)
  | '~' :: ' ' :: t => some (.subsequentSibling, t)
  | '|' :: '|' :: ' ' :: t => some (.column, t)
  | t => some (.descendant, t)

section Nested

variable (pseudo : Reader PseudoClass) (limit : Nat)

/-- The first character tells which filter it is. -/
def filter : Reader Filter := fun
  | '#' :: t => (Filter.id <$> identifier) t
  | '.' :: t => (Filter.class <$> identifier) t
  | '[' :: t => (Filter.attribute <$> attributeSelector) ('[' :: t)
  | t => (Filter.pseudo <$> pseudo) t

def withFilter (c : Compound) : Reader Compound := c.filter <$> filter pseudo

/-- A type, filters up to the limit, and a pseudo-element. Each may be missing. -/
def parts : Reader Compound := do
  let type ← opt beginsType typeSelector
  let c ← loop beginsFilter (withFilter pseudo) limit (.mk type [] none)
  let element ← opt (· == ':') (pseudoElement limit)
  return c.ending element

/-- At least one of them has to be there. -/
def compound : Reader Compound :=
  (parts pseudo limit).pick fun c => if c.isEmpty then none else some c

/-- The next compound and how it is joined to what is on its left. -/
def step (left : Selector) : Reader Selector := do
  expect [' ']
  let combinator ← combinator
  let right ← compound pseudo limit
  return .combined left combinator right

/-- Compounds with combinators between them; each begins with a space. -/
def selector : Reader Selector := do
  let first ← compound pseudo limit
  loop (headIs ' ') (step pseudo limit) limit (.compound first)

/-- A combinator may come first. -/
def relative : Reader RelativeSelector := do
  let combinator ← combinator
  let s ← selector pseudo limit
  return .mk combinator s

def selectors : Reader SelectorList := listOf [',', ' '] (selector pseudo limit) limit

/-- A position, and the selectors behind `of`. -/
def positions (f : Nth → Option SelectorList → PseudoClass) : Reader PseudoClass := do
  let n ← nth
  let among ← opt (· == ' ') (do expect [' ', 'o', 'f', ' ']; selectors pseudo limit)
  return f n among

/-- What stands in the parentheses of each function. -/
def arguments : PseudoFunction → Reader PseudoClass
  | .not => .not <$> selectors pseudo limit
  | .is => .is <$> selectors pseudo limit
  | .whereAny => .whereAny <$> selectors pseudo limit
  | .has => .has <$> listOf [',', ' '] (relative pseudo limit) limit
  | .nthChild => positions pseudo limit .nthChild
  | .nthLastChild => positions pseudo limit .nthLastChild
  | .nthOfType => .nthOfType <$> nth
  | .nthLastOfType => .nthLastOfType <$> nth
  | .lang => .lang <$> listOf [',', ' '] identifier limit
  | .dir => .dir <$> keyword isWordChar

end Nested

/-- The reader that is found, if any. -/
def orFail : Option (Reader α) → Reader α
  | some p => p
  | none => fail

/-- A pseudo-class, entered no deeper than the limit. -/
def pseudoClass : (limit : Nat) → Reader PseudoClass
  | 0 => fail
  | limit + 1 => do
    expect [':']
    let word ← span isWordChar
    fork (· == '(')
      (orFail ((spelled? PseudoFunction word).map fun f =>
        inBrackets (arguments (pseudoClass limit) limit f)))
      (orFail ((spelled? PseudoClassKeyword word).map fun k => pure (.keyword k)))

end Reader

/-- **The reader of selector text.** -/
def SelectorList.read (t : List Char) : Option SelectorList :=
  (Reader.selectors (Reader.pseudoClass t.length) t.length).whole t

end Stylesheet
