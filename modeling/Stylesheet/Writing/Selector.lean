import Stylesheet.Selector.Text
import Stylesheet.Writing.Value

/-! Writing selectors. -/
namespace Stylesheet

instance : Writes Combinator where
  write c := do
    writeChar ' '
    c.symbol?.forM fun symbol => do
      writeWord symbol
      writeChar ' '

instance : Writes TypeSelector where
  write
    | .universal => writeChar '*'
    | .element name => write name

instance : Writes AttributeSelector where
  write a := do
    writeChar '['
    write a.name
    a.test.forM fun test => do
      write test.matcher
      writeQuoted test.value
      writeClause " " test.flag
    writeChar ']'

/-- The offset after a coefficient, always with a sign and missing when it is zero. -/
def Nth.writeOffset (b : Int) : Writer :=
  if 0 < b then do
    writeChar '+'
    write b
  else if b < 0 then write b
  else pure ()

def Nth.writeStep (a : Int) : Writer :=
  if a = 1 then writeChar 'n'
  else if a = -1 then writeWord "-n"
  else do
    write a
    writeChar 'n'

instance : Writes Nth where
  write
    | .odd => writeWord "odd"
    | .even => writeWord "even"
    | .steps a b =>
      if a = 0 then write b
      else do
        Nth.writeStep a
        Nth.writeOffset b

/-- The name behind the two colons. -/
def PseudoElement.name : PseudoElement → String
  | before => "before"
  | after => "after"
  | firstLine => "first-line"
  | firstLetter => "first-letter"
  | marker => "marker"
  | placeholder => "placeholder"
  | selection => "selection"
  | backdrop => "backdrop"
  | fileSelectorButton => "file-selector-button"
  | part _ => "part"

/-- The arguments of the only pseudo-element that takes any. -/
def PseudoElement.writeNames : PseudoElement → Writer
  | part names => do
    writeChar '('
    writeSeparated " " names.toList
    writeChar ')'
  | _ => pure ()

instance : Writes PseudoElement where
  write e := do
    writeWord "::"
    writeWord e.name
    e.writeNames

/-- Functional notation for pseudo-classes. -/
def writePseudoCall (name : String) (body : Writer) : Writer := do
  writeChar ':'
  writeWord name
  writeChar '('
  body
  writeChar ')'

/-- Positions, among the elements that `selectors` matches if there are any. -/
def writeNth (nth : Nth) (selectors : Option Writer) : Writer := do
  write nth
  selectors.forM fun selectors => do
    writeWord " of "
    selectors

mutual

def Filter.write : Filter → Writer
  | .id name => do
    writeChar '#'
    Writes.write name
  | .class name => do
    writeChar '.'
    Writes.write name
  | .attribute selector => Writes.write selector
  | .pseudo pseudo => pseudo.write
termination_by structural f => f

def PseudoClass.write : PseudoClass → Writer
  | .keyword keyword => do
    writeChar ':'
    Writes.write keyword
  | .not ⟨s, ss⟩ =>
    writePseudoCall "not" (writeBetween (writeWord ", ") (s.write :: Selector.writers ss))
  | .is ⟨s, ss⟩ =>
    writePseudoCall "is" (writeBetween (writeWord ", ") (s.write :: Selector.writers ss))
  | .whereAny ⟨s, ss⟩ =>
    writePseudoCall "where" (writeBetween (writeWord ", ") (s.write :: Selector.writers ss))
  | .has ⟨s, ss⟩ =>
    writePseudoCall "has" (writeBetween (writeWord ", ") (s.write :: RelativeSelector.writers ss))
  | .nthChild nth none => writePseudoCall "nth-child" (writeNth nth none)
  | .nthChild nth (some ⟨s, ss⟩) =>
    writePseudoCall "nth-child"
      (writeNth nth (some (writeBetween (writeWord ", ") (s.write :: Selector.writers ss))))
  | .nthLastChild nth none => writePseudoCall "nth-last-child" (writeNth nth none)
  | .nthLastChild nth (some ⟨s, ss⟩) =>
    writePseudoCall "nth-last-child"
      (writeNth nth (some (writeBetween (writeWord ", ") (s.write :: Selector.writers ss))))
  | .nthOfType nth => writePseudoCall "nth-of-type" (Writes.write nth)
  | .nthLastOfType nth => writePseudoCall "nth-last-of-type" (Writes.write nth)
  | .lang ranges => writePseudoCall "lang" (writeCommaSeparated ranges.toList)
  | .dir direction => writePseudoCall "dir" (Writes.write direction)
termination_by structural p => p

def Compound.write : Compound → Writer
  | .mk none [] none => writeChar '*'
  | .mk type filters element => do
    type.forM Writes.write
    (Filter.writers filters).forM id
    element.forM Writes.write
termination_by structural c => c

def Selector.write : Selector → Writer
  | .compound c => c.write
  | .combined left combinator right => do
    left.write
    Writes.write combinator
    right.write
termination_by structural s => s

def RelativeSelector.write : RelativeSelector → Writer
  | .mk combinator selector => do
    combinator.symbol?.forM fun symbol => do
      writeWord symbol
      writeChar ' '
    selector.write
termination_by structural s => s

def Filter.writers : List Filter → List Writer
  | [] => []
  | f :: fs => f.write :: Filter.writers fs
termination_by structural fs => fs

def Selector.writers : List Selector → List Writer
  | [] => []
  | s :: ss => s.write :: Selector.writers ss
termination_by structural ss => ss

def RelativeSelector.writers : List RelativeSelector → List Writer
  | [] => []
  | s :: ss => s.write :: RelativeSelector.writers ss
termination_by structural ss => ss

end

instance : Writes Filter := ⟨Filter.write⟩

instance : Writes PseudoClass := ⟨PseudoClass.write⟩

instance : Writes Compound := ⟨Compound.write⟩

instance : Writes Selector := ⟨Selector.write⟩

instance : Writes RelativeSelector := ⟨RelativeSelector.write⟩

instance : Writes SelectorList := ⟨fun l => writeCommaSeparated l.toList⟩

end Stylesheet
