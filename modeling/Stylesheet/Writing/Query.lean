import Stylesheet.Query.Container
import Stylesheet.Query.Media
import Stylesheet.Query.Supports
import Stylesheet.Writing.Property
import Stylesheet.Writing.Selector

/-! Writing conditions. -/
namespace Stylesheet

/-! ### Features -/

instance : Writes Ratio where
  write r := do
    write r.numerator
    writeChar '/'
    write r.denominator

instance : Writes RangeValue where
  write
    | .length l => write l
    | .ratio r => write r
    | .resolution r => write r

def RangeTest.writeInner : RangeTest → Writer
  | compare feature comparison value => do
    write feature
    writeChar ' '
    write comparison
    writeChar ' '
    write value
  | interval lower fromLower feature toUpper upper => do
    write lower
    writeChar ' '
    write fromLower
    writeChar ' '
    write feature
    writeChar ' '
    write toUpper
    writeChar ' '
    write upper

instance : Writes RangeTest where
  write t := do
    writeChar '('
    t.writeInner
    writeChar ')'

/-- A feature by its name, which may do without a value. -/
def writeFeature (name : List Char) (value : Option Writer) : Writer := do
  writeChar '('
  writeText name
  value.forM fun value => do
    writeWord ": "
    value
  writeChar ')'

def Bound.writeFeature {α : Type} [Writes α] (bound : Bound) (name : String) (value : α) : Writer :=
  Stylesheet.writeFeature (bound.text ++ name.toList) (some (write value))

instance : Writes ContainerFeature where
  write
    | .width bound value => bound.writeFeature "width" value
    | .height bound value => bound.writeFeature "height" value
    | .inlineSize bound value => bound.writeFeature "inline-size" value
    | .blockSize bound value => bound.writeFeature "block-size" value
    | .aspectRatio value => Bound.exactly.writeFeature "aspect-ratio" value
    | .orientation value => Bound.exactly.writeFeature "orientation" value
    | .range test => write test

instance : Writes MediaFeature where
  write
    | .width bound value => bound.writeFeature "width" value
    | .height bound value => bound.writeFeature "height" value
    | .aspectRatio bound value => bound.writeFeature "aspect-ratio" value
    | .resolution bound value => bound.writeFeature "resolution" value
    | .orientation value => Bound.exactly.writeFeature "orientation" value
    | .color bits => writeFeature "color".toList (bits.map write)
    | .minColor bits => Bound.atLeast.writeFeature "color" bits
    | .monochrome bits => writeFeature "monochrome".toList (bits.map write)
    | .hover value => Bound.exactly.writeFeature "hover" value
    | .anyHover value => Bound.exactly.writeFeature "any-hover" value
    | .pointer value => Bound.exactly.writeFeature "pointer" value
    | .anyPointer value => Bound.exactly.writeFeature "any-pointer" value
    | .prefersColorScheme value => Bound.exactly.writeFeature "prefers-color-scheme" value
    | .prefersReducedMotion value => Bound.exactly.writeFeature "prefers-reduced-motion" value
    | .prefersReducedTransparency value =>
      Bound.exactly.writeFeature "prefers-reduced-transparency" value
    | .prefersReducedData value => Bound.exactly.writeFeature "prefers-reduced-data" value
    | .prefersContrast value => Bound.exactly.writeFeature "prefers-contrast" value
    | .forcedColors value => Bound.exactly.writeFeature "forced-colors" value
    | .displayMode value => Bound.exactly.writeFeature "display-mode" value
    | .range test => write test

/-! ### Media -/

instance : Writes MediaQuery where
  write q := do
    q.modifiers.forM fun modifier => do
      write modifier
      writeChar ' '
    q.type.forM fun type => do
      write type
      writeIf (!q.features.isEmpty) (writeWord " and ")
    writeSeparated " and " q.features

/-- The list of queries alone. -/
def Media.writeList (m : Media) : Writer := writeCommaSeparated m.queries.toList

instance : Writes Media where
  write m := do
    writeWord "@media "
    m.writeList

/-! ### Conditions -/

namespace Condition
variable {Test : Type} [Writes Test]

/-- A condition inside an operator: all but a single test in parentheses. -/
def writeEnclosed (c : Condition Test) (writer : Writer) : Writer :=
  match c with
  | test _ => writer
  | _ => do
    writeChar '('
    writer
    writeChar ')'

/-- An operator with the white space around it. -/
def writeOperator (operator : String) : Writer := do
  writeChar ' '
  writeWord operator
  writeChar ' '

mutual

def write : Condition Test → Writer
  | test t => Writes.write t
  | not c => do
    writeWord "not "
    c.writeEnclosed c.write
  | and cs => writeBetween (writeOperator "and") (termWriters cs)
  | or cs => writeBetween (writeOperator "or") (termWriters cs)
termination_by structural c => c

def termWriters : List (Condition Test) → List Writer
  | [] => []
  | c :: cs => c.writeEnclosed c.write :: termWriters cs
termination_by structural cs => cs

end

instance : Writes (Condition Test) := ⟨write⟩

end Condition

/-! ### Support -/

instance : Writes SupportsTest where
  write
    | .declaration d => writeCall "" (write d)
    | .selector s => writeCall "selector" (write s)
    | .fontTech t => writeCall "font-tech" (write t)
    | .fontFormat f => writeCall "font-format" (write f)

instance : Writes Supports where
  write s := do
    writeWord "@supports "
    write s.condition

/-- The condition as the argument of a function, whose parentheses serve a declaration
that stands alone. -/
def Supports.writeArgument (s : Supports) : Writer :=
  match s.condition.test? with
  | some (.declaration d) => write d
  | _ => write s.condition

/-! ### Containers -/

instance : Writes ContainerTest where
  write
    | .size feature => write feature
    | .style d => writeCall "style" (write d)

instance : Writes Container where
  write c := do
    writeWord "@container "
    c.name.forM fun name => do
      write name
      writeChar ' '
    write c.condition

end Stylesheet
