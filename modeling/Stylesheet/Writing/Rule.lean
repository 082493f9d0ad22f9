import Stylesheet.Rule.Basic
import Stylesheet.Writing.Query

/-! Writing rules. -/
namespace Stylesheet

/-! ### Fonts -/

instance : Writes FontSource where
  write
    | .url u format tech => do
      write u
      format.forM fun format => do
        writeWord " format("
        writeQuoted (Keyword.keyword format)
        writeChar ')'
      writeIf (!tech.isEmpty) do
        writeWord " tech("
        writeCommaSeparated tech
        writeChar ')'
    | .installed name => writeCall "local" (write name)

instance : Writes UnicodeRange where
  write r := do
    writeWord "U+"
    writeText (upperHex r.first)
    writeIf (r.last != r.first) do
      writeChar '-'
      writeText (upperHex r.last)

instance : Writes FontFaceRule where
  write r := do
    writeWord "@font-face "
    write r.descriptors

instance : Writes FeatureBlock where
  write b := do
    writeChar '@'
    write b.kind
    writeChar ' '
    write b.values

instance : Writes FontFeatureValuesRule where
  write r := do
    writeWord "@font-feature-values "
    writeCommaSeparated r.families.toList
    writeChar ' '
    writeBlock do
      r.descriptors.writeEntries
      r.blocks.forM fun b => writeNested (write b)

/-! ### Counter styles -/

instance : Writes CounterSystem where
  write
    | .cyclic => writeWord "cyclic"
    | .numeric => writeWord "numeric"
    | .alphabetic => writeWord "alphabetic"
    | .symbolic => writeWord "symbolic"
    | .additive => writeWord "additive"
    | .fixed first => do
      writeWord "fixed"
      writeClause " " first
    | .extending style => do
      writeWord "extends "
      write style

instance : Writes CounterSymbol where
  write
    | .string text => write text
    | .ident name => write name
    | .image image => write image

instance : Writes WeightedSymbol where
  write s := do
    write s.weight
    writeChar ' '
    write s.symbol

instance : Writes AdditiveSymbols := ⟨fun s => writeCommaSeparated s.tuples.toList⟩

instance : Writes CounterBound where
  write
    | ⟨some value⟩ => write value
    | ⟨none⟩ => writeWord "infinite"

instance : Writes CounterSpan where
  write s := do
    write s.lower
    writeChar ' '
    write s.upper

instance : Writes CounterRange where
  write
    | .auto => writeWord "auto"
    | .spans list => writeCommaSeparated list.toList

instance : Writes SpeakAs where
  write
    | .keyword keyword => write keyword
    | .counterStyle style => write style

instance : Writes CounterStyleRule where
  write r := do
    writeWord "@counter-style "
    write r.name
    writeChar ' '
    write r.descriptors

/-! ### Pages -/

instance : Writes PageSelector where
  write s := do
    s.name.forM write
    s.pseudos.forM fun pseudo => do
      writeChar ':'
      write pseudo

instance : Writes PageSize where
  write
    | .auto => writeWord "auto"
    | .dimensions width height => do
      write width
      writeClause " " height
    | .paper size orientation => do
      write size
      writeClause " " orientation
    | .orientation orientation => write orientation

instance : Writes MarginRule where
  write r := do
    writeChar '@'
    write r.box
    writeChar ' '
    write r.declarations

instance : Writes PageRule where
  write r := do
    writeWord "@page "
    writeIf (!r.selectors.isEmpty) do
      writeCommaSeparated r.selectors
      writeChar ' '
    writeBlock do
      r.descriptors.writeEntries
      r.margins.forM fun m => writeNested (write m)

/-! ### Registered properties -/

instance : Writes GrammarTerm where
  write
    | .type type multiplier => do
      write type
      multiplier.forM write
    | .ident name multiplier => do
      write name
      multiplier.forM write

/-- The grammar before it is quoted. -/
def ValueGrammar.writePlain : ValueGrammar → Writer
  | universal => writeChar '*'
  | alternatives terms => writeSeparated " | " terms.toList

/-- Written into a buffer of its own first, and from there into quotes. -/
instance : Writes ValueGrammar where
  write g :=
    let text := (g.writePlain.run "").2
    writeQuoted text

instance : Writes Inherits := ⟨fun i => writeWord (if i.inherits then "true" else "false")⟩

instance : Writes PropertyRule where
  write r := do
    writeWord "@property "
    write r.name
    writeChar ' '
    write r.descriptors

/-! ### Keyframes -/

instance : Writes KeyframeOffset where
  write
    | .start => writeWord "from"
    | .finish => writeWord "to"
    | .percent offset => write offset

instance : Writes Keyframe where
  write k := do
    writeCommaSeparated k.offsets.toList
    writeChar ' '
    write k.declarations

instance : Writes KeyframesRule where
  write r := do
    writeWord "@keyframes "
    write r.name
    writeChar ' '
    writeBlock (r.keyframes.forM fun k => writeNested (write k))

/-! ### Statements -/

/-- The content between the name and the semicolon. -/
def writeStatement (name : String) (content : Writer) : Writer := do
  writeChar '@'
  writeWord name
  writeChar ' '
  content
  writeChar ';'

instance : Writes LayerName := ⟨fun l => writeSeparated "." l.path.toList⟩

instance : Writes ImportLayer where
  write
    | .anonymous => writeWord "layer"
    | .named name => writeCall "layer" (write name)

/-- The clauses in their order, each with its space. -/
instance : Writes ImportRule where
  write r :=
    writeStatement "import" do
      write r.url
      writeClause " " r.layer
      r.supports.forM fun condition => do
        writeChar ' '
        writeCall "supports" condition.writeArgument
      r.media.forM fun media => do
        writeChar ' '
        media.writeList

instance : Writes NamespaceRule where
  write r :=
    writeStatement "namespace" do
      r.label.forM fun label => do
        write label
        writeChar ' '
      write r.url

instance : Writes CharsetRule := ⟨fun r => writeStatement "charset" (writeQuoted r.encoding)⟩

/-! ### Rules with a block of rules -/

instance : Writes StyleRule where
  write r := do
    write r.selectors
    writeChar ' '
    write r.declarations

/-- The rules of a block, each with a space in front. -/
def writeRuleBlock (rules : List Writer) : Writer := do
  writeChar ' '
  writeBlock (rules.forM writeNested)

namespace Rule

mutual

/-- The writer of a rule. It is made by recursion, as the text is. -/
def write : Rule → Writer
  | style rule => Writes.write rule
  | media condition rules => do
    Writes.write condition
    writeRuleBlock (writers rules)
  | supports condition rules => do
    Writes.write condition
    writeRuleBlock (writers rules)
  | container condition rules => do
    Writes.write condition
    writeRuleBlock (writers rules)
  | layerOrder names => writeStatement "layer" (writeCommaSeparated names.toList)
  | layer name rules => do
    writeWord "@layer"
    writeClause " " name
    writeRuleBlock (writers rules)
  | fontFace rule => Writes.write rule
  | page rule => Writes.write rule
  | counterStyle rule => Writes.write rule
  | property rule => Writes.write rule
  | fontFeatureValues rule => Writes.write rule
  | keyframes rule => Writes.write rule
  | importRule rule => Writes.write rule
  | namespaceRule rule => Writes.write rule
  | charset rule => Writes.write rule
termination_by structural r => r

/-- The writers of the rules in a block. -/
def writers : List Rule → List Writer
  | [] => []
  | r :: rs => r.write :: writers rs
termination_by structural rs => rs

end

instance : Writes Rule := ⟨write⟩

end Rule
end Stylesheet
