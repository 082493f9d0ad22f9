import Stylesheet.Declaration.Descriptors
import Stylesheet.Writing.Value

/-! Writing properties, and the blocks that hold them. -/
namespace Stylesheet

variable {α : Type}

/-! ### Text -/

instance : Writes FamilyList := ⟨fun l => writeCommaSeparated l.families.toList⟩

instance : Writes FontSize where
  write
    | .absolute size => write size
    | .relative size => write size
    | .size value => write value
    | .math => writeWord "math"

instance : Writes FontWeight where
  write
    | .normal => writeWord "normal"
    | .bold => writeWord "bold"
    | .bolder => writeWord "bolder"
    | .lighter => writeWord "lighter"
    | .number weight => write weight

instance : Writes FontStyle where
  write
    | .normal => writeWord "normal"
    | .italic => writeWord "italic"
    | .oblique angle => do
      writeWord "oblique"
      writeClause " " angle

/-- The words of the lines that are set, `first` as long as none has been written. -/
def DecorationLines.writeWords (first : Bool) : List (Bool × String) → Writer
  | [] => pure ()
  | (false, _) :: lines => writeWords first lines
  | (true, word) :: lines => do
    writeIf (!first) (writeChar ' ')
    writeWord word
    writeWords false lines

instance : Writes DecorationLines where
  write d :=
    if d = .empty then writeWord "none"
    else DecorationLines.writeWords true [(d.underline, "underline"), (d.overline, "overline"),
      (d.lineThrough, "line-through"), (d.blink, "blink")]

/-! ### Grids -/

instance : Writes GridLine where
  write
    | .auto => writeWord "auto"
    | .line i => write i.index
    | .named name => write name
    | .span n => do
      writeWord "span "
      write n.count

instance : Writes TrackBreadth where
  write
    | .size value => write value
    | .flex share => writeDimension share.value "fr"
    | .minContent => writeWord "min-content"
    | .maxContent => writeWord "max-content"
    | .auto => writeWord "auto"

instance : Writes TrackSize where
  write
    | .breadth b => write b
    | .between least most =>
      writeCall "minmax" do
        write least
        writeWord ", "
        write most
    | .fitContent limit => writeCall "fit-content" (write limit)

instance : Writes RepeatCount where
  write
    | .times n => write n
    | .autoFill => writeWord "auto-fill"
    | .autoFit => writeWord "auto-fit"

instance : Writes Repeat where
  write r :=
    writeCall "repeat" do
      write r.count
      writeWord ", "
      writeSeparated " " r.tracks.toList

instance : Writes TrackItem where
  write
    | .track size => write size
    | .lineNames names => do
      writeChar '['
      writeSeparated " " names
      writeChar ']'
    | .repeated tracks => write tracks

/-! ### Motion -/

instance : Writes CubicBezier where
  write c :=
    writeCall "cubic-bezier" (writeCommaSeparated [c.x₁.value, c.y₁, c.x₂.value, c.y₂])

instance : Writes Steps where
  write s :=
    writeCall "steps" do
      write s.count
      writeClause ", " s.position

instance : Writes Easing where
  write
    | .linear => writeWord "linear"
    | .ease => writeWord "ease"
    | .easeIn => writeWord "ease-in"
    | .easeOut => writeWord "ease-out"
    | .easeInOut => writeWord "ease-in-out"
    | .stepStart => writeWord "step-start"
    | .stepEnd => writeWord "step-end"
    | .cubicBezier c => write c
    | .steps s => write s

/-- The second argument may be missing. -/
def writePair [Writes α] (first : α) (second : Option α) : Writer := do
  write first
  writeClause ", " second

instance : Writes TransformFunction where
  write
    | .translate x y => writeCall "translate" (writePair x y)
    | .translateX x => writeCall "translateX" (write x)
    | .translateY y => writeCall "translateY" (write y)
    | .scale x y => writeCall "scale" (writePair x y)
    | .scaleX x => writeCall "scaleX" (writeNumber x)
    | .scaleY y => writeCall "scaleY" (writeNumber y)
    | .rotate angle => writeCall "rotate" (write angle)
    | .skew x y => writeCall "skew" (writePair x y)
    | .skewX x => writeCall "skewX" (write x)
    | .skewY y => writeCall "skewY" (write y)
    | .matrix a b c d e f => writeCall "matrix" (writeCommaSeparated [a, b, c, d, e, f])
    | .perspective distance => writeCall "perspective" (write distance)

instance : Writes TransitionTarget where
  write
    | .all => writeWord "all"
    | .property name => write name
    | .custom name => write name

/-! ### Properties -/

instance : (name : PropertyName) → Writes name.grammar.Value := by
  intro name
  cases name <;> infer_instance

instance [Writes α] : Writes (Specified α) where
  write
    | .own value => write value
    | .wide keyword => write keyword

instance : Writes Property := ⟨fun p => write p.value⟩

/-! ### Declarations -/

instance : Writes Declaration where
  write d := do
    writeText d.name
    writeChar ':'
    writeText d.value
    writeIf d.important (writeWord "!important")

/-- A body between braces. The body brings the space in front of its parts. -/
def writeBlock (body : Writer) : Writer := do
  writeChar '\x7b'
  body
  writeWord " \x7d"

/-- A declaration in a block, with its space and its semicolon. -/
def writeEntry (d : Declaration) : Writer := do
  writeChar ' '
  write d
  writeChar ';'

/-- Something with a block of its own, as a part of a block. -/
def writeNested (rule : Writer) : Writer := do
  writeChar ' '
  rule

instance : Writes DeclarationBlock := ⟨fun b => writeBlock (b.declarations.forM writeEntry)⟩

/-- The entries without the braces, for blocks that hold more than entries. -/
def Descriptors.writeEntries (ds : Descriptors) : Writer := ds.entries.forM writeEntry

instance : Writes Descriptors := ⟨fun ds => writeBlock ds.writeEntries⟩

instance {separator : String} [Writes α] : Writes (Listed separator α) :=
  ⟨fun l => writeSeparated separator l.items⟩

instance [Writes α] : Writes (Pair α) where
  write p := do
    write p.first
    writeChar ' '
    write p.second

end Stylesheet
