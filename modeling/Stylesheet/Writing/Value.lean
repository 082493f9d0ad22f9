import Stylesheet.Box.Border
import Stylesheet.Box.Extent
import Stylesheet.Box.Position
import Stylesheet.Box.Sides
import Stylesheet.Box.Spacing
import Stylesheet.Paint.Background
import Stylesheet.Paint.Image
import Stylesheet.Paint.Shadow
import Stylesheet.Writing.Buffer

/-! Writing quantities, colors and boxes. -/
namespace Stylesheet

variable {α : Type}

/-! ### Numbers -/

/-- NaN or an infinity, as a formula. -/
def writeNonFinite (x : Binary32) (unit : Option String) : Writer :=
  writeCall "calc" do
    writeText x.keyword
    unit.forM fun unit => do
      writeWord " * 1"
      writeWord unit

/-- Nought is written at once, so that its sign is lost. -/
def writeNumber (x : Binary32) : Writer :=
  if !x.isFinite then writeNonFinite x none
  else if x == 0 then writeChar '0'
  else writeText x.digits

/-- The unit follows a finite number, and is a factor of any other. -/
def writeDimension (x : Binary32) (unit : String) : Writer :=
  if x.isFinite then do
    writeNumber x
    writeWord unit
  else writeNonFinite x (some unit)

instance : Writes Binary32 := ⟨writeNumber⟩

instance : Writes Int := ⟨fun i => writeText (integerText i)⟩

instance : Writes Nat := ⟨fun n => writeText (decimalDigits n)⟩

instance {r : Range} : Writes (Clamped r) := ⟨fun x => write x.value⟩

instance : Writes Percentage := ⟨fun p => writeDimension p.value "%"⟩

instance : Writes ClampedPercentage := ⟨fun p => write p.percentage⟩

instance {Unit : Type} [Keyword Unit] : Writes (Dimension Unit) :=
  ⟨fun d => writeDimension d.value (Keyword.keyword d.unit)⟩

instance : Writes LengthPercentage where
  write
    | .length l => write l
    | .percentage p => write p

instance [Signed α] [Writes α] : Writes (NonNegative α) := ⟨fun a => write a.value⟩

/-! ### Paint -/

/-- One digit for each channel when every channel repeats its digit, otherwise two. -/
def writeHex (channels : List UInt8) : Writer := do
  let short := channels.all fun c => c / 16 == c % 16
  writeChar '#'
  channels.forM fun c => do
    writeIf (!short) (writeChar (Nat.digitChar (c / 16).toNat))
    writeChar (Nat.digitChar (c % 16).toNat)

instance : Writes Hsl where
  write c :=
    writeCall (if c.alpha.isSome then "hsla" else "hsl") do
      write c.hue
      writeWord ", "
      write c.saturation
      writeWord ", "
      write c.lightness
      writeClause ", " c.alpha

instance : Writes Hwb where
  write c :=
    writeCall "hwb" do
      write c.hue
      writeChar ' '
      write c.whiteness
      writeChar ' '
      write c.blackness
      writeClause " / " c.alpha

instance : Writes Color where
  write
    | .currentColor => writeWord "currentcolor"
    | .transparent => writeWord "transparent"
    | .named name => write name
    | .system name => write name
    | .hex r g b none => writeHex [r, g, b]
    | .hex r g b (some a) => writeHex [r, g, b, a]
    | .rgb r g b => writeCall "rgb" (writeCommaSeparated [r.toNat, g.toNat, b.toNat])
    | .rgba r g b alpha =>
      writeCall "rgba" do
        writeCommaSeparated [r.toNat, g.toNat, b.toNat]
        writeWord ", "
        write alpha
    | .hsl c => write c
    | .hwb c => write c

instance : Writes ColorStop where
  write s := do
    write s.color
    writeClause " " s.position

instance : Writes LinearGradient where
  write g := do
    writeIf g.repeating (writeWord "repeating-")
    writeCall "linear-gradient" do
      g.direction.forM fun direction => do
        write direction
        writeWord ", "
      writeCommaSeparated g.stops

instance : Writes Image where
  write
    | .none => writeWord "none"
    | .url u => write u
    | .gradient g => write g

instance : Writes BackgroundSize where
  write
    | .cover => writeWord "cover"
    | .contain => writeWord "contain"
    | .explicit width height => do
      write width
      writeClause " " height

instance : Writes TextShadow where
  write s := do
    write s.x
    writeChar ' '
    write s.y
    writeClause " " s.blur
    writeClause " " s.color

/-- The lengths after the offsets. A spread has to have a blur before it. -/
def BoxShadow.writeExtent : Option (NonNegative Length) → Option Length → Writer
  | some blur, spread => do
    writeChar ' '
    write blur
    writeClause " " spread
  | none, some spread => do
    writeChar ' '
    write (Length.px 0)
    writeChar ' '
    write spread
  | none, none => pure ()

instance : Writes BoxShadow where
  write s := do
    writeIf s.inset (writeWord "inset ")
    write s.x
    writeChar ' '
    write s.y
    BoxShadow.writeExtent s.blur s.spread
    writeClause " " s.color

/-! ### Boxes -/

instance : Writes LineWidth where
  write
    | .thin => writeWord "thin"
    | .medium => writeWord "medium"
    | .thick => writeWord "thick"
    | .length value => write value

/-- A space, if anything has been written since the buffer had `start` bytes. -/
def writeSeparator (start : Nat) : Writer := do
  if (← get).utf8ByteSize > start then writeChar ' '

/-- What is missing is known by the length of the buffer alone. -/
instance : Writes BorderSide where
  write s := do
    let start := (← get).utf8ByteSize
    s.width.forM write
    s.style.forM fun style => do
      writeSeparator start
      write style
    s.color.forM fun color => do
      writeSeparator start
      write color
    if (← get).utf8ByteSize == start then writeWord "none"

instance : Writes Extent where
  write
    | .size value => write value
    | .minContent => writeWord "min-content"
    | .maxContent => writeWord "max-content"
    | .fitContent => writeWord "fit-content"
    | .fitContentUpTo limit => writeCall "fit-content" (write limit)

instance : Writes Position where
  write
    | .keywords x y => do
      write x
      writeChar ' '
      write y
    | .values x y => do
      write x
      writeChar ' '
      write y
    | .offsets xSide x ySide y => do
      write xSide
      writeChar ' '
      write x
      writeChar ' '
      write ySide
      writeChar ' '
      write y

/-- Stops as soon as the sides that are left repeat the ones before. -/
instance [Writes α] [BEq α] : Writes (Sides α) where
  write s := do
    write s.top
    let sameVertical := s.top == s.bottom
    let sameHorizontal := s.left == s.right
    if sameVertical && sameHorizontal && s.top == s.right then return
    writeChar ' '
    write s.right
    if sameVertical && sameHorizontal then return
    writeChar ' '
    write s.bottom
    if sameHorizontal then return
    writeChar ' '
    write s.left

instance : Writes Gaps where
  write g := do
    write g.row
    writeClause " " g.column

instance : Writes BorderSpacing where
  write s := do
    write s.horizontal
    writeClause " " s.vertical

end Stylesheet
