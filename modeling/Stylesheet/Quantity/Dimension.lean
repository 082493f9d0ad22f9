import Stylesheet.Keyword
import Stylesheet.Quantity.Number

/-! Numbers with a unit: lengths, angles, times and resolutions. -/
namespace Stylesheet

/-- A number with a unit. The number may be any, NaN included. -/
structure Dimension (Unit : Type) where
  value : Binary32
  unit : Unit
  deriving BEq

instance {Unit : Type} [Keyword Unit] : ToCss (Dimension Unit) :=
  ⟨fun d => dimensionText d.value (css d.unit)⟩

/-! ### Units -/

/-- Absolute units, then those relative to the font, the viewport and the container. -/
inductive LengthUnit where
  | px | cm | mm | q | inch | pt | pc | em | rem | ex | rex | cap | rcap | ch | rch | ic | ric
  | lh | rlh | vw | vh | vi | vb | vmin | vmax | svw | svh | lvw | lvh | dvw | dvh | cqw | cqh
  | cqi | cqb | cqmin | cqmax
  deriving DecidableEq

instance : Keyword LengthUnit where
  all := [.px, .cm, .mm, .q, .inch, .pt, .pc, .em, .rem, .ex, .rex, .cap, .rcap, .ch, .rch,
    .ic, .ric, .lh, .rlh, .vw, .vh, .vi, .vb, .vmin, .vmax, .svw, .svh, .lvw, .lvh, .dvw, .dvh,
    .cqw, .cqh, .cqi, .cqb, .cqmin, .cqmax]
  keyword
    | .px => "px"
    | .cm => "cm"
    | .mm => "mm"
    | .q => "q"
    | .inch => "in"
    | .pt => "pt"
    | .pc => "pc"
    | .em => "em"
    | .rem => "rem"
    | .ex => "ex"
    | .rex => "rex"
    | .cap => "cap"
    | .rcap => "rcap"
    | .ch => "ch"
    | .rch => "rch"
    | .ic => "ic"
    | .ric => "ric"
    | .lh => "lh"
    | .rlh => "rlh"
    | .vw => "vw"
    | .vh => "vh"
    | .vi => "vi"
    | .vb => "vb"
    | .vmin => "vmin"
    | .vmax => "vmax"
    | .svw => "svw"
    | .svh => "svh"
    | .lvw => "lvw"
    | .lvh => "lvh"
    | .dvw => "dvw"
    | .dvh => "dvh"
    | .cqw => "cqw"
    | .cqh => "cqh"
    | .cqi => "cqi"
    | .cqb => "cqb"
    | .cqmin => "cqmin"
    | .cqmax => "cqmax"

/-- Units of an angle: degrees, radians, gradians and turns. -/
inductive AngleUnit where
  | deg | rad | grad | turn
  deriving DecidableEq

instance : Keyword AngleUnit where
  all := [.deg, .rad, .grad, .turn]
  keyword
    | .deg => "deg"
    | .rad => "rad"
    | .grad => "grad"
    | .turn => "turn"

/-- Units of time. -/
inductive TimeUnit where
  | s | ms
  deriving DecidableEq

instance : Keyword TimeUnit where
  all := [.s, .ms]
  keyword
    | .s => "s"
    | .ms => "ms"

/-- Units of resolution. `x` is another name for `dppx`. -/
inductive ResolutionUnit where
  | dpi | dpcm | dppx | x
  deriving DecidableEq

instance : Keyword ResolutionUnit where
  all := [.dpi, .dpcm, .dppx, .x]
  keyword
    | .dpi => "dpi"
    | .dpcm => "dpcm"
    | .dppx => "dppx"
    | .x => "x"

/-! ### The dimensions -/

/-- A distance. -/
abbrev Length := Dimension LengthUnit

/-- An angle. -/
abbrev Angle := Dimension AngleUnit

/-- A duration or a delay. -/
abbrev Time := Dimension TimeUnit

/-- Dots to a length. -/
abbrev Resolution := Dimension ResolutionUnit

/-- A distance in pixels. -/
def Length.px (x : Binary32) : Length := ⟨x, .px⟩

/-- A length, or a share of some length that the property decides on. -/
inductive LengthPercentage where
  | length (l : Length)
  | percentage (p : Percentage)
  deriving BEq

namespace LengthPercentage

/-- Pixels, as a length. -/
def px (x : Binary32) : LengthPercentage := .length (.px x)

/-- A share of a hundred. -/
def percent (x : Binary32) : LengthPercentage := .percentage ⟨x⟩

/-- The number, whatever the unit. Whether it is negative does not depend on that. -/
def value : LengthPercentage → Binary32
  | length l => l.value
  | percentage p => p.value

end LengthPercentage

instance : ToCss LengthPercentage where
  css
    | .length l => css l
    | .percentage p => css p

/-- A length, or one that follows from the layout. -/
abbrev LengthPercentageOrAuto := OrAuto LengthPercentage

end Stylesheet
